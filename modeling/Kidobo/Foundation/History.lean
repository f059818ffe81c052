import Mathlib

/-!
# Histories of a transition system

A system steps from state to state, and each step is labelled by what happened.
A history lists the transitions in their order. What every step preserves holds
before every transition of a history and at its end.

## Main definitions

* `Transition`, `History`: labelled steps and their sequences

## Main results

* `History.invariant`: invariants hold throughout a history
* `History.snoc`, `History.relabel`: longer and relabelled histories
-/

namespace Foundation

variable {State Label : Type*}

/-- One step of a system, with the states around it. -/
structure Transition (State Label : Type*) where
  before : State
  label : Label
  after : State

/-- The sequences of steps from one state to another. -/
inductive History (step : State → Label → State → Prop) :
    State → List (Transition State Label) → State → Prop
  | nil (state : State) : History step state [] state
  | cons {before after last : State} {label : Label} {later : List (Transition State Label)}
      (stepped : step before label after) (rest : History step after later last) :
      History step before (⟨before, label, after⟩ :: later) last

namespace History

variable {step : State → Label → State → Prop} {start middle last : State}
  {events later : List (Transition State Label)}

/-- Every transition of a history is a step. -/
theorem stepped (history : History step start events last) :
    ∀ event ∈ events, step event.before event.label event.after := by
  induction history with
  | nil => exact List.forall_mem_nil _
  | cons isStep _ ih => exact List.forall_mem_cons.mpr ⟨isStep, ih⟩

/-- What every transition preserves holds before each of them and at the end. -/
theorem invariant {inv : State → Prop} (history : History step start events last)
    (starts : inv start)
    (preserved : ∀ event ∈ events, step event.before event.label event.after →
      inv event.before → inv event.after) :
    (∀ event ∈ events, inv event.before) ∧ inv last := by
  induction history with
  | nil => exact ⟨List.forall_mem_nil _, starts⟩
  | cons isStep _ ih =>
    obtain ⟨first, others⟩ := List.forall_mem_cons.mp preserved
    obtain ⟨holds, ends⟩ := ih (first isStep starts) others
    exact ⟨List.forall_mem_cons.mpr ⟨starts, holds⟩, ends⟩

/-- A history goes on with one more step. -/
theorem snoc {before after : State} {label : Label} (history : History step start events before)
    (isStep : step before label after) :
    History step start (events ++ [⟨before, label, after⟩]) after := by
  induction history with
  | nil state => exact .cons isStep (.nil after)
  | cons first _ ih => exact .cons first (ih isStep)

/-- The same states with other labels are a history of any system that has
these steps. -/
theorem relabel {Label' : Type*} {step' : State → Label' → State → Prop}
    (history : History step start events last) (relabels : Transition State Label → Label')
    (steps : ∀ event ∈ events, step' event.before (relabels event) event.after) :
    History step' start (events.map fun event => ⟨event.before, relabels event, event.after⟩)
      last := by
  induction history with
  | nil state => exact .nil state
  | cons _ _ ih =>
    obtain ⟨first, others⟩ := List.forall_mem_cons.mp steps
    exact .cons first (ih others)

end History

end Foundation
