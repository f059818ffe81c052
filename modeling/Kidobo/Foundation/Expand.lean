import Kidobo.Foundation.Program

/-!
# Programs over a lower interface

An operation of an interface may itself be carried out by a program over a lower
interface. Carrying out every operation of a program so gives a program over the
lower interface. The lower programs report their failures as results, so they
have no failure of their own.

What a program can issue at all is a property of its text. It bounds what a run
can do to the state, whatever the environment answers.

## Main definitions

* `Program.followedBy`, `Program.expand`: operations carried out by lower programs
* `Program.Issues`: every operation that is issued is of a kind

## Main results

* `Program.expand_bind`, `Program.expand_attempt`
* `wp_followedBy`: the contract of an operation that is carried out
* `wp_of_issues`: what every issued operation keeps, the program keeps
* `wp_related_of_issues`: what every issued operation leaves alone
* `wp_invariant`: what the guaranteed steps keep
* `wp_expand`: an interface whose operations are carried out as promised
* `wp_component`: a contract of a component behind a larger interface
* `Program.Issues.expand`: what the carried out program issues
* `exists_runs_bind`: runs of a composition
-/

namespace Foundation

variable {Op Op' : Type} {Res : Op → Type} {Res' : Op' → Type} {ε ε' α β State : Type}

namespace Program

/-! ### Carrying out operations -/

/-- A program that cannot fail, and then another one. -/
def followedBy (next : β → Program Op Res ε α) : Program Op Res Empty β → Program Op Res ε α
  | ret value => next value
  | fail impossible => impossible.elim
  | spin => spin
  | call op rest => call op fun result => (rest result).followedBy next

/-- Carry out every operation by a program over a lower interface. -/
def expand (carryOut : (op : Op) → Program Op' Res' Empty (Res op)) :
    Program Op Res ε α → Program Op' Res' ε α
  | ret value => ret value
  | fail error => fail error
  | spin => spin
  | call op next => (carryOut op).followedBy fun result => (next result).expand carryOut

section Expand

variable {carryOut : (op : Op) → Program Op' Res' Empty (Res op)}

theorem followedBy_bind {γ : Type} (lower : Program Op Res Empty γ) (middle : γ → Program Op Res ε β)
    (next : β → Program Op Res ε α) :
    (lower.followedBy middle >>= next) = lower.followedBy fun value => middle value >>= next := by
  induction lower with
  | ret value => rfl
  | fail impossible => exact impossible.elim
  | spin => rfl
  | call op rest ih => exact congrArg (call op) (funext ih)

theorem followedBy_attempt (lower : Program Op Res Empty β) (next : β → Program Op Res ε α) :
    ((lower.followedBy next).attempt : Program Op Res ε' (Except ε α)) =
      lower.followedBy fun value => (next value).attempt := by
  induction lower with
  | ret value => rfl
  | fail impossible => exact impossible.elim
  | spin => rfl
  | call op rest ih => exact congrArg (call op) (funext ih)

/-- A composition is carried out part by part. -/
theorem expand_bind (program : Program Op Res ε β) (next : β → Program Op Res ε α) :
    (program >>= next).expand carryOut =
      program.expand carryOut >>= fun value => (next value).expand carryOut := by
  induction program with
  | ret value => rfl
  | fail error => rfl
  | spin => rfl
  | call op rest ih =>
    change (carryOut op).followedBy _ = ((carryOut op).followedBy _ >>= _)
    rw [followedBy_bind]
    exact congrArg (followedBy · (carryOut op)) (funext ih)

theorem expand_attempt (program : Program Op Res ε α) :
    (program.attempt : Program Op Res ε' (Except ε α)).expand carryOut =
      (program.expand carryOut).attempt := by
  induction program with
  | ret value => rfl
  | fail error => rfl
  | spin => rfl
  | call op rest ih =>
    change (carryOut op).followedBy _ = ((carryOut op).followedBy _).attempt
    rw [followedBy_attempt]
    exact congrArg (followedBy · (carryOut op)) (funext ih)

theorem expand_ofExcept (outcome : Except ε α) :
    (ofExcept outcome : Program Op Res ε α).expand carryOut = ofExcept outcome := by
  cases outcome <;> rfl

end Expand

/-! ### What a program issues -/

/-- Every operation that the program issues is of this kind, whatever it is
answered. -/
def Issues (allowed : Op → Prop) : Program Op Res ε α → Prop
  | ret _ | fail _ | spin => True
  | call op next => allowed op ∧ ∀ result, (next result).Issues allowed

section Issues

variable {allowed : Op → Prop}

@[simp] theorem issues_ret (value : α) :
    (ret value : Program Op Res ε α).Issues allowed := trivial

@[simp] theorem issues_fail (error : ε) :
    (fail error : Program Op Res ε α).Issues allowed := trivial

@[simp] theorem issues_spin : (spin : Program Op Res ε α).Issues allowed := trivial

@[simp] theorem issues_call (op : Op) (next : Res op → Program Op Res ε α) :
    (call op next).Issues allowed ↔ allowed op ∧ ∀ result, (next result).Issues allowed := Iff.rfl

theorem issues_perform {op : Op} (isAllowed : allowed op) :
    (perform op : Program Op Res ε (Res op)).Issues allowed :=
  ⟨isAllowed, fun _ => trivial⟩

@[simp] theorem issues_ofExcept (outcome : Except ε α) :
    (ofExcept outcome : Program Op Res ε α).Issues allowed := by
  cases outcome <;> trivial

theorem Issues.mono {wider : Op → Prop} {program : Program Op Res ε α}
    (issues : program.Issues allowed) (widens : ∀ op, allowed op → wider op) :
    program.Issues wider := by
  induction program with
  | ret value => trivial
  | fail error => trivial
  | spin => trivial
  | call op next ih => exact ⟨widens op issues.1, fun result => ih result (issues.2 result)⟩

theorem Issues.bind {program : Program Op Res ε β} {next : β → Program Op Res ε α}
    (first : program.Issues allowed) (second : ∀ value, (next value).Issues allowed) :
    (program >>= next).Issues allowed := by
  induction program with
  | ret value => exact second value
  | fail error => trivial
  | spin => trivial
  | call op rest ih => exact ⟨first.1, fun result => ih result (first.2 result)⟩

theorem Issues.attempt {program : Program Op Res ε α} (issues : program.Issues allowed) :
    (program.attempt : Program Op Res ε' (Except ε α)).Issues allowed := by
  induction program with
  | ret value => trivial
  | fail error => trivial
  | spin => trivial
  | call op next ih => exact ⟨issues.1, fun result => ih result (issues.2 result)⟩

theorem Issues.mapError {translate : ε → ε'} {program : Program Op Res ε α}
    (issues : program.Issues allowed) : (program.mapError translate).Issues allowed := by
  induction program with
  | ret value => trivial
  | fail error => trivial
  | spin => trivial
  | call op next ih => exact ⟨issues.1, fun result => ih result (issues.2 result)⟩

theorem Issues.followedBy {lower : Program Op Res Empty β} {next : β → Program Op Res ε α}
    (first : lower.Issues allowed) (second : ∀ value, (next value).Issues allowed) :
    (lower.followedBy next).Issues allowed := by
  induction lower with
  | ret value => exact second value
  | fail impossible => exact impossible.elim
  | spin => trivial
  | call op rest ih => exact ⟨first.1, fun result => ih result (first.2 result)⟩

/-- The carried out program issues what its operations are carried out with. -/
theorem Issues.expand {lower : Op' → Prop} {program : Program Op Res ε α}
    {carryOut : (op : Op) → Program Op' Res' Empty (Res op)} (issues : program.Issues allowed)
    (carried : ∀ op, allowed op → (carryOut op).Issues lower) :
    (program.expand carryOut).Issues lower := by
  induction program with
  | ret value => trivial
  | fail error => trivial
  | spin => trivial
  | call op next ih => exact (carried op issues.1).followedBy fun result => ih result (issues.2 result)

/-- A program behind a larger interface issues its own operations there. -/
theorem Issues.embed {larger : Op' → Prop} {inject : Op → Op'}
    {answer : ∀ op, Res' (inject op) → Res op} {program : Program Op Res ε α}
    (issues : program.Issues fun op => larger (inject op)) :
    (program.embed inject answer).Issues larger := by
  induction program with
  | ret value => trivial
  | fail error => trivial
  | spin => trivial
  | call op next ih => exact ⟨issues.1, fun result => ih _ (issues.2 _)⟩

theorem issues_of_forall (always : ∀ op, allowed op) (program : Program Op Res ε α) :
    program.Issues allowed := by
  induction program with
  | ret value => trivial
  | fail error => trivial
  | spin => trivial
  | call op next ih => exact ⟨always op, ih⟩

end Issues

end Program

/-! ### Contracts -/

section Rules

variable {step guarantee : Step Op Res State} {returns : α → State → Prop}
  {fails : ε → State → Prop}

theorem wp_followedBy (lower : Program Op Res Empty β) (next : β → Program Op Res ε α)
    (state : State) :
    wp step guarantee returns fails (lower.followedBy next) state ↔
      wp step guarantee (fun value => wp step guarantee returns fails (next value))
        (fun impossible _ => impossible.elim) lower state := by
  induction lower generalizing state with
  | ret value => rfl
  | fail impossible => exact impossible.elim
  | spin => rfl
  | call op rest ih =>
    refine forall_congr' fun result => forall_congr' fun after => ?_
    exact imp_congr_right fun _ => and_congr_right fun _ => ih result after

/-- What every issued operation keeps holds at every point of a run. -/
theorem wp_of_issues {allowed : Op → Prop} {kept : State → Prop} {program : Program Op Res ε α}
    {state : State} (issues : program.Issues allowed)
    (keeps : ∀ before op result after, allowed op → step before op result after →
      kept before → kept after) (starts : kept state) :
    wp step (fun _ _ _ after => kept after) (fun _ last => kept last) (fun _ last => kept last)
      program state := by
  induction program generalizing state with
  | ret value => exact starts
  | fail error => exact starts
  | spin => trivial
  | call op next ih =>
    intro result after stepped
    have still := keeps _ _ _ _ issues.1 stepped starts
    exact ⟨still, ih result (issues.2 result) still⟩

/-- What every issued operation relates, the program relates: a frame. -/
theorem wp_related_of_issues {allowed : Op → Prop} {related : State → State → Prop}
    (refl : ∀ state, related state state)
    (trans : ∀ {first second third}, related first second → related second third →
      related first third)
    {program : Program Op Res ε α} (issues : program.Issues allowed)
    (relates : ∀ before op result after, allowed op → step before op result after →
      related before after) (state : State) :
    wp step (fun before _ _ after => related before after) (fun _ last => related state last)
      (fun _ last => related state last) program state := by
  induction program generalizing state with
  | ret value => exact refl state
  | fail error => exact refl state
  | spin => trivial
  | call op next ih =>
    intro result after stepped
    have first := relates _ _ _ _ issues.1 stepped
    exact ⟨first, wp_mono (ih result (issues.2 result) after) (fun _ _ => trans first)
      fun _ _ => trans first⟩

/-- What is kept at every step holds where a run ends. -/
theorem Runs.keeps {kept : State → Prop} {program : Program Op Res ε α} {state last : State}
    {trace : List (Event Op Res State)} {ending : Ending ε α}
    (runs : Runs step program state trace last ending)
    (holds : wp step (fun _ _ _ after => kept after) returns fails program state)
    (starts : kept state) : kept last :=
  (runs.invariant kept (fun event member _ => (runs.sound holds).1 event member) starts).2

/-- A property that the guaranteed steps keep holds before every step and where
the program ends. -/
theorem wp_invariant {kept : State → Prop} {program : Program Op Res ε α} {state : State}
    (holds : wp step guarantee returns fails program state)
    (keeps : ∀ before op result after, step before op result after →
      guarantee before op result after → kept before → kept after) (starts : kept state) :
    wp step (fun before op result after => guarantee before op result after ∧ kept before)
      (fun value last => returns value last ∧ kept last)
      (fun error last => fails error last ∧ kept last) program state := by
  induction program generalizing state with
  | ret value => exact ⟨holds, starts⟩
  | fail error => exact ⟨holds, starts⟩
  | spin => trivial
  | call op next ih =>
    intro result after stepped
    obtain ⟨guaranteed, rest⟩ := holds result after stepped
    exact ⟨⟨guaranteed, starts⟩, ih result rest (keeps _ _ _ _ stepped guaranteed starts)⟩

/-- Two contracts of one program. -/
theorem wp_and {otherGuarantee : Step Op Res State} {otherReturns : α → State → Prop}
    {otherFails : ε → State → Prop} {program : Program Op Res ε α} {state : State}
    (first : wp step guarantee returns fails program state)
    (second : wp step otherGuarantee otherReturns otherFails program state) :
    wp step
      (fun before op result after =>
        guarantee before op result after ∧ otherGuarantee before op result after)
      (fun value last => returns value last ∧ otherReturns value last)
      (fun error last => fails error last ∧ otherFails error last) program state := by
  induction program generalizing state with
  | ret value => exact ⟨first, second⟩
  | fail error => exact ⟨first, second⟩
  | spin => trivial
  | call op next ih =>
    intro result after stepped
    obtain ⟨kept, rest⟩ := first result after stepped
    obtain ⟨otherKept, otherRest⟩ := second result after stepped
    exact ⟨⟨kept, otherKept⟩, ih result rest otherRest⟩

/-- An environment that answers whatever it is asked. -/
def Responsive (step : Step Op Res State) : Prop :=
  ∀ before op, ∃ result after, step before op result after

/-- A contract over an interface holds of the carried out program, once every
operation is carried out as the interface promises. The promised state is seen
through a relation, and an operation may rely on what the contract guarantees
before it. -/
theorem wp_expand {State' : Type} {lower lowerGuarantee : Step Op' Res' State'}
    {asked : State → Op → Prop} {seenAs : State' → State → Prop}
    {carryOut : (op : Op) → Program Op' Res' Empty (Res op)} (responsive : Responsive step)
    (carried : ∀ below above op, seenAs below above → asked above op →
      wp lower lowerGuarantee
        (fun result after => ∃ promised, step above op result promised ∧ seenAs after promised)
        (fun impossible _ => impossible.elim) (carryOut op) below)
    {program : Program Op Res ε α} {below : State'} {above : State} (seen : seenAs below above)
    (holds : wp step (fun before op _ _ => asked before op) returns fails program above) :
    wp lower lowerGuarantee (fun value last => ∃ promised, returns value promised ∧ seenAs last promised)
      (fun error last => ∃ promised, fails error promised ∧ seenAs last promised)
      (program.expand carryOut) below := by
  induction program generalizing below above with
  | ret value => exact ⟨above, holds, seen⟩
  | fail error => exact ⟨above, holds, seen⟩
  | spin => trivial
  | call op next ih =>
    obtain ⟨result, after, possible⟩ := responsive above op
    have isAsked : asked above op := (holds result after possible).1
    change wp _ _ _ _ ((carryOut op).followedBy _) below
    rw [wp_followedBy]
    refine wp_mono (carried below above op seen isAsked) ?_ fun impossible _ _ => impossible.elim
    rintro answer last ⟨promised, stepped, still⟩
    exact ih answer still (holds answer promised stepped).2

/-- A contract over a component of the state holds behind a larger interface,
with whatever the larger steps keep beside the component. -/
theorem wp_component {State' : Type} {larger largerGuarantee : Step Op' Res' State'}
    {inject : Op → Op'} {answer : ∀ op, Res' (inject op) → Res op} {component : State' → State}
    {beside : State' → Prop}
    (refines : ∀ before op given after, beside before → larger before (inject op) given after →
      step (component before) op (answer op given) (component after) ∧ beside after)
    (guards : ∀ before op given after, beside before → beside after →
      guarantee (component before) op (answer op given) (component after) →
      largerGuarantee before (inject op) given after)
    {program : Program Op Res ε α} {state : State'} (starts : beside state)
    (holds : wp step guarantee returns fails program (component state)) :
    wp larger largerGuarantee (fun value last => returns value (component last) ∧ beside last)
      (fun error last => fails error (component last) ∧ beside last)
      (program.embed inject answer) state := by
  induction program generalizing state with
  | ret value => exact ⟨holds, starts⟩
  | fail error => exact ⟨holds, starts⟩
  | spin => trivial
  | call op next ih =>
    intro given after stepped
    obtain ⟨refined, still⟩ := refines _ _ _ _ starts stepped
    obtain ⟨guaranteed, rest⟩ := holds _ _ refined
    exact ⟨guards _ _ _ _ starts still guaranteed, ih _ still rest⟩

/-- A composition runs as its first part can, and then as the second one does. -/
theorem exists_runs_bind {program : Program Op Res ε β} {next : β → Program Op Res ε α}
    {state last : State} {ending : Ending ε α}
    (can : CanReturn step (fun value middle => ∃ trace, Runs step (next value) middle trace last ending)
      program state) :
    ∃ trace, Runs step (program >>= next) state trace last ending := by
  induction program generalizing state with
  | ret value => exact can
  | fail error => exact can.elim
  | spin => exact can.elim
  | call op rest ih =>
    obtain ⟨result, after, stepped, later⟩ := can
    exact exists_runs_call result after stepped (ih result later)

end Rules

end Foundation
