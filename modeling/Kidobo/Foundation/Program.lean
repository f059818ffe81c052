import Mathlib

/-!
# Programs over an operation interface

A program issues operations one after another and chooses the rest of its
behaviour from each result. It returns a value, fails with an error, or is
still spinning in a loop whose turns were bounded for the model.

The environment is a step relation: it decides the result of an operation and
the next state. A run may stop between any two operations. A contract says what
every single step guarantees and what holds on return and on failure; it is
computed backwards through the program by `wp` and is sound for every run.

## Main definitions

* `Program`: operations, results, return, failure
* `Runs`: the runs of a program in an environment, stopped anywhere
* `wp`: the weakest precondition of a step guarantee and two postconditions
* `CanReturn`: some run returns with a postcondition
* `Told`: what relates a returned value to the answers, whatever they are
* `exec`, `Ends`: the one run in a deterministic environment and its contracts

## Main results

* `Runs.sound`: a run from a state satisfying `wp` keeps the guarantee at every
  step and ends in the matching postcondition
* `Runs.invariant`: what every step keeps holds at every point
* `wp_bind`, `wp_mono`, `wp_weaken`, `wp_attempt`, `wp_mapError`
* `exec_bind_of_returned`, `exec_attempt`, `runs_execSteps`, `exists_runs_exec`
* `Ends.exec`, `ends_bind`: contracts of the one run, which include that it ends
-/

namespace Foundation

/-- A program over operations `Op` with results `Res`. -/
inductive Program (Op : Type) (Res : Op → Type) (ε α : Type) : Type where
  | ret (value : α)
  | fail (error : ε)
  | spin
  | call (op : Op) (next : Res op → Program Op Res ε α)

namespace Program

variable {Op : Type} {Res : Op → Type} {ε ε' α β : Type}

/-- Sequential composition. A failure skips the continuation. -/
protected def bind (next : α → Program Op Res ε β) : Program Op Res ε α → Program Op Res ε β
  | ret value => next value
  | fail error => fail error
  | spin => spin
  | call op rest => call op fun result => (rest result).bind next

instance : Monad (Program Op Res ε) where
  pure := ret
  bind program next := program.bind next

instance : MonadExcept ε (Program Op Res ε) where
  throw := fail
  tryCatch program handler :=
    let rec go : Program Op Res ε _ → Program Op Res ε _
      | ret value => ret value
      | fail error => handler error
      | spin => spin
      | call op rest => call op fun result => go (rest result)
    go program

/-- Issue one operation and return its result. -/
def perform (op : Op) : Program Op Res ε (Res op) := call op ret

/-- Turn a failure into a value. -/
def attempt : Program Op Res ε α → Program Op Res ε' (Except ε α)
  | ret value => ret (.ok value)
  | fail error => ret (.error error)
  | spin => spin
  | call op rest => call op fun result => (rest result).attempt

/-- Translate the failures of a program. -/
def mapError (translate : ε → ε') : Program Op Res ε α → Program Op Res ε' α
  | ret value => ret value
  | fail error => fail (translate error)
  | spin => spin
  | call op rest => call op fun result => (rest result).mapError translate

/-- Issue the operations of a program through a larger interface. -/
def embed {Op' : Type} {Res' : Op' → Type} (inject : Op → Op')
    (answer : ∀ op, Res' (inject op) → Res op) : Program Op Res ε α → Program Op' Res' ε α
  | ret value => ret value
  | fail error => fail error
  | spin => spin
  | call op rest => call (inject op) fun result => (rest (answer op result)).embed inject answer

/-- Fail with the error of a result, or return its value. -/
def ofExcept : Except ε α → Program Op Res ε α
  | .ok value => ret value
  | .error error => fail error

@[simp] theorem pure_eq (value : α) : (pure value : Program Op Res ε α) = ret value := rfl

@[simp] theorem throw_eq (error : ε) : (throw error : Program Op Res ε α) = fail error := rfl

@[simp] theorem ret_bind (value : α) (next : α → Program Op Res ε β) :
    (ret value >>= next) = next value := rfl

@[simp] theorem fail_bind (error : ε) (next : α → Program Op Res ε β) :
    (fail error >>= next) = fail error := rfl

@[simp] theorem ofExcept_ok_bind (value : α) (next : α → Program Op Res ε β) :
    (ofExcept (.ok value) >>= next) = next value := rfl

@[simp] theorem spin_bind (next : α → Program Op Res ε β) :
    ((spin : Program Op Res ε α) >>= next) = spin := rfl

@[simp] theorem call_bind (op : Op) (rest : Res op → Program Op Res ε α)
    (next : α → Program Op Res ε β) :
    (call op rest >>= next) = call op fun result => rest result >>= next := rfl

@[simp] theorem perform_bind (op : Op) (next : Res op → Program Op Res ε β) :
    (perform op >>= next) = call op next := rfl

end Program

/-! ### Runs in an environment -/

variable {Op : Type} {Res : Op → Type} {ε ε' α β State : Type}

/-- One operation of a run, with its result and the states around it. -/
structure Event (Op : Type) (Res : Op → Type) (State : Type) where
  before : State
  op : Op
  result : Res op
  after : State

/-- How a run ended: by returning, by failing, or cut short. -/
inductive Ending (ε α : Type) where
  | returned (value : α)
  | failed (error : ε)
  | stopped

/-- The step relation of an environment. -/
abbrev Step (Op : Type) (Res : Op → Type) (State : Type) :=
  State → (op : Op) → Res op → State → Prop

/-- The runs of a program. A run may be cut short before any operation. -/
inductive Runs (step : Step Op Res State) :
    Program Op Res ε α → State → List (Event Op Res State) → State → Ending ε α → Prop
  | stop (program : Program Op Res ε α) (state : State) : Runs step program state [] state .stopped
  | ret (value : α) (state : State) : Runs step (.ret value) state [] state (.returned value)
  | fail (error : ε) (state : State) : Runs step (.fail error) state [] state (.failed error)
  | call {op : Op} {next : Res op → Program Op Res ε α} {before after last : State}
      {result : Res op} {trace : List (Event Op Res State)} {ending : Ending ε α}
      (stepped : step before op result after) (rest : Runs step (next result) after trace last ending) :
      Runs step (.call op next) before (⟨before, op, result, after⟩ :: trace) last ending

/-- A run of a program that issues an operation, from a run of the rest. -/
theorem exists_runs_call {step : Step Op Res State} {op : Op} {next : Res op → Program Op Res ε α}
    {before last : State} {ending : Ending ε α} (result : Res op) (after : State)
    (stepped : step before op result after)
    (rest : ∃ trace, Runs step (next result) after trace last ending) :
    ∃ trace, Runs step (.call op next) before trace last ending := by
  obtain ⟨trace, runs⟩ := rest
  exact ⟨_, Runs.call stepped runs⟩

/-- The weakest precondition for a guarantee at every step and a postcondition
for each way to end. -/
def wp (step guarantee : Step Op Res State) (returns : α → State → Prop) (fails : ε → State → Prop) :
    Program Op Res ε α → State → Prop
  | .ret value, state => returns value state
  | .fail error, state => fails error state
  | .spin, _ => True
  | .call op next, state => ∀ result after, step state op result after →
      guarantee state op result after ∧ wp step guarantee returns fails (next result) after

section Rules

variable {step guarantee : Step Op Res State} {returns : α → State → Prop}
  {fails : ε → State → Prop}

@[simp] theorem wp_ret (value : α) (state : State) :
    wp step guarantee returns fails (.ret value) state ↔ returns value state := Iff.rfl

@[simp] theorem wp_fail (error : ε) (state : State) :
    wp step guarantee returns fails (.fail error) state ↔ fails error state := Iff.rfl

@[simp] theorem wp_spin (state : State) : wp step guarantee returns fails .spin state := trivial

theorem wp_mono {weakerReturns : α → State → Prop} {weakerFails : ε → State → Prop}
    {program : Program Op Res ε α} {state : State}
    (holds : wp step guarantee returns fails program state)
    (onReturn : ∀ value last, returns value last → weakerReturns value last)
    (onFailure : ∀ error last, fails error last → weakerFails error last) :
    wp step guarantee weakerReturns weakerFails program state := by
  induction program generalizing state with
  | ret value => exact onReturn value state holds
  | fail error => exact onFailure error state holds
  | spin => trivial
  | call op next ih =>
    intro result after stepped
    obtain ⟨kept, rest⟩ := holds result after stepped
    exact ⟨kept, ih result rest⟩

/-- Nothing is promised of any program. -/
theorem wp_true (program : Program Op Res ε α) (state : State) :
    wp step (fun _ _ _ _ => True) (fun _ _ => True) (fun _ _ => True) program state := by
  induction program generalizing state with
  | ret value => trivial
  | fail error => trivial
  | spin => trivial
  | call op next ih => exact fun result after _ => ⟨trivial, ih result after⟩

theorem wp_weaken {weaker : Step Op Res State} {program : Program Op Res ε α} {state : State}
    (holds : wp step guarantee returns fails program state)
    (weakens : ∀ before op result after,
      guarantee before op result after → weaker before op result after) :
    wp step weaker returns fails program state := by
  induction program generalizing state with
  | ret value => exact holds
  | fail error => exact holds
  | spin => trivial
  | call op next ih =>
    intro result after stepped
    obtain ⟨kept, rest⟩ := holds result after stepped
    exact ⟨weakens _ _ _ _ kept, ih result rest⟩

theorem wp_bind (program : Program Op Res ε β) (next : β → Program Op Res ε α) (state : State) :
    wp step guarantee returns fails (program >>= next) state ↔
      wp step guarantee (fun value => wp step guarantee returns fails (next value)) fails
        program state := by
  induction program generalizing state with
  | ret value => rfl
  | fail error => rfl
  | spin => rfl
  | call op rest ih =>
    refine forall_congr' fun result => forall_congr' fun after => ?_
    exact imp_congr_right fun _ => and_congr_right fun _ => ih result after

theorem wp_attempt {exceptReturns : Except ε α → State → Prop} {otherFails : ε' → State → Prop}
    (program : Program Op Res ε α) (state : State) :
    wp step guarantee exceptReturns otherFails program.attempt state ↔
      wp step guarantee (fun value => exceptReturns (.ok value))
        (fun error => exceptReturns (.error error)) program state := by
  induction program generalizing state with
  | ret value => rfl
  | fail error => rfl
  | spin => rfl
  | call op rest ih =>
    refine forall_congr' fun result => forall_congr' fun after => ?_
    exact imp_congr_right fun _ => and_congr_right fun _ => ih result after

theorem wp_mapError {otherFails : ε' → State → Prop} (translate : ε → ε')
    (program : Program Op Res ε α) (state : State) :
    wp step guarantee returns otherFails (program.mapError translate) state ↔
      wp step guarantee returns (fun error => otherFails (translate error)) program state := by
  induction program generalizing state with
  | ret value => rfl
  | fail error => rfl
  | spin => rfl
  | call op rest ih =>
    refine forall_congr' fun result => forall_congr' fun after => ?_
    exact imp_congr_right fun _ => and_congr_right fun _ => ih result after

/-- A contract in one environment holds in any environment whose steps, seen
through a projection of the states, are steps of the first. -/
theorem wp_project {State' : Type} {finer : Step Op Res State'} (project : State' → State)
    {program : Program Op Res ε α} {state : State'}
    (holds : wp step guarantee returns fails program (project state))
    (refines : ∀ before op result after, finer before op result after →
      step (project before) op result (project after)) :
    wp finer (fun before op result after => guarantee (project before) op result (project after))
      (fun value last => returns value (project last)) (fun error last => fails error (project last))
      program state := by
  induction program generalizing state with
  | ret value => exact holds
  | fail error => exact holds
  | spin => trivial
  | call op next ih =>
    intro result after stepped
    obtain ⟨kept, rest⟩ := holds result _ (refines _ _ _ _ stepped)
    exact ⟨kept, ih result rest⟩

/-- A contract holds in every environment that has only steps of the first. -/
theorem wp_narrow {narrower : Step Op Res State} {program : Program Op Res ε α} {state : State}
    (holds : wp step guarantee returns fails program state)
    (narrows : ∀ before op result after, narrower before op result after →
      step before op result after) : wp narrower guarantee returns fails program state :=
  wp_project id holds narrows

theorem Ending.returned_ne_stopped {value : α} : (.returned value : Ending ε α) ≠ .stopped := by
  intro same
  cases same

/-- What holds of a run that ended this way. -/
def Ending.Meets (returns : α → State → Prop) (fails : ε → State → Prop) :
    Ending ε α → State → Prop
  | .returned value, last => returns value last
  | .failed error, last => fails error last
  | .stopped, _ => True

/-- The run returned, and its value and last state pass the test. -/
def returnsWith (test : α → State → Bool) : Ending ε α × State → Bool
  | (.returned value, last) => test value last
  | _ => false

/-- The run failed, and its error and last state pass the test. -/
def failsWith (test : ε → State → Bool) : Ending ε α × State → Bool
  | (.failed error, last) => test error last
  | _ => false

theorem returnsWith_eq_true {test : α → State → Bool} {outcome : Ending ε α × State} :
    returnsWith test outcome = true ↔
      ∃ value last, outcome = (.returned value, last) ∧ test value last = true := by
  rcases outcome with ⟨_ | _ | _, last⟩ <;> simp [returnsWith]

theorem failsWith_eq_true {test : ε → State → Bool} {outcome : Ending ε α × State} :
    failsWith test outcome = true ↔
      ∃ error last, outcome = (.failed error, last) ∧ test error last = true := by
  rcases outcome with ⟨_ | _ | _, last⟩ <;> simp [failsWith]

/-- The ending of a computation that issues no operation. -/
def Ending.ofExcept : Except ε α → Ending ε α
  | .ok value => .returned value
  | .error error => .failed error

theorem wp_ofExcept (outcome : Except ε α) (state : State) :
    wp step guarantee returns fails (.ofExcept outcome) state ↔
      (Ending.ofExcept outcome).Meets returns fails state := by
  cases outcome <;> rfl

@[simp] theorem Ending.meets_ofExcept_ok (value : α) (state : State) :
    (Ending.ofExcept (.ok value : Except ε α)).Meets returns fails state ↔ returns value state :=
  Iff.rfl

@[simp] theorem Ending.meets_ofExcept_error (error : ε) (state : State) :
    (Ending.ofExcept (.error error : Except ε α)).Meets returns fails state ↔ fails error state :=
  Iff.rfl

/-- Every step of a run keeps the guarantee, and the run ends as promised. -/
theorem Runs.sound {program : Program Op Res ε α} {state last : State}
    {trace : List (Event Op Res State)} {ending : Ending ε α}
    (runs : Runs step program state trace last ending)
    (holds : wp step guarantee returns fails program state) :
    (∀ event ∈ trace, guarantee event.before event.op event.result event.after) ∧
      ending.Meets returns fails last := by
  induction runs with
  | stop program state => exact ⟨by simp, trivial⟩
  | ret value state => exact ⟨by simp, holds⟩
  | fail error state => exact ⟨by simp, holds⟩
  | call stepped rest ih =>
    obtain ⟨kept, continued⟩ := holds _ _ stepped
    obtain ⟨later, ended⟩ := ih continued
    exact ⟨List.forall_mem_cons.mpr ⟨kept, later⟩, ended⟩

/-- Every event of a run is a step of the environment. -/
theorem Runs.stepped {program : Program Op Res ε α} {state last : State}
    {trace : List (Event Op Res State)} {ending : Ending ε α}
    (runs : Runs step program state trace last ending) :
    ∀ event ∈ trace, step event.before event.op event.result event.after := by
  induction runs with
  | stop program state => simp
  | ret value state => simp
  | fail error state => simp
  | call stepped rest ih => exact List.forall_mem_cons.mpr ⟨stepped, ih⟩

/-- A run is a run in every environment that has its steps. -/
theorem Runs.widen {wider : Step Op Res State} {program : Program Op Res ε α} {state last : State}
    {trace : List (Event Op Res State)} {ending : Ending ε α}
    (runs : Runs step program state trace last ending)
    (widens : ∀ before op result after, step before op result after →
      wider before op result after) : Runs wider program state trace last ending := by
  induction runs with
  | stop program state => exact .stop program state
  | ret value state => exact .ret value state
  | fail error state => exact .fail error state
  | call stepped _ ih => exact .call (widens _ _ _ _ stepped) ih

/-- A property that every step keeps holds at every point of a run. -/
theorem Runs.invariant {program : Program Op Res ε α} {state last : State}
    {trace : List (Event Op Res State)} {ending : Ending ε α} (invariant : State → Prop)
    (runs : Runs step program state trace last ending)
    (kept : ∀ event ∈ trace, invariant event.before → invariant event.after)
    (initially : invariant state) :
    (∀ event ∈ trace, invariant event.after) ∧ invariant last := by
  induction runs with
  | stop program state => exact ⟨by simp, initially⟩
  | ret value state => exact ⟨by simp, initially⟩
  | fail error state => exact ⟨by simp, initially⟩
  | call stepped rest ih =>
    obtain ⟨first, later⟩ := List.forall_mem_cons.mp kept
    obtain ⟨everywhere, atEnd⟩ := ih later (first initially)
    exact ⟨List.forall_mem_cons.mpr ⟨first initially, everywhere⟩, atEnd⟩

end Rules

/-! ### What a program can do -/

/-- Some run of the program returns, with this postcondition. -/
def CanReturn (step : Step Op Res State) (returns : α → State → Prop) :
    Program Op Res ε α → State → Prop
  | .ret value, state => returns value state
  | .fail _, _ | .spin, _ => False
  | .call op next, state => ∃ result after, step state op result after ∧
      CanReturn step returns (next result) after

section CanReturn

variable {step guarantee : Step Op Res State} {returns : α → State → Prop}

theorem CanReturn.exists_runs {program : Program Op Res ε α} {state : State}
    (can : CanReturn step returns program state) :
    ∃ trace value last, Runs step program state trace last (.returned value) ∧
      returns value last := by
  induction program generalizing state with
  | ret value => exact ⟨[], value, state, Runs.ret value state, can⟩
  | fail error => exact can.elim
  | spin => exact can.elim
  | call op next ih =>
    obtain ⟨result, after, stepped, rest⟩ := can
    obtain ⟨trace, value, last, runs, holds⟩ := ih result rest
    exact ⟨_, value, last, Runs.call stepped runs, holds⟩

theorem CanReturn.mono {stronger : α → State → Prop} {program : Program Op Res ε α} {state : State}
    (can : CanReturn step stronger program state)
    (weakens : ∀ value last, stronger value last → returns value last) :
    CanReturn step returns program state := by
  induction program generalizing state with
  | ret value => exact weakens value state can
  | fail error => exact can.elim
  | spin => exact can.elim
  | call op next ih =>
    obtain ⟨result, after, stepped, rest⟩ := can
    exact ⟨result, after, stepped, ih result rest⟩

theorem canReturn_bind (program : Program Op Res ε β) (next : β → Program Op Res ε α)
    (state : State) :
    CanReturn step returns (program >>= next) state ↔
      CanReturn step (fun value => CanReturn step returns (next value)) program state := by
  induction program generalizing state with
  | ret value => rfl
  | fail error => rfl
  | spin => rfl
  | call op rest ih =>
    refine exists_congr fun result => exists_congr fun after => and_congr_right fun _ => ?_
    exact ih result after

theorem CanReturn.bind {first : β → State → Prop} {program : Program Op Res ε β}
    {next : β → Program Op Res ε α} {state : State} (can : CanReturn step first program state)
    (continues : ∀ value after, first value after → CanReturn step returns (next value) after) :
    CanReturn step returns (program >>= next) state :=
  (canReturn_bind program next state).mpr (can.mono continues)

/-- A failure that is turned into a value. -/
theorem CanReturn.attempt {program : Program Op Res ε α} {state : State}
    (can : CanReturn step returns program state) :
    CanReturn step (fun outcome last => ∃ value, outcome = .ok value ∧ returns value last)
      (program.attempt : Program Op Res ε' (Except ε α)) state := by
  induction program generalizing state with
  | ret value => exact ⟨value, rfl, can⟩
  | fail error => exact can.elim
  | spin => exact can.elim
  | call op rest ih =>
    obtain ⟨result, after, stepped, later⟩ := can
    exact ⟨result, after, stepped, ih result later⟩

end CanReturn

/-! ### What a program is told -/

/-- Operations with the answers they got. -/
abbrev Transcript (Op : Type) (Res : Op → Type) := List ((op : Op) × Res op)

/-- The answers along a run. -/
def transcript (trace : List (Event Op Res State)) : Transcript Op Res :=
  trace.map fun event => ⟨event.op, event.result⟩

/-- Whatever is answered, the postcondition relates the value that is returned
to the answers that led to it. -/
def Told : (α → Transcript Op Res → Prop) → Program Op Res ε α → Prop
  | returns, .ret value => returns value []
  | _, .fail _ => True
  | _, .spin => True
  | returns, .call op next =>
    ∀ result, Told (fun value told => returns value (⟨op, result⟩ :: told)) (next result)

section Told

variable {returns : α → Transcript Op Res → Prop}

@[simp] theorem told_ret (value : α) :
    Told returns (.ret value : Program Op Res ε α) ↔ returns value [] := Iff.rfl

@[simp] theorem told_fail (error : ε) : Told returns (.fail error : Program Op Res ε α) := trivial

theorem Told.mono {stronger : α → Transcript Op Res → Prop} {program : Program Op Res ε α}
    (holds : Told stronger program) (weakens : ∀ value told, stronger value told → returns value told) :
    Told returns program := by
  induction program generalizing stronger returns with
  | ret value => exact weakens value [] holds
  | fail error => trivial
  | spin => trivial
  | call op next ih =>
    intro result
    exact ih result (holds result) fun value told => weakens value _

/-- A postcondition that holds of every value and all answers. -/
theorem Told.of_forall (holds : ∀ value told, returns value told) (program : Program Op Res ε α) :
    Told returns program := by
  induction program generalizing returns with
  | ret value => exact holds value []
  | fail error => trivial
  | spin => trivial
  | call op next ih => exact fun result => ih result fun value told => holds value _

/-- A failure that is turned into a value promises nothing. -/
theorem Told.attempt {program : Program Op Res ε α} (holds : Told returns program) :
    Told (fun outcome told => ∀ value, outcome = .ok value → returns value told)
      (program.attempt : Program Op Res ε' (Except ε α)) := by
  induction program generalizing returns with
  | ret value =>
    intro other same
    obtain rfl := Except.ok.inj same
    exact holds
  | fail error =>
    intro other impossible
    cases impossible
  | spin => trivial
  | call op next ih => exact fun result => ih result (holds result)

/-- The second part is told what is left after the first. -/
theorem Told.bind {first : β → Transcript Op Res → Prop} {program : Program Op Res ε β}
    {next : β → Program Op Res ε α} (holds : Told first program)
    (continues : ∀ value told, first value told →
      Told (fun last later => returns last (told ++ later)) (next value)) :
    Told returns (program >>= next) := by
  induction program generalizing first returns with
  | ret value => exact continues value [] holds
  | fail error => trivial
  | spin => trivial
  | call op rest ih =>
    intro result
    exact ih result (holds result) fun value told => continues value _

/-- A run that returns was told what the postcondition says. -/
theorem Told.sound {step : Step Op Res State} {program : Program Op Res ε α} {state last : State}
    {trace : List (Event Op Res State)} {value : α} (holds : Told returns program)
    (runs : Runs step program state trace last (.returned value)) :
    returns value (transcript trace) := by
  generalize ended : (Ending.returned value : Ending ε α) = ending at runs
  induction runs generalizing returns with
  | stop program state => cases ended
  | ret other state =>
    cases ended
    exact holds
  | fail error state => cases ended
  | call stepped rest ih => exact ih (holds _) ended

end Told

/-! ### Deterministic environments -/

/-- How an operation is answered in a deterministic environment. -/
abbrev Handler (Op : Type) (Res : Op → Type) (State : Type) :=
  State → (op : Op) → Res op × State

/-- The one run of a program in a deterministic environment. A program that is
still spinning counts as stopped. -/
def exec (handler : Handler Op Res State) : Program Op Res ε α → State → Ending ε α × State
  | .ret value, state => (.returned value, state)
  | .fail error, state => (.failed error, state)
  | .spin, state => (.stopped, state)
  | .call op next, state =>
    exec handler (next (handler state op).1) (handler state op).2

/-- The first `count` steps of that run, and the state after them. -/
def execSteps (handler : Handler Op Res State) :
    ℕ → Program Op Res ε α → State → List (Event Op Res State) × State
  | count + 1, .call op next, state =>
    let (result, after) := handler state op
    let (trace, last) := execSteps handler count (next result) after
    (⟨state, op, result, after⟩ :: trace, last)
  | _, _, state => ([], state)

/-- The first steps in a deterministic environment are a run of every
environment that allows its answers. -/
theorem runs_execSteps {step : Step Op Res State} {handler : Handler Op Res State}
    (allowed : ∀ state op, step state op (handler state op).1 (handler state op).2) (count : ℕ)
    (program : Program Op Res ε α) (state : State) :
    Runs step program state (execSteps handler count program state).1
      (execSteps handler count program state).2 .stopped := by
  fun_induction execSteps handler count program state with
  | case1 count op next state result after answered trace last continued ih =>
    rw [continued] at ih
    have stepped := allowed state op
    rw [answered] at stepped
    exact Runs.call stepped ih
  | case2 count program state => exact Runs.stop program state

/-- The one run in a deterministic environment is a run of every environment
that allows its answers. -/
theorem exists_runs_exec {step : Step Op Res State} {handler : Handler Op Res State}
    (allowed : ∀ state op, step state op (handler state op).1 (handler state op).2)
    (program : Program Op Res ε α) (state : State) :
    ∃ trace, Runs step program state trace (exec handler program state).2
      (exec handler program state).1 := by
  induction program generalizing state with
  | ret value => exact ⟨[], Runs.ret value state⟩
  | fail error => exact ⟨[], Runs.fail error state⟩
  | spin => exact ⟨[], Runs.stop .spin state⟩
  | call op next ih =>
    obtain ⟨trace, rest⟩ := ih (handler state op).1 (handler state op).2
    exact ⟨_, Runs.call (allowed state op) rest⟩

/-- The one run, once its ending and last state are known. -/
theorem exists_runs_of_exec {step : Step Op Res State} {handler : Handler Op Res State}
    (allowed : ∀ state op, step state op (handler state op).1 (handler state op).2)
    {program : Program Op Res ε α} {state last : State} {ending : Ending ε α}
    (ran : exec handler program state = (ending, last)) :
    ∃ trace, Runs step program state trace last ending := by
  have runs := exists_runs_exec allowed program state
  rwa [ran] at runs

/-- Whether every operation of that run passes a test. -/
def passes (handler : Handler Op Res State) (test : State → Op → Bool) :
    Program Op Res ε α → State → Bool
  | .call op next, state =>
    test state op && passes handler test (next (handler state op).1) (handler state op).2
  | _, _ => true

/-- The one run is a run of an environment that allows the answers to the
operations that pass a test, as long as an invariant holds. -/
theorem exists_runs_of_passes {step : Step Op Res State} {handler : Handler Op Res State}
    {test : State → Op → Bool} {invariant : State → Prop}
    (allowed : ∀ state op, invariant state → test state op = true →
      step state op (handler state op).1 (handler state op).2 ∧ invariant (handler state op).2)
    {program : Program Op Res ε α} {state : State} (initially : invariant state)
    (passed : passes handler test program state = true) :
    ∃ trace, Runs step program state trace (exec handler program state).2
      (exec handler program state).1 := by
  induction program generalizing state with
  | ret value => exact ⟨[], Runs.ret value state⟩
  | fail error => exact ⟨[], Runs.fail error state⟩
  | spin => exact ⟨[], Runs.stop .spin state⟩
  | call op next ih =>
    obtain ⟨passesHere, passesLater⟩ := Bool.and_eq_true_iff.mp passed
    obtain ⟨stepped, still⟩ := allowed state op initially passesHere
    obtain ⟨trace, rest⟩ := ih (handler state op).1 still passesLater
    exact ⟨_, Runs.call stepped rest⟩

section Deterministic

variable {handler : Handler Op Res State}

@[simp] theorem exec_ret (value : α) (state : State) :
    exec handler (.ret value : Program Op Res ε α) state = (.returned value, state) := rfl

@[simp] theorem exec_fail (error : ε) (state : State) :
    exec handler (.fail error : Program Op Res ε α) state = (.failed error, state) := rfl

@[simp] theorem exec_call (op : Op) (next : Res op → Program Op Res ε α) (state : State) :
    exec handler (.call op next) state =
      exec handler (next (handler state op).1) (handler state op).2 := rfl

theorem exec_ofExcept (outcome : Except ε α) (state : State) :
    exec handler (.ofExcept outcome) state = (Ending.ofExcept outcome, state) := by
  cases outcome <;> rfl

/-- What the first part ends with decides whether the second one runs. -/
theorem exec_bind (program : Program Op Res ε β) (next : β → Program Op Res ε α) (state : State) :
    exec handler (program >>= next) state =
      match exec handler program state with
      | (.returned value, middle) => exec handler (next value) middle
      | (.failed error, last) => (.failed error, last)
      | (.stopped, last) => (.stopped, last) := by
  induction program generalizing state with
  | ret value => rfl
  | fail error => rfl
  | spin => rfl
  | call op rest ih => exact ih _ _

/-- A program that ends is attempted with the outcome it ends with. -/
theorem exec_attempt {program : Program Op Res ε α} {state last : State} {outcome : Except ε α}
    (ran : exec handler program state = (Ending.ofExcept outcome, last)) :
    exec handler (program.attempt : Program Op Res ε' (Except ε α)) state =
      (.returned outcome, last) := by
  induction program generalizing state with
  | ret value =>
    cases outcome with
    | ok other =>
      cases ran
      rfl
    | error error => cases ran
  | fail error =>
    cases outcome with
    | ok other => cases ran
    | error other =>
      cases ran
      rfl
  | spin => cases outcome <;> cases ran
  | call op next ih => exact ih _ ran

/-- Translating failures changes nothing but the error. -/
theorem exec_mapError (translate : ε → ε') (program : Program Op Res ε α) (state : State) :
    exec handler (program.mapError translate) state =
      match exec handler program state with
      | (.returned value, last) => (.returned value, last)
      | (.failed error, last) => (.failed (translate error), last)
      | (.stopped, last) => (.stopped, last) := by
  induction program generalizing state with
  | ret value => rfl
  | fail error => rfl
  | spin => rfl
  | call op rest ih => exact ih _ _

/-- A first part that returns hands its value and state to the second. -/
theorem exec_bind_of_returned {program : Program Op Res ε β} {next : β → Program Op Res ε α}
    {state middle : State} {value : β}
    (first : exec handler program state = (.returned value, middle)) :
    exec handler (program >>= next) state = exec handler (next value) middle := by
  rw [exec_bind, first]

/-- The one run ends, by returning or by failing, with these postconditions. -/
def Ends (handler : Handler Op Res State) (returns : α → State → Prop)
    (fails : ε → State → Prop) : Program Op Res ε α → State → Prop
  | .ret value, state => returns value state
  | .fail error, state => fails error state
  | .spin, _ => False
  | .call op next, state =>
    Ends handler returns fails (next (handler state op).1) (handler state op).2

section Ends

variable {returns : α → State → Prop} {fails : ε → State → Prop}

theorem Ends.exec {program : Program Op Res ε α} {state : State}
    (ends : Ends handler returns fails program state) :
    (exec handler program state).1 ≠ .stopped ∧
      (exec handler program state).1.Meets returns fails (exec handler program state).2 := by
  induction program generalizing state with
  | ret value => exact ⟨nofun, ends⟩
  | fail error => exact ⟨nofun, ends⟩
  | spin => exact ends.elim
  | call op next ih => exact ih _ ends

theorem Ends.mono {strongerReturns : α → State → Prop} {strongerFails : ε → State → Prop}
    {program : Program Op Res ε α} {state : State}
    (ends : Ends handler strongerReturns strongerFails program state)
    (onReturn : ∀ value last, strongerReturns value last → returns value last)
    (onFailure : ∀ error last, strongerFails error last → fails error last) :
    Ends handler returns fails program state := by
  induction program generalizing state with
  | ret value => exact onReturn value state ends
  | fail error => exact onFailure error state ends
  | spin => exact ends.elim
  | call op next ih => exact ih _ ends

theorem ends_bind (program : Program Op Res ε β) (next : β → Program Op Res ε α) (state : State) :
    Ends handler returns fails (program >>= next) state ↔
      Ends handler (fun value => Ends handler returns fails (next value)) fails program state := by
  induction program generalizing state with
  | ret value => rfl
  | fail error => rfl
  | spin => rfl
  | call op rest ih => exact ih _ _

theorem ends_attempt {exceptReturns : Except ε α → State → Prop} {otherFails : ε' → State → Prop}
    (program : Program Op Res ε α) (state : State) :
    Ends handler exceptReturns otherFails program.attempt state ↔
      Ends handler (fun value => exceptReturns (.ok value))
        (fun error => exceptReturns (.error error)) program state := by
  induction program generalizing state with
  | ret value => rfl
  | fail error => rfl
  | spin => rfl
  | call op rest ih => exact ih _ _

theorem ends_ofExcept (outcome : Except ε α) (state : State) :
    Ends handler returns fails (.ofExcept outcome) state ↔
      (Ending.ofExcept outcome).Meets returns fails state := by
  cases outcome <;> rfl

end Ends

end Deterministic

end Foundation
