import Mathlib
import Kidobo.Foundation.History
import Kidobo.Foundation.Expand

/-!
# Programs that take turns under a lock

Threads run programs over one shared state and one lock. An acquisition that is
not granted has no effect, a release gives the lock back, and a thread that
crashes loses it. All other operations interleave freely.

Where every program changes the state only while it holds the lock, and takes
the lock at most once, an interleaved execution is a serial one: the parts that
held the lock, each run alone, one after another in the order in which the lock
was taken.

## Main definitions

* `LockUse`, `Shared`, `ThreadStep`: threads over a state and a lock
* `Shared.schedule`: one scheduled step in a deterministic environment
* `Outside`, `Holding`: the discipline of a program
* `Partway`, `Runs.prepend`: how far a run has come
* `Turn`, `TurnStep`: what a thread did with the lock, alone
* `Serializes`: the serial history behind a reachable state

## Main results

* `serializes_of_step`: every step of a thread keeps the serial history
* `exists_serial`: every reachable state is that of a serial history
-/

namespace Foundation

/-! ### Runs that have not ended -/

section Partway

variable {Op : Type} {Res : Op → Type} {ε α State : Type} {step : Step Op Res State}

/-- One operation of a program. -/
inductive Advances (step : Step Op Res State) :
    Program Op Res ε α × State → Program Op Res ε α × State → Prop
  | call {op : Op} {next : Res op → Program Op Res ε α} {before after : State} {result : Res op}
      (stepped : step before op result after) :
      Advances step (.call op next, before) (next result, after)

/-- A run has come from one program and state to another. -/
abbrev Partway (step : Step Op Res State) :
    Program Op Res ε α × State → Program Op Res ε α × State → Prop :=
  Relation.ReflTransGen (Advances step)

/-- A run that has come this far goes on as the rest does. -/
theorem Runs.prepend {start middle : Program Op Res ε α × State} {last : State}
    {ending : Ending ε α} (came : Partway step start middle)
    (rest : ∃ trace, Runs step middle.1 middle.2 trace last ending) :
    ∃ trace, Runs step start.1 start.2 trace last ending := by
  induction came using Relation.ReflTransGen.head_induction_on with
  | refl => exact rest
  | head advanced _ ih =>
    cases advanced with
    | call stepped => exact exists_runs_call _ _ stepped ih

/-- A program has come to its end. A program that spins was stopped. -/
inductive HasEnded : Program Op Res ε α → Ending ε α → Prop
  | ret (value : α) : HasEnded (.ret value) (.returned value)
  | fail (error : ε) : HasEnded (.fail error) (.failed error)
  | spin : HasEnded .spin .stopped

theorem HasEnded.unique {program : Program Op Res ε α} {ending other : Ending ε α}
    (ends : HasEnded program ending) (endsToo : HasEnded program other) : ending = other := by
  cases ends <;> cases endsToo <;> rfl

theorem HasEnded.runs {program : Program Op Res ε α} {ending : Ending ε α}
    (ends : HasEnded program ending) (state : State) : Runs step program state [] state ending := by
  cases ends with
  | ret value => exact .ret value state
  | fail error => exact .fail error state
  | spin => exact .stop .spin state

theorem not_endsAs_call {op : Op} {next : Res op → Program Op Res ε α} {ending : Ending ε α} :
    ¬ HasEnded (.call op next) ending :=
  nofun

end Partway

/-! ### Threads and a lock -/

/-- What an operation does to the lock. -/
inductive LockRole where
  | acquire
  | release
  | neither
  deriving DecidableEq

/-- How the operations of an interface use a lock. -/
structure LockUse (Op : Type) (Res : Op → Type) where
  role : Op → LockRole
  granted : (op : Op) → Res op → Bool

/-- Threads over one state and one lock, with the threads that have taken the
lock so far. -/
structure Shared (ι : Type) (Op : Type) (Res : Op → Type) (ε : Type) (α : ι → Type)
    (State : Type) where
  state : State
  owner : Option ι
  entered : List ι
  thread : (i : ι) → Program Op Res ε (α i)

variable {ι : Type} [DecidableEq ι] {Op : Type} {Res : Op → Type} {ε : Type} {α : ι → Type}
  {State : Type}

namespace Shared

/-- A thread goes on with this program. -/
def resume (sys : Shared ι Op Res ε α State) (i : ι) (program : Program Op Res ε (α i))
    (after : State) : Shared ι Op Res ε α State :=
  { sys with state := after, thread := Function.update sys.thread i program }

/-- A thread has the lock. -/
def enter (sys : Shared ι Op Res ε α State) (i : ι) : Shared ι Op Res ε α State :=
  { sys with owner := some i, entered := sys.entered ++ [i] }

/-- A thread gives the lock back, if it has it. -/
def leave (sys : Shared ι Op Res ε α State) (i : ι) : Shared ι Op Res ε α State :=
  { sys with owner := if sys.owner = some i then none else sys.owner }

section Lemmas

variable {sys : Shared ι Op Res ε α State} {i j : ι} {program : Program Op Res ε (α i)}
  {after : State}

@[simp] theorem thread_resume_self : (sys.resume i program after).thread i = program :=
  Function.update_self ..

theorem thread_resume_of_ne (other : j ≠ i) :
    (sys.resume i program after).thread j = sys.thread j :=
  Function.update_of_ne other _ _

omit [DecidableEq ι] in
@[simp] theorem thread_enter : (sys.enter i).thread = sys.thread := rfl

@[simp] theorem thread_leave : (sys.leave i).thread = sys.thread := rfl

theorem owner_leave (owns : sys.owner = some i) : (sys.leave i).owner = none := if_pos owns

theorem leave_of_ne (other : sys.owner ≠ some i) : sys.leave i = sys := by
  rw [leave, if_neg other]

end Lemmas

end Shared

/-- One step of one thread. -/
inductive ThreadStep (use : LockUse Op Res) (step : Step Op Res State) :
    Shared ι Op Res ε α State → Shared ι Op Res ε α State → Prop
  | acquire {sys : Shared ι Op Res ε α State} {i : ι} {op : Op}
      {next : Res op → Program Op Res ε (α i)} {result : Res op} {after : State}
      (runs : sys.thread i = .call op next) (role : use.role op = .acquire)
      (free : sys.owner = none) (granted : use.granted op result = true)
      (stepped : step sys.state op result after) :
      ThreadStep use step sys ((sys.resume i (next result) after).enter i)
  | refuse {sys : Shared ι Op Res ε α State} {i : ι} {op : Op}
      {next : Res op → Program Op Res ε (α i)} {result : Res op} {after : State}
      (runs : sys.thread i = .call op next) (role : use.role op = .acquire)
      (refused : use.granted op result = false) (stepped : step sys.state op result after) :
      ThreadStep use step sys (sys.resume i (next result) after)
  | release {sys : Shared ι Op Res ε α State} {i : ι} {op : Op}
      {next : Res op → Program Op Res ε (α i)} {result : Res op} {after : State}
      (runs : sys.thread i = .call op next) (role : use.role op = .release)
      (stepped : step sys.state op result after) :
      ThreadStep use step sys ((sys.resume i (next result) after).leave i)
  | act {sys : Shared ι Op Res ε α State} {i : ι} {op : Op}
      {next : Res op → Program Op Res ε (α i)} {result : Res op} {after : State}
      (runs : sys.thread i = .call op next) (role : use.role op = .neither)
      (stepped : step sys.state op result after) :
      ThreadStep use step sys (sys.resume i (next result) after)
  | crash {sys : Shared ι Op Res ε α State} {i : ι} {op : Op}
      {next : Res op → Program Op Res ε (α i)} (runs : sys.thread i = .call op next) :
      ThreadStep use step sys ((sys.resume i .spin sys.state).leave i)

/-- What the threads can come to. -/
abbrev Interleaves (use : LockUse Op Res) (step : Step Op Res State) :
    Shared ι Op Res ε α State → Shared ι Op Res ε α State → Prop :=
  Relation.ReflTransGen (ThreadStep use step)

/-- A scheduled thread issues its next operation in a deterministic environment.
A thread that would take a lock which is not free waits. -/
def Shared.schedule (use : LockUse Op Res) (handler : Handler Op Res State)
    (sys : Shared ι Op Res ε α State) (i : ι) : Shared ι Op Res ε α State :=
  match sys.thread i with
  | .call op next =>
    let (result, after) := handler sys.state op
    let resumed := sys.resume i (next result) after
    match use.role op with
    | .acquire =>
      if use.granted op result then if sys.owner.isNone then resumed.enter i else sys
      else resumed
    | .release => resumed.leave i
    | .neither => resumed
  | _ => sys

theorem interleaves_schedule {use : LockUse Op Res} {step : Step Op Res State}
    {handler : Handler Op Res State}
    (allowed : ∀ state op, step state op (handler state op).1 (handler state op).2)
    (sys : Shared ι Op Res ε α State) (i : ι) :
    Interleaves use step sys (sys.schedule use handler i) := by
  unfold Shared.schedule
  split
  · rename_i op next runs
    have stepped := allowed sys.state op
    dsimp only
    split
    · rename_i role
      split_ifs with granted free
      · exact .single (.acquire runs role (Option.isNone_iff_eq_none.mp free) granted stepped)
      · exact .refl
      · exact .single (.refuse runs role (Bool.eq_false_iff.mpr granted) stepped)
    · rename_i role
      exact .single (.release runs role stepped)
    · rename_i role
      exact .single (.act runs role stepped)
  · exact .refl

/-- Any schedule is an interleaving. -/
theorem interleaves_scheduled {use : LockUse Op Res} {step : Step Op Res State}
    {handler : Handler Op Res State}
    (allowed : ∀ state op, step state op (handler state op).1 (handler state op).2)
    (sys : Shared ι Op Res ε α State) (schedule : List ι) :
    Interleaves use step sys (schedule.foldl (Shared.schedule use handler) sys) := by
  induction schedule generalizing sys with
  | nil => exact .refl
  | cons i rest ih => exact (interleaves_schedule allowed sys i).trans (ih _)

/-! ### The discipline -/

section Discipline

variable {α : Type}

/-- A program that holds the lock: it takes no other one, gives the lock back
without effect, and then ends. -/
def Holding (use : LockUse Op Res) (step : Step Op Res State) : Program Op Res ε α → Prop
  | .ret _ | .fail _ => False
  | .spin => True
  | .call op next =>
    match use.role op with
    | .acquire => False
    | .release => ∀ before result after, step before op result after →
        after = before ∧ ∃ ending, HasEnded (next result) ending
    | .neither => ∀ result, Holding use step (next result)

/-- A program that has not taken the lock: nothing it does has an effect, and
what it goes on with when the lock is granted is a section. -/
def Outside (use : LockUse Op Res) (step : Step Op Res State)
    (isSection : Program Op Res ε α → Prop) : Program Op Res ε α → Prop
  | .ret _ | .fail _ | .spin => True
  | .call op next =>
    match use.role op with
    | .acquire => ∀ before result after, step before op result after → after = before ∧
        (use.granted op result = true → isSection (next result) ∧ Holding use step (next result)) ∧
        (use.granted op result = false → Outside use step isSection (next result))
    | .release => False
    | .neither => ∀ before result after, step before op result after →
        after = before ∧ Outside use step isSection (next result)

/-- A program that neither touches the lock nor has an effect, and what it
returns. -/
def Idles (use : LockUse Op Res) (step : Step Op Res State) (returns : α → Prop) :
    Program Op Res ε α → Prop
  | .ret value => returns value
  | .fail _ | .spin => True
  | .call op next => use.role op = .neither ∧ ∀ before result after,
      step before op result after → after = before ∧ Idles use step returns (next result)

section Lemmas

variable {β ε' : Type} {use : LockUse Op Res} {step : Step Op Res State}

/-- A program that issues idle operations idles. -/
theorem idles_of_issues {program : Program Op Res ε α}
    (issues : program.Issues fun op => use.role op = .neither ∧
      ∀ before result after, step before op result after → after = before) :
    Idles use step (fun _ => True) program := by
  induction program with
  | ret value => trivial
  | fail error => trivial
  | spin => trivial
  | call op next ih =>
    obtain ⟨⟨role, idle⟩, later⟩ := issues
    exact ⟨role, fun before result after stepped =>
      ⟨idle before result after stepped, ih result (later result)⟩⟩

/-- A program is outside while it idles. -/
theorem Outside.bind {isSection : Program Op Res ε α → Prop} {first : β → Prop}
    {program : Program Op Res ε β} {next : β → Program Op Res ε α}
    (idles : Idles use step first program)
    (continues : ∀ value, first value → Outside use step isSection (next value)) :
    Outside use step isSection (program >>= next) := by
  induction program with
  | ret value => exact continues value idles
  | fail error => trivial
  | spin => trivial
  | call op rest ih =>
    obtain ⟨role, goesOn⟩ := idles
    change Outside use step isSection (.call op _)
    simp only [Outside, role]
    intro before result after stepped
    obtain ⟨same, later⟩ := goesOn before result after stepped
    exact ⟨same, ih result later⟩

/-- A body that leaves the lock alone, however it ends, and what gives the lock
back. -/
theorem Holding.guarded {program : Program Op Res ε' β} {next : Except ε' β → Program Op Res ε α}
    (issues : program.Issues fun op => use.role op = .neither)
    (continues : ∀ outcome, Holding use step (next outcome)) :
    Holding use step ((program.attempt : Program Op Res ε (Except ε' β)) >>= next) := by
  induction program with
  | ret value => exact continues (.ok value)
  | fail error => exact continues (.error error)
  | spin => trivial
  | call op rest ih =>
    change Holding use step (.call op _)
    simp only [Holding, issues.1]
    exact fun result => ih result (issues.2 result)

end Lemmas

end Discipline

/-! ### Serial histories -/

/-- What a thread did while it had the lock. -/
structure Turn (ι : Type) (Op : Type) (Res : Op → Type) (ε : Type) (α : ι → Type) where
  thread : ι
  program : Program Op Res ε (α thread)
  ending : Ending ε (α thread)

/-- A turn is a run of a section, alone. -/
def TurnStep (step : Step Op Res State) (isSection : (i : ι) → Program Op Res ε (α i) → Prop)
    (before : State) (turn : Turn ι Op Res ε α) (after : State) : Prop :=
  isSection turn.thread turn.program ∧
    ∃ trace, Runs step turn.program before trace after turn.ending

/-- The serial history behind a state of the threads: the turns that have ended,
and the turn of the owner, which has come from the last free state to here. -/
structure Serializes (use : LockUse Op Res) (step : Step Op Res State)
    (isSection : (i : ι) → Program Op Res ε (α i) → Prop) (start : State)
    (sys : Shared ι Op Res ε α State) (events : List (Transition State (Turn ι Op Res ε α)))
    (last : State) : Prop where
  history : History (TurnStep step isSection) start events last
  order : sys.entered = events.map (fun event => event.label.thread) ++ sys.owner.toList
  nodup : sys.entered.Nodup
  waiting : ∀ i ∉ sys.entered, Outside use step (isSection i) (sys.thread i)
  ended : ∀ event ∈ events, HasEnded (sys.thread event.label.thread) event.label.ending
  free : sys.owner = none → last = sys.state
  held : ∀ i, sys.owner = some i → Holding use step (sys.thread i) ∧
    ∃ program, isSection i program ∧ Partway step (program, last) (sys.thread i, sys.state)

namespace Serializes

variable {use : LockUse Op Res} {step : Step Op Res State}
  {isSection : (i : ι) → Program Op Res ε (α i) → Prop} {start last : State}
  {sys : Shared ι Op Res ε α State} {events : List (Transition State (Turn ι Op Res ε α))} {i : ι}

omit [DecidableEq ι] in
theorem mem_entered_iff (serial : Serializes use step isSection start sys events last) :
    i ∈ sys.entered ↔ (∃ event ∈ events, event.label.thread = i) ∨ sys.owner = some i := by
  rw [serial.order, List.mem_append, List.mem_map, Option.mem_toList]

/-- Only the owner and threads that have not taken the lock can go on. -/
theorem owner_or_waiting (serial : Serializes use step isSection start sys events last) {op : Op}
    {next : Res op → Program Op Res ε (α i)} (runs : sys.thread i = .call op next) :
    sys.owner = some i ∨ i ∉ sys.entered := by
  by_cases entered : i ∈ sys.entered
  · left
    rcases serial.mem_entered_iff.mp entered with ⟨event, member, rfl⟩ | owns
    · have ends := serial.ended event member
      rw [runs] at ends
      exact (not_endsAs_call ends).elim
    · exact owns
  · exact Or.inr entered

/-- The end of a turn is not touched by another thread. -/
theorem ended_resume (serial : Serializes use step isSection start sys events last)
    {program : Program Op Res ε (α i)} (other : ∀ event ∈ events, event.label.thread ≠ i)
    (after : State) :
    ∀ event ∈ events, HasEnded ((sys.resume i program after).thread event.label.thread)
      event.label.ending := by
  intro event member
  rw [Shared.thread_resume_of_ne (other event member)]
  exact serial.ended event member

omit [DecidableEq ι] in
/-- The owner has not ended its turn before. -/
theorem ne_of_owner (serial : Serializes use step isSection start sys events last)
    (owns : sys.owner = some i) : ∀ event ∈ events, event.label.thread ≠ i := by
  rintro event member rfl
  have twice := serial.nodup
  rw [serial.order, owns, List.nodup_append] at twice
  exact twice.2.2 _ (List.mem_map_of_mem member) _ (List.mem_singleton_self _) rfl

/-- A thread that has not taken the lock goes on without effect. -/
theorem resume_waiting (serial : Serializes use step isSection start sys events last)
    (unentered : i ∉ sys.entered) {program : Program Op Res ε (α i)}
    (outside : Outside use step (isSection i) program) :
    Serializes use step isSection start (sys.resume i program sys.state) events last where
  history := serial.history
  order := serial.order
  nodup := serial.nodup
  waiting := by
    intro j waits
    by_cases same : j = i
    · subst same
      rw [Shared.thread_resume_self]
      exact outside
    · rw [Shared.thread_resume_of_ne same]
      exact serial.waiting j waits
  ended := by
    refine serial.ended_resume ?_ _
    rintro event member rfl
    exact unentered (serial.mem_entered_iff.mpr (Or.inl ⟨event, member, rfl⟩))
  free := serial.free
  held := by
    intro j owns
    have same : j ≠ i := by
      rintro rfl
      exact unentered (serial.mem_entered_iff.mpr (Or.inr owns))
    rw [Shared.thread_resume_of_ne same]
    exact serial.held j owns

/-- A thread takes the lock. -/
theorem enter_section (serial : Serializes use step isSection start sys events last)
    (unowned : sys.owner = none) (unentered : i ∉ sys.entered) {program : Program Op Res ε (α i)}
    (belongs : isSection i program) (holding : Holding use step program) :
    Serializes use step isSection start ((sys.resume i program sys.state).enter i) events last where
  history := serial.history
  order := by
    have before := serial.order
    rw [unowned, Option.toList_none, List.append_nil] at before
    exact congrArg (· ++ [i]) before
  nodup := List.nodup_append.mpr ⟨serial.nodup, List.nodup_singleton i, by
    rintro j entered k member rfl
    exact unentered (List.mem_singleton.mp member ▸ entered)⟩
  waiting := by
    intro j unenteredNow
    rw [Shared.enter, List.mem_append, not_or] at unenteredNow
    have same : j ≠ i := fun same => unenteredNow.2 (List.mem_singleton.mpr same)
    rw [Shared.thread_enter, Shared.thread_resume_of_ne same]
    exact serial.waiting j unenteredNow.1
  ended := by
    refine serial.ended_resume ?_ sys.state
    rintro event member rfl
    exact unentered (serial.mem_entered_iff.mpr (Or.inl ⟨event, member, rfl⟩))
  free := nofun
  held := by
    intro j owns
    obtain rfl : i = j := Option.some.inj owns
    rw [Shared.thread_enter, Shared.thread_resume_self]
    refine ⟨holding, program, belongs, ?_⟩
    rw [serial.free unowned]
    exact Relation.ReflTransGen.refl

/-- The owner goes on with its turn. -/
theorem resume_owner (serial : Serializes use step isSection start sys events last)
    (owns : sys.owner = some i) {program : Program Op Res ε (α i)} {after : State}
    (holding : Holding use step program)
    (advanced : Advances step (sys.thread i, sys.state) (program, after)) :
    Serializes use step isSection start (sys.resume i program after) events last where
  history := serial.history
  order := serial.order
  nodup := serial.nodup
  waiting := by
    intro j waits
    have same : j ≠ i := by
      rintro rfl
      exact waits (serial.mem_entered_iff.mpr (Or.inr owns))
    rw [Shared.thread_resume_of_ne same]
    exact serial.waiting j waits
  ended := serial.ended_resume (serial.ne_of_owner owns) after
  free := by
    intro unowned
    cases owns.symm.trans unowned
  held := by
    intro j ownsToo
    obtain rfl : i = j := Option.some.inj (owns.symm.trans ownsToo)
    rw [Shared.thread_resume_self]
    obtain ⟨_, first, belongs, came⟩ := serial.held i owns
    exact ⟨holding, first, belongs, came.tail advanced⟩

/-- The owner ends its turn, by a release or by a crash. -/
theorem leave_section (serial : Serializes use step isSection start sys events last)
    (owns : sys.owner = some i) {program : Program Op Res ε (α i)} {ending : Ending ε (α i)}
    (ends : HasEnded program ending)
    (rest : ∃ trace, Runs step (sys.thread i) sys.state trace sys.state ending) :
    ∃ first, Serializes use step isSection start ((sys.resume i program sys.state).leave i)
      (events ++ [⟨last, ⟨i, first, ending⟩, sys.state⟩]) sys.state := by
  obtain ⟨_, first, belongs, came⟩ := serial.held i owns
  have unowned : ((sys.resume i program sys.state).leave i).owner = none :=
    Shared.owner_leave owns
  refine ⟨first, ⟨serial.history.snoc ⟨belongs, Runs.prepend came rest⟩, ?_, serial.nodup, ?_, ?_,
    fun _ => rfl, ?_⟩⟩
  · rw [unowned, Option.toList_none, List.append_nil, List.map_append]
    have before := serial.order
    rw [owns] at before
    exact before
  · intro j waits
    have same : j ≠ i := by
      rintro rfl
      exact waits (serial.mem_entered_iff.mpr (Or.inr owns))
    rw [Shared.thread_leave, Shared.thread_resume_of_ne same]
    exact serial.waiting j waits
  · refine List.forall_mem_append.mpr ⟨serial.ended_resume (serial.ne_of_owner owns) sys.state, ?_⟩
    refine List.forall_mem_singleton.mpr ?_
    rw [Shared.thread_leave, Shared.thread_resume_self]
    exact ends
  · intro j ownsNow
    rw [unowned] at ownsNow
    cases ownsNow

end Serializes

/-! ### Serializability -/

section Serial

variable {use : LockUse Op Res} {step : Step Op Res State}
  {isSection : (i : ι) → Program Op Res ε (α i) → Prop} {start sys : Shared ι Op Res ε α State}

/-- Every step of a thread goes on with the serial history. -/
theorem serializes_of_step {initial last : State} {next : Shared ι Op Res ε α State}
    {events : List (Transition State (Turn ι Op Res ε α))}
    (serial : Serializes use step isSection initial sys events last)
    (stepped : ThreadStep use step sys next) :
    ∃ events last, Serializes use step isSection initial next events last := by
  -- only taking and releasing the lock adds to the serial history
  cases stepped with
  | @acquire i op next result after runs role free granted stepped =>
    rcases serial.owner_or_waiting runs with owns | unentered
    · cases owns.symm.trans free
    · have outside := serial.waiting i unentered
      simp only [runs, Outside, role] at outside
      obtain ⟨rfl, taken, _⟩ := outside _ _ _ stepped
      exact ⟨_, _, serial.enter_section free unentered (taken granted).1 (taken granted).2⟩
  | @refuse i op next result after runs role refused stepped =>
    rcases serial.owner_or_waiting runs with owns | unentered
    -- who is inside its section never asks for the lock
    · have holding := (serial.held i owns).1
      simp only [runs, Holding, role] at holding
    · have outside := serial.waiting i unentered
      simp only [runs, Outside, role] at outside
      obtain ⟨rfl, _, left⟩ := outside _ _ _ stepped
      exact ⟨_, _, serial.resume_waiting unentered (left refused)⟩
  | @release i op next result after runs role stepped =>
    rcases serial.owner_or_waiting runs with owns | unentered
    · have holding := (serial.held i owns).1
      simp only [runs, Holding, role] at holding
      obtain ⟨rfl, ending, ends⟩ := holding _ _ _ stepped
      have rest : ∃ trace, Runs step (.call op next) sys.state trace sys.state ending :=
        exists_runs_call result sys.state stepped ⟨_, ends.runs sys.state⟩
      rw [← runs] at rest
      obtain ⟨first, serialNow⟩ := serial.leave_section owns ends rest
      exact ⟨_, _, serialNow⟩
    · have outside := serial.waiting i unentered
      simp only [runs, Outside, role] at outside
  | @act i op next result after runs role stepped =>
    rcases serial.owner_or_waiting runs with owns | unentered
    · have holding := (serial.held i owns).1
      simp only [runs, Holding, role] at holding
      refine ⟨_, _, serial.resume_owner owns (holding result) ?_⟩
      rw [runs]
      exact .call stepped
    · have outside := serial.waiting i unentered
      simp only [runs, Outside, role] at outside
      obtain ⟨rfl, later⟩ := outside _ _ _ stepped
      exact ⟨_, _, serial.resume_waiting unentered later⟩
  -- a process that dies inside its section has run a prefix of it
  | @crash i op next runs =>
    rcases serial.owner_or_waiting runs with owns | unentered
    · obtain ⟨first, serialNow⟩ := serial.leave_section owns .spin ⟨_, .stop _ _⟩
      exact ⟨_, _, serialNow⟩
    · have other : (sys.resume i .spin sys.state).owner ≠ some i := by
        intro owns
        exact unentered (serial.mem_entered_iff.mpr (Or.inr owns))
      rw [Shared.leave_of_ne other]
      exact ⟨_, _, serial.resume_waiting unentered trivial⟩

theorem serializes_of_interleaves (interleaves : Interleaves use step start sys)
    (unowned : start.owner = none) (unentered : start.entered = [])
    (outside : ∀ i, Outside use step (isSection i) (start.thread i)) :
    ∃ events last, Serializes use step isSection start.state sys events last := by
  induction interleaves with
  | refl =>
    refine ⟨[], start.state, ⟨.nil _, ?_, ?_, fun i _ => outside i, List.forall_mem_nil _,
      fun _ => rfl, ?_⟩⟩
    · rw [unentered, unowned]
      rfl
    · rw [unentered]
      exact List.nodup_nil
    · rw [unowned]
      exact nofun
  | tail _ stepped ih =>
    obtain ⟨events, last, serial⟩ := ih
    exact serializes_of_step serial stepped

/-- Every state that the threads can come to is the end of a serial history: the
turns of the threads that took the lock, in the order in which they took it. A
thread that has ended has ended as in its turn. -/
theorem exists_serial (interleaves : Interleaves use step start sys)
    (unowned : start.owner = none) (unentered : start.entered = [])
    (outside : ∀ i, Outside use step (isSection i) (start.thread i)) :
    ∃ events, History (TurnStep step isSection) start.state events sys.state ∧
      events.map (fun event => event.label.thread) = sys.entered ∧ sys.entered.Nodup ∧
      ∀ event ∈ events, ∀ ending, HasEnded (sys.thread event.label.thread) ending →
        event.label.ending = ending := by
  obtain ⟨events, last, serial⟩ :=
    serializes_of_interleaves interleaves unowned unentered outside
  have order := serial.order
  cases owned : sys.owner with
  | none =>
    rw [owned, Option.toList_none, List.append_nil] at order
    refine ⟨events, serial.free owned ▸ serial.history, order.symm, serial.nodup, ?_⟩
    exact fun event member ending ends => (serial.ended event member).unique ends
  | some i =>
    -- the turn of the owner has not ended; it is stopped here
    obtain ⟨holding, first, belongs, came⟩ := serial.held i owned
    rw [owned, Option.toList_some] at order
    have turn : TurnStep step isSection last ⟨i, first, .stopped⟩ sys.state :=
      ⟨belongs, Runs.prepend came ⟨_, .stop _ _⟩⟩
    refine ⟨_, serial.history.snoc turn, ?_, serial.nodup, List.forall_mem_append.mpr ⟨?_, ?_⟩⟩
    · rw [order, List.map_append]
      rfl
    · exact fun event member ending ends => (serial.ended event member).unique ends
    · refine List.forall_mem_singleton.mpr fun ending ends => ?_
      change HasEnded (sys.thread i) ending at ends
      cases program : sys.thread i with
      | ret value =>
        rw [program] at holding
        exact holding.elim
      | fail error =>
        rw [program] at holding
        exact holding.elim
      | spin =>
        rw [program] at ends
        exact HasEnded.spin.unique ends
      | call op next =>
        rw [program] at ends
        exact (not_endsAs_call ends).elim

end Serial

end Foundation
