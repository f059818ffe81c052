import Mathlib
import Kidobo.Firewall.Ipset

/-!
# Kernel sets and the restore command

The kernel keeps named sets. `ipset restore` executes the lines of its script
in order and stops at the first one that fails; it reports success only when
every line worked. In the faulty environment any line and any command may fail,
and a command that fails to report may still have had its effect.

## Main definitions

* `KernelSets`, `executeLine`, `executeLines`
* `ipsetStep`: every command and file operation may fail
* `calmIpset`: a line fails only when the kernel must reject it

## Main results

* `executeLines_restoreScript`: a restore script that runs to its end leaves
  exactly its entries in the live set
* `executeLines_begun`: until the last line the live set is untouched
* `wp_atomicReplaceIpsetValues`, `live_of_runs`: the live set is old or new
  throughout, and new on success
* `ends_atomicReplaceIpsetValues`: with enough capacity the replacement succeeds
-/

namespace Kidobo

open Foundation

/-- One set of the kernel. -/
structure KernelSet (T : Type) where
  setType : String
  family : IpsetFamily
  maxelem : ℕ
  entries : List T

/-- The sets of the kernel by name. -/
abbrev KernelSets (T : Type) := String → Option (KernelSet T)

section Lines

variable {T : Type} [DecidableEq T] {rejects : KernelSet T → T → Bool}

/-- The sets after a line that worked, if it can work. A new set needs a free
name, an added entry must be new, representable and within capacity, and
swapped sets must be of one type and family. -/
def executeLine (rejects : KernelSet T → T → Bool) (sets : KernelSets T) :
    RestoreLine T → Option (KernelSets T)
  | .create setName setType family _ maxelem _ =>
    match sets setName with
    | some _ => none
    | none => some (Function.update sets setName (some ⟨setType, family, maxelem, []⟩))
  | .add setName entry =>
    match sets setName with
    | none => none
    | some set =>
      if entry ∈ set.entries ∨ set.maxelem ≤ set.entries.length ∨ rejects set entry = true then none
      else some (Function.update sets setName
        (some { set with entries := set.entries ++ [entry] }))
  | .swap setName otherName =>
    match sets setName, sets otherName with
    | some set, some other =>
      if set.setType = other.setType ∧ set.family = other.family then
        some (Function.update (Function.update sets setName (some other)) otherName (some set))
      else none
    | _, _ => none

/-- The sets after lines that all worked. -/
def executeLines (rejects : KernelSet T → T → Bool) (sets : KernelSets T) :
    List (RestoreLine T) → Option (KernelSets T)
  | [] => some sets
  | line :: rest => (executeLine rejects sets line).bind fun after => executeLines rejects after rest

/-- A line that changes at most one set. -/
def RestoreLine.Within (setName : String) : RestoreLine T → Prop
  | create name .. => name = setName
  | add name _ => name = setName
  | swap .. => False

theorem executeLine_within {setName other : String} {sets after : KernelSets T}
    {line : RestoreLine T} (within : line.Within setName) (different : other ≠ setName)
    (worked : executeLine rejects sets line = some after) : after other = sets other := by
  rcases line with ⟨name, setType, family, hashsize, maxelem, timeout⟩ | ⟨name, entry⟩ | swapped
  · obtain rfl : name = setName := within
    simp only [executeLine] at worked
    split at worked
    · cases worked
    · obtain rfl := Option.some.inj worked
      exact Function.update_of_ne different ..
  · obtain rfl : name = setName := within
    simp only [executeLine] at worked
    split at worked
    · cases worked
    · split_ifs at worked
      obtain rfl := Option.some.inj worked
      exact Function.update_of_ne different ..
  · exact within.elim

theorem executeLines_within {setName other : String} {sets after : KernelSets T}
    {lines : List (RestoreLine T)} (within : ∀ line ∈ lines, line.Within setName)
    (different : other ≠ setName) (worked : executeLines rejects sets lines = some after) :
    after other = sets other := by
  induction lines generalizing sets with
  | nil =>
    obtain rfl := Option.some.inj worked
    rfl
  | cons line rest ih =>
    obtain ⟨middle, first, later⟩ := Option.bind_eq_some_iff.mp worked
    obtain ⟨lineWithin, restWithin⟩ := List.forall_mem_cons.mp within
    rw [ih restWithin later, executeLine_within lineWithin different first]

theorem executeLines_append (sets : KernelSets T) (first second : List (RestoreLine T)) :
    executeLines rejects sets (first ++ second) =
      (executeLines rejects sets first).bind fun middle => executeLines rejects middle second := by
  induction first generalizing sets with
  | nil => rfl
  | cons line rest ih =>
    simp only [List.cons_append, executeLines, Option.bind_assoc]
    exact congrArg _ (funext fun after => ih after)

end Lines

/-! ### Executing a restore script -/

section RestoreScript

variable {T : Type} [LinearOrder T] {rejects : KernelSet T → T → Bool}
  {spec : IpsetSetSpec} {tempSetName : String} {entries : List T}

/-- The lines of a restore script before the swap. -/
def fillLines (spec : IpsetSetSpec) (tempSetName : String) (entries : List T) :
    List (RestoreLine T) :=
  .create tempSetName spec.setType spec.family spec.hashsize spec.maxelem spec.timeout ::
    writeRestoreEntryLines tempSetName entries

theorem writeRestoreScript_eq (spec : IpsetSetSpec) (tempSetName : String) (entries : List T) :
    writeRestoreScript spec tempSetName entries =
      fillLines spec tempSetName entries ++ [.swap tempSetName spec.setName] := rfl

theorem fillLines_within : ∀ line ∈ fillLines spec tempSetName entries, line.Within tempSetName := by
  intro line member
  rcases List.mem_cons.mp member with rfl | added
  · rfl
  · obtain ⟨entry, -, rfl⟩ := List.mem_map.mp added
    rfl

/-- Adding entries that all worked appends them. -/
theorem executeLines_add {sets after : KernelSets T} {set : KernelSet T} {added : List T}
    (present : sets tempSetName = some set)
    (worked : executeLines rejects sets (added.map (.add tempSetName)) = some after) :
    after tempSetName = some { set with entries := set.entries ++ added } := by
  induction added generalizing sets set with
  | nil =>
    obtain rfl := Option.some.inj worked
    rw [present, List.append_nil]
  | cons entry rest ih =>
    obtain ⟨middle, first, later⟩ := Option.bind_eq_some_iff.mp worked
    simp only [executeLine, present] at first
    split_ifs at first
    obtain rfl := Option.some.inj first
    rw [ih (Function.update_self ..) later, List.append_assoc]
    rfl

/-- A swap that worked moves the temporary set to the live name. -/
theorem executeLine_swap {sets after : KernelSets T} {set : KernelSet T} {liveName : String}
    (present : sets tempSetName = some set)
    (worked : executeLine rejects sets (.swap tempSetName liveName) = some after) :
    after liveName = some set := by
  simp only [executeLine, present] at worked
  split at worked
  · rename_i swapped other same _
    split_ifs at worked
    obtain rfl := Option.some.inj worked
    obtain rfl := Option.some.inj same
    exact Function.update_self ..
  · cases worked

/-- The set that a restore script builds. -/
def restoredSet (spec : IpsetSetSpec) (entries : List T) : KernelSet T :=
  ⟨spec.setType, spec.family, spec.maxelem, sortedUniqueEntries entries⟩

/-- A restore script that runs to its end leaves exactly its entries in the
live set. -/
theorem executeLines_restoreScript {sets after : KernelSets T}
    (worked : executeLines rejects sets (writeRestoreScript spec tempSetName entries) = some after) :
    after spec.setName = some (restoredSet spec entries) := by
  rw [writeRestoreScript_eq, executeLines_append] at worked
  obtain ⟨filled, filling, swapping⟩ := Option.bind_eq_some_iff.mp worked
  obtain ⟨created, creating, adding⟩ := Option.bind_eq_some_iff.mp filling
  obtain ⟨last, swapped, finished⟩ := Option.bind_eq_some_iff.mp swapping
  obtain rfl := Option.some.inj finished
  simp only [executeLine] at creating
  split at creating
  · cases creating
  · obtain rfl := Option.some.inj creating
    exact executeLine_swap (executeLines_add (Function.update_self ..) adding) swapped

/-- Lines that all worked from the start of a restore script leave the live set
as it was, or they are the whole script. -/
theorem executeLines_begun {sets after : KernelSets T} {done : List (RestoreLine T)}
    (begun : done <+: writeRestoreScript spec tempSetName entries)
    (different : spec.setName ≠ tempSetName)
    (worked : executeLines rejects sets done = some after) :
    after spec.setName = sets spec.setName ∨
      after spec.setName = some (restoredSet spec entries) := by
  rw [writeRestoreScript_eq, List.prefix_concat_iff] at begun
  rcases begun with whole | proper
  · rw [whole] at worked
    exact Or.inr (executeLines_restoreScript worked)
  · have within : ∀ line ∈ done, line.Within tempSetName :=
      fun line member => fillLines_within line (proper.subset member)
    exact Or.inl (executeLines_within within different worked)

end RestoreScript

/-! ### The faulty environment -/

/-- Kernel sets and the private script files. -/
structure IpsetState (T : Type) where
  sets : KernelSets T
  scripts : String → Option (List (RestoreLine T))

section Environment

variable {T : Type} [LinearOrder T] (rejects : KernelSet T → T → Bool)

/-- The sets a command may leave. A command may fail before, in the middle of or
after its effect; it reports success only when the whole effect happened. -/
def commandEffect (scripts : String → Option (List (RestoreLine T))) (before : KernelSets T) :
    CommandLine → CommandResponse → KernelSets T → Prop
  | ⟨_, ["destroy", setName]⟩, response, after =>
    after = Function.update before setName none ∨ after = before ∧ Unsuccessful response
  | ⟨_, ["restore", "-file", path]⟩, response, after =>
    match scripts path with
    | none => after = before ∧ Unsuccessful response
    | some script =>
      ∃ done, done <+: script ∧ executeLines rejects before done = some after ∧
        (done = script ∨ Unsuccessful response)
  | _, _, after => after = before

/-- Every file operation and every command may fail. A script that was written
without an error is in its file; after an error the file may hold anything. -/
def ipsetStep : Step (IpsetOp T) IpsetOp.Result (IpsetState T) := fun before op result after =>
  match op, result with
  | .createNew _, _ => after.sets = before.sets
  | .writeScript path script, .ok () =>
    after.sets = before.sets ∧ after.scripts path = some script
  | .writeScript _ _, .error _ => after.sets = before.sets
  | .run line, response =>
    after.scripts = before.scripts ∧
      commandEffect rejects before.scripts before.sets line response after.sets
  | .removeFile _, _ => after.sets = before.sets

end Environment

/-! ### Atomic replacement -/

section Replacement

variable {T : Type} [LinearOrder T] {rejects : KernelSet T → T → Bool}
  {liveName : String} {fresh : KernelSet T}

/-- A step leaves a set as it was, or gives it its new contents. -/
def OldOrNew (liveName : String) (fresh : KernelSet T) :
    Step (IpsetOp T) IpsetOp.Result (IpsetState T) :=
  fun before _ _ after =>
    after.sets liveName = before.sets liveName ∨ after.sets liveName = some fresh

/-- Destroying another set leaves the live set as it was. -/
theorem wp_bestEffortDestroySet {setName : String} (different : liveName ≠ setName)
    {returns : Unit → IpsetState T → Prop} {fails : IpsetError → IpsetState T → Prop}
    {state : IpsetState T}
    (kept : ∀ after, after.sets liveName = state.sets liveName → returns () after) :
    wp (ipsetStep rejects) (OldOrNew liveName fresh) returns fails
      (bestEffortDestroySet setName) state := by
  intro response after stepped
  have same : after.sets liveName = state.sets liveName := by
    obtain ⟨-, removed | ⟨unchanged, -⟩⟩ := stepped
    · rw [removed, Function.update_of_ne different]
    · rw [unchanged]
  exact ⟨Or.inl same, kept after same⟩

/-- Creating the script file touches no set. -/
theorem wp_createRestoreScriptFrom (restoreScriptPath : ℕ → String) (attempt remaining : ℕ)
    (state : IpsetState T) :
    wp (ipsetStep rejects) (OldOrNew liveName fresh)
      (fun _ after => after.sets liveName = state.sets liveName)
      (fun _ after => after.sets liveName = state.sets liveName)
      (createRestoreScriptFrom restoreScriptPath attempt remaining) state := by
  induction remaining generalizing attempt state with
  | zero => rfl
  | succ remaining ih =>
    intro result after stepped
    have same : after.sets liveName = state.sets liveName := congrFun stepped liveName
    refine ⟨Or.inl same, ?_⟩
    rcases result with error | done
    · dsimp only
      split_ifs with exists_
      · rw [← same]
        exact ih (attempt + 1) after
      · exact same
    · exact same

variable {spec : IpsetSetSpec} {tempSetName : String} {entries : List T}

/-- Running the script leaves the live set old or new, and new on success. -/
theorem wp_runRestoreScript (path : String) (different : spec.setName ≠ tempSetName)
    (state : IpsetState T) :
    wp (ipsetStep rejects) (OldOrNew spec.setName (restoredSet spec entries))
      (fun _ after => after.sets spec.setName = some (restoredSet spec entries))
      (fun _ _ => True)
      (runRestoreScript path (writeRestoreScript spec tempSetName entries)) state := by
  intro written withScript wroteScript
  rcases written with error | done
  · exact ⟨Or.inl (congrFun wroteScript _), trivial⟩
  obtain ⟨sameSets, stored⟩ := wroteScript
  refine ⟨Or.inl (congrFun sameSets _), ?_⟩
  intro response after stepped
  obtain ⟨-, effect⟩ := stepped
  simp only [commandEffect, stored] at effect
  obtain ⟨lines, begun, worked, reported⟩ := effect
  refine ⟨executeLines_begun begun different worked, ?_⟩
  rcases response with source | result
  · trivial
  · dsimp only
    split_ifs with succeeded
    · have whole : lines = writeRestoreScript spec tempSetName entries := by
        rcases reported with whole | unsuccessful
        · exact whole
        · exact absurd succeeded (by simp [show result.status.success = false from unsuccessful])
      rw [whole] at worked
      exact executeLines_restoreScript worked
    · trivial

/-- The replacement leaves the live set old or new at every step, and new when
it returns. -/
theorem wp_atomicReplaceIpsetValues (suffix : String) (restoreScriptPath : ℕ → String)
    (unused : generateTempSetName spec.setName suffix ≠ spec.setName) (state : IpsetState T) :
    wp (ipsetStep rejects) (OldOrNew spec.setName (restoredSet spec entries))
      (fun _ after => after.sets spec.setName = some (restoredSet spec entries))
      (fun _ _ => True)
      (atomicReplaceIpsetValues suffix restoreScriptPath spec entries) state := by
  have different := unused.symm
  unfold atomicReplaceIpsetValues
  rw [wp_bind]
  apply wp_bestEffortDestroySet different
  intro cleared _
  rw [wp_bind, wp_attempt]
  -- only the swap at the end of the script touches the live set
  have restored : wp (ipsetStep rejects) (OldOrNew spec.setName (restoredSet spec entries))
      (fun _ after => after.sets spec.setName = some (restoredSet spec entries)) (fun _ _ => True)
      (executeIpsetRestoreWithEntries restoreScriptPath spec
        (generateTempSetName spec.setName suffix) entries) cleared := by
    unfold executeIpsetRestoreWithEntries
    rw [wp_bind]
    apply wp_mono (wp_createRestoreScriptFrom restoreScriptPath 0 16 cleared)
    · intro path created _
      rw [wp_bind, wp_attempt]
      apply wp_mono (wp_runRestoreScript path different created)
      · intro _ ran new _ after removed
        have same := congrFun removed spec.setName
        exact ⟨Or.inl same, same.trans new⟩
      · intro error ran _ _ after removed
        exact ⟨Or.inl (congrFun removed _), trivial⟩
    · intro _ _ _
      trivial
  apply wp_mono restored
  · intro _ ran new
    rw [wp_bind]
    apply wp_bestEffortDestroySet different
    intro after same
    exact same.trans new
  -- the error is returned after the temporary set is destroyed
  · intro error ran _
    rw [wp_bind]
    apply wp_bestEffortDestroySet different
    intro _ _
    trivial

/-- At every point of a run of the replacement the live set is the one before
the call or the new one, and it is the new one once the call has returned. -/
theorem live_of_runs {suffix : String} {restoreScriptPath : ℕ → String}
    (unused : generateTempSetName spec.setName suffix ≠ spec.setName)
    {before last : IpsetState T} {trace : List (Event (IpsetOp T) IpsetOp.Result (IpsetState T))}
    {ending : Ending IpsetError Unit}
    (runs : Runs (ipsetStep rejects)
      (atomicReplaceIpsetValues suffix restoreScriptPath spec entries) before trace last ending) :
    (∀ event ∈ trace, event.after.sets spec.setName = before.sets spec.setName ∨
      event.after.sets spec.setName = some (restoredSet spec entries)) ∧
    (ending = .returned () → last.sets spec.setName = some (restoredSet spec entries)) := by
  obtain ⟨steps, ended⟩ := runs.sound (wp_atomicReplaceIpsetValues suffix restoreScriptPath unused before)
  constructor
  · refine (runs.invariant (fun state => state.sets spec.setName = before.sets spec.setName ∨
      state.sets spec.setName = some (restoredSet spec entries)) ?_ (Or.inl rfl)).1
    intro event member whole
    rcases steps event member with same | new
    · rwa [same]
    · exact Or.inr new
  · rintro rfl
    exact ended

end Replacement

/-! ### The calm environment -/

section Calm

variable {T : Type} [LinearOrder T] (rejects : KernelSet T → T → Bool)

/-- The sets after a restore: up to the first line the kernel rejects, and
whether there was none. -/
def restoreSets (sets : KernelSets T) : List (RestoreLine T) → KernelSets T × Bool
  | [] => (sets, true)
  | line :: rest =>
    match executeLine rejects sets line with
    | none => (sets, false)
    | some after => restoreSets after rest

/-- A command of the calm environment works whenever the kernel allows it. -/
def calmCommand (state : IpsetState T) : CommandLine → CommandResponse × IpsetState T
  | ⟨_, ["destroy", setName]⟩ =>
    match state.sets setName with
    | none => (.ok ⟨.exited 1, "", "The set with the given name does not exist"⟩, state)
    | some _ =>
      (.ok ⟨.exited 0, "", ""⟩, { state with sets := Function.update state.sets setName none })
  | ⟨_, ["restore", "-file", path]⟩ =>
    match state.scripts path with
    | none => (.ok ⟨.exited 1, "", "Cannot open the script"⟩, state)
    | some script =>
      let (sets, finished) := restoreSets rejects state.sets script
      (.ok ⟨.exited (if finished then 0 else 1), "", ""⟩, { state with sets := sets })
  | _ => (.ok ⟨.exited 1, "", "Unknown command"⟩, state)

/-- Every file operation works and so does every command the kernel allows. -/
def calmIpset : Handler (IpsetOp T) IpsetOp.Result (IpsetState T) := fun state op =>
  match op with
  | .createNew path => (.ok (), { state with scripts := Function.update state.scripts path (some []) })
  | .writeScript path script =>
    (.ok (), { state with scripts := Function.update state.scripts path (some script) })
  | .run line => calmCommand rejects state line
  | .removeFile path => (.ok (), { state with scripts := Function.update state.scripts path none })

end Calm

section CalmReplacement

variable {T : Type} [LinearOrder T] {rejects : KernelSet T → T → Bool}

theorem restoreSets_of_executeLines {sets after : KernelSets T} {script : List (RestoreLine T)}
    (worked : executeLines rejects sets script = some after) :
    restoreSets rejects sets script = (after, true) := by
  induction script generalizing sets with
  | nil =>
    obtain rfl := Option.some.inj worked
    rfl
  | cons line rest ih =>
    obtain ⟨middle, first, later⟩ := Option.bind_eq_some_iff.mp worked
    rw [restoreSets, first]
    exact ih later

/-- Distinct representable entries within capacity can all be added. -/
theorem executeLines_add_works {tempSetName : String} {sets : KernelSets T} {set : KernelSet T}
    {added : List T} (present : sets tempSetName = some set)
    (accepted : ∀ set : KernelSet T, ∀ entry ∈ added, rejects set entry = false)
    (distinct : (set.entries ++ added).Nodup)
    (fits : set.entries.length + added.length ≤ set.maxelem) :
    ∃ after, executeLines rejects sets (added.map (.add tempSetName)) = some after := by
  induction added generalizing sets set with
  | nil => exact ⟨sets, rfl⟩
  | cons entry rest ih =>
    have isNew : entry ∉ set.entries := by
      intro inside
      exact (List.nodup_append.mp distinct).2.2 entry inside entry List.mem_cons_self rfl
    have room : ¬set.maxelem ≤ set.entries.length := by
      rw [List.length_cons] at fits
      omega
    have works : executeLine rejects sets (.add tempSetName entry) =
        some (Function.update sets tempSetName
          (some { set with entries := set.entries ++ [entry] })) := by
      simp [executeLine, present, isNew, room, accepted set entry List.mem_cons_self]
    obtain ⟨after, later⟩ := @ih (Function.update sets tempSetName
        (some { set with entries := set.entries ++ [entry] })) _ (Function.update_self ..)
      (fun set other member => accepted set other (List.mem_cons_of_mem _ member))
      (by simpa using distinct) (by simpa [Nat.add_assoc, Nat.add_comm 1] using fits)
    refine ⟨after, ?_⟩
    rw [List.map_cons, executeLines, works]
    exact later

/-- The kernel rejects no line of a script whose entries are representable and
within capacity, once the temporary name is free and the live set compatible. -/
theorem executeLines_restoreScript_works {spec : IpsetSetSpec} {tempSetName : String}
    {entries : List T} {sets : KernelSets T} {live : KernelSet T}
    (different : spec.setName ≠ tempSetName) (free : sets tempSetName = none)
    (present : sets spec.setName = some live)
    (compatible : live.setType = spec.setType ∧ live.family = spec.family)
    (accepted : ∀ set : KernelSet T, ∀ entry ∈ sortedUniqueEntries entries, rejects set entry = false)
    (fits : (sortedUniqueEntries entries).length ≤ spec.maxelem) :
    ∃ after, executeLines rejects sets (writeRestoreScript spec tempSetName entries) =
      some after := by
  have strict := sortedUniqueEntries_strict entries
  let created := Function.update sets tempSetName
    (some (⟨spec.setType, spec.family, spec.maxelem, []⟩ : KernelSet T))
  obtain ⟨filled, adding⟩ := executeLines_add_works
    (Function.update_self .. : created tempSetName = _) accepted
    (by simpa [List.Nodup] using strict.imp fun less => ne_of_lt less) (by simpa using fits)
  have filling : executeLines rejects sets (fillLines spec tempSetName entries) = some filled := by
    rw [fillLines, executeLines, executeLine, free]
    exact adding
  have temporary := executeLines_add (Function.update_self .. : created tempSetName = _) adding
  have untouched := executeLines_within fillLines_within different filling
  rw [writeRestoreScript_eq, executeLines_append, filling, Option.bind_some, executeLines,
    executeLine, temporary, untouched, present]
  dsimp only
  rw [if_pos ⟨compatible.1.symm, compatible.2.symm⟩]
  exact ⟨_, rfl⟩

theorem ends_bestEffortDestroySet {setName : String} {state : IpsetState T}
    {returns : Unit → IpsetState T → Prop} {fails : IpsetError → IpsetState T → Prop}
    (continues : returns () { state with sets := Function.update state.sets setName none }) :
    Ends (calmIpset rejects) returns fails (bestEffortDestroySet setName) state := by
  change returns () (calmCommand rejects state ⟨"ipset", ["destroy", setName]⟩).2
  cases found : state.sets setName with
  | none =>
    rw [← found, Function.update_eq_self] at continues
    simpa only [calmCommand, found] using continues
  | some set => simpa only [calmCommand, found] using continues

/-- A script that the kernel accepts is executed. -/
theorem ends_executeIpsetRestoreWithEntries {spec : IpsetSetSpec} {tempSetName : String}
    {entries : List T} (restoreScriptPath : ℕ → String) {state : IpsetState T}
    {after : KernelSets T}
    (worked : executeLines rejects state.sets (writeRestoreScript spec tempSetName entries) =
      some after) :
    Ends (calmIpset rejects) (fun _ last => last.sets = after) (fun _ _ => False)
      (executeIpsetRestoreWithEntries restoreScriptPath spec tempSetName entries) state := by
  have finished := restoreSets_of_executeLines worked
  unfold executeIpsetRestoreWithEntries
  rw [ends_bind]
  change Ends _ _ _ ((runRestoreScript (restoreScriptPath 0) _).attempt >>= _) _
  rw [ends_bind, ends_attempt]
  -- the file holds the script when the restore command opens it
  simp only [runRestoreScript, Ends, calmIpset, calmCommand, Function.update_self, finished]
  rfl

/-- With a compatible live set, representable entries and enough capacity the
replacement succeeds in the calm environment. -/
theorem ends_atomicReplaceIpsetValues {spec : IpsetSetSpec} {entries : List T} (suffix : String)
    (restoreScriptPath : ℕ → String) {state : IpsetState T} {live : KernelSet T}
    (unused : generateTempSetName spec.setName suffix ≠ spec.setName)
    (present : state.sets spec.setName = some live)
    (compatible : live.setType = spec.setType ∧ live.family = spec.family)
    (accepted : ∀ set : KernelSet T, ∀ entry ∈ sortedUniqueEntries entries, rejects set entry = false)
    (fits : (sortedUniqueEntries entries).length ≤ spec.maxelem) :
    Ends (calmIpset rejects)
      (fun _ after => after.sets spec.setName = some (restoredSet spec entries))
      (fun _ _ => False)
      (atomicReplaceIpsetValues suffix restoreScriptPath spec entries) state := by
  have different := unused.symm
  obtain ⟨after, worked⟩ := executeLines_restoreScript_works different
    (Function.update_self (generateTempSetName spec.setName suffix) none state.sets)
    (by rw [Function.update_of_ne different, present]) compatible accepted fits
  unfold atomicReplaceIpsetValues
  rw [ends_bind]
  apply ends_bestEffortDestroySet
  rw [ends_bind, ends_attempt]
  refine Ends.mono (ends_executeIpsetRestoreWithEntries restoreScriptPath worked) ?_ ?_
  · intro _ last executed
    rw [ends_bind]
    apply ends_bestEffortDestroySet
    change Function.update last.sets _ none spec.setName = _
    rw [Function.update_of_ne different, executed]
    exact executeLines_restoreScript worked
  · intro _ _ impossible
    exact impossible.elim

theorem executeLines_of_restoreSets (sets : KernelSets T) (script : List (RestoreLine T)) :
    ∃ done, done <+: script ∧
      executeLines rejects sets done = some (restoreSets rejects sets script).1 ∧
      ((restoreSets rejects sets script).2 = true → done = script) := by
  induction script generalizing sets with
  | nil => exact ⟨[], List.prefix_refl _, rfl, fun _ => rfl⟩
  | cons line rest ih =>
    cases worked : executeLine rejects sets line with
    | none => exact ⟨[], List.nil_prefix, by simp [restoreSets, worked, executeLines]⟩
    | some after =>
      obtain ⟨done, begun, executed, finished⟩ := ih after
      refine ⟨line :: done, List.cons_prefix_cons.mpr ⟨rfl, begun⟩, ?_, ?_⟩
      · rw [executeLines, worked, restoreSets, worked]
        exact executed
      · rw [restoreSets, worked]
        intro complete
        rw [finished complete]

/-- The calm environment is a faulty environment in which nothing goes wrong. -/
theorem calmIpset_allowed (state : IpsetState T) (op : IpsetOp T) :
    ipsetStep rejects state op (calmIpset rejects state op).1 (calmIpset rejects state op).2 := by
  cases op with
  | createNew path => rfl
  | writeScript path script => exact ⟨rfl, Function.update_self ..⟩
  | removeFile path => rfl
  | run line =>
    change (calmCommand rejects state line).2.scripts = _ ∧ commandEffect _ _ _ line
      (calmCommand rejects state line).1 (calmCommand rejects state line).2.sets
    unfold calmCommand
    split
    · rename_i command setName
      split
      · exact ⟨rfl, Or.inr ⟨rfl, rfl⟩⟩
      · exact ⟨rfl, Or.inl rfl⟩
    · rename_i command path
      cases found : state.scripts path with
      | none =>
        refine ⟨rfl, ?_⟩
        simp only [commandEffect, found]
        exact ⟨trivial, rfl⟩
      | some script =>
        obtain ⟨done, begun, executed, finished⟩ :=
          @executeLines_of_restoreSets _ _ rejects state.sets script
        refine ⟨rfl, ?_⟩
        simp only [commandEffect, found]
        refine ⟨done, begun, executed, ?_⟩
        cases complete : (restoreSets rejects state.sets script).2 with
        | true => exact Or.inl (finished complete)
        | false => exact Or.inr rfl
    · rename_i otherLine notDestroy notRestore
      refine ⟨rfl, ?_⟩
      unfold commandEffect
      split
      · exact absurd rfl (notDestroy _ _)
      · exact absurd rfl (notRestore _ _)
      · rfl

end CalmReplacement

end Kidobo
