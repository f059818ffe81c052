import Mathlib
import Kidobo.Foundation.Program

/-!
# A file system with failing operations

A file system maps paths to what stands there. Programs look at it and change
it by single operations, each of which may fail; a failed write may leave a part
of the contents, and a failed recursive removal may have removed a part of the
directory. Renaming is atomic. Reading is a look at the whole file system, in
which any path may appear unreadable.

## Main definitions

* `Entry`, `FileSystem`, `readBytesWithLimit`
* `Mutation`, `FileOp`, `FileOp.Result`: the operations and their answers
* `FileStep`: what an operation can do, failing or not
* `calmFiles`: files in which operations succeed
-/

namespace Foundation

/-- The contents of a file. -/
abbrev Bytes := List UInt8

/-- The components of a path. -/
abbrev Path := List String

/-- What stands at a path. Something that exists and is neither a readable file
nor a directory is unreadable. -/
inductive Entry where
  | file (contents : Bytes)
  | directory
  | unreadable
  deriving DecidableEq

/-- What stands at every path. -/
abbrev FileSystem := Path → Option Entry

/-- Failure of a file operation. -/
inductive IoError where
  | notFound
  | alreadyExists
  | failed (reason : String)
  deriving DecidableEq, Repr

/-- Read a regular file within a limit. -/
def readBytesWithLimit (files : FileSystem) (path : Path) (limit : ℕ) : Except IoError Bytes :=
  match files path with
  | none => .error .notFound
  | some (.file contents) =>
    if limit < contents.length then .error (.failed s!"file exceeds {limit} byte limit")
    else .ok contents
  | some .directory => .error (.failed "input must be a regular file")
  | some .unreadable => .error (.failed "unreadable")

/-- Whether something stands at the path. -/
def tryExists (files : FileSystem) (path : Path) : Except IoError Bool :=
  match files path with
  | some .unreadable => .error (.failed "unreadable")
  | entry => .ok entry.isSome

/-! ### Operations -/

/-- An operation that changes files or forces them to the disk. -/
inductive Mutation where
  | createDirAll (path : Path)
  | createDir (path : Path)
  | createFile (path : Path)
  | setPermissions (path : Path)
  | writeAll (path : Path) (contents : Bytes)
  | syncFile (path : Path)
  | syncDirectory (path : Path)
  | rename (source target : Path)
  | removeFile (path : Path)
  | removeDirAll (path : Path)

/-- One operation of a program on files. -/
inductive FileOp where
  | look
  | uniqueNumbers
  | readDir (path : Path)
  | change (mutation : Mutation)

/-- What each operation answers. -/
@[reducible] def FileOp.Result : FileOp → Type
  | look => FileSystem
  | uniqueNumbers => ℕ × ℕ
  | readDir _ => Except IoError (List String)
  | change _ => Except IoError Unit

/-- A program on files. -/
abbrev FileProgram (α : Type) := Program FileOp FileOp.Result IoError α

namespace FileProgram

/-- Issue an operation. -/
def perform (op : FileOp) : FileProgram op.Result := Program.perform op

/-- Look at the file system. -/
def look : FileProgram FileSystem := perform .look

/-- Change files, failing when the operation fails. -/
def change (mutation : Mutation) : FileProgram Unit :=
  perform (.change mutation) >>= Program.ofExcept

/-- Run an operation whose failure is ignored. -/
def bestEffort {α : Type} (program : FileProgram α) : FileProgram Unit := do
  let _ ← (program.attempt : FileProgram (Except IoError α))
  return ()

end FileProgram

/-! ### What operations can do -/

namespace FileSystem

/-- A look shows what is there, or nothing readable. -/
def ShownBy (files view : FileSystem) : Prop :=
  ∀ path, view path = files path ∨ view path = some .unreadable

/-- What a rename leaves. -/
def moved (files : FileSystem) (source target : Path) : FileSystem := fun path =>
  if target <+: path then files (source ++ path.drop target.length)
  else if source <+: path then none
  else files path

/-- What the removal of a directory leaves. -/
def without (files : FileSystem) (root : Path) : FileSystem := fun path =>
  if root <+: path then none else files path

/-- Something below the root is gone, and nothing else changed. -/
def Eroded (before after : FileSystem) (root : Path) : Prop :=
  ∀ path, after path = before path ∨ root <+: path ∧ after path = none

end FileSystem

/-- What a mutation leaves when it succeeds. -/
def Mutation.Done (before after : FileSystem) : Mutation → Prop
  | createDirAll path =>
    after path = some .directory ∧ ∀ other, after other = before other ∨
      other <+: path ∧ before other = none ∧ after other = some .directory
  | createDir path =>
    before path = none ∧ after = Function.update before path (some .directory)
  | createFile path => before path = none ∧ after = Function.update before path (some (.file []))
  | writeAll path contents => after = Function.update before path (some (.file contents))
  | rename source target => before source ≠ none ∧ after = before.moved source target
  | removeFile path => after = Function.update before path none
  | removeDirAll path => after = before.without path
  | setPermissions _ | syncFile _ | syncDirectory _ => after = before

/-- What a mutation may leave when it fails. -/
def Mutation.Failed (before after : FileSystem) : Mutation → Prop
  | createDirAll path =>
    ∀ other, after other = before other ∨
      other <+: path ∧ before other = none ∧ after other = some .directory
  | writeAll path contents =>
    ∃ written, written <+: contents ∧ after = Function.update before path (some (.file written))
  | removeDirAll path => before.Eroded after path
  | _ => after = before

/-- The steps of a file system in which every operation may fail. -/
def FileStep : Step FileOp FileOp.Result FileSystem
  | before, .look, view, after => after = before ∧ before.ShownBy view
  | before, .uniqueNumbers, _, after => after = before
  | before, .readDir path, names, after =>
    after = before ∧ ∀ listed, names = .ok listed → ∀ name ∈ listed, before (path ++ [name]) ≠ none
  | before, .change mutation, .ok _, after => mutation.Done before after
  | before, .change mutation, .error _, after => mutation.Failed before after

/-! ### Contracts of file programs -/

/-- Whatever fails, every state on the way satisfies `always`, and the program
ends in one of the postconditions. -/
abbrev Ensures {α : Type} (always : FileSystem → Prop) (returns : α → FileSystem → Prop)
    (fails : IoError → FileSystem → Prop) (program : FileProgram α) (files : FileSystem) : Prop :=
  wp FileStep (fun _ _ _ after => always after) returns fails program files

namespace FileProgram

variable {α β : Type} {always : FileSystem → Prop} {returns : α → FileSystem → Prop}
  {fails : IoError → FileSystem → Prop} {files : FileSystem}

theorem ensures_look {next : FileSystem → FileProgram α} (holds : always files)
    (continues : ∀ view, files.ShownBy view → Ensures always returns fails (next view) files) :
    Ensures always returns fails (look >>= next) files := by
  rintro view after ⟨rfl, shown⟩
  exact ⟨holds, continues view shown⟩

theorem ensures_uniqueNumbers {next : ℕ × ℕ → FileProgram α} (holds : always files)
    (continues : ∀ numbers, Ensures always returns fails (next numbers) files) :
    Ensures always returns fails (perform .uniqueNumbers >>= next) files := by
  rintro numbers after rfl
  exact ⟨holds, continues numbers⟩

theorem ensures_readDir {path : Path} {next : Except IoError (List String) → FileProgram α}
    (holds : always files)
    (continues : ∀ names, (∀ listed, names = .ok listed →
      ∀ name ∈ listed, files (path ++ [name]) ≠ none) →
        Ensures always returns fails (next names) files) :
    Ensures always returns fails (perform (.readDir path) >>= next) files := by
  rintro names after ⟨rfl, listed⟩
  exact ⟨holds, continues names listed⟩

/-- A mutation whose outcome the program looks at. -/
theorem ensures_perform {mutation : Mutation} {next : Except IoError Unit → FileProgram α}
    (done : ∀ after, mutation.Done files after →
      always after ∧ Ensures always returns fails (next (.ok ())) after)
    (failed : ∀ error after, mutation.Failed files after →
      always after ∧ Ensures always returns fails (next (.error error)) after) :
    Ensures always returns fails (perform (.change mutation) >>= next) files := by
  intro outcome after stepped
  cases outcome with
  | ok _ => exact done after stepped
  | error error => exact failed error after stepped

/-- A mutation that must succeed. -/
theorem ensures_change {mutation : Mutation} {next : Unit → FileProgram α}
    (done : ∀ after, mutation.Done files after →
      always after ∧ Ensures always returns fails (next ()) after)
    (failed : ∀ error after, mutation.Failed files after → always after ∧ fails error after) :
    Ensures always returns fails (change mutation >>= next) files :=
  ensures_perform done failed

/-- A mutation at the end of a program. -/
theorem ensures_change_last {mutation : Mutation} {returns : Unit → FileSystem → Prop}
    (done : ∀ after, mutation.Done files after → always after ∧ returns () after)
    (failed : ∀ error after, mutation.Failed files after → always after ∧ fails error after) :
    Ensures always returns fails (change mutation) files :=
  ensures_perform done failed

/-- A mutation whose failure is ignored. -/
theorem ensures_bestEffort {mutation : Mutation} {next : Unit → FileProgram α}
    (continues : ∀ after, mutation.Done files after ∨ mutation.Failed files after →
      always after ∧ Ensures always returns fails (next ()) after) :
    Ensures always returns fails (bestEffort (change mutation) >>= next) files := by
  intro outcome after stepped
  cases outcome with
  | ok _ => exact continues after (Or.inl stepped)
  | error error => exact continues after (Or.inr stepped)

/-- A mutation at the end of a program whose failure is ignored. -/
theorem ensures_bestEffort_last {mutation : Mutation} {returns : Unit → FileSystem → Prop}
    (ends : ∀ after, mutation.Done files after ∨ mutation.Failed files after →
      always after ∧ returns () after) :
    Ensures always returns fails (bestEffort (change mutation)) files := by
  intro outcome after stepped
  cases outcome with
  | ok _ => exact ends after (Or.inl stepped)
  | error error => exact ends after (Or.inr stepped)

/-- Wherever a run ends, what a contract promises of every state holds. -/
theorem always_of_runs {program : FileProgram α} {last : FileSystem}
    {trace : List (Event FileOp FileOp.Result FileSystem)} {ending : Ending IoError α}
    (runs : Runs FileStep program files trace last ending)
    (holds : Ensures always returns fails program files) (initially : always files) : always last :=
  (runs.invariant always (fun event member _ => (runs.sound holds).1 event member) initially).2

/-- A contract that promises more. -/
theorem ensures_mono {strongerAlways : FileSystem → Prop}
    {strongerReturns : α → FileSystem → Prop} {strongerFails : IoError → FileSystem → Prop}
    {program : FileProgram α}
    (holds : Ensures strongerAlways strongerReturns strongerFails program files)
    (onEvery : ∀ state, strongerAlways state → always state)
    (onReturn : ∀ value last, strongerReturns value last → returns value last)
    (onFailure : ∀ error last, strongerFails error last → fails error last) :
    Ensures always returns fails program files :=
  wp_mono (wp_weaken holds fun _ _ _ => onEvery) onReturn onFailure

/-- Contracts compose. -/
theorem ensures_bind {first : β → FileSystem → Prop} {program : FileProgram β}
    {next : β → FileProgram α} (holds : Ensures always first fails program files)
    (continues : ∀ value after, first value after →
      Ensures always returns fails (next value) after) :
    Ensures always returns fails (program >>= next) files :=
  (wp_bind program next files).mpr (wp_mono holds continues fun _ _ failed => failed)

/-- A failure that is turned into a value. -/
theorem ensures_attempt {first : β → FileSystem → Prop} {failing : IoError → FileSystem → Prop}
    {program : FileProgram β} {next : Except IoError β → FileProgram α}
    (holds : Ensures always first failing program files)
    (onReturn : ∀ value after, first value after →
      Ensures always returns fails (next (.ok value)) after)
    (onFailure : ∀ error after, failing error after →
      Ensures always returns fails (next (.error error)) after) :
    Ensures always returns fails (program.attempt >>= next) files :=
  (wp_bind _ next files).mpr ((wp_attempt program files).mpr (wp_mono holds onReturn onFailure))

end FileProgram

/-! ### Files that work -/

/-- Files in which every operation succeeds, except that one directory cannot be synced.
Directories show the given names at most. -/
def calmFiles (stuck : Option Path) (names : List String) : Handler FileOp FileOp.Result FileSystem
  | files, .look => (files, files)
  | files, .uniqueNumbers => ((0, 0), files)
  | files, .readDir path => (.ok (names.filter fun name => files (path ++ [name]) ≠ none), files)
  | files, .change (.createDirAll path) =>
    if files path = some .directory then (.ok (), files) else (.error .notFound, files)
  | files, .change (.createDir path) =>
    if files path = none then (.ok (), Function.update files path (some .directory))
    else (.error .alreadyExists, files)
  | files, .change (.createFile path) =>
    if files path = none then (.ok (), Function.update files path (some (.file [])))
    else (.error .alreadyExists, files)
  | files, .change (.writeAll path contents) =>
    (.ok (), Function.update files path (some (.file contents)))
  | files, .change (.rename source target) =>
    if files source = none then (.error .notFound, files) else (.ok (), files.moved source target)
  | files, .change (.removeFile path) => (.ok (), Function.update files path none)
  | files, .change (.removeDirAll path) => (.ok (), files.without path)
  | files, .change (.setPermissions _) => (.ok (), files)
  | files, .change (.syncFile _) => (.ok (), files)
  | files, .change (.syncDirectory path) =>
    if stuck = some path then (.error (.failed "sync"), files) else (.ok (), files)

theorem fileStep_calmFiles (stuck : Option Path) (names : List String) (files : FileSystem)
    (op : FileOp) : FileStep files op (calmFiles stuck names files op).1
      (calmFiles stuck names files op).2 := by
  cases op with
  | look => exact ⟨rfl, fun _ => Or.inl rfl⟩
  | uniqueNumbers => rfl
  | readDir path =>
    refine ⟨rfl, fun listed isListed name member => ?_⟩
    obtain rfl := Except.ok.inj isListed
    exact of_decide_eq_true (List.mem_filter.mp member).2
  | change mutation =>
    cases mutation with
    | createDirAll path =>
      unfold calmFiles
      dsimp only
      split
      case isTrue present => exact ⟨present, fun _ => Or.inl rfl⟩
      case isFalse => exact fun _ => Or.inl rfl
    | createDir path | createFile path =>
      unfold calmFiles
      dsimp only
      split
      case isTrue absent => exact ⟨absent, rfl⟩
      case isFalse => rfl
    | rename source target =>
      unfold calmFiles
      dsimp only
      split
      case isTrue => rfl
      case isFalse present => exact ⟨present, rfl⟩
    | syncDirectory path =>
      unfold calmFiles
      dsimp only
      split <;> rfl
    | writeAll | removeFile | removeDirAll | setPermissions | syncFile => rfl

/-- Every file and directory can be read. -/
def FileSystem.Readable (files : FileSystem) : Prop := ∀ path, files path ≠ some .unreadable

theorem FileSystem.Readable.update {files : FileSystem} {entry : Option Entry}
    (readable : files.Readable) (path : Path) (isReadable : entry ≠ some .unreadable) :
    FileSystem.Readable (Function.update files path entry) := by
  intro other
  by_cases same : other = path
  · rw [same, Function.update_self]
    exact isReadable
  · rw [Function.update_of_ne same]
    exact readable other

/-- No operation makes anything unreadable. -/
theorem readable_calmFiles {files : FileSystem} (readable : files.Readable) (stuck : Option Path)
    (names : List String) (op : FileOp) : (calmFiles stuck names files op).2.Readable := by
  cases op with
  | look | uniqueNumbers | readDir => exact readable
  | change mutation =>
    cases mutation with
    | createDir path | createFile path =>
      unfold calmFiles
      dsimp only
      split_ifs
      · exact readable.update path (by simp)
      · exact readable
    | writeAll path contents => exact readable.update path (by simp)
    | removeFile path => exact readable.update path (by simp)
    | rename source target =>
      unfold calmFiles
      dsimp only
      split_ifs
      · exact readable
      · intro path
        simp only [FileSystem.moved]
        split_ifs
        · exact readable _
        · simp
        · exact readable path
    | removeDirAll root =>
      intro path
      simp only [calmFiles, FileSystem.without]
      split_ifs
      · simp
      · exact readable path
    | createDirAll | syncDirectory =>
      unfold calmFiles
      dsimp only
      split_ifs <;> exact readable
    | setPermissions | syncFile => exact readable

/-! ### What is left alone -/

/-- The paths that a mutation may change, failing or not. -/
def Mutation.Touches : Mutation → Path → Prop
  | createDirAll path, other => other <+: path
  | createDir path, other | createFile path, other | writeAll path _, other
  | removeFile path, other => other = path
  | rename source target, other => source <+: other ∨ target <+: other
  | removeDirAll path, other => path <+: other
  | setPermissions _, _ | syncFile _, _ | syncDirectory _, _ => False

/-- Whether it succeeds or fails, a mutation leaves the other paths alone. -/
theorem Mutation.frame {mutation : Mutation} {before after : FileSystem}
    (changed : mutation.Done before after ∨ mutation.Failed before after) {path : Path}
    (outside : ¬mutation.Touches path) : after path = before path := by
  cases mutation with
  | createDirAll directory =>
    rcases changed with ⟨_, others⟩ | others
    all_goals
      rcases others path with same | ⟨within, _⟩
      · exact same
      · exact absurd within outside
  | createDir directory =>
    rcases changed with ⟨_, rfl⟩ | rfl
    · exact Function.update_of_ne outside _ _
    · rfl
  | createFile file =>
    rcases changed with ⟨_, rfl⟩ | rfl
    · exact Function.update_of_ne outside _ _
    · rfl
  | writeAll file contents =>
    rcases changed with rfl | ⟨_, _, rfl⟩
    all_goals exact Function.update_of_ne outside _ _
  | removeFile file =>
    rcases changed with rfl | rfl
    · exact Function.update_of_ne outside _ _
    · rfl
  | rename source target =>
    rcases changed with ⟨_, rfl⟩ | rfl
    · rw [FileSystem.moved, if_neg fun below => outside (Or.inr below),
        if_neg fun below => outside (Or.inl below)]
    · rfl
  | removeDirAll directory =>
    rcases changed with rfl | eroded
    · exact if_neg outside
    · rcases eroded path with same | ⟨below, _⟩
      · exact same
      · exact absurd below outside
  | setPermissions | syncFile | syncDirectory => exact congrFun (changed.elim id id) path

/-- The operation removes files at most. -/
def FileOp.Removes : FileOp → Prop
  | .look | .uniqueNumbers | .readDir _ => True
  | .change (.removeFile _) | .change (.removeDirAll _) | .change (.syncDirectory _) => True
  | .change _ => False

/-- Behind such an operation, what is there is what was there. -/
theorem FileStep.of_removes {op : FileOp} {answer : op.Result} {before after : FileSystem}
    (removes : op.Removes) (stepped : FileStep before op answer after) (path : Path) :
    after path = before path ∨ after path = none := by
  cases op with
  | look | readDir =>
    obtain ⟨rfl, _⟩ := stepped
    exact Or.inl rfl
  | uniqueNumbers =>
    obtain rfl : after = before := stepped
    exact Or.inl rfl
  | change mutation =>
    have changed : mutation.Done before after ∨ mutation.Failed before after := by
      cases answer with
      | ok _ => exact Or.inl stepped
      | error _ => exact Or.inr stepped
    cases mutation with
    | removeFile file =>
      rcases changed with rfl | rfl
      · by_cases same : path = file
        · exact Or.inr (by rw [same, Function.update_self])
        · exact Or.inl (Function.update_of_ne same _ _)
      · exact Or.inl rfl
    | removeDirAll root =>
      rcases changed with rfl | eroded
      · unfold FileSystem.without
        split_ifs
        · exact Or.inr rfl
        · exact Or.inl rfl
      · exact (eroded path).imp id And.right
    | syncDirectory directory =>
      obtain rfl : after = before := changed.elim id id
      exact Or.inl rfl
    | createDirAll | createDir | createFile | setPermissions | writeAll | syncFile | rename =>
      exact removes.elim

/-- The file systems agree outside of a directory. -/
def FileSystem.SameOutside (root : Path) (before after : FileSystem) : Prop :=
  ∀ path, ¬root <+: path → after path = before path

namespace FileSystem.SameOutside

variable {root : Path} {before middle after : FileSystem}

theorem refl (root : Path) (files : FileSystem) : files.SameOutside root files := fun _ _ => rfl

/-- A mutation inside the directory is not seen outside. -/
theorem step {mutation : Mutation} (same : before.SameOutside root middle)
    (changed : mutation.Done middle after ∨ mutation.Failed middle after)
    (inside : ∀ path, mutation.Touches path → root <+: path) :
    before.SameOutside root after := fun path outside =>
  (mutation.frame changed fun touched => outside (inside path touched)).trans (same path outside)

end FileSystem.SameOutside

end Foundation
