import Kidobo.App.Ports
import Kidobo.Command
import Kidobo.Foundation.SortedList

/-!
# The atomic ipset adapter

A managed set is replaced through a restore script: create a temporary set,
add every entry, swap it with the live set. The script is written to a private
file and handed to one `ipset restore`; the temporary set is destroyed before
and after, and the outcome of those two commands is ignored.

The clock and the process id only enter the hexadecimal suffixes of the
temporary names, so the suffixes are arguments.

## Main definitions

* `IpsetSetSpec`, `toIpsetSpec`
* `RestoreLine`, `writeRestoreScript`, `sortedUniqueEntries`
* `atomicReplaceIpsetValues`, a program over files and commands
-/

namespace Kidobo

open Foundation

/-! ### Specifications and names -/

/-- Kernel address family used when creating an ipset. -/
inductive IpsetFamily where
  | inet
  | inet6
  deriving DecidableEq, Repr

/-- The family's name on the command line. -/
def IpsetFamily.asStr : IpsetFamily → String
  | inet => "inet"
  | inet6 => "inet6"

/-- Complete specification of one managed ipset. -/
structure IpsetSetSpec where
  setName : String
  setType : String
  family : IpsetFamily
  hashsize : ℕ
  maxelem : ℕ
  timeout : ℕ
  deriving DecidableEq

/-- The kernel family of an address family. -/
def AddressFamily.toIpsetFamily : AddressFamily → IpsetFamily
  | ipv4 => .inet
  | ipv6 => .inet6

/-- `to_ipset_spec`. -/
def toIpsetSpec (spec : ManagedSetSpec) : IpsetSetSpec where
  setName := spec.setName
  setType := spec.setType
  family := spec.family.toIpsetFamily
  hashsize := spec.hashsize
  maxelem := spec.maxelem
  timeout := spec.timeout

/-- `truncate_to_max_bytes`: the longest prefix of whole characters within the
byte budget. -/
def truncateToMaxBytes : List Char → ℕ → List Char
  | [], _ => []
  | c :: rest, maxBytes =>
    if c.utf8Size ≤ maxBytes then c :: truncateToMaxBytes rest (maxBytes - c.utf8Size) else []

/-- `generate_temp_set_name` with its random suffix of eight digits. -/
def generateTempSetName (baseSetName suffix : String) : String :=
  let maxBaseLen := ipsetNameMaxLen - (suffix.utf8ByteSize + 1)
  let base := truncateToMaxBytes baseSetName.toList maxBaseLen
  let base := if base.isEmpty then "kidobo" else String.ofList base
  base ++ "-" ++ suffix

/-! ### Restore scripts -/

/-- One line of a restore script. -/
inductive RestoreLine (T : Type) where
  | create (setName setType : String) (family : IpsetFamily) (hashsize maxelem timeout : ℕ)
  | add (setName : String) (entry : T)
  | swap (setName otherName : String)

/-- How a line is spelled in the script file. -/
def RestoreLine.text {T : Type} (display : T → String) : RestoreLine T → String
  | create setName setType family hashsize maxelem timeout =>
    "create " ++ setName ++ " " ++ setType ++ " family " ++ family.asStr ++ " hashsize " ++
      toString hashsize ++ " maxelem " ++ toString maxelem ++ " timeout " ++ toString timeout
  | add setName entry => "add " ++ setName ++ " " ++ display entry
  | swap setName otherName => "swap " ++ setName ++ " " ++ otherName

section Script

variable {T : Type} [LinearOrder T]

/-- `is_sorted_and_unique`: every adjacent pair is strictly increasing. -/
def isSortedAndUnique : List T → Bool
  | first :: second :: rest => decide (first < second) && isSortedAndUnique (second :: rest)
  | _ => true

/-- `sorted_unique_entries`. -/
def sortedUniqueEntries (entries : List T) : List T :=
  if isSortedAndUnique entries then entries else dedupAdjacent (sortUnstable entries)

/-- `write_restore_entry_lines`. -/
def writeRestoreEntryLines (tempSetName : String) (entries : List T) : List (RestoreLine T) :=
  (sortedUniqueEntries entries).map (.add tempSetName)

/-- `write_restore_script`. -/
def writeRestoreScript (spec : IpsetSetSpec) (tempSetName : String) (entries : List T) :
    List (RestoreLine T) :=
  .create tempSetName spec.setType spec.family spec.hashsize spec.maxelem spec.timeout ::
    (writeRestoreEntryLines tempSetName entries ++ [.swap tempSetName spec.setName])

/-- A sorted list without repetition is taken as it is. -/
theorem isSortedAndUnique_iff {entries : List T} :
    isSortedAndUnique entries = true ↔ entries.Pairwise (· < ·) := by
  rw [← List.isChain_iff_pairwise]
  fun_induction isSortedAndUnique entries with
  | case1 first second rest ih => rw [Bool.and_eq_true, decide_eq_true_iff, ih, List.isChain_cons_cons]
  | case2 entries short =>
    rcases entries with _ | ⟨first, _ | ⟨second, rest⟩⟩
    · simp
    · simp
    · exact absurd rfl (short first second rest)

theorem sortedUniqueEntries_strict (entries : List T) :
    (sortedUniqueEntries entries).Pairwise (· < ·) := by
  unfold sortedUniqueEntries
  split_ifs with sorted
  · exact isSortedAndUnique_iff.mp sorted
  · exact dedupAdjacent_sortUnstable_strict entries

theorem sortedUniqueEntries_eq_self {entries : List T} (strict : entries.Pairwise (· < ·)) :
    sortedUniqueEntries entries = entries :=
  if_pos (isSortedAndUnique_iff.mpr strict)

end Script

/-! ### The adapter program -/

/-- A failed file operation. -/
structure IoError where
  alreadyExists : Bool
  message : String
  deriving DecidableEq

/-- Failure while preparing or atomically replacing an ipset. -/
inductive IpsetError where
  | commandExecution (source : CommandRunnerError)
  | commandFailed (command : String) (status : ProcessStatus) (stderr : String)
  | writeRestoreScript (path : String) (source : IoError)
  | createRestoreScript (path : String) (source : IoError)
  deriving DecidableEq

/-- What the adapter does outside itself. Writing includes the final flush. -/
inductive IpsetOp (T : Type) where
  | createNew (path : String)
  | writeScript (path : String) (script : List (RestoreLine T))
  | run (line : CommandLine)
  | removeFile (path : String)

/-- What each of these answers. -/
@[reducible] def IpsetOp.Result {T : Type} : IpsetOp T → Type
  | createNew _ => Except IoError Unit
  | writeScript _ _ => Except IoError Unit
  | run _ => CommandResponse
  | removeFile _ => Except IoError Unit

/-- A program of the ipset adapter. -/
abbrev IpsetProgram (T α : Type) := Program (IpsetOp T) IpsetOp.Result IpsetError α

section Adapter

variable {T : Type}

/-- `best_effort_destroy_set`: the answer is only logged. -/
def bestEffortDestroySet (setName : String) : IpsetProgram T Unit :=
  .call (.run ⟨"ipset", ["destroy", setName]⟩) fun _ => .ret ()

/-- The attempts of `create_restore_script_file` from this number on. -/
def createRestoreScriptFrom (restoreScriptPath : ℕ → String) (attempt : ℕ) :
    ℕ → IpsetProgram T String
  | 0 => .fail (.createRestoreScript (restoreScriptPath attempt)
      ⟨true, "failed to create a unique temporary restore script path"⟩)
  | remaining + 1 =>
    .call (.createNew (restoreScriptPath attempt)) fun
      | .ok () => .ret (restoreScriptPath attempt)
      | .error error =>
        if error.alreadyExists then
          createRestoreScriptFrom restoreScriptPath (attempt + 1) remaining
        else .fail (.createRestoreScript (restoreScriptPath attempt) error)

/-- `create_restore_script_file`. -/
def createRestoreScriptFile (restoreScriptPath : ℕ → String) : IpsetProgram T String :=
  createRestoreScriptFrom restoreScriptPath 0 16

/-- Write the script and run it. -/
def runRestoreScript (path : String) (script : List (RestoreLine T)) : IpsetProgram T Unit :=
  .call (.writeScript path script) fun
    | .error error => .fail (.writeRestoreScript path error)
    | .ok () =>
      .call (.run ⟨"ipset", ["restore", "-file", path]⟩) fun
        | .error source => .fail (.commandExecution source)
        | .ok result =>
          if result.status.success then .ret ()
          else .fail (.commandFailed (displayCommand "ipset" ["restore", "-file", path])
            result.status result.stderr)

/-- `execute_ipset_restore_with_entries`. The script file is removed on every
way out, and a failure to remove it is only logged. -/
def executeIpsetRestoreWithEntries [LinearOrder T] (restoreScriptPath : ℕ → String)
    (spec : IpsetSetSpec) (tempSetName : String) (entries : List T) : IpsetProgram T Unit := do
  let path ← createRestoreScriptFile restoreScriptPath
  let result ← (runRestoreScript path (writeRestoreScript spec tempSetName entries)).attempt
  let _ ← Program.perform (.removeFile path)
  Program.ofExcept result

/-- `atomic_replace_ipset_values`. -/
def atomicReplaceIpsetValues [LinearOrder T] (suffix : String) (restoreScriptPath : ℕ → String)
    (spec : IpsetSetSpec) (entries : List T) : IpsetProgram T Unit := do
  let tempSetName := generateTempSetName spec.setName suffix
  bestEffortDestroySet tempSetName
  let restoreResult ←
    (executeIpsetRestoreWithEntries restoreScriptPath spec tempSetName entries).attempt
  bestEffortDestroySet tempSetName
  Program.ofExcept restoreResult

end Adapter

end Kidobo
