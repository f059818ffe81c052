import Mathlib
import Kidobo.App.Ban

/-!
# Previews and locked removal of IP and CIDR bans

The plan of an unban request lists the matching lines of the document and the
matching temporary records. The preview shows the plan; applying it computes
the plan again under the lock and goes on only when nothing changed.

## Main definitions

* `prepareUnban`, `applyUnban`
* `buildUnbanPlan`, `UnbanStatePlan`
-/

namespace Kidobo

open Foundation

/-- Request to prepare removal of targets from the local blocklist. -/
structure UnbanRequest where
  paths : PathResolutionInput
  input : BlocklistInput

/-- Mutation preview used to obtain the operator's partial-overlap decision. -/
structure UnbanPreview where
  targetLabel : String
  requestedTargetCount : ℕ
  exactEntries : List String
  partialEntries : List String
  targets : UnbanTargetIndex
  temporaryMatches : SortedMap CanonicalCidr ℕ

/-- Result of read-only unban preparation. -/
inductive UnbanPreparation where
  | ready (preview : UnbanPreview)
  | invalidTargets (targets : List (List Char))
  | emptyFile

/-- Operator decision controlling removal of partially overlapping entries. -/
structure UnbanDecision where
  removePartial : Bool

/-- Result of applying a prepared unban decision. -/
structure UnbanOutcome where
  targetLabel : String
  requestedTargetCount : ℕ
  removedExact : ℕ
  removedPartial : ℕ
  hadPartialMatches : Bool
  deriving DecidableEq

/-- What an unban request meets in the two stores. -/
structure UnbanStatePlan where
  permanent : UnbanIndexPlan
  temporary : UnbanIndexPlan
  temporaryTargets : List CanonicalCidr
  exactEntries : List String
  partialEntries : List String
  temporaryMatches : SortedMap CanonicalCidr ℕ

/-- How a temporary record is shown. -/
def displayTemporary (target : CanonicalCidr) (expiresAt : ℕ) : String :=
  target.display ++ " (temporary, expires at Unix " ++ toString expiresAt ++ ")"

/-- `entries_for_indexes`. -/
def entriesForIndexes (document : BlocklistDocument) (indexes : List ℕ) : List String :=
  (indexes.filterMap (document.lines[·]?)).filterMap fun line =>
    line.canonical.map CanonicalCidr.display

/-- The temporary records at these positions of the key list. -/
def temporaryRecords (temporary : TemporaryBans) (indexes : List ℕ) : List (CanonicalCidr × ℕ) :=
  (indexes.filterMap (temporary.ips.keys[·]?)).filterMap fun target =>
    (temporary.ips.lookup target).map fun expiresAt => (target, expiresAt)

/-- A map with these records, later ones replacing earlier ones. -/
def recordMap (records : List (CanonicalCidr × ℕ)) : SortedMap CanonicalCidr ℕ :=
  records.foldl (fun map record => map.insert record.1 record.2) .empty

/-- The plan of a request against a document and the temporary records. -/
def unbanPlan (targets : UnbanTargetIndex) (document : BlocklistDocument)
    (temporary : TemporaryBans) : UnbanStatePlan :=
  let indexPlan := targets.plan (document.lines.map BlocklistLine.canonical)
  let temporaryTargets := temporary.ips.keys
  let temporaryPlan := targets.plan (temporaryTargets.map some)
  let exactRecords := temporaryRecords temporary temporaryPlan.exactIndexes
  let partialRecords := temporaryRecords temporary temporaryPlan.partialIndexes
  let shown := List.map fun record : CanonicalCidr × ℕ => displayTemporary record.1 record.2
  { permanent := indexPlan
    temporary := temporaryPlan
    temporaryTargets := temporaryTargets
    exactEntries :=
      sortUnstable (entriesForIndexes document indexPlan.exactIndexes ++ shown exactRecords)
    partialEntries :=
      sortUnstable (entriesForIndexes document indexPlan.partialIndexes ++ shown partialRecords)
    temporaryMatches := recordMap (exactRecords ++ partialRecords) }

/-- `build_unban_plan`: the plan with its cancellation checks. -/
def buildUnbanPlan (targets : UnbanTargetIndex) (document : BlocklistDocument)
    (temporary : TemporaryBans) : Workflow UnbanStatePlan := do
  checkCancelled
  checkCancelled
  checkCancelled
  checkCancelled
  return unbanPlan targets document temporary

/-- `unban_target_label`. -/
def unbanTargetLabel (input : BlocklistInput) (targets : UnbanTargetIndex) : String :=
  match input with
  | .single value =>
    match targets.targets.head? with
    | some target => target.display
    | none => String.ofList value
  | .file _ =>
    let count := targets.targets.length
    toString count ++ " file " ++ (if count = 1 then "target" else "targets")

/-- `prepare_unban`. -/
def prepareUnban (request : UnbanRequest) : Workflow UnbanPreparation := do
  checkCancelled
  let paths ← propagate (callPort (.resolvePaths request.paths .required))
  let _ ← propagate (callPort (.loadConfig paths.configFile))
  match ← parseInput request.input with
  | .invalidTargets targets => return .invalidTargets targets
  | .emptyFile => return .emptyFile
  | .ready requested => do
    checkCancelled
    let targets := UnbanTargetIndex.new requested
    checkCancelled
    let document ← propagate (callPort (.loadBlocklist paths.blocklistFile))
    checkCancelled
    let temporary ← propagate (callPort (.loadTemporaryBans paths.temporaryBansFile))
    let plan ← buildUnbanPlan targets document temporary
    return .ready
      { targetLabel := unbanTargetLabel request.input targets
        requestedTargetCount := targets.targets.length
        exactEntries := plan.exactEntries
        partialEntries := plan.partialEntries
        targets := targets
        temporaryMatches := plan.temporaryMatches }

/-- Whether the plan of the current stores is the one that was previewed. -/
def previewUnchanged (request : UnbanRequest) (preview : UnbanPreview)
    (current : UnbanStatePlan) : Bool :=
  decide (current.exactEntries = preview.exactEntries) &&
    decide (current.partialEntries = preview.partialEntries) &&
    decide (current.temporaryMatches = preview.temporaryMatches) &&
    decide (preview.requestedTargetCount = preview.targets.targets.length) &&
    decide (preview.targetLabel = unbanTargetLabel request.input preview.targets)

/-- The positions that a decision removes from a plan. -/
def UnbanIndexPlan.removed (plan : UnbanIndexPlan) (decision : UnbanDecision) : List ℕ :=
  plan.exactIndexes ++ if decision.removePartial then plan.partialIndexes else []

/-- Remove targets from the temporary records and count those that were there. -/
def removeTemporary : List CanonicalCidr → SortedMap CanonicalCidr ℕ →
    SortedMap CanonicalCidr ℕ × ℕ
  | [], ips => (ips, 0)
  | target :: rest, ips =>
    let (last, removed) := removeTemporary rest (ips.remove target)
    (last, removed + if (ips.lookup target).isSome then 1 else 0)

/-- The outcome that is reported for a plan. -/
def unbanOutcome (preview : UnbanPreview) (decision : UnbanDecision) (current : UnbanStatePlan) :
    UnbanOutcome where
  targetLabel := preview.targetLabel
  requestedTargetCount := preview.requestedTargetCount
  removedExact := current.permanent.exactIndexes.length + current.temporary.exactIndexes.length
  removedPartial :=
    if decision.removePartial then
      current.permanent.partialIndexes.length + current.temporary.partialIndexes.length
    else 0
  hadPartialMatches :=
    !current.permanent.partialIndexes.isEmpty || !current.temporary.partialIndexes.isEmpty

/-- Write both stores without what the plan removes. -/
def removePlanned (paths : ResolvedPaths) (decision : UnbanDecision) (document : BlocklistDocument)
    (temporary : TemporaryBans) (current : UnbanStatePlan) : Workflow Unit := do
  let removalIndexes := current.permanent.removed decision
  let temporaryRemovals :=
    (current.temporary.removed decision).filterMap (current.temporaryTargets[·]?)
  let (ips, temporaryRemoved) := removeTemporary temporaryRemovals temporary.ips
  checkCancelled
  if 0 < temporaryRemoved then
    propagate (callPort (.saveTemporaryBans paths.temporaryBansFile { temporary with ips := ips }))
  if !removalIndexes.isEmpty then
    let keptLines := removeIndexes (fun index => decide (index ∈ removalIndexes)) document.lines
    (propagate (callPort (.writeLines paths.blocklistFile
      (keptLines.map BlocklistLine.original)))).mapError fun source =>
        partialUpdateError source (decide (0 < temporaryRemoved)) paths.temporaryBansFile
          paths.blocklistFile

/-- The part of `apply_unban` that holds the lock. -/
def applyUnbanLocked (paths : ResolvedPaths) (request : UnbanRequest) (preview : UnbanPreview)
    (decision : UnbanDecision) : Workflow UnbanOutcome := do
  let _ ← propagate (callPort (.loadConfig paths.configFile))
  checkCancelled
  let document ← propagate (callPort (.loadBlocklist paths.blocklistFile))
  checkCancelled
  let temporary ← propagate (callPort (.loadTemporaryBans paths.temporaryBansFile))
  let current ← buildUnbanPlan preview.targets document temporary
  if previewUnchanged request preview current then
    removePlanned paths decision document temporary current
    return unbanOutcome preview decision current
  else throw .blocklistChanged

/-- `apply_unban`. -/
def applyUnban (request : UnbanRequest) (preview : UnbanPreview) (decision : UnbanDecision) :
    Workflow UnbanOutcome := do
  checkCancelled
  let paths ← propagate (callPort (.resolvePaths request.paths .required))
  withLock paths.lockFile (applyUnbanLocked paths request preview decision)

end Kidobo
