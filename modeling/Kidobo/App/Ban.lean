import Kidobo.App.BlocklistInput

/-!
# Locked IP and CIDR bans

## Main definitions

* `executeBan`
-/

namespace Kidobo

open Foundation

/-- Request to add IP or CIDR targets to the local blocklist. -/
structure BanRequest where
  paths : PathResolutionInput
  input : BlocklistInput
  duration : Option BanDuration

/-- Result of parsing and applying a local blocklist ban request. -/
inductive BanOutcome where
  | applied (changes : List BanChange)
  | temporaryApplied (changes : List BanChange) (notices : List Notice)
  | invalidTargets (targets : List (List Char))
  | emptyFile

/-- The networks that a classification adds. -/
def addedTargets (classifications : List BanClassification) : List CanonicalCidr :=
  classifications.filterMap fun
    | .added cidr => some cidr
    | .alreadyPresent _ => none

/-- How a classification is reported. -/
def BanClassification.change : BanClassification → BanChange
  | added cidr => .added cidr.display
  | alreadyPresent cidr => .alreadyPresent cidr.display

/-- The timed branch of `execute_ban`. -/
def banTemporarily (paths : ResolvedPaths) (config : Config) (document : BlocklistDocument)
    (targets : List CanonicalCidr) (duration : BanDuration) : Workflow BanOutcome := do
  let temporary ← propagate (callPort (.loadTemporaryBans paths.temporaryBansFile))
  let recorded ← recordTemporaryBans temporary.ips targets document.entries duration
    paths.temporaryBansFile CanonicalCidr.display
  if recorded.hasUpdates then
    propagate (callPort (.saveTemporaryBans paths.temporaryBansFile
      { temporary with ips := recorded.entries }))
  return .temporaryApplied recorded.changes
    (if recorded.hasUpdates && config.ipset.timeout != 0 then [kernelTimeoutNotice] else [])

/-- The permanent branch of `execute_ban`. -/
def banPermanently (paths : ResolvedPaths) (document : BlocklistDocument)
    (targets : List CanonicalCidr) : Workflow BanOutcome := do
  let classifications := classifyBanTargets document.entries targets
  let appended := (addedTargets classifications).map CanonicalCidr.display
  if !appended.isEmpty then
    checkCancelled
    propagate (callPort (.appendEntries paths.blocklistFile appended document.hasContent
      document.trailingNewline))
  return .applied (classifications.map BanClassification.change)

/-- The part of `execute_ban` that holds the lock. -/
def executeBanLocked (paths : ResolvedPaths) (request : BanRequest) : Workflow BanOutcome := do
  let config ← propagate (callPort (.loadConfig paths.configFile))
  match ← parseInput request.input with
  | .invalidTargets targets => return .invalidTargets targets
  | .emptyFile => return .emptyFile
  | .ready targets => do
    let document ← propagate (callPort (.loadBlocklist paths.blocklistFile))
    match request.duration with
    | some duration => banTemporarily paths config document targets duration
    | none => banPermanently paths document targets

/-- `execute_ban`. -/
def executeBan (request : BanRequest) : Workflow BanOutcome := do
  checkCancelled
  let paths ← propagate (callPort (.resolvePaths request.paths .required))
  withLock paths.lockFile (executeBanLocked paths request)

end Kidobo
