import Kidobo.App.Ports

/-!
# Shared parts of the ban and unban workflows

Reading targets from an argument or a file, recording temporary bans, and the
error of an update that stopped between its two stores.

## Main definitions

* `BlocklistInput`, `parseInput`
* `BanChange`, `recordTemporaryBans`
* `partialUpdateError`
-/

namespace Kidobo

open Foundation

/-- One target supplied directly or through a line-oriented file. -/
inductive BlocklistInput where
  | single (value : List Char)
  | file (path : String)

/-- Per-target result from a successful ban workflow. -/
inductive BanChange where
  | added (target : String)
  | alreadyPresent (target : String)
  | alreadyPermanent (target : String)
  | temporaryAdded (target : String) (expiresAt : ℕ)
  | temporaryRescheduled (target : String) (expiresAt : ℕ)
  deriving DecidableEq

/-- Targets of a request, or why there are none. -/
inductive ParsedBlocklistInput where
  | ready (targets : List CanonicalCidr)
  | invalidTargets (targets : List (List Char))
  | emptyFile

/-- The lines that are no targets. -/
def invalidTargetsOf (raw : List (List Char)) : List (List Char) :=
  raw.filter fun value => (parseBlocklistTarget value).isNone

/-- What the lines of a target file ask for. -/
def parseTargetLines (raw : List (List Char)) : ParsedBlocklistInput :=
  -- every line is a target, also one that is blank or a comment
  if raw.isEmpty then .emptyFile
  else if (invalidTargetsOf raw).isEmpty then .ready (raw.filterMap parseBlocklistTarget)
  else .invalidTargets (invalidTargetsOf raw)

/-- `parse_input`. -/
def parseInput (input : BlocklistInput) : Workflow ParsedBlocklistInput :=
  match input with
  | .single value =>
    match parseBlocklistTarget value with
    | some target => return .ready [target]
    | none => throw (.blocklistTargetParse (String.ofList value))
  | .file path => do
    let raw ← propagate (callPort (.readTargetLines path))
    return parseTargetLines raw

section Temporary

variable {κ : Type} [LinearOrder κ]

/-- Record the remaining targets with one deadline. A permanent target is left
alone and a repeated one is reported as present. -/
def recordRemaining (permanent : List κ) (expiresAt : ℕ) (render : κ → String) :
    List κ → List κ → SortedMap κ ℕ → List BanChange × SortedMap κ ℕ
  | _, [], entries => ([], entries)
  | seen, target :: rest, entries =>
    if target ∈ permanent then
      let (changes, last) := recordRemaining permanent expiresAt render seen rest entries
      (.alreadyPermanent (render target) :: changes, last)
    else if target ∈ seen then
      let (changes, last) := recordRemaining permanent expiresAt render seen rest entries
      (.alreadyPresent (render target) :: changes, last)
    else
      let change :=
        if (entries.lookup target).isSome then
          BanChange.temporaryRescheduled (render target) expiresAt
        else .temporaryAdded (render target) expiresAt
      let (changes, last) := recordRemaining permanent expiresAt render (target :: seen) rest
        (entries.insert target expiresAt)
      (change :: changes, last)

/-- Recorded changes and entries, and whether any target was recorded. -/
structure RecordedBans (κ : Type) [LinearOrder κ] where
  changes : List BanChange
  entries : SortedMap κ ℕ
  hasUpdates : Bool

/-- `record_temporary_bans`. The clock is read only when a target is not
permanent. -/
def recordTemporaryBans (entries : SortedMap κ ℕ) (targets permanent : List κ)
    (duration : BanDuration) (path : String) (render : κ → String) :
    Workflow (RecordedBans κ) := do
  checkCancelled
  let hasUpdates := targets.any fun target => decide (target ∉ permanent)
  let expiresAt ←
    if hasUpdates then do
      let now ← propagate (callPort .nowUnixSecs)
      match duration.expiresAt now with
      | .ok deadline => pure deadline
      | .error reason => throw (.temporaryBans path reason)
    else pure 0
  let (changes, recorded) := recordRemaining permanent expiresAt render [] targets entries
  return ⟨changes, recorded, hasUpdates⟩

end Temporary

/-- `partial_update_error`. -/
def partialUpdateError (source : AppError) (completed : Bool) (temporaryPath permanentPath : String) :
    AppError :=
  if completed then .partialBanUpdate temporaryPath permanentPath source else source

end Kidobo
