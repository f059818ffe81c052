import Kidobo.App.BlocklistInput

/-!
# Locked ASN configuration and temporary ASN bans

## Main definitions

* `normalizeAsnTokens`
* `executeBanAsn`, `executeUnbanAsn`
* `removeExactDuplicates`
-/

namespace Kidobo

open Foundation

/-! ### Tokens -/

/-- `u32::from_str`: decimal digits behind an optional plus sign. -/
def parseU32 (text : List Char) : Option ℕ :=
  let unsigned := if text.head? = some '+' then text.tail else text
  let (digits, rest) := takeDigits 10 unsigned
  if digits.isEmpty || !rest.isEmpty then none
  else if ofDigits 10 digits < 2 ^ 32 then some (ofDigits 10 digits) else none

/-- An operator token without its `AS` prefix in any case. -/
def stripAsPrefix : List Char → List Char
  | first :: second :: rest =>
    if (first = 'A' ∨ first = 'a') ∧ (second = 'S' ∨ second = 's') then rest
    else first :: second :: rest
  | short => short

/-- `parse_asn_token`. -/
def parseAsnToken (input : List Char) : Except AppError ℕ :=
  match (parseU32 (stripAsPrefix (trim input))).filter fun asn => 0 < asn with
  | some asn => .ok asn
  | none => .error (.asn ("invalid ASN token `" ++ String.ofList input ++ "`"))

/-- `normalize_asn_tokens`: the first invalid token is the error. -/
def normalizeAsnTokens (tokens : List (List Char)) : Except AppError (List ℕ) := do
  let parsed ← tokens.mapM parseAsnToken
  return dedupAdjacent (sortUnstable parsed)

/-! ### Requests and outcomes -/

/-- Request to add autonomous-system numbers to configuration. -/
structure AsnBanRequest where
  paths : PathResolutionInput
  tokens : List (List Char)
  duration : Option BanDuration

/-- Result of an ASN ban. -/
structure AsnBanOutcome where
  added : List ℕ
  alreadyPresent : List ℕ
  removedDuplicateEntries : ℕ
  notices : List Notice
  temporaryChanges : List BanChange

/-- Request to remove autonomous-system numbers from configuration. -/
structure AsnUnbanRequest where
  paths : PathResolutionInput
  tokens : List (List Char)

/-- Result of an ASN unban. -/
structure AsnUnbanOutcome where
  removed : List ℕ
  deletedCacheFiles : ℕ
  notices : List Notice

/-- How an autonomous system is shown. -/
def displayAsn (asn : ℕ) : String := "AS" ++ toString asn

/-! ### Banning -/

/-- The notice about a stale ASN cache. -/
def staleAsnNotice (asn : ℕ) : Notice :=
  .ofWarning s!"ASN cache stale fallback used for AS{asn}"

/-- Prefixes and notices of the remaining ASNs. -/
def loadAsnPrefixes (cacheDir : String) (staleAfterSecs : ℕ) :
    List ℕ → List CanonicalCidr → List Notice → Workflow (List CanonicalCidr × List Notice)
  | [], resolved, notices => pure (resolved, notices)
  | asn :: rest, resolved, notices => do
    checkCancelled
    let loaded ← propagate (callPort (.loadPrefixes asn cacheDir staleAfterSecs))
    loadAsnPrefixes cacheDir staleAfterSecs rest (resolved ++ loaded.prefixes)
      (if loaded.stale then notices ++ [staleAsnNotice asn] else notices)

/-- `remove_exact_duplicates`. -/
def removeExactDuplicates (path : String) (duplicates : List CanonicalCidr) : Workflow ℕ := do
  if duplicates.isEmpty then return 0
  else
    let document ← propagate (callPort (.loadBlocklist path))
    let removalIndexes :=
      exactMatchIndexes (document.lines.map BlocklistLine.canonical) duplicates
    let keptLines := removeIndexes (fun index => decide (index ∈ removalIndexes)) document.lines
    let removed := document.lines.length - keptLines.length
    if 0 < removed then
      propagate (callPort (.writeLines path (keptLines.map BlocklistLine.original)))
    return removed

/-- The notice about a failed duplicate cleanup. -/
def duplicateCleanupNotice (error : AppError) : Notice :=
  .ofWarning s!"ASN ban duplicate cleanup failed after config update: {error.display}"

/-- The timed branch of `execute_ban_asn`. -/
def banAsnsTemporarily (paths : ResolvedPaths) (config : Config) (temporary : TemporaryBans)
    (requestedAsns : List ℕ) (duration : BanDuration) (notices : List Notice) :
    Workflow AsnBanOutcome := do
  let recorded ← recordTemporaryBans temporary.asns requestedAsns config.asn.banned duration
    paths.temporaryBansFile displayAsn
  if recorded.hasUpdates then
    propagate (callPort (.saveTemporaryBans paths.temporaryBansFile
      { temporary with asns := recorded.entries }))
  let timeoutNotices :=
    if recorded.hasUpdates && config.ipset.timeout != 0 then [kernelTimeoutNotice] else []
  return ⟨[], [], 0, notices ++ timeoutNotices, recorded.changes⟩

/-- The permanent branch of `execute_ban_asn`. -/
def banAsnsPermanently (paths : ResolvedPaths) (requestedAsns : List ℕ)
    (resolvedPrefixes : List CanonicalCidr) (notices : List Notice) : Workflow AsnBanOutcome := do
  let update ← propagate (callPort (.updateConfig paths.configFile requestedAsns []))
  let cleanup ← (removeExactDuplicates paths.blocklistFile resolvedPrefixes).attempt
  let (removedDuplicateEntries, cleanupNotices) :=
    match (cleanup : Except AppError ℕ) with
    | .ok removed => (removed, [])
    | .error error => (0, [duplicateCleanupNotice error])
  return {
    added := update.added
    alreadyPresent := requestedAsns.filter fun asn => decide (asn ∉ update.added)
    removedDuplicateEntries := removedDuplicateEntries
    notices := notices ++ cleanupNotices
    temporaryChanges := [] }

/-- The part of `execute_ban_asn` that holds the lock. -/
def executeBanAsnLocked (paths : ResolvedPaths) (requestedAsns : List ℕ)
    (duration : Option BanDuration) : Workflow AsnBanOutcome := do
  let config ← propagate (callPort (.loadConfig paths.configFile))
  let temporary ← match duration with
    | some _ => some <$> propagate (callPort (.loadTemporaryBans paths.temporaryBansFile))
    | none => pure none
  let (prefixes, notices) ←
    loadAsnPrefixes paths.asnCacheDir config.asn.cacheStaleAfterSecs requestedAsns [] []
  let resolvedPrefixes := dedupAdjacent (sortUnstable prefixes)
  checkCancelled
  match duration, temporary with
  | some duration, some temporary =>
    banAsnsTemporarily paths config temporary requestedAsns duration notices
  | _, _ => banAsnsPermanently paths requestedAsns resolvedPrefixes notices

/-- `execute_ban_asn`. -/
def executeBanAsn (request : AsnBanRequest) : Workflow AsnBanOutcome := do
  checkCancelled
  let paths ← propagate (callPort (.resolvePaths request.paths .required))
  let requestedAsns ← Program.ofExcept (normalizeAsnTokens request.tokens)
  withLock paths.lockFile (executeBanAsnLocked paths requestedAsns request.duration)

/-! ### Unbanning -/

/-- The notice about a failed cache cleanup. -/
def cacheCleanupNotice (asn : ℕ) (error : AppError) : Notice :=
  .ofWarning s!"ASN cache cleanup failed for AS{asn}: {error.display}"

/-- Delete the cache files of the remaining ASNs, best effort. -/
def deleteAsnCaches (cacheDir : String) : List ℕ → ℕ → List Notice → Workflow (ℕ × List Notice)
  | [], deleted, notices => pure (deleted, notices)
  | asn :: rest, deleted, notices => do
    match ← callPort (.deleteCache asn cacheDir) with
    | .ok true => deleteAsnCaches cacheDir rest (deleted + 1) notices
    | .ok false => deleteAsnCaches cacheDir rest deleted notices
    | .error error =>
      deleteAsnCaches cacheDir rest deleted (notices ++ [cacheCleanupNotice asn error])

/-- Remove the requested ASNs from the temporary records, and tell which were
there. -/
def removeTemporaryAsns : List ℕ → SortedMap ℕ ℕ → List ℕ × SortedMap ℕ ℕ
  | [], asns => ([], asns)
  | asn :: rest, asns =>
    let (removed, last) := removeTemporaryAsns rest (asns.remove asn)
    (if (asns.lookup asn).isSome then asn :: removed else removed, last)

/-- The part of `execute_unban_asn` that holds the lock. -/
def executeUnbanAsnLocked (paths : ResolvedPaths) (requestedAsns : List ℕ) :
    Workflow AsnUnbanOutcome := do
  let config ← propagate (callPort (.loadConfig paths.configFile))
  let temporary ← propagate (callPort (.loadTemporaryBans paths.temporaryBansFile))
  let (temporaryRemoved, asns) := removeTemporaryAsns requestedAsns temporary.asns
  checkCancelled
  let temporaryChanged := !temporaryRemoved.isEmpty
  if temporaryChanged then
    propagate (callPort (.saveTemporaryBans paths.temporaryBansFile { temporary with asns := asns }))
  let update ←
    -- nothing is left to remove from the configuration
    if temporaryChanged && !(requestedAsns.any fun asn => decide (asn ∈ config.asn.banned)) then
      pure ⟨[], []⟩
    else
      (propagate (callPort (.updateConfig paths.configFile [] requestedAsns))).mapError
        fun source => partialUpdateError source temporaryChanged paths.temporaryBansFile
          paths.configFile
  let (deletedCacheFiles, notices) ← deleteAsnCaches paths.asnCacheDir requestedAsns 0 []
  return {
    removed := dedupAdjacent (sortUnstable (temporaryRemoved ++ update.removed))
    deletedCacheFiles := deletedCacheFiles
    notices := notices }

/-- `execute_unban_asn`. -/
def executeUnbanAsn (request : AsnUnbanRequest) : Workflow AsnUnbanOutcome := do
  checkCancelled
  let paths ← propagate (callPort (.resolvePaths request.paths .required))
  let requestedAsns ← Program.ofExcept (normalizeAsnTokens request.tokens)
  withLock paths.lockFile (executeUnbanAsnLocked paths requestedAsns)

end Kidobo
