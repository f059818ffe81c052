import Kidobo.App.Admission
import Kidobo.App.Entries

/-!
# The synchronization workflow

Load every source, admit the external safelists, compute the effective
networks, preflight the capacity, promote the source caches, and enforce.

## Main definitions

* `loadSources`, `admitExternalSafelists`, `promotePendingCaches`, `applyEnforcement`
* `executeLocked`, `execute`
-/

namespace Kidobo.Sync

open Foundation

/-- Successful synchronization result. -/
structure SyncOutcome where
  ipv4Entries : ℕ
  ipv6Entries : ℕ
  ipv4KernelEntries : ℕ
  ipv6KernelEntries : ℕ
  sources : List SourceSummary

/-- A pending promotion and the provider it belongs to. -/
structure PendingPromotion where
  provider : String
  promotion : PendingCachePromotion
  deriving DecidableEq

/-- An external safelist waiting for admission. -/
structure LoadedExternalSafelist where
  provider : String
  primary : SyncSourceBatch
  fallback : Option SyncSourceBatch
  pendingPromotions : List PendingCachePromotion
  summaryIndex : ℕ
  fallbackFailure : Option AppError

/-- What the loaded sources contribute. -/
structure LoadedSources where
  candidates : List CanonicalCidr
  safelist : List CanonicalCidr
  externalSafelists : List LoadedExternalSafelist
  pendingPromotions : List PendingPromotion
  summaries : List SourceSummary

/-! ### Loading sources -/

/-- The observations of a loaded source, or one for the provider as a whole. -/
def observationsOrLocal (descriptor : SyncSourceDescriptor)
    (observations : List SourceObservation) : List SourceObservation :=
  if observations.isEmpty then [⟨descriptor.id, SourceProvenance.local⟩] else observations

/-- The promotions of a provider. -/
def pendingOf (provider : String) (promotions : List PendingCachePromotion) :
    List PendingPromotion :=
  promotions.map (PendingPromotion.mk provider)

namespace LoadedSources

/-- Nothing loaded yet. -/
def empty : LoadedSources := ⟨[], [], [], [], []⟩

/-- Put a loaded batch where its role says. -/
def contribute (sources : LoadedSources) (descriptor : SyncSourceDescriptor)
    (loaded : SyncSourceLoad) : LoadedSources :=
  match descriptor.role with
  | .candidate =>
    { sources with
      candidates := sources.candidates ++ loaded.primary.networks
      pendingPromotions :=
        sources.pendingPromotions ++ pendingOf descriptor.id loaded.pendingPromotions }
  | .safelist =>
    { sources with
      safelist := sources.safelist ++ loaded.primary.networks
      pendingPromotions :=
        sources.pendingPromotions ++ pendingOf descriptor.id loaded.pendingPromotions }
  | .externalSafelist =>
    { sources with
      externalSafelists := sources.externalSafelists ++
        [{ provider := descriptor.id
           primary := loaded.primary
           fallback := loaded.fallback
           pendingPromotions := loaded.pendingPromotions
           summaryIndex := sources.summaries.length
           fallbackFailure := loaded.fallbackFailure }] }

/-- Accept a loaded source. -/
def accept (sources : LoadedSources) (descriptor : SyncSourceDescriptor)
    (loaded : SyncSourceLoad) : LoadedSources :=
  let contributed := sources.contribute descriptor loaded
  { contributed with
    summaries := contributed.summaries ++
      [{ id := descriptor.id
         role := descriptor.role
         entries := loaded.primary.networks.length
         loaded := true
         observations := observationsOrLocal descriptor loaded.observations }] }

/-- Go on without a source that failed softly. -/
def degrade (sources : LoadedSources) (descriptor : SyncSourceDescriptor) : LoadedSources :=
  { sources with
    summaries := sources.summaries ++
      [{ id := descriptor.id
         role := descriptor.role
         entries := 0
         loaded := false
         observations := [⟨descriptor.id, .unavailable⟩] }] }

end LoadedSources

/-- The notice about a source that failed softly. -/
def softFailureNotice (provider : String) (error : AppError) : Notice :=
  .ofWarning s!"source provider `{provider}` failed softly: {error.display}"

/-- Load the remaining providers in registry order. -/
def loadRemaining (context : SyncSourceContext) :
    List SyncSourceDescriptor → LoadedSources → Workflow LoadedSources
  | [], sources => pure sources
  | descriptor :: rest, sources => do
    checkCancelled
    match ← callPort (.loadSource descriptor context) with
    | .ok loaded => do
      reportAll loaded.primary.notices
      loadRemaining context rest (sources.accept descriptor loaded)
    | .error error =>
      if classifySourceFailure descriptor.failurePolicy error = .degraded then do
        report (softFailureNotice descriptor.id error)
        loadRemaining context rest (sources.degrade descriptor)
      else throw error

/-- `load_sources`. -/
def loadSources (registry : SyncSourceRegistry) (context : SyncSourceContext) :
    Workflow LoadedSources :=
  loadRemaining context registry.providers .empty

/-! ### Admitting external safelists -/

/-- The safelist, promotions and summaries while external safelists are admitted. -/
structure Admitted where
  safelist : List CanonicalCidr
  pendingPromotions : List PendingPromotion
  summaries : List SourceSummary

/-- Give every observation of a summary the same provenance. -/
def SourceSummary.observed (summary : SourceSummary) (provenance : SourceProvenance) :
    List SourceObservation :=
  summary.observations.map fun observation => { observation with provenance := provenance }

/-- The summary of an external safelist replaced by its fallback. -/
def SourceSummary.fellBack (entries : ℕ) (summary : SourceSummary) : SourceSummary :=
  { summary with
    entries := entries
    observations := SourceSummary.observed summary .fallbackCache }

/-- The summary of an external safelist that contributes nothing. -/
def SourceSummary.withdrawn (summary : SourceSummary) : SourceSummary :=
  { summary with
    entries := 0
    loaded := false
    observations := SourceSummary.observed summary .unavailable }

/-- The notice about a rejected primary batch. -/
def rejectedNotice (provider : String) : Notice :=
  .ofWarning (s!"externally controlled safelist `{provider}` was rejected because it would " ++
    "empty an enabled address family")

/-- The notice about an external safelist without an admissible fallback. -/
def noFallbackNotice (provider : String) : Notice :=
  .ofWarning (s!"externally controlled safelist `{provider}` has no admissible fallback; " ++
    "using only operator-controlled safelist entries")

/-- Which batch of one external safelist is used on top of what is admitted. -/
def LoadedExternalSafelist.selection (external : LoadedExternalSafelist)
    (candidates safelist : List CanonicalCidr) (enableIpv6 : Bool)
    (baseline : EffectiveBlocklists) : ExternalSafelistSelection :=
  selectExternalSafelist candidates safelist external.primary.networks
    (external.fallback.map SyncSourceBatch.networks) enableIpv6 baseline

namespace Admitted

/-- Use the primary batch and queue its promotions. -/
def usePrimary (admitted : Admitted) (external : LoadedExternalSafelist) : Admitted :=
  { admitted with
    safelist := admitted.safelist ++ external.primary.networks
    pendingPromotions :=
      admitted.pendingPromotions ++ pendingOf external.provider external.pendingPromotions }

/-- Use the fallback batch instead of the primary one. -/
def useFallback (admitted : Admitted) (external : LoadedExternalSafelist)
    (fallback : SyncSourceBatch) : Admitted :=
  { admitted with
    safelist := admitted.safelist ++ fallback.networks
    summaries := admitted.summaries.modify external.summaryIndex
      (SourceSummary.fellBack fallback.networks.length) }

/-- Use no batch of an external safelist. -/
def withdraw (admitted : Admitted) (external : LoadedExternalSafelist) : Admitted :=
  { admitted with
    summaries := admitted.summaries.modify external.summaryIndex SourceSummary.withdrawn }

end Admitted

/-- Admit one external safelist. -/
def admitExternalSafelist (candidates : List CanonicalCidr) (enableIpv6 : Bool)
    (baseline : EffectiveBlocklists) (external : LoadedExternalSafelist) (admitted : Admitted) :
    Workflow Admitted := do
  let selection := external.selection candidates admitted.safelist enableIpv6 baseline
  if selection = .primary then
    return admitted.usePrimary external
  else
    report (rejectedNotice external.provider)
    -- the fallback counts only when it was selected, whether or not there is one
    match external.fallback.filter fun _ => selection = .fallback with
    | some fallback =>
      reportAll fallback.notices
      return admitted.useFallback external fallback
    | none =>
      match external.fallbackFailure with
      | some error => throw error
      | none =>
        report (noFallbackNotice external.provider)
        return admitted.withdraw external

/-- Admit the remaining external safelists one after another. -/
def admitRemaining (candidates : List CanonicalCidr) (enableIpv6 : Bool)
    (baseline : EffectiveBlocklists) : List LoadedExternalSafelist → Admitted → Workflow Admitted
  | [], admitted => pure admitted
  | external :: rest, admitted => do
    let next ← admitExternalSafelist candidates enableIpv6 baseline external admitted
    admitRemaining candidates enableIpv6 baseline rest next

/-- `admit_external_safelists`. -/
def admitExternalSafelists (candidates safelist : List CanonicalCidr)
    (externalSafelists : List LoadedExternalSafelist) (enableIpv6 : Bool)
    (pendingPromotions : List PendingPromotion) (summaries : List SourceSummary) :
    Workflow Admitted := do
  let baseline := computeEffectiveBlocklists candidates safelist enableIpv6
  let admitted ← admitRemaining candidates enableIpv6 baseline externalSafelists
    ⟨safelist, pendingPromotions, summaries⟩
  return { admitted with safelist := sortedUnique admitted.safelist }

/-! ### Promotion and enforcement -/

/-- Promote the remaining caches in order. -/
def promoteRemaining : List PendingPromotion → Workflow Unit
  | [] => pure ()
  | pending :: rest => do
    checkCancelled
    match ← callPort (.promote pending.promotion) with
    | .ok () => promoteRemaining rest
    | .error source => throw (.cachePromotion pending.provider source)

/-- `promote_pending_caches`. -/
def promotePendingCaches (pendingPromotions : List PendingPromotion) : Workflow Unit := do
  startStage .promoteCaches
  promoteRemaining pendingPromotions
  completeStage .promoteCaches

/-- Replace the set of one family. -/
def replaceFamily (stage : SyncStage) (spec : ManagedSetSpec) (family : AddressFamily)
    (entries : List CanonicalCidr) : Workflow Unit := do
  startStage stage
  propagate (callPort (.replaceSet spec entries))
  callPort (.event (.familyReplaced family))
  completeStage stage

/-- Best-effort removal of the artifacts of the disabled family. -/
def cleanupDisabled (plan : EnforcementPlan) : Workflow Unit := do
  callPort (.event .disabledIpv6CleanupStarted)
  let notices ← callPort (.cleanupDisabledIpv6 plan)
  reportAll notices
  callPort (.event .disabledIpv6CleanupCompleted)

/-- Activate the managed wiring. -/
def activateFirewall (plan : EnforcementPlan) : Workflow Unit := do
  startStage .activateFirewall
  propagate (callPort (.activate plan))
  callPort (.event .wiringActivated)
  if !plan.enableIpv6 then cleanupDisabled plan
  completeStage .activateFirewall

/-- `apply_enforcement`: finish enforcement once the first replacement starts. -/
def applyEnforcement (plan : EnforcementPlan) (ipv4Entries ipv6Entries : List CanonicalCidr) :
    Workflow Unit := do
  callPort (.event .enforcementStarted)
  if plan.enableIpv6 then replaceFamily .applyIpv6 plan.ipv6 .ipv6 ipv6Entries
  replaceFamily .applyIpv4 plan.ipv4 .ipv4 ipv4Entries
  activateFirewall plan

/-- The notice about a failed cleanup of expired records. -/
def expiredCleanupNotice (error : AppError) : Notice :=
  .ofWarning (s!"sync enforcement completed but expired temporary ban cleanup failed; " ++
    s!"expired records remain inactive: {error.display}")

/-- Save the temporary bans without their expired records. -/
def savePruned (path : String) (temporaryBans : TemporaryBans) (cutoff : ℕ) : Workflow Unit := do
  let (remaining, changed) := temporaryBans.pruneExpired cutoff
  if changed then
    match ← callPort (.saveTemporaryBans path remaining) with
    | .ok () => pure ()
    | .error error => report (expiredCleanupNotice error)

/-! ### The workflow -/

/-- Whether an active temporary ban meets a nonzero kernel timeout. -/
def kernelTimeoutApplies (config : Config) (temporaryBans : TemporaryBans) (cutoff : ℕ) : Bool :=
  config.ipset.timeout != 0 &&
    (!(temporaryBans.activeIps cutoff).isEmpty || !(temporaryBans.activeAsns cutoff).isEmpty)

/-- What a sync reads under the lock before it touches a source. -/
structure LockedInputs where
  cutoff : ℕ
  config : Config
  temporaryBans : TemporaryBans

/-- Read the clock, the current configuration and the temporary bans. -/
def readLockedInputs (paths : ResolvedPaths) : Workflow LockedInputs := do
  let cutoff ← propagate (callPort .nowUnixSecs)
  checkCancelled
  -- A source-editing command may have published a new configuration before the lock was taken.
  let config ← propagate (callPort (.loadConfig paths.configFile))
  checkCancelled
  propagate (callPort (.prepareRemoteCache paths.remoteCacheDir))
  checkCancelled
  let temporaryBans ← propagate (callPort (.loadTemporaryBans paths.temporaryBansFile))
  if kernelTimeoutApplies config temporaryBans cutoff then report kernelTimeoutNotice
  return ⟨cutoff, config, temporaryBans⟩

/-- Prepare inactive artifacts and load every source. -/
def prepareSources (paths : ResolvedPaths) (env : List (String × String))
    (registry : SyncSourceRegistry) (inputs : LockedInputs) : Workflow LoadedSources := do
  startStage .prepareArtifacts
  propagate (callPort (.ensureArtifacts (EnforcementPlan.fromConfig inputs.config)))
  completeStage .prepareArtifacts
  startStage .loadSources
  let sources ← loadSources registry
    ⟨paths, inputs.config, env, inputs.temporaryBans, inputs.cutoff⟩
  completeStage .loadSources
  checkCancelled
  return sources

/-- The effective networks of the loaded sources with what admission left. -/
def computeStage (plan : EnforcementPlan) (sources : LoadedSources) :
    Workflow (EffectiveBlocklists × Admitted) := do
  startStage .computeBlocklists
  let candidates := sortedUnique sources.candidates
  let safelist := sortedUnique sources.safelist
  let admitted ← admitExternalSafelists candidates safelist sources.externalSafelists
    plan.enableIpv6 sources.pendingPromotions sources.summaries
  let effective := computeEffectiveBlocklists candidates admitted.safelist plan.enableIpv6
  completeStage .computeBlocklists
  return (effective, admitted)

/-- Compute, preflight, promote and enforce what the sources contribute. -/
def enforceSources (paths : ResolvedPaths) (inputs : LockedInputs) (sources : LoadedSources) :
    Workflow SyncOutcome := do
  let plan := EnforcementPlan.fromConfig inputs.config
  let (effective, admitted) ← computeStage plan sources
  let entries ← Program.ofExcept (prepareSyncEntries effective plan)
  checkCancelled
  promotePendingCaches admitted.pendingPromotions
  checkCancelled
  applyEnforcement plan entries.ipv4 entries.ipv6
  savePruned paths.temporaryBansFile inputs.temporaryBans inputs.cutoff
  return {
    ipv4Entries := effective.ipv4.length
    ipv6Entries := effective.ipv6.length
    ipv4KernelEntries := entries.ipv4.length
    ipv6KernelEntries := entries.ipv6.length
    sources := admitted.summaries }

/-- The part of `execute` that holds the lock. -/
def executeLocked (paths : ResolvedPaths) (env : List (String × String))
    (registry : SyncSourceRegistry) : Workflow SyncOutcome := do
  completeStage .acquireLock
  let inputs ← readLockedInputs paths
  let sources ← prepareSources paths env registry inputs
  enforceSources paths inputs sources

/-- `sync::execute`. -/
def execute (request : PathResolutionInput) (registry : SyncSourceRegistry) :
    Workflow SyncOutcome := do
  checkCancelled
  startStage .resolvePaths
  let paths ← propagate (callPort (.resolvePaths request .required))
  completeStage .resolvePaths
  checkCancelled
  startStage .loadConfig
  let _ ← propagate (callPort (.loadConfig paths.configFile))
  completeStage .loadConfig
  checkCancelled
  startStage .acquireLock
  withLock paths.lockFile (executeLocked paths request.env registry)

end Kidobo.Sync
