import Kidobo.App.Admission
import Kidobo.App.Entries

/-!
# The preview workflow

The plan of a synchronization from data-only sources under a shared lock. It
has its own loading and admission loops, collects its notices instead of
reporting them, and holds no promotion.

## Main definitions

* `loadSources`, `admitExternalSafelists`, `execute`
-/

namespace Kidobo.Preview

open Foundation

/-- One read-only synchronization preview. -/
structure PreviewRequest where
  paths : PathResolutionInput
  allowNetwork : Bool

/-- Validated proposed network data. -/
structure PreviewOutcome where
  entries : PreparedSyncEntries
  enableIpv6 : Bool
  sources : List SourceSummary
  notices : List Notice
  allowNetwork : Bool

/-- An external safelist waiting for admission. -/
structure ExternalSafelist where
  provider : String
  primary : SyncSourceBatch
  fallback : Option SyncSourceBatch
  summaryIndex : ℕ

/-- What the loaded sources contribute. -/
structure LoadedSources where
  candidates : List CanonicalCidr
  safelist : List CanonicalCidr
  externalSafelists : List ExternalSafelist
  summaries : List SourceSummary
  notices : List Notice

/-! ### Loading sources -/

namespace LoadedSources

/-- Nothing loaded yet. -/
def empty : LoadedSources := ⟨[], [], [], [], []⟩

/-- Put a loaded batch where its role says. -/
def contribute (sources : LoadedSources) (descriptor : SyncSourceDescriptor)
    (batch : PreviewSourceLoad) : LoadedSources :=
  match descriptor.role with
  | .candidate => { sources with candidates := sources.candidates ++ batch.primary.networks }
  | .safelist => { sources with safelist := sources.safelist ++ batch.primary.networks }
  | .externalSafelist =>
    { sources with
      externalSafelists := sources.externalSafelists ++
        [{ provider := descriptor.id
           primary := batch.primary
           fallback := batch.fallback
           summaryIndex := sources.summaries.length }] }

/-- Accept a loaded source. -/
def accept (sources : LoadedSources) (descriptor : SyncSourceDescriptor)
    (batch : PreviewSourceLoad) : LoadedSources :=
  let observations :=
    if batch.observations.isEmpty then [⟨descriptor.id, SourceProvenance.local⟩]
    else batch.observations
  let noted := { sources with notices := sources.notices ++ batch.primary.notices }
  let contributed := noted.contribute descriptor batch
  { contributed with
    summaries := contributed.summaries ++
      [{ id := descriptor.id
         role := descriptor.role
         entries := batch.primary.networks.length
         loaded := true
         observations := observations }] }

/-- Go on without a source that failed softly. -/
def degrade (sources : LoadedSources) (descriptor : SyncSourceDescriptor) (error : AppError) :
    LoadedSources :=
  { sources with
    notices := sources.notices ++
      [.ofWarning s!"source provider `{descriptor.id}` failed softly: {error.display}"]
    summaries := sources.summaries ++
      [{ id := descriptor.id
         role := descriptor.role
         entries := 0
         loaded := false
         observations := [⟨descriptor.id, .unavailable⟩] }] }

end LoadedSources

/-- Load the remaining providers in registry order. -/
def loadRemaining (context : SyncSourceContext) (allowNetwork : Bool) :
    List SyncSourceDescriptor → LoadedSources → Workflow LoadedSources
  | [], sources => pure sources
  | descriptor :: rest, sources => do
    checkCancelled
    match ← callPort (.loadPreviewSource descriptor context allowNetwork) with
    | .ok batch => loadRemaining context allowNetwork rest (sources.accept descriptor batch)
    | .error error =>
      if classifySourceFailure descriptor.failurePolicy error = .degraded then
        loadRemaining context allowNetwork rest (sources.degrade descriptor error)
      else throw error

/-- `load_sources`. -/
def loadSources (registry : SyncSourceRegistry) (context : SyncSourceContext)
    (allowNetwork : Bool) : Workflow LoadedSources :=
  loadRemaining context allowNetwork registry.providers .empty

/-! ### Admitting external safelists -/

/-- The safelist, summaries and notices while external safelists are admitted. -/
structure Admitted where
  safelist : List CanonicalCidr
  summaries : List SourceSummary
  notices : List Notice

/-- Give every observation of a summary the same provenance. -/
def observedAs (provenance : SourceProvenance) (observations : List SourceObservation) :
    List SourceObservation :=
  observations.map fun observation => { observation with provenance := provenance }

/-- Admit one external safelist. -/
def admitOne (candidates : List CanonicalCidr) (enableIpv6 : Bool) (baseline : EffectiveBlocklists)
    (external : ExternalSafelist) (admitted : Admitted) : Admitted :=
  let selection := selectExternalSafelist candidates admitted.safelist external.primary.networks
    (external.fallback.map SyncSourceBatch.networks) enableIpv6 baseline
  if selection = .primary then
    { admitted with safelist := admitted.safelist ++ external.primary.networks }
  else
    let rejected := admitted.notices ++
      [.ofWarning (s!"externally controlled safelist `{external.provider}` was rejected because " ++
        "it would empty an enabled address family")]
    match external.fallback.filter fun _ => selection = .fallback with
    | some fallback =>
      { safelist := admitted.safelist ++ fallback.networks
        summaries := admitted.summaries.modify external.summaryIndex fun summary =>
          { summary with
            entries := fallback.networks.length
            observations := observedAs .fallbackCache summary.observations }
        notices := rejected ++ fallback.notices }
    | none =>
      { admitted with
        summaries := admitted.summaries.modify external.summaryIndex fun summary =>
          { summary with
            entries := 0
            loaded := false
            observations := observedAs .unavailable summary.observations }
        notices := rejected ++
          [.ofWarning (s!"externally controlled safelist `{external.provider}` has no admissible " ++
            "fallback; using only operator-controlled safelist entries")] }

/-- Admit the remaining external safelists one after another. -/
def admitRemaining (candidates : List CanonicalCidr) (enableIpv6 : Bool)
    (baseline : EffectiveBlocklists) : List ExternalSafelist → Admitted → Workflow Admitted
  | [], admitted => pure admitted
  | external :: rest, admitted => do
    checkCancelled
    admitRemaining candidates enableIpv6 baseline rest
      (admitOne candidates enableIpv6 baseline external admitted)

/-- `admit_external_safelists`. -/
def admitExternalSafelists (candidates safelist : List CanonicalCidr)
    (externalSafelists : List ExternalSafelist) (enableIpv6 : Bool)
    (summaries : List SourceSummary) (notices : List Notice) : Workflow Admitted := do
  let baseline := computeEffectiveBlocklists candidates safelist enableIpv6
  let admitted ← admitRemaining candidates enableIpv6 baseline externalSafelists
    ⟨safelist, summaries, notices⟩
  return { admitted with safelist := sortedUnique admitted.safelist }

/-! ### The workflow -/

/-- The notices of the sources, with the kernel timeout warning where it applies. -/
def noticesWithTimeout (config : Config) (temporaryBans : TemporaryBans) (cutoff : ℕ)
    (notices : List Notice) : List Notice :=
  if config.ipset.timeout != 0 &&
      (!(temporaryBans.activeIps cutoff).isEmpty || !(temporaryBans.activeAsns cutoff).isEmpty)
    then notices ++ [kernelTimeoutNotice]
  else notices

/-- The part of `execute` that plans from the loaded sources. -/
def planSources (config : Config) (allowNetwork : Bool) (sources : LoadedSources) :
    Workflow PreviewOutcome := do
  checkCancelled
  let candidates := sortedUnique sources.candidates
  let safelist := sortedUnique sources.safelist
  let admitted ← admitExternalSafelists candidates safelist sources.externalSafelists
    config.ipset.enableIpv6 sources.summaries sources.notices
  let effective :=
    computeEffectiveBlocklists candidates admitted.safelist config.ipset.enableIpv6
  let plan := EnforcementPlan.fromConfig config
  let entries ← Program.ofExcept (prepareSyncEntries effective plan)
  checkCancelled
  return {
    entries := entries
    enableIpv6 := config.ipset.enableIpv6
    sources := admitted.summaries
    notices := admitted.notices
    allowNetwork := allowNetwork }

/-- The part of `execute` that holds the shared lock. -/
def executeLocked (paths : ResolvedPaths) (request : PreviewRequest)
    (registry : SyncSourceRegistry) : Workflow PreviewOutcome := do
  checkCancelled
  let cutoff ← propagate (callPort .nowUnixSecs)
  let config ← propagate (callPort (.loadConfig paths.configFile))
  checkCancelled
  let temporaryBans ← propagate (callPort (.loadTemporaryBans paths.temporaryBansFile))
  let sources ← loadSources registry ⟨paths, config, request.paths.env, temporaryBans, cutoff⟩
    request.allowNetwork
  planSources config request.allowNetwork
    { sources with notices := noticesWithTimeout config temporaryBans cutoff sources.notices }

/-- `preview::execute`. -/
def execute (request : PreviewRequest) (registry : SyncSourceRegistry) :
    Workflow PreviewOutcome := do
  checkCancelled
  let paths ← propagate (callPort (.resolvePaths request.paths .required))
  withSharedLock paths.lockFile (executeLocked paths request registry)

end Kidobo.Preview
