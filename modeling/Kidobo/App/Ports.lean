import Kidobo.Foundation.Program
import Kidobo.App.Error
import Kidobo.Blocklist
import Kidobo.TemporaryBans

/-!
# Application ports

What the workflows know of the outside: configuration, resolved paths, source
batches, the enforcement plan, and the operations of the port traits. A
workflow is a program over these operations.

## Main definitions

* `Config`, `ResolvedPaths`, `SyncSourceLoad`, `EnforcementPlan`
* `PortOp`, `PortOp.Result`, `Workflow`
* `checkCancelled`, `withLock`, `withSharedLock`
-/

namespace Kidobo

open Foundation

/-! ### Configuration and paths -/

/-- Firewall verdict applied to a matching address. -/
inductive FirewallAction where
  | drop
  | reject
  deriving DecidableEq, Repr

/-- `IPSET_NAME_MAX_LEN`. -/
def ipsetNameMaxLen : ℕ := 31

/-- Managed ipset configuration. -/
structure IpsetConfig where
  setName : String
  setNameV6 : String
  enableIpv6 : Bool
  chainAction : FirewallAction
  setType : String
  hashsize : ℕ
  maxelem : ℕ
  timeout : ℕ
  deriving DecidableEq

/-- Autonomous-system blocklist configuration. -/
structure AsnConfig where
  banned : List ℕ
  cacheStaleAfterSecs : ℕ
  deriving DecidableEq

/-- The validated configuration the workflows read. -/
structure Config where
  ipset : IpsetConfig
  asn : AsnConfig
  deriving DecidableEq

/-- Inputs used to resolve all paths for one command. -/
structure PathResolutionInput where
  explicitConfigPath : Option String
  tempDir : String
  env : List (String × String)

/-- Complete set of paths derived before a workflow performs side effects. -/
structure ResolvedPaths where
  rootOverride : Option String
  configDir : String
  configFile : String
  dataDir : String
  blocklistFile : String
  cacheDir : String
  remoteCacheDir : String
  lockFile : String
  deriving DecidableEq

namespace ResolvedPaths

/-- The operator-managed temporary-ban state location. -/
def temporaryBansFile (paths : ResolvedPaths) : String := paths.dataDir ++ "/temporary-bans.toml"

/-- The ASN prefix cache location. -/
def asnCacheDir (paths : ResolvedPaths) : String := paths.cacheDir ++ "/asn"

end ResolvedPaths

/-- Whether path resolution must confirm that the configuration exists. -/
inductive ConfigRequirement where
  | required
  | optional
  deriving DecidableEq, Repr

/-! ### Sources -/

/-- How a source contributes networks to the effective blocklist. -/
inductive SourceRole where
  | candidate
  | safelist
  | externalSafelist
  deriving DecidableEq, Repr

/-- Whether a source failure aborts synchronization. -/
inductive FailurePolicy where
  | required
  | bestEffort
  deriving DecidableEq, Repr

/-- What a source failure does to the run. -/
inductive SourceFailureDisposition where
  | fatal
  | degraded
  deriving DecidableEq, Repr

/-- The failures that abort whatever the policy of the source. -/
def AppError.abortsAlways : AppError → Bool
  | .interrupted => true
  | .sourceAggregateBudgetExceeded _ _ => true
  | .cacheStaging _ _ => true
  | .previewSourceBudget _ _ => true
  | _ => false

/-- `classify_source_failure`. -/
def classifySourceFailure (policy : FailurePolicy) (error : AppError) : SourceFailureDisposition :=
  if policy = .required || error.abortsAlways then .fatal else .degraded

/-- Stable metadata controlling a provider's workflow policy. -/
structure SyncSourceDescriptor where
  id : String
  role : SourceRole
  failurePolicy : FailurePolicy
  deriving DecidableEq, Repr

/-- Operator-visible notice severity. -/
inductive NoticeLevel where
  | info
  | warning
  deriving DecidableEq, Repr

/-- Structured application notice. -/
structure Notice where
  level : NoticeLevel
  message : String
  deriving DecidableEq, Repr

/-- A warning notice. -/
def Notice.ofWarning (message : String) : Notice := ⟨.warning, message⟩

/-- Warns that a kernel timeout operates separately from source expiry. -/
def kernelTimeoutNotice : Notice :=
  .ofWarning ("ipset.timeout is nonzero: kernel entries can expire independently of temporary " ++
    "ban deadlines; temporary bans are added and removed by sync")

/-- Networks and notices loaded by one provider. -/
structure SyncSourceBatch where
  networks : List CanonicalCidr
  notices : List Notice

/-- Where one source's usable networks came from. -/
inductive SourceProvenance where
  | local
  | network
  | cache
  | fallbackCache
  | unavailable
  | disabled
  deriving DecidableEq, Repr

/-- Observed provenance of one provider, feed or ASN. -/
structure SourceObservation where
  label : String
  provenance : SourceProvenance
  deriving DecidableEq, Repr

/-- Handle of a deferred cache selection. -/
abbrev PendingCachePromotion := ℕ

/-- Primary source data, an optional fallback, and deferred cache selections. -/
structure SyncSourceLoad where
  primary : SyncSourceBatch
  fallback : Option SyncSourceBatch
  pendingPromotions : List PendingCachePromotion
  fallbackFailure : Option AppError
  observations : List SourceObservation

/-- Source data accepted by a preview; no promotion handles are present. -/
structure PreviewSourceLoad where
  primary : SyncSourceBatch
  fallback : Option SyncSourceBatch
  observations : List SourceObservation

/-- Read-only context supplied to providers. -/
structure SyncSourceContext where
  paths : ResolvedPaths
  config : Config
  env : List (String × String)
  temporaryBans : TemporaryBans
  cutoff : ℕ

/-- Ordered collection of uniquely identified providers. -/
structure SyncSourceRegistry where
  providers : List SyncSourceDescriptor
  uniqueIds : (providers.map SyncSourceDescriptor.id).Nodup

/-- Outcome summary for one registered source. -/
structure SourceSummary where
  id : String
  role : SourceRole
  entries : ℕ
  loaded : Bool
  observations : List SourceObservation
  deriving DecidableEq

/-! ### Enforcement -/

/-- Validated kernel-set parameters for one address family. -/
structure ManagedSetSpec where
  family : AddressFamily
  setName : String
  setType : String
  hashsize : ℕ
  maxelem : ℕ
  timeout : ℕ
  deriving DecidableEq

/-- Complete family-separated firewall and ipset enforcement plan. -/
structure EnforcementPlan where
  ipv4 : ManagedSetSpec
  ipv6 : ManagedSetSpec
  enableIpv6 : Bool
  chainAction : FirewallAction
  deriving DecidableEq

/-- Build an enforcement plan from validated configuration. -/
def EnforcementPlan.fromConfig (config : Config) : EnforcementPlan where
  ipv4 :=
    { family := .ipv4, setName := config.ipset.setName, setType := config.ipset.setType,
      hashsize := config.ipset.hashsize, maxelem := config.ipset.maxelem,
      timeout := config.ipset.timeout }
  ipv6 :=
    { family := .ipv6, setName := config.ipset.setNameV6, setType := config.ipset.setType,
      hashsize := config.ipset.hashsize, maxelem := config.ipset.maxelem,
      timeout := config.ipset.timeout }
  enableIpv6 := config.ipset.enableIpv6
  chainAction := config.ipset.chainAction

/-- Named synchronization stages. -/
inductive SyncStage where
  | resolvePaths
  | loadConfig
  | acquireLock
  | prepareArtifacts
  | loadSources
  | computeBlocklists
  | promoteCaches
  | applyIpv6
  | applyIpv4
  | activateFirewall
  deriving DecidableEq, Repr

/-- Stable journal marker of a stage. -/
def SyncStage.marker : SyncStage → String
  | resolvePaths => "resolve_paths"
  | loadConfig => "load_config"
  | acquireLock => "acquire_lock"
  | prepareArtifacts => "ensure_ipset_artifacts"
  | loadSources => "load_sources"
  | computeBlocklists => "compute_effective_blocklists"
  | promoteCaches => "promote_source_caches"
  | applyIpv6 => "apply_ipv6_ipset"
  | applyIpv4 => "apply_ipv4_ipset"
  | activateFirewall => "ensure_firewall_wiring"

/-- Typed workflow progress. -/
inductive SyncEvent where
  | stageStarted (stage : SyncStage)
  | stageCompleted (stage : SyncStage)
  | enforcementStarted
  | familyReplaced (family : AddressFamily)
  | wiringActivated
  | disabledIpv6CleanupStarted
  | disabledIpv6CleanupCompleted
  deriving DecidableEq, Repr

/-! ### Mutations -/

/-- Usable ASN prefix resolution plus its freshness state. -/
structure AsnPrefixBatch where
  prefixes : List CanonicalCidr
  stale : Bool

/-- Exact effect of an atomic ASN configuration mutation. -/
structure AsnConfigUpdate where
  added : List ℕ
  removed : List ℕ
  deriving DecidableEq

/-- Atomic publication mode selected from the reviewed document revision. -/
inductive ConfigurationWriteMode where
  | replaceExisting
  | createNew
  deriving DecidableEq, Repr

/-! ### Operations -/

/-- One call of a port. -/
inductive PortOp where
  | isCancelled
  | resolvePaths (input : PathResolutionInput) (requirement : ConfigRequirement)
  | loadConfig (path : String)
  | acquireLock (path : String)
  | acquireExistingLock (path : String)
  | releaseLock
  | nowUnixSecs
  | prepareRemoteCache (path : String)
  | loadTemporaryBans (path : String)
  | saveTemporaryBans (path : String) (state : TemporaryBans)
  | loadSource (provider : SyncSourceDescriptor) (context : SyncSourceContext)
  | loadPreviewSource (provider : SyncSourceDescriptor) (context : SyncSourceContext)
      (allowNetwork : Bool)
  | promote (promotion : PendingCachePromotion)
  | ensureArtifacts (plan : EnforcementPlan)
  | replaceSet (spec : ManagedSetSpec) (entries : List CanonicalCidr)
  | activate (plan : EnforcementPlan)
  | cleanupDisabledIpv6 (plan : EnforcementPlan)
  | event (event : SyncEvent)
  | stageCompleted (marker : String)
  | notice (notice : Notice)
  | loadBlocklist (path : String)
  | appendEntries (path : String) (entries : List String) (hasContent trailingNewline : Bool)
  | writeLines (path : String) (lines : List (List Char))
  | readTargetLines (path : String)
  | loadPrefixes (asn : ℕ) (cacheDir : String) (staleAfterSecs : ℕ)
  | updateConfig (path : String) (add remove : List ℕ)
  | deleteCache (asn : ℕ) (cacheDir : String)
  | readConfiguration (path : String)
  | writeConfiguration (path : String) (contents : List Char) (mode : ConfigurationWriteMode)

/-- What each port call answers. -/
@[reducible] def PortOp.Result : PortOp → Type
  | isCancelled => Bool
  | resolvePaths _ _ => Except AppError ResolvedPaths
  | loadConfig _ => Except AppError Config
  | acquireLock _ => Except AppError Unit
  | acquireExistingLock _ => Except AppError Unit
  | releaseLock => Unit
  | nowUnixSecs => Except AppError ℕ
  | prepareRemoteCache _ => Except AppError Unit
  | loadTemporaryBans _ => Except AppError TemporaryBans
  | saveTemporaryBans _ _ => Except AppError Unit
  | loadSource _ _ => Except AppError SyncSourceLoad
  | loadPreviewSource _ _ _ => Except AppError PreviewSourceLoad
  | promote _ => Except String Unit
  | ensureArtifacts _ => Except AppError Unit
  | replaceSet _ _ => Except AppError Unit
  | activate _ => Except AppError Unit
  | cleanupDisabledIpv6 _ => List Notice
  | event _ => Unit
  | stageCompleted _ => Unit
  | notice _ => Unit
  | loadBlocklist _ => Except AppError BlocklistDocument
  | appendEntries _ _ _ _ => Except AppError Unit
  | writeLines _ _ => Except AppError Unit
  | readTargetLines _ => Except AppError (List (List Char))
  | loadPrefixes _ _ _ => Except AppError AsnPrefixBatch
  | updateConfig _ _ _ => Except AppError AsnConfigUpdate
  | deleteCache _ _ => Except AppError Bool
  | readConfiguration _ => Except AppError (Option (List Char))
  | writeConfiguration _ _ _ => Except AppError Unit

/-- A program over the ports. -/
abbrev Workflow (α : Type) := Program PortOp PortOp.Result AppError α

/-- Call a port and return what it answers. -/
def callPort (op : PortOp) : Workflow op.Result := Program.perform op

/-- Propagate the error of an answer. -/
def propagate {α : Type} (answered : Workflow (Except AppError α)) : Workflow α :=
  answered >>= Program.ofExcept

/-- `Cancellation::check`. -/
def checkCancelled : Workflow Unit := do
  let cancelled ← callPort .isCancelled
  if cancelled then throw .interrupted

/-- Report one notice. -/
def report (notice : Notice) : Workflow Unit := callPort (.notice notice)

/-- Report notices one after another. -/
def reportAll : List Notice → Workflow Unit
  | [] => pure ()
  | notice :: rest => do
    report notice
    reportAll rest

/-- `start_stage`. -/
def startStage (stage : SyncStage) : Workflow Unit := callPort (.event (.stageStarted stage))

/-- `complete_stage`. -/
def completeStage (stage : SyncStage) : Workflow Unit := do
  callPort (.event (.stageCompleted stage))
  callPort (.stageCompleted stage.marker)

/-- Run `body` holding a lock guard and drop the guard however it ends. -/
def withGuard {α : Type} (acquire : Workflow Unit) (body : Workflow α) : Workflow α := do
  acquire
  let outcome ← body.attempt
  callPort .releaseLock
  Program.ofExcept outcome

/-- Run `body` under the exclusive lock. -/
def withLock {α : Type} (path : String) (body : Workflow α) : Workflow α :=
  withGuard (propagate (callPort (.acquireLock path))) body

/-- Run `body` under the shared lock of an existing lock file. -/
def withSharedLock {α : Type} (path : String) (body : Workflow α) : Workflow α :=
  withGuard (propagate (callPort (.acquireExistingLock path))) body

/-- Propagating an answer ends as the answer says. -/
theorem wp_propagate {State α : Type} {step guarantee : Step PortOp PortOp.Result State}
    {returns : α → State → Prop} {fails : AppError → State → Prop} {state : State}
    {answered : Workflow (Except AppError α)} :
    wp step guarantee returns fails (propagate answered) state ↔
      wp step guarantee (fun outcome => (Ending.ofExcept outcome).Meets returns fails) fails
        answered state := by
  have decided : (fun outcome => wp step guarantee returns fails (.ofExcept outcome)) =
      fun outcome => (Ending.ofExcept outcome).Meets returns fails := by
    funext outcome last
    exact propext (wp_ofExcept outcome last)
  rw [propagate, wp_bind, decided]

end Kidobo
