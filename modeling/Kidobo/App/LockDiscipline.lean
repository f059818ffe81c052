import Kidobo.App.FileCalls
import Kidobo.App.Progress
import Kidobo.Foundation.MutualExclusion

/-!
# The lock discipline of the commands

Every command that changes a store reads its arguments and resolves its paths
first, takes the exclusive lock, and gives it back at the end. Before the lock
nothing is written, and under the lock no lock operation is issued. So a command
is outside until the lock is granted, and what it does then is one section.

## Main definitions

* `StoreCommand`: the commands that change a store
* `fileLock`: how calls on files use the exclusive lock of these paths
* `StoreCommand.program`, `StoreCommand.lockedProgram`

## Main results

* `outside_program`: the discipline of every command
* `exists_runs_program`: what a section did, the whole command can do
-/

namespace Kidobo

open Foundation

/-! ### Commands -/

/-- One command that changes a store, with its request or reviewed preview. -/
inductive StoreCommand where
  | ban (request : BanRequest)
  | unban (request : UnbanRequest) (preview : UnbanPreview) (decision : UnbanDecision)
  | banAsn (request : AsnBanRequest)
  | unbanAsn (request : AsnUnbanRequest)
  | configure (preview : ConfigurationPreview) (decision : ConfigurationDecision)
  | sync (request : PathResolutionInput) (registry : SyncSourceRegistry)

namespace StoreCommand

/-- What a command returns. -/
@[reducible] def Outcome : StoreCommand → Type
  | ban _ => BanOutcome
  | unban _ _ _ => UnbanOutcome
  | banAsn _ => AsnBanOutcome
  | unbanAsn _ => AsnUnbanOutcome
  | configure _ _ => ConfigurationOutcome
  | sync _ _ => Sync.SyncOutcome

/-- The workflow of a command. -/
def workflow (format : ConfigFormat) : (command : StoreCommand) → Workflow command.Outcome
  | ban request => executeBan request
  | unban request preview decision => applyUnban request preview decision
  | banAsn request => executeBanAsn request
  | unbanAsn request => executeUnbanAsn request
  | configure preview decision => applyConfiguration format preview decision
  | sync request registry => Sync.execute request registry

/-- The part of a workflow that holds the lock. -/
def locked (format : ConfigFormat) (paths : ResolvedPaths) :
    (command : StoreCommand) → Workflow command.Outcome
  | ban request => executeBanLocked paths request
  | unban request preview decision => applyUnbanLocked paths request preview decision
  | banAsn request => do
    let requestedAsns ← Program.ofExcept (normalizeAsnTokens request.tokens)
    executeBanAsnLocked paths requestedAsns request.duration
  | unbanAsn request => do
    let requestedAsns ← Program.ofExcept (normalizeAsnTokens request.tokens)
    executeUnbanAsnLocked paths requestedAsns
  | configure preview _ => applyConfigurationLocked format preview
  | sync request registry => Sync.executeLocked paths request.env registry

/-- The command gets as far as to ask for the lock. -/
def AsksForLock : StoreCommand → Prop
  | banAsn request => (normalizeAsnTokens request.tokens).isOk = true
  | unbanAsn request => (normalizeAsnTokens request.tokens).isOk = true
  | configure preview decision =>
    (preview.expandsExemption && !decision.approveExemption) = false ∧ preview.changed = true
  | _ => True

/-- The command works on these paths. A preview carries the paths it was made for. -/
def OverPaths (paths : ResolvedPaths) : StoreCommand → Prop
  | configure preview _ => preview.paths = paths
  | _ => True

end StoreCommand

/-- Run a body that holds the lock, and give the lock back however it ends. -/
def underLock {α : Type} (body : Workflow α) : Workflow α := do
  let outcome ← body.attempt
  callPort .releaseLock
  Program.ofExcept outcome

/-- How calls on files use the exclusive lock of these paths. -/
def fileLock (paths : ResolvedPaths) : LockUse FileCall FileCall.Result where
  role
    | .port (.acquireLock path) => if path = paths.lockFile then .acquire else .neither
    | .port .releaseLock => .release
    | _ => .neither
  granted
    | .port (.acquireLock _), answer => answer.isOk
    | _, _ => false

namespace StoreCommand

/-- A command over the file adapters. -/
def program (setting : FileSetting) (command : StoreCommand) :
    Program FileCall FileCall.Result AppError command.Outcome :=
  setting.onFiles (command.workflow setting.format)

/-- The part of a command that holds the lock, over the file adapters. -/
def lockedProgram (setting : FileSetting) (paths : ResolvedPaths) (command : StoreCommand) :
    Program FileCall FileCall.Result AppError command.Outcome :=
  setting.onFiles (underLock (command.locked setting.format paths))

/-- What a command does once it has the lock. -/
def IsSection (setting : FileSetting) (paths : ResolvedPaths) (command : StoreCommand)
    (program : Program FileCall FileCall.Result AppError command.Outcome) : Prop :=
  command.AsksForLock ∧ program = command.lockedProgram setting paths

end StoreCommand

/-! ### What the bodies issue -/

/-- The calls that neither use the lock nor write a file. -/
def PortOp.Idle (op : PortOp) : Prop := op.usesLock = false ∧ op.writes = none

theorem idle_of_reports {op : PortOp} (reports : op.reports = true) : op.Idle := by
  cases op <;> first | exact ⟨rfl, rfl⟩ | cases reports

section Bodies

variable {allowed : PortOp → Prop} {α : Type}

theorem issues_callPort {op : PortOp} (isAllowed : allowed op) : (callPort op).Issues allowed :=
  Program.issues_perform isAllowed

theorem issues_propagate {answered : Workflow (Except AppError α)}
    (issues : answered.Issues allowed) : (propagate answered).Issues allowed :=
  issues.bind fun _ => Program.issues_ofExcept _

section Idling

variable (idles : ∀ op : PortOp, op.Idle → allowed op)

include idles

theorem issues_idleCall {op : PortOp} (idle : op.Idle) : (callPort op).Issues allowed :=
  issues_callPort (idles op idle)

theorem issues_of_reports {outcome : Except AppError α} {program : Workflow α}
    (reports : Reports outcome program) : program.Issues allowed := by
  induction program with
  | ret value => trivial
  | fail error => trivial
  | spin => trivial
  | call op next ih =>
    exact ⟨idles op (idle_of_reports reports.1), fun result => ih result (reports.2 result)⟩

theorem issues_checkCancelled : checkCancelled.Issues allowed := by
  refine (issues_idleCall idles ⟨rfl, rfl⟩).bind ?_
  rintro (_ | _) <;> trivial

theorem issues_parseInput (input : BlocklistInput) : (parseInput input).Issues allowed := by
  cases input with
  | single value =>
    rw [parseInput]
    split <;> trivial
  | file path =>
    exact (issues_propagate (issues_idleCall idles ⟨rfl, rfl⟩)).bind fun _ => trivial

theorem issues_recordTemporaryBans {κ : Type} [LinearOrder κ] (entries : SortedMap κ ℕ)
    (targets permanent : List κ) (duration : BanDuration) (path : String) (render : κ → String) :
    (recordTemporaryBans entries targets permanent duration path render).Issues allowed := by
  refine (issues_checkCancelled idles).bind fun _ => ?_
  dsimp only
  split_ifs
  · refine (issues_propagate (issues_idleCall idles ⟨rfl, rfl⟩)).bind fun now => ?_
    split <;> trivial
  · trivial

theorem issues_loadAsnPrefixes (cacheDir : String) (staleAfterSecs : ℕ) (asns : List ℕ)
    (resolved : List CanonicalCidr) (notices : List Notice) :
    (loadAsnPrefixes cacheDir staleAfterSecs asns resolved notices).Issues allowed := by
  induction asns generalizing resolved notices with
  | nil => trivial
  | cons asn rest ih =>
    refine (issues_checkCancelled idles).bind fun _ => ?_
    exact (issues_propagate (issues_idleCall idles ⟨rfl, rfl⟩)).bind fun _ => ih _ _

theorem issues_deleteAsnCaches (cacheDir : String) (asns : List ℕ) (deleted : ℕ)
    (notices : List Notice) : (deleteAsnCaches cacheDir asns deleted notices).Issues allowed := by
  induction asns generalizing deleted notices with
  | nil => trivial
  | cons asn rest ih =>
    refine (issues_idleCall idles ⟨rfl, rfl⟩).bind ?_
    rintro (error | _ | _) <;> exact ih _ _

theorem issues_buildUnbanPlan (targets : UnbanTargetIndex) (document : BlocklistDocument)
    (temporary : TemporaryBans) : (buildUnbanPlan targets document temporary).Issues allowed := by
  have checks := issues_checkCancelled idles
  exact checks.bind fun _ => checks.bind fun _ => checks.bind fun _ => checks.bind fun _ => trivial

/-! ### Synchronization -/

open Sync in
theorem issues_readLockedInputs (paths : ResolvedPaths) :
    (readLockedInputs paths).Issues allowed := by
  have checks := issues_checkCancelled idles
  refine (issues_propagate (issues_idleCall idles ⟨rfl, rfl⟩)).bind fun cutoff => ?_
  refine checks.bind fun _ => ?_
  refine (issues_propagate (issues_idleCall idles ⟨rfl, rfl⟩)).bind fun config => ?_
  refine checks.bind fun _ => ?_
  refine (issues_propagate (issues_idleCall idles ⟨rfl, rfl⟩)).bind fun _ => ?_
  refine checks.bind fun _ => ?_
  refine (issues_propagate (issues_idleCall idles ⟨rfl, rfl⟩)).bind fun bans => ?_
  dsimp only
  split_ifs
  · exact (issues_of_reports idles (reports_report _)).bind fun _ => trivial
  · trivial

open Sync in
theorem issues_loadRemaining {context : SyncSourceContext}
    (loads : ∀ provider, allowed (.loadSource provider context))
    (descriptors : List SyncSourceDescriptor) (sources : LoadedSources) :
    (loadRemaining context descriptors sources).Issues allowed := by
  induction descriptors generalizing sources with
  | nil => trivial
  | cons descriptor rest ih =>
    refine (issues_checkCancelled idles).bind fun _ => ?_
    refine (issues_callPort (loads descriptor)).bind ?_
    rintro (error | loaded)
    · dsimp only
      split_ifs
      · exact (issues_of_reports idles (reports_report _)).bind fun _ => ih _
      · trivial
    · exact (issues_of_reports idles (reports_reportAll _)).bind fun _ => ih _

open Sync in
theorem issues_prepareSources {paths : ResolvedPaths} {env : List (String × String)}
    {registry : SyncSourceRegistry} {inputs : LockedInputs}
    (loads : ∀ provider context, context.paths = paths → allowed (.loadSource provider context)) :
    (prepareSources paths env registry inputs).Issues allowed := by
  refine (issues_of_reports idles (reports_startStage _)).bind fun _ => ?_
  refine (issues_propagate (issues_idleCall idles ⟨rfl, rfl⟩)).bind fun _ => ?_
  refine (issues_of_reports idles (reports_completeStage _)).bind fun _ => ?_
  refine (issues_of_reports idles (reports_startStage _)).bind fun _ => ?_
  refine (issues_loadRemaining idles (fun _ => loads _ _ rfl) _ _).bind fun sources => ?_
  refine (issues_of_reports idles (reports_completeStage _)).bind fun _ => ?_
  exact (issues_checkCancelled idles).bind fun _ => trivial

open Sync in
theorem issues_admitRemaining (candidates : List CanonicalCidr) (enableIpv6 : Bool)
    (baseline : EffectiveBlocklists) (externals : List LoadedExternalSafelist)
    (admitted : Admitted) :
    (admitRemaining candidates enableIpv6 baseline externals admitted).Issues allowed := by
  induction externals generalizing admitted with
  | nil => trivial
  | cons external rest ih =>
    refine Program.Issues.bind ?_ ih
    unfold admitExternalSafelist
    dsimp only
    split_ifs
    · trivial
    · refine (issues_of_reports idles (reports_report _)).bind fun _ => ?_
      split
      · exact (issues_of_reports idles (reports_reportAll _)).bind fun _ => trivial
      · split
        · trivial
        · exact (issues_of_reports idles (reports_report _)).bind fun _ => trivial

open Sync in
theorem issues_promotePendingCaches (pending : List PendingPromotion) :
    (promotePendingCaches pending).Issues allowed := by
  refine (issues_of_reports idles (reports_startStage _)).bind fun _ => ?_
  refine Program.Issues.bind ?_ fun _ => issues_of_reports idles (reports_completeStage _)
  induction pending with
  | nil => trivial
  | cons first rest ih =>
    refine (issues_checkCancelled idles).bind fun _ => ?_
    refine (issues_idleCall idles ⟨rfl, rfl⟩).bind ?_
    rintro (error | _)
    · trivial
    · exact ih

open Sync in
theorem issues_replaceFamily (stage : SyncStage) (spec : ManagedSetSpec) (family : AddressFamily)
    (entries : List CanonicalCidr) : (replaceFamily stage spec family entries).Issues allowed := by
  refine (issues_of_reports idles (reports_startStage _)).bind fun _ => ?_
  refine (issues_propagate (issues_idleCall idles ⟨rfl, rfl⟩)).bind fun _ => ?_
  refine (issues_idleCall idles ⟨rfl, rfl⟩).bind fun _ => ?_
  exact issues_of_reports idles (reports_completeStage _)

open Sync in
theorem issues_activateFirewall (plan : EnforcementPlan) :
    (activateFirewall plan).Issues allowed := by
  have cleanup : (cleanupDisabled plan).Issues allowed := by
    refine (issues_idleCall idles ⟨rfl, rfl⟩).bind fun _ => ?_
    refine (issues_idleCall idles ⟨rfl, rfl⟩).bind fun notices => ?_
    refine (issues_of_reports idles (reports_reportAll _)).bind fun _ => ?_
    exact issues_idleCall idles ⟨rfl, rfl⟩
  refine (issues_of_reports idles (reports_startStage _)).bind fun _ => ?_
  refine (issues_propagate (issues_idleCall idles ⟨rfl, rfl⟩)).bind fun _ => ?_
  refine (issues_idleCall idles ⟨rfl, rfl⟩).bind fun _ => ?_
  dsimp only
  split_ifs
  · exact cleanup.bind fun _ => issues_of_reports idles (reports_completeStage _)
  · exact issues_of_reports idles (reports_completeStage _)

open Sync in
theorem issues_applyEnforcement (plan : EnforcementPlan)
    (ipv4Entries ipv6Entries : List CanonicalCidr) :
    (applyEnforcement plan ipv4Entries ipv6Entries).Issues allowed := by
  have last : (do
      replaceFamily .applyIpv4 plan.ipv4 .ipv4 ipv4Entries
      activateFirewall plan).Issues allowed :=
    (issues_replaceFamily idles _ _ _ _).bind fun _ => issues_activateFirewall idles plan
  refine (issues_idleCall idles ⟨rfl, rfl⟩).bind fun _ => ?_
  dsimp only
  split_ifs
  · exact (issues_replaceFamily idles _ _ _ _).bind fun _ => last
  · exact last

open Sync in
theorem issues_computeStage (plan : EnforcementPlan) (sources : LoadedSources) :
    (computeStage plan sources).Issues allowed := by
  refine (issues_of_reports idles (reports_startStage _)).bind fun _ => ?_
  refine Program.Issues.bind ?_ fun admitted =>
    (issues_of_reports idles (reports_completeStage _)).bind fun _ => trivial
  exact (issues_admitRemaining idles _ _ _ _ _).bind fun _ => trivial

open Sync in
theorem issues_savePruned {path : String} (saves : ∀ bans, allowed (.saveTemporaryBans path bans))
    (temporaryBans : TemporaryBans) (cutoff : ℕ) :
    (savePruned path temporaryBans cutoff).Issues allowed := by
  unfold savePruned
  dsimp only
  split_ifs
  · refine (issues_callPort (saves _)).bind ?_
    rintro (error | _)
    · exact issues_of_reports idles (reports_report _)
    · trivial
  · trivial

open Sync in
theorem issues_executeLocked {paths : ResolvedPaths} {env : List (String × String)}
    {registry : SyncSourceRegistry}
    (loads : ∀ provider context, context.paths = paths → allowed (.loadSource provider context))
    (saves : ∀ bans, allowed (.saveTemporaryBans paths.temporaryBansFile bans)) :
    (executeLocked paths env registry).Issues allowed := by
  refine (issues_of_reports idles (reports_completeStage _)).bind fun _ => ?_
  refine (issues_readLockedInputs idles paths).bind fun inputs => ?_
  refine (issues_prepareSources idles loads).bind fun sources => ?_
  refine (issues_computeStage idles _ sources).bind fun computed => ?_
  refine Program.Issues.bind (Program.issues_ofExcept _) fun entries => ?_
  refine (issues_checkCancelled idles).bind fun _ => ?_
  refine (issues_promotePendingCaches idles _).bind fun _ => ?_
  refine (issues_checkCancelled idles).bind fun _ => ?_
  refine (issues_applyEnforcement idles _ _ _).bind fun _ => ?_
  exact (issues_savePruned idles saves _ _).bind fun _ => trivial

end Idling

/-! ### Bans and configuration -/

section Unlocked

variable (unlocked : ∀ op : PortOp, op.usesLock = false → allowed op)

include unlocked

theorem issues_executeBanLocked (paths : ResolvedPaths) (request : BanRequest) :
    (executeBanLocked paths request).Issues allowed := by
  have idles : ∀ op : PortOp, op.Idle → allowed op := fun op idle => unlocked op idle.1
  refine (issues_propagate (issues_callPort (unlocked _ rfl))).bind fun config => ?_
  refine (issues_parseInput idles _).bind ?_
  rintro (targets | invalid | _)
  · refine (issues_propagate (issues_callPort (unlocked _ rfl))).bind fun document => ?_
    split
    · refine (issues_propagate (issues_callPort (unlocked _ rfl))).bind fun temporary => ?_
      refine (issues_recordTemporaryBans idles _ _ _ _ _ _).bind fun recorded => ?_
      dsimp only
      split
      · exact (issues_propagate (issues_callPort (unlocked _ rfl))).bind fun _ => trivial
      · trivial
    · unfold banPermanently
      dsimp only
      split_ifs
      · refine (issues_checkCancelled idles).bind fun _ => ?_
        exact (issues_propagate (issues_callPort (unlocked _ rfl))).bind fun _ => trivial
      · trivial
  · trivial
  · trivial

theorem issues_removePlanned (paths : ResolvedPaths) (decision : UnbanDecision)
    (document : BlocklistDocument) (temporary : TemporaryBans) (current : UnbanStatePlan) :
    (removePlanned paths decision document temporary current).Issues allowed := by
  unfold removePlanned
  refine (issues_checkCancelled fun op idle => unlocked op idle.1).bind fun _ => ?_
  dsimp only
  split_ifs
  · refine (issues_propagate (issues_callPort (unlocked _ rfl))).bind fun _ => ?_
    exact (issues_propagate (issues_callPort (unlocked _ rfl))).mapError
  · exact (issues_propagate (issues_callPort (unlocked _ rfl))).bind fun _ => trivial
  · exact (issues_propagate (issues_callPort (unlocked _ rfl))).mapError
  · trivial

theorem issues_applyUnbanLocked (paths : ResolvedPaths) (request : UnbanRequest)
    (preview : UnbanPreview) (decision : UnbanDecision) :
    (applyUnbanLocked paths request preview decision).Issues allowed := by
  have idles : ∀ op : PortOp, op.Idle → allowed op := fun op idle => unlocked op idle.1
  have checks := issues_checkCancelled idles
  refine (issues_propagate (issues_callPort (unlocked _ rfl))).bind fun config => ?_
  refine checks.bind fun _ => ?_
  refine (issues_propagate (issues_callPort (unlocked _ rfl))).bind fun document => ?_
  refine checks.bind fun _ => ?_
  refine (issues_propagate (issues_callPort (unlocked _ rfl))).bind fun temporary => ?_
  refine (issues_buildUnbanPlan idles _ _ _).bind fun current => ?_
  split_ifs
  · exact (issues_removePlanned unlocked _ _ _ _ _).bind fun _ => trivial
  · trivial

theorem issues_removeExactDuplicates (path : String) (duplicates : List CanonicalCidr) :
    (removeExactDuplicates path duplicates).Issues allowed := by
  unfold removeExactDuplicates
  split_ifs
  · trivial
  · refine (issues_propagate (issues_callPort (unlocked _ rfl))).bind fun document => ?_
    dsimp only
    split_ifs
    · exact (issues_propagate (issues_callPort (unlocked _ rfl))).bind fun _ => trivial
    · trivial

theorem issues_executeBanAsnLocked (paths : ResolvedPaths) (requestedAsns : List ℕ)
    (duration : Option BanDuration) :
    (executeBanAsnLocked paths requestedAsns duration).Issues allowed := by
  have idles : ∀ op : PortOp, op.Idle → allowed op := fun op idle => unlocked op idle.1
  have permanent (resolved : List CanonicalCidr) (notices : List Notice) :
      (banAsnsPermanently paths requestedAsns resolved notices).Issues allowed := by
    refine (issues_propagate (issues_callPort (unlocked _ rfl))).bind fun update => ?_
    exact (issues_removeExactDuplicates unlocked _ _).attempt.bind fun _ => trivial
  have timed (config : Config) (temporary : TemporaryBans) (duration : BanDuration)
      (notices : List Notice) :
      (banAsnsTemporarily paths config temporary requestedAsns duration notices).Issues allowed := by
    refine (issues_recordTemporaryBans idles _ _ _ _ _ _).bind fun recorded => ?_
    dsimp only
    split
    · exact (issues_propagate (issues_callPort (unlocked _ rfl))).bind fun _ => trivial
    · trivial
  refine (issues_propagate (issues_callPort (unlocked _ rfl))).bind fun config => ?_
  cases duration with
  | none =>
    refine (issues_loadAsnPrefixes idles _ _ _ _ _).bind fun loaded => ?_
    exact (issues_checkCancelled idles).bind fun _ => permanent _ _
  | some duration =>
    refine Program.Issues.bind ?_ fun temporary => ?_
    · exact Program.Issues.bind (issues_propagate (issues_callPort (unlocked _ rfl)))
        fun _ => trivial
    · refine (issues_loadAsnPrefixes idles _ _ _ _ _).bind fun loaded => ?_
      refine (issues_checkCancelled idles).bind fun _ => ?_
      cases temporary with
      | none => exact permanent _ _
      | some temporary => exact timed _ _ _ _

theorem issues_executeUnbanAsnLocked (paths : ResolvedPaths) (requestedAsns : List ℕ) :
    (executeUnbanAsnLocked paths requestedAsns).Issues allowed := by
  have idles : ∀ op : PortOp, op.Idle → allowed op := fun op idle => unlocked op idle.1
  refine (issues_propagate (issues_callPort (unlocked _ rfl))).bind fun config => ?_
  refine (issues_propagate (issues_callPort (unlocked _ rfl))).bind fun temporary => ?_
  refine (issues_checkCancelled idles).bind fun _ => ?_
  have removed (error : AppError → AppError) : ((propagate (callPort
      (.updateConfig paths.configFile [] requestedAsns))).mapError error).Issues allowed :=
    (issues_propagate (issues_callPort (unlocked _ rfl))).mapError
  have deleted := issues_deleteAsnCaches idles paths.asnCacheDir requestedAsns 0 []
  dsimp only
  split
  · refine (issues_propagate (issues_callPort (unlocked _ rfl))).bind fun _ => ?_
    split
    · exact deleted.bind fun _ => trivial
    · exact (removed _).bind fun _ => deleted.bind fun _ => trivial
  · split
    · exact deleted.bind fun _ => trivial
    · exact (removed _).bind fun _ => deleted.bind fun _ => trivial

theorem issues_applyConfigurationLocked (format : ConfigFormat) (preview : ConfigurationPreview) :
    (applyConfigurationLocked format preview).Issues allowed := by
  have idles : ∀ op : PortOp, op.Idle → allowed op := fun op idle => unlocked op idle.1
  refine (issues_checkCancelled idles).bind fun _ => ?_
  refine (issues_propagate (issues_callPort (unlocked _ rfl))).bind fun current => ?_
  dsimp only
  split
  · trivial
  · refine Program.Issues.bind (Program.issues_ofExcept _) fun _ => ?_
    refine (issues_checkCancelled idles).bind fun _ => ?_
    exact (issues_propagate (issues_callPort (unlocked _ rfl))).bind fun _ => trivial

/-- Under the lock no lock operation is issued. -/
theorem issues_locked (format : ConfigFormat) (paths : ResolvedPaths) (command : StoreCommand) :
    (command.locked format paths).Issues allowed := by
  have idles : ∀ op : PortOp, op.Idle → allowed op := fun op idle => unlocked op idle.1
  cases command with
  | ban request => exact issues_executeBanLocked unlocked paths request
  | unban request preview decision =>
    exact issues_applyUnbanLocked unlocked paths request preview decision
  | banAsn request =>
    exact Program.Issues.bind (Program.issues_ofExcept _)
      fun asns => issues_executeBanAsnLocked unlocked paths asns _
  | unbanAsn request =>
    exact Program.Issues.bind (Program.issues_ofExcept _)
      fun asns => issues_executeUnbanAsnLocked unlocked paths asns
  | configure preview decision => exact issues_applyConfigurationLocked unlocked format preview
  | sync request registry =>
    exact issues_executeLocked idles (fun _ _ _ => unlocked _ rfl) fun _ => unlocked _ rfl

end Unlocked

end Bodies

/-! ### The discipline -/

section Discipline

variable {setting : FileSetting} {paths : ResolvedPaths} {α β : Type}

theorem onFiles_bind (workflow : Workflow β) (next : β → Workflow α) :
    setting.onFiles (workflow >>= next) =
      setting.onFiles workflow >>= fun value => setting.onFiles (next value) :=
  Program.expand_bind workflow next

theorem role_fileLock {call : FileCall} (unlocked : call.usesLock = false) :
    (fileLock paths).role call = .neither := by
  cases call with
  | port op => cases op <;> first | rfl | cases unlocked
  | _ => rfl

theorem issues_onFiles {workflow : Workflow α}
    (issues : workflow.Issues fun op => op.usesLock = false) :
    (setting.onFiles workflow).Issues fun call => (fileLock paths).role call = .neither :=
  issues.expand fun _ unlocked =>
    (issues_asFiles setting unlocked).mono fun _ within => role_fileLock within.1

/-- A workflow that issues idle calls idles over the file adapters. -/
theorem idles_onFiles {workflow : Workflow α} (issues : workflow.Issues PortOp.Idle) :
    Idles (fileLock paths) (fileStep paths) (fun _ => True) (setting.onFiles workflow) := by
  refine idles_of_issues (issues.expand fun op idle => ?_)
  refine (issues_asFiles setting idle.1).mono fun call within => ⟨role_fileLock within.1, ?_⟩
  intro before result after stepped
  apply fileStep_idle stepped
  cases writes : call.writes with
  | none => rfl
  | some path => cases idle.2.symm.trans (within.2 path writes)

theorem idles_resolvePaths (input : PathResolutionInput) (requirement : ConfigRequirement) :
    Idles (fileLock paths) (fileStep paths) (fun resolved => resolved = paths)
      (setting.onFiles (propagate (callPort (.resolvePaths input requirement)))) := by
  refine ⟨rfl, ?_⟩
  rintro before (error | resolved) after stepped
  · exact ⟨stepped, trivial⟩
  · exact stepped

theorem onFiles_underLock (body : Workflow α) :
    setting.onFiles (underLock body) =
      ((setting.onFiles body).attempt : Program FileCall FileCall.Result AppError
        (Except AppError α)) >>= fun outcome =>
          .call (.port .releaseLock) fun _ => Program.ofExcept outcome := by
  rw [underLock, onFiles_bind]
  have attempted : setting.onFiles (body.attempt : Workflow (Except AppError α)) =
      (setting.onFiles body).attempt := Program.expand_attempt body
  rw [attempted]
  congr
  funext outcome
  exact congrArg (Program.call (FileCall.port .releaseLock))
    (funext fun _ => Program.expand_ofExcept outcome)

/-- A body under the lock holds it to the end. -/
theorem holding_underLock {body : Workflow α}
    (issues : body.Issues fun op => op.usesLock = false) :
    Holding (fileLock paths) (fileStep paths) (setting.onFiles (underLock body)) := by
  rw [onFiles_underLock]
  refine Holding.guarded (issues_onFiles issues) fun outcome => ?_
  intro before result after stepped
  refine ⟨stepped, Ending.ofExcept outcome, ?_⟩
  cases outcome with
  | ok value => exact .ret value
  | error error => exact .fail error

/-- A workflow is outside until the exclusive lock is granted. -/
theorem outside_withLock {body : Workflow α}
    {isSection : Program FileCall FileCall.Result AppError α → Prop}
    (issues : body.Issues fun op => op.usesLock = false)
    (belongs : isSection (setting.onFiles (underLock body))) :
    Outside (fileLock paths) (fileStep paths) isSection
      (setting.onFiles (withLock paths.lockFile body)) := by
  have acquires : (fileLock paths).role (.port (.acquireLock paths.lockFile)) = .acquire :=
    if_pos rfl
  have locks : setting.onFiles (withLock paths.lockFile body) =
      .call (.port (.acquireLock paths.lockFile)) fun answer =>
        Program.ofExcept answer >>= fun _ => setting.onFiles (underLock body) := by
    change setting.onFiles (propagate _ >>= fun _ => underLock body) = _
    rw [onFiles_bind]
    refine congrArg (Program.call (FileCall.port (.acquireLock paths.lockFile))) (funext ?_)
    rintro (error | _) <;> rfl
  rw [locks]
  simp only [Outside, acquires]
  rintro before (error | _) after stepped
  · exact ⟨stepped, fun granted => (Bool.false_ne_true granted).elim, fun _ => trivial⟩
  · exact ⟨stepped, fun _ => ⟨belongs, holding_underLock issues⟩,
      fun refused => (Bool.false_ne_true refused.symm).elim⟩

/-- A workflow that does something idle first. -/
theorem outside_idle {workflow : Workflow β} {next : β → Workflow α}
    {isSection : Program FileCall FileCall.Result AppError α → Prop}
    (issues : workflow.Issues PortOp.Idle)
    (continues : ∀ value, Outside (fileLock paths) (fileStep paths) isSection
      (setting.onFiles (next value))) :
    Outside (fileLock paths) (fileStep paths) isSection (setting.onFiles (workflow >>= next)) := by
  rw [onFiles_bind]
  exact Outside.bind (idles_onFiles issues) fun value _ => continues value

/-- A workflow that resolves its paths goes on with these. -/
theorem outside_resolvePaths {input : PathResolutionInput} {next : ResolvedPaths → Workflow α}
    {isSection : Program FileCall FileCall.Result AppError α → Prop}
    (continues : Outside (fileLock paths) (fileStep paths) isSection
      (setting.onFiles (next paths))) :
    Outside (fileLock paths) (fileStep paths) isSection
      (setting.onFiles (propagate (callPort (.resolvePaths input .required)) >>= next)) := by
  rw [onFiles_bind]
  refine Outside.bind (idles_resolvePaths _ _) ?_
  rintro resolved rfl
  exact continues

theorem issues_checks : checkCancelled.Issues PortOp.Idle := issues_checkCancelled fun _ => id

theorem issues_reports {outcome : Except AppError α} {workflow : Workflow α}
    (reports : Reports outcome workflow) : workflow.Issues PortOp.Idle :=
  issues_of_reports (fun _ => id) reports

/-- Every command is outside until it has the lock. -/
theorem outside_program (command : StoreCommand) (samePaths : command.OverPaths paths) :
    Outside (fileLock paths) (fileStep paths) (command.IsSection setting paths)
      (command.program setting) := by
  have unlocked (command : StoreCommand) :
      (command.locked setting.format paths).Issues fun op => op.usesLock = false :=
    issues_locked (fun _ => id) setting.format paths command
  -- before the lock there are only checks, reports and the resolution of paths
  cases command with
  | ban request =>
    refine outside_idle issues_checks fun _ => outside_resolvePaths ?_
    exact outside_withLock (unlocked (.ban request)) ⟨trivial, rfl⟩
  | unban request preview decision =>
    refine outside_idle issues_checks fun _ => outside_resolvePaths ?_
    exact outside_withLock (unlocked (.unban request preview decision)) ⟨trivial, rfl⟩
  | banAsn request =>
    refine outside_idle issues_checks fun _ => outside_resolvePaths ?_
    cases normalized : normalizeAsnTokens request.tokens with
    | error error => trivial
    | ok asns =>
      have body := unlocked (.banAsn request)
      have belongs : StoreCommand.IsSection setting paths (.banAsn request)
          (StoreCommand.lockedProgram setting paths (.banAsn request)) :=
        ⟨by rw [StoreCommand.AsksForLock, normalized]; rfl, rfl⟩
      simp only [StoreCommand.lockedProgram, StoreCommand.locked, normalized,
        Program.ofExcept_ok_bind] at body belongs
      exact outside_withLock body belongs
  | unbanAsn request =>
    refine outside_idle issues_checks fun _ => outside_resolvePaths ?_
    cases normalized : normalizeAsnTokens request.tokens with
    | error error => trivial
    | ok asns =>
      have body := unlocked (.unbanAsn request)
      have belongs : StoreCommand.IsSection setting paths (.unbanAsn request)
          (StoreCommand.lockedProgram setting paths (.unbanAsn request)) :=
        ⟨by rw [StoreCommand.AsksForLock, normalized]; rfl, rfl⟩
      simp only [StoreCommand.lockedProgram, StoreCommand.locked, normalized,
        Program.ofExcept_ok_bind] at body belongs
      exact outside_withLock body belongs
  | configure preview decision =>
    obtain rfl : preview.paths = paths := samePaths
    refine outside_idle issues_checks fun _ => ?_
    -- a preview that is refused or changes nothing never asks for the lock
    by_cases unapproved : (preview.expandsExemption && !decision.approveExemption) = true
    · rw [if_pos unapproved]
      trivial
    · rw [if_neg unapproved]
      by_cases unchanged : (!preview.changed) = true
      · rw [if_pos unchanged]
        trivial
      · rw [if_neg unchanged]
        refine outside_withLock (unlocked (.configure preview decision)) ⟨⟨?_, ?_⟩, rfl⟩
        · exact Bool.eq_false_iff.mpr unapproved
        · simpa using unchanged
  | sync request registry =>
    have loads : (propagate (callPort (.loadConfig paths.configFile))).Issues PortOp.Idle :=
      issues_propagate (issues_callPort ⟨rfl, rfl⟩)
    refine outside_idle issues_checks fun _ => ?_
    refine outside_idle (issues_reports (reports_startStage _)) fun _ => outside_resolvePaths ?_
    refine outside_idle (issues_reports (reports_completeStage _)) fun _ => ?_
    refine outside_idle issues_checks fun _ => ?_
    refine outside_idle (issues_reports (reports_startStage _)) fun _ => ?_
    refine outside_idle loads fun _ => ?_
    refine outside_idle (issues_reports (reports_completeStage _)) fun _ => ?_
    refine outside_idle issues_checks fun _ => ?_
    refine outside_idle (issues_reports (reports_startStage _)) fun _ => ?_
    exact outside_withLock (unlocked (.sync request registry)) ⟨trivial, rfl⟩

end Discipline

end Kidobo
