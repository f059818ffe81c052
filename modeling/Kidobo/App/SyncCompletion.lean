import Kidobo.App.SyncOrder
import Kidobo.Foundation.Expand

/-!
# What a completed synchronization has done

A run that returns has replaced the set of every enabled family by the entries
computed from the answers of all sources, and has activated the wiring, in this
order. Artifacts are prepared, and a disabled family is cleaned up, only for the
configuration that was read under the lock.

## Main definitions

* `Completed`: every set was replaced and the wiring was activated
* `Planned`: when and for which plan the calls are made
* `Preparatory`, `Concluding`: the calls before and after the sources were read

## Main results

* `wp_execute_completed`, `wp_execute_planned`: two more contracts of the workflow
-/

namespace Kidobo.Sync

open Foundation

/-- The enabled sets were replaced as computed, and then the wiring was activated. -/
structure Completed (registry : SyncSourceRegistry) (progress : Progress) (plan : EnforcementPlan)
    (effective : EffectiveBlocklists) (admitted : Admitted) : Prop where
  preflighted : Preflighted registry progress plan effective admitted
  unfailed : NothingFailed progress
  replacements : progress.replacements = allReplaced (enforcedSets plan effective)
  activations : progress.activations = [true]

/-- Some plan has been completed. -/
def IsCompleted (registry : SyncSourceRegistry) (progress : Progress) : Prop :=
  ∃ plan effective admitted, Completed registry progress plan effective admitted

section Completion

variable {registry : SyncSourceRegistry} {progress : Progress}

theorem Preflighted.of_same {plan : EnforcementPlan} {effective : EffectiveBlocklists}
    {admitted : Admitted} {other : Progress}
    (preflighted : Preflighted registry progress plan effective admitted)
    (config : other.config = progress.config) (loads : other.loads = progress.loads) :
    Preflighted registry other plan effective admitted where
  configured := by rw [config, preflighted.configured]
  complete := by rw [loads, preflighted.complete]
  usable := by rw [loads]; exact preflighted.usable
  computed := by rw [loads, preflighted.computed]
  ipv4Fits := preflighted.ipv4Fits
  ipv6Fits := preflighted.ipv6Fits

/-- Enforcement ends with every enabled set replaced and the wiring activated. -/
theorem wp_applyEnforcement_completed {plan : EnforcementPlan} {effective : EffectiveBlocklists}
    {admitted : Admitted} (unstarted : Unstarted progress)
    (preflighted : Preflighted registry progress plan effective admitted) :
    wp anyPorts (permittedCalls registry)
      (fun _ last => Completed registry last plan effective admitted) Unsaved
      (applyEnforcement plan (ipv4KernelEntries effective) (ipv6KernelEntries effective))
      { progress with promotions := allPromoted admitted.pendingPromotions } := by
  have activated : wp anyPorts (permittedCalls registry)
      (fun _ last => Completed registry last plan effective admitted) Unsaved
      (activateFirewall plan) (enforcing progress admitted (enforcedSets plan effective)) := by
    obtain ⟨unfailed, stillPreflighted⟩ :=
      preflighted_enforcing unstarted preflighted (enforcedSets plan effective)
    refine wp_mono (wp_activateFirewall
      ⟨unfailed, effective, admitted, stillPreflighted, rfl, rfl⟩ unstarted.saved) ?_ fun _ _ => id
    rintro _ last rfl
    have once : (enforcing progress admitted (enforcedSets plan effective)).activations ++ [true] =
        [true] := by
      simp [enforcing, unstarted.activations]
    refine ⟨preflighted.of_same rfl rfl, ⟨unfailed.promotions, unfailed.replacements, ?_⟩, rfl, once⟩
    rw [once]
    simp
  have begun : { progress with
      promotions := allPromoted admitted.pendingPromotions
      enforcementStarted := true } = enforcing progress admitted [] := by
    rw [enforcing, show allReplaced [] = progress.replacements from unstarted.replacements.symm]
  rw [applyEnforcement, wp_bind]
  refine wp_callPort.mpr fun _ => ⟨trivial, ?_⟩
  change wp _ _ _ _ _ { progress with
    promotions := allPromoted admitted.pendingPromotions
    enforcementStarted := true }
  rw [begun]
  -- the IPv6 set is replaced first when it is enabled
  split_ifs with enabled
  · have order : enforcedSets plan effective =
        [(plan.ipv6, ipv6KernelEntries effective)] ++
          [(plan.ipv4, ipv4KernelEntries effective)] := by
      simp [enforcedSets, enabled]
    rw [wp_bind]
    refine wp_mono (wp_replaceNext unstarted preflighted [] _ order) ?_ fun _ _ => id
    rintro _ last rfl
    rw [wp_bind]
    refine wp_mono (wp_replaceNext unstarted preflighted _ [] order) ?_ fun _ _ => id
    rintro _ last rfl
    rw [order] at activated
    exact activated
  · have order : enforcedSets plan effective = [(plan.ipv4, ipv4KernelEntries effective)] := by
      simp [enforcedSets, enabled]
    rw [wp_bind]
    refine wp_mono (wp_replaceNext unstarted preflighted [] [] order) ?_ fun _ _ => id
    rintro _ last rfl
    rw [List.nil_append, ← order]
    exact activated

/-- Saving the pruned bans leaves what was completed. -/
theorem wp_savePruned_completed {path : String} {temporaryBans : TemporaryBans} {cutoff : ℕ}
    (completed : IsCompleted registry progress) :
    wp anyPorts (permittedCalls registry) (fun _ last => IsCompleted registry last)
      (fun _ _ => False) (savePruned path temporaryBans cutoff) progress := by
  obtain ⟨plan, effective, admitted, done⟩ := completed
  rw [savePruned]
  dsimp only
  split_ifs
  · rw [wp_bind]
    refine wp_callPort.mpr fun outcome => ⟨⟨done.unfailed, done.activations⟩, ?_⟩
    have saved : IsCompleted registry { progress with saved := true } :=
      ⟨plan, effective, admitted, done.preflighted.of_same rfl rfl,
        ⟨done.unfailed.promotions, done.unfailed.replacements, done.unfailed.activations⟩,
        done.replacements, done.activations⟩
    cases outcome with
    | ok value => exact saved
    | error error => exact wp_reporting (reports_report _) saved
  · exact ⟨plan, effective, admitted, done⟩

theorem wp_enforceSources_completed {paths : ResolvedPaths} {inputs : LockedInputs}
    (unstarted : Unstarted progress) (configured : progress.config = some inputs.config)
    (named : progress.loads.map Prod.fst = registry.providers)
    (usable : ∀ answer ∈ progress.loads, UsableLoad answer) :
    wp anyPorts (permittedCalls registry) (fun _ last => IsCompleted registry last) Unsaved
      (enforceSources paths inputs (LoadedSources.collect progress.loads)) progress := by
  rw [enforceSources, wp_bind]
  refine wp_reporting (reports_computeStage _ _) ?_
  cases computed : computePlan (EnforcementPlan.fromConfig inputs.config)
      (LoadedSources.collect progress.loads) with
  | error error => exact unstarted.saved
  | ok decided =>
    obtain ⟨effective, admitted⟩ := decided
    change wp _ _ _ _ (Program.ofExcept _ >>= _) _
    rw [wp_bind, wp_ofExcept]
    cases prepared : prepareSyncEntries effective (EnforcementPlan.fromConfig inputs.config) with
    | error error => exact unstarted.saved
    | ok entries =>
      obtain ⟨ipv6Fits, ipv4Fits, rfl⟩ := prepareSyncEntries_eq_ok_iff.mp prepared
      have preflighted : Preflighted registry progress (EnforcementPlan.fromConfig inputs.config)
          effective admitted :=
        ⟨by rw [configured]; rfl, named, usable, computed, ipv4Fits, ipv6Fits⟩
      refine wp_checkCancelled unstarted.enforcementStarted unstarted.saved ?_
      rw [wp_bind]
      refine wp_mono (wp_promotePendingCaches unstarted preflighted) ?_ fun _ _ => id
      rintro _ last rfl
      refine wp_checkCancelled unstarted.enforcementStarted unstarted.saved ?_
      rw [wp_bind]
      refine wp_mono (wp_applyEnforcement_completed unstarted preflighted) ?_ fun _ _ => id
      intro _ last done
      rw [wp_bind]
      exact wp_mono (wp_savePruned_completed ⟨_, effective, admitted, done⟩)
        (fun _ _ completed => completed) fun _ _ never => never.elim

theorem wp_executeLocked_completed {paths : ResolvedPaths} {env : List (String × String)}
    (unstarted : Unstarted progress) (unloaded : progress.loads = []) :
    wp anyPorts (permittedCalls registry) (fun _ last => IsCompleted registry last) Unsaved
      (executeLocked paths env registry) progress := by
  rw [executeLocked]
  refine wp_reporting_bind (reports_completeStage _) ?_
  rw [wp_bind]
  refine wp_mono (wp_readLockedInputs unstarted) ?_ fun _ _ => id
  rintro inputs last rfl
  rw [wp_bind]
  have configured : Unstarted { progress with config := some inputs.config } :=
    ⟨unstarted.cancelled, unstarted.promotions, unstarted.enforcementStarted,
      unstarted.replacements, unstarted.activations, unstarted.saved⟩
  refine wp_mono (wp_prepareSources configured unloaded) ?_ fun _ _ => id
  rintro sources last ⟨answers, same, named, usable, rfl⟩
  rw [unloaded, List.nil_append] at same
  have loaded : Unstarted last := by
    rw [same]
    exact ⟨unstarted.cancelled, unstarted.promotions, unstarted.enforcementStarted,
      unstarted.replacements, unstarted.activations, unstarted.saved⟩
  have answered : last.loads = answers := by rw [same]
  rw [← answered] at named usable
  exact wp_enforceSources_completed loaded (by rw [same]) named usable

/-- A run that returns has completed its plan. -/
theorem wp_execute_completed (request : PathResolutionInput) (registry : SyncSourceRegistry) :
    wp anyPorts (permittedCalls registry) (fun _ last => IsCompleted registry last) Unsaved
      (execute request registry) .start := by
  rw [execute]
  refine wp_checkCancelled rfl rfl ?_
  refine wp_reporting_bind (reports_startStage _) ?_
  rw [wp_bind]
  refine wp_ask (wp_callPort.mpr fun _ => ⟨trivial, rfl⟩) rfl fun paths => ?_
  refine wp_reporting_bind (reports_completeStage _) ?_
  refine wp_checkCancelled rfl rfl ?_
  refine wp_reporting_bind (reports_startStage _) ?_
  rw [wp_bind, wp_propagate]
  refine wp_callPort.mpr fun loaded => ⟨trivial, ?_⟩
  cases loaded with
  | error error => rfl
  | ok config =>
    refine wp_reporting_bind (reports_completeStage _) ?_
    refine wp_checkCancelled rfl rfl ?_
    refine wp_reporting_bind (reports_startStage _) ?_
    rw [withLock, withGuard, wp_bind]
    refine wp_ask (wp_callPort.mpr fun _ => ⟨trivial, rfl⟩) rfl fun _ => ?_
    rw [wp_bind, wp_attempt]
    have unstarted : Unstarted (Progress.start.observe (.loadConfig paths.configFile)
        (.ok config)) := ⟨rfl, rfl, rfl, rfl, rfl, rfl⟩
    refine wp_mono (wp_executeLocked_completed unstarted rfl) ?_ ?_
    · intro outcome last completed
      rw [wp_bind]
      exact wp_callPort.mpr fun _ => ⟨trivial, completed⟩
    · intro error last unsaved
      rw [wp_bind]
      exact wp_callPort.mpr fun _ => ⟨trivial, unsaved⟩

end Completion

/-! ### For which plan and when -/

/-- The configuration and the sources are read, and artifacts are prepared,
before enforcement starts. Artifacts are prepared and a disabled family is
cleaned up for the plan of the configuration. -/
def Planned (progress : Progress) : PortOp → Prop
  | .loadConfig _ => progress.enforcementStarted = false
  | .loadSource _ _ => progress.enforcementStarted = false
  | .ensureArtifacts plan => progress.enforcementStarted = false ∧
      progress.config.map EnforcementPlan.fromConfig = some plan
  | .cleanupDisabledIpv6 plan => progress.config.map EnforcementPlan.fromConfig = some plan ∧
      plan.enableIpv6 = false
  | _ => True

/-- The guarantee that every call is planned. -/
def plannedCalls : Step PortOp PortOp.Result Progress := fun before op _ _ => Planned before op

/-- The calls before enforcement that read no configuration. -/
def Preparatory (prepared : EnforcementPlan → Prop) : PortOp → Prop
  | .loadConfig _ => False
  | .event .enforcementStarted => False
  | .ensureArtifacts plan => prepared plan
  | .cleanupDisabledIpv6 _ => False
  | _ => True

/-- The calls after the sources were read. -/
def Concluding (plan : EnforcementPlan) : PortOp → Prop
  | .loadConfig _ => False
  | .loadSource _ _ => False
  | .ensureArtifacts _ => False
  | .cleanupDisabledIpv6 cleaned => cleaned = plan ∧ plan.enableIpv6 = false
  | _ => True

section Planning

variable {α β : Type} {progress : Progress}

/-- What a preparatory call leaves. -/
theorem observe_preparatory {prepared : EnforcementPlan → Prop} (progress : Progress) {op : PortOp}
    (result : op.Result) (preparatory : Preparatory prepared op) :
    (progress.observe op result).config = progress.config ∧
      (progress.observe op result).enforcementStarted = progress.enforcementStarted := by
  cases op with
  | loadConfig path => exact preparatory.elim
  | isCancelled => cases result <;> exact ⟨rfl, rfl⟩
  | event event => cases event with
    | enforcementStarted => exact preparatory.elim
    | _ => exact ⟨rfl, rfl⟩
  | _ => exact ⟨rfl, rfl⟩

/-- What a concluding call leaves. -/
theorem observe_concluding {plan : EnforcementPlan} (progress : Progress) {op : PortOp}
    (result : op.Result) (concluding : Concluding plan op) :
    (progress.observe op result).config = progress.config := by
  cases op with
  | loadConfig path => exact concluding.elim
  | isCancelled => cases result <;> rfl
  | event event => cases event <;> rfl
  | _ => rfl

/-- Preparatory calls are planned before enforcement. -/
theorem wp_preparatory {prepared : EnforcementPlan → Prop} {program : Workflow α}
    (issues : program.Issues (Preparatory prepared))
    (configured : ∀ plan, prepared plan →
      progress.config.map EnforcementPlan.fromConfig = some plan)
    (outside : progress.enforcementStarted = false) :
    wp anyPorts plannedCalls
      (fun _ last => last.config = progress.config ∧ last.enforcementStarted = false)
      (fun _ _ => True) program progress := by
  induction program generalizing progress with
  | ret value => exact ⟨rfl, outside⟩
  | fail error => trivial
  | spin => trivial
  | call op next ih =>
    rintro result _ rfl
    obtain ⟨config, started⟩ := observe_preparatory progress result issues.1
    refine ⟨?_, ?_⟩
    · cases op with
      | loadConfig path => exact outside
      | loadSource provider context => exact outside
      | ensureArtifacts plan => exact ⟨outside, configured plan issues.1⟩
      | cleanupDisabledIpv6 plan => exact issues.1.elim
      | _ => trivial
    · have rest := ih result (issues.2 result) (by rwa [config]) (started.trans outside)
      rwa [config] at rest

/-- Concluding calls are planned for the plan of the configuration. -/
theorem wp_concluding {plan : EnforcementPlan} {program : Workflow α}
    (issues : program.Issues (Concluding plan))
    (configured : progress.config.map EnforcementPlan.fromConfig = some plan) :
    wp anyPorts plannedCalls (fun _ _ => True) (fun _ _ => True) program progress := by
  induction program generalizing progress with
  | ret value => trivial
  | fail error => trivial
  | spin => trivial
  | call op next ih =>
    rintro result _ rfl
    have config := observe_concluding progress result issues.1
    refine ⟨?_, ih result (issues.2 result) (by rwa [config])⟩
    cases op with
    | loadConfig path => exact issues.1.elim
    | loadSource provider context => exact issues.1.elim
    | ensureArtifacts prepared => exact issues.1.elim
    | cleanupDisabledIpv6 cleaned =>
      obtain ⟨rfl, disabled⟩ := issues.1
      exact ⟨configured, disabled⟩
    | _ => trivial

end Planning

/-! ### What the parts issue -/

section Issued

variable {α : Type} {allowed : PortOp → Prop}

theorem issues_answered {answered : Workflow (Except AppError α)}
    (issues : answered.Issues allowed) : (propagate answered).Issues allowed :=
  issues.bind fun _ => Program.issues_ofExcept _

theorem issues_cancellationCheck (checks : allowed .isCancelled) :
    checkCancelled.Issues allowed := by
  refine (Program.issues_perform checks).bind fun cancelled => ?_
  cases cancelled <;> trivial

theorem issues_reporting (quiet : ∀ op : PortOp, op.reports = true → allowed op)
    {outcome : Except AppError α} {program : Workflow α} (reports : Reports outcome program) :
    program.Issues allowed := by
  induction program with
  | ret value => trivial
  | fail error => trivial
  | spin => trivial
  | call op next ih => exact ⟨quiet op reports.1, fun result => ih result (reports.2 result)⟩

theorem preparatory_of_reports {prepared : EnforcementPlan → Prop} (op : PortOp)
    (reports : op.reports = true) : Preparatory prepared op := by
  cases op with
  | event event => cases event with
    | enforcementStarted => cases reports
    | _ => trivial
  | loadConfig path => cases reports
  | ensureArtifacts plan => cases reports
  | cleanupDisabledIpv6 plan => cases reports
  | _ => trivial

theorem concluding_of_reports {plan : EnforcementPlan} (op : PortOp)
    (reports : op.reports = true) : Concluding plan op := by
  cases op with
  | loadConfig path => cases reports
  | loadSource provider context => cases reports
  | ensureArtifacts plan => cases reports
  | cleanupDisabledIpv6 plan => cases reports
  | _ => trivial

section Before

variable {prepared : EnforcementPlan → Prop}

theorem issues_loadRemaining_preparatory (context : SyncSourceContext)
    (descriptors : List SyncSourceDescriptor) (sources : LoadedSources) :
    (loadRemaining context descriptors sources).Issues (Preparatory prepared) := by
  induction descriptors generalizing sources with
  | nil => trivial
  | cons descriptor rest ih =>
    refine (issues_cancellationCheck trivial).bind fun _ => ?_
    refine (Program.issues_perform trivial).bind fun answer => ?_
    rcases answer with error | loaded
    · dsimp only
      split_ifs
      · exact (issues_reporting preparatory_of_reports (reports_report _)).bind fun _ => ih _
      · trivial
    · exact (issues_reporting preparatory_of_reports (reports_reportAll _)).bind fun _ => ih _

/-- Artifacts are prepared for the plan of the configuration that was read. -/
theorem issues_prepareSources_preparatory {paths : ResolvedPaths} {env : List (String × String)}
    {registry : SyncSourceRegistry} {inputs : LockedInputs} :
    (prepareSources paths env registry inputs).Issues
      (Preparatory fun plan => EnforcementPlan.fromConfig inputs.config = plan) := by
  have quiet := @preparatory_of_reports fun plan => EnforcementPlan.fromConfig inputs.config = plan
  refine (issues_reporting quiet (reports_startStage _)).bind fun _ => ?_
  have prepared : Preparatory (fun plan => EnforcementPlan.fromConfig inputs.config = plan)
      (.ensureArtifacts (EnforcementPlan.fromConfig inputs.config)) := rfl
  refine (issues_answered (Program.issues_perform prepared)).bind fun _ => ?_
  refine (issues_reporting quiet (reports_completeStage _)).bind fun _ => ?_
  refine (issues_reporting quiet (reports_startStage _)).bind fun _ => ?_
  refine (issues_loadRemaining_preparatory _ _ _).bind fun sources => ?_
  refine (issues_reporting quiet (reports_completeStage _)).bind fun _ => ?_
  exact (issues_cancellationCheck trivial).bind fun _ => trivial

end Before

section After

variable {plan : EnforcementPlan}

theorem issues_promotePendingCaches_concluding (pending : List PendingPromotion) :
    (promotePendingCaches pending).Issues (Concluding plan) := by
  refine (issues_reporting concluding_of_reports (reports_startStage _)).bind fun _ => ?_
  refine Program.Issues.bind ?_ fun _ =>
    issues_reporting concluding_of_reports (reports_completeStage _)
  induction pending with
  | nil => trivial
  | cons first rest ih =>
    refine (issues_cancellationCheck trivial).bind fun _ => ?_
    refine (Program.issues_perform trivial).bind fun outcome => ?_
    cases outcome with
    | error source => trivial
    | ok done => exact ih

theorem issues_replaceFamily_concluding (stage : SyncStage) (spec : ManagedSetSpec)
    (family : AddressFamily) (entries : List CanonicalCidr) :
    (replaceFamily stage spec family entries).Issues (Concluding plan) := by
  refine (issues_reporting concluding_of_reports (reports_startStage _)).bind fun _ => ?_
  refine (issues_answered (Program.issues_perform trivial)).bind fun _ => ?_
  refine (Program.issues_perform trivial).bind fun _ => ?_
  exact issues_reporting concluding_of_reports (reports_completeStage _)

theorem issues_activateFirewall_concluding : (activateFirewall plan).Issues (Concluding plan) := by
  refine (issues_reporting concluding_of_reports (reports_startStage _)).bind fun _ => ?_
  refine (issues_answered (Program.issues_perform trivial)).bind fun _ => ?_
  refine (Program.issues_perform trivial).bind fun _ => ?_
  dsimp only
  split_ifs with disabled
  · have cleanup : (cleanupDisabled plan).Issues (Concluding plan) := by
      refine (Program.issues_perform trivial).bind fun _ => ?_
      refine (Program.issues_perform ⟨rfl, by simpa using disabled⟩).bind fun notices => ?_
      refine (issues_reporting concluding_of_reports (reports_reportAll _)).bind fun _ => ?_
      exact Program.issues_perform trivial
    exact cleanup.bind fun _ => issues_reporting concluding_of_reports (reports_completeStage _)
  · exact issues_reporting concluding_of_reports (reports_completeStage _)

theorem issues_applyEnforcement_concluding (ipv4Entries ipv6Entries : List CanonicalCidr) :
    (applyEnforcement plan ipv4Entries ipv6Entries).Issues (Concluding plan) := by
  have last : (do
      replaceFamily .applyIpv4 plan.ipv4 .ipv4 ipv4Entries
      activateFirewall plan).Issues (Concluding plan) :=
    (issues_replaceFamily_concluding _ _ _ _).bind fun _ => issues_activateFirewall_concluding
  refine (Program.issues_perform trivial).bind fun _ => ?_
  dsimp only
  split_ifs
  · exact (issues_replaceFamily_concluding _ _ _ _).bind fun _ => last
  · exact last

theorem issues_savePruned_concluding (path : String) (temporaryBans : TemporaryBans)
    (cutoff : ℕ) : (savePruned path temporaryBans cutoff).Issues (Concluding plan) := by
  rw [savePruned]
  dsimp only
  split_ifs
  · refine (Program.issues_perform trivial).bind fun outcome => ?_
    cases outcome with
    | ok done => trivial
    | error error => exact issues_reporting concluding_of_reports (reports_report _)
  · trivial

/-- Once the sources were read, only the disabled family of this plan is cleaned up. -/
theorem issues_enforceSources_concluding (paths : ResolvedPaths) (inputs : LockedInputs)
    (sources : LoadedSources) :
    (enforceSources paths inputs sources).Issues
      (Concluding (EnforcementPlan.fromConfig inputs.config)) := by
  refine (issues_reporting concluding_of_reports (reports_computeStage _ _)).bind fun decided => ?_
  refine Program.Issues.bind (Program.issues_ofExcept _) fun entries => ?_
  refine (issues_cancellationCheck trivial).bind fun _ => ?_
  refine (issues_promotePendingCaches_concluding _).bind fun _ => ?_
  refine (issues_cancellationCheck trivial).bind fun _ => ?_
  refine (issues_applyEnforcement_concluding _ _).bind fun _ => ?_
  exact (issues_savePruned_concluding _ _ _).bind fun _ => trivial

end After

end Issued

/-! ### The planned workflow -/

section Workflow

variable {α β : Type} {progress : Progress}

/-- A preparatory part that reads no configuration and prepares nothing. -/
theorem wp_preparatory_bind {program : Workflow β} {next : β → Workflow α}
    {returns : α → Progress → Prop} (issues : program.Issues (Preparatory fun _ => False))
    (outside : progress.enforcementStarted = false)
    (continued : ∀ value last, last.config = progress.config → last.enforcementStarted = false →
      wp anyPorts plannedCalls returns (fun _ _ => True) (next value) last) :
    wp anyPorts plannedCalls returns (fun _ _ => True) (program >>= next) progress := by
  rw [wp_bind]
  refine wp_mono (wp_preparatory issues (fun _ => False.elim) outside) ?_ fun _ _ => id
  rintro value last ⟨config, started⟩
  exact continued value last config started

theorem wp_readLockedInputs_planned {paths : ResolvedPaths}
    (outside : progress.enforcementStarted = false) :
    wp anyPorts plannedCalls
      (fun inputs last => last.config = some inputs.config ∧ last.enforcementStarted = false)
      (fun _ _ => True) (readLockedInputs paths) progress := by
  have checks : checkCancelled.Issues (Preparatory fun _ => False) :=
    issues_cancellationCheck trivial
  refine wp_preparatory_bind (issues_answered (Program.issues_perform trivial)) outside
    fun cutoff _ _ outside => ?_
  refine wp_preparatory_bind checks outside fun _ _ _ outside => ?_
  rw [wp_bind, wp_propagate]
  refine wp_callPort.mpr fun loaded => ⟨outside, ?_⟩
  cases loaded with
  | error error => trivial
  | ok config =>
    refine wp_preparatory_bind checks outside fun _ first sameFirst outside => ?_
    refine wp_preparatory_bind (issues_answered (Program.issues_perform trivial)) outside
      fun _ second sameSecond outside => ?_
    refine wp_preparatory_bind checks outside fun _ third sameThird outside => ?_
    refine wp_preparatory_bind (issues_answered (Program.issues_perform trivial)) outside
      fun bans fourth sameFourth outside => ?_
    have configured : fourth.config = some config := by
      rw [sameFourth, sameThird, sameSecond, sameFirst]
      rfl
    split_ifs
    · exact wp_preparatory_bind (issues_reporting preparatory_of_reports (reports_report _)) outside
        fun _ _ same outside => ⟨same.trans configured, outside⟩
    · exact ⟨configured, outside⟩

theorem wp_executeLocked_planned {paths : ResolvedPaths} {env : List (String × String)}
    {registry : SyncSourceRegistry} (outside : progress.enforcementStarted = false) :
    wp anyPorts plannedCalls (fun _ _ => True) (fun _ _ => True) (executeLocked paths env registry)
      progress := by
  rw [executeLocked]
  refine wp_preparatory_bind (issues_reporting preparatory_of_reports (reports_completeStage _))
    outside fun _ _ _ outside => ?_
  rw [wp_bind]
  refine wp_mono (wp_readLockedInputs_planned outside) ?_ fun _ _ => id
  rintro inputs read ⟨configured, outside⟩
  have planned : ∀ plan, EnforcementPlan.fromConfig inputs.config = plan →
      read.config.map EnforcementPlan.fromConfig = some plan := by
    rintro _ rfl
    rw [configured]
    rfl
  rw [wp_bind]
  refine wp_mono (wp_preparatory issues_prepareSources_preparatory planned outside) ?_
    fun _ _ => id
  rintro sources last ⟨config, _⟩
  refine wp_concluding (issues_enforceSources_concluding paths inputs sources) ?_
  rw [config]
  exact planned _ rfl

/-- Every call of the workflow is planned. -/
theorem wp_execute_planned (request : PathResolutionInput) (registry : SyncSourceRegistry) :
    wp anyPorts plannedCalls (fun _ _ => True) (fun _ _ => True) (execute request registry)
      .start := by
  have checks : checkCancelled.Issues (Preparatory fun _ => False) :=
    issues_cancellationCheck trivial
  have starts (stage : SyncStage) : (startStage stage).Issues (Preparatory fun _ => False) :=
    issues_reporting preparatory_of_reports (reports_startStage stage)
  have completes (stage : SyncStage) : (completeStage stage).Issues (Preparatory fun _ => False) :=
    issues_reporting preparatory_of_reports (reports_completeStage stage)
  rw [execute]
  refine wp_preparatory_bind checks rfl fun _ _ _ outside => ?_
  refine wp_preparatory_bind (starts _) outside fun _ _ _ outside => ?_
  refine wp_preparatory_bind (issues_answered (Program.issues_perform trivial)) outside
    fun paths _ _ outside => ?_
  refine wp_preparatory_bind (completes _) outside fun _ _ _ outside => ?_
  refine wp_preparatory_bind checks outside fun _ _ _ outside => ?_
  refine wp_preparatory_bind (starts _) outside fun _ _ _ outside => ?_
  rw [wp_bind, wp_propagate]
  refine wp_callPort.mpr fun loaded => ⟨outside, ?_⟩
  cases loaded with
  | error error => trivial
  | ok config =>
    refine wp_preparatory_bind (completes _) outside fun _ _ _ outside => ?_
    refine wp_preparatory_bind checks outside fun _ _ _ outside => ?_
    refine wp_preparatory_bind (starts _) outside fun _ _ _ outside => ?_
    rw [withLock, withGuard]
    refine wp_preparatory_bind (issues_answered (Program.issues_perform trivial)) outside
      fun _ _ _ outside => ?_
    rw [wp_bind, wp_attempt]
    -- The guard is dropped however the locked part ends.
    refine wp_mono (wp_executeLocked_planned outside) ?_ ?_
    · intro outcome last _
      rw [wp_bind]
      exact wp_callPort.mpr fun _ => ⟨trivial, trivial⟩
    · intro error last _
      rw [wp_bind]
      exact wp_callPort.mpr fun _ => ⟨trivial, trivial⟩

end Workflow

end Kidobo.Sync
