import Kidobo.App.Preview
import Kidobo.App.SyncPlan

/-!
# Preview and sync decide alike

Both workflows are compared with one planned outcome, a function of the inputs
they share. The preview ends with exactly that outcome; the sync starts
enforcement exactly when there is one, and enforces its entries.

## Main definitions

* `PlanInputs`, `PreviewSees`, `SyncSees`: the shared inputs and who sees them
* `plannedOutcome`: what both workflows decide

## Main results

* `ends_previewExecute`, `ends_syncExecute`
* `preview_refines_sync`
-/

namespace Kidobo

open Foundation

/-! ### Shared inputs -/

/-- The inputs of a plan: paths, cutoff, configuration, temporary bans, sources. -/
structure PlanInputs where
  paths : Except AppError ResolvedPaths
  cutoff : Except AppError ℕ
  config : Config
  temporaryBans : Except AppError TemporaryBans
  load : SyncSourceDescriptor → Except AppError PreviewSourceLoad

/-- The same primary and fallback batches and observations without a staging
failure, or the same error. -/
def SameLoad : Except AppError SyncSourceLoad → Except AppError PreviewSourceLoad → Prop
  | .ok loaded, .ok batch => loaded.primary = batch.primary ∧ loaded.fallback = batch.fallback ∧
      loaded.observations = batch.observations ∧ loaded.fallbackFailure = none
  | .error error, .error other => error = other
  | _, _ => False

/-- The ports of a preview that is not cancelled. -/
structure PreviewReads (inputs : PlanInputs) (answer : Answers) : Prop where
  uncancelled : ∀ progress, answer progress .isCancelled = false
  paths : ∀ progress input, answer progress (.resolvePaths input .required) = inputs.paths
  cutoff : ∀ progress, answer progress .nowUnixSecs = inputs.cutoff
  config : ∀ progress path, answer progress (.loadConfig path) = .ok inputs.config
  temporaryBans : ∀ progress path,
    answer progress (.loadTemporaryBans path) = inputs.temporaryBans
  loads : ∀ progress provider context allowNetwork,
    answer progress (.loadPreviewSource provider context allowNetwork) = inputs.load provider

/-- The preview also gets its shared lock. -/
structure PreviewSees (inputs : PlanInputs) (answer : Answers) : Prop
    extends PreviewReads inputs answer where
  locked : ∀ progress path, answer progress (.acquireExistingLock path) = .ok ()

/-- The ports of a sync that is not cancelled and whose lock, storage, artifacts
and promotions succeed. Replacement, activation and saving may fail. -/
structure SyncSees (inputs : PlanInputs) (answer : Answers) : Prop where
  uncancelled : ∀ progress, answer progress .isCancelled = false
  paths : ∀ progress input, answer progress (.resolvePaths input .required) = inputs.paths
  locked : ∀ progress path, answer progress (.acquireLock path) = .ok ()
  cutoff : ∀ progress, answer progress .nowUnixSecs = inputs.cutoff
  config : ∀ progress path, answer progress (.loadConfig path) = .ok inputs.config
  stored : ∀ progress path, answer progress (.prepareRemoteCache path) = .ok ()
  temporaryBans : ∀ progress path,
    answer progress (.loadTemporaryBans path) = inputs.temporaryBans
  prepared : ∀ progress plan, answer progress (.ensureArtifacts plan) = .ok ()
  loads : ∀ progress provider context,
    SameLoad (answer progress (.loadSource provider context)) (inputs.load provider)
  promoted : ∀ progress promotion, answer progress (.promote promotion) = .ok ()

/-! ### The planned outcome -/

/-- Take the loads of the remaining providers in registry order. -/
def plannedSources (load : SyncSourceDescriptor → Except AppError PreviewSourceLoad) :
    List SyncSourceDescriptor → Preview.LoadedSources → Except AppError Preview.LoadedSources
  | [], sources => .ok sources
  | descriptor :: rest, sources =>
    match load descriptor with
    | .ok batch => plannedSources load rest (sources.accept descriptor batch)
    | .error error =>
      if classifySourceFailure descriptor.failurePolicy error = .degraded then
        plannedSources load rest (sources.degrade descriptor error)
      else .error error

/-- Admit the external safelists one after another. -/
def plannedAdmission (candidates : List CanonicalCidr) (enableIpv6 : Bool)
    (baseline : EffectiveBlocklists) (externals : List Preview.ExternalSafelist)
    (admitted : Preview.Admitted) : Preview.Admitted :=
  externals.foldl (fun admitted external =>
    Preview.admitOne candidates enableIpv6 baseline external admitted) admitted

/-- The safelist, summaries and notices left by admission. -/
def plannedSafelist (enableIpv6 : Bool) (sources : Preview.LoadedSources) : Preview.Admitted :=
  let candidates := sortedUnique sources.candidates
  let safelist := sortedUnique sources.safelist
  let admitted := plannedAdmission candidates enableIpv6
    (computeEffectiveBlocklists candidates safelist enableIpv6) sources.externalSafelists
    ⟨safelist, sources.summaries, sources.notices⟩
  { admitted with safelist := sortedUnique admitted.safelist }

/-- The effective networks of the loaded sources. -/
def plannedEffective (enableIpv6 : Bool) (sources : Preview.LoadedSources) : EffectiveBlocklists :=
  computeEffectiveBlocklists (sortedUnique sources.candidates)
    (plannedSafelist enableIpv6 sources).safelist enableIpv6

/-- The outcome planned from the loaded sources. -/
def plannedFrom (config : Config) (allowNetwork : Bool) (sources : Preview.LoadedSources) :
    Except AppError Preview.PreviewOutcome := do
  let admitted := plannedSafelist config.ipset.enableIpv6 sources
  let entries ← prepareSyncEntries (plannedEffective config.ipset.enableIpv6 sources)
    (EnforcementPlan.fromConfig config)
  return ⟨entries, config.ipset.enableIpv6, admitted.summaries, admitted.notices, allowNetwork⟩

/-- The outcome planned from the inputs. -/
def plannedOutcome (inputs : PlanInputs) (allowNetwork : Bool) (registry : SyncSourceRegistry) :
    Except AppError Preview.PreviewOutcome := do
  let _ ← inputs.paths
  let cutoff ← inputs.cutoff
  let temporaryBans ← inputs.temporaryBans
  let sources ← plannedSources inputs.load registry.providers .empty
  plannedFrom inputs.config allowNetwork
    { sources with
      notices := Preview.noticesWithTimeout inputs.config temporaryBans cutoff sources.notices }

/-! ### Ending like an outcome -/

/-- Enforcement has not started and no set was replaced. -/
structure Untouched (progress : Progress) : Prop where
  enforcementStarted : progress.enforcementStarted = false
  replacements : progress.replacements = []

theorem untouched_loadConfig {progress : Progress} (untouched : Untouched progress) {path : String}
    (result : Except AppError Config) : Untouched (progress.observe (.loadConfig path) result) := by
  cases result with
  | ok config => exact ⟨untouched.enforcementStarted, untouched.replacements⟩
  | error error => exact untouched

/-- The one run ends with a value related to the outcome or with its error, and
before enforcement. -/
def EndsLike {α β : Type} (answer : Answers) (related : α → β → Prop)
    (outcome : Except AppError β) (program : Workflow α) (progress : Progress) : Prop :=
  Ends (answeringPorts answer)
    (fun value last => Untouched last ∧ ∃ other, outcome = .ok other ∧ related value other)
    (fun error last => Untouched last ∧ outcome = .error error) program progress

/-- The one run ends with this outcome, and before enforcement. -/
abbrev EndsAs {α : Type} (answer : Answers) (outcome : Except AppError α) (program : Workflow α)
    (progress : Progress) : Prop :=
  EndsLike answer Eq outcome program progress

section Endings

variable {answer : Answers} {α β γ δ : Type} {progress : Progress} {related : α → β → Prop}
  {relatedNext : γ → δ → Prop}

theorem endsLike_ok {value : α} {other : β} (untouched : Untouched progress)
    (same : related value other) : EndsLike answer related (.ok other) (pure value) progress :=
  ⟨untouched, other, rfl, same⟩

theorem endsLike_bind {first : Except AppError β} {second : β → Except AppError δ}
    {program : Workflow α} {next : α → Workflow γ}
    (begins : EndsLike answer related first program progress)
    (continues : ∀ value other last, Untouched last → related value other →
      EndsLike answer relatedNext (second other) (next value) last) :
    EndsLike answer relatedNext (first >>= second) (program >>= next) progress := by
  rw [EndsLike, ends_bind]
  refine Ends.mono begins ?_ ?_
  · intro value last ended
    obtain ⟨untouched, other, decided, same⟩ := ended
    rw [decided]
    exact continues value other last untouched same
  · intro error last ended
    rw [ended.2]
    exact ⟨ended.1, rfl⟩

/-- A first part whose value is known hands it on. -/
theorem endsLike_bind_ok {value : α} {outcome : Except AppError δ} {program : Workflow α}
    {next : α → Workflow γ} (begins : EndsAs answer (.ok value) program progress)
    (continues : ∀ last, Untouched last → EndsLike answer relatedNext outcome (next value) last) :
    EndsLike answer relatedNext outcome (program >>= next) progress := by
  rw [EndsLike, ends_bind]
  refine Ends.mono begins ?_ fun _ _ never => nomatch never.2
  intro returned last ended
  obtain ⟨untouched, other, known, same⟩ := ended
  obtain rfl := Except.ok.inj known
  rw [same]
  exact continues last untouched

theorem endsAs_ofExcept (untouched : Untouched progress) (outcome : Except AppError α) :
    EndsAs answer outcome (.ofExcept outcome) progress := by
  unfold EndsAs EndsLike
  rw [ends_ofExcept]
  cases outcome with
  | ok value => exact ⟨untouched, value, rfl, rfl⟩
  | error error => exact ⟨untouched, rfl⟩

theorem endsAs_ask {outcome : Except AppError α} {answered : Workflow (Except AppError α)}
    (asked : Ends (answeringPorts answer) (fun result last => result = outcome ∧ Untouched last)
      (fun _ _ => False) answered progress) : EndsAs answer outcome (propagate answered) progress := by
  unfold EndsAs EndsLike
  rw [ends_propagate]
  refine asked.mono ?_ fun _ _ never => never.elim
  intro result last answered
  obtain ⟨same, untouched⟩ := answered
  rw [same]
  cases outcome with
  | ok value => exact ⟨untouched, value, rfl, rfl⟩
  | error error => exact ⟨untouched, rfl⟩

/-- Reporting and a negative cancellation check come before the rest. -/
theorem endsLike_checkCancelled {outcome : Except AppError δ} {next : Unit → Workflow γ}
    (uncancelled : ∀ progress, answer progress .isCancelled = false)
    (continued : EndsLike answer relatedNext outcome (next ()) progress) :
    EndsLike answer relatedNext outcome (checkCancelled >>= next) progress :=
  ends_checkCancelled (uncancelled progress) continued

theorem endsAs_of_reports {outcome : Except AppError α} {program : Workflow α}
    (untouched : Untouched progress) (reports : Reports outcome program) :
    EndsAs answer outcome program progress := by
  refine ends_of_reports reports ?_
  cases outcome with
  | ok value => exact ⟨untouched, value, rfl, rfl⟩
  | error error => exact ⟨untouched, rfl⟩

end Endings

/-! ### The preview ends with the planned outcome -/

section PreviewEnds

variable {inputs : PlanInputs} {answer : Answers} {progress : Progress}
  (sees : PreviewSees inputs answer)

include sees

theorem endsAs_previewLoads (context : SyncSourceContext) (allowNetwork : Bool)
    (descriptors : List SyncSourceDescriptor) (sources : Preview.LoadedSources)
    (untouched : Untouched progress) :
    EndsAs answer (plannedSources inputs.load descriptors sources)
      (Preview.loadRemaining context allowNetwork descriptors sources) progress := by
  induction descriptors generalizing sources progress with
  | nil => exact endsLike_ok untouched rfl
  | cons descriptor rest ih =>
    rw [Preview.loadRemaining, plannedSources]
    refine endsLike_checkCancelled sees.uncancelled ?_
    unfold EndsLike
    rw [ends_bind]
    refine (ends_callPort _).mpr ?_
    rw [sees.loads]
    cases inputs.load descriptor with
    | ok batch => exact ih (sources.accept descriptor batch) untouched
    | error error =>
      dsimp only
      split_ifs
      · exact ih (sources.degrade descriptor error) untouched
      · exact ⟨untouched, rfl⟩

theorem endsAs_previewAdmission (candidates : List CanonicalCidr) (enableIpv6 : Bool)
    (baseline : EffectiveBlocklists) (externals : List Preview.ExternalSafelist)
    (admitted : Preview.Admitted) (untouched : Untouched progress) :
    EndsAs answer (.ok (plannedAdmission candidates enableIpv6 baseline externals admitted))
      (Preview.admitRemaining candidates enableIpv6 baseline externals admitted) progress := by
  induction externals generalizing admitted with
  | nil => exact endsLike_ok untouched rfl
  | cons external rest ih => exact endsLike_checkCancelled sees.uncancelled (ih _)

theorem endsAs_planSources (allowNetwork : Bool) (sources : Preview.LoadedSources)
    (untouched : Untouched progress) :
    EndsAs answer (plannedFrom inputs.config allowNetwork sources)
      (Preview.planSources inputs.config allowNetwork sources) progress := by
  refine endsLike_checkCancelled sees.uncancelled ?_
  have admitted : EndsAs answer
      (.ok (plannedSafelist inputs.config.ipset.enableIpv6 sources))
      (Preview.admitExternalSafelists (sortedUnique sources.candidates)
        (sortedUnique sources.safelist) sources.externalSafelists
        inputs.config.ipset.enableIpv6 sources.summaries sources.notices) progress :=
    endsLike_bind_ok (endsAs_previewAdmission sees _ _ _ _ _ untouched) fun _ untouched =>
      endsLike_ok untouched rfl
  refine endsLike_bind_ok admitted fun last untouched => ?_
  refine endsLike_bind (endsAs_ofExcept untouched _) ?_
  rintro entries _ last untouched rfl
  exact endsLike_checkCancelled sees.uncancelled (endsLike_ok untouched rfl)

/-- The preview ends with the planned outcome. -/
theorem endsAs_previewExecute (request : Preview.PreviewRequest) (registry : SyncSourceRegistry)
    (untouched : Untouched progress) :
    EndsAs answer (plannedOutcome inputs request.allowNetwork registry)
      (Preview.execute request registry) progress := by
  refine endsLike_checkCancelled sees.uncancelled ?_
  refine endsLike_bind (endsAs_ask ⟨sees.paths _ _, untouched⟩) ?_
  rintro paths _ last untouched rfl
  refine ends_withGuard (Ends.mono (endsAs_ask ⟨sees.locked _ _, untouched⟩) ?_
    fun _ _ never => nomatch never.2)
  rintro _ last ⟨untouched, -⟩
  refine endsLike_checkCancelled sees.uncancelled ?_
  refine endsLike_bind (endsAs_ask ⟨sees.cutoff _, untouched⟩) ?_
  rintro cutoff _ last untouched rfl
  refine endsLike_bind_ok (endsAs_ask ⟨sees.config _ _, untouched_loadConfig untouched _⟩) ?_
  intro last untouched
  refine endsLike_checkCancelled sees.uncancelled ?_
  refine endsLike_bind (endsAs_ask ⟨sees.temporaryBans _ _, untouched⟩) ?_
  rintro temporaryBans _ last untouched rfl
  refine endsLike_bind (endsAs_previewLoads sees _ _ _ _ untouched) ?_
  rintro sources _ last untouched rfl
  exact endsAs_planSources sees _ _ untouched

end PreviewEnds

/-! ### The sync loads and admits alike -/

/-- The same external safelist, without a failure attached to its fallback. -/
structure SameExternal (external : Sync.LoadedExternalSafelist) (other : Preview.ExternalSafelist) :
    Prop where
  provider : external.provider = other.provider
  primary : external.primary = other.primary
  fallback : external.fallback = other.fallback
  summaryIndex : external.summaryIndex = other.summaryIndex
  noFailure : external.fallbackFailure = none

/-- The same contributions of the sources. -/
structure SameSources (sources : Sync.LoadedSources) (other : Preview.LoadedSources) : Prop where
  candidates : sources.candidates = other.candidates
  safelist : sources.safelist = other.safelist
  externalSafelists : List.Forall₂ SameExternal sources.externalSafelists other.externalSafelists
  summaries : sources.summaries = other.summaries

theorem SameSources.contribute {sources : Sync.LoadedSources} {other : Preview.LoadedSources}
    (same : SameSources sources other) (descriptor : SyncSourceDescriptor) {loaded : SyncSourceLoad}
    {batch : PreviewSourceLoad} (sameLoad : SameLoad (.ok loaded) (.ok batch)) :
    SameSources (sources.contribute descriptor loaded) (other.contribute descriptor batch) := by
  obtain ⟨primary, fallback, -, noFailure⟩ := sameLoad
  unfold Sync.LoadedSources.contribute Preview.LoadedSources.contribute
  cases descriptor.role with
  | candidate =>
    exact ⟨by rw [same.candidates, primary], same.safelist, same.externalSafelists, same.summaries⟩
  | safelist =>
    exact ⟨same.candidates, by rw [same.safelist, primary], same.externalSafelists, same.summaries⟩
  | externalSafelist =>
    have added : SameExternal
        ⟨descriptor.id, loaded.primary, loaded.fallback, loaded.pendingPromotions,
          sources.summaries.length, loaded.fallbackFailure⟩
        ⟨descriptor.id, batch.primary, batch.fallback, other.summaries.length⟩ :=
      ⟨rfl, primary, fallback, congrArg List.length same.summaries, noFailure⟩
    exact ⟨same.candidates, same.safelist,
      List.rel_append same.externalSafelists (List.Forall₂.cons added List.Forall₂.nil),
      same.summaries⟩

theorem SameSources.accept {sources : Sync.LoadedSources} {other : Preview.LoadedSources}
    (same : SameSources sources other) (descriptor : SyncSourceDescriptor) {loaded : SyncSourceLoad}
    {batch : PreviewSourceLoad} (sameLoad : SameLoad (.ok loaded) (.ok batch)) :
    SameSources (sources.accept descriptor loaded) (other.accept descriptor batch) := by
  have noted : SameSources sources { other with notices := other.notices ++ batch.primary.notices } :=
    ⟨same.candidates, same.safelist, same.externalSafelists, same.summaries⟩
  have contributed := noted.contribute descriptor sameLoad
  obtain ⟨primary, -, observations, -⟩ := sameLoad
  refine ⟨contributed.candidates, contributed.safelist, contributed.externalSafelists, ?_⟩
  simp only [Sync.LoadedSources.accept, Preview.LoadedSources.accept, Sync.observationsOrLocal]
  rw [contributed.summaries, primary, observations]

theorem SameSources.degrade {sources : Sync.LoadedSources} {other : Preview.LoadedSources}
    (same : SameSources sources other) (descriptor : SyncSourceDescriptor) (error : AppError) :
    SameSources (sources.degrade descriptor) (other.degrade descriptor error) :=
  ⟨same.candidates, same.safelist, same.externalSafelists, by
    rw [Sync.LoadedSources.degrade, Preview.LoadedSources.degrade, same.summaries]⟩

section Admission

variable {candidates : List CanonicalCidr} {enableIpv6 : Bool} {baseline : EffectiveBlocklists}

/-- One admission leaves the same safelist and summaries in both workflows. -/
theorem admissionStep_same {external : Sync.LoadedExternalSafelist}
    {other : Preview.ExternalSafelist} (same : SameExternal external other)
    {admitted : Sync.Admitted} {shown : Preview.Admitted}
    (safelist : admitted.safelist = shown.safelist)
    (summaries : admitted.summaries = shown.summaries) :
    ∃ next, Sync.admissionStep candidates enableIpv6 baseline admitted external = .ok next ∧
      next.safelist = (Preview.admitOne candidates enableIpv6 baseline other shown).safelist ∧
      next.summaries = (Preview.admitOne candidates enableIpv6 baseline other shown).summaries := by
  obtain ⟨provider, primary, fallback, summaryIndex, noFailure⟩ := same
  have selection : external.selection candidates admitted.safelist enableIpv6 baseline =
      selectExternalSafelist candidates shown.safelist other.primary.networks
        (other.fallback.map SyncSourceBatch.networks) enableIpv6 baseline := by
    rw [Sync.LoadedExternalSafelist.selection, safelist, primary, fallback]
  have withdrawn : admitted.withdrawOrFail external = .ok (admitted.withdraw external) := by
    rw [Sync.Admitted.withdrawOrFail, noFailure]
  have withdrawnSummaries : (admitted.withdraw external).summaries =
      shown.summaries.modify other.summaryIndex Sync.SourceSummary.withdrawn := by
    rw [Sync.Admitted.withdraw, summaries, summaryIndex]
  unfold Sync.admissionStep Preview.admitOne
  rw [selection, fallback]
  cases selectExternalSafelist candidates shown.safelist other.primary.networks
      (other.fallback.map SyncSourceBatch.networks) enableIpv6 baseline with
  | primary => exact ⟨_, rfl, by simp [Sync.Admitted.usePrimary, safelist, primary], summaries⟩
  | fallback =>
    cases other.fallback with
    | none => exact ⟨_, withdrawn, safelist, by rw [withdrawnSummaries]; rfl⟩
    | some batch =>
      refine ⟨_, rfl, ?_, ?_⟩
      · exact congrArg (· ++ batch.networks) safelist
      · rw [Sync.Admitted.useFallback, summaries, summaryIndex]
        rfl
  | unavailable =>
    cases other.fallback with
    | none => exact ⟨_, withdrawn, safelist, by rw [withdrawnSummaries]; rfl⟩
    | some batch => exact ⟨_, withdrawn, safelist, by rw [withdrawnSummaries]; rfl⟩

theorem admissionFrom_same {externals : List Sync.LoadedExternalSafelist}
    {others : List Preview.ExternalSafelist} (same : List.Forall₂ SameExternal externals others)
    {admitted : Sync.Admitted} {shown : Preview.Admitted}
    (safelist : admitted.safelist = shown.safelist)
    (summaries : admitted.summaries = shown.summaries) :
    ∃ last, Sync.admissionFrom candidates enableIpv6 baseline externals admitted = .ok last ∧
      last.safelist = (plannedAdmission candidates enableIpv6 baseline others shown).safelist ∧
      last.summaries = (plannedAdmission candidates enableIpv6 baseline others shown).summaries := by
  induction same generalizing admitted shown with
  | nil => exact ⟨admitted, rfl, safelist, summaries⟩
  | cons first _ ih =>
    obtain ⟨next, decided, nextSafelist, nextSummaries⟩ := admissionStep_same first safelist summaries
    rw [Sync.admissionFrom, decided]
    exact ih nextSafelist nextSummaries

end Admission

/-- The sync computes the planned networks, safelist and summaries. -/
theorem computePlan_same {sources : Sync.LoadedSources} {other : Preview.LoadedSources}
    (same : SameSources sources other) (plan : EnforcementPlan) :
    ∃ admitted, Sync.computePlan plan sources =
        .ok (plannedEffective plan.enableIpv6 other, admitted) ∧
      admitted.summaries = (plannedSafelist plan.enableIpv6 other).summaries := by
  obtain ⟨admitted, decided, safelist, summaries⟩ :=
    @admissionFrom_same (sortedUnique other.candidates) plan.enableIpv6
      (computeEffectiveBlocklists (sortedUnique other.candidates) (sortedUnique other.safelist)
        plan.enableIpv6) _ _ same.externalSafelists
      ⟨sortedUnique other.safelist, sources.pendingPromotions, other.summaries⟩
      ⟨sortedUnique other.safelist, other.summaries, other.notices⟩ rfl rfl
  refine ⟨{ admitted with safelist := sortedUnique admitted.safelist }, ?_, summaries⟩
  simp only [Sync.computePlan, Sync.admission, same.candidates, same.safelist, same.summaries]
  rw [decided]
  simp only [Except.map, plannedEffective, plannedSafelist, safelist]

section SyncPlans

variable {inputs : PlanInputs} {answer : Answers} {progress : Progress}
  (sees : SyncSees inputs answer)

include sees

theorem endsLike_syncLoads (context : SyncSourceContext) (descriptors : List SyncSourceDescriptor)
    {sources : Sync.LoadedSources} {other : Preview.LoadedSources} (same : SameSources sources other)
    (untouched : Untouched progress) :
    EndsLike answer SameSources (plannedSources inputs.load descriptors other)
      (Sync.loadRemaining context descriptors sources) progress := by
  induction descriptors generalizing sources other progress with
  | nil => exact endsLike_ok untouched same
  | cons descriptor rest ih =>
    rw [Sync.loadRemaining, plannedSources]
    refine endsLike_checkCancelled sees.uncancelled ?_
    have recorded : ∀ answered, Untouched
        (progress.observe (.loadSource descriptor context) answered) :=
      fun _ => ⟨untouched.enforcementStarted, untouched.replacements⟩
    have sameLoad := sees.loads progress descriptor context
    rw [EndsLike, ends_bind]
    refine (ends_callPort _).mpr ?_
    generalize answer progress (.loadSource descriptor context) = answered at sameLoad
    cases answered with
    | ok loaded =>
      cases planned : inputs.load descriptor with
      | error error =>
        rw [planned] at sameLoad
        exact False.elim sameLoad
      | ok batch =>
        rw [planned] at sameLoad
        exact endsLike_bind_ok (endsAs_of_reports (recorded _) (reports_reportAll _))
          fun _ untouched => ih (same.accept descriptor sameLoad) untouched
    | error error =>
      cases planned : inputs.load descriptor with
      | ok batch =>
        rw [planned] at sameLoad
        exact False.elim sameLoad
      | error other =>
        rw [planned] at sameLoad
        obtain rfl : error = other := sameLoad
        dsimp only
        split_ifs
        · exact endsLike_bind_ok (endsAs_of_reports (recorded _) (reports_report _))
            fun _ untouched => ih (same.degrade descriptor error) untouched
        · exact ⟨recorded _, rfl⟩

theorem endsLike_prepareSources (paths : ResolvedPaths) (env : List (String × String))
    (registry : SyncSourceRegistry) (locked : Sync.LockedInputs) (untouched : Untouched progress) :
    EndsLike answer SameSources (plannedSources inputs.load registry.providers .empty)
      (Sync.prepareSources paths env registry locked) progress := by
  refine endsLike_bind_ok (endsAs_of_reports untouched (reports_startStage _)) fun _ untouched => ?_
  refine endsLike_bind_ok (endsAs_ask ⟨sees.prepared _ _, untouched⟩) fun _ untouched => ?_
  refine endsLike_bind_ok (endsAs_of_reports untouched (reports_completeStage _))
    fun _ untouched => ?_
  refine endsLike_bind_ok (endsAs_of_reports untouched (reports_startStage _)) fun _ untouched => ?_
  have nothing : SameSources .empty .empty := ⟨rfl, rfl, List.Forall₂.nil, rfl⟩
  rw [← bind_pure (plannedSources _ _ _)]
  refine endsLike_bind (endsLike_syncLoads sees _ _ nothing untouched) ?_
  intro sources other last untouched same
  refine endsLike_bind_ok (endsAs_of_reports untouched (reports_completeStage _))
    fun _ untouched => ?_
  exact endsLike_checkCancelled sees.uncancelled (endsLike_ok untouched same)

/-- The cutoff and the temporary bans of the inputs. -/
def lockedInputs (inputs : PlanInputs) : Except AppError Sync.LockedInputs := do
  let cutoff ← inputs.cutoff
  let temporaryBans ← inputs.temporaryBans
  return ⟨cutoff, inputs.config, temporaryBans⟩

theorem endsLike_readLockedInputs (paths : ResolvedPaths) (untouched : Untouched progress) :
    EndsLike answer (fun locked other => locked = other ∧ locked.config = inputs.config)
      (lockedInputs inputs) (Sync.readLockedInputs paths) progress := by
  refine endsLike_bind (endsAs_ask ⟨sees.cutoff _, untouched⟩) ?_
  rintro cutoff _ last untouched rfl
  refine endsLike_checkCancelled sees.uncancelled ?_
  refine endsLike_bind_ok (endsAs_ask ⟨sees.config _ _, untouched_loadConfig untouched _⟩)
    fun _ untouched => ?_
  refine endsLike_checkCancelled sees.uncancelled ?_
  refine endsLike_bind_ok (endsAs_ask ⟨sees.stored _ _, untouched⟩) fun _ untouched => ?_
  refine endsLike_checkCancelled sees.uncancelled ?_
  refine endsLike_bind (endsAs_ask ⟨sees.temporaryBans _ _, untouched⟩) ?_
  rintro temporaryBans _ last untouched rfl
  split_ifs
  · exact endsLike_bind_ok (endsAs_of_reports untouched (reports_report _))
      fun _ untouched => endsLike_ok untouched ⟨rfl, rfl⟩
  · exact endsLike_ok untouched ⟨rfl, rfl⟩

theorem endsAs_promotePendingCaches (pending : List Sync.PendingPromotion)
    (untouched : Untouched progress) :
    EndsAs answer (.ok ()) (Sync.promotePendingCaches pending) progress := by
  have promoted : ∀ {progress : Progress}, Untouched progress →
      EndsAs answer (.ok ()) (Sync.promoteRemaining pending) progress := by
    induction pending with
    | nil => exact fun untouched => endsLike_ok untouched rfl
    | cons next rest ih =>
      intro progress untouched
      refine endsLike_checkCancelled sees.uncancelled ?_
      have recorded : Untouched
          (progress.observe (.promote next.promotion) (answer progress (.promote next.promotion))) :=
        ⟨untouched.enforcementStarted, untouched.replacements⟩
      rw [EndsLike, ends_bind]
      refine (ends_callPort _).mpr ?_
      rw [sees.promoted] at recorded ⊢
      exact ih recorded
  refine endsLike_bind_ok (endsAs_of_reports untouched (reports_startStage _)) fun _ untouched => ?_
  refine endsLike_bind_ok (promoted untouched) fun _ untouched => ?_
  exact endsAs_of_reports untouched (reports_completeStage _)

end SyncPlans

/-! ### The sync enforces the planned outcome -/

/-- The entry lists of the enabled families, in the order they are enforced. -/
def outcomeSets (outcome : Preview.PreviewOutcome) : List (AddressFamily × List CanonicalCidr) :=
  (if outcome.enableIpv6 then [(.ipv6, outcome.entries.ipv6)] else []) ++
    [(.ipv4, outcome.entries.ipv4)]

/-- The families and entry lists handed to set replacement so far. -/
def replacedSets (progress : Progress) : List (AddressFamily × List CanonicalCidr) :=
  progress.replacements.map fun replacement => (replacement.1.family, replacement.2.1)

/-- Enforcement started, and exactly the entry lists of the outcome were handed
to set replacement: in order, and all of them unless one replacement failed. -/
structure Enforced (outcome : Preview.PreviewOutcome) (progress : Progress) : Prop where
  started : progress.enforcementStarted = true
  inOrder : replacedSets progress <+: outcomeSets outcome
  complete : (∀ replacement ∈ progress.replacements, replacement.2.2 = true) →
    replacedSets progress = outcomeSets outcome

/-- The one run enforces a planned outcome and reports its summaries, or fails
with the planned error before enforcement. -/
def Enforces (answer : Answers) (planned : Except AppError Preview.PreviewOutcome)
    (program : Workflow Sync.SyncOutcome) (progress : Progress) : Prop :=
  Ends (answeringPorts answer)
    (fun result last => ∃ outcome, planned = .ok outcome ∧ Enforced outcome last ∧
      result.sources = outcome.sources)
    (fun error last => (planned = .error error ∧ Untouched last) ∨
      ∃ outcome, planned = .ok outcome ∧ Enforced outcome last)
    program progress

section Enforcing

variable {answer : Answers} {α β : Type} {progress : Progress} {related : α → β → Prop}

theorem enforces_bind {first : Except AppError β}
    {second : β → Except AppError Preview.PreviewOutcome} {program : Workflow α}
    {next : α → Workflow Sync.SyncOutcome}
    (begins : EndsLike answer related first program progress)
    (continues : ∀ value other last, Untouched last → related value other →
      Enforces answer (second other) (next value) last) :
    Enforces answer (first >>= second) (program >>= next) progress := by
  rw [Enforces, ends_bind]
  refine Ends.mono begins ?_ ?_
  · intro value last ended
    obtain ⟨untouched, other, decided, same⟩ := ended
    rw [decided]
    exact continues value other last untouched same
  · intro error last ended
    rw [ended.2]
    exact Or.inl ⟨rfl, ended.1⟩

theorem enforces_bind_ok {value : α} {planned : Except AppError Preview.PreviewOutcome}
    {program : Workflow α} {next : α → Workflow Sync.SyncOutcome}
    (begins : EndsAs answer (.ok value) program progress)
    (continues : ∀ last, Untouched last → Enforces answer planned (next value) last) :
    Enforces answer planned (program >>= next) progress := by
  rw [Enforces, ends_bind]
  refine Ends.mono begins ?_ fun _ _ never => nomatch never.2
  intro returned last ended
  obtain ⟨untouched, other, known, same⟩ := ended
  obtain rfl := Except.ok.inj known
  rw [same]
  exact continues last untouched

theorem enforces_checkCancelled {planned : Except AppError Preview.PreviewOutcome}
    {next : Unit → Workflow Sync.SyncOutcome}
    (uncancelled : ∀ progress, answer progress .isCancelled = false)
    (continued : Enforces answer planned (next ()) progress) :
    Enforces answer planned (checkCancelled >>= next) progress :=
  ends_checkCancelled (uncancelled progress) continued

/-- Replacing a family hands its entries over, whether or not that succeeds. -/
theorem ends_replaceFamily {stage : SyncStage} {spec : ManagedSetSpec} {family : AddressFamily}
    {entries : List CanonicalCidr} {returns : Unit → Progress → Prop}
    {fails : AppError → Progress → Prop}
    (onSuccess : returns ()
      { progress with replacements := progress.replacements ++ [(spec, entries, true)] })
    (onFailure : ∀ error, fails error
      { progress with replacements := progress.replacements ++ [(spec, entries, false)] }) :
    Ends (answeringPorts answer) returns fails (Sync.replaceFamily stage spec family entries)
      progress := by
  refine ends_reporting_bind (reports_startStage _) ?_
  refine (ends_bind _ _ _).mpr (ends_propagate.mpr ((ends_callPort (.replaceSet spec entries)).mpr ?_))
  cases answer progress (.replaceSet spec entries) with
  | error error => exact onFailure error
  | ok done =>
    refine ends_reporting_bind (reports_event rfl) ?_
    exact ends_reporting (reports_completeStage stage) onSuccess

theorem ends_activateFirewall {plan : EnforcementPlan} {outcome : Preview.PreviewOutcome}
    (enforced : Enforced outcome progress) :
    Ends (answeringPorts answer) (fun _ => Enforced outcome) (fun _ => Enforced outcome)
      (Sync.activateFirewall plan) progress := by
  have activated : ∀ answered, Enforced outcome (progress.observe (.activate plan) answered) :=
    fun _ => ⟨enforced.started, enforced.inOrder, enforced.complete⟩
  refine ends_reporting_bind (reports_startStage _) ?_
  refine (ends_bind _ _ _).mpr (ends_propagate.mpr ((ends_callPort (.activate plan)).mpr ?_))
  cases answer progress (.activate plan) with
  | error error => exact activated _
  | ok done =>
    refine ends_reporting_bind (reports_event rfl) ?_
    dsimp only
    split_ifs
    · refine (ends_bind _ _ _).mpr (ends_reporting_bind (reports_event rfl) ?_)
      refine (ends_bind _ _ _).mpr ((ends_callPort (.cleanupDisabledIpv6 plan)).mpr ?_)
      refine ends_reporting (Sync.reports_cleanup_tail _) ?_
      exact ends_reporting (reports_completeStage _) (activated _)
    · exact ends_reporting (reports_completeStage _) (activated _)

/-- Enforcement hands over the entry lists of the enabled families in order. -/
theorem ends_applyEnforcement {plan : EnforcementPlan} {outcome : Preview.PreviewOutcome}
    (untouched : Untouched progress) (ipv4 : plan.ipv4.family = .ipv4)
    (ipv6 : plan.ipv6.family = .ipv6) (enabled : plan.enableIpv6 = outcome.enableIpv6) :
    Ends (answeringPorts answer) (fun _ => Enforced outcome) (fun _ => Enforced outcome)
      (Sync.applyEnforcement plan outcome.entries.ipv4 outcome.entries.ipv6) progress := by
  refine (ends_bind _ _ _).mpr ((ends_callPort (.event .enforcementStarted)).mpr ?_)
  -- the IPv4 set comes last, whatever was replaced before it
  have lastSet : ∀ (started : Progress) (previous : List (AddressFamily × List CanonicalCidr)),
      started.enforcementStarted = true → replacedSets started = previous →
      outcomeSets outcome = previous ++ [(.ipv4, outcome.entries.ipv4)] →
      Ends (answeringPorts answer) (fun _ => Enforced outcome) (fun _ => Enforced outcome)
        (do
          Sync.replaceFamily .applyIpv4 plan.ipv4 .ipv4 outcome.entries.ipv4
          Sync.activateFirewall plan) started := by
    intro started previous isStarted replaced order
    have handedOver : ∀ succeeded, Enforced outcome { started with
        replacements := started.replacements ++ [(plan.ipv4, outcome.entries.ipv4, succeeded)] } := by
      intro succeeded
      have all : replacedSets { started with
          replacements := started.replacements ++ [(plan.ipv4, outcome.entries.ipv4, succeeded)] } =
          outcomeSets outcome := by
        rw [order, ← replaced]
        simp [replacedSets, ipv4]
      exact ⟨isStarted, all ▸ List.prefix_rfl, fun _ => all⟩
    refine (ends_bind _ _ _).mpr (ends_replaceFamily ?_ fun _ => handedOver false)
    exact ends_activateFirewall (handedOver true)
  have nothingReplaced : replacedSets progress = [] := by
    rw [replacedSets, untouched.replacements]
    rfl
  split_ifs with ipv6Enabled
  · have order : outcomeSets outcome =
        [(.ipv6, outcome.entries.ipv6)] ++ [(.ipv4, outcome.entries.ipv4)] := by
      simp [outcomeSets, ← enabled, ipv6Enabled]
    refine (ends_bind _ _ _).mpr (ends_replaceFamily ?_ ?_)
    · refine lastSet _ _ rfl ?_ order
      simp [replacedSets, Progress.observe, untouched.replacements, ipv6]
    · intro error
      refine ⟨rfl, ?_, ?_⟩
      · exact ⟨[(.ipv4, outcome.entries.ipv4)], by
          simp [replacedSets, Progress.observe, untouched.replacements, ipv6, order]⟩
      · intro allSucceeded
        exact Bool.noConfusion (allSucceeded (plan.ipv6, outcome.entries.ipv6, false)
          (List.mem_append_right _ List.mem_cons_self))
  · have order : outcomeSets outcome = [] ++ [(.ipv4, outcome.entries.ipv4)] := by
      simp [outcomeSets, ← enabled, ipv6Enabled]
    exact lastSet _ [] rfl nothingReplaced order

theorem ends_savePruned {path : String} {temporaryBans : TemporaryBans} {cutoff : ℕ}
    {outcome : Preview.PreviewOutcome} {fails : AppError → Progress → Prop}
    (enforced : Enforced outcome progress) :
    Ends (answeringPorts answer) (fun _ => Enforced outcome) fails
      (Sync.savePruned path temporaryBans cutoff) progress := by
  unfold Sync.savePruned
  dsimp only
  split_ifs
  · refine (ends_bind _ _ _).mpr ((ends_callPort (.saveTemporaryBans path _)).mpr ?_)
    have saved : ∀ answered, Enforced outcome (progress.observe
        (.saveTemporaryBans path (temporaryBans.pruneExpired cutoff).1) answered) :=
      fun _ => ⟨enforced.started, enforced.inOrder, enforced.complete⟩
    cases answer progress (.saveTemporaryBans path (temporaryBans.pruneExpired cutoff).1) with
    | ok done => exact saved _
    | error error => exact ends_reporting (reports_report _) (saved _)
  · exact enforced

end Enforcing

section SyncExecutes

variable {inputs : PlanInputs} {answer : Answers} {progress : Progress}
  (sees : SyncSees inputs answer)

include sees

theorem enforces_enforceSources {sources : Sync.LoadedSources} {other : Preview.LoadedSources}
    {paths : ResolvedPaths} {locked : Sync.LockedInputs} {allowNetwork : Bool}
    (configured : locked.config = inputs.config) (same : SameSources sources other)
    (untouched : Untouched progress) :
    Enforces answer (plannedFrom inputs.config allowNetwork other)
      (Sync.enforceSources paths locked sources) progress := by
  rw [Sync.enforceSources, configured]
  obtain ⟨admitted, computed, summaries⟩ :=
    computePlan_same same (EnforcementPlan.fromConfig inputs.config)
  have computes := Sync.reports_computeStage (EnforcementPlan.fromConfig inputs.config) sources
  rw [computed] at computes
  refine enforces_bind_ok (endsAs_of_reports untouched computes) ?_
  intro last untouched
  refine enforces_bind (endsAs_ofExcept untouched _) ?_
  rintro entries _ last untouched rfl
  refine enforces_checkCancelled sees.uncancelled ?_
  refine enforces_bind_ok (endsAs_promotePendingCaches sees _ untouched) fun last untouched => ?_
  refine enforces_checkCancelled sees.uncancelled ?_
  let outcome : Preview.PreviewOutcome :=
    ⟨entries, inputs.config.ipset.enableIpv6,
      (plannedSafelist inputs.config.ipset.enableIpv6 other).summaries,
      (plannedSafelist inputs.config.ipset.enableIpv6 other).notices, allowNetwork⟩
  have applied := @ends_applyEnforcement answer last (EnforcementPlan.fromConfig inputs.config)
    outcome untouched rfl rfl rfl
  rw [Enforces, ends_bind]
  refine applied.mono ?_ ?_
  · intro _ last enforced
    refine (ends_bind _ _ _).mpr ((ends_savePruned enforced).mono ?_ fun _ _ => id)
    exact fun _ last enforced => ⟨outcome, rfl, enforced, summaries⟩
  · exact fun _ last enforced => Or.inr ⟨outcome, rfl, enforced⟩

/-- The sync enforces the planned outcome. -/
theorem enforces_syncExecute (request : PathResolutionInput) (registry : SyncSourceRegistry)
    (allowNetwork : Bool) (untouched : Untouched progress) :
    Enforces answer (plannedOutcome inputs allowNetwork registry) (Sync.execute request registry)
      progress := by
  -- the plan, in the order in which a sync learns its parts
  have staged : plannedOutcome inputs allowNetwork registry =
      inputs.paths >>= fun _ => lockedInputs inputs >>= fun locked =>
        plannedSources inputs.load registry.providers .empty >>= fun sources =>
          plannedFrom inputs.config allowNetwork
            { sources with
              notices := Preview.noticesWithTimeout inputs.config locked.temporaryBans
                locked.cutoff sources.notices } := by
    unfold plannedOutcome lockedInputs
    cases inputs.paths with
    | error error => rfl
    | ok paths => cases inputs.cutoff with
      | error error => rfl
      | ok cutoff => cases inputs.temporaryBans <;> rfl
  rw [staged]
  refine enforces_checkCancelled sees.uncancelled ?_
  refine enforces_bind_ok (endsAs_of_reports untouched (reports_startStage _)) fun _ untouched => ?_
  refine enforces_bind (endsAs_ask ⟨sees.paths _ _, untouched⟩) ?_
  rintro paths _ last untouched rfl
  refine enforces_bind_ok (endsAs_of_reports untouched (reports_completeStage _))
    fun _ untouched => ?_
  refine enforces_checkCancelled sees.uncancelled ?_
  refine enforces_bind_ok (endsAs_of_reports untouched (reports_startStage _)) fun _ untouched => ?_
  refine enforces_bind_ok (endsAs_ask ⟨sees.config _ _, untouched_loadConfig untouched _⟩)
    fun _ untouched => ?_
  refine enforces_bind_ok (endsAs_of_reports untouched (reports_completeStage _))
    fun _ untouched => ?_
  refine enforces_checkCancelled sees.uncancelled ?_
  refine enforces_bind_ok (endsAs_of_reports untouched (reports_startStage _)) fun _ untouched => ?_
  refine ends_withGuard (Ends.mono (endsAs_ask ⟨sees.locked _ _, untouched⟩) ?_
    fun _ _ never => nomatch never.2)
  rintro _ last ⟨untouched, -⟩
  refine enforces_bind_ok (endsAs_of_reports untouched (reports_completeStage _))
    fun _ untouched => ?_
  refine enforces_bind (endsLike_readLockedInputs sees _ untouched) ?_
  rintro locked _ last untouched ⟨rfl, configured⟩
  refine enforces_bind (endsLike_prepareSources sees _ _ _ _ untouched) ?_
  intro sources other last untouched same
  have noted : SameSources sources { other with
      notices := Preview.noticesWithTimeout inputs.config locked.temporaryBans locked.cutoff
        other.notices } :=
    ⟨same.candidates, same.safelist, same.externalSafelists, same.summaries⟩
  exact enforces_enforceSources sees configured noted untouched

end SyncExecutes

/-- Given the same inputs to both, a sync whose lock, storage, artifacts and
promotions succeed starts enforcement exactly when a preview that gets its
shared lock succeeds; otherwise both end with the same error; and the preview
shows exactly the entry lists handed to set replacement, and the summaries of
the sync. -/
theorem preview_refines_sync {inputs : PlanInputs} {syncAnswer previewAnswer : Answers}
    (syncSees : SyncSees inputs syncAnswer) (previewSees : PreviewSees inputs previewAnswer)
    (request : Preview.PreviewRequest) (registry : SyncSourceRegistry) :
    let preview := exec (answeringPorts previewAnswer) (Preview.execute request registry) .start
    let sync := exec (answeringPorts syncAnswer) (Sync.execute request.paths registry) .start
    ((∃ outcome, preview.1 = .returned outcome) ↔ sync.2.enforcementStarted = true) ∧
      (sync.2.enforcementStarted = false →
        ∃ error, preview.1 = .failed error ∧ sync.1 = .failed error) ∧
      (∀ outcome, preview.1 = .returned outcome → Enforced outcome sync.2 ∧
        ∀ result, sync.1 = .returned result → result.sources = outcome.sources) := by
  intro preview sync
  have untouched : Untouched .start := ⟨rfl, rfl⟩
  obtain ⟨previewRuns, previewEnds⟩ :=
    (endsAs_previewExecute previewSees request registry untouched).exec
  obtain ⟨syncRuns, syncEnds⟩ :=
    (enforces_syncExecute syncSees request.paths registry request.allowNetwork untouched).exec
  change preview.1 ≠ .stopped at previewRuns
  change Ending.Meets _ _ preview.1 preview.2 at previewEnds
  change sync.1 ≠ .stopped at syncRuns
  change Ending.Meets _ _ sync.1 sync.2 at syncEnds
  -- both workflows end with the outcome planned from the inputs they share
  cases planned : plannedOutcome inputs request.allowNetwork registry with
  | error error =>
    rw [planned] at previewEnds syncEnds
    have previewFailed : preview.1 = .failed error := by
      cases ended : preview.1 with
      | stopped => exact absurd ended previewRuns
      | returned outcome =>
        rw [ended] at previewEnds
        obtain ⟨_, _, never, _⟩ := previewEnds
        exact nomatch never
      | failed other =>
        rw [ended] at previewEnds
        rw [Except.error.inj previewEnds.2]
    have syncFailed : sync.1 = .failed error ∧ Untouched sync.2 := by
      cases ended : sync.1 with
      | stopped => exact absurd ended syncRuns
      | returned result =>
        rw [ended] at syncEnds
        obtain ⟨_, never, _⟩ := syncEnds
        exact nomatch never
      | failed other =>
        rw [ended] at syncEnds
        rcases syncEnds with ⟨same, kept⟩ | ⟨_, never, _⟩
        · exact ⟨by rw [Except.error.inj same], kept⟩
        · exact nomatch never
    rw [previewFailed, syncFailed.2.enforcementStarted]
    refine ⟨⟨?_, nofun⟩, fun _ => ⟨error, rfl, syncFailed.1⟩, nofun⟩
    intro never
    exact nomatch never.choose_spec
  | ok outcome =>
    rw [planned] at previewEnds syncEnds
    have previewReturned : preview.1 = .returned outcome := by
      cases ended : preview.1 with
      | stopped => exact absurd ended previewRuns
      | failed error =>
        rw [ended] at previewEnds
        exact nomatch previewEnds.2
      | returned other =>
        rw [ended] at previewEnds
        obtain ⟨_, same, decided, equal⟩ := previewEnds
        rw [equal, Except.ok.inj decided]
    have syncEnforced : Enforced outcome sync.2 ∧
        ∀ result, sync.1 = .returned result → result.sources = outcome.sources := by
      cases ended : sync.1 with
      | stopped => exact absurd ended syncRuns
      | failed error =>
        rw [ended] at syncEnds
        -- a sync that fails after enforcement started has enforced the plan
        rcases syncEnds with ⟨never, _⟩ | ⟨same, decided, enforced⟩
        · exact nomatch never
        · rw [Except.ok.inj decided]
          exact ⟨enforced, nofun⟩
      | returned result =>
        rw [ended] at syncEnds
        obtain ⟨same, decided, enforced, summaries⟩ := syncEnds
        rw [Except.ok.inj decided]
        refine ⟨enforced, fun other equal => ?_⟩
        rw [← Ending.returned.inj equal]
        exact summaries
    rw [previewReturned, syncEnforced.1.started]
    refine ⟨⟨fun _ => rfl, fun _ => ⟨outcome, rfl⟩⟩, nofun, ?_⟩
    intro other equal
    rw [← Ending.returned.inj equal]
    exact syncEnforced

theorem eight_le_thirtyTwo : 8 ≤ 32 := by decide

/-- The inputs that calm ports show. -/
def calmInputs : PlanInputs where
  paths := calmPorts .start (.resolvePaths ⟨none, "/tmp", []⟩ .required)
  cutoff := calmPorts .start .nowUnixSecs
  config := ⟨⟨"kidobo", "kidobo-v6", true, .drop, "hash:net", 1024, 10, 0⟩, ⟨[], 1⟩⟩
  temporaryBans := calmPorts .start (.loadTemporaryBans "/var/lib/kidobo/temporary-bans.toml")
  load _ := .ok ⟨⟨[.v4 (Cidr.fromParts 0x0A000000#32 8 eight_le_thirtyTwo)], []⟩, none, []⟩

theorem syncSees_calm : SyncSees calmInputs calmPorts where
  uncancelled _ := rfl
  paths _ _ := rfl
  locked _ _ := rfl
  cutoff _ := rfl
  config _ _ := rfl
  stored _ _ := rfl
  temporaryBans _ _ := rfl
  prepared _ _ := rfl
  loads _ _ _ := ⟨rfl, rfl, rfl, rfl⟩
  promoted _ _ := rfl

/-- One required source of candidates. -/
def candidateRegistry : SyncSourceRegistry :=
  ⟨[⟨"local-blocklist", .candidate, .required⟩], List.nodup_singleton _⟩

/-- With calm ports the sync enforces, so the preview succeeds. -/
theorem preview_refines_sync_calm :
    (∃ outcome, (exec (answeringPorts calmPorts)
        (Preview.execute ⟨⟨none, "/tmp", []⟩, true⟩ candidateRegistry) .start).1 =
      .returned outcome) ∧
      (exec (answeringPorts calmPorts) (Sync.execute ⟨none, "/tmp", []⟩ candidateRegistry)
        .start).2.enforcementStarted = true := by
  have enforced : (exec (answeringPorts calmPorts)
      (Sync.execute ⟨none, "/tmp", []⟩ candidateRegistry) .start).2.enforcementStarted = true := by
    decide +kernel
  have previewSees : PreviewSees calmInputs calmPorts :=
    ⟨⟨fun _ => rfl, fun _ _ => rfl, fun _ => rfl, fun _ _ => rfl, fun _ _ => rfl,
      fun _ _ _ _ => rfl⟩, fun _ _ => rfl⟩
  have refined := preview_refines_sync syncSees_calm previewSees ⟨⟨none, "/tmp", []⟩, true⟩
    candidateRegistry
  exact ⟨refined.1.mpr enforced, enforced⟩

/-- Calm ports without a lock file for a preview to share. -/
def unsharedPorts : Answers
  | _, .acquireExistingLock _ => .error (.lock "lock file does not exist")
  | progress, op => calmPorts progress op

/-- The sync creates its lock file and enforces where the preview, which shares
only an existing one, fails. -/
theorem missingLockFile_separates_preview :
    SyncSees calmInputs calmPorts ∧ PreviewReads calmInputs unsharedPorts ∧
      (exec (answeringPorts calmPorts) (Sync.execute ⟨none, "/tmp", []⟩ candidateRegistry)
        .start).2.enforcementStarted = true ∧
      (exec (answeringPorts unsharedPorts)
        (Preview.execute ⟨⟨none, "/tmp", []⟩, true⟩ candidateRegistry) .start).1 =
        .failed (.lock "lock file does not exist") := by
  refine ⟨syncSees_calm, ?_, by decide +kernel, rfl⟩
  exact ⟨fun _ => rfl, fun _ _ => rfl, fun _ => rfl, fun _ _ => rfl, fun _ _ => rfl,
    fun _ _ _ _ => rfl⟩

end Kidobo
