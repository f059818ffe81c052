import Kidobo.App.SyncPlan

/-!
# Order and stop-on-failure of a synchronization

Before each port call that promotes, replaces, activates, saves or checks for
cancellation, certain things must have been done. The conditions hold of every
call in every run, whatever the ports answer.

## Main definitions

* `Preflighted`: every source answered and the kernel entries fit
* `Permitted`: what must have been done before a port call

## Main results

* `wp_execute`: the contract of the workflow
* `execute_ordered`: the order of a run, and what its end says
-/

namespace Kidobo.Sync

open Foundation

/-! ### What must have been done -/

/-- The sets to replace, in order: IPv6 before IPv4, and only enabled families. -/
def enforcedSets (plan : EnforcementPlan) (effective : EffectiveBlocklists) :
    List (ManagedSetSpec × List CanonicalCidr) :=
  (if plan.enableIpv6 then [(plan.ipv6, ipv6KernelEntries effective)] else []) ++
    [(plan.ipv4, ipv4KernelEntries effective)]

/-- Every provider answered in registry order, each load was accepted or softly
degraded, and the kernel entries computed from them fit their sets. -/
structure Preflighted (registry : SyncSourceRegistry) (progress : Progress)
    (plan : EnforcementPlan) (effective : EffectiveBlocklists) (admitted : Admitted) : Prop where
  configured : progress.config.map EnforcementPlan.fromConfig = some plan
  complete : progress.loads.map Prod.fst = registry.providers
  usable : ∀ answer ∈ progress.loads, UsableLoad answer
  computed : computePlan plan (LoadedSources.collect progress.loads) = .ok (effective, admitted)
  ipv4Fits : (ipv4KernelEntries effective).length ≤ plan.ipv4.maxelem
  ipv6Fits : plan.enableIpv6 = true → (ipv6KernelEntries effective).length ≤ plan.ipv6.maxelem

/-- The calls in which every one of these promotions succeeded. -/
def allPromoted (pending : List PendingPromotion) : List (PendingCachePromotion × Bool) :=
  pending.map fun pending => (pending.promotion, true)

/-- The calls in which every one of these replacements succeeded. -/
def allReplaced (sets : List (ManagedSetSpec × List CanonicalCidr)) :
    List (ManagedSetSpec × List CanonicalCidr × Bool) :=
  sets.map fun set => (set.1, set.2, true)

/-- No promotion, replacement or activation failed so far. -/
structure NothingFailed (progress : Progress) : Prop where
  promotions : ∀ promotion ∈ progress.promotions, promotion.2 = true
  replacements : ∀ replacement ∈ progress.replacements, replacement.2.2 = true
  activations : ∀ activated ∈ progress.activations, activated = true

/-- What must have been done before a port call. -/
def Permitted (registry : SyncSourceRegistry) (progress : Progress) : PortOp → Prop
  | .isCancelled => progress.enforcementStarted = false
  | .promote promotion => NothingFailed progress ∧
      ∃ plan effective admitted, Preflighted registry progress plan effective admitted ∧
        progress.promotions ++ [(promotion, true)] <+: allPromoted admitted.pendingPromotions
  | .replaceSet spec entries => NothingFailed progress ∧
      progress.enforcementStarted = true ∧ progress.cancelled = false ∧
      ∃ plan effective admitted, Preflighted registry progress plan effective admitted ∧
        progress.promotions = allPromoted admitted.pendingPromotions ∧
        progress.replacements ++ [(spec, entries, true)] <+:
          allReplaced (enforcedSets plan effective)
  | .activate plan => NothingFailed progress ∧
      ∃ effective admitted, Preflighted registry progress plan effective admitted ∧
        progress.promotions = allPromoted admitted.pendingPromotions ∧
        progress.replacements = allReplaced (enforcedSets plan effective)
  | .saveTemporaryBans _ _ => NothingFailed progress ∧ progress.activations = [true]
  | _ => True

/-- The guarantee that every call is permitted. -/
def permittedCalls (registry : SyncSourceRegistry) : Step PortOp PortOp.Result Progress :=
  fun before op _ _ => Permitted registry before op

theorem permitted_of_reports {registry : SyncSourceRegistry} {progress : Progress} {op : PortOp}
    (reports : op.reports = true) : Permitted registry progress op := by
  cases op <;> first | exact trivial | exact absurd reports (by simp [PortOp.reports])

/-- A run that failed has attempted no save. -/
def Unsaved (_ : AppError) (progress : Progress) : Prop := progress.saved = false

/-- Nothing has been promoted, replaced, activated or saved yet. -/
structure Unstarted (progress : Progress) : Prop where
  cancelled : progress.cancelled = false
  promotions : progress.promotions = []
  enforcementStarted : progress.enforcementStarted = false
  replacements : progress.replacements = []
  activations : progress.activations = []
  saved : progress.saved = false

/-! ### Contracts of the parts -/

section Contracts

variable {registry : SyncSourceRegistry} {progress : Progress} {α : Type}

theorem wp_reporting {outcome : Except AppError α} {program : Workflow α}
    {returns : α → Progress → Prop} {fails : AppError → Progress → Prop}
    (reports : Reports outcome program)
    (ends : (Ending.ofExcept outcome).Meets returns fails progress) :
    wp anyPorts (permittedCalls registry) returns fails program progress :=
  wp_of_reports reports (fun _ _ quiet => permitted_of_reports quiet) ends

/-- Reporting first changes nothing for the rest. -/
theorem wp_reporting_bind {program : Workflow Unit} {next : Unit → Workflow α}
    {returns : α → Progress → Prop} {fails : AppError → Progress → Prop}
    (reports : Reports (.ok ()) program)
    (continued : wp anyPorts (permittedCalls registry) returns fails (next ()) progress) :
    wp anyPorts (permittedCalls registry) returns fails (program >>= next) progress :=
  (wp_bind _ _ _).mpr (wp_reporting reports continued)

/-- A cancellation check before enforcement either goes on or ends the run. -/
theorem wp_checkCancelled {next : Unit → Workflow α} {returns : α → Progress → Prop}
    (outside : progress.enforcementStarted = false) (unsaved : progress.saved = false)
    (continued : wp anyPorts (permittedCalls registry) returns Unsaved (next ()) progress) :
    wp anyPorts (permittedCalls registry) returns Unsaved (checkCancelled >>= next) progress := by
  rw [wp_bind, checkCancelled, wp_bind, wp_callPort]
  intro cancelled
  refine ⟨outside, ?_⟩
  cases cancelled with
  | false => exact continued
  | true => exact unsaved

/-- A fallible call that is always permitted and leaves no trace. -/
theorem wp_ask {answered : Workflow (Except AppError α)} {returns : α → Progress → Prop}
    (asked : wp anyPorts (permittedCalls registry) (fun _ last => last = progress)
      (fun _ _ => False) answered progress)
    (unsaved : progress.saved = false) (continued : ∀ value, returns value progress) :
    wp anyPorts (permittedCalls registry) returns Unsaved (propagate answered) progress := by
  rw [wp_propagate]
  refine wp_mono asked ?_ fun _ _ never => never.elim
  rintro (error | value) last rfl
  · exact unsaved
  · exact continued value

theorem wp_readLockedInputs {paths : ResolvedPaths} (unstarted : Unstarted progress) :
    wp anyPorts (permittedCalls registry)
      (fun inputs last => last = { progress with config := some inputs.config }) Unsaved
      (readLockedInputs paths) progress := by
  rw [readLockedInputs, wp_bind]
  refine wp_ask (wp_callPort.mpr fun _ => ⟨trivial, rfl⟩) unstarted.saved fun cutoff => ?_
  refine wp_checkCancelled unstarted.enforcementStarted unstarted.saved ?_
  rw [wp_bind, wp_propagate]
  refine wp_callPort.mpr ?_
  rintro (error | config)
  · exact ⟨trivial, unstarted.saved⟩
  refine ⟨trivial, wp_checkCancelled unstarted.enforcementStarted unstarted.saved ?_⟩
  rw [wp_bind]
  refine wp_ask (wp_callPort.mpr fun _ => ⟨trivial, rfl⟩) unstarted.saved fun _ => ?_
  refine wp_checkCancelled unstarted.enforcementStarted unstarted.saved ?_
  rw [wp_bind]
  refine wp_ask (wp_callPort.mpr fun _ => ⟨trivial, rfl⟩) unstarted.saved fun bans => ?_
  split_ifs
  · exact wp_reporting_bind (reports_report _) rfl
  · exact rfl

/-- One usable answer for each provider was added and all answers were collected. -/
def Loaded (before : Progress) (descriptors : List SyncSourceDescriptor) (sources : LoadedSources)
    (last : Progress) : Prop :=
  ∃ answers : List SourceAnswer, last = { before with loads := before.loads ++ answers } ∧
    answers.map Prod.fst = descriptors ∧ (∀ answer ∈ answers, UsableLoad answer) ∧
    sources = LoadedSources.collect last.loads

theorem wp_loadRemaining (context : SyncSourceContext) (descriptors : List SyncSourceDescriptor)
    (unstarted : Unstarted progress) :
    wp anyPorts (permittedCalls registry) (Loaded progress descriptors) Unsaved
      (loadRemaining context descriptors (LoadedSources.collect progress.loads)) progress := by
  induction descriptors generalizing progress with
  | nil => exact ⟨[], by simp, rfl, by simp, rfl⟩
  | cons descriptor rest ih =>
    rw [loadRemaining]
    refine wp_checkCancelled unstarted.enforcementStarted unstarted.saved ?_
    rw [wp_bind]
    refine wp_callPort.mpr fun answer => ⟨trivial, ?_⟩
    -- Whatever the provider answers is on record before the loop goes on.
    let recorded : Progress := { progress with loads := progress.loads ++ [(descriptor, answer)] }
    have stillUnstarted : Unstarted recorded :=
      ⟨unstarted.cancelled, unstarted.promotions, unstarted.enforcementStarted,
        unstarted.replacements, unstarted.activations, unstarted.saved⟩
    have continued : UsableLoad (descriptor, answer) →
        wp anyPorts (permittedCalls registry) (Loaded progress (descriptor :: rest)) Unsaved
          (loadRemaining context rest
            ((LoadedSources.collect progress.loads).take (descriptor, answer))) recorded := by
      intro usable
      rw [← LoadedSources.collect_append]
      refine wp_mono (ih stillUnstarted) ?_ fun _ _ => id
      rintro sources last ⟨answers, rfl, named, restUsable, collected⟩
      exact ⟨(descriptor, answer) :: answers, by simp [recorded], by simp [named],
        List.forall_mem_cons.mpr ⟨usable, restUsable⟩, collected⟩
    cases answer with
    | ok loaded =>
      exact wp_reporting_bind (reports_reportAll _) (continued (by simp [UsableLoad]))
    | error error =>
      dsimp only
      by_cases soft : classifySourceFailure descriptor.failurePolicy error = .degraded
      · rw [if_pos soft]
        exact wp_reporting_bind (reports_report _) (continued (by simpa [UsableLoad] using soft))
      · rw [if_neg soft]
        exact unstarted.saved

theorem wp_prepareSources {paths : ResolvedPaths} {env : List (String × String)}
    {inputs : LockedInputs} (unstarted : Unstarted progress) (unloaded : progress.loads = []) :
    wp anyPorts (permittedCalls registry) (Loaded progress registry.providers) Unsaved
      (prepareSources paths env registry inputs) progress := by
  rw [prepareSources]
  refine wp_reporting_bind (reports_startStage _) ?_
  rw [wp_bind]
  refine wp_ask (wp_callPort.mpr fun _ => ⟨trivial, rfl⟩) unstarted.saved fun _ => ?_
  refine wp_reporting_bind (reports_completeStage _) ?_
  refine wp_reporting_bind (reports_startStage _) ?_
  rw [wp_bind]
  have loaded : wp anyPorts (permittedCalls registry) (Loaded progress registry.providers) Unsaved
      (loadRemaining _ registry.providers (LoadedSources.collect progress.loads)) progress :=
    wp_loadRemaining ⟨paths, inputs.config, env, inputs.temporaryBans, inputs.cutoff⟩
      registry.providers unstarted
  rw [unloaded] at loaded
  refine wp_mono loaded ?_ fun _ _ => id
  rintro sources last ⟨answers, rfl, named, usable, collected⟩
  refine wp_reporting_bind (reports_completeStage _) ?_
  refine wp_checkCancelled unstarted.enforcementStarted unstarted.saved ?_
  exact ⟨answers, rfl, named, usable, collected⟩

variable {plan : EnforcementPlan} {effective : EffectiveBlocklists} {admitted : Admitted}

theorem nothingFailed_of_calls (pending : List PendingPromotion)
    (sets : List (ManagedSetSpec × List CanonicalCidr))
    (promotions : progress.promotions = allPromoted pending)
    (replacements : progress.replacements = allReplaced sets)
    (activations : ∀ activated ∈ progress.activations, activated = true) :
    NothingFailed progress where
  promotions := by simp [promotions, allPromoted]
  replacements := by simp [replacements, allReplaced]
  activations := activations

theorem wp_promoteRemaining (unstarted : Unstarted progress)
    (preflighted : Preflighted registry progress plan effective admitted)
    (rest done : List PendingPromotion) (pending : done ++ rest = admitted.pendingPromotions) :
    wp anyPorts (permittedCalls registry)
      (fun _ last => last =
        { progress with promotions := allPromoted admitted.pendingPromotions })
      Unsaved (promoteRemaining rest) { progress with promotions := allPromoted done } := by
  induction rest generalizing done with
  | nil =>
    rw [List.append_nil] at pending
    rw [← pending]
    rfl
  | cons next rest ih =>
    rw [promoteRemaining]
    refine wp_checkCancelled unstarted.enforcementStarted unstarted.saved ?_
    rw [wp_bind]
    have unfailed : NothingFailed { progress with promotions := allPromoted done } :=
      nothingFailed_of_calls done [] rfl unstarted.replacements
        (by simp [unstarted.activations])
    have inOrder : allPromoted done ++ [(next.promotion, true)] <+:
        allPromoted admitted.pendingPromotions :=
      ⟨allPromoted rest, by simp [allPromoted, ← pending]⟩
    refine wp_callPort.mpr fun outcome => ⟨⟨unfailed, plan, effective, admitted,
      ⟨preflighted.configured, preflighted.complete, preflighted.usable, preflighted.computed,
        preflighted.ipv4Fits, preflighted.ipv6Fits⟩, inOrder⟩, ?_⟩
    cases outcome with
    | ok done' =>
      have advanced := ih (done ++ [next]) (by simp [← pending])
      simp only [allPromoted, List.map_append, List.map_cons, List.map_nil] at advanced
      exact advanced
    | error source => exact unstarted.saved

theorem wp_promotePendingCaches (unstarted : Unstarted progress)
    (preflighted : Preflighted registry progress plan effective admitted) :
    wp anyPorts (permittedCalls registry)
      (fun _ last => last =
        { progress with promotions := allPromoted admitted.pendingPromotions })
      Unsaved (promotePendingCaches admitted.pendingPromotions) progress := by
  rw [promotePendingCaches]
  refine wp_reporting_bind (reports_startStage _) ?_
  rw [wp_bind]
  have promoted := wp_promoteRemaining unstarted preflighted admitted.pendingPromotions [] rfl
  have unpromoted : { progress with promotions := allPromoted [] } = progress := by
    rw [show allPromoted [] = progress.promotions from unstarted.promotions.symm]
  rw [unpromoted] at promoted
  refine wp_mono promoted ?_ fun _ _ => id
  rintro _ last rfl
  exact wp_reporting (reports_completeStage _) rfl

theorem wp_replaceFamily {stage : SyncStage} {spec : ManagedSetSpec} {family : AddressFamily}
    {entries : List CanonicalCidr}
    (permitted : Permitted registry progress (.replaceSet spec entries))
    (unsaved : progress.saved = false) :
    wp anyPorts (permittedCalls registry)
      (fun _ last => last =
        { progress with replacements := progress.replacements ++ [(spec, entries, true)] })
      Unsaved (replaceFamily stage spec family entries) progress := by
  rw [replaceFamily]
  refine wp_reporting_bind (reports_startStage _) ?_
  rw [wp_bind, wp_propagate]
  refine wp_callPort.mpr fun outcome => ⟨permitted, ?_⟩
  cases outcome with
  | ok done =>
    exact wp_reporting_bind (reports_event rfl) (wp_reporting (reports_completeStage _) rfl)
  | error error => exact unsaved

theorem wp_cleanupDisabled :
    wp anyPorts (permittedCalls registry) (fun _ last => last = progress) Unsaved
      (cleanupDisabled plan) progress := by
  rw [cleanupDisabled]
  refine wp_reporting_bind (reports_event rfl) ?_
  rw [wp_bind]
  exact wp_callPort.mpr fun notices => ⟨trivial, wp_reporting (reports_cleanup_tail notices) rfl⟩

theorem wp_activateFirewall (permitted : Permitted registry progress (.activate plan))
    (unsaved : progress.saved = false) :
    wp anyPorts (permittedCalls registry)
      (fun _ last => last = { progress with activations := progress.activations ++ [true] })
      Unsaved (activateFirewall plan) progress := by
  rw [activateFirewall]
  refine wp_reporting_bind (reports_startStage _) ?_
  rw [wp_bind, wp_propagate]
  refine wp_callPort.mpr fun outcome => ⟨permitted, ?_⟩
  cases outcome with
  | error error => exact unsaved
  | ok done =>
    refine wp_reporting_bind (reports_event rfl) ?_
    split_ifs
    · rw [wp_bind]
      refine wp_mono wp_cleanupDisabled ?_ fun _ _ => id
      rintro _ last rfl
      exact wp_reporting (reports_completeStage _) rfl
    · exact wp_reporting (reports_completeStage _) rfl

/-- Enforcement after these sets have been replaced. -/
def enforcing (before : Progress) (admitted : Admitted)
    (sets : List (ManagedSetSpec × List CanonicalCidr)) : Progress :=
  { before with
    promotions := allPromoted admitted.pendingPromotions
    enforcementStarted := true
    replacements := allReplaced sets }

section Enforcement

variable (unstarted : Unstarted progress)
  (preflighted : Preflighted registry progress plan effective admitted)

include unstarted preflighted

theorem preflighted_enforcing (sets : List (ManagedSetSpec × List CanonicalCidr)) :
    NothingFailed (enforcing progress admitted sets) ∧
      Preflighted registry (enforcing progress admitted sets) plan effective admitted :=
  ⟨nothingFailed_of_calls admitted.pendingPromotions sets rfl rfl (by simp [enforcing, unstarted.activations]),
    preflighted.configured, preflighted.complete, preflighted.usable, preflighted.computed,
    preflighted.ipv4Fits, preflighted.ipv6Fits⟩

/-- The next set of the order may be replaced. -/
theorem wp_replaceNext {stage : SyncStage} {spec : ManagedSetSpec} {family : AddressFamily}
    {entries : List CanonicalCidr} (previous later : List (ManagedSetSpec × List CanonicalCidr))
    (order : enforcedSets plan effective = previous ++ (spec, entries) :: later) :
    wp anyPorts (permittedCalls registry)
      (fun _ last => last = enforcing progress admitted (previous ++ [(spec, entries)])) Unsaved
      (replaceFamily stage spec family entries) (enforcing progress admitted previous) := by
  obtain ⟨unfailed, stillPreflighted⟩ := preflighted_enforcing unstarted preflighted previous
  have inOrder : allReplaced previous ++ [(spec, entries, true)] <+:
      allReplaced (enforcedSets plan effective) :=
    ⟨allReplaced later, by simp [allReplaced, order]⟩
  have permitted : Permitted registry (enforcing progress admitted previous)
      (.replaceSet spec entries) :=
    ⟨unfailed, rfl, unstarted.cancelled, plan, effective, admitted, stillPreflighted, rfl, inOrder⟩
  refine wp_mono (wp_replaceFamily permitted unstarted.saved) ?_ fun _ _ => id
  rintro _ last rfl
  simp [enforcing, allReplaced]

/-- Enforcement replaces the enabled sets in order and then activates. -/
theorem wp_applyEnforcement :
    wp anyPorts (permittedCalls registry)
      (fun _ last => NothingFailed last ∧ last.activations = [true])
      Unsaved (applyEnforcement plan (ipv4KernelEntries effective) (ipv6KernelEntries effective))
      { progress with promotions := allPromoted admitted.pendingPromotions } := by
  have activated : wp anyPorts (permittedCalls registry)
      (fun _ last => NothingFailed last ∧ last.activations = [true])
      Unsaved (activateFirewall plan)
      (enforcing progress admitted (enforcedSets plan effective)) := by
    obtain ⟨unfailed, stillPreflighted⟩ :=
      preflighted_enforcing unstarted preflighted (enforcedSets plan effective)
    refine wp_mono (wp_activateFirewall
      ⟨unfailed, effective, admitted, stillPreflighted, rfl, rfl⟩ unstarted.saved) ?_ fun _ _ => id
    rintro _ last rfl
    have once : (enforcing progress admitted (enforcedSets plan effective)).activations ++ [true] =
        [true] := by
      simp [enforcing, unstarted.activations]
    rw [once]
    exact ⟨⟨unfailed.promotions, unfailed.replacements, by simp⟩, rfl⟩
  have begun : { progress with
      promotions := allPromoted admitted.pendingPromotions
      enforcementStarted := true } = enforcing progress admitted [] := by
    rw [enforcing, show allReplaced [] = progress.replacements from unstarted.replacements.symm]
  rw [applyEnforcement, wp_bind]
  refine wp_callPort.mpr fun _ => ⟨trivial, ?_⟩
  change wp _ _ _ _ _ { progress with
    promotions := allPromoted admitted.pendingPromotions
    enforcementStarted := true }
  rw [begun]
  -- the IPv6 set is replaced first, and only when that family is enabled
  split_ifs with enabled
  · have order : enforcedSets plan effective =
        [(plan.ipv6, ipv6KernelEntries effective)] ++
          [(plan.ipv4, ipv4KernelEntries effective)] := by
      simp [enforcedSets, enabled]
    rw [wp_bind]
    refine wp_mono (wp_replaceNext unstarted preflighted [] _ order) ?_ fun _ _ => id
    rintro _ last rfl
    rw [wp_bind]
    refine wp_mono (wp_replaceNext unstarted preflighted _ [] order) ?_ fun _ _ => id
    rintro _ last rfl
    rw [order] at activated
    exact activated
  · have order : enforcedSets plan effective = [(plan.ipv4, ipv4KernelEntries effective)] := by
      simp [enforcedSets, enabled]
    rw [wp_bind]
    refine wp_mono (wp_replaceNext unstarted preflighted [] [] order) ?_ fun _ _ => id
    rintro _ last rfl
    rw [List.nil_append, ← order]
    exact activated

end Enforcement

/-- Saving the pruned bans cannot fail the run. -/
theorem wp_savePruned {path : String} {temporaryBans : TemporaryBans} {cutoff : ℕ}
    (unfailed : NothingFailed progress) (activated : progress.activations = [true]) :
    wp anyPorts (permittedCalls registry) (fun _ _ => True) (fun _ _ => False)
      (savePruned path temporaryBans cutoff) progress := by
  rw [savePruned]
  dsimp only
  split_ifs
  · rw [wp_bind]
    refine wp_callPort.mpr fun outcome => ⟨⟨unfailed, activated⟩, ?_⟩
    cases outcome with
    | ok done => trivial
    | error error => exact wp_reporting (reports_report _) trivial
  · trivial

/-! ### The workflow -/

theorem wp_enforceSources {paths : ResolvedPaths} {inputs : LockedInputs}
    (unstarted : Unstarted progress) (configured : progress.config = some inputs.config)
    (named : progress.loads.map Prod.fst = registry.providers)
    (usable : ∀ answer ∈ progress.loads, UsableLoad answer) :
    wp anyPorts (permittedCalls registry) (fun _ _ => True) Unsaved
      (enforceSources paths inputs (LoadedSources.collect progress.loads)) progress := by
  rw [enforceSources, wp_bind]
  refine wp_reporting (reports_computeStage _ _) ?_
  cases computed : computePlan (EnforcementPlan.fromConfig inputs.config)
      (LoadedSources.collect progress.loads) with
  | error error => exact unstarted.saved
  | ok decided =>
    obtain ⟨effective, admitted⟩ := decided
    change wp _ _ _ _ (Program.ofExcept _ >>= _) _
    rw [wp_bind, wp_ofExcept]
    cases prepared : prepareSyncEntries effective (EnforcementPlan.fromConfig inputs.config) with
    | error error => exact unstarted.saved
    | ok entries =>
      obtain ⟨ipv6Fits, ipv4Fits, rfl⟩ := prepareSyncEntries_eq_ok_iff.mp prepared
      have preflighted : Preflighted registry progress (EnforcementPlan.fromConfig inputs.config)
          effective admitted :=
        ⟨by rw [configured]; rfl, named, usable, computed, ipv4Fits, ipv6Fits⟩
      refine wp_checkCancelled unstarted.enforcementStarted unstarted.saved ?_
      rw [wp_bind]
      refine wp_mono (wp_promotePendingCaches unstarted preflighted) ?_ fun _ _ => id
      rintro _ last rfl
      refine wp_checkCancelled unstarted.enforcementStarted unstarted.saved ?_
      rw [wp_bind]
      refine wp_mono (wp_applyEnforcement unstarted preflighted) ?_ fun _ _ => id
      rintro _ last ⟨unfailed, activated⟩
      rw [wp_bind]
      refine wp_mono (wp_savePruned unfailed activated) ?_ fun _ _ never => never.elim
      intro _ _ _
      trivial

theorem wp_executeLocked {paths : ResolvedPaths} {env : List (String × String)}
    (unstarted : Unstarted progress) (unloaded : progress.loads = []) :
    wp anyPorts (permittedCalls registry) (fun _ _ => True) Unsaved
      (executeLocked paths env registry) progress := by
  rw [executeLocked]
  refine wp_reporting_bind (reports_completeStage _) ?_
  rw [wp_bind]
  refine wp_mono (wp_readLockedInputs unstarted) ?_ fun _ _ => id
  rintro inputs last rfl
  rw [wp_bind]
  have configured : Unstarted { progress with config := some inputs.config } :=
    ⟨unstarted.cancelled, unstarted.promotions, unstarted.enforcementStarted,
      unstarted.replacements, unstarted.activations, unstarted.saved⟩
  refine wp_mono (wp_prepareSources configured unloaded) ?_ fun _ _ => id
  rintro sources last ⟨answers, same, named, usable, rfl⟩
  rw [unloaded, List.nil_append] at same
  have loaded : Unstarted last := by
    rw [same]
    exact ⟨unstarted.cancelled, unstarted.promotions, unstarted.enforcementStarted,
      unstarted.replacements, unstarted.activations, unstarted.saved⟩
  have answered : last.loads = answers := by rw [same]
  rw [← answered] at named usable
  exact wp_enforceSources loaded (by rw [same]) named usable

/-- Every call of the workflow is permitted, and a failure has saved nothing. -/
theorem wp_execute (request : PathResolutionInput) (registry : SyncSourceRegistry) :
    wp anyPorts (permittedCalls registry) (fun _ _ => True) Unsaved (execute request registry)
      .start := by
  rw [execute]
  refine wp_checkCancelled rfl rfl ?_
  refine wp_reporting_bind (reports_startStage _) ?_
  rw [wp_bind]
  refine wp_ask (wp_callPort.mpr fun _ => ⟨trivial, rfl⟩) rfl fun paths => ?_
  refine wp_reporting_bind (reports_completeStage _) ?_
  refine wp_checkCancelled rfl rfl ?_
  refine wp_reporting_bind (reports_startStage _) ?_
  rw [wp_bind, wp_propagate]
  refine wp_callPort.mpr ?_
  rintro (error | config)
  · exact ⟨trivial, rfl⟩
  refine ⟨trivial, wp_reporting_bind (reports_completeStage _) ?_⟩
  refine wp_checkCancelled rfl rfl ?_
  refine wp_reporting_bind (reports_startStage _) ?_
  rw [withLock, withGuard, wp_bind]
  refine wp_ask (wp_callPort.mpr fun _ => ⟨trivial, rfl⟩) rfl fun _ => ?_
  rw [wp_bind, wp_attempt]
  have unstarted : Unstarted (Progress.start.observe (.loadConfig paths.configFile) (.ok config)) :=
    ⟨rfl, rfl, rfl, rfl, rfl, rfl⟩
  -- The guard is dropped however the locked part ends.
  refine wp_mono (wp_executeLocked unstarted rfl) ?_ ?_
  · intro outcome last _
    rw [wp_bind]
    exact wp_callPort.mpr fun _ => ⟨trivial, trivial⟩
  · intro error last unsaved
    rw [wp_bind]
    exact wp_callPort.mpr fun _ => ⟨trivial, unsaved⟩

end Contracts

/-! ### The order of a run -/

/-- A cancelled run has replaced no set, and a set is replaced only after
enforcement started. -/
structure Uninterrupted (progress : Progress) : Prop where
  cancelled : progress.cancelled = true → progress.replacements = []
  started : progress.enforcementStarted = false → progress.replacements = []

theorem uninterrupted_observe {registry : SyncSourceRegistry} {before : Progress} {op : PortOp}
    (result : op.Result) (permitted : Permitted registry before op)
    (uninterrupted : Uninterrupted before) : Uninterrupted (before.observe op result) := by
  cases op with
  | isCancelled =>
    cases result with
    | false => exact uninterrupted
    | true => exact ⟨fun _ => uninterrupted.started permitted, uninterrupted.started⟩
  | replaceSet spec entries =>
    obtain ⟨_, started, notCancelled, _⟩ := permitted
    refine ⟨fun cancelled => ?_, fun notStarted => ?_⟩
    · exact absurd (notCancelled.symm.trans cancelled) (by decide)
    · exact absurd (notStarted.symm.trans started) (by decide)
  | event event => cases event with
    | enforcementStarted => exact ⟨uninterrupted.cancelled, fun never => Bool.noConfusion never⟩
    | _ => exact uninterrupted
  | loadConfig path =>
    cases result with
    | ok config => exact ⟨uninterrupted.cancelled, uninterrupted.started⟩
    | error error => exact uninterrupted
  | _ => exact ⟨uninterrupted.cancelled, uninterrupted.started⟩

/-- In every run, whatever the ports answer and wherever it stops, every port
call is permitted; a run with a positive cancellation check has replaced no
set; and a run that failed has not even attempted to save temporary bans. -/
theorem execute_ordered (request : PathResolutionInput) (registry : SyncSourceRegistry)
    {trace : List (Event PortOp PortOp.Result Progress)} {last : Progress}
    {ending : Ending AppError SyncOutcome}
    (runs : Runs anyPorts (execute request registry) .start trace last ending) :
    (∀ event ∈ trace, Permitted registry event.before event.op) ∧
      (last.cancelled = true → last.replacements = []) ∧
      (∀ error, ending = .failed error → last.saved = false) := by
  obtain ⟨permitted, ended⟩ := runs.sound (wp_execute request registry)
  refine ⟨permitted, ?_, ?_⟩
  · have kept : ∀ event ∈ trace, Uninterrupted event.before → Uninterrupted event.after := by
      intro event member uninterrupted
      rw [show event.after = _ from runs.stepped event member]
      exact uninterrupted_observe event.result (permitted event member) uninterrupted
    have initially : Uninterrupted .start := ⟨fun _ => rfl, fun _ => rfl⟩
    exact (runs.invariant Uninterrupted kept initially).2.cancelled
  · intro error failed
    rw [failed] at ended
    exact ended

/-- A registry of one source. -/
def oneSource : SyncSourceRegistry :=
  ⟨[⟨"remote", .candidate, .required⟩], List.nodup_singleton _⟩

/-- A run that loads a source, promotes its cache, replaces both sets and activates
the firewall, and whose save fails, is ordered. -/
theorem execute_ordered_calm :
    let (trace, last) := execSteps (answeringPorts calmPorts) 200
      (execute ⟨none, "/tmp", []⟩ oneSource) .start
    (∀ event ∈ trace, Permitted oneSource event.before event.op) ∧
      (last.cancelled = true → last.replacements = []) ∧ last.loads.length = 1 ∧
      last.promotions = [(7, true)] ∧ last.replacements.length = 2 ∧ last.activations = [true] ∧
      last.saved = true := by
  have allowed : ∀ progress op, anyPorts progress op (answeringPorts calmPorts progress op).1
      (answeringPorts calmPorts progress op).2 := fun _ _ => rfl
  have ordered := execute_ordered ⟨none, "/tmp", []⟩ oneSource
    (runs_execSteps allowed 200 _ _)
  refine ⟨ordered.1, ordered.2.1, ?_⟩
  decide +kernel

end Kidobo.Sync
