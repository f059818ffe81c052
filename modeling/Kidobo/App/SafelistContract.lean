import Kidobo.App.SyncPlan

/-!
# The contract of safelist admission

Batches are admitted one after another against a growing safelist, so the
invariant is about the safelist as it stands: every enabled family blocked under
the operator safelist is still blocked.

## Main definitions

* `admissionChoices`: the batch selected for each external safelist
* `contribution`, `queuedPromotions`: what a choice adds

## Main results

* `admissionStep_ok`, `admissionFrom_ok`: step and run of the admission loop
* `admitExternalSafelists_contract`
-/

namespace Kidobo.Sync

open Foundation

/-- An external safelist with the batch selected for it. -/
abbrev AdmissionChoice := LoadedExternalSafelist × ExternalSafelistSelection

/-- The networks a choice adds to the safelist. -/
def contribution (choice : AdmissionChoice) : List CanonicalCidr :=
  match choice.2, choice.1.fallback with
  | .primary, _ => choice.1.primary.networks
  | .fallback, some fallback => fallback.networks
  | _, _ => []

/-- The promotions a choice queues. -/
def queuedPromotions (choice : AdmissionChoice) : List PendingPromotion :=
  if choice.2 = .primary then pendingOf choice.1.provider choice.1.pendingPromotions else []

/-- The choices made one after another against the growing safelist. -/
def admissionChoices (candidates : List CanonicalCidr) (enableIpv6 : Bool)
    (baseline : EffectiveBlocklists) :
    List LoadedExternalSafelist → List CanonicalCidr → List AdmissionChoice
  | [], _ => []
  | external :: rest, safelist =>
    let choice : AdmissionChoice :=
      (external, external.selection candidates safelist enableIpv6 baseline)
    choice :: admissionChoices candidates enableIpv6 baseline rest (safelist ++ contribution choice)

section Admission

variable {candidates : List CanonicalCidr} {enableIpv6 : Bool} {baseline : EffectiveBlocklists}
  {external : LoadedExternalSafelist} {admitted next result : Admitted}

/-- A selected fallback exists. -/
theorem exists_fallback {safelist : List CanonicalCidr}
    (selected : external.selection candidates safelist enableIpv6 baseline = .fallback) :
    ∃ fallback, external.fallback = some fallback ∧ KeepsFamilies enableIpv6 baseline
      (computeEffectiveBlocklists candidates (safelist ++ fallback.networks) enableIpv6) := by
  obtain ⟨networks, present, kept⟩ := keepsFamilies_of_fallback selected
  obtain ⟨fallback, found, rfl⟩ := Option.map_eq_some_iff.mp present
  exact ⟨fallback, found, kept⟩

/-- One admission adds what the choice contributes and queues. -/
theorem admissionStep_ok
    (decided : admissionStep candidates enableIpv6 baseline admitted external = .ok next) :
    next.safelist = admitted.safelist ++ contribution
        (external, external.selection candidates admitted.safelist enableIpv6 baseline) ∧
      next.pendingPromotions = admitted.pendingPromotions ++ queuedPromotions
        (external, external.selection candidates admitted.safelist enableIpv6 baseline) := by
  unfold admissionStep at decided
  unfold contribution queuedPromotions
  cases selected : external.selection candidates admitted.safelist enableIpv6 baseline with
  | primary =>
    rw [selected] at decided
    obtain rfl := Except.ok.inj decided
    exact ⟨rfl, rfl⟩
  | fallback =>
    obtain ⟨fallback, present, _⟩ := exists_fallback selected
    rw [selected, present] at decided
    obtain rfl := Except.ok.inj decided
    rw [present]
    exact ⟨rfl, (List.append_nil _).symm⟩
  | unavailable =>
    rw [selected] at decided
    have withdrawn : admitted.withdrawOrFail external = .ok next := by
      cases present : external.fallback with
      | none => rwa [present] at decided
      | some fallback => rwa [present] at decided
    rw [Admitted.withdrawOrFail_ok withdrawn]
    exact ⟨(List.append_nil _).symm, (List.append_nil _).symm⟩

/-- What a choice adds to the safelist never frees an enabled family. -/
theorem keepsFamilies_contribution {safelist : List CanonicalCidr}
    (kept : KeepsFamilies enableIpv6 baseline
      (computeEffectiveBlocklists candidates safelist enableIpv6)) :
    KeepsFamilies enableIpv6 baseline
      (computeEffectiveBlocklists candidates (safelist ++ contribution
        (external, external.selection candidates safelist enableIpv6 baseline)) enableIpv6) := by
  cases selected : external.selection candidates safelist enableIpv6 baseline with
  | primary => exact keepsFamilies_of_primary selected
  | fallback =>
    obtain ⟨fallback, present, keptByFallback⟩ := exists_fallback selected
    simpa only [contribution, present] using keptByFallback
  | unavailable => simpa only [contribution, List.append_nil] using kept

/-- The whole loop adds what the choices contribute and queue, and frees no
enabled family. -/
theorem admissionFrom_ok (externals : List LoadedExternalSafelist)
    (decided : admissionFrom candidates enableIpv6 baseline externals admitted = .ok result)
    (kept : KeepsFamilies enableIpv6 baseline
      (computeEffectiveBlocklists candidates admitted.safelist enableIpv6)) :
    let choices := admissionChoices candidates enableIpv6 baseline externals admitted.safelist
    result.safelist = admitted.safelist ++ choices.flatMap contribution ∧
      result.pendingPromotions = admitted.pendingPromotions ++ choices.flatMap queuedPromotions ∧
      KeepsFamilies enableIpv6 baseline
        (computeEffectiveBlocklists candidates result.safelist enableIpv6) := by
  induction externals generalizing admitted with
  | nil =>
    obtain rfl := Except.ok.inj decided
    exact ⟨(List.append_nil _).symm, (List.append_nil _).symm, kept⟩
  | cons external rest ih =>
    rw [admissionFrom] at decided
    cases first : admissionStep candidates enableIpv6 baseline admitted external with
    | error error => simp [first] at decided
    | ok next =>
      obtain ⟨safelist, promotions⟩ := admissionStep_ok first
      rw [first] at decided
      have keptNext : KeepsFamilies enableIpv6 baseline
          (computeEffectiveBlocklists candidates next.safelist enableIpv6) := by
        rw [safelist]
        exact keepsFamilies_contribution kept
      obtain ⟨restSafelist, restPromotions, keptLast⟩ := ih decided keptNext
      refine ⟨?_, ?_, keptLast⟩
      · rw [restSafelist, safelist, List.append_assoc]
        rfl
      · rw [restPromotions, promotions, safelist, List.append_assoc]
        rfl

end Admission

/-- The queued promotions are those of the choices that selected the primary. -/
theorem flatMap_queuedPromotions (choices : List AdmissionChoice) :
    choices.flatMap queuedPromotions =
      (choices.filter fun choice => choice.2 = .primary).flatMap fun choice =>
        pendingOf choice.1.provider choice.1.pendingPromotions := by
  induction choices with
  | nil => rfl
  | cons choice rest ih =>
    by_cases selected : choice.2 = .primary <;> simp [queuedPromotions, selected, ih]

section Choices

variable (candidates : List CanonicalCidr) (enableIpv6 : Bool) (baseline : EffectiveBlocklists)

/-- There is one choice for each external safelist, in order. -/
theorem admissionChoices_fst (externals : List LoadedExternalSafelist)
    (safelist : List CanonicalCidr) :
    (admissionChoices candidates enableIpv6 baseline externals safelist).map Prod.fst =
      externals := by
  induction externals generalizing safelist with
  | nil => rfl
  | cons external rest ih => exact congrArg (external :: ·) (ih _)

/-- A choice contributes the whole primary batch, the whole fallback batch, or nothing. -/
theorem contribution_of_mem (externals : List LoadedExternalSafelist)
    (safelist : List CanonicalCidr) {choice : AdmissionChoice}
    (chosen : choice ∈ admissionChoices candidates enableIpv6 baseline externals safelist) :
    (choice.2 = .primary ∧ contribution choice = choice.1.primary.networks) ∨
      (choice.2 = .fallback ∧ ∃ fallback, choice.1.fallback = some fallback ∧
        contribution choice = fallback.networks) ∨
      (choice.2 = .unavailable ∧ contribution choice = []) := by
  induction externals generalizing safelist with
  | nil => exact absurd chosen List.not_mem_nil
  | cons external rest ih =>
    rcases List.mem_cons.mp chosen with rfl | later
    · cases selected : external.selection candidates safelist enableIpv6 baseline with
      | primary => exact Or.inl ⟨rfl, rfl⟩
      | fallback =>
        obtain ⟨fallback, present, _⟩ := exists_fallback selected
        exact Or.inr (Or.inl ⟨rfl, fallback, present, by simp [contribution, present]⟩)
      | unavailable => exact Or.inr (Or.inr ⟨rfl, rfl⟩)
    · exact ih _ later

end Choices

/-- Whenever admission succeeds, in whatever environment: the safelist holds
exactly the operator entries and what the choices contribute, each external
safelist contributes its whole primary, its whole fallback or nothing, no
enabled family blocked under the operator safelist becomes free, and the
promotions queued are those of the selected primaries. -/
theorem admitExternalSafelists_contract {State : Type} {step : Step PortOp PortOp.Result State}
    (candidates safelist : List CanonicalCidr) (externals : List LoadedExternalSafelist)
    (enableIpv6 : Bool) (pendingPromotions : List PendingPromotion)
    (summaries : List SourceSummary) {state last : State}
    {trace : List (Event PortOp PortOp.Result State)} {admitted : Admitted}
    (succeeded : Runs step (admitExternalSafelists candidates safelist externals enableIpv6
      pendingPromotions summaries) state trace last (.returned admitted)) :
    let baseline := computeEffectiveBlocklists candidates safelist enableIpv6
    let choices := admissionChoices candidates enableIpv6 baseline externals safelist
    (∀ cidr ∈ safelist, cidr ∈ admitted.safelist) ∧
      (∀ cidr, cidr ∈ admitted.safelist ↔
        cidr ∈ safelist ∨ ∃ choice ∈ choices, cidr ∈ contribution choice) ∧
      choices.map Prod.fst = externals ∧
      (∀ choice ∈ choices,
        (choice.2 = .primary ∧ contribution choice = choice.1.primary.networks) ∨
          (choice.2 = .fallback ∧ ∃ fallback, choice.1.fallback = some fallback ∧
            contribution choice = fallback.networks) ∨
          (choice.2 = .unavailable ∧ contribution choice = [])) ∧
      KeepsFamilies enableIpv6 baseline
        (computeEffectiveBlocklists candidates admitted.safelist enableIpv6) ∧
      admitted.pendingPromotions = pendingPromotions ++
        (choices.filter fun choice => choice.2 = .primary).flatMap fun choice =>
          pendingOf choice.1.provider choice.1.pendingPromotions := by
  intro baseline choices
  have decided := returned_of_reports
    (reports_admitExternalSafelists candidates safelist enableIpv6 externals pendingPromotions
      summaries) succeeded
  obtain ⟨result, admittedFrom, rfl⟩ : ∃ result, admissionFrom candidates enableIpv6 baseline
      externals ⟨safelist, pendingPromotions, summaries⟩ = .ok result ∧
      { result with safelist := sortedUnique result.safelist } = admitted := by
    unfold admission at decided
    cases looped : admissionFrom candidates enableIpv6 baseline externals
        ⟨safelist, pendingPromotions, summaries⟩ with
    | ok result =>
      rw [looped] at decided
      exact ⟨result, rfl, Except.ok.inj decided⟩
    | error error =>
      rw [looped] at decided
      exact absurd decided nofun
  obtain ⟨safelistEq, promotionsEq, kept⟩ :=
    admissionFrom_ok externals admittedFrom (KeepsFamilies.refl enableIpv6 baseline)
  -- deduplication at the end changes the order of the safelist only
  have members : ∀ cidr, cidr ∈ sortedUnique result.safelist ↔
      cidr ∈ safelist ∨ ∃ choice ∈ choices, cidr ∈ contribution choice := by
    intro cidr
    rw [mem_sortedUnique, safelistEq, List.mem_append, List.mem_flatMap]
  refine ⟨fun cidr member => (members cidr).mpr (Or.inl member), members,
    admissionChoices_fst _ _ _ _ _, fun choice => contribution_of_mem _ _ _ _ _, ?_, ?_⟩
  · exact (keepsFamilies_congr candidates fun _ => mem_sortedUnique).mpr kept
  · rw [promotionsEq, flatMap_queuedPromotions]

/-- A feed that safelists everything, with a fallback that does not. -/
def overreachingFeed : LoadedExternalSafelist where
  provider := "feed"
  primary := ⟨[.v4 (Cidr.fromParts 0#32 0 (by decide))], []⟩
  fallback := some ⟨[.v4 (Cidr.fromParts 0x0A010000#32 16 (by decide))], []⟩
  pendingPromotions := [1]
  summaryIndex := 0
  fallbackFailure := none

/-- The overreaching feed is replaced by its fallback and 10.0.0.0/8 stays blocked. -/
theorem admitExternalSafelists_contract_overreaching :
    let candidates := [CanonicalCidr.v4 (Cidr.fromParts 0x0A000000#32 8 (by decide))]
    overreachingFeed.selection candidates [] false (computeEffectiveBlocklists candidates [] false) =
        .fallback ∧
      ∃ admitted, admission candidates [] [overreachingFeed] false [] [] = .ok admitted ∧
        admitted.pendingPromotions = [] ∧
        KeepsFamilies false (computeEffectiveBlocklists candidates [] false)
          (computeEffectiveBlocklists candidates admitted.safelist false) := by
  intro candidates
  have selected : overreachingFeed.selection candidates [] false
      (computeEffectiveBlocklists candidates [] false) = .fallback := by
    decide +kernel
  obtain ⟨admitted, decided, noPromotion⟩ : ∃ admitted,
      admission candidates [] [overreachingFeed] false [] [] = .ok admitted ∧
        admitted.pendingPromotions = [] := by
    simp only [admission, admissionFrom, admissionStep, selected]
    exact ⟨_, rfl, rfl⟩
  have reports := reports_admitExternalSafelists candidates [] false [overreachingFeed] [] []
  rw [decided] at reports
  obtain ⟨trace, succeeded⟩ := runs_of_reports reports .start
  have contract := admitExternalSafelists_contract candidates [] [overreachingFeed] false [] []
    succeeded
  exact ⟨selected, admitted, decided, noPromotion, contract.2.2.2.2.1⟩

end Kidobo.Sync
