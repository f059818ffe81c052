import Kidobo.Foundation.SortedList
import Kidobo.Network.Effective

/-!
# Admission of external safelists

An externally controlled safelist is admitted only when no enabled family whose
baseline blocklist is not empty becomes empty under it.

## Main definitions

* `externalSafelistPreservesBaseline`, `selectExternalSafelist`
* `KeepsFamilies`: no enabled family falls free

## Main results

* `externalSafelistPreservesBaseline_iff`: the test keeps the enabled families
  blocked under the combined safelist
* `keepsFamilies_of_primary`, `keepsFamilies_of_fallback`
-/

namespace Kidobo

open Foundation

/-- Which batch of an external safelist is used. -/
inductive ExternalSafelistSelection where
  | primary
  | fallback
  | unavailable
  deriving DecidableEq, Repr

/-- `sort_unstable` followed by `dedup`. -/
def sortedUnique (cidrs : List CanonicalCidr) : List CanonicalCidr :=
  dedupAdjacent (sortUnstable cidrs)

@[simp] theorem mem_sortedUnique {cidr : CanonicalCidr} {cidrs : List CanonicalCidr} :
    cidr ∈ sortedUnique cidrs ↔ cidr ∈ cidrs := by
  simp [sortedUnique]

/-- `external_safelist_preserves_baseline`. -/
def externalSafelistPreservesBaseline (candidates operatorSafelist externalSafelist :
    List CanonicalCidr) (enableIpv6 : Bool) (baseline : EffectiveBlocklists) : Bool :=
  let combined := sortedUnique (operatorSafelist ++ externalSafelist)
  let admitted := computeEffectiveBlocklists candidates combined enableIpv6
  (baseline.ipv4.isEmpty || !admitted.ipv4.isEmpty) &&
    (!enableIpv6 || baseline.ipv6.isEmpty || !admitted.ipv6.isEmpty)

/-- `select_external_safelist`. -/
def selectExternalSafelist (candidates operatorAndAdmittedSafelist primary : List CanonicalCidr)
    (fallback : Option (List CanonicalCidr)) (enableIpv6 : Bool) (baseline : EffectiveBlocklists) :
    ExternalSafelistSelection :=
  if externalSafelistPreservesBaseline candidates operatorAndAdmittedSafelist primary enableIpv6
      baseline then .primary
  else if fallback.any fun networks =>
      externalSafelistPreservesBaseline candidates operatorAndAdmittedSafelist networks enableIpv6
        baseline then .fallback
  else .unavailable

/-! ### Emptiness of effective blocklists -/

/-- A list of networks is empty exactly when it covers no address. -/
theorem covered_eq_empty_iff {width : ℕ} {cidrs : List (Cidr width)} :
    covered cidrs = ∅ ↔ cidrs = [] := by
  constructor
  · intro nothing
    cases cidrs with
    | nil => rfl
    | cons cidr rest =>
      have first : cidr.span.lo ∈ covered (cidr :: rest) :=
        mem_covered.mpr ⟨cidr, List.mem_cons_self, le_rfl, cidr.span_valid⟩
      rw [nothing] at first
      exact absurd first (Set.notMem_empty _)
  · intro empty
    rw [empty]
    exact cover_nil

/-- Every enabled family blocked by `before` is still blocked by `after`. -/
structure KeepsFamilies (enableIpv6 : Bool) (before after : EffectiveBlocklists) : Prop where
  ipv4 : before.ipv4 ≠ [] → after.ipv4 ≠ []
  ipv6 : enableIpv6 = true → before.ipv6 ≠ [] → after.ipv6 ≠ []

theorem KeepsFamilies.refl (enableIpv6 : Bool) (effective : EffectiveBlocklists) :
    KeepsFamilies enableIpv6 effective effective :=
  ⟨id, fun _ => id⟩

section SameMembers

variable (candidates : List CanonicalCidr) {left right : List CanonicalCidr}

/-- Whether a family is blocked depends only on which networks are safelisted. -/
theorem effective_eq_nil_congr (same : ∀ cidr, cidr ∈ left ↔ cidr ∈ right) (enableIpv6 : Bool) :
    ((computeEffectiveBlocklists candidates left enableIpv6).ipv4 = [] ↔
        (computeEffectiveBlocklists candidates right enableIpv6).ipv4 = []) ∧
      ((computeEffectiveBlocklists candidates left enableIpv6).ipv6 = [] ↔
        (computeEffectiveBlocklists candidates right enableIpv6).ipv6 = []) := by
  constructor
  · rw [← covered_eq_empty_iff, ← covered_eq_empty_iff, covered_effective_ipv4,
      covered_effective_ipv4]
    simp only [ipv4Addresses, same]
  · cases enableIpv6 with
    | false => simp
    | true =>
      rw [← covered_eq_empty_iff, ← covered_eq_empty_iff, covered_effective_ipv6,
        covered_effective_ipv6]
      simp only [ipv6Addresses, same]

theorem keepsFamilies_congr (same : ∀ cidr, cidr ∈ left ↔ cidr ∈ right) {enableIpv6 : Bool}
    {baseline : EffectiveBlocklists} :
    KeepsFamilies enableIpv6 baseline (computeEffectiveBlocklists candidates left enableIpv6) ↔
      KeepsFamilies enableIpv6 baseline
        (computeEffectiveBlocklists candidates right enableIpv6) := by
  obtain ⟨ipv4, ipv6⟩ := effective_eq_nil_congr candidates same enableIpv6
  constructor <;> intro keeps
  · exact ⟨fun blocked => mt ipv4.mpr (keeps.ipv4 blocked),
      fun enabled blocked => mt ipv6.mpr (keeps.ipv6 enabled blocked)⟩
  · exact ⟨fun blocked => mt ipv4.mp (keeps.ipv4 blocked),
      fun enabled blocked => mt ipv6.mp (keeps.ipv6 enabled blocked)⟩

end SameMembers

/-- The admission test decides whether the enabled families stay blocked under
the combined safelist. -/
theorem externalSafelistPreservesBaseline_iff {candidates operator external : List CanonicalCidr}
    {enableIpv6 : Bool} {baseline : EffectiveBlocklists} :
    externalSafelistPreservesBaseline candidates operator external enableIpv6 baseline = true ↔
      KeepsFamilies enableIpv6 baseline
        (computeEffectiveBlocklists candidates (operator ++ external) enableIpv6) := by
  have sameMembers : ∀ cidr, cidr ∈ sortedUnique (operator ++ external) ↔
      cidr ∈ operator ++ external := fun _ => mem_sortedUnique
  rw [← keepsFamilies_congr candidates sameMembers]
  simp only [externalSafelistPreservesBaseline, Bool.and_eq_true, Bool.or_eq_true,
    Bool.not_eq_true', List.isEmpty_iff, List.isEmpty_eq_false_iff]
  constructor
  · intro test
    exact ⟨fun blocked => test.1.resolve_left blocked,
      fun enabled blocked => (test.2.resolve_left (by simp [enabled, blocked]))⟩
  · intro keeps
    refine ⟨or_iff_not_imp_left.mpr keeps.ipv4, ?_⟩
    cases enableIpv6 with
    | false => exact Or.inl (Or.inl rfl)
    | true =>
      by_cases blocked : baseline.ipv6 = []
      · exact Or.inl (Or.inr blocked)
      · exact Or.inr (keeps.ipv6 rfl blocked)

/-! ### What a selection says -/

section Selection

variable {candidates admitted primary : List CanonicalCidr}
  {fallback : Option (List CanonicalCidr)} {enableIpv6 : Bool} {baseline : EffectiveBlocklists}

theorem keepsFamilies_of_primary
    (selected : selectExternalSafelist candidates admitted primary fallback enableIpv6 baseline =
      .primary) :
    KeepsFamilies enableIpv6 baseline
      (computeEffectiveBlocklists candidates (admitted ++ primary) enableIpv6) := by
  rw [← externalSafelistPreservesBaseline_iff]
  unfold selectExternalSafelist at selected
  split_ifs at selected with preserves
  exact preserves

theorem keepsFamilies_of_fallback
    (selected : selectExternalSafelist candidates admitted primary fallback enableIpv6 baseline =
      .fallback) :
    ∃ networks, fallback = some networks ∧ KeepsFamilies enableIpv6 baseline
      (computeEffectiveBlocklists candidates (admitted ++ networks) enableIpv6) := by
  unfold selectExternalSafelist at selected
  split_ifs at selected with _ preserves
  obtain ⟨networks, present, kept⟩ := (Option.any_eq_true _ _).mp preserves
  exact ⟨networks, present, externalSafelistPreservesBaseline_iff.mp kept⟩

end Selection

end Kidobo
