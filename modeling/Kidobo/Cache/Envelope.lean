import Mathlib
import Kidobo.Cache.GithubMeta
import Kidobo.Network.Effective

/-!
# The envelope of the GitHub safelist

Coverage is counted on collapsed networks, in words. Collapsed networks share no
address, so the sum counts every address once; and the limits on the number of
entries and on their prefix lengths keep each shift and each sum in its word.

## Main definitions

* `WithinEntryLimits`: what is checked before coverage is counted

## Main results

* `ncard_covered`: disjoint networks cover as many addresses as their sizes add up to
* `coverageOf_eq_some`: the sum of words, as long as it fits
* `githubMetaNetworksWithinEnvelope_spec`
-/

namespace Kidobo

open Foundation

/-! ### Counting addresses -/

section Count

variable {width : ℕ}

/-- How many addresses a network has. -/
def Cidr.size (cidr : Cidr width) : ℕ := 2 ^ (width - cidr.prefixLen)

theorem Cidr.points_eq_Ico (cidr : Cidr width) :
    cidr.span.points = Set.Ico cidr.network.toNat (cidr.network.toNat + cidr.size) := by
  have positive : 0 < cidr.size := Nat.two_pow_pos _
  ext address
  rw [Span.mem_points, Set.mem_Ico]
  simp only [Cidr.span, Cidr.size] at positive ⊢
  omega

theorem Cidr.ncard_points (cidr : Cidr width) : cidr.span.points.ncard = cidr.size := by
  rw [cidr.points_eq_Ico, ← Finset.coe_Ico, Set.ncard_coe_finset, Nat.card_Ico]
  omega

theorem Cidr.finite_points (cidr : Cidr width) : cidr.span.points.Finite := by
  rw [cidr.points_eq_Ico]
  exact Set.finite_Ico _ _

theorem covered_cons (cidr : Cidr width) (rest : List (Cidr width)) :
    covered (cidr :: rest) = cidr.span.points ∪ covered rest := by
  rw [covered, List.map_cons, cover_cons, covered]

theorem finite_covered (networks : List (Cidr width)) : (covered networks).Finite := by
  induction networks with
  | nil => simp [covered]
  | cons cidr rest ih =>
    rw [covered_cons]
    exact cidr.finite_points.union ih

/-- Disjoint networks cover as many addresses as their sizes add up to. -/
theorem ncard_covered {networks : List (Cidr width)}
    (disjoint : networks.Pairwise fun left right => Disjoint left.span.points right.span.points) :
    (covered networks).ncard = (networks.map Cidr.size).sum := by
  induction networks with
  | nil => simp [covered]
  | cons cidr rest ih =>
    obtain ⟨firstApart, restDisjoint⟩ := List.pairwise_cons.mp disjoint
    have apart : Disjoint cidr.span.points (covered rest) := by
      apply Set.disjoint_left.mpr
      intro address inFirst inRest
      obtain ⟨other, member, within⟩ := mem_covered.mp inRest
      exact Set.disjoint_left.mp (firstApart other member) inFirst within
    rw [covered_cons, Set.ncard_union_eq apart cidr.finite_points (finite_covered rest),
      cidr.ncard_points, ih restDisjoint, List.map_cons, List.sum_cons]

/-- Networks cover no more addresses than their sizes add up to. -/
theorem ncard_covered_le (networks : List (Cidr width)) :
    (covered networks).ncard ≤ (networks.map Cidr.size).sum := by
  induction networks with
  | nil => simp [covered]
  | cons cidr rest ih =>
    rw [covered_cons, List.map_cons, List.sum_cons, ← cidr.ncard_points]
    exact (Set.ncard_union_le _ _).trans (Nat.add_le_add_left ih _)

/-- Few networks with long prefixes cover few addresses. -/
theorem ncard_covered_le_of_prefix {networks : List (Cidr width)} {shortest : ℕ}
    (long : ∀ cidr ∈ networks, shortest ≤ cidr.prefixLen) :
    (covered networks).ncard ≤ networks.length * 2 ^ (width - shortest) := by
  apply (ncard_covered_le networks).trans
  have small : ∀ size ∈ networks.map Cidr.size, size ≤ 2 ^ (width - shortest) := by
    intro size member
    obtain ⟨cidr, inNetworks, rfl⟩ := List.mem_map.mp member
    have longEnough := long cidr inNetworks
    exact Nat.pow_le_pow_right (by decide) (by omega)
  simpa using List.sum_le_card_nsmul _ _ small

end Count

/-! ### Adding up words -/

section Words

variable {bits : ℕ}

theorem toNat_shiftedOne {amount : ℕ} (small : amount < bits) :
    (shiftedOne bits amount).toNat = 2 ^ amount := by
  have one : 1 < 2 ^ bits := Nat.one_lt_two_pow (by omega)
  have inWord : 2 ^ amount < 2 ^ bits := Nat.pow_lt_pow_right (by decide) small
  rw [shiftedOne, Nat.mod_eq_of_lt small, BitVec.toNat_shiftLeft, BitVec.toNat_ofNat,
    Nat.mod_eq_of_lt one, Nat.shiftLeft_eq, one_mul, Nat.mod_eq_of_lt inWord]

/-- A sum of words that fits is their sum. -/
theorem foldlM_checkedAdd {words : List (BitVec bits)} {start : BitVec bits}
    (fits : start.toNat + (words.map BitVec.toNat).sum < 2 ^ bits) :
    ∃ total, words.foldlM checkedAdd start = some total ∧
      total.toNat = start.toNat + (words.map BitVec.toNat).sum := by
  induction words generalizing start with
  | nil => exact ⟨start, rfl, by simp⟩
  | cons word rest ih =>
    rw [List.map_cons, List.sum_cons] at fits
    have firstFits : start.toNat + word.toNat < 2 ^ bits := by omega
    have value : (start + word).toNat = start.toNat + word.toNat := by
      rw [BitVec.toNat_add, Nat.mod_eq_of_lt firstFits]
    obtain ⟨total, summed, total_eq⟩ := @ih (start + word) (by omega)
    refine ⟨total, ?_, ?_⟩
    · rw [List.foldlM_cons, checkedAdd, if_pos firstFits]
      exact summed
    · rw [total_eq, value, List.map_cons, List.sum_cons, Nat.add_assoc]

/-- The coverage of networks whose sizes fit into words, when their sum fits. -/
theorem coverageOf_eq_some {width : ℕ} {networks : List (Cidr width)}
    (shiftsFit : ∀ cidr ∈ networks, width - cidr.prefixLen < bits)
    (sumFits : (networks.map Cidr.size).sum < 2 ^ bits) :
    ∃ total, coverageOf bits networks = some total ∧
      total.toNat = (networks.map Cidr.size).sum := by
  have words : ((networks.map fun cidr => shiftedOne bits (width - cidr.prefixLen)).map
      BitVec.toNat) = networks.map Cidr.size := by
    rw [List.map_map]
    apply List.map_congr_left
    intro cidr member
    exact toNat_shiftedOne (shiftsFit cidr member)
  have zero : (BitVec.ofNat bits 0).toNat = 0 := by simp
  obtain ⟨total, summed, total_eq⟩ := @foldlM_checkedAdd bits
    (networks.map fun cidr => shiftedOne bits (width - cidr.prefixLen)) (BitVec.ofNat bits 0)
    (by rw [words, zero, Nat.zero_add]; exact sumFits)
  exact ⟨total, summed, by rw [total_eq, words, zero, Nat.zero_add]⟩

/-- Coverage of collapsed networks is the number of covered addresses, when that fits. -/
theorem coverageOf_normalForm {width : ℕ} {networks collapsed : List (Cidr width)}
    (normal : NormalForm (covered networks) collapsed)
    (shiftsFit : ∀ cidr ∈ collapsed, width - cidr.prefixLen < bits)
    (fits : (covered networks).ncard < 2 ^ bits) :
    ∃ total, coverageOf bits collapsed = some total ∧ total.toNat = (covered networks).ncard := by
  have counted : (covered networks).ncard = (collapsed.map Cidr.size).sum := by
    rw [← normal.covers]
    exact ncard_covered normal.disjoint
  rw [counted] at fits ⊢
  exact coverageOf_eq_some shiftsFit fits

/-- A network of the normal form is no larger than what is covered. -/
theorem size_le_ncard {width : ℕ} {networks collapsed : List (Cidr width)} {cidr : Cidr width}
    (normal : NormalForm (covered networks) collapsed) (member : cidr ∈ collapsed) :
    cidr.size ≤ (covered networks).ncard := by
  have within : cidr.span.points ⊆ covered networks := by
    rw [← normal.covers]
    intro address inside
    exact mem_covered.mpr ⟨cidr, member, inside⟩
  rw [← cidr.ncard_points]
  exact Set.ncard_le_ncard within (finite_covered networks)

end Words

/-! ### The envelope -/

theorem length_splitByFamily (networks : List CanonicalCidr) :
    (splitByFamily networks).ipv4.length + (splitByFamily networks).ipv6.length =
      networks.length := by
  induction networks with
  | nil => rfl
  | cons network rest ih =>
    cases network <;> simp only [splitByFamily, List.length_cons] <;> omega

/-- What is checked before coverage is counted. -/
structure WithinEntryLimits (networks : List CanonicalCidr) : Prop where
  few : networks.length ≤ githubMetaMaxEntries
  ipv4Long : ∀ cidr, .v4 cidr ∈ networks → githubMetaMinIpv4Prefix ≤ cidr.prefixLen
  ipv6Long : ∀ cidr, .v6 cidr ∈ networks → githubMetaMinIpv6Prefix ≤ cidr.prefixLen

section Limits

variable {networks : List CanonicalCidr}

theorem WithinEntryLimits.ncard_ipv4_le (limited : WithinEntryLimits networks) :
    (ipv4Addresses networks).ncard ≤ 2 ^ 36 := by
  have long : ∀ cidr ∈ (splitByFamily networks).ipv4, 8 ≤ cidr.prefixLen := by
    intro cidr member
    exact limited.ipv4Long cidr (mem_splitByFamily_ipv4.mp member)
  have bounded := ncard_covered_le_of_prefix long
  have split := length_splitByFamily networks
  have few : networks.length ≤ 4096 := limited.few
  rw [covered_splitByFamily_ipv4] at bounded
  apply bounded.trans
  calc _ ≤ 4096 * 2 ^ (32 - 8) := Nat.mul_le_mul_right _ (by omega)
    _ = 2 ^ 36 := by norm_num

/-- The IPv6 limit can be reached, but not passed. -/
theorem WithinEntryLimits.ncard_ipv6_le (limited : WithinEntryLimits networks) :
    (ipv6Addresses networks).ncard ≤ 2 ^ 124 := by
  have long : ∀ cidr ∈ (splitByFamily networks).ipv6, 16 ≤ cidr.prefixLen := by
    intro cidr member
    exact limited.ipv6Long cidr (mem_splitByFamily_ipv6.mp member)
  have bounded := ncard_covered_le_of_prefix long
  have split := length_splitByFamily networks
  have few : networks.length ≤ 4096 := limited.few
  rw [covered_splitByFamily_ipv6] at bounded
  apply bounded.trans
  calc _ ≤ 4096 * 2 ^ (128 - 16) := Nat.mul_le_mul_right _ (by omega)
    _ = 2 ^ 124 := by norm_num

/-- The shift for a collapsed IPv4 network fits. -/
theorem ipv4_shift_fits (cidr : Ipv4Cidr) : 32 - cidr.prefixLen < 64 := by omega

/-- What is covered is too little for a collapsed network without a prefix. -/
theorem WithinEntryLimits.ipv6_shift_fits (limited : WithinEntryLimits networks)
    {cidr : Ipv6Cidr} (member : cidr ∈ collapseIpv6 (splitByFamily networks).ipv6) :
    cidr.prefixLen ≠ 0 ∧ 128 - cidr.prefixLen < 128 := by
  have small := size_le_ncard (collapseIpv6_normalForm (splitByFamily networks).ipv6) member
  rw [covered_splitByFamily_ipv6] at small
  have fewer := small.trans limited.ncard_ipv6_le
  have positive : cidr.prefixLen ≠ 0 := by
    intro whole
    rw [Cidr.size, whole] at fewer
    norm_num at fewer
  exact ⟨positive, by omega⟩

theorem WithinEntryLimits.ipv4Coverage (limited : WithinEntryLimits networks) :
    ∃ total, coverageOf 64 (collapseIpv4 (splitByFamily networks).ipv4) = some total ∧
      total.toNat = (ipv4Addresses networks).ncard := by
  rw [← covered_splitByFamily_ipv4]
  apply coverageOf_normalForm (collapseIpv4_normalForm _) fun cidr _ => ipv4_shift_fits cidr
  rw [covered_splitByFamily_ipv4]
  exact lt_of_le_of_lt limited.ncard_ipv4_le (by norm_num)

theorem WithinEntryLimits.ipv6Coverage (limited : WithinEntryLimits networks) :
    ∃ total, coverageOf 128 (collapseIpv6 (splitByFamily networks).ipv6) = some total ∧
      total.toNat = (ipv6Addresses networks).ncard := by
  rw [← covered_splitByFamily_ipv6]
  apply coverageOf_normalForm (collapseIpv6_normalForm _)
  · intro cidr member
    exact (limited.ipv6_shift_fits member).2
  · rw [covered_splitByFamily_ipv6]
    exact lt_of_le_of_lt limited.ncard_ipv6_le (by norm_num)

theorem withinEntryLimits_iff :
    WithinEntryLimits networks ↔
      (githubMetaMaxEntries < networks.length || networks.any isTooWide) = false := by
  rw [Bool.or_eq_false_iff, decide_eq_false_iff_not, not_lt, List.any_eq_false]
  constructor
  · rintro ⟨few, ipv4Long, ipv6Long⟩
    refine ⟨few, fun network member => ?_⟩
    cases network with
    | v4 cidr => simpa [isTooWide] using ipv4Long cidr member
    | v6 cidr => simpa [isTooWide] using ipv6Long cidr member
  · rintro ⟨few, long⟩
    refine ⟨few, fun cidr member => ?_, fun cidr member => ?_⟩
    · simpa [isTooWide] using long _ member
    · simpa [isTooWide] using long _ member

/-- The envelope checks the entries first, and then what they cover. -/
theorem githubMetaNetworksWithinEnvelope_iff :
    githubMetaNetworksWithinEnvelope networks = true ↔
      WithinEntryLimits networks ∧
        (ipv4Addresses networks).ncard ≤ githubMetaIpv4CoverageLimit ∧
        (ipv6Addresses networks).ncard ≤ githubMetaIpv6CoverageLimit := by
  rw [githubMetaNetworksWithinEnvelope]
  by_cases limited : WithinEntryLimits networks
  · obtain ⟨ipv4Total, ipv4Counted, ipv4Value⟩ := limited.ipv4Coverage
    obtain ⟨ipv6Total, ipv6Counted, ipv6Value⟩ := limited.ipv6Coverage
    rw [withinEntryLimits_iff.mp limited, if_neg Bool.false_ne_true]
    simp [ipv4Counted, ipv6Counted, ipv4Value, ipv6Value, limited]
  · have rejected := mt withinEntryLimits_iff.mpr limited
    rw [Bool.not_eq_false] at rejected
    simp [rejected, limited]

end Limits

/-- The envelope accepts some networks if and only if they are few, have no short
prefix and cover few addresses, each counted once. Whenever coverage is counted,
every shift stays below the width of its word, no sum passes the largest word,
and no collapsed IPv6 network is without a prefix. -/
theorem githubMetaNetworksWithinEnvelope_spec (networks : List CanonicalCidr) :
    (githubMetaNetworksWithinEnvelope networks = true ↔
      WithinEntryLimits networks ∧
        (ipv4Addresses networks).ncard ≤ githubMetaIpv4CoverageLimit ∧
        (ipv6Addresses networks).ncard ≤ githubMetaIpv6CoverageLimit) ∧
    (WithinEntryLimits networks →
      (∀ cidr ∈ collapseIpv4 (splitByFamily networks).ipv4, 32 - cidr.prefixLen < 64) ∧
      (∀ cidr ∈ collapseIpv6 (splitByFamily networks).ipv6,
        cidr.prefixLen ≠ 0 ∧ 128 - cidr.prefixLen < 128) ∧
      (∃ total, coverageOf 64 (collapseIpv4 (splitByFamily networks).ipv4) = some total ∧
        total.toNat = (ipv4Addresses networks).ncard) ∧
      ∃ total, coverageOf 128 (collapseIpv6 (splitByFamily networks).ipv6) = some total ∧
        total.toNat = (ipv6Addresses networks).ncard) := by
  refine ⟨githubMetaNetworksWithinEnvelope_iff, fun limited => ⟨?_, ?_, ?_, ?_⟩⟩
  · intro cidr _
    exact ipv4_shift_fits cidr
  · intro cidr member
    exact limited.ipv6_shift_fits member
  · exact limited.ipv4Coverage
  · exact limited.ipv6Coverage

end Kidobo
