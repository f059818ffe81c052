import Kidobo.Foundation.MaximalBlocks
import Kidobo.Network.Subtract

/-!
# The normal form of a set of addresses

Collapsing and subtracting both end in the greedy cut of separated intervals.
Their output is the one ascending list of maximal networks of the covered set:
no list of networks that covers the same addresses is shorter.

## Main definitions

* `collapseIpv4`, `collapseIpv6`
* `NormalForm`: ascending, disjoint, aligned and of minimal length

## Main results

* `normalForm_of_map_span`, `eq_of_map_span`
* `collapse_subtract_normalForm`
-/

namespace Kidobo

open Foundation

variable {width : ℕ}

/-- `collapse_ipv4`. -/
def collapseIpv4 (cidrs : List Ipv4Cidr) : List Ipv4Cidr :=
  intervalsToIpv4CidrsFromMerged (mergeIntervalsU32Owned (cidrs.map toInterval))

/-- `collapse_ipv6`. -/
def collapseIpv6 (cidrs : List Ipv6Cidr) : List Ipv6Cidr :=
  intervalsToIpv6CidrsFromMerged (mergeIntervalsU128Owned (cidrs.map toInterval))

/-- The networks cover exactly these addresses, come in strictly ascending order
without a shared address, start at multiples of their block sizes, and no list of
networks that covers the same addresses is shorter. -/
structure NormalForm (addresses : Set ℕ) (networks : List (Cidr width)) : Prop where
  covers : covered networks = addresses
  ascending : networks.Pairwise (· < ·)
  disjoint : networks.Pairwise fun left right => Disjoint left.span.points right.span.points
  aligned : ∀ cidr ∈ networks, 2 ^ (width - cidr.prefixLen) ∣ cidr.network.toNat
  minimal : ∀ others : List (Cidr width),
    covered others = addresses → networks.length ≤ others.length

theorem Cidr.isBlock_span (cidr : Cidr width) : IsBlock width cidr.span :=
  ⟨width - cidr.prefixLen, Nat.sub_le _ _, cidr.blockSize_dvd, rfl⟩

/-- The block of a network determines it. -/
theorem Cidr.span_injective : Function.Injective (@Cidr.span width) := by
  intro left right same
  simp only [Cidr.span, Span.mk.injEq] at same
  obtain ⟨sameStart, sameEnd⟩ := same
  have leftPositive : 0 < 2 ^ (width - left.prefixLen) := Nat.two_pow_pos _
  have rightPositive : 0 < 2 ^ (width - right.prefixLen) := Nat.two_pow_pos _
  have sameSize : 2 ^ (width - left.prefixLen) = 2 ^ (width - right.prefixLen) := by omega
  have sameExponent := Nat.pow_right_injective (le_refl 2) sameSize
  have leftInRange := left.inRange
  have rightInRange := right.inRange
  exact Cidr.ext (BitVec.eq_of_toNat_eq sameStart) (by omega)

/-- Networks that denote the greedy cut of separated spans are the normal form
of the covered points. -/
theorem normalForm_of_map_span {networks : List (Cidr width)} {merged : List Span}
    (separated : Separated merged)
    (denoted : networks.map Cidr.span =
      merged.flatMap fun span => blocks width span.lo span.hi) :
    NormalForm (cover merged) networks := by
  have ascending : Ascending (networks.map Cidr.span) :=
    denoted ▸ flatMap_blocks_ascending width separated.ascending
  have apart := List.pairwise_map.mp ascending.2
  constructor
  · rw [covered, denoted, cover_flatMap_blocks]
  · apply apart.imp
    intro left right before
    exact Cidr.lt_of_network_lt (lt_of_le_of_lt (Nat.le_add_right _ _) before)
  · apply apart.imp
    intro left right before
    apply Set.disjoint_left.mpr
    intro address inLeft inRight
    rw [Span.mem_points] at inLeft inRight
    omega
  · intro cidr _
    exact cidr.blockSize_dvd
  · intro others covers
    have shortest := @length_flatMap_blocks_le width merged (others.map Cidr.span) separated
      (fun other member => by
        obtain ⟨cidr, _, rfl⟩ := List.mem_map.mp member
        exact cidr.isBlock_span) covers
    rwa [← denoted, List.length_map, List.length_map] at shortest

/-- Networks that denote the greedy cuts of separated spans with the same points
are equal. -/
theorem eq_of_map_span {left right : List (Cidr width)} {leftMerged rightMerged : List Span}
    (leftSeparated : Separated leftMerged) (rightSeparated : Separated rightMerged)
    (leftDenoted : left.map Cidr.span =
      leftMerged.flatMap fun span => blocks width span.lo span.hi)
    (rightDenoted : right.map Cidr.span =
      rightMerged.flatMap fun span => blocks width span.lo span.hi)
    (same : cover leftMerged = cover rightMerged) : left = right := by
  rw [separated_unique leftSeparated rightSeparated same, ← rightDenoted] at leftDenoted
  exact Cidr.span_injective.list_map leftDenoted

/-! ### Collapsing -/

section Collapse

/-- Whatever merged the intervals, the collapsed networks are the normal form. -/
theorem normalForm_of_merged {cidrs : List (Cidr width)} {merged : List (Interval width)}
    (spec : cover (spans merged) = covered cidrs ∧ Separated (spans merged)) :
    NormalForm (covered cidrs) (intervalsToCidrsFromMerged merged) := by
  obtain ⟨sameCover, separated⟩ := spec
  rw [← sameCover]
  exact normalForm_of_map_span separated (map_span_intervalsToCidrsFromMerged merged)

theorem collapseIpv4_normalForm (cidrs : List Ipv4Cidr) :
    NormalForm (covered cidrs) (collapseIpv4 cidrs) :=
  normalForm_of_merged (mergeIntervalsU32Owned_cidrs cidrs)

theorem collapseIpv6_normalForm (cidrs : List Ipv6Cidr) :
    NormalForm (covered cidrs) (collapseIpv6 cidrs) :=
  normalForm_of_merged (mergeIntervalsU128Owned_cidrs cidrs)

theorem collapse_eq_of_merged {left right : List (Cidr width)}
    {leftMerged rightMerged : List (Interval width)}
    (leftSpec : cover (spans leftMerged) = covered left ∧ Separated (spans leftMerged))
    (rightSpec : cover (spans rightMerged) = covered right ∧ Separated (spans rightMerged))
    (same : covered left = covered right) :
    intervalsToCidrsFromMerged leftMerged = intervalsToCidrsFromMerged rightMerged :=
  eq_of_map_span leftSpec.2 rightSpec.2 (map_span_intervalsToCidrsFromMerged _)
    (map_span_intervalsToCidrsFromMerged _) (leftSpec.1.trans (same.trans rightSpec.1.symm))

/-- Collapsing depends on the covered addresses only. -/
theorem collapseIpv4_congr {left right : List Ipv4Cidr} (same : covered left = covered right) :
    collapseIpv4 left = collapseIpv4 right :=
  collapse_eq_of_merged (mergeIntervalsU32Owned_cidrs left) (mergeIntervalsU32Owned_cidrs right)
    same

theorem collapseIpv6_congr {left right : List Ipv6Cidr} (same : covered left = covered right) :
    collapseIpv6 left = collapseIpv6 right :=
  collapse_eq_of_merged (mergeIntervalsU128Owned_cidrs left) (mergeIntervalsU128Owned_cidrs right)
    same

end Collapse

/-! ### Subtracting -/

section Subtract

variable {candidates safelist networks : List (Cidr width)}

theorem normalForm_of_denotes_difference
    (denoted : networks.map Cidr.span =
      differenceBlocks width (candidates.map Cidr.span) (safelist.map Cidr.span)) :
    NormalForm (covered candidates \ covered safelist) networks := by
  have candidatesValid := allValid_map_span candidates
  have safelistValid := allValid_map_span safelist
  have normal := normalForm_of_map_span
    (subtract_mergeSpans_separated candidatesValid safelistValid) denoted
  rw [cover_subtract _ _ (mergeSpans_spec candidatesValid).2 (mergeSpans_spec safelistValid).2,
    (mergeSpans_spec candidatesValid).1, (mergeSpans_spec safelistValid).1] at normal
  exact normal

theorem eq_of_denotes_difference {otherCandidates otherSafelist others : List (Cidr width)}
    (denoted : networks.map Cidr.span =
      differenceBlocks width (candidates.map Cidr.span) (safelist.map Cidr.span))
    (otherDenoted : others.map Cidr.span =
      differenceBlocks width (otherCandidates.map Cidr.span) (otherSafelist.map Cidr.span))
    (same : covered candidates \ covered safelist =
      covered otherCandidates \ covered otherSafelist) : networks = others := by
  have separated := subtract_mergeSpans_separated (allValid_map_span candidates)
    (allValid_map_span safelist)
  have otherSeparated := subtract_mergeSpans_separated (allValid_map_span otherCandidates)
    (allValid_map_span otherSafelist)
  apply eq_of_map_span separated otherSeparated denoted otherDenoted
  have covers := (normalForm_of_map_span separated denoted).covers
  have otherCovers := (normalForm_of_map_span otherSeparated otherDenoted).covers
  rw [← covers, ← otherCovers, covered_of_map_span denoted, covered_of_map_span otherDenoted, same]

end Subtract

/-- The networks that collapsing and safelist subtraction return, in both
families, are the normal form of the covered addresses, and they depend on the
covered addresses only. -/
theorem collapse_subtract_normalForm :
    (∀ cidrs : List Ipv4Cidr, NormalForm (covered cidrs) (collapseIpv4 cidrs)) ∧
    (∀ cidrs : List Ipv6Cidr, NormalForm (covered cidrs) (collapseIpv6 cidrs)) ∧
    (∀ candidates safelist : List Ipv4Cidr,
      NormalForm (covered candidates \ covered safelist)
        (subtractSafelistIpv4 candidates safelist)) ∧
    (∀ candidates safelist : List Ipv6Cidr,
      NormalForm (covered candidates \ covered safelist)
        (subtractSafelistIpv6 candidates safelist)) ∧
    (∀ left right : List Ipv4Cidr, covered left = covered right →
      collapseIpv4 left = collapseIpv4 right) ∧
    (∀ left right : List Ipv6Cidr, covered left = covered right →
      collapseIpv6 left = collapseIpv6 right) ∧
    (∀ candidates safelist otherCandidates otherSafelist : List Ipv4Cidr,
      covered candidates \ covered safelist = covered otherCandidates \ covered otherSafelist →
      subtractSafelistIpv4 candidates safelist =
        subtractSafelistIpv4 otherCandidates otherSafelist) ∧
    (∀ candidates safelist otherCandidates otherSafelist : List Ipv6Cidr,
      covered candidates \ covered safelist = covered otherCandidates \ covered otherSafelist →
      subtractSafelistIpv6 candidates safelist =
        subtractSafelistIpv6 otherCandidates otherSafelist) := by
  refine ⟨collapseIpv4_normalForm, collapseIpv6_normalForm, ?_, ?_, ?_, ?_, ?_, ?_⟩
  · intro candidates safelist
    exact normalForm_of_denotes_difference (map_span_subtractSafelistIpv4 candidates safelist)
  · intro candidates safelist
    exact normalForm_of_denotes_difference (map_span_subtractSafelistIpv6 candidates safelist)
  · intro left right same
    exact collapseIpv4_congr same
  · intro left right same
    exact collapseIpv6_congr same
  · intro candidates safelist otherCandidates otherSafelist same
    exact eq_of_denotes_difference (map_span_subtractSafelistIpv4 candidates safelist)
      (map_span_subtractSafelistIpv4 otherCandidates otherSafelist) same
  · intro candidates safelist otherCandidates otherSafelist same
    exact eq_of_denotes_difference (map_span_subtractSafelistIpv6 candidates safelist)
      (map_span_subtractSafelistIpv6 otherCandidates otherSafelist) same

end Kidobo
