import Kidobo.Network.Subtract

/-!
# Effective blocklists

The candidates and the safelist are separated by family, and each enabled
family is carved by the safelist entries of its own family.

## Main results

* `computeEffectiveBlocklists_exact`: exact address sets, no cross-family
  influence and no arithmetic artefact
-/

namespace Kidobo

open Foundation

/-- Effective networks remaining after family separation and safelist carving. -/
structure EffectiveBlocklists where
  ipv4 : List Ipv4Cidr
  ipv6 : List Ipv6Cidr

/-- `compute_effective_blocklists`. -/
def computeEffectiveBlocklists (candidates safelist : List CanonicalCidr) (enableIpv6 : Bool) :
    EffectiveBlocklists :=
  let candidateFamily := splitByFamily candidates
  let safelistFamily := splitByFamily safelist
  let effectiveV4 := subtractSafelistIpv4 candidateFamily.ipv4 safelistFamily.ipv4
  let effectiveV6 :=
    if enableIpv6 then subtractSafelistIpv6 candidateFamily.ipv6 safelistFamily.ipv6 else []
  ⟨effectiveV4, effectiveV6⟩

/-- The IPv4 addresses covered by the IPv4 entries of a mixed list. -/
def ipv4Addresses (cidrs : List CanonicalCidr) : Set ℕ :=
  {address | ∃ cidr, CanonicalCidr.v4 cidr ∈ cidrs ∧ address ∈ cidr.span.points}

/-- The IPv6 addresses covered by the IPv6 entries of a mixed list. -/
def ipv6Addresses (cidrs : List CanonicalCidr) : Set ℕ :=
  {address | ∃ cidr, CanonicalCidr.v6 cidr ∈ cidrs ∧ address ∈ cidr.span.points}

theorem covered_splitByFamily_ipv4 (cidrs : List CanonicalCidr) :
    covered (splitByFamily cidrs).ipv4 = ipv4Addresses cidrs := by
  ext address
  simp only [mem_covered, mem_splitByFamily_ipv4]
  rfl

theorem covered_splitByFamily_ipv6 (cidrs : List CanonicalCidr) :
    covered (splitByFamily cidrs).ipv6 = ipv6Addresses cidrs := by
  ext address
  simp only [mem_covered, mem_splitByFamily_ipv6]
  rfl

theorem covered_effective_ipv4 (candidates safelist : List CanonicalCidr) (enableIpv6 : Bool) :
    covered (computeEffectiveBlocklists candidates safelist enableIpv6).ipv4 =
      ipv4Addresses candidates \ ipv4Addresses safelist := by
  rw [← covered_splitByFamily_ipv4, ← covered_splitByFamily_ipv4]
  exact covered_subtractSafelistIpv4 _ _

theorem covered_effective_ipv6 (candidates safelist : List CanonicalCidr) :
    covered (computeEffectiveBlocklists candidates safelist true).ipv6 =
      ipv6Addresses candidates \ ipv6Addresses safelist := by
  rw [← covered_splitByFamily_ipv6, ← covered_splitByFamily_ipv6]
  exact covered_subtractSafelistIpv6 _ _

/-- The effective IPv4 networks are disjoint and in ascending order. -/
theorem ascending_effective_ipv4 (candidates safelist : List CanonicalCidr) (enableIpv6 : Bool) :
    Ascending ((computeEffectiveBlocklists candidates safelist enableIpv6).ipv4.map Cidr.span) :=
  ascending_of_map_span (map_span_subtractSafelistIpv4 _ _)

/-- The effective IPv6 networks are disjoint and in ascending order. -/
theorem ascending_effective_ipv6 (candidates safelist : List CanonicalCidr) (enableIpv6 : Bool) :
    Ascending ((computeEffectiveBlocklists candidates safelist enableIpv6).ipv6.map Cidr.span) := by
  cases enableIpv6 with
  | false => exact ascending_nil
  | true => exact ascending_of_map_span (map_span_subtractSafelistIpv6 _ _)

@[simp] theorem effective_ipv6_disabled (candidates safelist : List CanonicalCidr) :
    (computeEffectiveBlocklists candidates safelist false).ipv6 = [] := rfl

/-- The blocks of the IPv4 entries of a mixed list. -/
def ipv4Spans (cidrs : List CanonicalCidr) : List Span :=
  (splitByFamily cidrs).ipv4.map Cidr.span

/-- The blocks of the IPv6 entries of a mixed list. -/
def ipv6Spans (cidrs : List CanonicalCidr) : List Span :=
  (splitByFamily cidrs).ipv6.map Cidr.span

/-- The effective blocklists cover, for IPv4 always and for IPv6 when enabled,
exactly the candidate addresses outside the safelist of the same family. Equal
entries of one family give equal results of that family whatever the other
family holds, and the networks are block by block those of the computation on
unbounded naturals, so no word operation decides a result by wrapping or
saturating. -/
theorem computeEffectiveBlocklists_exact (candidates safelist : List CanonicalCidr)
    (enableIpv6 : Bool) :
    let effective := computeEffectiveBlocklists candidates safelist enableIpv6
    (covered effective.ipv4 = ipv4Addresses candidates \ ipv4Addresses safelist) ∧
    (covered effective.ipv6 =
      if enableIpv6 then ipv6Addresses candidates \ ipv6Addresses safelist else ∅) ∧
    (∀ otherCandidates otherSafelist otherEnable,
      (splitByFamily otherCandidates).ipv4 = (splitByFamily candidates).ipv4 →
      (splitByFamily otherSafelist).ipv4 = (splitByFamily safelist).ipv4 →
      (computeEffectiveBlocklists otherCandidates otherSafelist otherEnable).ipv4 =
        effective.ipv4) ∧
    (∀ otherCandidates otherSafelist,
      (splitByFamily otherCandidates).ipv6 = (splitByFamily candidates).ipv6 →
      (splitByFamily otherSafelist).ipv6 = (splitByFamily safelist).ipv6 →
      (computeEffectiveBlocklists otherCandidates otherSafelist enableIpv6).ipv6 =
        effective.ipv6) ∧
    (effective.ipv4.map Cidr.span =
      differenceBlocks 32 (ipv4Spans candidates) (ipv4Spans safelist)) ∧
    (effective.ipv6.map Cidr.span =
      if enableIpv6 then differenceBlocks 128 (ipv6Spans candidates) (ipv6Spans safelist)
      else []) := by
  intro effective
  refine ⟨covered_effective_ipv4 _ _ _, ?_, ?_, ?_, ?_, ?_⟩
  · cases enableIpv6 with
    | false => exact cover_nil
    | true => exact covered_effective_ipv6 candidates safelist
  · intro otherCandidates otherSafelist otherEnable sameCandidates sameSafelist
    simp only [computeEffectiveBlocklists, sameCandidates, sameSafelist, effective]
  · intro otherCandidates otherSafelist sameCandidates sameSafelist
    simp only [computeEffectiveBlocklists, sameCandidates, sameSafelist, effective]
  · exact map_span_subtractSafelistIpv4 _ _
  · cases enableIpv6 with
    | false => rfl
    | true => exact map_span_subtractSafelistIpv6 _ _

end Kidobo
