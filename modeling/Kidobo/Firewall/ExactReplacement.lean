import Kidobo.App.Entries
import Kidobo.Firewall.KernelSets

/-!
# What reaches the kernel

The entries that sync prepares for a family pass through the restore script
unchanged: they are already strictly ascending, so the script adds each of them
once, in order, and as many as were counted against the capacity. Splitting a
whole-family network into its halves keeps the addresses and leaves no entry
with prefix zero.

## Main definitions

* `splitWhole`: the kernel entries of one network of a family
* `EnforcementPlan.specOf`, `PreparedSyncEntries.entriesOf`, `familyAddresses`
* `addedEntries`: what a restore script adds

## Main results

* `atomicReplace_exact`
* `atomicReplace_succeeds`
-/

namespace Kidobo

open Foundation

/-! ### Splitting whole families -/

section Split

variable {width : ℕ}

/-- The kernel entries of one network of a family. -/
def splitWhole (positive : 1 ≤ width) (cidr : Cidr width) : List (Cidr width) :=
  if cidr.prefixLen = 0 then familyHalves width positive else [cidr]

theorem two_pow_eq_halves (positive : 1 ≤ width) :
    2 ^ width = 2 ^ (width - 1) + 2 ^ (width - 1) := by
  obtain ⟨half, rfl⟩ := Nat.exists_eq_add_of_le' positive
  rw [Nat.add_sub_cancel, Nat.pow_succ']
  exact Nat.two_mul _

theorem span_of_prefixLen_zero {cidr : Cidr width} (whole : cidr.prefixLen = 0) :
    cidr.span = ⟨0, 2 ^ width - 1⟩ := by
  have multiple := cidr.blockSize_dvd
  rw [whole, Nat.sub_zero] at multiple
  have first : cidr.network.toNat = 0 := Nat.eq_zero_of_dvd_of_lt multiple cidr.network.isLt
  rw [Cidr.span, whole, first, Nat.sub_zero, Nat.zero_add]

/-- The halves start at zero and in the middle. -/
theorem map_span_familyHalves (positive : 1 ≤ width) :
    (familyHalves width positive).map Cidr.span =
      [⟨0, 2 ^ (width - 1) - 1⟩, ⟨2 ^ (width - 1), 2 ^ (width - 1) + (2 ^ (width - 1) - 1)⟩] := by
  have halves := two_pow_eq_halves positive
  have small : 2 ^ (width - 1) < 2 ^ width := by
    have := Nat.two_pow_pos (width - 1)
    omega
  have middle : (BitVec.ofNat width 1 <<< (width - 1)).toNat = 2 ^ (width - 1) := by
    rw [BitVec.toNat_shiftLeft, BitVec.toNat_ofNat, Nat.one_mod_two_pow (by omega),
      Nat.shiftLeft_eq, Nat.one_mul, Nat.mod_eq_of_lt small]
  have zeroAligned : BitVec.ofNat width 0 &&& hostMask width 1 = BitVec.ofNat width 0 := by simp
  have middleAligned : (BitVec.ofNat width 1 <<< (width - 1)) &&& hostMask width 1 =
      BitVec.ofNat width 0 := by
    apply BitVec.eq_of_toNat_eq
    rw [toNat_and_hostMask positive, middle, Nat.mod_self]
    simp
  simp only [familyHalves, List.map_cons, List.map_nil, Cidr.span, Cidr.prefixLen_fromParts,
    Cidr.network_fromParts_of_aligned positive zeroAligned,
    Cidr.network_fromParts_of_aligned positive middleAligned, middle]
  simp

/-- Splitting keeps the addresses. -/
theorem cover_map_span_splitWhole (positive : 1 ≤ width) (cidr : Cidr width) :
    cover ((splitWhole positive cidr).map Cidr.span) = cidr.span.points := by
  unfold splitWhole
  split_ifs with whole
  · have halves := two_pow_eq_halves positive
    have half : 0 < 2 ^ (width - 1) := Nat.two_pow_pos _
    rw [map_span_familyHalves, span_of_prefixLen_zero whole]
    ext address
    simp only [mem_cover, Span.mem_points, List.mem_cons, List.not_mem_nil, or_false,
      exists_eq_or_imp, exists_eq_left]
    omega
  · simp

theorem prefixLen_ne_zero_of_mem_splitWhole {positive : 1 ≤ width} {cidr piece : Cidr width}
    (member : piece ∈ splitWhole positive cidr) : piece.prefixLen ≠ 0 := by
  unfold splitWhole at member
  split_ifs at member with whole
  · simp only [familyHalves, List.mem_cons, List.not_mem_nil, or_false] at member
    rcases member with rfl | rfl <;> simp
  · rw [List.mem_singleton.mp member]
    exact whole

theorem splitWhole_strict (positive : 1 ≤ width) (cidr : Cidr width) :
    (splitWhole positive cidr).Pairwise (· < ·) := by
  unfold splitWhole
  split_ifs
  · have spans := map_span_familyHalves positive
    simp only [familyHalves, List.map_cons, List.map_nil, List.cons.injEq, and_true] at spans ⊢
    refine List.pairwise_pair.mpr (Cidr.lt_of_network_lt ?_)
    have first := congrArg Span.lo spans.1
    have second := congrArg Span.lo spans.2
    dsimp only [Cidr.span] at first second
    rw [first, second]
    exact Nat.two_pow_pos _
  · exact List.pairwise_singleton _ _

/-- A piece starts inside the network it comes from. -/
theorem network_mem_of_mem_splitWhole {positive : 1 ≤ width} {cidr piece : Cidr width}
    (member : piece ∈ splitWhole positive cidr) : piece.network.toNat ∈ cidr.span.points := by
  rw [← cover_map_span_splitWhole positive]
  exact mem_cover.mpr ⟨piece.span, List.mem_map_of_mem member, ⟨le_rfl, piece.span_valid⟩⟩

/-- Splitting keeps disjoint ascending networks strictly ascending. -/
theorem flatMap_splitWhole_strict (positive : 1 ≤ width) {cidrs : List (Cidr width)}
    (ascending : Ascending (cidrs.map Cidr.span)) :
    (cidrs.flatMap (splitWhole positive)).Pairwise (· < ·) := by
  apply List.pairwise_flatMap.mpr
  refine ⟨fun cidr _ => splitWhole_strict positive cidr, ?_⟩
  refine (List.pairwise_map.mp ascending.2).imp fun {left right} before piece first other second => ?_
  apply Cidr.lt_of_network_lt
  have inLeft := (network_mem_of_mem_splitWhole first).2
  have inRight := (network_mem_of_mem_splitWhole second).1
  exact lt_of_le_of_lt inLeft (lt_of_lt_of_le before inRight)

theorem covered_flatMap_splitWhole (positive : 1 ≤ width) (cidrs : List (Cidr width)) :
    covered (cidrs.flatMap (splitWhole positive)) = covered cidrs := by
  simp only [covered, List.map_flatMap, cover_flatMap, cover_map_span_splitWhole]
  ext address
  simp

end Split

/-! ### The families of a plan -/

/-- The prefix length of a network. -/
def CanonicalCidr.prefixLen : CanonicalCidr → ℕ
  | v4 cidr => cidr.prefixLen
  | v6 cidr => cidr.prefixLen

/-- The set of a family. -/
def EnforcementPlan.specOf (plan : EnforcementPlan) : AddressFamily → ManagedSetSpec
  | .ipv4 => plan.ipv4
  | .ipv6 => plan.ipv6

/-- The families that a plan enforces. -/
def EnforcementPlan.Enforces (plan : EnforcementPlan) : AddressFamily → Prop
  | .ipv4 => True
  | .ipv6 => plan.enableIpv6 = true

/-- The prepared entries of a family. -/
def PreparedSyncEntries.entriesOf (prepared : PreparedSyncEntries) :
    AddressFamily → List CanonicalCidr
  | .ipv4 => prepared.ipv4
  | .ipv6 => prepared.ipv6

/-- The addresses that the entries of a family cover in a mixed list. -/
def familyAddresses : AddressFamily → List CanonicalCidr → Set ℕ
  | .ipv4 => ipv4Addresses
  | .ipv6 => ipv6Addresses

/-- The kernel entries of a family, whose number is compared with the capacity. -/
def familyKernelEntries (effective : EffectiveBlocklists) : AddressFamily → List CanonicalCidr
  | .ipv4 => ipv4KernelEntries effective
  | .ipv6 => ipv6KernelEntries effective

theorem ipv4KernelEntries_eq (effective : EffectiveBlocklists) :
    ipv4KernelEntries effective =
      (effective.ipv4.flatMap (splitWhole (by decide))).map .v4 := by
  simp only [ipv4KernelEntries, prepareEnforcementEntries, List.flatMap_map, List.map_flatMap]
  apply congrArg (List.flatMap · effective.ipv4)
  funext cidr
  simp only [kernelEntries, splitWhole]
  split_ifs <;> rfl

theorem ipv6KernelEntries_eq (effective : EffectiveBlocklists) :
    ipv6KernelEntries effective =
      (effective.ipv6.flatMap (splitWhole (by decide))).map .v6 := by
  simp only [ipv6KernelEntries, prepareEnforcementEntries, List.flatMap_map, List.map_flatMap]
  apply congrArg (List.flatMap · effective.ipv6)
  funext cidr
  simp only [kernelEntries, splitWhole]
  split_ifs <;> rfl

theorem ipv4Addresses_map_v4 (cidrs : List Ipv4Cidr) :
    ipv4Addresses (cidrs.map .v4) = covered cidrs := by
  ext address
  simp [ipv4Addresses, mem_covered]

theorem ipv6Addresses_map_v6 (cidrs : List Ipv6Cidr) :
    ipv6Addresses (cidrs.map .v6) = covered cidrs := by
  ext address
  simp [ipv6Addresses, mem_covered]

/-- The kernel entries of a family are of that family and have no prefix zero. -/
theorem mem_familyKernelEntries {effective : EffectiveBlocklists} {family : AddressFamily}
    {entry : CanonicalCidr} (member : entry ∈ familyKernelEntries effective family) :
    entry.family = family ∧ entry.prefixLen ≠ 0 := by
  cases family with
  | ipv4 =>
    rw [familyKernelEntries, ipv4KernelEntries_eq] at member
    obtain ⟨piece, inPieces, rfl⟩ := List.mem_map.mp member
    obtain ⟨cidr, -, inSplit⟩ := List.mem_flatMap.mp inPieces
    exact ⟨rfl, prefixLen_ne_zero_of_mem_splitWhole inSplit⟩
  | ipv6 =>
    rw [familyKernelEntries, ipv6KernelEntries_eq] at member
    obtain ⟨piece, inPieces, rfl⟩ := List.mem_map.mp member
    obtain ⟨cidr, -, inSplit⟩ := List.mem_flatMap.mp inPieces
    exact ⟨rfl, prefixLen_ne_zero_of_mem_splitWhole inSplit⟩

section Effective

variable (candidates safelist : List CanonicalCidr) {enableIpv6 : Bool}

/-- The kernel entries of a family are strictly ascending. -/
theorem familyKernelEntries_strict (family : AddressFamily) :
    (familyKernelEntries (computeEffectiveBlocklists candidates safelist enableIpv6)
      family).Pairwise (· < ·) := by
  cases family with
  | ipv4 =>
    rw [familyKernelEntries, ipv4KernelEntries_eq, List.pairwise_map]
    refine (flatMap_splitWhole_strict (by decide) ?_).imp CanonicalCidr.v4_lt_v4.mpr
    exact ascending_effective_ipv4 candidates safelist enableIpv6
  | ipv6 =>
    rw [familyKernelEntries, ipv6KernelEntries_eq, List.pairwise_map]
    refine (flatMap_splitWhole_strict (by decide) ?_).imp CanonicalCidr.v6_lt_v6.mpr
    exact ascending_effective_ipv6 candidates safelist enableIpv6

/-- The kernel entries of an enabled family cover its effective addresses. -/
theorem familyAddresses_familyKernelEntries {family : AddressFamily}
    (enabled : family = .ipv6 → enableIpv6 = true) :
    familyAddresses family
        (familyKernelEntries (computeEffectiveBlocklists candidates safelist enableIpv6) family) =
      familyAddresses family candidates \ familyAddresses family safelist := by
  cases family with
  | ipv4 =>
    simp only [familyAddresses, familyKernelEntries]
    rw [ipv4KernelEntries_eq, ipv4Addresses_map_v4, covered_flatMap_splitWhole,
      covered_effective_ipv4]
  | ipv6 =>
    obtain rfl := enabled rfl
    simp only [familyAddresses, familyKernelEntries]
    rw [ipv6KernelEntries_eq, ipv6Addresses_map_v6, covered_flatMap_splitWhole,
      covered_effective_ipv6]

end Effective

theorem familyKernelEntries_of_prepareSyncEntries {effective : EffectiveBlocklists}
    {plan : EnforcementPlan} {prepared : PreparedSyncEntries}
    (prepares : prepareSyncEntries effective plan = .ok prepared) (family : AddressFamily) :
    prepared.entriesOf family = familyKernelEntries effective family ∧
      (plan.Enforces family →
        (familyKernelEntries effective family).length ≤ (plan.specOf family).maxelem) := by
  obtain ⟨ipv6Fits, ipv4Fits, rfl⟩ := prepareSyncEntries_eq_ok_iff.mp prepares
  cases family with
  | ipv4 => exact ⟨rfl, fun _ => ipv4Fits⟩
  | ipv6 => exact ⟨rfl, ipv6Fits⟩

/-! ### The script and the live set -/

/-- The entries that a restore script adds, in order. -/
def addedEntries {T : Type} (script : List (RestoreLine T)) : List T :=
  script.filterMap fun
    | .add _ entry => some entry
    | _ => none

theorem addedEntries_writeRestoreScript {T : Type} [LinearOrder T] (spec : IpsetSetSpec)
    (tempSetName : String) (entries : List T) :
    addedEntries (writeRestoreScript spec tempSetName entries) = sortedUniqueEntries entries := by
  simp [addedEntries, writeRestoreScript, writeRestoreEntryLines, List.filterMap_map]

/-- `hash:net` cannot represent a whole family. -/
def rejectsWholeFamily (_set : KernelSet CanonicalCidr) (entry : CanonicalCidr) : Bool :=
  entry.prefixLen == 0

/-- For every enforced family, the script written for the prepared entries adds
entries of that family that cover exactly its effective addresses, none of them
with prefix zero, each once and in ascending order, as many as were compared
with the capacity, and its last line swaps the temporary set with the live one.
At every point of every run of the replacement the live set holds what it held
before or exactly these entries, and these entries once the call has returned. -/
theorem atomicReplace_exact {candidates safelist : List CanonicalCidr} {plan : EnforcementPlan}
    {prepared : PreparedSyncEntries}
    (prepares : prepareSyncEntries
      (computeEffectiveBlocklists candidates safelist plan.enableIpv6) plan = .ok prepared)
    {family : AddressFamily} (enforced : plan.Enforces family) {suffix : String}
    (unused : generateTempSetName (plan.specOf family).setName suffix ≠ (plan.specOf family).setName)
    (restoreScriptPath : ℕ → String) (rejects : KernelSet CanonicalCidr → CanonicalCidr → Bool) :
    let effective := computeEffectiveBlocklists candidates safelist plan.enableIpv6
    let spec := toIpsetSpec (plan.specOf family)
    let tempSetName := generateTempSetName spec.setName suffix
    let script := writeRestoreScript spec tempSetName (prepared.entriesOf family)
    let added := addedEntries script
    familyAddresses family added =
      familyAddresses family candidates \ familyAddresses family safelist ∧
    (∀ entry ∈ added, entry.family = family ∧ entry.prefixLen ≠ 0) ∧
    added.Pairwise (· < ·) ∧
    added.length = (familyKernelEntries effective family).length ∧
    ensureWithinCapacity (plan.specOf family) added.length = .ok () ∧
    script = .create tempSetName spec.setType spec.family spec.hashsize spec.maxelem spec.timeout ::
      (added.map (.add tempSetName) ++ [.swap tempSetName spec.setName]) ∧
    ∀ {before last : IpsetState CanonicalCidr} {trace} {ending},
      Runs (ipsetStep rejects)
        (atomicReplaceIpsetValues suffix restoreScriptPath spec (prepared.entriesOf family))
        before trace last ending →
      (∀ event ∈ trace, event.after.sets spec.setName = before.sets spec.setName ∨
        (event.after.sets spec.setName).map KernelSet.entries = some added) ∧
      (ending = .returned () → (last.sets spec.setName).map KernelSet.entries = some added) := by
  obtain ⟨sameEntries, fits⟩ := familyKernelEntries_of_prepareSyncEntries prepares family
  have strict := @familyKernelEntries_strict candidates safelist plan.enableIpv6 family
  intro effective spec tempSetName script added
  -- the entries of the script are the kernel entries, which are already strictly ascending
  have addedEq : added = familyKernelEntries effective family := by
    rw [← sortedUniqueEntries_eq_self strict, ← sameEntries]
    exact addedEntries_writeRestoreScript ..
  refine ⟨?_, ?_, ?_, ?_, ?_, ?_, ?_⟩
  · rw [addedEq]
    apply familyAddresses_familyKernelEntries
    rintro rfl
    exact enforced
  · rw [addedEq]
    exact fun entry member => mem_familyKernelEntries member
  · rw [addedEq]
    exact strict
  · rw [addedEq]
  · rw [addedEq]
    exact ensureWithinCapacity_eq_ok_iff.mpr (fits enforced)
  · rw [show added = sortedUniqueEntries (prepared.entriesOf family) from
      addedEntries_writeRestoreScript ..]
    rfl
  · intro before last trace ending runs
    have fresh : (restoredSet spec (prepared.entriesOf family)).entries = added :=
      (addedEntries_writeRestoreScript ..).symm
    have unusedName : generateTempSetName spec.setName suffix ≠ spec.setName := unused
    obtain ⟨throughout, atEnd⟩ := live_of_runs unusedName runs
    rw [← fresh]
    constructor
    · intro event member
      rcases throughout event member with same | new
      · exact Or.inl same
      · right
        rw [new, Option.map_some]
    · intro returned
      rw [atEnd returned, Option.map_some]

/-- A whole-family candidate reaches the kernel as its two halves. -/
theorem atomicReplace_exact_wholeFamily :
    let whole := CanonicalCidr.v4 (Cidr.fromParts (BitVec.ofNat 32 0) 0 (by decide))
    let plan : EnforcementPlan :=
      { ipv4 := ⟨.ipv4, "kidobo", "hash:net", 1024, 2, 0⟩
        ipv6 := ⟨.ipv6, "kidobo-v6", "hash:net", 1024, 2, 0⟩
        enableIpv6 := false
        chainAction := .drop }
    ∃ prepared, prepareSyncEntries (computeEffectiveBlocklists [whole] [] false) plan =
        .ok prepared ∧
      familyAddresses .ipv4 (addedEntries (writeRestoreScript (toIpsetSpec plan.ipv4)
        (generateTempSetName "kidobo" "0a1b2c3d") (prepared.entriesOf .ipv4))) =
      familyAddresses .ipv4 [whole] \ familyAddresses .ipv4 [] := by
  intro whole plan
  have prepares : prepareSyncEntries (computeEffectiveBlocklists [whole] [] false) plan =
      .ok ⟨_, _, _, _⟩ :=
    prepareSyncEntries_eq_ok_iff.mpr ⟨nofun, by decide +kernel, rfl⟩
  exact ⟨_, prepares, (@atomicReplace_exact _ _ _ _ prepares .ipv4 trivial "0a1b2c3d" (by decide)
    (fun _ => "/tmp/kidobo-ipset.restore") rejectsWholeFamily).1⟩

/-- The kernel accepts the script of the prepared entries: with a compatible
live set the replacement succeeds in the calm environment. -/
theorem atomicReplace_succeeds {candidates safelist : List CanonicalCidr} {plan : EnforcementPlan}
    {prepared : PreparedSyncEntries}
    (prepares : prepareSyncEntries
      (computeEffectiveBlocklists candidates safelist plan.enableIpv6) plan = .ok prepared)
    {family : AddressFamily} (enforced : plan.Enforces family) {suffix : String}
    (unused : generateTempSetName (plan.specOf family).setName suffix ≠ (plan.specOf family).setName)
    (restoreScriptPath : ℕ → String) {state : IpsetState CanonicalCidr}
    {live : KernelSet CanonicalCidr}
    (present : state.sets (plan.specOf family).setName = some live)
    (compatible : live.setType = (plan.specOf family).setType ∧
      live.family = (plan.specOf family).family.toIpsetFamily) :
    Ends (calmIpset rejectsWholeFamily)
      (fun _ after => (after.sets (plan.specOf family).setName).map KernelSet.entries =
        some (prepared.entriesOf family))
      (fun _ _ => False)
      (atomicReplaceIpsetValues suffix restoreScriptPath (toIpsetSpec (plan.specOf family))
        (prepared.entriesOf family)) state := by
  obtain ⟨sameEntries, fits⟩ := familyKernelEntries_of_prepareSyncEntries prepares family
  have strict := @familyKernelEntries_strict candidates safelist plan.enableIpv6 family
  have unchanged : sortedUniqueEntries (prepared.entriesOf family) = prepared.entriesOf family := by
    rw [sameEntries, sortedUniqueEntries_eq_self strict]
  refine Ends.mono (ends_atomicReplaceIpsetValues suffix restoreScriptPath unused present
    compatible ?_ ?_) ?_ ?_
  · intro set entry member
    rw [unchanged, sameEntries] at member
    exact beq_eq_false_iff_ne.mpr (mem_familyKernelEntries member).2
  · rw [unchanged, sameEntries]
    exact fits enforced
  · intro _ last new
    change (last.sets (toIpsetSpec (plan.specOf family)).setName).map KernelSet.entries = _
    rw [new, Option.map_some, restoredSet, unchanged]
  · intro _ _ impossible
    exact impossible

end Kidobo
