import Kidobo.Foundation.Span
import Kidobo.Foundation.SortedList
import Kidobo.Foundation.CountingSort
import Kidobo.Network.Types

/-!
# Address intervals: construction, sorting and merging

An interval is a pair of machine words. Merging sorts the intervals and folds
them into the current one with a saturating successor; IPv4 sorts long
unsorted inputs with a two-pass radix sort over the start addresses.

Each interval denotes a span of naturals. Under that map the word-level merge
is the unbounded `Foundation.coalesce`: the saturation at the top of the
address space never changes a comparison.

## Main results

* `span_toInterval`: the interval of a canonical network is its aligned block
* `radixSortIntervalsU32ByStart_eq`: the radix sort never fails and sorts by start
* `spans_mergeFrom`: merging is coalescing of the denoted spans
* `radixSort_refines_comparisonSort`: the radix path merges to the same list
* `mergeIntervalsU32Owned_spec`, `mergeIntervalsU128Owned_spec`
-/

namespace Kidobo

open Foundation

variable {width : ℕ}

/-- Addition that stops at the largest word. -/
def saturatingAdd (left right : BitVec width) : BitVec width :=
  if left.toNat + right.toNat < 2 ^ width then left + right else BitVec.allOnes width

theorem toNat_saturatingAdd (left right : BitVec width) :
    (saturatingAdd left right).toNat = min (left.toNat + right.toNat) (2 ^ width - 1) := by
  unfold saturatingAdd
  split_ifs with small
  · rw [BitVec.toNat_add_of_lt small]
    omega
  · rw [BitVec.toNat_allOnes]
    omega

/-- A pair of addresses read as the closed interval between them. -/
structure Interval (width : ℕ) where
  start : BitVec width
  last : BitVec width

namespace Interval

@[ext] theorem ext {left right : Interval width} (start : left.start = right.start)
    (last : left.last = right.last) : left = right := by
  cases left
  cases right
  simp_all

/-- The addresses an interval denotes, as a span of naturals. -/
def span (interval : Interval width) : Span := ⟨interval.start.toNat, interval.last.toNat⟩

@[simp] theorem lo_span (interval : Interval width) : interval.span.lo = interval.start.toNat := rfl

@[simp] theorem hi_span (interval : Interval width) : interval.span.hi = interval.last.toNat := rfl

theorem span_injective : Function.Injective (@span width) := by
  intro left right same
  simp only [span, Span.mk.injEq] at same
  exact Interval.ext (BitVec.eq_of_toNat_eq same.1) (BitVec.eq_of_toNat_eq same.2)

/-- The order of intervals: by start, then by last address. -/
def orderKey (interval : Interval width) : ℕ ×ₗ ℕ :=
  toLex (interval.start.toNat, interval.last.toNat)

theorem orderKey_injective : Function.Injective (@orderKey width) := by
  intro left right same
  simp only [orderKey, EmbeddingLike.apply_eq_iff_eq, Prod.mk.injEq] at same
  exact Interval.ext (BitVec.eq_of_toNat_eq same.1) (BitVec.eq_of_toNat_eq same.2)

instance : LinearOrder (Interval width) := LinearOrder.lift' orderKey orderKey_injective

theorem start_le_of_le {left right : Interval width} (ordered : left ≤ right) :
    left.start.toNat ≤ right.start.toNat := by
  rcases Prod.Lex.toLex_le_toLex.mp (show left.orderKey ≤ right.orderKey from ordered) with
    before | ⟨same, -⟩
  · exact Nat.le_of_lt before
  · exact Nat.le_of_eq same

end Interval

/-- The spans denoted by a list of intervals. -/
def spans (intervals : List (Interval width)) : List Span := intervals.map Interval.span

@[simp] theorem spans_nil : spans ([] : List (Interval width)) = [] := rfl

@[simp] theorem spans_cons (interval : Interval width) (rest : List (Interval width)) :
    spans (interval :: rest) = interval.span :: spans rest := rfl

@[simp] theorem spans_append (left right : List (Interval width)) :
    spans (left ++ right) = spans left ++ spans right := List.map_append

/-! ### The interval of a network -/

/-- `ipv4_to_interval` and `ipv6_to_interval`. -/
def toInterval (cidr : Cidr width) : Interval width :=
  ⟨cidr.network, saturatingAdd cidr.network (hostMask width cidr.prefixLen)⟩

/-- The aligned block of addresses a network denotes. -/
def Cidr.span (cidr : Cidr width) : Span :=
  ⟨cidr.network.toNat, cidr.network.toNat + (2 ^ (width - cidr.prefixLen) - 1)⟩

theorem Cidr.span_valid (cidr : Cidr width) : cidr.span.Valid := Nat.le_add_right _ _

/-- An aligned block ends inside the address space. -/
theorem block_end_lt {start size : ℕ} {prefixLen : ℕ} (inRange : prefixLen ≤ width)
    (sizeEq : size = 2 ^ (width - prefixLen)) (small : start < 2 ^ width) (aligned : size ∣ start) :
    start + (size - 1) < 2 ^ width := by
  obtain ⟨quotient, rfl⟩ := aligned
  have whole : 2 ^ width = size * 2 ^ prefixLen := by
    rw [sizeEq, ← pow_add, Nat.sub_add_cancel inRange]
  have positive : 0 < size := sizeEq ▸ Nat.two_pow_pos _
  have quotientSmall : quotient < 2 ^ prefixLen := by
    rw [whole] at small
    exact Nat.lt_of_mul_lt_mul_left small
  have next : size * (quotient + 1) ≤ size * 2 ^ prefixLen :=
    Nat.mul_le_mul_left size quotientSmall
  rw [whole]
  rw [Nat.mul_add, Nat.mul_one] at next
  omega

/-- The interval used by all set operations is the block of the network: the
saturating addition never saturates on a canonical network. -/
@[simp] theorem span_toInterval (cidr : Cidr width) : (toInterval cidr).span = cidr.span := by
  have inside := block_end_lt cidr.inRange rfl cidr.network.isLt cidr.blockSize_dvd
  simp only [toInterval, Interval.span, Cidr.span, toNat_saturatingAdd,
    toNat_hostMask cidr.inRange, Span.mk.injEq, true_and]
  omega

/-- The addresses covered by a list of networks. -/
def covered (cidrs : List (Cidr width)) : Set ℕ := cover (cidrs.map Cidr.span)

@[simp] theorem mem_covered {cidrs : List (Cidr width)} {address : ℕ} :
    address ∈ covered cidrs ↔ ∃ cidr ∈ cidrs, address ∈ cidr.span.points := by
  simp [covered]

theorem spans_map_toInterval (cidrs : List (Cidr width)) :
    spans (cidrs.map toInterval) = cidrs.map Cidr.span := by
  simp [spans]

/-! ### Sorting -/

/-- Whether no element is greater than its successor. -/
def isSorted {α : Type*} [LinearOrder α] (items : List α) : Bool :=
  decide (items.IsChain (· ≤ ·))

theorem pairwise_of_isSorted {α : Type*} [LinearOrder α] {items : List α}
    (sorted : isSorted items = true) : items.Pairwise (· ≤ ·) :=
  List.isChain_iff_pairwise.mp (of_decide_eq_true sorted)

/-- `RADIX_SORT_MIN_LEN`. -/
def radixSortMinLen : ℕ := 16384

/-- `RADIX_BUCKETS_U16`. -/
def radixBucketsU16 : ℕ := 1 <<< 16

/-- The bucket of an interval in the pass over `shift`. -/
def radixBucket (shift : ℕ) (interval : Interval 32) : ℕ :=
  ((interval.start >>> shift) &&& 0xFFFF#32).toNat

/-- Two counting passes over the halves of the start address. The second pass
reuses the input as its destination, as swapping the two buffers does. -/
def radixSortIntervalsU32ByStart (intervals : List (Interval 32)) :
    Option (List (Interval 32)) :=
  if intervals.length < 2 then some intervals
  else
    (countingPass (radixBucket 0) radixBucketsU16 intervals
      (List.replicate intervals.length ⟨0, 0⟩)).bind fun swapped =>
        countingPass (radixBucket 16) radixBucketsU16 swapped intervals

/-- `sort_intervals_u32_for_merge`. -/
def sortIntervalsU32ForMerge (intervals : List (Interval 32)) : List (Interval 32) :=
  if isSorted intervals then intervals
  else if intervals.length < radixSortMinLen then sortUnstable intervals
  else (radixSortIntervalsU32ByStart intervals).getD (sortUnstable intervals)

theorem radixBucket_eq (shift : ℕ) (interval : Interval 32) :
    radixBucket shift interval = interval.start.toNat / 2 ^ shift % 65536 := by
  unfold radixBucket
  rw [BitVec.toNat_and, BitVec.toNat_ushiftRight, Nat.shiftRight_eq_div_pow]
  exact Nat.and_two_pow_sub_one_eq_mod _ 16

theorem radixBucket_lt (shift : ℕ) (interval : Interval 32) :
    radixBucket shift interval < radixBucketsU16 := by
  rw [radixBucket_eq]
  exact Nat.mod_lt _ (by decide)

/-- The two halves of a start address determine it, the high one first. -/
theorem start_eq_radixBuckets (interval : Interval 32) :
    interval.start.toNat = radixBucket 16 interval * 65536 + radixBucket 0 interval := by
  have small := interval.start.isLt
  rw [radixBucket_eq, radixBucket_eq]
  omega

/-- The radix sort never fails, keeps every interval and orders them by start. -/
theorem radixSortIntervalsU32ByStart_eq (intervals : List (Interval 32)) :
    ∃ sorted, radixSortIntervalsU32ByStart intervals = some sorted ∧ sorted.Perm intervals ∧
      sorted.Pairwise fun left right => left.start.toNat ≤ right.start.toNat := by
  unfold radixSortIntervalsU32ByStart
  split_ifs with short
  · refine ⟨intervals, rfl, List.Perm.refl _, ?_⟩
    match intervals, short with
    | [], _ => exact List.Pairwise.nil
    | [single], _ => exact List.pairwise_singleton _ _
  · have firstInRange : ∀ interval ∈ intervals, radixBucket 0 interval < radixBucketsU16 :=
      fun interval _ => radixBucket_lt 0 interval
    rw [countingPass_eq _ _ _ _ firstInRange (List.length_replicate ..), Option.bind_some]
    have firstPerm := buckets_perm (radixBucket 0) radixBucketsU16 intervals firstInRange
    have lowSorted : (buckets (radixBucket 0) radixBucketsU16 intervals).Pairwise
        fun left right => radixBucket 0 left ≤ radixBucket 0 right :=
      pairwise_buckets _ _ _ _ (fun _ _ _ _ before => before.le)
        (List.pairwise_of_forall fun _ _ same => same.le)
    have secondInRange : ∀ interval ∈ buckets (radixBucket 0) radixBucketsU16 intervals,
        radixBucket 16 interval < radixBucketsU16 :=
      fun interval _ => radixBucket_lt 16 interval
    refine ⟨_, countingPass_eq _ _ _ _ secondInRange firstPerm.length_eq.symm,
      (buckets_perm _ _ _ secondInRange).trans firstPerm, ?_⟩
    refine pairwise_buckets _ _ _ _ (fun left _ right _ before => ?_)
      (lowSorted.imp fun {left right} low same => ?_)
    · have := radixBucket_lt 0 left
      rw [start_eq_radixBuckets left, start_eq_radixBuckets right]
      simp only [radixBucketsU16] at this
      omega
    · rw [start_eq_radixBuckets left, start_eq_radixBuckets right]
      omega

theorem sortUnstable_byStart (intervals : List (Interval width)) :
    (sortUnstable intervals).Pairwise fun left right => left.start.toNat ≤ right.start.toNat :=
  (sortUnstable_sorted intervals).imp Interval.start_le_of_le

/-- Whichever path sorts them, the intervals are permuted and ordered by start. -/
theorem sortIntervalsU32ForMerge_spec (intervals : List (Interval 32)) :
    (sortIntervalsU32ForMerge intervals).Perm intervals ∧
      (sortIntervalsU32ForMerge intervals).Pairwise
        fun left right => left.start.toNat ≤ right.start.toNat := by
  unfold sortIntervalsU32ForMerge
  split_ifs with sorted short
  · exact ⟨List.Perm.refl _, (pairwise_of_isSorted sorted).imp Interval.start_le_of_le⟩
  · exact ⟨sortUnstable_perm _, sortUnstable_byStart _⟩
  · obtain ⟨radixSorted, succeeds, permuted, ordered⟩ := radixSortIntervalsU32ByStart_eq intervals
    rw [succeeds]
    exact ⟨permuted, ordered⟩

/-! ### Merging -/

/-- The larger of two unsigned words. -/
def maxWord (left right : BitVec width) : BitVec width := if left ≤ right then right else left

/-- The fold over sorted intervals: extend the current one while the next one
starts no later than one past its end, else emit it. -/
def mergeFrom (current : Interval width) : List (Interval width) → List (Interval width)
  | [] => [current]
  | interval :: rest =>
    if interval.start ≤ saturatingAdd current.last (BitVec.ofNat width 1) then
      mergeFrom { current with last := maxWord current.last interval.last } rest
    else
      current :: mergeFrom interval rest

/-- The merge of an already sorted list, shared by both families. -/
def mergeSorted : List (Interval width) → List (Interval width)
  | [] => []
  | current :: rest => mergeFrom current rest

/-- `merge_intervals_u32_owned`. -/
def mergeIntervalsU32Owned (intervals : List (Interval 32)) : List (Interval 32) :=
  mergeSorted (sortIntervalsU32ForMerge intervals)

/-- `merge_intervals_u128_owned`. -/
def mergeIntervalsU128Owned (intervals : List (Interval 128)) : List (Interval 128) :=
  mergeSorted (sortUnstable intervals)

theorem toNat_maxWord (left right : BitVec width) :
    (maxWord left right).toNat = max left.toNat right.toNat := by
  unfold maxWord
  split_ifs with ordered <;> rw [BitVec.le_def] at ordered <;> omega

/-- Saturation never decides a merge: at the top of the address space the
comparison holds with the bounded and with the unbounded successor. -/
theorem le_saturatingSucc_iff (positive : 0 < width) (start last : BitVec width) :
    start ≤ saturatingAdd last (BitVec.ofNat width 1) ↔ start.toNat ≤ last.toNat + 1 := by
  have startSmall := start.isLt
  have lastSmall := last.isLt
  have one : (BitVec.ofNat width 1).toNat = 1 := by
    rw [BitVec.toNat_ofNat]
    exact Nat.mod_eq_of_lt (Nat.one_lt_two_pow positive.ne')
  rw [BitVec.le_def, toNat_saturatingAdd, one]
  omega

/-- The word-level merge is the unbounded coalescing of the denoted spans. -/
theorem spans_mergeFrom (positive : 0 < width) (current : Interval width)
    (rest : List (Interval width)) :
    spans (mergeFrom current rest) = coalesce current.span (spans rest) := by
  induction rest generalizing current with
  | nil => rfl
  | cons interval rest ih =>
    rw [mergeFrom, spans_cons, coalesce]
    by_cases touching : interval.span.lo ≤ current.span.hi + 1
    · rw [if_pos touching, if_pos ((le_saturatingSucc_iff positive _ _).mpr touching), ih]
      simp only [Interval.span, toNat_maxWord]
    · rw [if_neg touching, if_neg (mt (le_saturatingSucc_iff positive _ _).mp touching),
        spans_cons, ih]

/-- Intervals that hold their start address. -/
def WellFormed (intervals : List (Interval width)) : Prop := AllValid (spans intervals)

theorem wellFormed_map_toInterval (cidrs : List (Cidr width)) :
    WellFormed (cidrs.map toInterval) := by
  rw [WellFormed, spans_map_toInterval]
  intro span member
  obtain ⟨cidr, -, rfl⟩ := List.mem_map.mp member
  exact cidr.span_valid

theorem WellFormed.perm {left right : List (Interval width)} (wellFormed : WellFormed right)
    (permuted : left.Perm right) : WellFormed left :=
  fun span member => wellFormed span ((permuted.map Interval.span).mem_iff.mp member)

theorem sortedByLo_spans {intervals : List (Interval width)}
    (ordered : intervals.Pairwise fun left right => left.start.toNat ≤ right.start.toNat) :
    SortedByLo (spans intervals) :=
  List.pairwise_map.mpr ordered

/-- Merging a sorted list keeps its addresses and separates its intervals. -/
theorem mergeSorted_spec (positive : 0 < width) {intervals : List (Interval width)}
    (wellFormed : WellFormed intervals)
    (ordered : intervals.Pairwise fun left right => left.start.toNat ≤ right.start.toNat) :
    cover (spans (mergeSorted intervals)) = cover (spans intervals) ∧
      Separated (spans (mergeSorted intervals)) := by
  cases intervals with
  | nil => exact ⟨rfl, separated_nil⟩
  | cons current rest =>
    rw [mergeSorted, spans_mergeFrom positive]
    exact ⟨cover_coalesce _ _ wellFormed (sortedByLo_spans ordered),
      coalesce_separated _ _ wellFormed (sortedByLo_spans ordered)⟩

/-- What merging yields does not depend on how equal starts were ordered. -/
theorem mergeSorted_eq_of_perm (positive : 0 < width) {left right : List (Interval width)}
    (wellFormed : WellFormed right) (permuted : left.Perm right)
    (leftOrdered : left.Pairwise fun first second => first.start.toNat ≤ second.start.toNat)
    (rightOrdered : right.Pairwise fun first second => first.start.toNat ≤ second.start.toNat) :
    mergeSorted left = mergeSorted right := by
  obtain ⟨leftCover, leftSeparated⟩ :=
    mergeSorted_spec positive (wellFormed.perm permuted) leftOrdered
  obtain ⟨rightCover, rightSeparated⟩ := mergeSorted_spec positive wellFormed rightOrdered
  have sameCover : cover (spans left) = cover (spans right) := cover_perm (permuted.map _)
  have sameSpans : spans (mergeSorted left) = spans (mergeSorted right) :=
    separated_unique leftSeparated rightSeparated
      (leftCover.trans (sameCover.trans rightCover.symm))
  exact List.map_injective_iff.mpr Interval.span_injective sameSpans

/-- The radix sort always succeeds and orders a permutation of its input by
start. On intervals that hold their start, the merge of what it leaves, the merge
behind the size threshold and the merge of the comparison sort are one list. -/
theorem radixSort_refines_comparisonSort :
    (∀ intervals : List (Interval 32), ∃ sorted,
      radixSortIntervalsU32ByStart intervals = some sorted ∧ sorted.Perm intervals ∧
        sorted.Pairwise fun left right => left.start.toNat ≤ right.start.toNat) ∧
    (∀ intervals : List (Interval 32), WellFormed intervals →
      (radixSortIntervalsU32ByStart intervals).map mergeSorted =
        some (mergeSorted (sortUnstable intervals)) ∧
      mergeIntervalsU32Owned intervals = mergeSorted (sortUnstable intervals)) ∧
    ∀ cidrs : List Ipv4Cidr, WellFormed (cidrs.map toInterval) := by
  refine ⟨radixSortIntervalsU32ByStart_eq, ?_, wellFormed_map_toInterval⟩
  intro intervals wellFormed
  have comparisonOrdered := sortUnstable_byStart intervals
  have comparisonPerm := sortUnstable_perm intervals
  have comparisonWellFormed := wellFormed.perm comparisonPerm
  constructor
  · obtain ⟨radixSorted, succeeds, permuted, ordered⟩ := radixSortIntervalsU32ByStart_eq intervals
    rw [succeeds, Option.map_some, Option.some_inj]
    exact mergeSorted_eq_of_perm (by decide) comparisonWellFormed
      (permuted.trans comparisonPerm.symm) ordered comparisonOrdered
  · obtain ⟨permuted, ordered⟩ := sortIntervalsU32ForMerge_spec intervals
    exact mergeSorted_eq_of_perm (by decide) comparisonWellFormed
      (permuted.trans comparisonPerm.symm) ordered comparisonOrdered

/-- IPv4 merging keeps the addresses and separates the intervals. -/
theorem mergeIntervalsU32Owned_spec {intervals : List (Interval 32)}
    (wellFormed : WellFormed intervals) :
    cover (spans (mergeIntervalsU32Owned intervals)) = cover (spans intervals) ∧
      Separated (spans (mergeIntervalsU32Owned intervals)) := by
  obtain ⟨permuted, ordered⟩ := sortIntervalsU32ForMerge_spec intervals
  obtain ⟨sameCover, separated⟩ :=
    mergeSorted_spec (by decide) (wellFormed.perm permuted) ordered
  exact ⟨sameCover.trans (cover_perm (permuted.map _)), separated⟩

/-- IPv6 merging keeps the addresses and separates the intervals. -/
theorem mergeIntervalsU128Owned_spec {intervals : List (Interval 128)}
    (wellFormed : WellFormed intervals) :
    cover (spans (mergeIntervalsU128Owned intervals)) = cover (spans intervals) ∧
      Separated (spans (mergeIntervalsU128Owned intervals)) := by
  have permuted := sortUnstable_perm intervals
  obtain ⟨sameCover, separated⟩ :=
    mergeSorted_spec (by decide) (wellFormed.perm permuted) (sortUnstable_byStart intervals)
  exact ⟨sameCover.trans (cover_perm (permuted.map _)), separated⟩

theorem mergeIntervalsU32Owned_cidrs (cidrs : List Ipv4Cidr) :
    cover (spans (mergeIntervalsU32Owned (cidrs.map toInterval))) = covered cidrs ∧
      Separated (spans (mergeIntervalsU32Owned (cidrs.map toInterval))) := by
  rw [covered, ← spans_map_toInterval]
  exact mergeIntervalsU32Owned_spec (wellFormed_map_toInterval cidrs)

theorem mergeIntervalsU128Owned_cidrs (cidrs : List Ipv6Cidr) :
    cover (spans (mergeIntervalsU128Owned (cidrs.map toInterval))) = covered cidrs ∧
      Separated (spans (mergeIntervalsU128Owned (cidrs.map toInterval))) := by
  rw [covered, ← spans_map_toInterval]
  exact mergeIntervalsU128Owned_spec (wellFormed_map_toInterval cidrs)

end Kidobo
