import Mathlib
import Kidobo.Foundation.Dyadic

/-!
# Maximal dyadic blocks

Two aligned blocks are nested or disjoint. A block inside a set is maximal when
no larger block around it stays inside the set. Maximal blocks are disjoint,
and every cover of the set by blocks needs at least one block inside each of
them, so a list of maximal blocks is as short as a cover can be. The greedy cut
of separated spans emits maximal blocks only.

## Main definitions

* `IsBlock`, `MaximalBlock`

## Main results

* `points_subset_of_meet`: blocks that meet are nested
* `maximalBlock_of_mem_flatMap_blocks`: the greedy cut emits maximal blocks
* `length_le_of_maximalBlocks`: no cover by blocks is shorter
-/

namespace Foundation

variable {bound : ℕ} {region : Set ℕ}

/-- An aligned block of exponent at most `bound`. -/
def IsBlock (bound : ℕ) (span : Span) : Prop :=
  ∃ exponent ≤ bound, 2 ^ exponent ∣ span.lo ∧ span.hi = span.lo + (2 ^ exponent - 1)

/-- A block inside a region that no larger block inside the region contains. -/
structure MaximalBlock (bound : ℕ) (region : Set ℕ) (block : Span) : Prop where
  isBlock : IsBlock bound block
  inside : block.points ⊆ region
  largest : ∀ other, IsBlock bound other → other.points ⊆ region →
    block.points ⊆ other.points → other = block

theorem IsBlock.valid {span : Span} (isBlock : IsBlock bound span) : span.Valid := by
  obtain ⟨exponent, -, -, ends⟩ := isBlock
  simp only [Span.Valid, ends]
  omega

/-- A smaller block that meets a larger one lies inside it. -/
theorem nested_of_le {smallExponent largeExponent smallLo largeLo point : ℕ}
    (ordered : smallExponent ≤ largeExponent) (smallAligned : 2 ^ smallExponent ∣ smallLo)
    (largeAligned : 2 ^ largeExponent ∣ largeLo)
    (inSmall : smallLo ≤ point ∧ point ≤ smallLo + (2 ^ smallExponent - 1))
    (inLarge : largeLo ≤ point ∧ point ≤ largeLo + (2 ^ largeExponent - 1)) :
    largeLo ≤ smallLo ∧
      smallLo + (2 ^ smallExponent - 1) ≤ largeLo + (2 ^ largeExponent - 1) := by
  have positive : 0 < 2 ^ smallExponent := Nat.two_pow_pos _
  have sizes : 2 ^ smallExponent ∣ 2 ^ largeExponent := pow_dvd_pow 2 ordered
  obtain ⟨factor, size⟩ := sizes
  obtain ⟨small, rfl⟩ := smallAligned
  obtain ⟨large, rfl⟩ := largeAligned
  rw [size] at inLarge ⊢
  generalize 2 ^ smallExponent = unit at positive inSmall inLarge ⊢
  -- In units of the smaller block, the larger one starts at `factor * large`.
  have factorPositive : 0 < factor := by
    rcases Nat.eq_zero_or_pos factor with rfl | positiveFactor
    · have isPower : 2 ^ largeExponent = 0 := by rw [size, Nat.mul_zero]
      exact absurd isPower (Nat.two_pow_pos _).ne'
    · exact positiveFactor
  have startsAfter : factor * large ≤ small := by
    by_contra before
    have step : small + 1 ≤ factor * large := Nat.lt_of_not_le before
    have scaled := Nat.mul_le_mul_left unit step
    rw [Nat.mul_add, Nat.mul_one, ← Nat.mul_assoc] at scaled
    omega
  have endsBefore : small + 1 ≤ factor * large + factor := by
    by_contra behind
    have step : factor * large + factor ≤ small := by omega
    have scaled := Nat.mul_le_mul_left unit step
    rw [Nat.mul_add, ← Nat.mul_assoc] at scaled
    have sizePositive : 0 < unit * factor := Nat.mul_pos positive factorPositive
    omega
  have startScaled := Nat.mul_le_mul_left unit startsAfter
  have endScaled := Nat.mul_le_mul_left unit endsBefore
  rw [← Nat.mul_assoc] at startScaled
  rw [Nat.mul_add, Nat.mul_one, Nat.mul_add, ← Nat.mul_assoc] at endScaled
  omega

/-- Blocks that meet are nested. -/
theorem points_subset_of_meet {left right : Span} (leftBlock : IsBlock bound left)
    (rightBlock : IsBlock bound right) {point : ℕ} (inLeft : point ∈ left.points)
    (inRight : point ∈ right.points) :
    left.points ⊆ right.points ∨ right.points ⊆ left.points := by
  obtain ⟨leftExponent, -, leftAligned, leftEnds⟩ := leftBlock
  obtain ⟨rightExponent, -, rightAligned, rightEnds⟩ := rightBlock
  rw [Span.mem_points, leftEnds] at inLeft
  rw [Span.mem_points, rightEnds] at inRight
  rcases Nat.le_total leftExponent rightExponent with ordered | ordered
  · obtain ⟨starts, ends⟩ := nested_of_le ordered leftAligned rightAligned inLeft inRight
    left
    intro other within
    rw [Span.mem_points] at within ⊢
    omega
  · obtain ⟨starts, ends⟩ := nested_of_le ordered rightAligned leftAligned inRight inLeft
    right
    intro other within
    rw [Span.mem_points] at within ⊢
    omega

namespace MaximalBlock

/-- A block inside the region that meets a maximal block lies inside it. -/
theorem subset_of_meet {block other : Span} (maximal : MaximalBlock bound region block)
    (otherBlock : IsBlock bound other) (otherInside : other.points ⊆ region) {point : ℕ}
    (inBlock : point ∈ block.points) (inOther : point ∈ other.points) :
    other.points ⊆ block.points := by
  rcases points_subset_of_meet maximal.isBlock otherBlock inBlock inOther with smaller | larger
  · rw [maximal.largest other otherBlock otherInside smaller]
  · exact larger

/-- Maximal blocks that meet are equal. -/
theorem eq_of_meet {block other : Span} (maximal : MaximalBlock bound region block)
    (otherMaximal : MaximalBlock bound region other) {point : ℕ} (inBlock : point ∈ block.points)
    (inOther : point ∈ other.points) : other = block := by
  have within := otherMaximal.subset_of_meet maximal.isBlock maximal.inside inOther inBlock
  exact maximal.largest other otherMaximal.isBlock otherMaximal.inside within

end MaximalBlock

/-- A list of distinct maximal blocks is no longer than any cover of the region
by blocks: each maximal block contains a block of the cover, and disjoint blocks
contain different ones. -/
theorem length_le_of_maximalBlocks {blocks others : List Span} (distinct : blocks.Nodup)
    (maximal : ∀ block ∈ blocks, MaximalBlock bound region block)
    (othersBlocks : ∀ other ∈ others, IsBlock bound other) (covers : cover others = region) :
    blocks.length ≤ others.length := by
  classical
  have contained : ∀ block ∈ blocks, ∃ other ∈ others, other.points ⊆ block.points := by
    intro block member
    have blockMaximal := maximal block member
    have inBlock : block.lo ∈ block.points := ⟨le_rfl, blockMaximal.isBlock.valid⟩
    have inRegion := blockMaximal.inside inBlock
    rw [← covers] at inRegion
    obtain ⟨other, inOthers, inOther⟩ := inRegion
    refine ⟨other, inOthers, ?_⟩
    apply blockMaximal.subset_of_meet (othersBlocks other inOthers) _ inBlock inOther
    intro point inside
    rw [← covers]
    exact ⟨other, inOthers, inside⟩
  choose! inner innerMember innerSubset using contained
  have mapsTo : ∀ block ∈ blocks.toFinset, inner block ∈ others.toFinset := by
    intro block member
    exact List.mem_toFinset.mpr (innerMember block (List.mem_toFinset.mp member))
  have injective : Set.InjOn inner blocks.toFinset := by
    intro left leftMember right rightMember same
    have leftIn := List.mem_toFinset.mp leftMember
    have rightIn := List.mem_toFinset.mp rightMember
    have valid := (othersBlocks _ (innerMember left leftIn)).valid
    have inInner : (inner left).lo ∈ (inner left).points := ⟨le_rfl, valid⟩
    have inLeft := innerSubset left leftIn inInner
    have inRight := innerSubset right rightIn (same ▸ inInner : (inner left).lo ∈ _)
    exact (maximal right rightIn).eq_of_meet (maximal left leftIn) inRight inLeft
  calc blocks.length = blocks.toFinset.card := (List.toFinset_card_of_nodup distinct).symm
    _ ≤ others.toFinset.card := Finset.card_le_card_of_injOn inner mapsTo injective
    _ ≤ others.length := List.toFinset_card_le others

/-! ### The greedy cut -/

theorem fits_of_le {lo hi smaller larger : ℕ} (ordered : smaller ≤ larger)
    (fits : Fits lo hi larger) : Fits lo hi smaller := by
  induction larger, ordered using Nat.le_induction with
  | base => exact fits
  | succ larger _ ih => exact ih (fits_of_fits_succ fits)

/-- The search stops at the largest exponent that fits. -/
theorem le_largestExponent {lo hi exponent larger : ℕ} (steps : ℕ) (fits : Fits lo hi larger)
    (bounded : larger ≤ exponent + steps) :
    larger ≤ largestExponent lo hi exponent steps := by
  induction steps generalizing exponent with
  | zero => exact bounded
  | succ steps ih =>
    rw [largestExponent]
    split_ifs with next
    · exact ih (by omega)
    · by_contra above
      exact next (fits_of_le (by omega) fits)

/-- No block inside a span lies on both sides of the cursor. -/
def Uncrossed (bound lo hi cursor : ℕ) : Prop :=
  ∀ block, IsBlock bound block → lo ≤ block.lo → block.hi ≤ hi →
    ¬(block.lo < cursor ∧ cursor ≤ block.hi)

/-- The next greedy block is maximal inside the span, and the cursor behind it is
uncrossed again. -/
theorem uncrossed_step {bound lo hi cursor : ℕ} (uncrossed : Uncrossed bound lo hi cursor)
    (nonempty : cursor ≤ hi) :
    let size := 2 ^ largestExponent cursor hi 0 bound
    let next : Span := ⟨cursor, cursor + (size - 1)⟩
    IsBlock bound next ∧
      (∀ other, IsBlock bound other → lo ≤ other.lo → other.hi ≤ hi →
        next.points ⊆ other.points → other = next) ∧
      Uncrossed bound lo hi (cursor + size) := by
  intro size next
  have positive : 0 < size := Nat.two_pow_pos _
  have bounded := largestExponent_le cursor hi 0 bound
  rw [Nat.zero_add] at bounded
  have fits := fits_largestExponent bound (fits_zero.mpr nonempty)
  have nextBlock : IsBlock bound next := ⟨_, bounded, fits.1, rfl⟩
  -- A block that starts at the cursor and stays inside the span is no larger.
  have startsHere : ∀ other, IsBlock bound other → other.lo = cursor → other.hi ≤ hi →
      other.hi ≤ next.hi := by
    intro other isBlock starts ends
    obtain ⟨exponent, small, aligned, otherEnds⟩ := isBlock
    rw [starts] at aligned otherEnds
    have otherFits : Fits cursor hi exponent := ⟨aligned, otherEnds ▸ ends⟩
    have noLarger : exponent ≤ largestExponent cursor hi 0 bound :=
      le_largestExponent bound otherFits (by omega)
    have sizes : 2 ^ exponent ≤ size := Nat.pow_le_pow_right (by decide) noLarger
    have nextEnds : next.hi = cursor + (size - 1) := rfl
    omega
  refine ⟨nextBlock, ?_, ?_⟩
  · intro other isBlock starts ends contains
    have lower := contains (show next.lo ∈ next.points from ⟨le_rfl, nextBlock.valid⟩)
    have upper := contains (show next.hi ∈ next.points from ⟨nextBlock.valid, le_rfl⟩)
    rw [Span.mem_points] at lower upper
    have sameStart : other.lo = cursor := by
      by_contra different
      exact uncrossed other isBlock starts ends
        ⟨lt_of_le_of_ne lower.1 different, lower.2⟩
    exact Span.ext sameStart (le_antisymm (startsHere other isBlock sameStart ends) upper.2)
  · intro other isBlock starts ends ⟨before, behind⟩
    have nextEnds : next.hi = cursor + (size - 1) := rfl
    have nextStarts : next.lo = cursor := rfl
    have fromCursor : cursor ≤ other.lo := by
      by_contra earlier
      exact uncrossed other isBlock starts ends ⟨by omega, by omega⟩
    -- The block meets the emitted one without being nested in it, so it contains it.
    have meets : other.lo ∈ next.points := by
      rw [Span.mem_points]
      omega
    rcases points_subset_of_meet isBlock nextBlock ⟨le_rfl, isBlock.valid⟩ meets with
      inside | outside
    · have upper := inside (show other.hi ∈ other.points from ⟨isBlock.valid, le_rfl⟩)
      rw [Span.mem_points] at upper
      omega
    · have lower := outside (show next.lo ∈ next.points from ⟨le_rfl, nextBlock.valid⟩)
      rw [Span.mem_points] at lower
      have noLarger := startsHere other isBlock (by omega) ends
      omega

/-- From an uncrossed cursor on, the greedy cut emits blocks that are maximal
inside the span. -/
theorem mem_blocks_maximal {bound lo hi cursor : ℕ} (uncrossed : Uncrossed bound lo hi cursor)
    {block : Span} (member : block ∈ blocks bound cursor hi) :
    IsBlock bound block ∧
      ∀ other, IsBlock bound other → lo ≤ other.lo → other.hi ≤ hi →
        block.points ⊆ other.points → other = block := by
  fun_induction blocks bound cursor hi with
  | case1 cursor nonempty size ih =>
    obtain ⟨isBlock, largest, nextUncrossed⟩ := uncrossed_step uncrossed nonempty
    rcases List.mem_cons.mp member with rfl | later
    · exact ⟨isBlock, largest⟩
    · exact ih nextUncrossed later
  | case2 cursor empty => exact absurd member List.not_mem_nil

/-- A contiguous part of separated spans lies inside the one it meets. -/
theorem bounds_of_subset_cover {spans : List Span} (separated : Separated spans) {span other : Span}
    (member : span ∈ spans) (inside : other.points ⊆ cover spans) {point : ℕ}
    (inSpan : point ∈ span.points) (inOther : point ∈ other.points) :
    span.lo ≤ other.lo ∧ other.hi ≤ span.hi := by
  have apart : ∀ third ∈ spans, third = span ∨ third.hi + 1 < span.lo ∨ span.hi + 1 < third.lo := by
    intro third thirdMember
    have symmetric : Std.Symm fun left right : Span =>
        left.hi + 1 < right.lo ∨ right.hi + 1 < left.lo := ⟨fun _ _ => Or.symm⟩
    have eitherWay : spans.Pairwise fun left right : Span =>
        left.hi + 1 < right.lo ∨ right.hi + 1 < left.lo := separated.2.imp Or.inl
    by_cases same : third = span
    · exact Or.inl same
    · exact Or.inr (eitherWay.forall thirdMember member same)
  rw [Span.mem_points] at inSpan inOther
  constructor
  · by_contra before
    have gapInside : span.lo - 1 ∈ other.points := by
      rw [Span.mem_points]
      omega
    obtain ⟨third, thirdMember, inThird⟩ := inside gapInside
    rw [Span.mem_points] at inThird
    rcases apart third thirdMember with rfl | early | late <;> omega
  · by_contra behind
    have gapInside : span.hi + 1 ∈ other.points := by
      rw [Span.mem_points]
      omega
    obtain ⟨third, thirdMember, inThird⟩ := inside gapInside
    rw [Span.mem_points] at inThird
    rcases apart third thirdMember with rfl | early | late <;> omega

/-- The greedy cut of separated spans emits maximal blocks of the covered set. -/
theorem maximalBlock_of_mem_flatMap_blocks {spans : List Span} (separated : Separated spans)
    {block : Span} (member : block ∈ spans.flatMap fun span => blocks bound span.lo span.hi) :
    MaximalBlock bound (cover spans) block := by
  obtain ⟨span, spanMember, inSpan⟩ := List.mem_flatMap.mp member
  have start : Uncrossed bound span.lo span.hi span.lo := by
    intro other _ starts _ crossed
    omega
  obtain ⟨isBlock, largest⟩ := mem_blocks_maximal start inSpan
  obtain ⟨lower, _, upper⟩ := mem_blocks_bounds inSpan
  refine ⟨isBlock, ?_, ?_⟩
  · intro point inBlock
    rw [Span.mem_points] at inBlock
    exact ⟨span, spanMember, by omega, by omega⟩
  · intro other otherBlock inside contains
    have start : block.lo ∈ block.points := ⟨le_rfl, isBlock.valid⟩
    have startInSpan : block.lo ∈ span.points := ⟨lower, by omega⟩
    obtain ⟨starts, ends⟩ :=
      bounds_of_subset_cover separated spanMember inside startInSpan (contains start)
    exact largest other otherBlock starts ends contains

/-- No cover of the points of separated spans by blocks is shorter than the
greedy cut. -/
theorem length_flatMap_blocks_le {spans others : List Span} (separated : Separated spans)
    (othersBlocks : ∀ other ∈ others, IsBlock bound other) (covers : cover others = cover spans) :
    (spans.flatMap fun span => blocks bound span.lo span.hi).length ≤ others.length := by
  have ascending := flatMap_blocks_ascending bound separated.ascending
  apply length_le_of_maximalBlocks _ _ othersBlocks covers
  · apply ascending.2.imp_of_mem
    intro left right leftMember _ before same
    have valid := ascending.1 left leftMember
    subst same
    exact absurd before (Nat.not_lt.mpr valid)
  · intro block member
    exact maximalBlock_of_mem_flatMap_blocks separated member

end Foundation
