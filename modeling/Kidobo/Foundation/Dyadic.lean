import Kidobo.Foundation.Span

/-!
# Aligned dyadic blocks

A block of exponent `e` holds `2 ^ e` consecutive naturals and starts at a
multiple of `2 ^ e`. A span is cut into blocks greedily: the largest block that
is aligned at the lower end and stays inside the span is emitted, and the cut
continues behind it.

## Main definitions

* `largestExponent`: the upward search for the largest usable exponent
* `blocks`: the greedy cut of a span
* `differenceBlocks`: merge two lists, subtract, and cut what is left

## Main results

* `cover_blocks`, `blocks_ascending`
* `cover_differenceBlocks`, `differenceBlocks_ascending`
-/

namespace Foundation

/-- A block of exponent `exponent` at `lo` is aligned and ends by `hi`. -/
def Fits (lo hi exponent : ℕ) : Prop := 2 ^ exponent ∣ lo ∧ lo + (2 ^ exponent - 1) ≤ hi

instance (lo hi exponent : ℕ) : Decidable (Fits lo hi exponent) :=
  inferInstanceAs (Decidable (_ ∧ _))

theorem fits_zero {lo hi : ℕ} : Fits lo hi 0 ↔ lo ≤ hi := by
  simp [Fits]

theorem fits_of_fits_succ {lo hi exponent : ℕ} (fits : Fits lo hi (exponent + 1)) :
    Fits lo hi exponent := by
  obtain ⟨aligned, inside⟩ := fits
  have double : 2 ^ (exponent + 1) = 2 ^ exponent * 2 := pow_succ 2 exponent
  refine ⟨dvd_trans (Dvd.intro _ double.symm) aligned, ?_⟩
  omega

/-- Raise the exponent while the next one fits, at most `steps` times. -/
def largestExponent (lo hi exponent : ℕ) : ℕ → ℕ
  | 0 => exponent
  | steps + 1 =>
    if Fits lo hi (exponent + 1) then largestExponent lo hi (exponent + 1) steps else exponent

theorem fits_largestExponent {lo hi exponent : ℕ} (steps : ℕ) (fits : Fits lo hi exponent) :
    Fits lo hi (largestExponent lo hi exponent steps) := by
  induction steps generalizing exponent with
  | zero => exact fits
  | succ steps ih =>
    rw [largestExponent]
    split_ifs with next
    · exact ih next
    · exact fits

theorem largestExponent_le (lo hi exponent steps : ℕ) :
    largestExponent lo hi exponent steps ≤ exponent + steps := by
  induction steps generalizing exponent with
  | zero => exact le_rfl
  | succ steps ih =>
    rw [largestExponent]
    split_ifs with next
    · have := ih (exponent + 1)
      omega
    · omega

/-- Cut a span into blocks of exponent at most `bound`, largest first. -/
def blocks (bound lo hi : ℕ) : List Span :=
  if lo ≤ hi then
    let size := 2 ^ largestExponent lo hi 0 bound
    ⟨lo, lo + (size - 1)⟩ :: blocks bound (lo + size) hi
  else []
termination_by hi + 1 - lo
decreasing_by
  have : 0 < 2 ^ largestExponent lo hi 0 bound := Nat.two_pow_pos _
  omega

theorem blocks_of_lt {bound lo hi : ℕ} (empty : hi < lo) : blocks bound lo hi = [] := by
  rw [blocks, if_neg (Nat.not_le.mpr empty)]

/-- The blocks cover exactly the span. -/
theorem cover_blocks (bound lo hi : ℕ) : cover (blocks bound lo hi) = (Span.mk lo hi).points := by
  fun_induction blocks bound lo hi with
  | case1 lo nonempty size ih =>
    have inside := (fits_largestExponent bound (fits_zero.mpr nonempty)).2
    have positive : 0 < size := Nat.two_pow_pos _
    rw [cover_cons, ih]
    ext point
    simp only [Set.mem_union, Span.mem_points]
    omega
  | case2 lo empty =>
    ext point
    simp only [cover_nil, Set.mem_empty_iff_false, Span.mem_points, false_iff]
    omega

theorem mem_blocks_bounds {bound lo hi : ℕ} {block : Span} (member : block ∈ blocks bound lo hi) :
    lo ≤ block.lo ∧ block.lo ≤ block.hi ∧ block.hi ≤ hi := by
  fun_induction blocks bound lo hi with
  | case1 lo nonempty size ih =>
    have inside := (fits_largestExponent bound (fits_zero.mpr nonempty)).2
    have positive : 0 < size := Nat.two_pow_pos _
    rcases List.mem_cons.mp member with rfl | later
    · dsimp only
      omega
    · have := ih later
      omega
  | case2 lo empty => simp at member

/-- The blocks come in increasing order. -/
theorem blocks_ascending (bound lo hi : ℕ) : Ascending (blocks bound lo hi) := by
  fun_induction blocks bound lo hi with
  | case1 lo nonempty size ih =>
    have positive : 0 < size := Nat.two_pow_pos _
    refine ascending_cons.mpr ⟨Nat.le_add_right _ _, ?_, ih⟩
    intro later member
    have := (mem_blocks_bounds member).1
    dsimp only
    omega
  | case2 lo empty => exact ascending_nil

/-- Cutting the spans of an ascending list keeps the order. -/
theorem flatMap_blocks_ascending (bound : ℕ) {spans : List Span} (ascending : Ascending spans) :
    Ascending (spans.flatMap fun span => blocks bound span.lo span.hi) := by
  induction spans with
  | nil => exact ascending_nil
  | cons span spans ih =>
    obtain ⟨-, first, rest⟩ := ascending_cons.mp ascending
    rw [List.flatMap_cons]
    refine ascending_append.mpr ⟨blocks_ascending _ _ _, ih rest, ?_⟩
    intro block member other otherMember
    obtain ⟨later, laterMember, inLater⟩ := List.mem_flatMap.mp otherMember
    have upper := (mem_blocks_bounds member).2.2
    have lower := (mem_blocks_bounds inLater).1
    have gap := first later laterMember
    omega

/-- Cutting every span of a list keeps the covered points. -/
theorem cover_flatMap_blocks (bound : ℕ) (spans : List Span) :
    cover (spans.flatMap fun span => blocks bound span.lo span.hi) = cover spans := by
  rw [cover_flatMap]
  ext point
  simp only [cover_blocks, Set.mem_ofPred_eq, Span.mem_points, mem_cover]

/-- The points of one list outside another, as aligned blocks. -/
def differenceBlocks (bound : ℕ) (bases knives : List Span) : List Span :=
  (subtract (mergeSpans bases) (mergeSpans knives)).flatMap
    fun span => blocks bound span.lo span.hi

theorem cover_differenceBlocks (bound : ℕ) {bases knives : List Span} (basesValid : AllValid bases)
    (knivesValid : AllValid knives) :
    cover (differenceBlocks bound bases knives) = cover bases \ cover knives := by
  obtain ⟨basesCover, basesSeparated⟩ := mergeSpans_spec basesValid
  obtain ⟨knivesCover, knivesSeparated⟩ := mergeSpans_spec knivesValid
  rw [differenceBlocks, cover_flatMap_blocks, cover_subtract _ _ basesSeparated knivesSeparated,
    basesCover, knivesCover]

/-- What is left of a subtraction is a separated list. -/
theorem subtract_mergeSpans_separated {bases knives : List Span} (basesValid : AllValid bases)
    (knivesValid : AllValid knives) :
    Separated (subtract (mergeSpans bases) (mergeSpans knives)) :=
  subtract_separated _ _ (mergeSpans_spec basesValid).2 (mergeSpans_spec knivesValid).2

theorem differenceBlocks_ascending (bound : ℕ) {bases knives : List Span}
    (basesValid : AllValid bases) (knivesValid : AllValid knives) :
    Ascending (differenceBlocks bound bases knives) :=
  flatMap_blocks_ascending bound (subtract_mergeSpans_separated basesValid knivesValid).ascending

end Foundation
