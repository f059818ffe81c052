import Kidobo.Foundation.Partition
import Kidobo.Network.Interval

/-!
# Overlap of networks

Two networks overlap when they are of one family and share an address. The
program compares the ends of their intervals, pair by pair or against merged
intervals with one partition point.

## Main results

* `cidrOverlaps_iff`: the comparison of the ends decides a shared address
* `overlapsInterval_iff`: one scan of disjoint ascending intervals decides it
-/

namespace Kidobo

open Foundation

variable {width : ℕ}

/-- `intervals_overlap_u32` and `intervals_overlap_u128`. -/
def intervalsOverlap (left right : Interval width) : Bool :=
  !(decide (left.last < right.start) || decide (right.last < left.start))

/-- `cidr_overlaps`: networks of different families never overlap. -/
def cidrOverlaps : CanonicalCidr → CanonicalCidr → Bool
  | .v4 left, .v4 right => intervalsOverlap (toInterval left) (toInterval right)
  | .v6 left, .v6 right => intervalsOverlap (toInterval left) (toInterval right)
  | _, _ => false

/-- Two networks of one family share an address. -/
def CanonicalCidr.Overlaps : CanonicalCidr → CanonicalCidr → Prop
  | .v4 left, .v4 right => (left.span.points ∩ right.span.points).Nonempty
  | .v6 left, .v6 right => (left.span.points ∩ right.span.points).Nonempty
  | _, _ => False

/-- Intervals meet exactly when neither ends before the other starts. -/
theorem intervalsOverlap_iff {left right : Interval width} (leftValid : left.span.Valid)
    (rightValid : right.span.Valid) :
    intervalsOverlap left right = true ↔ (left.span.points ∩ right.span.points).Nonempty := by
  unfold intervalsOverlap
  rw [Bool.not_eq_true', Bool.or_eq_false_iff, decide_eq_false_iff_not, decide_eq_false_iff_not,
    BitVec.not_lt, BitVec.not_lt, BitVec.le_def, BitVec.le_def]
  constructor
  · rintro ⟨rightStarts, leftStarts⟩
    refine ⟨max left.start.toNat right.start.toNat, ?_, ?_⟩
    · exact ⟨le_max_left _ _, max_le leftValid rightStarts⟩
    · exact ⟨le_max_right _ _, max_le leftStarts rightValid⟩
  · rintro ⟨address, inLeft, inRight⟩
    exact ⟨le_trans inRight.1 inLeft.2, le_trans inLeft.1 inRight.2⟩

theorem intervalsOverlap_toInterval_iff (left right : Cidr width) :
    intervalsOverlap (toInterval left) (toInterval right) = true ↔
      (left.span.points ∩ right.span.points).Nonempty := by
  rw [intervalsOverlap_iff (span_toInterval left ▸ left.span_valid)
    (span_toInterval right ▸ right.span_valid), span_toInterval, span_toInterval]

/-- The pairwise comparison decides a shared address. -/
theorem cidrOverlaps_iff (left right : CanonicalCidr) :
    cidrOverlaps left right = true ↔ left.Overlaps right := by
  cases left with
  | v4 left =>
    cases right with
    | v4 right => exact intervalsOverlap_toInterval_iff left right
    | v6 right => exact iff_of_false Bool.false_ne_true id
  | v6 left =>
    cases right with
    | v4 right => exact iff_of_false Bool.false_ne_true id
    | v6 right => exact intervalsOverlap_toInterval_iff left right

/-- Whether an interval meets one of the merged intervals. -/
def overlapsInterval (intervals : List (Interval width)) (entry : Interval width) : Bool :=
  let index := partitionPoint (fun target => decide (target.last < entry.start)) intervals
  intervals[index]?.any fun target => decide (target.start ≤ entry.last)

/-- Disjoint ascending intervals meet an interval exactly when the first one
that does not end before it starts no later than its end. -/
theorem overlapsInterval_iff {intervals : List (Interval width)}
    {entry : Interval width} (ascending : Ascending (spans intervals))
    (valid : entry.span.Valid) :
    overlapsInterval intervals entry = true ↔
      (entry.span.points ∩ cover (spans intervals)).Nonempty := by
  induction intervals with
  | nil => simp [overlapsInterval]
  | cons target rest ih =>
    obtain ⟨targetValid, before, restAscending⟩ := ascending_cons.mp ascending
    rw [spans_cons, cover_cons]
    -- the scan starts at the first interval that does not end before the entry
    by_cases skipped : target.last < entry.start
    · have sameScan : overlapsInterval (target :: rest) entry = overlapsInterval rest entry := by
        simp [overlapsInterval, partitionPoint, skipped]
      rw [sameScan, ih restAscending]
      constructor
      · rintro ⟨address, inEntry, inRest⟩
        exact ⟨address, inEntry, Or.inr inRest⟩
      · rintro ⟨address, inEntry, inTarget | inRest⟩
        · have endsBefore := BitVec.lt_def.mp skipped
          have afterStart := inEntry.1
          have beforeEnd := inTarget.2
          simp only [Interval.lo_span, Interval.hi_span] at afterStart beforeEnd
          omega
        · exact ⟨address, inEntry, inRest⟩
    · have firstScan : overlapsInterval (target :: rest) entry =
          decide (target.start ≤ entry.last) := by
        simp [overlapsInterval, partitionPoint, skipped]
      have reaches := BitVec.not_lt.mp skipped
      rw [firstScan, decide_eq_true_iff]
      rw [BitVec.le_def] at reaches ⊢
      constructor
      · intro starts
        refine ⟨max entry.start.toNat target.start.toNat, ?_, Or.inl ?_⟩
        · exact ⟨le_max_left _ _, max_le valid starts⟩
        · exact ⟨le_max_right _ _, max_le reaches targetValid⟩
      · rintro ⟨address, inEntry, inTarget | inRest⟩
        · exact le_trans inTarget.1 inEntry.2
        -- what meets a later interval reaches over the start of the first one
        · obtain ⟨span, member, inSpan⟩ := mem_cover.mp inRest
          have later := before span member
          have startsLater := inSpan.1
          have endsFirst := inEntry.2
          simp only [Interval.hi_span] at later endsFirst
          have targetOrder : target.start.toNat ≤ target.last.toNat := targetValid
          omega

end Kidobo
