import Kidobo.Network.Interval
import Kidobo.Foundation.Dyadic

/-!
# Safelist subtraction and CIDR re-decomposition

Subtraction walks the merged candidates with one cursor into the merged
safelist. The remaining intervals are cut back into canonical networks, the
largest prefix first.

The exact operations `exactAdd` and `exactSub` take a proof that they do not
wrap, so every addition and subtraction of the two loops is checked where it
stands. Both loops denote their unbounded counterparts `Foundation.subtract`
and `Foundation.blocks` under the map from words to naturals.

## Main definitions

* `subtractIntervalsU32Merged`, `subtractIntervalsU128Merged`
* `intervalsToIpv4CidrsFromMerged`, `intervalsToIpv6CidrsFromMerged`
* `subtractSafelistIpv4`, `subtractSafelistIpv6`

## Main results

* `spans_subtractIntervalsMerged`, `map_span_cidrsFrom`: the loops over words
  are the unbounded ones
* `map_span_subtractSafelistIpv4`, `map_span_subtractSafelistIpv6`: the result
  denotes `Foundation.differenceBlocks`
* `covered_subtractSafelistIpv4`, `covered_subtractSafelistIpv6`: the covered
  addresses are those of the candidates outside the safelist
-/

namespace Kidobo

open Foundation

variable {width : ℕ}

/-! ### Word arithmetic that must not wrap -/

/-- An addition of the source, with the proof that it stays in range. -/
def exactAdd (left right : BitVec width) (_fits : left.toNat + right.toNat < 2 ^ width) :
    BitVec width :=
  left + right

/-- A subtraction of the source, with the proof that it stays in range. -/
def exactSub (left right : BitVec width) (_fits : right.toNat ≤ left.toNat) : BitVec width :=
  left - right

@[simp] theorem toNat_exactAdd (left right : BitVec width)
    (fits : left.toNat + right.toNat < 2 ^ width) :
    (exactAdd left right fits).toNat = left.toNat + right.toNat :=
  BitVec.toNat_add_of_lt fits

@[simp] theorem toNat_exactSub (left right : BitVec width) (fits : right.toNat ≤ left.toNat) :
    (exactSub left right fits).toNat = left.toNat - right.toNat :=
  BitVec.toNat_sub_of_le (BitVec.le_def.mpr fits)

theorem toNat_one (positive : 0 < width) : (BitVec.ofNat width 1).toNat = 1 := by
  rw [BitVec.toNat_ofNat]
  exact Nat.mod_eq_of_lt (Nat.one_lt_two_pow positive.ne')

theorem toNat_one_le : (BitVec.ofNat width 1).toNat ≤ 1 := by
  rw [BitVec.toNat_ofNat]
  exact Nat.mod_le _ _

/-- The successor of a word stays in range below a larger word. -/
theorem succ_fits {small large : BitVec width} (notReached : ¬large ≤ small) :
    small.toNat + (BitVec.ofNat width 1).toNat < 2 ^ width := by
  rw [BitVec.le_def] at notReached
  have oneLe : (BitVec.ofNat width 1).toNat ≤ 1 := toNat_one_le
  have bound := large.isLt
  omega

/-- The predecessor of a word stays in range above a smaller word. -/
theorem pred_fits {small large : BitVec width} (later : small < large) :
    (BitVec.ofNat width 1).toNat ≤ large.toNat :=
  toNat_one_le.trans (Nat.succ_le_of_lt (Nat.zero_lt_of_lt later))

/-! ### Subtraction of merged intervals -/

/-- The state of the inner loop when it ends: the intervals pushed, the next
start unless the base interval was fully carved, and the cursor. -/
structure CarveOutcome (width : ℕ) where
  pushed : List (Interval width)
  nextStart : Option (BitVec width)
  cursor : List (Interval width)

/-- The interval pushed in front of a safelist interval that starts later. -/
def pushBefore (nextStart : BitVec width) (carve : Interval width) : List (Interval width) :=
  if later : nextStart < carve.start then
    [⟨nextStart, exactSub carve.start (BitVec.ofNat width 1) (pred_fits later)⟩]
  else []

/-- The inner loop over the safelist intervals from the cursor on. -/
def carveInterval (base : Interval width) (nextStart : BitVec width) :
    List (Interval width) → CarveOutcome width
  | [] => ⟨[], some nextStart, []⟩
  | carve :: rest =>
    if base.last < carve.start then ⟨[], some nextStart, carve :: rest⟩
    else if carve.last < nextStart then carveInterval base nextStart rest
    else if reached : base.last ≤ carve.last then ⟨pushBefore nextStart carve, none, carve :: rest⟩
    else
      let outcome :=
        carveInterval base (exactAdd carve.last (BitVec.ofNat width 1) (succ_fits reached)) rest
      ⟨pushBefore nextStart carve ++ outcome.pushed, outcome.nextStart, outcome.cursor⟩

/-- The interval pushed after the inner loop, unless the base interval was
fully carved or nothing of it is left. -/
def pushRemainder (base : Interval width) : Option (BitVec width) → List (Interval width)
  | none => []
  | some nextStart => if nextStart ≤ base.last then [⟨nextStart, base.last⟩] else []

/-- The outer loop, with the safelist intervals from the cursor on. -/
def subtractFromCursor :
    List (Interval width) → List (Interval width) → List (Interval width)
  | [], _ => []
  | base :: bases, cursor =>
    let reached := cursor.dropWhile fun interval => interval.last < base.start
    let outcome := carveInterval base base.start reached
    outcome.pushed ++ pushRemainder base outcome.nextStart ++
      subtractFromCursor bases outcome.cursor

/-- The subtraction of merged intervals, shared by both families. -/
def subtractIntervalsMerged (base carve : List (Interval width)) : List (Interval width) :=
  if base.isEmpty then []
  else if carve.isEmpty then base
  else subtractFromCursor base carve

/-- `subtract_intervals_u32_merged`. -/
def subtractIntervalsU32Merged : List (Interval 32) → List (Interval 32) → List (Interval 32) :=
  subtractIntervalsMerged

/-- `subtract_intervals_u128_merged`. -/
def subtractIntervalsU128Merged :
    List (Interval 128) → List (Interval 128) → List (Interval 128) :=
  subtractIntervalsMerged

/-- The outcome of the inner loop, read as spans of naturals. -/
def CarveOutcome.toCarved (outcome : CarveOutcome width) : Carved :=
  ⟨spans outcome.pushed, outcome.nextStart.map BitVec.toNat, spans outcome.cursor⟩


theorem spans_pushBefore (positive : 0 < width) (nextStart : BitVec width)
    (carve : Interval width) :
    spans (pushBefore nextStart carve) = pieceBefore nextStart.toNat carve.span := by
  unfold pushBefore pieceBefore
  by_cases later : nextStart < carve.start
  · rw [dif_pos later, if_pos (show nextStart.toNat < carve.span.lo from later)]
    simp [Interval.span, toNat_one positive]
  · rw [dif_neg later, if_neg (show ¬nextStart.toNat < carve.span.lo from later), spans_nil]

/-- The inner loop over words is the unbounded one. -/
theorem toCarved_carveInterval (positive : 0 < width) (base : Interval width)
    (nextStart : BitVec width) (cursor : List (Interval width)) :
    (carveInterval base nextStart cursor).toCarved =
      carve base.span nextStart.toNat (spans cursor) := by
  fun_induction carveInterval base nextStart cursor with
  | case1 nextStart => rfl
  | case2 nextStart knife rest beyond =>
    rw [spans_cons, carve, if_pos (show base.span.hi < knife.span.lo from beyond)]
    rfl
  | case3 nextStart knife rest notBeyond behind ih =>
    rw [spans_cons, carve, if_neg (show ¬base.span.hi < knife.span.lo from notBeyond),
      if_pos (show knife.span.hi < nextStart.toNat from behind), ih]
  | case4 nextStart knife rest notBeyond notBehind reached =>
    rw [spans_cons, carve, if_neg (show ¬base.span.hi < knife.span.lo from notBeyond),
      if_neg (show ¬knife.span.hi < nextStart.toNat from notBehind),
      if_pos (show base.span.hi ≤ knife.span.hi from reached),
      ← spans_pushBefore positive]
    rfl
  | case5 nextStart knife rest notBeyond notBehind notReached outcome ih =>
    rw [spans_cons, carve, if_neg (show ¬base.span.hi < knife.span.lo from notBeyond),
      if_neg (show ¬knife.span.hi < nextStart.toNat from notBehind),
      if_neg (show ¬base.span.hi ≤ knife.span.hi from notReached),
      ← spans_pushBefore positive]
    rw [toNat_exactAdd, toNat_one positive] at ih
    simp only [Interval.hi_span, ← ih]
    simp only [CarveOutcome.toCarved, spans_append, outcome]

theorem spans_pushRemainder (base : Interval width) (nextStart : Option (BitVec width)) :
    spans (pushRemainder base nextStart) =
      ((nextStart.map BitVec.toNat).map (pieceAfter base.span)).getD [] := by
  cases nextStart with
  | none => rfl
  | some nextStart =>
    simp only [pushRemainder, Option.map_some, Option.getD_some, pieceAfter]
    by_cases left : nextStart ≤ base.last
    · rw [if_pos left, if_pos (show nextStart.toNat ≤ base.span.hi from left)]
      rfl
    · rw [if_neg left, if_neg (show ¬nextStart.toNat ≤ base.span.hi from left), spans_nil]

theorem spans_dropWhile_last_lt (cursor : List (Interval width)) (start : BitVec width) :
    spans (cursor.dropWhile fun interval => interval.last < start) =
      (spans cursor).dropWhile fun knife => knife.hi < start.toNat := by
  rw [spans, spans, List.dropWhile_map]
  rfl

/-- The outer loop over words is the unbounded subtraction. -/
theorem spans_subtractFromCursor (positive : 0 < width) (bases cursor : List (Interval width)) :
    spans (subtractFromCursor bases cursor) = subtract (spans bases) (spans cursor) := by
  induction bases generalizing cursor with
  | nil => rfl
  | cons base bases ih =>
    have carved : carve base.span base.span.lo
        ((spans cursor).dropWhile fun knife => knife.hi < base.span.lo) =
          (carveInterval base base.start
            (cursor.dropWhile fun interval => interval.last < base.start)).toCarved := by
      rw [toCarved_carveInterval positive, spans_dropWhile_last_lt]
      rfl
    rw [subtractFromCursor, spans_cons, subtract, carved]
    simp only [spans_append, ih, spans_pushRemainder]
    rfl

/-- The subtraction of merged intervals is the unbounded one: no step of it wraps. -/
theorem spans_subtractIntervalsMerged (positive : 0 < width) (base carve : List (Interval width))
    (wellFormed : WellFormed base) :
    spans (subtractIntervalsMerged base carve) = subtract (spans base) (spans carve) := by
  unfold subtractIntervalsMerged
  split_ifs with baseEmpty carveEmpty
  · rw [List.isEmpty_iff.mp baseEmpty]
    rfl
  · rw [List.isEmpty_iff.mp carveEmpty, spans_nil, subtract_nil _ wellFormed]
  · exact spans_subtractFromCursor positive base carve

/-! ### Re-decomposition into networks -/

/-- `is_aligned_u32` and `is_aligned_u128`. -/
def isAligned (start : BitVec width) (prefixLen : ℕ) : Bool :=
  start &&& hostMask width prefixLen == BitVec.ofNat width 0

/-- `block_end_u32` and `block_end_u128`. -/
def blockEnd (start : BitVec width) (prefixLen : ℕ) : BitVec width :=
  saturatingAdd start (hostMask width prefixLen)

/-- The loop over the next shorter prefixes, left at the first one whose block
is unaligned or reaches past the end. -/
def largestPrefixFrom (start last : BitVec width) : ℕ → ℕ
  | 0 => 0
  | nextPrefix + 1 =>
    if !isAligned start nextPrefix then nextPrefix + 1
    else if last < blockEnd start nextPrefix then nextPrefix + 1
    else largestPrefixFrom start last nextPrefix

/-- `largest_prefix_u32` and `largest_prefix_u128`. -/
def largestPrefix (start last : BitVec width) : ℕ := largestPrefixFrom start last width

theorem largestPrefixFrom_le (start last : BitVec width) (prefixLen : ℕ) :
    largestPrefixFrom start last prefixLen ≤ prefixLen := by
  fun_induction largestPrefixFrom start last prefixLen <;> omega

theorem largestPrefix_le (start last : BitVec width) : largestPrefix start last ≤ width :=
  largestPrefixFrom_le start last width

/-- `checked_shl`: no result for a shift by the whole word. -/
def checkedShl (word : BitVec width) (shift : ℕ) : Option (BitVec width) :=
  if shift < width then some (word <<< shift) else none

theorem toNat_of_checkedShl_one {shift : ℕ} {increment : BitVec width}
    (shifted : checkedShl (BitVec.ofNat width 1) shift = some increment) :
    increment.toNat = 2 ^ shift := by
  unfold checkedShl at shifted
  split_ifs at shifted with small
  obtain rfl := Option.some.inj shifted
  rw [BitVec.toNat_shiftLeft, toNat_one (Nat.zero_lt_of_lt small), Nat.one_shiftLeft]
  exact Nat.mod_eq_of_lt (Nat.pow_lt_pow_right (by decide) small)

theorem toNat_le_allOnes (word : BitVec width) : word.toNat ≤ (BitVec.allOnes width).toNat := by
  have := word.isLt
  rw [BitVec.toNat_allOnes]
  omega

theorem increment_fits {start increment : BitVec width}
    (inside : ¬exactSub (BitVec.allOnes width) increment (toNat_le_allOnes increment) < start) :
    start.toNat + increment.toNat < 2 ^ width := by
  have startBound := toNat_le_allOnes increment
  have positive := Nat.two_pow_pos width
  rw [BitVec.lt_def, toNat_exactSub, BitVec.toNat_allOnes] at inside
  rw [BitVec.toNat_allOnes] at startBound
  omega

/-- The emission loop of one interval. -/
def cidrsFrom (start last : BitVec width) : List (Cidr width) :=
  if start ≤ last then
    let prefixLen := largestPrefix start last
    Cidr.fromParts start prefixLen (largestPrefix_le start last) ::
      if prefixLen = 0 then []
      else
        match _shifted : checkedShl (BitVec.ofNat width 1) (width - prefixLen) with
        | none => []
        | some increment =>
          if inside : exactSub (BitVec.allOnes width) increment (toNat_le_allOnes increment) < start
          then []
          else cidrsFrom (exactAdd start increment (increment_fits inside)) last
  else []
termination_by last.toNat + 1 - start.toNat
decreasing_by
  rename_i ordered _
  have grows : 0 < increment.toNat := toNat_of_checkedShl_one _shifted ▸ Nat.two_pow_pos _
  rw [BitVec.le_def] at ordered
  rw [toNat_exactAdd]
  omega

/-- The re-decomposition of merged intervals, shared by both families. -/
def intervalsToCidrsFromMerged (intervals : List (Interval width)) : List (Cidr width) :=
  intervals.flatMap fun interval => cidrsFrom interval.start interval.last

/-- `intervals_to_ipv4_cidrs_from_merged`. -/
def intervalsToIpv4CidrsFromMerged : List (Interval 32) → List Ipv4Cidr :=
  intervalsToCidrsFromMerged

/-- `intervals_to_ipv6_cidrs_from_merged`. -/
def intervalsToIpv6CidrsFromMerged : List (Interval 128) → List Ipv6Cidr :=
  intervalsToCidrsFromMerged

theorem isAligned_iff {start : BitVec width} {prefixLen : ℕ} (inRange : prefixLen ≤ width) :
    isAligned start prefixLen = true ↔ 2 ^ (width - prefixLen) ∣ start.toNat := by
  rw [isAligned, beq_iff_eq, ← BitVec.toNat_inj, toNat_and_hostMask inRange, BitVec.toNat_ofNat,
    Nat.zero_mod, Nat.dvd_iff_mod_eq_zero]

/-- An aligned block never saturates. -/
theorem toNat_blockEnd {start : BitVec width} {prefixLen : ℕ} (inRange : prefixLen ≤ width)
    (aligned : 2 ^ (width - prefixLen) ∣ start.toNat) :
    (blockEnd start prefixLen).toNat = start.toNat + (2 ^ (width - prefixLen) - 1) := by
  have inside := block_end_lt inRange rfl start.isLt aligned
  rw [blockEnd, toNat_saturatingAdd, toNat_hostMask inRange]
  omega

/-- One turn of the prefix loop asks whether the next larger block fits. -/
theorem fits_iff {start last : BitVec width} {prefixLen : ℕ} (inRange : prefixLen ≤ width) :
    Fits start.toNat last.toNat (width - prefixLen) ↔
      isAligned start prefixLen = true ∧ ¬last < blockEnd start prefixLen := by
  rw [Fits, isAligned_iff inRange]
  refine and_congr_right fun aligned => ?_
  rw [BitVec.lt_def, toNat_blockEnd inRange aligned, Nat.not_lt]

/-- The prefix loop is the unbounded search for the largest exponent. -/
theorem width_sub_largestPrefixFrom (start last : BitVec width) {prefixLen : ℕ}
    (inRange : prefixLen ≤ width) :
    width - largestPrefixFrom start last prefixLen =
      largestExponent start.toNat last.toNat (width - prefixLen) prefixLen := by
  induction prefixLen with
  | zero => rfl
  | succ next ih =>
    have raised : width - (next + 1) + 1 = width - next := by omega
    rw [largestPrefixFrom, largestExponent, raised]
    by_cases fits : Fits start.toNat last.toNat (width - next)
    · obtain ⟨aligned, inside⟩ := (fits_iff (by omega)).mp fits
      rw [if_pos fits, if_neg (by simp [aligned]), if_neg inside]
      exact ih (by omega)
    · rw [if_neg fits]
      have fails := mt (fits_iff (by omega)).mpr fits
      split_ifs with unaligned beyond
      · rfl
      · rfl
      · exact absurd ⟨by simpa using unaligned, beyond⟩ fails

theorem width_sub_largestPrefix (start last : BitVec width) :
    width - largestPrefix start last = largestExponent start.toNat last.toNat 0 width := by
  simpa [largestPrefix] using width_sub_largestPrefixFrom start last le_rfl

theorem span_fromParts_of_aligned {start : BitVec width} {prefixLen : ℕ}
    (inRange : prefixLen ≤ width) (aligned : isAligned start prefixLen = true) :
    (Cidr.fromParts start prefixLen inRange).span =
      ⟨start.toNat, start.toNat + (2 ^ (width - prefixLen) - 1)⟩ := by
  rw [isAligned, beq_iff_eq] at aligned
  rw [Cidr.span, Cidr.network_fromParts_of_aligned inRange aligned, Cidr.prefixLen_fromParts]

/-- The emission loop is the unbounded greedy cut: leaving it early, because the
shift or the next start would not fit a word, drops no address. -/
theorem map_span_cidrsFrom (start last : BitVec width) :
    (cidrsFrom start last).map Cidr.span = blocks width start.toNat last.toNat := by
  fun_induction cidrsFrom start last with
  | case1 start ordered prefixLen ih =>
    have bound := last.isLt
    have fits : Fits start.toNat last.toNat (width - prefixLen) := by
      rw [width_sub_largestPrefix]
      exact fits_largestExponent width (fits_zero.mpr ordered)
    have aligned := ((fits_iff (largestPrefix_le start last)).mp fits).1
    rw [blocks, if_pos (show start.toNat ≤ last.toNat from ordered), ← width_sub_largestPrefix,
      List.map_cons, span_fromParts_of_aligned _ aligned]
    refine congrArg _ ?_
    split_ifs with whole
    · -- a block of the whole family leaves nothing behind it
      rw [show largestPrefix start last = 0 from whole, Nat.sub_zero, blocks_of_lt (by omega)]
      rfl
    · split
      · next overlong =>
        have shorter : width - prefixLen < width := by
          have := largestPrefix_le start last
          omega
        simp [checkedShl, shorter] at overlong
      · next increment shifted =>
        have size := toNat_of_checkedShl_one shifted
        split_ifs with atTop
        · have sizeBound := toNat_le_allOnes increment
          rw [BitVec.lt_def, toNat_exactSub, BitVec.toNat_allOnes] at atTop
          rw [BitVec.toNat_allOnes] at sizeBound
          rw [← size, blocks_of_lt (by omega), List.map_nil]
        · rw [ih increment shifted atTop, toNat_exactAdd, size]
  | case2 start disordered =>
    rw [blocks_of_lt (Nat.lt_of_not_le disordered), List.map_nil]

theorem map_span_intervalsToCidrsFromMerged (intervals : List (Interval width)) :
    (intervalsToCidrsFromMerged intervals).map Cidr.span =
      (spans intervals).flatMap fun span => blocks width span.lo span.hi := by
  simp only [intervalsToCidrsFromMerged, List.map_flatMap, map_span_cidrsFrom, spans,
    List.flatMap_map]
  rfl

/-! ### Safelist subtraction -/

/-- `subtract_safelist_ipv4`. -/
def subtractSafelistIpv4 (candidates safelist : List Ipv4Cidr) : List Ipv4Cidr :=
  let candidateIntervals := mergeIntervalsU32Owned (candidates.map toInterval)
  let safeIntervals := mergeIntervalsU32Owned (safelist.map toInterval)
  let carved := subtractIntervalsU32Merged candidateIntervals safeIntervals
  intervalsToIpv4CidrsFromMerged carved

/-- `subtract_safelist_ipv6`. -/
def subtractSafelistIpv6 (candidates safelist : List Ipv6Cidr) : List Ipv6Cidr :=
  let candidateIntervals := mergeIntervalsU128Owned (candidates.map toInterval)
  let safeIntervals := mergeIntervalsU128Owned (safelist.map toInterval)
  let carved := subtractIntervalsU128Merged candidateIntervals safeIntervals
  intervalsToIpv6CidrsFromMerged carved

theorem allValid_map_span (cidrs : List (Cidr width)) : AllValid (cidrs.map Cidr.span) := by
  rw [← spans_map_toInterval]
  exact wellFormed_map_toInterval cidrs

/-- Whatever produced the merged intervals, the rest of the word-level pipeline
denotes the unbounded computation on the denoted blocks. -/
theorem map_span_carved (positive : 0 < width) {candidates safelist : List (Cidr width)}
    {candidateIntervals safeIntervals : List (Interval width)}
    (candidatesMerged : cover (spans candidateIntervals) = covered candidates ∧
      Separated (spans candidateIntervals))
    (safelistMerged : cover (spans safeIntervals) = covered safelist ∧
      Separated (spans safeIntervals)) :
    (intervalsToCidrsFromMerged
        (subtractIntervalsMerged candidateIntervals safeIntervals)).map Cidr.span =
      differenceBlocks width (candidates.map Cidr.span) (safelist.map Cidr.span) := by
  obtain ⟨candidatesCover, candidatesSeparated⟩ := candidatesMerged
  obtain ⟨safelistCover, safelistSeparated⟩ := safelistMerged
  have candidatesCanonical : spans candidateIntervals = mergeSpans (candidates.map Cidr.span) := by
    obtain ⟨sameCover, separated⟩ := mergeSpans_spec (allValid_map_span candidates)
    exact separated_unique candidatesSeparated separated (candidatesCover.trans sameCover.symm)
  have safelistCanonical : spans safeIntervals = mergeSpans (safelist.map Cidr.span) := by
    obtain ⟨sameCover, separated⟩ := mergeSpans_spec (allValid_map_span safelist)
    exact separated_unique safelistSeparated separated (safelistCover.trans sameCover.symm)
  rw [map_span_intervalsToCidrsFromMerged,
    spans_subtractIntervalsMerged positive _ _ candidatesSeparated.1, candidatesCanonical,
    safelistCanonical]
  rfl

/-- No wrap and no saturation decides the IPv4 result. -/
theorem map_span_subtractSafelistIpv4 (candidates safelist : List Ipv4Cidr) :
    (subtractSafelistIpv4 candidates safelist).map Cidr.span =
      differenceBlocks 32 (candidates.map Cidr.span) (safelist.map Cidr.span) :=
  map_span_carved (by decide) (mergeIntervalsU32Owned_cidrs candidates)
    (mergeIntervalsU32Owned_cidrs safelist)

/-- No wrap and no saturation decides the IPv6 result. -/
theorem map_span_subtractSafelistIpv6 (candidates safelist : List Ipv6Cidr) :
    (subtractSafelistIpv6 candidates safelist).map Cidr.span =
      differenceBlocks 128 (candidates.map Cidr.span) (safelist.map Cidr.span) :=
  map_span_carved (by decide) (mergeIntervalsU128Owned_cidrs candidates)
    (mergeIntervalsU128Owned_cidrs safelist)

/-- A list of networks that denotes the difference covers exactly the addresses
of the first list outside the second. -/
theorem covered_of_map_span {networks candidates safelist : List (Cidr width)}
    (denoted : networks.map Cidr.span =
      differenceBlocks width (candidates.map Cidr.span) (safelist.map Cidr.span)) :
    covered networks = covered candidates \ covered safelist := by
  rw [covered, denoted,
    cover_differenceBlocks width (allValid_map_span candidates) (allValid_map_span safelist)]
  rfl

/-- A list of networks that denotes the difference is disjoint and ascending. -/
theorem ascending_of_map_span {networks candidates safelist : List (Cidr width)}
    (denoted : networks.map Cidr.span =
      differenceBlocks width (candidates.map Cidr.span) (safelist.map Cidr.span)) :
    Ascending (networks.map Cidr.span) := by
  rw [denoted]
  exact differenceBlocks_ascending width (allValid_map_span candidates) (allValid_map_span safelist)

theorem covered_subtractSafelistIpv4 (candidates safelist : List Ipv4Cidr) :
    covered (subtractSafelistIpv4 candidates safelist) = covered candidates \ covered safelist :=
  covered_of_map_span (map_span_subtractSafelistIpv4 candidates safelist)

theorem covered_subtractSafelistIpv6 (candidates safelist : List Ipv6Cidr) :
    covered (subtractSafelistIpv6 candidates safelist) = covered candidates \ covered safelist :=
  covered_of_map_span (map_span_subtractSafelistIpv6 candidates safelist)

end Kidobo
