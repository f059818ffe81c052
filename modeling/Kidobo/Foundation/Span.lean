import Mathlib

/-!
# Closed spans of natural numbers and the sets they cover

A span is a closed interval of natural numbers. A list of spans covers a set of
points, and three list algorithms act on that set in a known way: coalescing a
list sorted by lower end, subtracting one coalesced list from another with a
cursor that is never moved back, and cutting a span into aligned dyadic blocks.

All arithmetic here is unbounded. An implementation over machine words is
related to these algorithms by mapping its words to naturals.

## Main definitions

* `Span`, `cover`: closed intervals and the points a list of them covers
* `Separated`: nonempty spans in increasing order with a gap between neighbours
* `coalesce`, `mergeSpans`: merge a list sorted by lower end, or any list
* `carve`, `subtract`: two-pointer subtraction

## Main results

* `cover_coalesce`, `coalesce_separated`, `separated_unique`
* `cover_subtract`, `subtract_separated`
-/

namespace Foundation

/-- A closed interval of natural numbers, empty when `hi < lo`. -/
@[ext] structure Span where
  lo : ℕ
  hi : ℕ
  deriving DecidableEq, Repr

namespace Span

/-- The points of a span. -/
def points (span : Span) : Set ℕ := {point | span.lo ≤ point ∧ point ≤ span.hi}

@[simp] theorem mem_points {span : Span} {point : ℕ} :
    point ∈ span.points ↔ span.lo ≤ point ∧ point ≤ span.hi := Iff.rfl

/-- A span is valid when it holds at least its lower end. -/
def Valid (span : Span) : Prop := span.lo ≤ span.hi

end Span

/-- The points covered by a list of spans. -/
def cover (spans : List Span) : Set ℕ := {point | ∃ span ∈ spans, point ∈ span.points}

@[simp] theorem mem_cover {spans : List Span} {point : ℕ} :
    point ∈ cover spans ↔ ∃ span ∈ spans, span.lo ≤ point ∧ point ≤ span.hi := Iff.rfl

@[simp] theorem cover_nil : cover [] = ∅ := by
  ext point
  simp

@[simp] theorem cover_cons (span : Span) (spans : List Span) :
    cover (span :: spans) = span.points ∪ cover spans := by
  ext point
  simp

@[simp] theorem cover_append (left right : List Span) :
    cover (left ++ right) = cover left ∪ cover right := by
  ext point
  simp only [mem_cover, List.mem_append, Set.mem_union]
  constructor
  · rintro ⟨span, inLeft | inRight, within⟩
    · exact Or.inl ⟨span, inLeft, within⟩
    · exact Or.inr ⟨span, inRight, within⟩
  · rintro (⟨span, inLeft, within⟩ | ⟨span, inRight, within⟩)
    · exact ⟨span, Or.inl inLeft, within⟩
    · exact ⟨span, Or.inr inRight, within⟩

theorem cover_perm {left right : List Span} (permuted : left.Perm right) :
    cover left = cover right := by
  ext point
  simp only [mem_cover, permuted.mem_iff]

theorem cover_flatMap {α : Type*} (items : List α) (spans : α → List Span) :
    cover (items.flatMap spans) = {point | ∃ item ∈ items, point ∈ cover (spans item)} := by
  induction items with
  | nil => ext point; simp
  | cons item items ih =>
    rw [List.flatMap_cons, cover_append, ih]
    ext point
    simp only [Set.mem_union, Set.mem_ofPred_eq, List.mem_cons, exists_eq_or_imp]

/-! ### Order conditions -/

/-- Every span holds a point. -/
def AllValid (spans : List Span) : Prop := ∀ span ∈ spans, span.Valid

/-- Spans in order of their lower ends. -/
def SortedByLo (spans : List Span) : Prop := spans.Pairwise fun left right => left.lo ≤ right.lo

/-- Nonempty spans in increasing order without a shared point. -/
def Ascending (spans : List Span) : Prop :=
  AllValid spans ∧ spans.Pairwise fun left right => left.hi < right.lo

/-- Nonempty spans in increasing order with a missing point between neighbours. -/
def Separated (spans : List Span) : Prop :=
  AllValid spans ∧ spans.Pairwise fun left right => left.hi + 1 < right.lo

theorem allValid_nil : AllValid [] := by simp [AllValid]

theorem allValid_cons {span : Span} {spans : List Span} :
    AllValid (span :: spans) ↔ span.Valid ∧ AllValid spans := by
  simp [AllValid]

theorem separated_nil : Separated [] := ⟨allValid_nil, List.Pairwise.nil⟩

theorem separated_cons {span : Span} {spans : List Span} :
    Separated (span :: spans) ↔
      span.Valid ∧ (∀ later ∈ spans, span.hi + 1 < later.lo) ∧ Separated spans := by
  simp only [Separated, allValid_cons, List.pairwise_cons]
  tauto

theorem ascending_nil : Ascending [] := ⟨allValid_nil, List.Pairwise.nil⟩

theorem ascending_cons {span : Span} {spans : List Span} :
    Ascending (span :: spans) ↔
      span.Valid ∧ (∀ later ∈ spans, span.hi < later.lo) ∧ Ascending spans := by
  simp only [Ascending, allValid_cons, List.pairwise_cons]
  tauto

theorem ascending_append {left right : List Span} :
    Ascending (left ++ right) ↔
      Ascending left ∧ Ascending right ∧ ∀ a ∈ left, ∀ b ∈ right, a.hi < b.lo := by
  simp only [Ascending, AllValid, List.mem_append, List.pairwise_append]
  constructor
  · rintro ⟨valid, leftOrder, rightOrder, across⟩
    exact ⟨⟨fun s hs => valid s (Or.inl hs), leftOrder⟩,
      ⟨fun s hs => valid s (Or.inr hs), rightOrder⟩, across⟩
  · rintro ⟨⟨leftValid, leftOrder⟩, ⟨rightValid, rightOrder⟩, across⟩
    exact ⟨fun s hs => hs.elim (leftValid s) (rightValid s), leftOrder, rightOrder, across⟩

theorem separated_append {left right : List Span} :
    Separated (left ++ right) ↔
      Separated left ∧ Separated right ∧ ∀ a ∈ left, ∀ b ∈ right, a.hi + 1 < b.lo := by
  simp only [Separated, AllValid, List.mem_append, List.pairwise_append]
  constructor
  · rintro ⟨valid, leftOrder, rightOrder, across⟩
    exact ⟨⟨fun s hs => valid s (Or.inl hs), leftOrder⟩,
      ⟨fun s hs => valid s (Or.inr hs), rightOrder⟩, across⟩
  · rintro ⟨⟨leftValid, leftOrder⟩, ⟨rightValid, rightOrder⟩, across⟩
    exact ⟨fun s hs => hs.elim (leftValid s) (rightValid s), leftOrder, rightOrder, across⟩

theorem Separated.ascending {spans : List Span} (separated : Separated spans) :
    Ascending spans :=
  ⟨separated.1, separated.2.imp fun gap => by omega⟩

/-! ### Coalescing -/

/-- Merge the spans that meet or touch the current one, which carries the
points seen so far since the last emitted span. -/
def coalesce (current : Span) : List Span → List Span
  | [] => [current]
  | next :: rest =>
    if next.lo ≤ current.hi + 1 then
      coalesce ⟨current.lo, max current.hi next.hi⟩ rest
    else
      current :: coalesce next rest

/-- Coalescing keeps the covered set of a list sorted by lower end. -/
theorem cover_coalesce (current : Span) (rest : List Span)
    (valid : AllValid (current :: rest)) (sorted : SortedByLo (current :: rest)) :
    cover (coalesce current rest) = cover (current :: rest) := by
  induction rest generalizing current with
  | nil => rfl
  | cons next rest ih =>
    obtain ⟨currentValid, nextValid, restValid⟩ : current.Valid ∧ next.Valid ∧ AllValid rest := by
      simpa only [allValid_cons] using valid
    simp only [SortedByLo, List.pairwise_cons, List.mem_cons, forall_eq_or_imp] at sorted
    obtain ⟨⟨currentFirst, currentRest⟩, nextRest, restSorted⟩ := sorted
    simp only [Span.Valid] at currentValid nextValid
    rw [coalesce]
    split_ifs with touching
    · rw [ih]
      · ext point
        simp only [cover_cons, Set.mem_union, Span.mem_points]
        have joined : (current.lo ≤ point ∧ point ≤ max current.hi next.hi) ↔
            (current.lo ≤ point ∧ point ≤ current.hi) ∨ (next.lo ≤ point ∧ point ≤ next.hi) := by
          omega
        rw [joined, or_assoc]
      · rw [allValid_cons]
        exact ⟨by simp only [Span.Valid]; omega, restValid⟩
      · exact List.pairwise_cons.mpr ⟨currentRest, restSorted⟩
    · rw [cover_cons, ih next (allValid_cons.mpr ⟨nextValid, restValid⟩)
        (List.pairwise_cons.mpr ⟨nextRest, restSorted⟩), cover_cons current]

/-- The first coalesced span starts where the current one does, and every
coalesced span starts at or after it. -/
theorem lo_le_of_mem_coalesce (current : Span) (rest : List Span)
    (sorted : SortedByLo (current :: rest)) {span : Span}
    (member : span ∈ coalesce current rest) : current.lo ≤ span.lo := by
  induction rest generalizing current with
  | nil => simp_all [coalesce]
  | cons next rest ih =>
    simp only [SortedByLo, List.pairwise_cons, List.mem_cons, forall_eq_or_imp] at sorted
    obtain ⟨⟨currentFirst, currentRest⟩, nextRest, restSorted⟩ := sorted
    rw [coalesce] at member
    split_ifs at member with touching
    · exact ih ⟨current.lo, max current.hi next.hi⟩
        (List.pairwise_cons.mpr ⟨currentRest, restSorted⟩) member
    · rcases List.mem_cons.mp member with rfl | later
      · exact le_rfl
      · exact currentFirst.trans
          (ih next (List.pairwise_cons.mpr ⟨nextRest, restSorted⟩) later)

/-- Coalescing a sorted list of nonempty spans leaves a gap between neighbours. -/
theorem coalesce_separated (current : Span) (rest : List Span)
    (valid : AllValid (current :: rest)) (sorted : SortedByLo (current :: rest)) :
    Separated (coalesce current rest) := by
  induction rest generalizing current with
  | nil => exact separated_cons.mpr ⟨(allValid_cons.mp valid).1, by simp, separated_nil⟩
  | cons next rest ih =>
    obtain ⟨currentValid, nextValid, restValid⟩ : current.Valid ∧ next.Valid ∧ AllValid rest := by
      simpa only [allValid_cons] using valid
    simp only [SortedByLo, List.pairwise_cons, List.mem_cons, forall_eq_or_imp] at sorted
    obtain ⟨⟨currentFirst, currentRest⟩, nextRest, restSorted⟩ := sorted
    have nextSorted : SortedByLo (next :: rest) := List.pairwise_cons.mpr ⟨nextRest, restSorted⟩
    rw [coalesce]
    split_ifs with touching
    · refine ih _ (allValid_cons.mpr ⟨?_, restValid⟩)
        (List.pairwise_cons.mpr ⟨currentRest, restSorted⟩)
      simp only [Span.Valid] at currentValid ⊢
      omega
    · refine separated_cons.mpr ⟨currentValid, fun later member => ?_,
        ih next (allValid_cons.mpr ⟨nextValid, restValid⟩) nextSorted⟩
      have := lo_le_of_mem_coalesce next rest nextSorted member
      omega

/-! ### Separated lists are canonical -/

theorem lo_le_of_mem_cover {span : Span} {spans : List Span} {point : ℕ}
    (separated : Separated (span :: spans)) (member : point ∈ cover (span :: spans)) :
    span.lo ≤ point := by
  obtain ⟨valid, first, -⟩ := separated_cons.mp separated
  obtain ⟨other, inList, lower, -⟩ := member
  rcases List.mem_cons.mp inList with rfl | later
  · exact lower
  · have gap := first other later
    simp only [Span.Valid] at valid
    omega

/-- The point after the first span is not covered. -/
theorem succ_hi_not_mem_cover {span : Span} {spans : List Span}
    (separated : Separated (span :: spans)) : span.hi + 1 ∉ cover (span :: spans) := by
  obtain ⟨-, first, -⟩ := separated_cons.mp separated
  rintro ⟨other, inList, lower, upper⟩
  rcases List.mem_cons.mp inList with rfl | later
  · omega
  · have gap := first other later
    omega

/-- The tail covers what the list covers behind the first span. -/
theorem mem_cover_tail {span : Span} {spans : List Span} {point : ℕ}
    (separated : Separated (span :: spans)) :
    point ∈ cover spans ↔ point ∈ cover (span :: spans) ∧ span.hi < point := by
  obtain ⟨-, first, -⟩ := separated_cons.mp separated
  rw [cover_cons, Set.mem_union]
  constructor
  · rintro ⟨other, later, lower, upper⟩
    have gap := first other later
    exact ⟨Or.inr ⟨other, later, lower, upper⟩, by omega⟩
  · rintro ⟨⟨-, upper⟩ | inTail, behind⟩
    · omega
    · exact inTail

theorem lo_mem_cover {span : Span} (spans : List Span) (valid : span.Valid) :
    span.lo ∈ cover (span :: spans) := ⟨span, List.mem_cons_self, le_rfl, valid⟩

/-- A covered set has one separated list. -/
theorem separated_unique {left right : List Span} (leftSeparated : Separated left)
    (rightSeparated : Separated right) (same : cover left = cover right) : left = right := by
  induction left generalizing right with
  | nil =>
    cases right with
    | nil => rfl
    | cons second rights =>
      have member := lo_mem_cover rights (separated_cons.mp rightSeparated).1
      rw [← same] at member
      simp at member
  | cons first lefts ih =>
    obtain ⟨firstValid, -, leftsSeparated⟩ := separated_cons.mp leftSeparated
    cases right with
    | nil =>
      have member := lo_mem_cover lefts firstValid
      rw [same] at member
      simp at member
    | cons second rights =>
      obtain ⟨secondValid, -, rightsSeparated⟩ := separated_cons.mp rightSeparated
      have sameLo : first.lo = second.lo := le_antisymm
        (lo_le_of_mem_cover leftSeparated (same ▸ lo_mem_cover rights secondValid))
        (lo_le_of_mem_cover rightSeparated (same ▸ lo_mem_cover lefts firstValid))
      have leftEnd := succ_hi_not_mem_cover leftSeparated
      have rightEnd := succ_hi_not_mem_cover rightSeparated
      simp only [Span.Valid] at firstValid secondValid
      have sameHi : first.hi = second.hi := by
        rcases Nat.lt_trichotomy first.hi second.hi with shorter | equal | longer
        · rw [same] at leftEnd
          exact absurd ⟨second, List.mem_cons_self, by omega, by omega⟩ leftEnd
        · exact equal
        · rw [← same] at rightEnd
          exact absurd ⟨first, List.mem_cons_self, by omega, by omega⟩ rightEnd
      have sameTail : cover lefts = cover rights := by
        ext point
        rw [mem_cover_tail leftSeparated, mem_cover_tail rightSeparated, same, sameHi]
      rw [Span.ext sameLo sameHi, ih leftsSeparated rightsSeparated sameTail]

/-- The separated list of the points covered by any list of spans. -/
def mergeSpans (spans : List Span) : List Span :=
  match spans.insertionSort fun left right => left.lo ≤ right.lo with
  | [] => []
  | current :: rest => coalesce current rest

theorem mergeSpans_spec {spans : List Span} (valid : AllValid spans) :
    cover (mergeSpans spans) = cover spans ∧ Separated (mergeSpans spans) := by
  have permuted := List.perm_insertionSort (fun left right : Span => left.lo ≤ right.lo) spans
  have sorted : SortedByLo (spans.insertionSort fun left right => left.lo ≤ right.lo) :=
    List.pairwise_insertionSort (fun left right : Span => left.lo ≤ right.lo) spans
  have sortedValid : AllValid (spans.insertionSort fun left right => left.lo ≤ right.lo) :=
    fun span member => valid span (permuted.mem_iff.mp member)
  rw [← cover_perm permuted]
  unfold mergeSpans
  split
  · next empty =>
    rw [empty]
    exact ⟨rfl, separated_nil⟩
  · next current rest split =>
    rw [split] at sorted sortedValid ⊢
    exact ⟨cover_coalesce _ _ sortedValid sorted, coalesce_separated _ _ sortedValid sorted⟩

/-! ### Subtraction -/

/-- The piece of a base span between `start` and a carving span, when nonempty. -/
def pieceBefore (start : ℕ) (knife : Span) : List Span :=
  if start < knife.lo then [⟨start, knife.lo - 1⟩] else []

/-- The piece of a base span from `start` to its upper end, when nonempty. -/
def pieceAfter (base : Span) (start : ℕ) : List Span :=
  if start ≤ base.hi then [⟨start, base.hi⟩] else []

@[simp] theorem mem_pieceBefore {start : ℕ} {knife piece : Span} :
    piece ∈ pieceBefore start knife ↔ start < knife.lo ∧ piece = ⟨start, knife.lo - 1⟩ := by
  unfold pieceBefore
  split_ifs <;> simp_all

@[simp] theorem mem_pieceAfter {base piece : Span} {start : ℕ} :
    piece ∈ pieceAfter base start ↔ start ≤ base.hi ∧ piece = ⟨start, base.hi⟩ := by
  unfold pieceAfter
  split_ifs <;> simp_all

theorem cover_pieceBefore (start : ℕ) (knife : Span) :
    cover (pieceBefore start knife) = {point | start ≤ point ∧ point < knife.lo} := by
  ext point
  simp only [mem_cover, mem_pieceBefore, Set.mem_ofPred_eq]
  constructor
  · rintro ⟨piece, ⟨nonempty, rfl⟩, lower, upper⟩
    exact ⟨lower, by dsimp only at upper; omega⟩
  · rintro ⟨lower, upper⟩
    exact ⟨_, ⟨by omega, rfl⟩, lower, by dsimp only; omega⟩

theorem cover_pieceAfter (base : Span) (start : ℕ) :
    cover (pieceAfter base start) = {point | start ≤ point ∧ point ≤ base.hi} := by
  ext point
  simp only [mem_cover, mem_pieceAfter, Set.mem_ofPred_eq]
  constructor
  · rintro ⟨piece, ⟨nonempty, rfl⟩, within⟩
    exact within
  · rintro ⟨lower, upper⟩
    exact ⟨_, ⟨lower.trans upper, rfl⟩, lower, upper⟩

/-- The outcome of carving one base span: the pieces kept before the last
carving span met, the start of the remainder unless it was fully carved, and
the carving spans from the cursor on. -/
structure Carved where
  pieces : List Span
  remainder : Option ℕ
  cursor : List Span

/-- Carve one base span from `nextStart` on. A carving span that reaches past
the base span stays at the cursor, since the next base span may meet it too. -/
def carve (base : Span) (nextStart : ℕ) : List Span → Carved
  | [] => ⟨[], some nextStart, []⟩
  | knife :: rest =>
    if base.hi < knife.lo then ⟨[], some nextStart, knife :: rest⟩
    else if knife.hi < nextStart then carve base nextStart rest
    else if base.hi ≤ knife.hi then ⟨pieceBefore nextStart knife, none, knife :: rest⟩
    else
      let later := carve base (knife.hi + 1) rest
      ⟨pieceBefore nextStart knife ++ later.pieces, later.remainder, later.cursor⟩

/-- All pieces cut from one base span. -/
def Carved.kept (carved : Carved) (base : Span) : List Span :=
  carved.pieces ++ (carved.remainder.map (pieceAfter base)).getD []

/-- Subtract a coalesced list from another, moving one cursor over both. -/
def subtract : List Span → List Span → List Span
  | [], _ => []
  | base :: bases, knives =>
    let carved := carve base base.lo (knives.dropWhile fun knife => knife.hi < base.lo)
    carved.kept base ++ subtract bases carved.cursor

/-- With nothing to carve, every base span stays whole. -/
theorem subtract_nil (bases : List Span) (valid : AllValid bases) : subtract bases [] = bases := by
  induction bases with
  | nil => rfl
  | cons base bases ih =>
    obtain ⟨baseValid, restValid⟩ := allValid_cons.mp valid
    simp only [Span.Valid] at baseValid
    simp [subtract, carve, Carved.kept, pieceAfter, baseValid, ih restValid]

/-- The pieces kept from a base span cover exactly the points from `nextStart`
on that no carving span covers. -/
theorem cover_carve_kept (base : Span) (nextStart : ℕ) (knives : List Span)
    (separated : Separated knives) :
    cover ((carve base nextStart knives).kept base) =
      {point | nextStart ≤ point ∧ point ≤ base.hi} \ cover knives := by
  fun_induction carve base nextStart knives with
  | case1 nextStart =>
    simp [Carved.kept, cover_pieceAfter]
  | case2 nextStart knife rest beyond =>
    -- the first carving span starts after the base span, and so do all later ones
    obtain ⟨knifeValid, knifeFirst, -⟩ := separated_cons.mp separated
    simp only [Span.Valid] at knifeValid
    simp only [Carved.kept, List.nil_append, Option.map_some, Option.getD_some, cover_pieceAfter]
    ext point
    simp only [Set.mem_sdiff, Set.mem_ofPred_eq, mem_cover, not_exists, List.mem_cons]
    constructor
    · rintro ⟨lower, upper⟩
      refine ⟨⟨lower, upper⟩, ?_⟩
      rintro span ⟨rfl | later, reached, -⟩
      · omega
      · have := knifeFirst span later
        omega
    · exact fun kept => kept.1
  | case3 nextStart knife rest notBeyond behind ih =>
    rw [ih (separated_cons.mp separated).2.2]
    ext point
    simp only [cover_cons, Set.mem_sdiff, Set.mem_ofPred_eq, Set.mem_union, Span.mem_points, not_or]
    constructor
    · rintro ⟨within, outside⟩
      exact ⟨within, by omega, outside⟩
    · rintro ⟨within, -, outside⟩
      exact ⟨within, outside⟩
  | case4 nextStart knife rest notBeyond notBehind last =>
    -- the carving span reaches past the base span, so nothing after it is kept
    obtain ⟨-, knifeFirst, -⟩ := separated_cons.mp separated
    simp only [Carved.kept, Option.map_none, Option.getD_none, List.append_nil, cover_pieceBefore]
    ext point
    simp only [Set.mem_sdiff, Set.mem_ofPred_eq, mem_cover, not_exists, List.mem_cons]
    constructor
    · rintro ⟨lower, upper⟩
      refine ⟨by omega, ?_⟩
      rintro span ⟨rfl | later, reached, -⟩
      · omega
      · have := knifeFirst span later
        omega
    · rintro ⟨within, outside⟩
      have := outside knife
      simp only [true_or, true_and] at this
      omega
  | case5 nextStart knife rest notBeyond notBehind notLast later ih =>
    obtain ⟨knifeValid, knifeFirst, restSeparated⟩ := separated_cons.mp separated
    simp only [Span.Valid] at knifeValid
    have laterKept := ih restSeparated
    simp only [Carved.kept] at laterKept ⊢
    rw [List.append_assoc, cover_append, laterKept, cover_pieceBefore]
    ext point
    simp only [cover_cons, Set.mem_union, Set.mem_sdiff, Set.mem_ofPred_eq, Span.mem_points, not_or]
    have clear : point < knife.lo → point ∉ cover rest := by
      rintro before ⟨after, member, reached, -⟩
      have := knifeFirst after member
      omega
    constructor
    · rintro (⟨lower, upper⟩ | ⟨within, outside⟩)
      · exact ⟨by omega, by omega, clear upper⟩
      · exact ⟨by omega, by omega, outside⟩
    · rintro ⟨within, outside, restOutside⟩
      by_cases before : point < knife.lo
      · exact Or.inl ⟨within.1, before⟩
      · exact Or.inr ⟨by omega, restOutside⟩

/-- The cursor left behind is a tail of the carving list, and every span it
skips ends before the base span's upper end. -/
theorem carve_cursor (base : Span) (nextStart : ℕ) (knives : List Span)
    (start : nextStart ≤ base.hi + 1) :
    ∃ skipped, knives = skipped ++ (carve base nextStart knives).cursor ∧
      ∀ knife ∈ skipped, knife.hi ≤ base.hi := by
  fun_induction carve base nextStart knives with
  | case1 nextStart => exact ⟨[], rfl, by simp⟩
  | case2 nextStart knife rest beyond => exact ⟨[], rfl, by simp⟩
  | case3 nextStart knife rest notBeyond behind ih =>
    obtain ⟨skipped, split, before⟩ := ih start
    refine ⟨knife :: skipped, by rw [List.cons_append, ← split], ?_⟩
    rintro other (_ | ⟨_, member⟩)
    · omega
    · exact before other member
  | case4 nextStart knife rest notBeyond notBehind last => exact ⟨[], rfl, by simp⟩
  | case5 nextStart knife rest notBeyond notBehind notLast later ih =>
    obtain ⟨skipped, split, before⟩ := ih (by omega)
    refine ⟨knife :: skipped, by rw [List.cons_append, ← split], ?_⟩
    rintro other (_ | ⟨_, member⟩)
    · omega
    · exact before other member

/-- Every piece kept from a base span lies inside it, at or after `nextStart`. -/
theorem mem_carve_kept_bounds (base : Span) (nextStart : ℕ) (knives : List Span) {piece : Span}
    (member : piece ∈ (carve base nextStart knives).kept base)
    (separated : Separated knives) :
    nextStart ≤ piece.lo ∧ piece.lo ≤ piece.hi ∧ piece.hi ≤ base.hi := by
  fun_induction carve base nextStart knives with
  | case1 nextStart =>
    simp only [Carved.kept, List.nil_append, Option.map_some, Option.getD_some,
      mem_pieceAfter] at member
    obtain ⟨nonempty, rfl⟩ := member
    exact ⟨le_rfl, nonempty, le_rfl⟩
  | case2 nextStart knife rest beyond =>
    simp only [Carved.kept, List.nil_append, Option.map_some, Option.getD_some,
      mem_pieceAfter] at member
    obtain ⟨nonempty, rfl⟩ := member
    exact ⟨le_rfl, nonempty, le_rfl⟩
  | case3 nextStart knife rest notBeyond behind ih =>
    exact ih member (separated_cons.mp separated).2.2
  | case4 nextStart knife rest notBeyond notBehind last =>
    simp only [Carved.kept, Option.map_none, Option.getD_none, List.append_nil,
      mem_pieceBefore] at member
    obtain ⟨nonempty, rfl⟩ := member
    dsimp only
    omega
  | case5 nextStart knife rest notBeyond notBehind notLast later ih =>
    obtain ⟨knifeValid, -, restSeparated⟩ := separated_cons.mp separated
    simp only [Span.Valid] at knifeValid
    simp only [Carved.kept, List.append_assoc, List.mem_append] at member
    rcases member with before | after
    · obtain ⟨nonempty, rfl⟩ := mem_pieceBefore.mp before
      dsimp only
      omega
    · have := ih (by simpa only [Carved.kept, List.mem_append] using after) restSeparated
      omega

/-- The pieces kept from a base span are separated by what was carved. -/
theorem carve_kept_separated (base : Span) (nextStart : ℕ) (knives : List Span)
    (separated : Separated knives) :
    Separated ((carve base nextStart knives).kept base) := by
  have pieceAfterSeparated : ∀ start, Separated (pieceAfter base start) := by
    intro start
    unfold pieceAfter
    split_ifs with nonempty
    · exact separated_cons.mpr ⟨nonempty, by simp, separated_nil⟩
    · exact separated_nil
  have pieceBeforeSeparated : ∀ start knife, Separated (pieceBefore start knife) := by
    intro start knife
    unfold pieceBefore
    split_ifs with nonempty
    · exact separated_cons.mpr ⟨by simp only [Span.Valid]; omega, by simp, separated_nil⟩
    · exact separated_nil
  fun_induction carve base nextStart knives with
  | case1 nextStart => exact pieceAfterSeparated nextStart
  | case2 nextStart knife rest beyond => exact pieceAfterSeparated nextStart
  | case3 nextStart knife rest notBeyond behind ih => exact ih (separated_cons.mp separated).2.2
  | case4 nextStart knife rest notBeyond notBehind last =>
    simpa [Carved.kept] using pieceBeforeSeparated nextStart knife
  | case5 nextStart knife rest notBeyond notBehind notLast later ih =>
    obtain ⟨knifeValid, -, restSeparated⟩ := separated_cons.mp separated
    simp only [Span.Valid] at knifeValid
    have laterSeparated := ih restSeparated
    simp only [Carved.kept, List.append_assoc] at laterSeparated ⊢
    refine separated_append.mpr ⟨pieceBeforeSeparated nextStart knife, laterSeparated, ?_⟩
    intro before beforeMember after afterMember
    obtain ⟨nonempty, rfl⟩ := mem_pieceBefore.mp beforeMember
    have := (mem_carve_kept_bounds base (knife.hi + 1) rest afterMember restSeparated).1
    dsimp only
    omega

/-- Dropping the carving spans that end before a point changes nothing at or
after that point. -/
theorem mem_cover_dropWhile (knives : List Span) {start point : ℕ} (reached : start ≤ point) :
    point ∈ cover (knives.dropWhile fun knife => knife.hi < start) ↔ point ∈ cover knives := by
  induction knives with
  | nil => rfl
  | cons knife rest ih =>
    rw [List.dropWhile_cons]
    split_ifs with behind
    · rw [ih, cover_cons, Set.mem_union]
      simp only [decide_eq_true_eq] at behind
      have : point ∉ knife.points := by
        simp only [Span.mem_points]
        omega
      tauto
    · rfl

theorem Separated.suffix {skipped rest : List Span} (separated : Separated (skipped ++ rest)) :
    Separated rest :=
  ⟨fun span member => separated.1 span (List.mem_append_right _ member),
    (List.pairwise_append.mp separated.2).2.1⟩

theorem Separated.dropWhile {spans : List Span} (separated : Separated spans) (p : Span → Bool) :
    Separated (spans.dropWhile p) := by
  rw [← @List.takeWhile_append_dropWhile _ p spans] at separated
  exact separated.suffix

theorem carve_cursor_separated (base : Span) (nextStart : ℕ) {knives : List Span}
    (start : nextStart ≤ base.hi + 1) (separated : Separated knives) :
    Separated (carve base nextStart knives).cursor := by
  obtain ⟨skipped, split, -⟩ := carve_cursor base nextStart knives start
  rw [split] at separated
  exact separated.suffix

/-- Subtraction covers exactly the points of the first list outside the second,
although the cursor is shared by all base spans. -/
theorem cover_subtract (bases knives : List Span) (basesSeparated : Separated bases)
    (knivesSeparated : Separated knives) :
    cover (subtract bases knives) = cover bases \ cover knives := by
  induction bases generalizing knives with
  | nil => simp [subtract]
  | cons base bases ih =>
    obtain ⟨baseValid, baseFirst, restSeparated⟩ := separated_cons.mp basesSeparated
    have reachedSeparated := knivesSeparated.dropWhile fun knife => knife.hi < base.lo
    have start : base.lo ≤ base.hi + 1 := le_trans baseValid (Nat.le_succ _)
    rw [subtract, cover_append, cover_carve_kept _ _ _ reachedSeparated,
      ih _ restSeparated (carve_cursor_separated _ _ start reachedSeparated)]
    obtain ⟨skipped, split, before⟩ :=
      carve_cursor base base.lo (knives.dropWhile fun knife => knife.hi < base.lo) start
    ext point
    simp only [cover_cons, Set.mem_union, Set.mem_sdiff, Set.mem_ofPred_eq, Span.mem_points]
    have inBase : base.lo ≤ point ∧ point ≤ base.hi →
        (point ∈ cover (knives.dropWhile fun knife => knife.hi < base.lo) ↔
          point ∈ cover knives) :=
      fun within => mem_cover_dropWhile knives within.1
    have inRest : point ∈ cover bases →
        (point ∈ cover (carve base base.lo
            (knives.dropWhile fun knife => knife.hi < base.lo)).cursor ↔
          point ∈ cover knives) := by
      rintro ⟨later, member, reached, -⟩
      have gap := baseFirst later member
      have behind : base.lo ≤ point := by
        simp only [Span.Valid] at baseValid
        omega
      rw [← mem_cover_dropWhile knives behind]
      conv_rhs => rw [split, cover_append]
      have : point ∉ cover skipped := by
        rintro ⟨knife, skip, -, upper⟩
        have := before knife skip
        omega
      simp only [Set.mem_union, this, false_or]
    tauto

/-- Subtraction leaves separated spans: a missing point lies between neighbours. -/
theorem subtract_separated (bases knives : List Span) (basesSeparated : Separated bases)
    (knivesSeparated : Separated knives) : Separated (subtract bases knives) := by
  induction bases generalizing knives with
  | nil => exact separated_nil
  | cons base bases ih =>
    obtain ⟨baseValid, baseFirst, restSeparated⟩ := separated_cons.mp basesSeparated
    have reachedSeparated := knivesSeparated.dropWhile fun knife => knife.hi < base.lo
    have start : base.lo ≤ base.hi + 1 := le_trans baseValid (Nat.le_succ _)
    have cursorSeparated := carve_cursor_separated base base.lo start reachedSeparated
    rw [subtract]
    refine separated_append.mpr
      ⟨carve_kept_separated _ _ _ reachedSeparated, ih _ restSeparated cursorSeparated, ?_⟩
    intro piece member other otherMember
    have upper := (mem_carve_kept_bounds _ _ _ member reachedSeparated).2.2
    -- the lower end of a later piece is a point of a later base span
    have covered : other.lo ∈ cover bases := by
      have valid := (ih _ restSeparated cursorSeparated).1 other otherMember
      have within : other.lo ∈ cover (subtract bases (carve base base.lo
          (knives.dropWhile fun knife => knife.hi < base.lo)).cursor) :=
        ⟨other, otherMember, le_rfl, valid⟩
      rw [cover_subtract _ _ restSeparated cursorSeparated] at within
      exact within.1
    obtain ⟨later, laterMember, reached, -⟩ := covered
    have := baseFirst later laterMember
    omega

end Foundation
