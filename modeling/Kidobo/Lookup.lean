import Mathlib
import Kidobo.Foundation.SortedList
import Kidobo.Network.Notation
import Kidobo.Network.Overlap

/-!
# Lookup of targets against source entries

The intervals of the source entries are sorted by start; a second list holds
the running maximum of their ends. Two partition points cut the candidates of a
target, and a filter on the ends removes the rest. An index carries the proof
that its entries are sorted and that the second list is their running maximum.

## Main definitions

* `IntervalIndex`, `IntervalIndex.overlappingSourceIndices`
* `prepareTargets`, `targetMatches`, `tryRunLookupByTarget`

## Main results

* `IntervalIndex.overlappingSourceIndices_eq`: the two cuts lose no candidate
* `tryRunLookupByTarget_naive`: the batches are those of the naive search
-/

namespace Kidobo

open Foundation

variable {width : ℕ}

/-! ### Source entries and targets -/

/-- One canonical network retained with its operator-visible source context. -/
structure LookupSourceEntry where
  sourceLabel : List Char
  sourceLine : List Char
  cidr : CanonicalCidr

/-- `compare_source_entries` compares label, line and network in this order. -/
def LookupSourceEntry.orderKey (entry : LookupSourceEntry) :
    List Char ×ₗ (List Char ×ₗ CanonicalCidr) :=
  toLex (entry.sourceLabel, toLex (entry.sourceLine, entry.cidr))

theorem LookupSourceEntry.orderKey_injective : Function.Injective LookupSourceEntry.orderKey := by
  intro left right same
  simp only [orderKey, EmbeddingLike.apply_eq_iff_eq, Prod.mk.injEq] at same
  cases left
  cases right
  simp_all

instance : LinearOrder LookupSourceEntry :=
  LinearOrder.lift' LookupSourceEntry.orderKey LookupSourceEntry.orderKey_injective

/-- Reason a strict lookup target could not be parsed. -/
inductive LookupTargetParseError where
  | empty
  | invalid

/-- `parse_target_strict`. -/
def parseTargetStrict (input : List Char) : Except LookupTargetParseError CanonicalCidr :=
  let normalized := trim input
  if normalized.isEmpty then .error .empty
  else
    match parseIpCidrStrict normalized with
    | some cidr => .ok cidr
    | none => .error .invalid

/-- A raw target with the network it was parsed to. -/
structure PreparedTarget where
  raw : List Char
  parsed : CanonicalCidr
  parses : parseTargetStrict raw = .ok parsed

namespace PreparedTarget

theorem raw_injective : Function.Injective raw := by
  intro left right same
  have sameParsed : parseTargetStrict left.raw = .ok right.parsed := by
    rw [same, right.parses]
  rw [left.parses, Except.ok.injEq] at sameParsed
  cases left
  cases right
  simp_all

/-- Targets are sorted and compared by their raw text. -/
instance : LinearOrder PreparedTarget := LinearOrder.lift' raw raw_injective

/-- The prepared form of a valid target. -/
def ofRaw (target : List Char) : Option PreparedTarget :=
  match parses : parseTargetStrict target with
  | .ok parsed => some ⟨target, parsed, parses⟩
  | .error _ => none

theorem ofRaw_eq_some_iff {target : List Char} {prepared : PreparedTarget} :
    ofRaw target = some prepared ↔ prepared.raw = target := by
  constructor
  · intro found
    unfold ofRaw at found
    split at found
    · rw [← Option.some.inj found]
    · exact absurd found (by simp)
  · intro sameRaw
    subst sameRaw
    unfold ofRaw
    split
    · next parsed parses => exact congrArg some (raw_injective rfl)
    · next problem fails => exact absurd (prepared.parses.symm.trans fails) (by simp)

theorem ofRaw_eq_none_iff {target : List Char} :
    ofRaw target = none ↔ ∀ cidr, parseTargetStrict target ≠ .ok cidr := by
  constructor
  · intro missing cidr parses
    rw [ofRaw_eq_some_iff.mpr (show (⟨target, cidr, parses⟩ : PreparedTarget).raw = target from rfl)]
      at missing
    exact absurd missing (by simp)
  · intro never
    unfold ofRaw
    split
    · next parsed parses => exact absurd parses (never parsed)
    · rfl

end PreparedTarget

/-- `prepare_targets`: the valid targets and the invalid ones, both sorted and
without repetition. -/
def prepareTargets (targets : List (List Char)) : List PreparedTarget × List (List Char) :=
  let prepared := targets.filterMap PreparedTarget.ofRaw
  let invalidTargets := targets.filter fun target => (PreparedTarget.ofRaw target).isNone
  (dedupAdjacent (sortUnstable prepared), dedupAdjacent (sortUnstable invalidTargets))

/-! ### The interval index -/

/-- An interval and the position of its source entry. -/
structure IndexedSource (width : ℕ) where
  interval : Interval width
  sourceIdx : ℕ

/-- The running maximum of the ends. -/
def prefixMaxEndFrom (runningMax : BitVec width) : List (IndexedSource width) → List (BitVec width)
  | [] => []
  | entry :: rest =>
    maxWord runningMax entry.interval.last ::
      prefixMaxEndFrom (maxWord runningMax entry.interval.last) rest

/-- `IntervalIndexV4` and `IntervalIndexV6`. -/
structure IntervalIndex (width : ℕ) where
  entries : List (IndexedSource width)
  prefixMaxEnd : List (BitVec width)
  sorted : entries.Pairwise fun left right => left.interval ≤ right.interval
  runningMaximum : prefixMaxEnd = prefixMaxEndFrom (BitVec.ofNat width 0) entries

/-- Sort by start and end. The order of equal intervals is left open by the
source; here it is stable. -/
def sortByInterval (entries : List (IndexedSource width)) : List (IndexedSource width) :=
  entries.insertionSort fun left right => left.interval ≤ right.interval

theorem sortByInterval_perm (entries : List (IndexedSource width)) :
    (sortByInterval entries).Perm entries :=
  List.perm_insertionSort _ _

theorem sortByInterval_sorted (entries : List (IndexedSource width)) :
    (sortByInterval entries).Pairwise fun left right => left.interval ≤ right.interval := by
  have total : Std.Total fun left right : IndexedSource width => left.interval ≤ right.interval :=
    ⟨fun left right => le_total left.interval right.interval⟩
  have transitive :
      IsTrans (IndexedSource width) fun left right => left.interval ≤ right.interval :=
    ⟨fun _ _ _ before after => le_trans before after⟩
  exact List.pairwise_insertionSort _ _

namespace IntervalIndex

/-- The index of numbered intervals. -/
def ofEntries (numbered : List (IndexedSource width)) : IntervalIndex width where
  entries := sortByInterval numbered
  prefixMaxEnd := prefixMaxEndFrom (BitVec.ofNat width 0) (sortByInterval numbered)
  sorted := sortByInterval_sorted numbered
  runningMaximum := rfl

/-- `overlapping_source_indices`. -/
def overlappingSourceIndices (index : IntervalIndex width) (target : Interval width) : List ℕ :=
  let upper := partitionPoint (fun entry => decide (entry.interval.start ≤ target.last))
    index.entries
  let lower := partitionPoint (fun maxEnd => decide (maxEnd < target.start)) index.prefixMaxEnd
  let start := min lower upper
  let candidates := (index.entries.take upper).drop start
  (candidates.filter fun entry => decide (target.start ≤ entry.interval.last)).map
    IndexedSource.sourceIdx

end IntervalIndex

/-- The index of the sources with an interval in one family. -/
def IntervalIndex.fromSources (familyInterval : CanonicalCidr → Option (Interval width))
    (sources : List LookupSourceEntry) : IntervalIndex width :=
  .ofEntries <| sources.zipIdx.filterMap fun (source, sourceIdx) =>
    (familyInterval source.cidr).map fun interval => ⟨interval, sourceIdx⟩

/-- The interval of an IPv4 network. -/
def ipv4Interval : CanonicalCidr → Option (Interval 32)
  | .v4 cidr => some (toInterval cidr)
  | .v6 _ => none

/-- The interval of an IPv6 network. -/
def ipv6Interval : CanonicalCidr → Option (Interval 128)
  | .v4 _ => none
  | .v6 cidr => some (toInterval cidr)

/-- `IntervalIndexV4::from_sources`. -/
def ipv4Index : List LookupSourceEntry → IntervalIndex 32 := IntervalIndex.fromSources ipv4Interval

/-- `IntervalIndexV6::from_sources`. -/
def ipv6Index : List LookupSourceEntry → IntervalIndex 128 :=
  IntervalIndex.fromSources ipv6Interval

/-- `target_matches`. -/
def targetMatches (target : PreparedTarget) (sources : List LookupSourceEntry)
    (v4Index : IntervalIndex 32) (v6Index : IntervalIndex 128) : List LookupSourceEntry :=
  let indices :=
    match target.parsed with
    | .v4 cidr => v4Index.overlappingSourceIndices (toInterval cidr)
    | .v6 cidr => v6Index.overlappingSourceIndices (toInterval cidr)
  dedupAdjacent (sortUnstable (indices.filterMap (sources[·]?)))

/-- The batches of the prepared targets, each handed to the callback. -/
def emitBatches {σ ε : Type} (sources : List LookupSourceEntry) (v4Index : IntervalIndex 32)
    (v6Index : IntervalIndex 128)
    (emit : List Char → List LookupSourceEntry → σ → Except ε σ) :
    List PreparedTarget → σ → Except ε σ
  | [], state => .ok state
  | target :: rest, state => do
    let state ← emit target.raw (targetMatches target sources v4Index v6Index) state
    emitBatches sources v4Index v6Index emit rest state

/-- `try_run_lookup_by_target`: the state of the callback after the run and the
invalid targets. -/
def tryRunLookupByTarget {σ ε : Type} (targets : List (List Char))
    (sources : List LookupSourceEntry)
    (emit : List Char → List LookupSourceEntry → σ → Except ε σ) (state : σ) :
    Except ε (σ × List (List Char)) := do
  let prepared := prepareTargets targets
  let state ← emitBatches sources (ipv4Index sources) (ipv6Index sources) emit prepared.1 state
  return (state, prepared.2)

/-! ### The two cuts -/

theorem word_lt_of_le_of_lt {first second third : BitVec width} (before : first ≤ second)
    (after : second < third) : first < third :=
  BitVec.lt_def.mpr (Nat.lt_of_le_of_lt (BitVec.le_def.mp before) (BitVec.lt_def.mp after))

theorem le_maxWord_left (left right : BitVec width) : left ≤ maxWord left right := by
  unfold maxWord
  split_ifs with ordered
  · exact ordered
  · exact BitVec.le_refl _

theorem le_maxWord_right (left right : BitVec width) : right ≤ maxWord left right := by
  unfold maxWord
  split_ifs with ordered
  · exact BitVec.le_refl _
  · exact BitVec.le_of_lt (BitVec.not_le.mp ordered)

/-- The running maximum never falls. -/
theorem prefixMaxEndFrom_sorted (runningMax : BitVec width) (entries : List (IndexedSource width)) :
    (∀ maxEnd ∈ prefixMaxEndFrom runningMax entries, runningMax ≤ maxEnd) ∧
      (prefixMaxEndFrom runningMax entries).Pairwise (· ≤ ·) := by
  induction entries generalizing runningMax with
  | nil => simp [prefixMaxEndFrom]
  | cons entry rest ih =>
    obtain ⟨restAbove, restSorted⟩ := ih (maxWord runningMax entry.interval.last)
    have grows := le_maxWord_left runningMax entry.interval.last
    refine ⟨?_, List.pairwise_cons.mpr ⟨restAbove, restSorted⟩⟩
    intro maxEnd member
    rcases List.mem_cons.mp member with rfl | inRest
    · exact grows
    · exact BitVec.le_trans grows (restAbove maxEnd inRest)

/-- Entries before the first large running maximum end early themselves. -/
theorem last_lt_of_mem_take (start : BitVec width) (runningMax : BitVec width)
    (entries : List (IndexedSource width)) {entry : IndexedSource width}
    (member : entry ∈ entries.take (partitionPoint (fun maxEnd => decide (maxEnd < start))
      (prefixMaxEndFrom runningMax entries))) :
    entry.interval.last < start := by
  induction entries generalizing runningMax with
  | nil => simp at member
  | cons first rest ih =>
    rw [prefixMaxEndFrom] at member
    by_cases early : maxWord runningMax first.interval.last < start
    · rw [partitionPoint_cons, if_pos (decide_eq_true early), List.take_succ_cons] at member
      rcases List.mem_cons.mp member with rfl | inRest
      · exact word_lt_of_le_of_lt (le_maxWord_right _ _) early
      · exact ih _ inRest
    · rw [partitionPoint_cons, if_neg (by simpa using early), List.take_zero] at member
      exact absurd member List.not_mem_nil

namespace IntervalIndex

/-- Both binary searches run on partitioned lists. -/
theorem partitioned (index : IntervalIndex width) (target : Interval width) :
    Partitioned (fun entry => decide (entry.interval.start ≤ target.last)) index.entries ∧
      Partitioned (fun maxEnd => decide (maxEnd < target.start)) index.prefixMaxEnd := by
  constructor
  · apply partitioned_of_pairwise index.sorted
    intro left right ordered passes
    have starts := Interval.start_le_of_le ordered
    have rightStarts := BitVec.le_def.mp (of_decide_eq_true passes)
    exact decide_eq_true (BitVec.le_def.mpr (le_trans starts rightStarts))
  · rw [index.runningMaximum]
    apply partitioned_of_pairwise (prefixMaxEndFrom_sorted _ _).2
    intro left right ordered passes
    exact decide_eq_true (word_lt_of_le_of_lt ordered (of_decide_eq_true passes))

/-- The two cuts and the filter keep exactly the entries that meet the target. -/
theorem overlappingSourceIndices_eq (index : IntervalIndex width) (target : Interval width) :
    index.overlappingSourceIndices target =
      (index.entries.filter fun entry => intervalsOverlap entry.interval target).map
        IndexedSource.sourceIdx := by
  obtain ⟨byStart, -⟩ := index.partitioned target
  unfold overlappingSourceIndices
  dsimp only
  have cutBefore := take_partitionPoint byStart
  have early : ∀ entry ∈ index.entries.take
      (partitionPoint (fun maxEnd => decide (maxEnd < target.start)) index.prefixMaxEnd),
      entry.interval.last < target.start := by
    rw [index.runningMaximum]
    intro entry member
    exact last_lt_of_mem_take _ _ _ member
  generalize partitionPoint (fun entry => decide (entry.interval.start ≤ target.last))
    index.entries = upper at cutBefore ⊢
  generalize partitionPoint (fun maxEnd => decide (maxEnd < target.start))
    index.prefixMaxEnd = lower at early ⊢
  congr 1
  -- The candidates cut off in front all end before the target starts.
  have noneInFront : ((index.entries.take upper).take (min lower upper)).filter
      (fun entry => decide (target.start ≤ entry.interval.last)) = [] := by
    apply List.filter_eq_nil_iff.mpr
    intro entry member reaches
    rw [List.take_take, Nat.min_eq_left (Nat.min_le_right _ _)] at member
    have inFront : entry ∈ index.entries.take lower :=
      List.take_subset_take_left _ (Nat.min_le_left _ _) member
    exact absurd (early entry inFront) (BitVec.not_lt.mpr (of_decide_eq_true reaches))
  have wholeFilter : ((index.entries.take upper).drop (min lower upper)).filter
      (fun entry => decide (target.start ≤ entry.interval.last)) =
      (index.entries.take upper).filter
        fun entry => decide (target.start ≤ entry.interval.last) := by
    conv_rhs => rw [← List.take_append_drop (min lower upper) (index.entries.take upper),
      List.filter_append, noneInFront, List.nil_append]
  rw [wholeFilter, cutBefore, List.filter_filter]
  apply List.filter_congr
  intro entry _
  rw [intervalsOverlap, Bool.not_or, ← decide_not, ← decide_not]
  simp only [BitVec.not_lt]

end IntervalIndex

/-! ### The naive search -/

/-- The sources found through an index are those of its family that meet the
target, whichever way the index was sorted. -/
theorem mem_filterMap_fromSources {familyInterval : CanonicalCidr → Option (Interval width)}
    {sources : List LookupSourceEntry} {target : Interval width} {source : LookupSourceEntry} :
    source ∈ ((IntervalIndex.fromSources familyInterval sources).overlappingSourceIndices
        target).filterMap (sources[·]?) ↔
      source ∈ sources ∧
        ∃ interval ∈ familyInterval source.cidr, intervalsOverlap interval target = true := by
  have mem_entries : ∀ entry, entry ∈ (IntervalIndex.fromSources familyInterval sources).entries ↔
      ∃ found, sources[entry.sourceIdx]? = some found ∧
        familyInterval found.cidr = some entry.interval := by
    intro entry
    simp only [IntervalIndex.fromSources, IntervalIndex.ofEntries,
      (sortByInterval_perm _).mem_iff, List.mem_filterMap, Prod.exists,
      List.mk_mem_zipIdx_iff_getElem?, Option.map_eq_some_iff]
    constructor
    · intro ⟨found, position, atPosition, interval, selected, indexed⟩
      subst indexed
      exact ⟨found, atPosition, selected⟩
    · intro ⟨found, atPosition, selected⟩
      exact ⟨found, entry.sourceIdx, atPosition, entry.interval, selected, rfl⟩
  rw [IntervalIndex.overlappingSourceIndices_eq]
  simp only [List.mem_filterMap, List.mem_map, List.mem_filter, mem_entries]
  constructor
  · intro ⟨_, ⟨entry, ⟨⟨found, atPosition, selected⟩, overlaps⟩, samePosition⟩, again⟩
    rw [samePosition] at atPosition
    obtain rfl := Option.some.inj (atPosition.symm.trans again)
    exact ⟨List.mem_of_getElem? again, entry.interval, selected, overlaps⟩
  · intro ⟨member, interval, selected, overlaps⟩
    obtain ⟨position, atPosition⟩ := List.mem_iff_getElem?.mp member
    exact ⟨position, ⟨⟨interval, position⟩, ⟨⟨source, atPosition, selected⟩, overlaps⟩, rfl⟩,
      atPosition⟩

/-- The matches of a target are the sources that overlap it. -/
theorem mem_targetMatches {target : PreparedTarget} {sources : List LookupSourceEntry}
    {source : LookupSourceEntry} :
    source ∈ targetMatches target sources (ipv4Index sources) (ipv6Index sources) ↔
      source ∈ sources ∧ cidrOverlaps source.cidr target.parsed = true := by
  unfold targetMatches
  rw [mem_dedupAdjacent, mem_sortUnstable]
  cases target.parsed with
  | v4 targetCidr =>
    rw [ipv4Index, mem_filterMap_fromSources]
    cases source.cidr <;> simp [ipv4Interval, cidrOverlaps]
  | v6 targetCidr =>
    rw [ipv6Index, mem_filterMap_fromSources]
    cases source.cidr <;> simp [ipv6Interval, cidrOverlaps]

/-- The matches of a target in ascending order, each once. -/
theorem targetMatches_strict (target : PreparedTarget) (sources : List LookupSourceEntry)
    (v4Index : IntervalIndex 32) (v6Index : IntervalIndex 128) :
    (targetMatches target sources v4Index v6Index).Pairwise (· < ·) :=
  dedupAdjacent_sortUnstable_strict _

/-- Sources with the same members give the same matches. -/
theorem targetMatches_congr (target : PreparedTarget) {sources others : List LookupSourceEntry}
    (sameMembers : ∀ source, source ∈ others ↔ source ∈ sources) :
    targetMatches target others (ipv4Index others) (ipv6Index others) =
      targetMatches target sources (ipv4Index sources) (ipv6Index sources) := by
  apply List.Pairwise.eq_of_mem_iff (targetMatches_strict _ _ _ _) (targetMatches_strict _ _ _ _)
  intro source
  rw [mem_targetMatches, mem_targetMatches, sameMembers]

theorem emitBatches_congr {σ ε : Type} {sources others : List LookupSourceEntry}
    (sameMembers : ∀ source, source ∈ others ↔ source ∈ sources)
    (emit : List Char → List LookupSourceEntry → σ → Except ε σ)
    (prepared : List PreparedTarget) (state : σ) :
    emitBatches others (ipv4Index others) (ipv6Index others) emit prepared state =
      emitBatches sources (ipv4Index sources) (ipv6Index sources) emit prepared state := by
  induction prepared generalizing state with
  | nil => rfl
  | cons target rest ih =>
    rw [emitBatches, emitBatches, targetMatches_congr target sameMembers]
    exact bind_congr fun next => ih next

/-- A callback that never fails sees one batch for each prepared target. -/
theorem emitBatches_of_total {σ ε : Type} (sources : List LookupSourceEntry)
    (v4Index : IntervalIndex 32) (v6Index : IntervalIndex 128)
    (record : List Char → List LookupSourceEntry → σ → σ) (prepared : List PreparedTarget)
    (state : σ) :
    emitBatches sources v4Index v6Index
        (fun raw found state => (.ok (record raw found state) : Except ε σ)) prepared state =
      .ok (prepared.foldl (fun state target =>
        record target.raw (targetMatches target sources v4Index v6Index) state) state) := by
  induction prepared generalizing state with
  | nil => rfl
  | cons target rest ih => exact ih _

/-- The prepared targets and the invalid ones depend only on which targets were
given. -/
theorem prepareTargets_congr {targets others : List (List Char)}
    (sameMembers : ∀ target, target ∈ others ↔ target ∈ targets) :
    prepareTargets others = prepareTargets targets := by
  unfold prepareTargets
  dsimp only
  congr 1
  · apply dedupAdjacent_sortUnstable_congr
    intro target
    simp only [List.mem_filterMap, sameMembers]
  · apply dedupAdjacent_sortUnstable_congr
    intro target
    simp only [List.mem_filter, sameMembers]

/-- A callback that never fails is handed one batch for each distinct valid
target, in ascending order of the raw texts; a batch is the strictly ascending
list of the sources that overlap the target by `cidrOverlaps`, and the returned
list is the strictly ascending list of the targets that do not parse. Order and
repetition of targets and sources do not matter, whatever the callback does. -/
theorem tryRunLookupByTarget_naive (targets : List (List Char))
    (sources : List LookupSourceEntry) :
    (∃ (batches : List (List Char × List LookupSourceEntry)) (invalidTargets : List (List Char)),
      (∀ {σ ε : Type} (record : List Char → List LookupSourceEntry → σ → σ) (state : σ),
        tryRunLookupByTarget targets sources
            (fun raw found state => (.ok (record raw found state) : Except ε σ)) state =
          .ok (batches.foldl (fun state batch => record batch.1 batch.2 state) state,
            invalidTargets)) ∧
      (batches.map Prod.fst).Pairwise (· < ·) ∧
      (∀ raw, raw ∈ batches.map Prod.fst ↔
        raw ∈ targets ∧ ∃ cidr, parseTargetStrict raw = .ok cidr) ∧
      (∀ batch ∈ batches, ∃ cidr, parseTargetStrict batch.1 = .ok cidr ∧
        batch.2.Pairwise (· < ·) ∧
        ∀ source, source ∈ batch.2 ↔ source ∈ sources ∧ cidrOverlaps source.cidr cidr = true) ∧
      invalidTargets.Pairwise (· < ·) ∧
      ∀ raw, raw ∈ invalidTargets ↔
        raw ∈ targets ∧ ∀ cidr, parseTargetStrict raw ≠ .ok cidr) ∧
    ∀ (otherTargets : List (List Char)) (otherSources : List LookupSourceEntry),
      (∀ raw, raw ∈ otherTargets ↔ raw ∈ targets) →
      (∀ source, source ∈ otherSources ↔ source ∈ sources) →
      ∀ {σ ε : Type} (emit : List Char → List LookupSourceEntry → σ → Except ε σ) (state : σ),
        tryRunLookupByTarget otherTargets otherSources emit state =
          tryRunLookupByTarget targets sources emit state := by
  constructor
  · refine ⟨(prepareTargets targets).1.map fun target =>
      (target.raw, targetMatches target sources (ipv4Index sources) (ipv6Index sources)),
      (prepareTargets targets).2, ?_, ?_, ?_, ?_, ?_, ?_⟩
    · intro σ ε record state
      unfold tryRunLookupByTarget
      dsimp only
      rw [emitBatches_of_total, List.foldl_map]
      rfl
    · rw [List.map_map]
      exact List.pairwise_map.mpr (dedupAdjacent_sortUnstable_strict _)
    · intro raw
      simp only [prepareTargets, List.map_map, List.mem_map, mem_dedupAdjacent, mem_sortUnstable,
        List.mem_filterMap, Function.comp_apply]
      constructor
      · rintro ⟨target, ⟨given, member, prepared⟩, rfl⟩
        obtain rfl := PreparedTarget.ofRaw_eq_some_iff.mp prepared
        exact ⟨member, target.parsed, target.parses⟩
      · rintro ⟨member, cidr, parses⟩
        exact ⟨⟨raw, cidr, parses⟩, ⟨raw, member, PreparedTarget.ofRaw_eq_some_iff.mpr rfl⟩, rfl⟩
    · intro batch member
      obtain ⟨target, _, rfl⟩ := List.mem_map.mp member
      exact ⟨target.parsed, target.parses, targetMatches_strict _ _ _ _,
        fun source => mem_targetMatches⟩
    · exact dedupAdjacent_sortUnstable_strict _
    · intro raw
      simp only [prepareTargets, mem_dedupAdjacent, mem_sortUnstable, List.mem_filter,
        Option.isNone_iff_eq_none, PreparedTarget.ofRaw_eq_none_iff]
  -- sorting and deduplication forget order and repetition of both lists
  · intro otherTargets otherSources sameTargets sameSources σ ε emit state
    unfold tryRunLookupByTarget
    dsimp only
    rw [prepareTargets_congr sameTargets, emitBatches_congr sameSources]

end Kidobo
