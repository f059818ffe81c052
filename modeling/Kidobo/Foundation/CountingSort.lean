import Mathlib

/-!
# One stable counting-sort pass

A pass counts the items of each bucket, turns the counts into start offsets and
places every item at the next free offset of its bucket. Every array access is
bounds-checked: a failing access fails the pass.

The result is the concatenation of the buckets, each in source order, so a pass
is a stable permutation and passes over less significant keys survive a pass
over a more significant one.

## Main results

* `countingPass_eq`: on keys below the number of buckets a pass never fails and
  returns the concatenated buckets
* `buckets_perm`, `pairwise_buckets`
-/

namespace Foundation

variable {α : Type*}

/-- Count the items of each bucket. -/
def tally (key : α → ℕ) : List α → List ℕ → Option (List ℕ)
  | [], counts => some counts
  | item :: items, counts =>
    counts[key item]?.bind fun count => tally key items (counts.set (key item) (count + 1))

/-- Replace each count by the sum of the counts before it. -/
def offsets (running : ℕ) : List ℕ → List ℕ
  | [] => []
  | count :: counts => running :: offsets (running + count) counts

/-- Put each item at the next free offset of its bucket. -/
def place (key : α → ℕ) : List α → List ℕ → List α → Option (List α)
  | [], _, slots => some slots
  | item :: items, counts, slots =>
    counts[key item]?.bind fun slot =>
      slots[slot]?.bind fun _ =>
        place key items (counts.set (key item) (slot + 1)) (slots.set slot item)

/-- One pass over `bucketCount` buckets. -/
def countingPass (key : α → ℕ) (bucketCount : ℕ) (items slots : List α) : Option (List α) :=
  (tally key items (List.replicate bucketCount 0)).bind fun counts =>
    place key items (offsets 0 counts) slots

/-- The items of the first `bucketCount` buckets, bucket by bucket. -/
def buckets (key : α → ℕ) (bucketCount : ℕ) (items : List α) : List α :=
  (List.range bucketCount).flatMap fun bucket => items.filter fun item => key item = bucket

/-- The number of items in buckets before `bucket`. -/
def baseOf (key : α → ℕ) (items : List α) (bucket : ℕ) : ℕ :=
  items.countP fun item => key item < bucket

/-- The number of items in `bucket`. -/
def sizeOfBucket (key : α → ℕ) (items : List α) (bucket : ℕ) : ℕ :=
  items.countP fun item => key item = bucket

theorem baseOf_zero (key : α → ℕ) (items : List α) : baseOf key items 0 = 0 := by
  simp [baseOf]

theorem baseOf_succ (key : α → ℕ) (items : List α) (bucket : ℕ) :
    baseOf key items (bucket + 1) = baseOf key items bucket + sizeOfBucket key items bucket := by
  induction items with
  | nil => rfl
  | cons item items ih =>
    simp only [baseOf, sizeOfBucket, List.countP_cons, decide_eq_true_eq] at ih ⊢
    split_ifs <;> omega

theorem baseOf_mono (key : α → ℕ) (items : List α) {first second : ℕ} (ordered : first ≤ second) :
    baseOf key items first ≤ baseOf key items second := by
  induction second, ordered using Nat.le_induction with
  | base => exact le_rfl
  | succ second _ ih => exact ih.trans (by rw [baseOf_succ]; exact Nat.le_add_right _ _)

/-- Offsets of different buckets never meet. -/
theorem offset_ne (key : α → ℕ) (items : List α) {first second i j : ℕ} (different : first ≠ second)
    (iSmall : i < sizeOfBucket key items first) (jSmall : j < sizeOfBucket key items second) :
    baseOf key items first + i ≠ baseOf key items second + j := by
  have firstNext := baseOf_succ key items first
  have secondNext := baseOf_succ key items second
  rcases Nat.lt_or_gt_of_ne different with before | after
  · have := baseOf_mono key items (show first + 1 ≤ second from before)
    omega
  · have := baseOf_mono key items (show second + 1 ≤ first from after)
    omega

/-! ### Counting -/

/-- Counting adds each bucket's size to its count. -/
theorem tally_eq (key : α → ℕ) (items : List α) (counts : List ℕ)
    (inRange : ∀ item ∈ items, key item < counts.length) :
    ∃ total, tally key items counts = some total ∧ total.length = counts.length ∧
      ∀ bucket, total[bucket]? = counts[bucket]?.map (· + sizeOfBucket key items bucket) := by
  induction items generalizing counts with
  | nil =>
    refine ⟨counts, rfl, rfl, fun bucket => ?_⟩
    simp [sizeOfBucket]
  | cons item items ih =>
    have itemInRange := inRange item List.mem_cons_self
    obtain ⟨total, counted, sameLength, entries⟩ :=
      ih (counts.set (key item) (counts[key item] + 1)) (by
        simpa using fun other member => inRange other (List.mem_cons_of_mem _ member))
    refine ⟨total, ?_, by simpa using sameLength, fun bucket => ?_⟩
    · rw [tally, List.getElem?_eq_getElem itemInRange]
      exact counted
    · rw [entries, List.getElem?_set]
      by_cases same : key item = bucket
      · subst same
        simp only [if_true, itemInRange, List.getElem?_eq_getElem, Option.map_some, sizeOfBucket,
          List.countP_cons, decide_true]
        congr 1
        omega
      · simp [sizeOfBucket, same]

theorem length_offsets (running : ℕ) (counts : List ℕ) :
    (offsets running counts).length = counts.length := by
  induction counts generalizing running with
  | nil => rfl
  | cons count counts ih => simp [offsets, ih]

/-- Each offset is the sum of the counts before it. -/
theorem getElem?_offsets (running : ℕ) (counts : List ℕ) {bucket : ℕ}
    (inRange : bucket < counts.length) :
    (offsets running counts)[bucket]? = some (running + (counts.take bucket).sum) := by
  induction counts generalizing running bucket with
  | nil => simp at inRange
  | cons count counts ih =>
    cases bucket with
    | zero => simp [offsets]
    | succ bucket =>
      simp only [offsets, List.getElem?_cons_succ, List.take_succ_cons, List.sum_cons]
      rw [ih _ (by simpa using inRange), Nat.add_assoc]

/-- The offsets of the counts are the bases of the buckets. -/
theorem sum_take_counts (key : α → ℕ) (items : List α) {counts : List ℕ}
    (entries : ∀ bucket < counts.length, counts[bucket]? = some (sizeOfBucket key items bucket))
    {bucket : ℕ} (inRange : bucket ≤ counts.length) :
    (counts.take bucket).sum = baseOf key items bucket := by
  induction bucket with
  | zero => simp [baseOf_zero]
  | succ bucket ih =>
    have here : bucket < counts.length := inRange
    have entry : counts[bucket] = sizeOfBucket key items bucket := by
      have := entries bucket here
      rwa [List.getElem?_eq_getElem here, Option.some_inj] at this
    rw [List.take_succ_eq_append_getElem here, List.sum_append, ih (by omega), List.sum_singleton,
      entry, baseOf_succ]

/-! ### Placing -/

/-- The state of placing after the items of `placed`: each bucket's next offset
follows its placed items, which stand in order from the bucket's base on. -/
structure Placed (key : α → ℕ) (items placed : List α) (counts : List ℕ) (slots : List α) :
    Prop where
  inRange : ∀ item ∈ items, key item < counts.length
  next : ∀ bucket < counts.length,
    counts[bucket]? = some (baseOf key items bucket + sizeOfBucket key placed bucket)
  slotCount : slots.length = items.length
  filled : ∀ bucket < counts.length, ∀ i < sizeOfBucket key placed bucket,
    slots[baseOf key items bucket + i]? = (placed.filter fun item => key item = bucket)[i]?

private theorem sizeOfBucket_append (key : α → ℕ) (left right : List α) (bucket : ℕ) :
    sizeOfBucket key (left ++ right) bucket =
      sizeOfBucket key left bucket + sizeOfBucket key right bucket := by
  simp [sizeOfBucket]

private theorem sizeOfBucket_singleton (key : α → ℕ) (item : α) (bucket : ℕ) :
    sizeOfBucket key [item] bucket = if key item = bucket then 1 else 0 := by
  simp [sizeOfBucket, List.countP_cons]

private theorem length_filter_bucket (key : α → ℕ) (items : List α) (bucket : ℕ) :
    (items.filter fun item => key item = bucket).length = sizeOfBucket key items bucket := by
  rw [sizeOfBucket, List.countP_eq_length_filter]

private theorem offset_lt_length (key : α → ℕ) (items : List α) {bucket i : ℕ}
    (small : i < sizeOfBucket key items bucket) : baseOf key items bucket + i < items.length := by
  have next := baseOf_succ key items bucket
  have bounded : baseOf key items (bucket + 1) ≤ items.length := List.countP_le_length
  omega

/-- Placing one more item keeps the placing state. -/
theorem Placed.step {key : α → ℕ} {items placed rest : List α} {item : α} {counts : List ℕ}
    {slots : List α} (state : Placed key items placed counts slots)
    (split : items = placed ++ item :: rest) :
    ∃ slot, counts[key item]? = some slot ∧ slot < slots.length ∧
      Placed key items (placed ++ [item]) (counts.set (key item) (slot + 1))
        (slots.set slot item) := by
  have itemMember : item ∈ items := by simp [split]
  have itemInRange := state.inRange item itemMember
  have size (bucket : ℕ) : sizeOfBucket key items bucket =
      sizeOfBucket key placed bucket + (if key item = bucket then 1 else 0) +
        sizeOfBucket key rest bucket := by
    rw [split, sizeOfBucket_append, ← List.singleton_append, sizeOfBucket_append,
      sizeOfBucket_singleton, Nat.add_assoc]
  have ownSize := size (key item)
  rw [if_pos rfl] at ownSize
  have slotSmall := offset_lt_length key items
    (show sizeOfBucket key placed (key item) < sizeOfBucket key items (key item) by omega)
  refine ⟨_, state.next _ itemInRange, state.slotCount ▸ slotSmall, ?_, ?_, ?_, ?_⟩
  · simpa using state.inRange
  · intro bucket bucketSmall
    rw [List.length_set] at bucketSmall
    rw [List.getElem?_set, sizeOfBucket_append, sizeOfBucket_singleton]
    by_cases same : key item = bucket
    · subst same
      simp [itemInRange, Nat.add_assoc]
    · simp [same, state.next bucket bucketSmall]
  · simpa using state.slotCount
  · intro bucket bucketSmall i small
    rw [List.length_set] at bucketSmall
    rw [sizeOfBucket_append, sizeOfBucket_singleton] at small
    rw [List.filter_append, List.getElem?_set]
    by_cases same : key item = bucket
    · subst same
      rw [if_pos rfl] at small
      by_cases last : i = sizeOfBucket key placed (key item)
      · subst last
        rw [if_pos rfl, if_pos (state.slotCount ▸ slotSmall),
          List.getElem?_append_right (by rw [length_filter_bucket])]
        simp [length_filter_bucket]
      · have earlier : i < sizeOfBucket key placed (key item) := by omega
        rw [if_neg (by omega), state.filled _ bucketSmall i earlier,
          List.getElem?_append_left (by rwa [length_filter_bucket])]
    · rw [if_neg same, Nat.add_zero] at small
      have other := size bucket
      rw [if_neg same] at other
      rw [if_neg (offset_ne key items same (by omega) (by omega)),
        state.filled bucket bucketSmall i small,
        List.getElem?_append_left (by rwa [length_filter_bucket])]

/-- Placing every item fills each bucket's range with its items in order. -/
theorem place_eq {key : α → ℕ} {items placed rest : List α} {counts : List ℕ} {slots : List α}
    (state : Placed key items placed counts slots) (split : items = placed ++ rest) :
    ∃ result, place key rest counts slots = some result ∧ result.length = items.length ∧
      ∀ bucket < counts.length, ∀ i < sizeOfBucket key items bucket,
        result[baseOf key items bucket + i]? = (items.filter fun item => key item = bucket)[i]? := by
  induction rest generalizing placed counts slots with
  | nil =>
    rw [List.append_nil] at split
    subst split
    exact ⟨slots, rfl, state.slotCount, state.filled⟩
  | cons item rest ih =>
    obtain ⟨slot, next, small, after⟩ := state.step split
    obtain ⟨result, placedAll, length, filled⟩ := ih after (by simp [split])
    refine ⟨result, ?_, length, by simpa using filled⟩
    rw [place, next]
    simpa [List.getElem?_eq_getElem small] using placedAll

/-! ### The concatenated buckets -/

theorem buckets_succ (key : α → ℕ) (bucketCount : ℕ) (items : List α) :
    buckets key (bucketCount + 1) items =
      buckets key bucketCount items ++ items.filter fun item => key item = bucketCount := by
  simp [buckets, List.range_succ]

theorem length_buckets (key : α → ℕ) (bucketCount : ℕ) (items : List α) :
    (buckets key bucketCount items).length = baseOf key items bucketCount := by
  induction bucketCount with
  | zero => simp [buckets, baseOf_zero]
  | succ bucketCount ih =>
    rw [buckets_succ, List.length_append, ih, length_filter_bucket, baseOf_succ]

private theorem filter_lt_succ_perm (key : α → ℕ) (bucket : ℕ) (items : List α) :
    ((items.filter fun item => key item < bucket) ++ items.filter fun item => key item = bucket).Perm
      (items.filter fun item => key item < bucket + 1) := by
  induction items with
  | nil => simp
  | cons item items ih =>
    rw [List.filter_cons, List.filter_cons, List.filter_cons]
    simp only [decide_eq_true_eq]
    rcases Nat.lt_trichotomy (key item) bucket with before | same | after
    · rw [if_pos before, if_neg before.ne, if_pos (Nat.lt_succ_of_lt before), List.cons_append]
      exact ih.cons item
    · rw [if_neg same.not_lt, if_pos same, if_pos (Nat.lt_succ_of_le same.le)]
      exact List.perm_middle.trans (ih.cons item)
    · rw [if_neg after.not_gt, if_neg after.ne', if_neg (Nat.not_lt.mpr (Nat.succ_le_of_lt after))]
      exact ih

/-- The concatenated buckets hold exactly the items whose key is in range. -/
theorem buckets_perm_filter (key : α → ℕ) (bucketCount : ℕ) (items : List α) :
    (buckets key bucketCount items).Perm (items.filter fun item => key item < bucketCount) := by
  induction bucketCount with
  | zero => simp [buckets]
  | succ bucketCount ih =>
    rw [buckets_succ]
    exact (ih.append_right _).trans (filter_lt_succ_perm key bucketCount items)

theorem buckets_perm (key : α → ℕ) (bucketCount : ℕ) (items : List α)
    (inRange : ∀ item ∈ items, key item < bucketCount) :
    (buckets key bucketCount items).Perm items := by
  have := buckets_perm_filter key bucketCount items
  rwa [List.filter_eq_self.mpr (by simpa using inRange)] at this

/-- An order that refines the key order and already holds between the items of
each bucket holds throughout the concatenated buckets. -/
theorem pairwise_buckets (key : α → ℕ) (bucketCount : ℕ) (items : List α) (order : α → α → Prop)
    (byKey : ∀ a ∈ items, ∀ b ∈ items, key a < key b → order a b)
    (within : items.Pairwise fun a b => key a = key b → order a b) :
    (buckets key bucketCount items).Pairwise order := by
  refine List.pairwise_flatMap.mpr ⟨fun bucket _ => ?_, ?_⟩
  · refine List.pairwise_filter.mpr (within.imp fun holds aIn bIn => holds ?_)
    simp only [decide_eq_true_eq] at aIn bIn
    exact aIn.trans bIn.symm
  · refine List.pairwise_lt_range.imp fun {first second} before a aMember b bMember => ?_
    simp only [List.mem_filter, decide_eq_true_eq] at aMember bMember
    exact byKey a aMember.1 b bMember.1 (by omega)

/-- An entry of the concatenated buckets belongs to one bucket. -/
theorem exists_offset (key : α → ℕ) (items : List α) {bucketCount index : ℕ}
    (small : index < baseOf key items bucketCount) :
    ∃ bucket < bucketCount, ∃ i < sizeOfBucket key items bucket,
      index = baseOf key items bucket + i := by
  induction bucketCount with
  | zero => simp [baseOf_zero] at small
  | succ bucketCount ih =>
    by_cases earlier : index < baseOf key items bucketCount
    · obtain ⟨bucket, inRange, i, iSmall, rfl⟩ := ih earlier
      exact ⟨bucket, by omega, i, iSmall, rfl⟩
    · rw [baseOf_succ] at small
      exact ⟨bucketCount, by omega, index - baseOf key items bucketCount, by omega, by omega⟩

theorem getElem?_buckets (key : α → ℕ) (items : List α) {bucketCount bucket i : ℕ}
    (inRange : bucket < bucketCount) (small : i < sizeOfBucket key items bucket) :
    (buckets key bucketCount items)[baseOf key items bucket + i]? =
      (items.filter fun item => key item = bucket)[i]? := by
  induction bucketCount with
  | zero => omega
  | succ bucketCount ih =>
    rw [buckets_succ]
    by_cases earlier : bucket < bucketCount
    · have before := baseOf_mono key items (show bucket + 1 ≤ bucketCount from earlier)
      have next := baseOf_succ key items bucket
      rw [List.getElem?_append_left (by rw [length_buckets]; omega), ih earlier]
    · obtain rfl : bucket = bucketCount := by omega
      rw [List.getElem?_append_right (by rw [length_buckets]; omega), length_buckets,
        Nat.add_sub_cancel_left]

/-- A pass over keys below the number of buckets succeeds with the concatenated
buckets, whatever the destination held. -/
theorem countingPass_eq (key : α → ℕ) (bucketCount : ℕ) (items slots : List α)
    (inRange : ∀ item ∈ items, key item < bucketCount) (sameLength : slots.length = items.length) :
    countingPass key bucketCount items slots = some (buckets key bucketCount items) := by
  obtain ⟨total, counted, totalLength, entries⟩ :=
    tally_eq key items (List.replicate bucketCount 0) (by simpa using inRange)
  rw [List.length_replicate] at totalLength
  have sizes : ∀ bucket < total.length,
      total[bucket]? = some (sizeOfBucket key items bucket) := by
    intro bucket small
    rw [entries, List.getElem?_replicate, if_pos (totalLength ▸ small)]
    simp
  have start : Placed key items [] (offsets 0 total) slots := by
    refine ⟨by simpa [length_offsets, totalLength] using inRange, fun bucket small => ?_,
      sameLength, fun bucket _ i none => by simp [sizeOfBucket] at none⟩
    rw [length_offsets] at small
    rw [getElem?_offsets _ _ small, sum_take_counts key items sizes small.le]
    simp [sizeOfBucket]
  obtain ⟨result, placedAll, length, filled⟩ := place_eq start rfl
  rw [length_offsets, totalLength] at filled
  have allInRange : baseOf key items bucketCount = items.length := by
    rw [baseOf, List.countP_eq_length]
    simpa using inRange
  rw [countingPass, counted]
  refine placedAll.trans (congrArg some (List.ext_getElem? fun index => ?_))
  by_cases small : index < items.length
  · obtain ⟨bucket, bucketSmall, i, iSmall, rfl⟩ :=
      exists_offset key items (show index < baseOf key items bucketCount by omega)
    rw [filled bucket bucketSmall i iSmall, getElem?_buckets key items bucketSmall iSmall]
  · rw [List.getElem?_eq_none (by omega),
      List.getElem?_eq_none (by rw [length_buckets]; omega)]

end Foundation
