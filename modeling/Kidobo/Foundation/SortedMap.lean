import Mathlib
import Kidobo.Foundation.Traverse

/-!
# Ordered maps as strictly ascending association lists

A map holds its entries in strictly ascending key order, so equal maps have
equal entry lists and iteration order is the order of the keys.

## Main definitions

* `SortedMap`, `lookup`, `retain`, `remove`, `insert`

## Main results

* `lookup_eq_some_iff`, `mem_entries_insert`: maps by their entries
* `eq_of_mem_iff`, `eq_of_lookup`: maps with the same members or values are the same
* `filterMap_lookup_filter_keys`: looking up the keys that pass a test
* `foldlM_insert_eq_ok_iff`: a loop that inserts records of distinct keys
-/

namespace Foundation

/-- A finite map iterated in key order. -/
structure SortedMap (κ ν : Type) [LinearOrder κ] where
  entries : List (κ × ν)
  ascending : (entries.map Prod.fst).Pairwise (· < ·)

namespace SortedMap

variable {κ ν : Type} [LinearOrder κ]

@[ext] theorem ext {left right : SortedMap κ ν} (entries : left.entries = right.entries) :
    left = right := by
  cases left
  cases right
  simp_all

instance [DecidableEq ν] : DecidableEq (SortedMap κ ν) := fun left right =>
  decidable_of_iff (left.entries = right.entries) ⟨ext, fun same => same ▸ rfl⟩

/-- The map without entries. -/
def empty : SortedMap κ ν := ⟨[], List.Pairwise.nil⟩

/-- The keys in ascending order. -/
def keys (map : SortedMap κ ν) : List κ := map.entries.map Prod.fst

/-- The value of a key. -/
def lookup (map : SortedMap κ ν) (key : κ) : Option ν :=
  (map.entries.find? fun entry => entry.1 = key).map Prod.snd

/-- Keep the entries that satisfy a test. -/
def retain (map : SortedMap κ ν) (keep : κ → ν → Bool) : SortedMap κ ν where
  entries := map.entries.filter fun entry => keep entry.1 entry.2
  ascending := map.ascending.sublist (List.filter_sublist.map Prod.fst)

/-- Drop the entry of a key. -/
def remove (map : SortedMap κ ν) (key : κ) : SortedMap κ ν := map.retain fun other _ => other ≠ key

/-- Put an entry in its place of an ascending list, replacing one of the same key. -/
def insertEntry (key : κ) (value : ν) : List (κ × ν) → List (κ × ν)
  | [] => [(key, value)]
  | entry :: rest =>
    if key < entry.1 then (key, value) :: entry :: rest
    else if key = entry.1 then (key, value) :: rest
    else entry :: insertEntry key value rest

theorem mem_keys_insertEntry {key other : κ} {value : ν} {entries : List (κ × ν)} :
    other ∈ (insertEntry key value entries).map Prod.fst ↔
      other = key ∨ other ∈ entries.map Prod.fst := by
  fun_induction insertEntry key value entries with
  | case1 => simp
  | case2 entry rest before => simp
  | case3 entry rest _ same => simp [same]
  | case4 entry rest _ _ ih =>
    rw [List.map_cons, List.mem_cons, ih, List.map_cons, List.mem_cons]
    exact or_left_comm

theorem insertEntry_ascending {key : κ} {value : ν} {entries : List (κ × ν)}
    (ascending : (entries.map Prod.fst).Pairwise (· < ·)) :
    ((insertEntry key value entries).map Prod.fst).Pairwise (· < ·) := by
  fun_induction insertEntry key value entries with
  | case1 => exact List.pairwise_singleton _ _
  | case2 entry rest before =>
    refine List.pairwise_cons.mpr ⟨fun other member => ?_, ascending⟩
    rcases List.mem_cons.mp member with rfl | later
    · exact before
    · exact before.trans ((List.pairwise_cons.mp ascending).1 other later)
  | case3 entry rest _ same =>
    obtain ⟨first, restAscending⟩ := List.pairwise_cons.mp ascending
    exact List.pairwise_cons.mpr ⟨fun other member => same ▸ first other member, restAscending⟩
  | case4 entry rest notBefore different ih =>
    obtain ⟨first, restAscending⟩ := List.pairwise_cons.mp ascending
    refine List.pairwise_cons.mpr ⟨fun other member => ?_, ih restAscending⟩
    rcases mem_keys_insertEntry.mp member with rfl | later
    · exact lt_of_le_of_ne (not_lt.mp notBefore) (Ne.symm different)
    · exact first other later

/-- Set the value of a key. -/
def insert (map : SortedMap κ ν) (key : κ) (value : ν) : SortedMap κ ν where
  entries := insertEntry key value map.entries
  ascending := insertEntry_ascending map.ascending

theorem mem_keys_insert {map : SortedMap κ ν} {key other : κ} {value : ν} :
    other ∈ (map.insert key value).keys ↔ other = key ∨ other ∈ map.keys :=
  mem_keys_insertEntry

/-! ### Entries -/

theorem nodup_keys (map : SortedMap κ ν) : map.keys.Nodup :=
  map.ascending.imp fun less => less.ne

theorem entries_ascending (map : SortedMap κ ν) :
    map.entries.Pairwise fun first second => first.1 < second.1 :=
  List.pairwise_map.mp map.ascending

/-- Entries of one key are the same entry. -/
theorem eq_of_key_eq {map : SortedMap κ ν} {first second : κ × ν} (firstIn : first ∈ map.entries)
    (secondIn : second ∈ map.entries) (sameKey : first.1 = second.1) : first = second :=
  List.inj_on_of_nodup_map map.nodup_keys firstIn secondIn sameKey

theorem lookup_eq_some_iff {map : SortedMap κ ν} {key : κ} {value : ν} :
    map.lookup key = some value ↔ (key, value) ∈ map.entries := by
  unfold lookup
  constructor
  · intro found
    obtain ⟨entry, first, rfl⟩ := Option.map_eq_some_iff.mp found
    have sameKey : entry.1 = key := by simpa using List.find?_some first
    rw [← sameKey]
    exact List.mem_of_find?_eq_some first
  · intro member
    cases found : map.entries.find? fun entry => decide (entry.1 = key) with
    | none => simpa using List.find?_eq_none.mp found _ member
    | some entry =>
      have sameKey : entry.1 = key := by simpa using List.find?_some found
      rw [eq_of_key_eq (List.mem_of_find?_eq_some found) member sameKey]
      rfl

theorem isSome_lookup_iff {map : SortedMap κ ν} {key : κ} :
    (map.lookup key).isSome = true ↔ key ∈ map.keys := by
  rw [Option.isSome_iff_exists]
  constructor
  · rintro ⟨value, found⟩
    exact List.mem_map.mpr ⟨(key, value), lookup_eq_some_iff.mp found, rfl⟩
  · intro member
    obtain ⟨entry, inMap, rfl⟩ := List.mem_map.mp member
    exact ⟨entry.2, lookup_eq_some_iff.mpr inMap⟩

theorem mem_entries_insertEntry {key : κ} {value : ν} {entries : List (κ × ν)}
    (ascending : (entries.map Prod.fst).Pairwise (· < ·)) {entry : κ × ν} :
    entry ∈ insertEntry key value entries ↔
      entry = (key, value) ∨ entry.1 ≠ key ∧ entry ∈ entries := by
  fun_induction insertEntry key value entries with
  | case1 => simp
  | case2 first rest before =>
    have absent : entry ∈ first :: rest → entry.1 ≠ key := by
      intro member
      have atLeast : first.1 ≤ entry.1 := by
        rcases List.mem_cons.mp member with rfl | later
        · exact le_refl _
        · exact ((List.pairwise_cons.mp ascending).1 _ (List.mem_map_of_mem later)).le
      exact (before.trans_le atLeast).ne'
    rw [List.mem_cons]
    exact or_congr_right ⟨fun member => ⟨absent member, member⟩, And.right⟩
  | case3 first rest _ same =>
    subst same
    have absent : entry ∈ rest → entry.1 ≠ first.1 := by
      intro later
      exact ((List.pairwise_cons.mp ascending).1 _ (List.mem_map_of_mem later)).ne'
    rw [List.mem_cons, List.mem_cons]
    constructor
    · rintro (isNew | later)
      · exact Or.inl isNew
      · exact Or.inr ⟨absent later, Or.inr later⟩
    · rintro (isNew | ⟨different, rfl | later⟩)
      · exact Or.inl isNew
      · exact absurd rfl different
      · exact Or.inr later
  | case4 first rest _ different ih =>
    rw [List.mem_cons, ih (List.pairwise_cons.mp ascending).2, List.mem_cons]
    constructor
    · rintro (rfl | isNew | ⟨other, later⟩)
      · exact Or.inr ⟨Ne.symm different, Or.inl rfl⟩
      · exact Or.inl isNew
      · exact Or.inr ⟨other, Or.inr later⟩
    · rintro (isNew | ⟨other, rfl | later⟩)
      · exact Or.inr (Or.inl isNew)
      · exact Or.inl rfl
      · exact Or.inr (Or.inr ⟨other, later⟩)

theorem mem_entries_insert {map : SortedMap κ ν} {key : κ} {value : ν} {entry : κ × ν} :
    entry ∈ (map.insert key value).entries ↔
      entry = (key, value) ∨ entry.1 ≠ key ∧ entry ∈ map.entries :=
  mem_entries_insertEntry map.ascending

/-- Maps with the same members are the same. -/
theorem eq_of_mem_iff {left right : SortedMap κ ν}
    (sameMembers : ∀ entry, entry ∈ left.entries ↔ entry ∈ right.entries) : left = right := by
  have nodups : ∀ map : SortedMap κ ν, map.entries.Nodup :=
    fun map => map.nodup_keys.of_map
  have perm : left.entries.Perm right.entries :=
    (List.perm_ext_iff_of_nodup (nodups left) (nodups right)).mpr sameMembers
  apply ext
  apply perm.eq_of_pairwise _ left.entries_ascending right.entries_ascending
  intro first second _ _ less greater
  exact absurd less greater.not_gt

theorem lookup_insert {map : SortedMap κ ν} {key other : κ} {value : ν} :
    (map.insert key value).lookup other = if other = key then some value else map.lookup other := by
  ext found
  rw [lookup_eq_some_iff, mem_entries_insert, Prod.mk.injEq]
  by_cases same : other = key
  · rw [if_pos same, Option.some.injEq]
    simp [same, eq_comm]
  · rw [if_neg same, lookup_eq_some_iff]
    simp [same]

/-- Inserting entries of distinct keys into a map adds these entries. -/
theorem mem_entries_foldl_insert {records : List (κ × ν)} {map : SortedMap κ ν}
    (distinct : (records.map Prod.fst).Nodup) {entry : κ × ν} :
    entry ∈ (records.foldl (fun map record => map.insert record.1 record.2) map).entries ↔
      entry ∈ records ∨ entry.1 ∉ records.map Prod.fst ∧ entry ∈ map.entries := by
  induction records generalizing map with
  | nil => simp
  | cons record rest ih =>
    obtain ⟨fresh, restDistinct⟩ := List.nodup_cons.mp distinct
    rw [List.foldl_cons, ih restDistinct, mem_entries_insert, List.mem_cons, List.map_cons,
      List.mem_cons, not_or]
    constructor
    · rintro (later | ⟨notLater, rfl | ⟨different, member⟩⟩)
      · exact Or.inl (Or.inr later)
      · exact Or.inl (Or.inl rfl)
      · exact Or.inr ⟨⟨different, notLater⟩, member⟩
    · rintro ((rfl | later) | ⟨⟨different, notLater⟩, member⟩)
      · exact Or.inr ⟨fresh, Or.inl rfl⟩
      · exact Or.inl later
      · exact Or.inr ⟨notLater, Or.inr ⟨different, member⟩⟩

/-- Inserting the entries of a map in turn rebuilds it. -/
theorem foldl_insert_entries (map : SortedMap κ ν) :
    map.entries.foldl (fun built entry => built.insert entry.1 entry.2) empty = map := by
  apply eq_of_mem_iff
  intro entry
  rw [mem_entries_foldl_insert map.nodup_keys]
  simp [empty]

/-- A loop that reads records and refuses a key it has seen succeeds exactly when every
record is read and the keys are new and distinct; then it has inserted them all. -/
theorem foldlM_insert_eq_ok_iff {ρ ε : Type} {read : ρ → Option (κ × ν)}
    {step : SortedMap κ ν → ρ → Except ε (SortedMap κ ν)}
    (stepSpec : ∀ map record next, step map record = .ok next ↔
      ∃ entry, read record = some entry ∧ entry.1 ∉ map.keys ∧ next = map.insert entry.1 entry.2)
    {records : List ρ} {map result : SortedMap κ ν} :
    records.foldlM step map = .ok result ↔
      ∃ entries, records.mapM read = some entries ∧ (entries.map Prod.fst).Nodup ∧
        (∀ key ∈ entries.map Prod.fst, key ∉ map.keys) ∧
        result = entries.foldl (fun built entry => built.insert entry.1 entry.2) map := by
  simp only [mapM_eq_some_iff]
  induction records generalizing map with
  | nil =>
    rw [List.foldlM_nil]
    constructor
    · intro same
      exact ⟨[], .nil, List.nodup_nil, by simp, (Except.ok.inj same).symm⟩
    · rintro ⟨entries, noEntries, _, _, rfl⟩
      obtain rfl := List.forall₂_nil_left_iff.mp noEntries
      rfl
  | cons record rest ih =>
    rw [List.foldlM_cons]
    simp only [bind_eq_ok_iff, stepSpec, ih, List.forall₂_cons_left_iff]
    constructor
    · rintro ⟨_, ⟨entry, entryRead, fresh, rfl⟩, entries, read, distinct, absent, rfl⟩
      refine ⟨entry :: entries, ⟨entry, entries, entryRead, read, rfl⟩, ?_, ?_, rfl⟩
      · refine List.nodup_cons.mpr ⟨fun again => ?_, distinct⟩
        exact absent _ again (mem_keys_insert.mpr (Or.inl rfl))
      · rw [List.map_cons, List.forall_mem_cons]
        exact ⟨fresh, fun key inRest known => absent key inRest (mem_keys_insert.mpr (Or.inr known))⟩
    · rintro ⟨_, ⟨entry, entries, entryRead, read, rfl⟩, distinct, absent, rfl⟩
      rw [List.map_cons, List.nodup_cons] at distinct
      rw [List.map_cons, List.forall_mem_cons] at absent
      refine ⟨_, ⟨entry, entryRead, absent.1, rfl⟩, entries, read, distinct.2, ?_, rfl⟩
      intro key inRest known
      rcases mem_keys_insert.mp known with rfl | before
      · exact distinct.1 inRest
      · exact absent.2 key inRest before

@[simp] theorem mem_entries_retain {map : SortedMap κ ν} {keep : κ → ν → Bool} {entry : κ × ν} :
    entry ∈ (map.retain keep).entries ↔ entry ∈ map.entries ∧ keep entry.1 entry.2 = true :=
  List.mem_filter

theorem mem_keys_remove {map : SortedMap κ ν} {key other : κ} :
    other ∈ (map.remove key).keys ↔ other ∈ map.keys ∧ other ≠ key := by
  simp only [keys, List.mem_map, remove, mem_entries_retain, decide_eq_true_eq]
  constructor
  · rintro ⟨entry, ⟨member, different⟩, rfl⟩
    exact ⟨⟨entry, member, rfl⟩, different⟩
  · rintro ⟨⟨entry, member, rfl⟩, different⟩
    exact ⟨entry, ⟨member, different⟩, rfl⟩

/-- Looking up the keys that pass a test gives their entries. -/
theorem filterMap_lookup_filter_keys (map : SortedMap κ ν) (test : κ → Bool) :
    ((map.keys.filter test).filterMap fun key => (map.lookup key).map fun value => (key, value)) =
      map.entries.filter fun entry => test entry.1 := by
  have found : ∀ entry ∈ map.entries.filter (test ∘ Prod.fst),
      (map.lookup entry.1).map (fun value => (entry.1, value)) = some entry := by
    intro entry member
    rw [lookup_eq_some_iff.mpr (List.mem_of_mem_filter member)]
    rfl
  rw [keys, List.filter_map, List.filterMap_map]
  calc (map.entries.filter (test ∘ Prod.fst)).filterMap
        ((fun key => (map.lookup key).map fun value => (key, value)) ∘ Prod.fst)
      = (map.entries.filter (test ∘ Prod.fst)).filterMap some := List.filterMap_congr found
    _ = map.entries.filter fun entry => test entry.1 := List.filterMap_some

end SortedMap

end Foundation
