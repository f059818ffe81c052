import Mathlib

/-!
# Removal by index

Positions of a list that satisfy a test, and the list without the elements at
given positions. Positions computed on one view of a list remove the right
elements from another view exactly when the two tests agree position by
position.

## Main results

* `mem_indexesWhere`, `filterMap_getElem?_indexesWhere`
* `removeIndexes_eq_filter`
-/

namespace Foundation

variable {α : Type*}

/-- The positions of the elements that satisfy a test, counted from `start`. -/
def indexesFrom (test : α → Bool) (start : ℕ) (items : List α) : List ℕ :=
  ((items.zipIdx start).filter fun item => test item.1).map Prod.snd

/-- The positions of the elements that satisfy a test, in ascending order. -/
def indexesWhere (test : α → Bool) (items : List α) : List ℕ := indexesFrom test 0 items

/-- The list without the elements at these positions. -/
def removeIndexes (removed : ℕ → Bool) (items : List α) : List α :=
  (items.zipIdx.filter fun item => !removed item.2).map Prod.fst

@[simp] theorem indexesFrom_nil (test : α → Bool) (start : ℕ) :
    indexesFrom test start [] = [] := rfl

theorem indexesFrom_cons (test : α → Bool) (start : ℕ) (item : α) (rest : List α) :
    indexesFrom test start (item :: rest) =
      if test item then start :: indexesFrom test (start + 1) rest
      else indexesFrom test (start + 1) rest := by
  unfold indexesFrom
  rw [List.zipIdx_cons, List.filter_cons]
  split_ifs <;> rfl

theorem indexesWhere_map {β : Type*} (test : β → Bool) (view : α → β) (items : List α) :
    indexesWhere test (items.map view) = indexesWhere (test ∘ view) items := by
  have sameFrom : ∀ start, indexesFrom test start (items.map view) =
      indexesFrom (test ∘ view) start items := by
    induction items with
    | nil => intro start; rfl
    | cons item rest ih =>
      intro start
      rw [List.map_cons, indexesFrom_cons, indexesFrom_cons, ih]
      rfl
  exact sameFrom 0

theorem mem_indexesWhere {test : α → Bool} {items : List α} {index : ℕ} :
    index ∈ indexesWhere test items ↔ ∃ item, items[index]? = some item ∧ test item = true := by
  simp only [indexesWhere, indexesFrom, List.mem_map, List.mem_filter, Prod.exists]
  constructor
  · rintro ⟨item, position, ⟨member, passes⟩, rfl⟩
    exact ⟨item, List.mk_mem_zipIdx_iff_getElem?.mp member, passes⟩
  · rintro ⟨item, found, passes⟩
    exact ⟨item, index, ⟨List.mk_mem_zipIdx_iff_getElem?.mpr found, passes⟩, rfl⟩

/-- Positions in a list of optional elements. -/
theorem mem_indexesWhere_any {test : α → Bool} {items : List (Option α)} {index : ℕ} :
    index ∈ indexesWhere (fun item => item.any test) items ↔
      ∃ item, items[index]? = some (some item) ∧ test item = true := by
  rw [mem_indexesWhere]
  constructor
  · intro ⟨found, atIndex, passes⟩
    obtain ⟨item, rfl, itemPasses⟩ := (Option.any_eq_true test found).mp passes
    exact ⟨item, atIndex, itemPasses⟩
  · intro ⟨item, atIndex, passes⟩
    exact ⟨some item, atIndex, passes⟩

theorem length_indexesWhere (test : α → Bool) (items : List α) :
    (indexesWhere test items).length = (items.filter test).length := by
  have keeps : ∀ start, (indexesFrom test start items).length = (items.filter test).length := by
    induction items with
    | nil => intro start; rfl
    | cons item rest ih =>
      intro start
      rw [indexesFrom_cons, List.filter_cons]
      split_ifs
      · rw [List.length_cons, List.length_cons, ih]
      · exact ih _
  exact keeps 0

theorem filterMap_filter_any {β : Type*} (view : α → Option β) (test : β → Bool)
    (items : List α) :
    (items.filter fun item => (view item).any test).filterMap view =
      (items.filterMap view).filter test := by
  induction items with
  | nil => rfl
  | cons item rest ih =>
    cases seen : view item with
    | none => simp [seen, ih]
    | some value =>
      by_cases passes : test value = true
      · simp [seen, passes, ih]
      · simp [seen, passes, ih]

/-- Positions of a view that may be absent are counted by the view alone. -/
theorem length_indexesWhere_any {β : Type*} (view : α → Option β) (test : β → Bool)
    (items : List α) :
    (indexesWhere (fun item => (view item).any test) items).length =
      ((items.filterMap view).filter test).length := by
  rw [length_indexesWhere, ← filterMap_filter_any, eq_comm, List.length_filterMap_eq_countP,
    List.countP_eq_length]
  intro item member
  obtain ⟨value, seen, _⟩ := (Option.any_eq_true test _).mp (List.mem_filter.mp member).2
  rw [seen]
  rfl

/-- Positions are listed in ascending order, each once. -/
theorem indexesWhere_ascending (test : α → Bool) (items : List α) :
    (indexesWhere test items).Pairwise (· < ·) := by
  have ascending : ∀ start, (∀ index ∈ indexesFrom test start items, start ≤ index) ∧
      (indexesFrom test start items).Pairwise (· < ·) := by
    induction items with
    | nil => intro start; simp
    | cons item rest ih =>
      intro start
      obtain ⟨restLater, restAscending⟩ := ih (start + 1)
      rw [indexesFrom_cons]
      split_ifs with passes
      · refine ⟨?_, List.pairwise_cons.mpr ⟨restLater, restAscending⟩⟩
        intro index member
        rcases List.mem_cons.mp member with rfl | inRest
        · exact Nat.le_refl _
        · exact Nat.le_of_succ_le (restLater index inRest)
      · exact ⟨fun index member => Nat.le_of_succ_le (restLater index member), restAscending⟩
  exact (ascending 0).2

/-- Looking the positions up again gives the elements. -/
theorem filterMap_getElem?_indexesWhere (test : α → Bool) (items : List α) :
    (indexesWhere test items).filterMap (items[·]?) = items.filter test := by
  have lookup : ∀ before rest : List α, (indexesFrom test before.length rest).filterMap
      ((before ++ rest)[·]?) = rest.filter test := by
    intro before rest
    induction rest generalizing before with
    | nil => rfl
    | cons item rest ih =>
      have later := ih (before ++ [item])
      rw [List.length_append, List.length_singleton, List.append_assoc, List.singleton_append]
        at later
      rw [indexesFrom_cons, List.filter_cons]
      split_ifs
      · rw [List.filterMap_cons, List.getElem?_append_right (Nat.le_refl _), Nat.sub_self,
          List.getElem?_cons_zero, later]
      · exact later
  exact lookup [] items

/-- Removing positions is filtering when the test agrees with the positions. -/
theorem removeIndexes_eq_filter {removed : ℕ → Bool} {test : α → Bool} {items : List α}
    (agree : ∀ index item, items[index]? = some item → removed index = test item) :
    removeIndexes removed items = items.filter fun item => !test item := by
  have sameTest : (items.zipIdx.filter fun item => !removed item.2) =
      items.zipIdx.filter fun item => !test item.1 := by
    apply List.filter_congr
    intro item member
    rw [agree item.2 item.1 (List.mk_mem_zipIdx_iff_getElem?.mp member)]
  have filtered : (items.zipIdx.map Prod.fst).filter (fun item => !test item) =
      (items.zipIdx.filter fun item => !test item.1).map Prod.fst := List.filter_map
  rw [removeIndexes, sameTest, ← filtered, List.zipIdx_map_fst]

end Foundation
