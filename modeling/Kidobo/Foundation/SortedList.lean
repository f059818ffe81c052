import Mathlib

/-!
# Sorting and removing adjacent duplicates

The two in-place list operations of systems code: sort by the total order of
the element type, then drop every element equal to its left neighbour. Applied
in this order they give the strictly increasing list with the same members.
-/

namespace Foundation

variable {α : Type*} [LinearOrder α]

/-- Sort by the order of the element type. Equal elements are indistinguishable,
so stability does not matter. -/
def sortUnstable (items : List α) : List α := items.insertionSort (· ≤ ·)

/-- Drop every element equal to the one before it. -/
def dedupAdjacent : List α → List α
  | [] => []
  | [item] => [item]
  | first :: second :: rest =>
    if first = second then dedupAdjacent (second :: rest)
    else first :: dedupAdjacent (second :: rest)

theorem sortUnstable_perm (items : List α) : (sortUnstable items).Perm items :=
  List.perm_insertionSort _ _

@[simp] theorem mem_sortUnstable {item : α} {items : List α} :
    item ∈ sortUnstable items ↔ item ∈ items :=
  (sortUnstable_perm items).mem_iff

theorem sortUnstable_sorted (items : List α) : (sortUnstable items).Pairwise (· ≤ ·) :=
  List.pairwise_insertionSort _ _

theorem sortUnstable_eq_self {items : List α} (sorted : items.Pairwise (· ≤ ·)) :
    sortUnstable items = items :=
  List.Pairwise.insertionSort_eq sorted

@[simp] theorem mem_dedupAdjacent {item : α} {items : List α} :
    item ∈ dedupAdjacent items ↔ item ∈ items := by
  fun_induction dedupAdjacent items with
  | case1 => rfl
  | case2 single => rfl
  | case3 second rest ih => simp [ih]
  | case4 first second rest different ih => simp [ih]

/-- Removing adjacent duplicates of a sorted list leaves it strictly increasing. -/
theorem dedupAdjacent_strict {items : List α} (sorted : items.Pairwise (· ≤ ·)) :
    (dedupAdjacent items).Pairwise (· < ·) := by
  fun_induction dedupAdjacent items with
  | case1 => exact List.Pairwise.nil
  | case2 single => exact List.pairwise_singleton _ _
  | case3 second rest ih => exact ih (List.pairwise_cons.mp sorted).2
  | case4 first second rest different ih =>
    obtain ⟨firstLeast, restSorted⟩ := List.pairwise_cons.mp sorted
    refine List.pairwise_cons.mpr ⟨fun later member => ?_, ih restSorted⟩
    rcases List.mem_cons.mp (mem_dedupAdjacent.mp member) with rfl | inRest
    · exact lt_of_le_of_ne (firstLeast later List.mem_cons_self) different
    · exact lt_of_lt_of_le (lt_of_le_of_ne (firstLeast second List.mem_cons_self) different)
        ((List.pairwise_cons.mp restSorted).1 later inRest)

/-- A strictly increasing list has no adjacent duplicates to drop. -/
theorem dedupAdjacent_eq_self {items : List α} (strict : items.Pairwise (· < ·)) :
    dedupAdjacent items = items := by
  fun_induction dedupAdjacent items with
  | case1 => rfl
  | case2 single => rfl
  | case3 second rest ih =>
    exact absurd ((List.pairwise_cons.mp strict).1 second List.mem_cons_self) (lt_irrefl _)
  | case4 first second rest different ih => rw [ih (List.pairwise_cons.mp strict).2]

/-- Sorting and removing duplicates gives a strictly increasing list. -/
theorem dedupAdjacent_sortUnstable_strict (items : List α) :
    (dedupAdjacent (sortUnstable items)).Pairwise (· < ·) :=
  dedupAdjacent_strict (sortUnstable_sorted items)

/-- Lists with the same members have the same sorted list without duplicates. -/
theorem dedupAdjacent_sortUnstable_congr {left right : List α}
    (sameMembers : ∀ item, item ∈ left ↔ item ∈ right) :
    dedupAdjacent (sortUnstable left) = dedupAdjacent (sortUnstable right) := by
  apply List.Pairwise.eq_of_mem_iff (dedupAdjacent_sortUnstable_strict left)
    (dedupAdjacent_sortUnstable_strict right)
  intro item
  rw [mem_dedupAdjacent, mem_sortUnstable, mem_dedupAdjacent, mem_sortUnstable, sameMembers]

end Foundation
