import Mathlib

/-!
# Partition points

A list is partitioned by a test when every element that passes stands before
every element that fails. The partition point, found by binary search in
systems code, is the number of elements that pass.

## Main definitions

* `Partitioned`, `partitionPoint`

## Main results

* `take_partitionPoint`: the elements before the partition point are those that pass
-/

namespace Foundation

variable {α : Type*} {test : α → Bool} {items : List α}

/-- Every element that passes stands before every element that fails. -/
def Partitioned (test : α → Bool) (items : List α) : Prop :=
  items.Pairwise fun left right => test right = true → test left = true

/-- `partition_point`: the position of the first element that fails. -/
def partitionPoint (test : α → Bool) (items : List α) : ℕ := (items.takeWhile test).length

theorem partitioned_cons {first : α} {rest : List α} :
    Partitioned test (first :: rest) ↔
      (∀ later ∈ rest, test later = true → test first = true) ∧ Partitioned test rest :=
  List.pairwise_cons

@[simp] theorem partitionPoint_nil : partitionPoint test [] = 0 := rfl

theorem partitionPoint_cons (test : α → Bool) (first : α) (rest : List α) :
    partitionPoint test (first :: rest) = if test first then partitionPoint test rest + 1 else 0 := by
  unfold partitionPoint
  rw [List.takeWhile_cons]
  split_ifs <;> rfl

/-- A test that is monotone along the order of a list partitions it. -/
theorem partitioned_of_pairwise {relation : α → α → Prop} (ordered : items.Pairwise relation)
    (monotone : ∀ left right, relation left right → test right = true → test left = true) :
    Partitioned test items :=
  ordered.imp fun {left right} related => monotone left right related

/-- The elements before the partition point are those that pass. -/
theorem take_partitionPoint (partitioned : Partitioned test items) :
    items.take (partitionPoint test items) = items.filter test := by
  induction items with
  | nil => rfl
  | cons first rest ih =>
    obtain ⟨firstLeast, restPartitioned⟩ := partitioned_cons.mp partitioned
    rw [partitionPoint_cons, List.filter_cons]
    split_ifs with outcome
    · rw [List.take_succ_cons, ih restPartitioned]
    · -- Nothing behind a failing element passes.
      symm
      apply List.filter_eq_nil_iff.mpr
      intro later member passes
      exact outcome (firstLeast later member passes)

end Foundation
