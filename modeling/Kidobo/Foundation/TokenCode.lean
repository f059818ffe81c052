import Mathlib

/-!
# Texts of code words

When a reader takes exactly one code word from the front of any text that starts
with one, a text of code words can be read back, so it stands for one list of
items only.

## Main definitions

* `readAll`: read code words until the text ends
* `Reads`: a reader that fits an encoding

## Main results

* `Reads.readAll_flatMap`, `Reads.flatMap_injective`
-/

namespace Foundation

variable {α β : Type*}

/-- Read code words until the text ends, at most `fuel` of them. -/
def readAll (readOne : List β → Option (α × List β)) : ℕ → List β → Option (List α)
  | _, [] => some []
  | 0, _ :: _ => none
  | fuel + 1, symbol :: rest =>
    (readOne (symbol :: rest)).bind fun (item, behind) =>
      (readAll readOne fuel behind).map (item :: ·)

/-- Whatever stands behind a code word, the reader takes that word. -/
structure Reads (readOne : List β → Option (α × List β)) (encode : α → List β) : Prop where
  nonempty : ∀ item, encode item ≠ []
  reads : ∀ item rest, readOne (encode item ++ rest) = some (item, rest)

namespace Reads

variable {readOne : List β → Option (α × List β)} {encode : α → List β}

theorem length_le (reads : Reads readOne encode) (items : List α) :
    items.length ≤ (items.flatMap encode).length := by
  induction items with
  | nil => exact Nat.le_refl _
  | cons item rest ih =>
    have positive := List.length_pos_of_ne_nil (reads.nonempty item)
    rw [List.flatMap_cons, List.length_append, List.length_cons]
    omega

/-- A text of code words is read back. -/
theorem readAll_flatMap (reads : Reads readOne encode) {items : List α} {fuel : ℕ}
    (enough : items.length ≤ fuel) : readAll readOne fuel (items.flatMap encode) = some items := by
  induction items generalizing fuel with
  | nil => cases fuel <;> rfl
  | cons item rest ih =>
    obtain ⟨symbol, later, isWord⟩ := List.exists_cons_of_ne_nil (reads.nonempty item)
    have read := reads.reads item (rest.flatMap encode)
    obtain ⟨fuel, rfl⟩ : ∃ less, fuel = less + 1 := ⟨fuel - 1, by simp at enough; omega⟩
    rw [isWord, List.cons_append] at read
    rw [List.flatMap_cons, isWord, List.cons_append, readAll, read, Option.bind_some]
    simp only [ih (by simpa using enough), Option.map_some]

/-- A text of code words stands for one list of items. -/
theorem flatMap_injective (reads : Reads readOne encode) :
    Function.Injective fun items : List α => items.flatMap encode := by
  intro left right same
  have leftRead := reads.readAll_flatMap (Nat.le_max_left left.length right.length)
  have rightRead := reads.readAll_flatMap (Nat.le_max_right left.length right.length)
  simp only at same
  rw [same, rightRead] at leftRead
  exact (Option.some.inj leftRead).symm

end Reads

end Foundation
