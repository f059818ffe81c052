import Mathlib
import Kidobo.Foundation.Traverse

/-!
# TOML values and their decoding

A document is a tree of values. A record decoded by name takes a table whose
keys are all known, or an array that lists the fields in order. The library that
reads and prints documents is a parameter.

## Main definitions

* `Toml`: a value of a document
* `Toml.member`, `Toml.fields`: the fields of a record
* `Toml.asString`, `Toml.asUnsigned`, `Toml.asList`: values of a known type
* `TomlLibrary`: reading and printing documents

## Main results

* `Toml.member_of_fields`: every field of a record is the member of its name
-/

namespace Foundation

/-- A value of a TOML document. Floats, dates and times are kept as their text. -/
inductive Toml where
  | string (text : String)
  | integer (value : ℤ)
  | boolean (value : Bool)
  | literal (text : String)
  | array (items : List Toml)
  | table (entries : List (String × Toml))

namespace Toml

/-- The text of a string. -/
def asString : Toml → Option String
  | string text => some text
  | _ => none

/-- An integer that fits an unsigned word of this many bits. -/
def asUnsigned (bits : ℕ) : Toml → Option ℕ
  | integer value => if 0 ≤ value ∧ value < 2 ^ bits then some value.toNat else none
  | _ => none

/-- The items of an array. -/
def asList : Toml → Option (List Toml)
  | array items => some items
  | _ => none

/-- The value that a table has under a name. -/
def entry (name : String) : Toml → Option Toml
  | table entries => entries.lookup name
  | _ => none

/-- The part of a record that a field is read from: by name in a table, by position in
an array. -/
def member (name : String) (position : ℕ) : Toml → Option Toml
  | table entries => entries.lookup name
  | array items => items[position]?
  | _ => none

/-- The required fields of a record that denies unknown ones. An array lists them in
order, and items after the last one are not looked at. -/
def fields (names : List String) : Toml → Option (List Toml)
  | table entries =>
    if ∀ entry ∈ entries, entry.1 ∈ names then names.mapM (entries.lookup ·) else none
  | array items => if names.length ≤ items.length then some (items.take names.length) else none
  | _ => none

@[simp] theorem asUnsigned_natCast {bits value : ℕ} (small : value < 2 ^ bits) :
    asUnsigned bits (integer value) = some value := by
  have inRange : (0 : ℤ) ≤ value ∧ (value : ℤ) < 2 ^ bits := ⟨by omega, by exact_mod_cast small⟩
  rw [asUnsigned, if_pos inRange, Int.toNat_natCast]

theorem lt_of_asUnsigned {bits value : ℕ} {item : Toml} (read : item.asUnsigned bits = some value) :
    value < 2 ^ bits := by
  cases item with
  | integer number =>
    rw [asUnsigned] at read
    split at read
    case isTrue inRange =>
      obtain rfl := Option.some.inj read
      have below : ((number.toNat : ℕ) : ℤ) < 2 ^ bits := by
        rw [Int.toNat_of_nonneg inRange.1]
        exact inRange.2
      exact_mod_cast below
    case isFalse => cases read
  | string | boolean | literal | array | table => cases read

/-- A table with exactly the named entries, in any number, has them as its fields. -/
theorem fields_table_pair {firstName secondName : String} (different : secondName ≠ firstName)
    (first second : Toml) :
    fields [firstName, secondName] (table [(firstName, first), (secondName, second)]) =
      some [first, second] := by
  have known : ∀ entry ∈ [(firstName, first), (secondName, second)],
      entry.1 ∈ [firstName, secondName] := by simp
  have other : (secondName == firstName) = false := by simpa using different
  rw [fields, if_pos known]
  simp [List.lookup, other]

/-- Every field of a record is the member of its name. -/
theorem member_of_fields {names : List String} {record : Toml} {values : List Toml}
    (read : record.fields names = some values) {position : ℕ} {name : String}
    (named : names[position]? = some name) :
    record.member name position = values[position]? := by
  cases record with
  | table entries =>
    rw [fields] at read
    split at read
    case isTrue =>
      obtain ⟨inside, rfl⟩ := List.getElem?_eq_some_iff.mp named
      obtain ⟨sameLength, looked⟩ := List.forall₂_iff_get.mp (mapM_eq_some_iff.mp read)
      have alsoInside : position < values.length := sameLength ▸ inside
      rw [List.getElem?_eq_getElem alsoInside]
      exact looked position inside alsoInside
    case isFalse => cases read
  | array items =>
    rw [fields] at read
    split at read
    case isTrue =>
      obtain rfl := Option.some.inj read
      obtain ⟨inside, _⟩ := List.getElem?_eq_some_iff.mp named
      rw [List.getElem?_take_of_lt inside]
      rfl
    case isFalse => cases read
  | string | integer | boolean | literal => cases read

end Toml

/-- A library for TOML: reading a text, printing a document, and the message that decoding
a text gives when its document has another shape. -/
structure TomlLibrary where
  parse : String → Except String Toml
  print : Toml → String
  mismatch : String → String

end Foundation
