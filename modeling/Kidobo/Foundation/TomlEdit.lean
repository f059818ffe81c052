import Mathlib
import Kidobo.Foundation.Toml

/-!
# Editing TOML documents

A document is a list of named values. An edit puts a value under a name; the
library then prints the edited document in the format of the text it was read
from. What is read back may list the entries of a table in another order, so
values are compared up to that order, and decoding cannot tell them apart.

## Main definitions

* `Toml.Entries`, `Toml.insertEntry`: named values and their edit
* `Toml.isRecord`, `Toml.readField`, `Toml.readList`: records of optional fields
* `Toml.Same`: the same values in any order of entries
* `TomlEditor`: a library that reads texts and prints edited documents

## Main results

* `Toml.lookup_insertEntry`: what an edited document has under each name
* `Toml.OrderFree`: decoders that cannot tell the order of entries
-/

namespace Foundation

namespace Toml

/-- The named values of a table. -/
abbrev Entries := List (String × Toml)

/-! ### Edits -/

/-- Put a value under a name: in the place of the one it has, or behind all others. -/
def insertEntry (name : String) (value : Toml) : Entries → Entries
  | [] => [(name, value)]
  | (key, old) :: rest =>
    if key = name then (name, value) :: rest else (key, old) :: insertEntry name value rest

/-- The entries of a table. -/
def asTable : Toml → Option Entries
  | table entries => some entries
  | _ => none

/-- The table under a name. A missing one is empty. -/
def tableAt (name : String) (entries : Entries) : Option Entries :=
  match entries.lookup name with
  | none => some []
  | some value => value.asTable

/-- The items of the array under a name. A missing one is empty. -/
def arrayAt (name : String) (entries : Entries) : Option (List Toml) :=
  match entries.lookup name with
  | none => some []
  | some value => value.asList

/-- The first entry decides about its own name. -/
theorem lookup_entry (name key : String) (value : Toml) (rest : Entries) :
    List.lookup name ((key, value) :: rest) =
      if name = key then some value else rest.lookup name := by
  rw [List.lookup_cons]
  by_cases same : name = key
  · simp [same]
  · simp [same, beq_eq_false_iff_ne.mpr same]

theorem mem_keys_iff {entries : Entries} {name : String} :
    name ∈ entries.map Prod.fst ↔ (entries.lookup name).isSome = true := by
  induction entries with
  | nil => simp
  | cons entry rest ih =>
    obtain ⟨key, value⟩ := entry
    rw [lookup_entry, List.map_cons, List.mem_cons]
    by_cases same : name = key
    · simp [same]
    · rw [if_neg same, ← ih]
      exact or_iff_right same

theorem lookup_insertEntry (name other : String) (value : Toml) (entries : Entries) :
    (insertEntry name value entries).lookup other =
      if other = name then some value else entries.lookup other := by
  induction entries with
  | nil => rw [insertEntry, lookup_entry]
  | cons entry rest ih =>
    obtain ⟨key, old⟩ := entry
    rw [insertEntry, lookup_entry]
    by_cases replaced : key = name
    · rw [if_pos replaced, lookup_entry, replaced]
      by_cases same : other = name
      · rw [if_pos same, if_pos same]
      · rw [if_neg same, if_neg same, if_neg same]
    · rw [if_neg replaced, lookup_entry, ih]
      by_cases here : other = key
      · rw [if_pos here, if_neg (here ▸ replaced), if_pos here]
      · rw [if_neg here, if_neg here]

/-- The names of an edited document are the new one and those before. -/
theorem mem_keys_insertEntry {name other : String} {value : Toml} {entries : Entries} :
    other ∈ (insertEntry name value entries).map Prod.fst ↔
      other = name ∨ other ∈ entries.map Prod.fst := by
  rw [mem_keys_iff, mem_keys_iff, lookup_insertEntry]
  by_cases same : other = name
  · simp [same]
  · simp [same]

/-! ### Records of optional fields -/

/-- A signed integer. -/
def asInteger : Toml → Option ℤ
  | integer value => some value
  | _ => none

/-- A truth value. -/
def asBoolean : Toml → Option Bool
  | boolean value => some value
  | _ => none

/-- Whether a value can be a record with these optional fields and no others. An array lists
them in order, and items after the last one are not looked at. -/
def isRecord (names : List String) : Toml → Bool
  | table entries => (entries.map Prod.fst).all fun key => decide (key ∈ names)
  | array items => decide (names.length ≤ items.length)
  | _ => false

section Decoding

variable {α : Type}

/-- An optional field: an absent one is read as absent. -/
def readField (decode : Toml → Option α) : Option Toml → Option (Option α)
  | none => some none
  | some value => (decode value).map some

/-- A list of values of one type. -/
def readList (decode : Toml → Option α) (value : Toml) : Option (List α) :=
  value.asList.bind fun items => items.mapM decode

theorem isRecord_table {names : List String} {entries : Entries} :
    isRecord names (table entries) = true ↔ ∀ key ∈ entries.map Prod.fst, key ∈ names := by
  simp only [isRecord, List.all_eq_true, decide_eq_true_iff]

theorem member_insertEntry (name other : String) (position : ℕ) (value : Toml)
    (entries : Entries) :
    (table (insertEntry name value entries)).member other position =
      if other = name then some value else (table entries).member other position :=
  lookup_insertEntry name other value entries

/-- A known field stays inside its record. -/
theorem isRecord_insertEntry {names : List String} {entries : Entries} {name : String}
    (known : name ∈ names) (value : Toml) :
    isRecord names (table (insertEntry name value entries)) = isRecord names (table entries) := by
  rw [Bool.eq_iff_iff, isRecord_table, isRecord_table]
  simp only [mem_keys_insertEntry, forall_eq_or_imp, known, true_and]

end Decoding

/-! ### The same values -/

/-- The same values, whatever the order of the entries of a table. -/
inductive Same : Toml → Toml → Prop
  | string (text : String) : Same (string text) (string text)
  | integer (value : ℤ) : Same (integer value) (integer value)
  | boolean (value : Bool) : Same (boolean value) (boolean value)
  | literal (text : String) : Same (literal text) (literal text)
  | array {items others : List Toml} (same : List.Forall₂ Same items others) :
      Same (array items) (array others)
  | table {entries others : Entries}
      (same : ∀ name, Option.Rel Same (entries.lookup name) (others.lookup name)) :
      Same (table entries) (table others)

theorem mem_of_lookup {entries : Entries} {name : String} {value : Toml}
    (found : entries.lookup name = some value) : (name, value) ∈ entries := by
  induction entries with
  | nil => cases found
  | cons entry rest ih =>
    obtain ⟨key, first⟩ := entry
    rw [lookup_entry] at found
    split_ifs at found with same
    · obtain rfl := Option.some.inj found
      rw [same]
      exact List.mem_cons_self
    · exact List.mem_cons_of_mem _ (ih found)

/-- Every value is the same as itself. -/
theorem same_refl : ∀ value : Toml, Same value value
  | string text => Same.string text
  | integer value => Same.integer value
  | boolean value => Same.boolean value
  | literal text => Same.literal text
  | array items => Same.array (List.forall₂_same.mpr fun item _ => same_refl item)
  | table entries => Same.table fun name => by
    cases found : entries.lookup name with
    | none => exact .none
    | some value =>
      have smaller := List.sizeOf_lt_of_mem (mem_of_lookup found)
      have smallerValue : sizeOf value < sizeOf (name, value) := by simp
      exact .some (same_refl value)

/-- A decoder that cannot tell the order of the entries of a table. -/
def OrderFree {α : Type} (decode : Toml → Option α) : Prop :=
  ∀ value other, Same value other → decode value = decode other

section OrderFree

variable {α : Type} {decode : Toml → Option α} {value other : Toml}

theorem orderFree_asString : OrderFree asString := by
  intro value other same
  cases same <;> rfl

theorem orderFree_asInteger : OrderFree asInteger := by
  intro value other same
  cases same <;> rfl

theorem orderFree_asBoolean : OrderFree asBoolean := by
  intro value other same
  cases same <;> rfl

theorem mapM_congr_of_forall₂ {items others : List Toml} (orderFree : OrderFree decode)
    (same : List.Forall₂ Same items others) : items.mapM decode = others.mapM decode := by
  induction same with
  | nil => rfl
  | cons first _ ih => rw [List.mapM_cons, List.mapM_cons, orderFree _ _ first, ih]

theorem OrderFree.readList (orderFree : OrderFree decode) : OrderFree (readList decode) := by
  intro value other same
  cases same with
  | array items => exact mapM_congr_of_forall₂ orderFree items
  | string | integer | boolean | literal | table => rfl

theorem OrderFree.readField (orderFree : OrderFree decode) {field otherField : Option Toml}
    (same : Option.Rel Same field otherField) :
    readField decode field = Toml.readField decode otherField := by
  cases same with
  | some item => exact congrArg (Option.map Option.some) (orderFree _ _ item)
  | none => rfl

theorem Same.member (same : Same value other) (name : String) (position : ℕ) :
    Option.Rel Same (value.member name position) (other.member name position) := by
  cases same with
  | table entries => exact entries name
  | array items =>
    rename_i left right
    rw [Toml.member, Toml.member]
    by_cases inside : position < left.length
    · have alsoInside : position < right.length := items.length_eq ▸ inside
      rw [List.getElem?_eq_getElem inside, List.getElem?_eq_getElem alsoInside]
      exact .some (items.get inside alsoInside)
    · have alsoOutside : ¬ position < right.length := items.length_eq ▸ inside
      rw [List.getElem?_eq_none (Nat.le_of_not_lt inside),
        List.getElem?_eq_none (Nat.le_of_not_lt alsoOutside)]
      exact .none
  | string | integer | boolean | literal => exact .none

theorem isSome_eq_of_rel {field otherField : Option Toml}
    (same : Option.Rel Same field otherField) : field.isSome = otherField.isSome := by
  cases same <;> rfl

theorem Same.isRecord (same : Same value other) (names : List String) :
    value.isRecord names = other.isRecord names := by
  cases same with
  | table entries =>
    rename_i left right
    have isKey (key : String) : key ∈ left.map Prod.fst ↔ key ∈ right.map Prod.fst := by
      rw [mem_keys_iff, mem_keys_iff, isSome_eq_of_rel (entries key)]
    rw [Bool.eq_iff_iff, isRecord_table, isRecord_table]
    simp only [isKey]
  | array items => rw [Toml.isRecord, Toml.isRecord, items.length_eq]
  | string | integer | boolean | literal => rfl

end OrderFree

end Toml

/-- A library that reads TOML texts and prints edited documents in the format of the text
they were read from. It also says why a document has not the expected shape. -/
structure TomlEditor where
  parse : List Char → Except String Toml.Entries
  print : List Char → Toml.Entries → List Char
  mismatch : List Char → String

namespace TomlEditor

/-- An edited document is read back from what is printed of it. -/
def ReadsBack (library : TomlEditor) (original : List Char) (edited : Toml.Entries) : Prop :=
  ∃ found, library.parse (library.print original edited) = .ok found ∧
    Toml.Same (.table found) (.table edited)

/-- A document that was not edited prints as the text it was read from. -/
def KeepsFormat (library : TomlEditor) (original : List Char) : Prop :=
  ∀ document, library.parse original = .ok document → library.print original document = original

end TomlEditor

end Foundation
