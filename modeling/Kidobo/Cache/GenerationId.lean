import Mathlib
import Kidobo.Cache.Generation

/-!
# Names of generations

A generation is named by the hash of its files. The encoding that is hashed can
be read back, so contents whose hash has no other origin are known by their
name. A staging directory has no such name.

## Main definitions

* `GenerationCodec.Unique`: bytes whose hash no other bytes have

## Main results

* `hexLower_injective`, `isGenerationId_sha256Hex`
* `encodeParts_injective_of_le`: the hashed encoding can be read back
* `encodeParts_eq_of_generationId_eq`: contents are known by their name
* `not_isGenerationId_dot`: hidden names name no generation
-/

namespace Kidobo

open Foundation

/-! ### Hexadecimal text -/

theorem lowerHexNibble_injective {left right : ℕ} (leftSmall : left < 16) (rightSmall : right < 16)
    (same : lowerHexNibble left = lowerHexNibble right) : left = right := by
  have known : ∀ first < 16, ∀ second < 16,
      lowerHexNibble first = lowerHexNibble second → first = second := by decide
  exact known left leftSmall right rightSmall same

theorem isHex_lowerHexNibble {value : ℕ} (small : value < 16) :
    (('0' ≤ lowerHexNibble value && lowerHexNibble value ≤ '9') ||
      ('a' ≤ lowerHexNibble value && lowerHexNibble value ≤ 'f')) = true := by
  have known : ∀ value < 16, (('0' ≤ lowerHexNibble value && lowerHexNibble value ≤ '9') ||
      ('a' ≤ lowerHexNibble value && lowerHexNibble value ≤ 'f')) = true := by decide
  exact known value small

theorem toNat_div_sixteen_lt (byte : UInt8) : byte.toNat / 16 < 16 := by
  have small := byte.toNat_lt
  omega

/-- The two digits of each byte. -/
theorem hexLower_toList (bytes : Bytes) :
    (hexLower bytes).toList = bytes.flatMap fun byte =>
      [lowerHexNibble (byte.toNat / 16), lowerHexNibble (byte.toNat % 16)] := by
  rw [hexLower, String.toList_ofList]

theorem hexLower_injective {left right : Bytes} (same : hexLower left = hexLower right) :
    left = right := by
  have sameTexts := congrArg String.toList same
  rw [hexLower_toList, hexLower_toList] at sameTexts
  clear same
  induction left generalizing right with
  | nil =>
    cases right with
    | nil => rfl
    | cons byte rest => cases sameTexts
  | cons byte rest ih =>
    cases right with
    | nil => cases sameTexts
    | cons other later =>
      simp only [List.flatMap_cons, List.cons_append, List.nil_append, List.cons.injEq] at sameTexts
      obtain ⟨high, low, tails⟩ := sameTexts
      have sameHigh := lowerHexNibble_injective (toNat_div_sixteen_lt byte)
        (toNat_div_sixteen_lt other) high
      have sameLow := lowerHexNibble_injective (Nat.mod_lt _ (by decide))
        (Nat.mod_lt _ (by decide)) low
      have sameByte : byte = other := by
        apply UInt8.toNat_inj.mp
        omega
      rw [sameByte, ih tails]

theorem length_hexLower (bytes : Bytes) : (hexLower bytes).length = 2 * bytes.length := by
  rw [← String.length_toList, hexLower_toList, List.length_flatMap]
  simp [Nat.mul_comm]

/-- The hash of a generation is a generation id. -/
theorem isGenerationId_sha256Hex {codec : GenerationCodec} {bytes : Bytes}
    (digest : (codec.sha256 bytes).length = 32) : isGenerationId (codec.sha256Hex bytes) = true := by
  unfold isGenerationId GenerationCodec.sha256Hex
  rw [Bool.and_eq_true, length_hexLower, digest, List.all_eq_true]
  refine ⟨rfl, ?_⟩
  intro char member
  rw [hexLower_toList, List.mem_flatMap] at member
  obtain ⟨byte, _, isDigit⟩ := member
  rcases List.mem_cons.mp isDigit with rfl | isLow
  · exact isHex_lowerHexNibble (toNat_div_sixteen_lt byte)
  · obtain rfl := List.mem_singleton.mp isLow
    exact isHex_lowerHexNibble (Nat.mod_lt _ (by decide))

/-- A name that starts with a dot names no generation. -/
theorem not_isGenerationId_dot {name : String} (hidden : name.toList.head? = some '.') :
    isGenerationId name = false := by
  unfold isGenerationId
  cases chars : name.toList with
  | nil =>
    rw [chars] at hidden
    cases hidden
  | cons first rest =>
    rw [chars] at hidden
    obtain rfl := Option.some.inj hidden
    have notHex : ((('0' : Char) ≤ '.' && ('.' : Char) ≤ '9') ||
      (('a' : Char) ≤ '.' && ('.' : Char) ≤ 'f')) = false := by decide
    rw [List.all_cons, notHex, Bool.false_and, Bool.and_false]

/-! ### The encoding of the files -/

theorem length_leBytes (length : ℕ) : (leBytes length).length = 8 := by simp [leBytes]

theorem leBytes_injective {left right : ℕ} (leftSmall : left < 2 ^ 64) (rightSmall : right < 2 ^ 64)
    (same : leBytes left = leBytes right) : left = right := by
  have digit (index : ℕ) (inside : index < 8) :
      left / 256 ^ index % 256 = right / 256 ^ index % 256 := by
    have sameByte := congrArg (fun bytes : Bytes => bytes[index]?) same
    simp only [leBytes, List.getElem?_map, List.getElem?_range inside, Option.map_some,
      Option.some.injEq] at sameByte
    have sameNat := congrArg UInt8.toNat sameByte
    simpa [UInt8.toNat_ofNat] using sameNat
  have d0 := digit 0 (by decide)
  have d1 := digit 1 (by decide)
  have d2 := digit 2 (by decide)
  have d3 := digit 3 (by decide)
  have d4 := digit 4 (by decide)
  have d5 := digit 5 (by decide)
  have d6 := digit 6 (by decide)
  have d7 := digit 7 (by decide)
  norm_num at d0 d1 d2 d3 d4 d5 d6 d7 leftSmall rightSmall
  omega

theorem encodeParts_cons (name : String) (contents : Bytes) (rest : List (String × Bytes)) :
    encodeParts ((name, contents) :: rest) =
      leBytes (utf8 name).length ++ utf8 name ++ (leBytes contents.length ++ contents) ++
        encodeParts rest := List.flatMap_cons

/-- Members that are nowhere longer have no longer encoding. -/
theorem length_encodeParts_le {left right : List (String × Bytes)}
    (shorter : List.Forall₂ (fun first second => first.1 = second.1 ∧
      first.2.length ≤ second.2.length) left right) :
    (encodeParts left).length ≤ (encodeParts right).length := by
  induction shorter with
  | nil => exact le_rfl
  | @cons first second _ _ pair _ ih =>
    obtain ⟨name, contents⟩ := first
    obtain ⟨otherName, otherContents⟩ := second
    obtain ⟨rfl, short⟩ := pair
    simp only [encodeParts_cons, List.length_append, length_leBytes] at short ⊢
    omega

/-- Members that are nowhere longer and have the same encoding are the same. -/
theorem encodeParts_injective_of_le {left right : List (String × Bytes)}
    (shorter : List.Forall₂ (fun first second => first.1 = second.1 ∧
      first.2.length ≤ second.2.length) left right)
    (same : encodeParts left = encodeParts right) : left = right := by
  induction shorter with
  | nil => rfl
  | @cons first second _ _ pair rest ih =>
    obtain ⟨name, contents⟩ := first
    obtain ⟨otherName, otherContents⟩ := second
    obtain ⟨rfl, short⟩ := pair
    have sameTotal := congrArg List.length same
    have restShorter := length_encodeParts_le rest
    simp only [encodeParts_cons, List.append_assoc, List.append_cancel_left_eq] at same
    simp only [encodeParts_cons, List.length_append, length_leBytes] at short sameTotal
    obtain ⟨_, sameTail⟩ := List.append_inj same (by simp [length_leBytes])
    obtain ⟨sameContents, sameLater⟩ := List.append_inj sameTail (by omega)
    rw [show contents = otherContents from sameContents, ih sameLater]

/-! ### Names without collision -/

/-- No other bytes have the hash of these. -/
def GenerationCodec.Unique (codec : GenerationCodec) (bytes : Bytes) : Prop :=
  ∀ other, codec.sha256 other = codec.sha256 bytes → other = bytes

/-- Members that have the name of these have their encoding. -/
theorem encodeParts_eq_of_generationId_eq {codec : GenerationCodec}
    {parts staged : List (String × Bytes)} (unique : codec.Unique (encodeParts staged))
    (sameId : generationIdFromParts codec parts = generationIdFromParts codec staged) :
    encodeParts parts = encodeParts staged := unique _ (hexLower_injective sameId)

end Kidobo
