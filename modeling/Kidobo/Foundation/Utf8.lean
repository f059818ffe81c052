import Mathlib
import Kidobo.Foundation.FileSystem

/-!
# Decoding UTF-8

Bytes are read one sequence at a time. A sequence that breaks off is malformed
as far as it could still have been one, and reading goes on behind it.

## Main definitions

* `decodeUtf8`: the scalars and the malformed sequences of some bytes
* `fromUtf8Lossy`, `fromUtf8`: decoding with and without replacements

## Main results

* `fromUtf8Lossy_encodeUtf8`, `fromUtf8_encodeUtf8`
-/

namespace Foundation

/-- How many bytes have to follow a first byte, and the range of the next one. -/
def sequenceShape (first : ℕ) : Option (ℕ × ℕ × ℕ) :=
  if 0xC2 ≤ first ∧ first ≤ 0xDF then some (1, 0x80, 0xBF)
  else if first = 0xE0 then some (2, 0xA0, 0xBF)
  else if first = 0xED then some (2, 0x80, 0x9F)
  else if 0xE1 ≤ first ∧ first ≤ 0xEF then some (2, 0x80, 0xBF)
  else if first = 0xF0 then some (3, 0x90, 0xBF)
  else if first = 0xF4 then some (3, 0x80, 0x8F)
  else if 0xF1 ≤ first ∧ first ≤ 0xF3 then some (3, 0x80, 0xBF)
  else none

/-- Read the bytes that have to follow, the next one in the given range. -/
def readContinuation (value : ℕ) : ℕ → ℕ → ℕ → Bytes → Option ℕ × Bytes
  | 0, _, _, rest => (some value, rest)
  | _ + 1, _, _, [] => (none, [])
  | count + 1, low, high, byte :: rest =>
    if low ≤ byte.toNat ∧ byte.toNat ≤ high then
      readContinuation (value * 64 + byte.toNat % 64) count 0x80 0xBF rest
    else (none, byte :: rest)

/-- Read one sequence, given its first byte. -/
def readSequence (first : UInt8) (rest : Bytes) : Option Char × Bytes :=
  if first.toNat < 0x80 then (some (Char.ofNat first.toNat), rest)
  else
    match sequenceShape first.toNat with
    | none => (none, rest)
    | some (count, low, high) =>
      let (value, behind) := readContinuation (first.toNat % 2 ^ (6 - count)) count low high rest
      (value.map Char.ofNat, behind)

/-- The scalars of some bytes and, as `none`, their malformed sequences. The
first argument bounds the number of sequences. -/
def decodeUtf8 : ℕ → Bytes → List (Option Char)
  | bound + 1, first :: rest =>
    let (scalar, behind) := readSequence first rest
    scalar :: decodeUtf8 bound behind
  | _, _ => []

/-- `String::from_utf8_lossy`. -/
def fromUtf8Lossy (bytes : Bytes) : List Char :=
  (decodeUtf8 bytes.length bytes).map fun scalar => scalar.getD '\uFFFD'

/-- `String::from_utf8`. -/
def fromUtf8 (bytes : Bytes) : Option (List Char) :=
  (decodeUtf8 bytes.length bytes).mapM id

/-! ### Decoding what was encoded -/

theorem readContinuation_digit {value count low high digit : ℕ} (rest : Bytes) (small : digit < 64)
    (inRange : low ≤ digit + 0x80 ∧ digit + 0x80 ≤ high) :
    readContinuation value (count + 1) low high (UInt8.ofNat (digit + 0x80) :: rest) =
      readContinuation (value * 64 + digit) count 0x80 0xBF rest := by
  have byteValue : (UInt8.ofNat (digit + 0x80)).toNat = digit + 0x80 := by
    rw [UInt8.toNat_ofNat']
    omega
  rw [readContinuation, byteValue, if_pos inRange, show (digit + 0x80) % 64 = digit by omega]

theorem readSequence_of_shape {first count low high value : ℕ} {rest behind : Bytes}
    (isByte : first < 256)
    (large : 0x80 ≤ first) (shape : sequenceShape first = some (count, low, high))
    (continued : readContinuation (first % 2 ^ (6 - count)) count low high rest =
      (some value, behind)) :
    readSequence (UInt8.ofNat first) rest = (some (Char.ofNat value), behind) := by
  have byteValue : (UInt8.ofNat first).toNat = first := by
    rw [UInt8.toNat_ofNat']
    omega
  rw [readSequence, byteValue, if_neg (by omega), shape]
  simp only [continued, Option.map_some]

/-- The range of the byte behind the first of three bytes. -/
theorem exists_shape_three {first next : ℕ} (isFirst : 0xE0 ≤ first ∧ first ≤ 0xEF)
    (isNext : 0x80 ≤ next ∧ next ≤ 0xBF) (shortest : first = 0xE0 → 0xA0 ≤ next)
    (noSurrogate : first = 0xED → next ≤ 0x9F) :
    ∃ low high, sequenceShape first = some (2, low, high) ∧ low ≤ next ∧ next ≤ high := by
  unfold sequenceShape
  split_ifs
  · omega
  · exact ⟨_, _, rfl, by omega⟩
  · exact ⟨_, _, rfl, by omega⟩
  · exact ⟨_, _, rfl, by omega⟩
  all_goals omega

/-- The range of the byte behind the first of four bytes. -/
theorem exists_shape_four {first next : ℕ} (isFirst : 0xF0 ≤ first ∧ first ≤ 0xF4)
    (isNext : 0x80 ≤ next ∧ next ≤ 0xBF) (shortest : first = 0xF0 → 0x90 ≤ next)
    (inRange : first = 0xF4 → next ≤ 0x8F) :
    ∃ low high, sequenceShape first = some (3, low, high) ∧ low ≤ next ∧ next ≤ high := by
  unfold sequenceShape
  split_ifs
  · omega
  · omega
  · omega
  · omega
  · exact ⟨_, _, rfl, by omega⟩
  · exact ⟨_, _, rfl, by omega⟩
  · exact ⟨_, _, rfl, by omega⟩
  · omega

/-- Reading the sequence of a scalar gives it back. -/
theorem readSequence_utf8EncodeChar (char : Char) (rest : Bytes) :
    ∃ first behind, String.utf8EncodeChar char = first :: behind ∧
      readSequence first (behind ++ rest) = (some char, rest) := by
  have valid : char.toNat < 0xD800 ∨ 0xDFFF < char.toNat ∧ char.toNat < 0x110000 := char.valid
  have same : Char.ofNat char.toNat = char := Char.ofNat_toNat char
  unfold String.utf8EncodeChar
  rw [show char.val.toNat = char.toNat from rfl]
  generalize char.toNat = value at valid same
  subst same
  simp only
  -- one case for each length of the encoding
  split_ifs with one two three
  · have byteValue : (UInt8.ofNat value).toNat = value := by
      rw [UInt8.toNat_ofNat']
      omega
    refine ⟨_, _, rfl, ?_⟩
    rw [readSequence, byteValue, if_pos (by omega)]
    rfl
  · have shape : sequenceShape (value / 64 % 32 + 192) = some (1, 0x80, 0xBF) := by
      rw [sequenceShape, if_pos (by omega)]
    refine ⟨_, _, rfl, readSequence_of_shape (by omega) (by omega) shape ?_⟩
    rw [List.singleton_append, readContinuation_digit rest (by omega) (by omega), readContinuation]
    congr 2
    omega
  · obtain ⟨low, high, shape, inRange⟩ :=
      @exists_shape_three (value / 4096 % 16 + 224) (value / 64 % 64 + 128) (by omega) (by omega)
        (by omega) (by omega)
    refine ⟨_, _, rfl, readSequence_of_shape (by omega) (by omega) shape ?_⟩
    rw [List.cons_append, readContinuation_digit _ (by omega) inRange, List.singleton_append,
      readContinuation_digit _ (by omega) (by omega), readContinuation]
    congr 2
    omega
  · obtain ⟨low, high, shape, inRange⟩ :=
      @exists_shape_four (value / 262144 % 8 + 240) (value / 4096 % 64 + 128) (by omega) (by omega)
        (by omega) (by omega)
    refine ⟨_, _, rfl, readSequence_of_shape (by omega) (by omega) shape ?_⟩
    rw [List.cons_append, readContinuation_digit _ (by omega) inRange, List.cons_append,
      readContinuation_digit _ (by omega) (by omega), List.singleton_append,
      readContinuation_digit _ (by omega) (by omega), readContinuation]
    congr 2
    omega

/-- The bytes of some scalars. -/
def encodeUtf8 (text : List Char) : Bytes := text.flatMap String.utf8EncodeChar

theorem decodeUtf8_encodeUtf8 {bound : ℕ} (text : List Char)
    (enough : (encodeUtf8 text).length ≤ bound) : decodeUtf8 bound (encodeUtf8 text) = text.map some := by
  induction text generalizing bound with
  | nil => simp [encodeUtf8, decodeUtf8]
  | cons char rest ih =>
    obtain ⟨first, behind, encoded, read⟩ := readSequence_utf8EncodeChar char (encodeUtf8 rest)
    have split : encodeUtf8 (char :: rest) = first :: (behind ++ encodeUtf8 rest) := by
      rw [encodeUtf8, List.flatMap_cons, encoded, List.cons_append, encodeUtf8]
    rw [split] at enough ⊢
    cases bound with
    | zero => simp at enough
    | succ bound =>
      simp only [List.length_cons, List.length_append] at enough
      rw [decodeUtf8, read, List.map_cons]
      simp only
      rw [ih (by omega)]

/-- Decoding the bytes of a text gives it back. -/
theorem fromUtf8Lossy_encodeUtf8 (text : List Char) : fromUtf8Lossy (encodeUtf8 text) = text := by
  rw [fromUtf8Lossy, decodeUtf8_encodeUtf8 text le_rfl, List.map_map]
  exact List.map_id text

theorem fromUtf8_encodeUtf8 (text : List Char) : fromUtf8 (encodeUtf8 text) = some text := by
  rw [fromUtf8, decodeUtf8_encodeUtf8 text le_rfl, List.mapM_map]
  exact (List.mapM_pure (m := Option) (f := id)).trans (congrArg some (List.map_id text))

theorem toUTF8_eq_encodeUtf8 (text : String) : text.toUTF8.data.toList = encodeUtf8 text.toList := by
  obtain ⟨chars, rfl⟩ : ∃ chars, text = String.ofList chars := ⟨text.toList, (String.ofList_toList).symm⟩
  rw [String.toUTF8_eq_toByteArray, String.toByteArray_ofList, String.toList_ofList]
  rw [List.utf8Encode, encodeUtf8]
  simp

end Foundation
