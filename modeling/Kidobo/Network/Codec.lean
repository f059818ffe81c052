import Kidobo.Network.Interval
import Kidobo.Network.RoundTrip

/-!
# Canonical networks: text and addresses

Equality of networks decides duplicates and exact removal, so the three readers
must give one network for each spelling, and the interval of a network must hold
the addresses that share its leading bits and no others.

## Main results

* `parsers_agree`: without white space the three readers are one
* `mem_toInterval_iff`: the interval of a network, bit by bit
* `cidr_codec`
-/

namespace Kidobo

open Foundation

/-! ### Reading -/

/-- The prefix length is in the range of the family and the host part is zero. -/
def CanonicalCidr.IsCanonical : CanonicalCidr → Prop
  | v4 cidr => cidr.prefixLen ≤ 32 ∧ cidr.network.toNat % 2 ^ (32 - cidr.prefixLen) = 0
  | v6 cidr => cidr.prefixLen ≤ 128 ∧ cidr.network.toNat % 2 ^ (128 - cidr.prefixLen) = 0

theorem CanonicalCidr.isCanonical (cidr : CanonicalCidr) : cidr.IsCanonical := by
  cases cidr with
  | v4 cidr => exact ⟨cidr.inRange, Nat.mod_eq_zero_of_dvd cidr.blockSize_dvd⟩
  | v6 cidr => exact ⟨cidr.inRange, Nat.mod_eq_zero_of_dvd cidr.blockSize_dvd⟩

/-- On one word without white space the three readers are one. -/
theorem parsers_agree {text : List Char} (plain : ∀ char ∈ text, isWhitespace char = false) :
    parseIpCidrStrict text = parseIpCidrToken text ∧
      parseIpCidrNonStrict text = parseIpCidrToken text := by
  by_cases blank : text = []
  · subst blank
    decide
  · have notEmpty : text.isEmpty = false := by simpa using blank
    have words := splitWhitespace_of_plain blank plain
    constructor
    · simp [parseIpCidrStrict, trim_of_plain plain, notEmpty, words]
    · simp [parseIpCidrNonStrict, words, trim_of_plain plain, notEmpty]

/-! ### The addresses of a network -/

variable {width : ℕ}

/-- The end of the block is reached without a carry out of the word. -/
theorem toNat_network_add_hostMask (cidr : Cidr width) :
    cidr.network.toNat + (hostMask width cidr.prefixLen).toNat < 2 ^ width := by
  rw [toNat_hostMask cidr.inRange]
  exact block_end_lt cidr.inRange rfl cidr.network.isLt cidr.blockSize_dvd

/-- A number is in an aligned block if and only if it has the same quotient. -/
theorem mem_block_iff {size start address : ℕ} (positive : 0 < size) (aligned : size ∣ start) :
    start ≤ address ∧ address ≤ start + (size - 1) ↔ address / size = start / size := by
  obtain ⟨quotient, rfl⟩ := aligned
  rw [Nat.mul_div_cancel_left quotient positive, Nat.div_eq_iff positive, Nat.mul_comm size]
  omega

/-- Two words have the same quotient by a power of two if and only if their bits
in front of that position are the same. -/
theorem div_two_pow_eq_iff {count : ℕ} (inRange : count ≤ width) (left right : BitVec width) :
    left.toNat / 2 ^ (width - count) = right.toNat / 2 ^ (width - count) ↔
      ∀ i < count, left.getMsbD i = right.getMsbD i := by
  have bit (word : BitVec width) (i : ℕ) : (word.toNat / 2 ^ (width - count)).testBit i =
      word.getLsbD (width - count + i) := by
    rw [← Nat.shiftRight_eq_div_pow, Nat.testBit_shiftRight, BitVec.getLsbD]
  constructor
  · intro same i small
    have position : width - 1 - i = width - count + (count - 1 - i) := by omega
    rw [BitVec.getMsbD, BitVec.getMsbD, position, ← bit, ← bit, same]
  · intro same
    apply Nat.eq_of_testBit_eq
    intro i
    rw [bit, bit]
    by_cases inside : i < count
    · -- Position `i` above the host part is bit `count - 1 - i` from the front.
      have front := same (count - 1 - i) (by omega)
      have position : width - 1 - (count - 1 - i) = width - count + i := by omega
      have bound : count - 1 - i < width := by omega
      simpa only [BitVec.getMsbD, position, bound, decide_true, Bool.true_and] using front
    · rw [BitVec.getLsbD_of_ge _ _ (by omega), BitVec.getLsbD_of_ge _ _ (by omega)]

/-- The interval of a network holds the addresses that start with its bits. -/
theorem mem_toInterval_iff (cidr : Cidr width) (address : BitVec width) :
    (toInterval cidr).start ≤ address ∧ address ≤ (toInterval cidr).last ↔
      ∀ i < cidr.prefixLen, address.getMsbD i = cidr.network.getMsbD i := by
  have span := span_toInterval cidr
  have start : (toInterval cidr).start.toNat = cidr.network.toNat := rfl
  have last : (toInterval cidr).last.toNat =
      cidr.network.toNat + (2 ^ (width - cidr.prefixLen) - 1) := congrArg Span.hi span
  rw [BitVec.le_def, BitVec.le_def, start, last,
    mem_block_iff (Nat.two_pow_pos _) cidr.blockSize_dvd, div_two_pow_eq_iff cidr.inRange]

/-- What each of the three readers accepts is canonical, each reads a printed
network back, and they agree on text without white space. The interval of a
network holds the addresses with its leading bits, and its end is the plain sum
of the network and the host mask. -/
theorem cidr_codec :
    (∀ (text : List Char) (cidr : CanonicalCidr), parseIpCidrStrict text = some cidr ∨
      parseIpCidrNonStrict text = some cidr ∨ parseIpCidrToken text = some cidr →
        cidr.IsCanonical) ∧
    (∀ cidr : CanonicalCidr, parseIpCidrStrict cidr.display.toList = some cidr ∧
      parseIpCidrNonStrict cidr.display.toList = some cidr ∧
      parseIpCidrToken cidr.display.toList = some cidr) ∧
    (∀ text : List Char, (∀ char ∈ text, isWhitespace char = false) →
      parseIpCidrStrict text = parseIpCidrToken text ∧
      parseIpCidrNonStrict text = parseIpCidrToken text) ∧
    ∀ (width : ℕ) (cidr : Cidr width),
      (toInterval cidr).last.toNat =
        cidr.network.toNat + (hostMask width cidr.prefixLen).toNat ∧
      ∀ address : BitVec width,
        (toInterval cidr).start ≤ address ∧ address ≤ (toInterval cidr).last ↔
          ∀ i < cidr.prefixLen, address.getMsbD i = cidr.network.getMsbD i := by
  refine ⟨fun _ cidr _ => cidr.isCanonical, ?_, fun _ plain => parsers_agree plain, ?_⟩
  · intro cidr
    have token := parseIpCidrToken_display cidr
    obtain ⟨strict, nonStrict⟩ := parsers_agree fun char member => (plain_display cidr char member).1
    exact ⟨strict.trans token, nonStrict.trans token, token⟩
  · intro width cidr
    refine ⟨?_, mem_toInterval_iff cidr⟩
    have noCarry := toNat_network_add_hostMask cidr
    rw [toInterval, toNat_saturatingAdd]
    omega

end Kidobo
