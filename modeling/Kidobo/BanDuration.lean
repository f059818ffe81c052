import Kidobo.TemporaryBanState

/-!
# Durations of temporary bans

A duration is written as a number of hours or days. It is kept in seconds, and a
deadline is the clock plus the seconds, when the temporary-ban file can hold it.

## Main definitions

* `BanDuration.fromStr`, `BanDuration.display`: reading and printing
* `SpellsSeconds`: the accepted spellings and their values

## Main results

* `fromStr_eq_ok_iff`: what is accepted, and as which duration
* `fromStr_display`: a printed duration is read back
* `banDuration_arithmetic`
-/

namespace Kidobo

open Foundation

/-! ### Reading and printing -/

/-- `strip_suffix` with the letter of a unit: the digits and the seconds of one unit. -/
def stripUnit (text : List Char) : Option (List Char × ℕ) :=
  match text.getLast? with
  | none => none
  | some unit =>
    if unit = 'h' ∨ unit = 'H' then some (text.dropLast, 3600)
    else if unit = 'd' ∨ unit = 'D' then some (text.dropLast, 86400)
    else none

/-- `u64::from_str`, which reads as `usize::from_str` does on a 64-bit target. -/
def parseU64 (text : List Char) : Option ℕ := parseUsize text

/-- `u64::checked_mul`. -/
def checkedMul (left right : ℕ) : Option ℕ :=
  if left * right < 2 ^ 64 then some (left * right) else none

namespace BanDuration

/-- The message of a text that is no duration. -/
def invalidDuration : String :=
  "duration must be a positive whole number of hours or days (for example, 12h or 7d)"

/-- A number of seconds that the persistent format can hold. -/
def ofSeconds (seconds : ℕ) : Option BanDuration :=
  if valid : 0 < seconds ∧ seconds ≤ maxExpiry then some ⟨seconds, valid.1, valid.2⟩ else none

/-- `BanDuration::from_str`. -/
def fromStr (input : List Char) : Except String BanDuration :=
  match stripUnit (trim input) with
  | none => .error invalidDuration
  | some (digits, multiplier) =>
    if digits.isEmpty || !digits.all Char.isDigit then .error invalidDuration
    else
      match ((parseU64 digits).bind fun amount => checkedMul amount multiplier).bind ofSeconds with
      | none => .error invalidDuration
      | some duration => .ok duration

/-- Whole days are printed as days, and everything else as hours. -/
def display (duration : BanDuration) : String :=
  if duration.seconds % 86400 = 0 then s!"{duration.seconds / 86400}d"
  else s!"{duration.seconds / 3600}h"

@[ext] theorem ext {left right : BanDuration} (seconds : left.seconds = right.seconds) :
    left = right := by
  cases left
  cases right
  simp_all

theorem ofSeconds_eq_some_iff {seconds : ℕ} {duration : BanDuration} :
    ofSeconds seconds = some duration ↔ duration.seconds = seconds := by
  unfold ofSeconds
  split_ifs with valid
  · rw [Option.some_inj, BanDuration.ext_iff, eq_comm]
  · constructor
    · intro failed
      cases failed
    · rintro rfl
      exact absurd ⟨duration.positive, duration.bounded⟩ valid

end BanDuration

/-! ### Spellings -/

/-- The number that decimal digits denote, of whatever length. -/
def decimalValue (digits : List Char) : ℕ :=
  ofDigits 10 (digits.map fun digit => digit.toNat - '0'.toNat)

/-- The letters of the units and their seconds. -/
def unitSeconds : List (Char × ℕ) := [('h', 3600), ('H', 3600), ('d', 86400), ('D', 86400)]

/-- A nonempty string of digits and the letter of a unit, whose value is positive
and at most the largest deadline. -/
def SpellsSeconds (text : List Char) (seconds : ℕ) : Prop :=
  ∃ digits unit multiplier, trim text = digits ++ [unit] ∧ digits ≠ [] ∧
    (∀ digit ∈ digits, digit.isDigit = true) ∧ (unit, multiplier) ∈ unitSeconds ∧
    seconds = decimalValue digits * multiplier ∧ 0 < seconds ∧ seconds ≤ maxExpiry

theorem stripUnit_eq_some_iff {text digits : List Char} {multiplier : ℕ} :
    stripUnit text = some (digits, multiplier) ↔
      ∃ unit, text = digits ++ [unit] ∧ (unit, multiplier) ∈ unitSeconds := by
  rcases List.eq_nil_or_concat' text with rfl | ⟨front, unit, rfl⟩
  · simp [stripUnit]
  · simp only [stripUnit, List.getLast?_append, List.getLast?_singleton, Option.some_or,
      List.dropLast_concat]
    constructor
    · intro found
      split_ifs at found with hours days
      · cases found
        exact ⟨unit, rfl, by rcases hours with rfl | rfl <;> decide⟩
      · cases found
        exact ⟨unit, rfl, by rcases days with rfl | rfl <;> decide⟩
    · rintro ⟨other, same, known⟩
      obtain ⟨rfl, sameUnit⟩ := List.append_inj' same rfl
      obtain rfl := List.singleton_inj.mp sameUnit
      simp only [unitSeconds, List.mem_cons, Prod.mk.injEq, List.not_mem_nil, or_false] at known
      rcases known with ⟨rfl, rfl⟩ | ⟨rfl, rfl⟩ | ⟨rfl, rfl⟩ | ⟨rfl, rfl⟩ <;> rfl

/-- A digit is read as its value. -/
theorem toDigit_of_isDigit {char : Char} (isDigit : char.isDigit = true) :
    toDigit 10 char = some (char.toNat - '0'.toNat) := by
  have atMost := (isDigit_iff.mp isDigit).2
  simp only [Char.isDigit, ge_iff_le, Bool.and_eq_true, decide_eq_true_eq] at isDigit
  obtain ⟨low, high⟩ : '0' ≤ char ∧ char ≤ '9' := isDigit
  have zero : '0'.toNat = 48 := rfl
  rw [toDigit, if_pos ⟨low, high⟩, Option.filter_eq_some_iff]
  refine ⟨rfl, ?_⟩
  rw [zero]
  exact decide_eq_true (by omega)

theorem takeDigits_of_isDigit {digits : List Char}
    (allDigits : ∀ digit ∈ digits, digit.isDigit = true) :
    takeDigits 10 digits = (digits.map fun digit => digit.toNat - '0'.toNat, []) := by
  induction digits with
  | nil => rfl
  | cons digit rest ih =>
    obtain ⟨isDigit, restDigits⟩ := List.forall_mem_cons.mp allDigits
    rw [takeDigits, toDigit_of_isDigit isDigit, ih restDigits]
    rfl

/-- A string of digits is read as its value, when a word can hold it. -/
theorem parseU64_of_isDigit {digits : List Char} (nonempty : digits ≠ [])
    (allDigits : ∀ digit ∈ digits, digit.isDigit = true) :
    parseU64 digits = if decimalValue digits < 2 ^ 64 then some (decimalValue digits) else none := by
  have unsigned : digits.head? ≠ some '+' := by
    intro plus
    have isDigit := allDigits '+' (List.mem_of_mem_head? plus)
    exact absurd isDigit (by decide)
  have notEmpty : (digits.map fun digit => digit.toNat - '0'.toNat).isEmpty = false := by
    simpa using nonempty
  unfold parseU64 parseUsize
  dsimp only
  rw [if_neg unsigned, takeDigits_of_isDigit allDigits]
  simp only [notEmpty, List.isEmpty_nil, Bool.not_true, Bool.or_self, Bool.false_eq_true, if_false]
  rfl

namespace BanDuration

/-- A text is read as a duration if and only if it spells its seconds. No check
of a machine word refuses a text that the bound on the seconds allows. -/
theorem fromStr_eq_ok_iff {text : List Char} {duration : BanDuration} :
    fromStr text = .ok duration ↔ SpellsSeconds text duration.seconds := by
  have bounded := duration.bounded
  have positive := duration.positive
  have word : maxExpiry < 2 ^ 64 := by decide
  unfold fromStr
  constructor
  · intro accepted
    split at accepted
    · cases accepted
    next digits multiplier stripped =>
      obtain ⟨unit, split, known⟩ := stripUnit_eq_some_iff.mp stripped
      split_ifs at accepted with malformed
      simp only [Bool.or_eq_true, List.isEmpty_iff, Bool.not_eq_true', not_or,
        Bool.not_eq_false, List.all_eq_true] at malformed
      obtain ⟨nonempty, allDigits⟩ := malformed
      split at accepted
      · cases accepted
      next found computed =>
        cases accepted
        obtain ⟨seconds, product, sameSeconds⟩ := Option.bind_eq_some_iff.mp computed
        obtain ⟨amount, parsed, multiplied⟩ := Option.bind_eq_some_iff.mp product
        rw [parseU64_of_isDigit nonempty allDigits] at parsed
        rw [checkedMul] at multiplied
        split_ifs at parsed multiplied
        cases parsed
        cases multiplied
        rw [ofSeconds_eq_some_iff] at sameSeconds
        exact ⟨digits, unit, multiplier, split, nonempty, allDigits, known, sameSeconds, positive,
          bounded⟩
  · rintro ⟨digits, unit, multiplier, split, nonempty, allDigits, known, value, _, _⟩
    have unitPositive : 0 < multiplier := by
      have everyUnit : ∀ entry ∈ unitSeconds, 0 < entry.2 := by decide
      exact everyUnit _ known
    -- the product fits into a word, so the amount does
    have amountSmall : decimalValue digits ≤ decimalValue digits * multiplier :=
      Nat.le_mul_of_pos_right _ unitPositive
    have parsed := parseU64_of_isDigit nonempty allDigits
    rw [if_pos (by omega)] at parsed
    have multiplied : checkedMul (decimalValue digits) multiplier = some duration.seconds := by
      rw [checkedMul, ← value, if_pos (by omega)]
    have wellFormed : (digits.isEmpty || !digits.all Char.isDigit) = false := by
      simpa [nonempty] using allDigits
    rw [stripUnit_eq_some_iff.mpr ⟨unit, split, known⟩]
    simp only [wellFormed, Bool.false_eq_true, if_false, parsed, Option.bind_some, multiplied,
      ofSeconds_eq_some_iff.mpr rfl]

/-! ### Reading back -/

theorem decimalValue_toDigits (number : ℕ) : decimalValue (Nat.toDigits 10 number) = number := by
  obtain ⟨digits, printed, allSmall, value, -, -⟩ := exists_digits (by decide : 1 < 10) number
  have known : ∀ digit < 10, (Nat.digitChar digit).toNat - '0'.toNat = digit := by decide
  have same : (digits.map Nat.digitChar).map (fun digit => digit.toNat - '0'.toNat) = digits := by
    rw [List.map_map]
    conv_rhs => rw [← List.map_id digits]
    exact List.map_congr_left fun digit member => known digit (allSmall digit member)
  rw [printed, decimalValue, same, value]

/-- Whole seconds of a unit are spelled by their number and the letter of the unit. -/
theorem spellsSeconds_toDigits {unit : Char} {multiplier number : ℕ}
    (known : (unit, multiplier) ∈ unitSeconds) (positive : 0 < number * multiplier)
    (bounded : number * multiplier ≤ maxExpiry) :
    SpellsSeconds (Nat.toDigits 10 number ++ [unit]) (number * multiplier) := by
  have allDigits : ∀ digit ∈ Nat.toDigits 10 number, digit.isDigit = true := by
    intro digit member
    exact Nat.isDigit_of_mem_toDigits (by decide) (by decide) member
  have plainUnit : ∀ entry ∈ unitSeconds, isWhitespace entry.1 = false := by decide
  have plain : ∀ char ∈ Nat.toDigits 10 number ++ [unit], isWhitespace char = false := by
    intro char member
    rcases List.mem_append.mp member with isDigit | isUnit
    · exact isWhitespace_of_isDigit (allDigits char isDigit)
    · obtain rfl := List.mem_singleton.mp isUnit
      exact plainUnit (char, multiplier) known
  exact ⟨_, unit, multiplier, trim_of_plain plain, Nat.toDigits_ne_nil, allDigits, known,
    by rw [decimalValue_toDigits], positive, bounded⟩

theorem toList_display (duration : BanDuration) :
    duration.display.toList =
      if duration.seconds % 86400 = 0 then Nat.toDigits 10 (duration.seconds / 86400) ++ ['d']
      else Nat.toDigits 10 (duration.seconds / 3600) ++ ['h'] := by
  unfold display
  split_ifs
  · simp only [String.toList_append, toList_toString]
    rfl
  · simp only [String.toList_append, toList_toString]
    rfl

/-- A duration that was read is a whole number of hours. -/
theorem whole_hours_of_fromStr {text : List Char} {duration : BanDuration}
    (accepted : fromStr text = .ok duration) : 3600 ∣ duration.seconds := by
  obtain ⟨digits, unit, multiplier, _, _, _, known, value, _⟩ := fromStr_eq_ok_iff.mp accepted
  have hours : ∀ entry ∈ unitSeconds, 3600 ∣ entry.2 := by decide
  rw [value]
  exact Dvd.dvd.mul_left (hours (unit, multiplier) known) _

/-- Printing whole hours loses nothing. -/
theorem fromStr_display {duration : BanDuration} (wholeHours : 3600 ∣ duration.seconds) :
    fromStr duration.display.toList = .ok duration := by
  have positive := duration.positive
  have bounded := duration.bounded
  rw [fromStr_eq_ok_iff, toList_display]
  split_ifs with wholeDays
  · have same := Nat.div_mul_cancel (Nat.dvd_of_mod_eq_zero wholeDays)
    have spelled := @spellsSeconds_toDigits 'd' 86400 (duration.seconds / 86400) (by decide)
    rw [same] at spelled
    exact spelled positive bounded
  · have same := Nat.div_mul_cancel wholeHours
    have spelled := @spellsSeconds_toDigits 'h' 3600 (duration.seconds / 3600) (by decide)
    rw [same] at spelled
    exact spelled positive bounded

/-! ### Deadlines -/

/-- A deadline is the plain sum, and there is none if and only if the sum is
beyond the largest one. -/
theorem expiresAt_eq (duration : BanDuration) (now : ℕ) :
    (maxExpiry < now + duration.seconds → ∃ message, duration.expiresAt now = .error message) ∧
    (now + duration.seconds ≤ maxExpiry → duration.expiresAt now = .ok (now + duration.seconds) ∧
      validateExpiry (now + duration.seconds) = .ok ((now + duration.seconds : ℕ) : ℤ)) := by
  have positive := duration.positive
  unfold expiresAt
  constructor
  · intro beyond
    exact ⟨_, if_neg fun fits => absurd fits.1 (not_le.mpr beyond)⟩
  · intro fits
    exact ⟨if_pos ⟨fits, by omega⟩, if_pos ⟨fits, by omega⟩⟩

end BanDuration

/-- A text is accepted as a duration of exactly the seconds that it spells, every
accepted duration is read back from its printed form, and a deadline is the sum
of the clock and the seconds, which the temporary-ban file takes, or is refused
because that sum is beyond the largest deadline. -/
theorem banDuration_arithmetic :
    (∀ (text : List Char) (seconds : ℕ),
      (∃ duration, BanDuration.fromStr text = .ok duration ∧ duration.seconds = seconds) ↔
        SpellsSeconds text seconds) ∧
    (∀ (text : List Char) (duration : BanDuration), BanDuration.fromStr text = .ok duration →
      BanDuration.fromStr duration.display.toList = .ok duration) ∧
    ∀ (duration : BanDuration) (now : ℕ),
      ((∃ message, duration.expiresAt now = .error message) ↔ maxExpiry < now + duration.seconds) ∧
      ∀ deadline, duration.expiresAt now = .ok deadline →
        deadline = now + duration.seconds ∧ validateExpiry deadline = .ok (deadline : ℤ) := by
  refine ⟨?_, ?_, ?_⟩
  · intro text seconds
    constructor
    · rintro ⟨duration, accepted, rfl⟩
      exact BanDuration.fromStr_eq_ok_iff.mp accepted
    · intro spelled
      obtain ⟨_, _, _, _, _, _, _, _, positive, bounded⟩ := id spelled
      exact ⟨⟨seconds, positive, bounded⟩, BanDuration.fromStr_eq_ok_iff.mpr spelled, rfl⟩
  · intro text duration accepted
    exact BanDuration.fromStr_display (BanDuration.whole_hours_of_fromStr accepted)
  · intro duration now
    obtain ⟨refused, granted⟩ := duration.expiresAt_eq now
    by_cases fits : now + duration.seconds ≤ maxExpiry
    · obtain ⟨isDeadline, stored⟩ := granted fits
      have notRefused : ¬∃ message, duration.expiresAt now = .error message := by
        rw [isDeadline]
        intro ⟨_, failed⟩
        cases failed
      refine ⟨iff_of_false notRefused (not_lt.mpr fits), ?_⟩
      rw [isDeadline]
      intro deadline same
      cases same
      exact ⟨rfl, stored⟩
    · obtain ⟨message, failed⟩ := refused (not_le.mp fits)
      rw [failed]
      refine ⟨iff_of_true ⟨message, rfl⟩ (not_le.mp fits), ?_⟩
      intro deadline same
      cases same

example : (BanDuration.fromStr "024h".toList).toOption.map BanDuration.display = some "1d" := by
  decide +kernel

end Kidobo
