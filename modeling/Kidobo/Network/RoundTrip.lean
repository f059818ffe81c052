import Kidobo.Network.Notation

/-!
# Reading printed networks back

A printed number is read back when no digit follows it. From this the octets of
an IPv4 address, the groups of an IPv6 address on either side of its compressed
zeros, and a network with its prefix length are read back in turn.

## Main results

* `readNumber_toDigits`: a printed number is read back
* `readIpv4Addr_displayIpv4`, `readIpv6Addr_displayIpv6`
* `parseIpCidrStrict_display`: a printed network is read back
-/

namespace Kidobo

open Foundation

/-! ### Numbers -/

/-- No digit of this radix stands in front. -/
def NoDigitAhead (radix : ℕ) (text : List Char) : Prop :=
  ∀ char, text.head? = some char → toDigit radix char = none

theorem noDigitAhead_nil (radix : ℕ) : NoDigitAhead radix [] := by
  intro char isFirst
  simp at isFirst

theorem noDigitAhead_cons {radix : ℕ} {first : Char} (rest : List Char)
    (noDigit : toDigit radix first = none) : NoDigitAhead radix (first :: rest) := by
  intro char isFirst
  rw [List.head?_cons, Option.some.injEq] at isFirst
  rw [← isFirst, noDigit]

theorem toDigit_digitChar {radix digit : ℕ} (small : digit < radix) (hexadecimal : radix ≤ 16) :
    toDigit radix (Nat.digitChar digit) = some digit := by
  have known : ∀ value < 16, toDigit 16 (Nat.digitChar value) = some value := by decide
  have inHex := known digit (by omega)
  unfold toDigit at inHex ⊢
  dsimp only at inHex ⊢
  rw [Option.filter_eq_some_iff] at inHex ⊢
  exact ⟨inHex.1, by simpa using small⟩

theorem ofDigits_append_singleton (radix : ℕ) (digits : List ℕ) (last : ℕ) :
    ofDigits radix (digits ++ [last]) = ofDigits radix digits * radix + last := by
  simp [ofDigits]

/-- The digits of a printed number: they are small, denote the number, and start
with zero for zero only. -/
theorem exists_digits {radix : ℕ} (large : 1 < radix) (number : ℕ) :
    ∃ digits : List ℕ, Nat.toDigits radix number = digits.map Nat.digitChar ∧
      (∀ digit ∈ digits, digit < radix) ∧ ofDigits radix digits = number ∧ digits ≠ [] ∧
      (digits.head? = some 0 → digits = [0]) := by
  induction number using Nat.strong_induction_on with
  | h number ih =>
    rw [Nat.toDigits_eq_if large]
    split_ifs with small
    · refine ⟨[number], rfl, by simpa using small, by simp [ofDigits], by simp, ?_⟩
      intro zeroFirst
      rw [List.head?_cons, Option.some.injEq] at zeroFirst
      rw [zeroFirst]
    · have positive : 0 < radix := by omega
      obtain ⟨digits, printed, allSmall, value, nonempty, leading⟩ :=
        ih (number / radix) (Nat.div_lt_self (by omega) large)
      refine ⟨digits ++ [number % radix], by simp [printed], ?_, ?_, by simp, ?_⟩
      · intro digit member
        rcases List.mem_append.mp member with inFront | isLast
        · exact allSmall digit inFront
        · rw [List.mem_singleton.mp isLast]
          exact Nat.mod_lt _ positive
      · rw [ofDigits_append_singleton, value, Nat.mul_comm, Nat.div_add_mod]
      · -- A leading zero would make the quotient zero.
        intro zeroFirst
        rw [List.head?_append_of_ne_nil _ nonempty] at zeroFirst
        rw [leading zeroFirst] at value
        have quotient : number / radix = 0 := by simpa [ofDigits] using value.symm
        have := (Nat.div_eq_zero_iff_lt positive).mp quotient
        omega

theorem takeDigits_digits {radix : ℕ} (hexadecimal : radix ≤ 16) {digits : List ℕ}
    (allSmall : ∀ digit ∈ digits, digit < radix) {rest : List Char}
    (ends : NoDigitAhead radix rest) :
    takeDigits radix (digits.map Nat.digitChar ++ rest) = (digits, rest) := by
  induction digits with
  | nil =>
    cases rest with
    | nil => rfl
    | cons char rest => simp [takeDigits, ends char rfl]
  | cons digit digits ih =>
    obtain ⟨small, restSmall⟩ := List.forall_mem_cons.mp allSmall
    rw [List.map_cons, List.cons_append, takeDigits, toDigit_digitChar small hexadecimal]
    simp [ih restSmall]

/-- A printed number is read back when no digit follows. -/
theorem readNumber_toDigits {radix maxDigits bound number : ℕ} (allowZeroPrefix : Bool)
    (large : 1 < radix) (hexadecimal : radix ≤ 16) (inBound : number < bound)
    (someDigits : 0 < maxDigits) (short : number < radix ^ maxDigits) {rest : List Char}
    (ends : NoDigitAhead radix rest) :
    readNumber radix maxDigits allowZeroPrefix bound (Nat.toDigits radix number ++ rest) =
      some (number, rest) := by
  have lengthBound := (Nat.length_toDigits_le_iff large someDigits).mpr short
  obtain ⟨digits, printed, allSmall, value, nonempty, leading⟩ := exists_digits large number
  rw [printed, List.length_map] at lengthBound
  have notEmpty : digits.isEmpty = false := by simpa using nonempty
  have notLong : decide (maxDigits < digits.length) = false := by simpa using lengthBound
  have noZeroPrefix :
      (!allowZeroPrefix && digits.head? == some 0 && decide (1 < digits.length)) = false := by
    by_cases zeroFirst : digits.head? = some 0
    · simp [leading zeroFirst]
    · simp [zeroFirst]
  rw [printed]
  unfold readNumber
  rw [takeDigits_digits hexadecimal allSmall ends]
  simp [notEmpty, notLong, noZeroPrefix, value, inBound]

theorem toList_toString (number : ℕ) : (toString number).toList = Nat.toDigits 10 number := by
  simp

/-! ### IPv4 addresses -/

theorem readSeparator_zero {α : Type} (separator : Char) (inner : Reader α) (text : List Char) :
    readSeparator separator 0 inner text = inner text := rfl

theorem readSeparator_succ {α : Type} (separator : Char) (index : ℕ) (inner : Reader α)
    (text : List Char) :
    readSeparator separator (index + 1) inner (separator :: text) = inner text := by
  simp [readSeparator, readGivenChar]

theorem readSeparator_of_head {α : Type} {separator : Char} {index : ℕ} {inner : Reader α}
    {text : List Char} (later : index ≠ 0) (missing : text.head? ≠ some separator) :
    readSeparator separator index inner text = none := by
  unfold readSeparator
  rw [if_neg later]
  cases text with
  | nil => rfl
  | cons char rest =>
    rw [List.head?_cons, ne_eq, Option.some.injEq] at missing
    simp [readGivenChar, missing]

theorem noDigitAhead_dot (rest : List Char) : NoDigitAhead 10 ('.' :: rest) :=
  noDigitAhead_cons rest (by decide)

theorem readOctet {number : ℕ} (small : number < 256) {rest : List Char}
    (ends : NoDigitAhead 10 rest) :
    readNumber 10 3 false 256 (Nat.toDigits 10 number ++ rest) = some (number, rest) :=
  readNumber_toDigits false (by decide) (by decide) small (by decide) (by omega) ends

theorem readOctets_of_octet {index count value octet : ℕ} {text rest : List Char}
    (read : readSeparator '.' index (readNumber 10 3 false 256) text = some (octet, rest)) :
    readOctets index (count + 1) value text =
      readOctets (index + 1) count (value * 256 + octet) rest := by
  simp [readOctets, read]

theorem readOctets_of_none {index count value : ℕ} {text : List Char}
    (failed : readSeparator '.' index (readNumber 10 3 false 256) text = none) :
    readOctets index (count + 1) value text = none := by
  simp [readOctets, failed]

theorem toList_displayIpv4 (address : BitVec 32) :
    (displayIpv4 address).toList =
      Nat.toDigits 10 (address.toNat / 2 ^ 24 % 256) ++ '.' ::
        (Nat.toDigits 10 (address.toNat / 2 ^ 16 % 256) ++ '.' ::
          (Nat.toDigits 10 (address.toNat / 2 ^ 8 % 256) ++ '.' ::
            Nat.toDigits 10 (address.toNat / 2 ^ 0 % 256))) := by
  simp [displayIpv4, String.intercalate_cons_cons]

theorem readIpv4Addr_octets {first second third fourth : ℕ} (firstSmall : first < 256)
    (secondSmall : second < 256) (thirdSmall : third < 256) (fourthSmall : fourth < 256)
    {rest : List Char} (ends : NoDigitAhead 10 rest) :
    readIpv4Addr (Nat.toDigits 10 first ++ '.' :: (Nat.toDigits 10 second ++
        '.' :: (Nat.toDigits 10 third ++ '.' :: (Nat.toDigits 10 fourth ++ rest)))) =
      some (((first * 256 + second) * 256 + third) * 256 + fourth, rest) := by
  have firstRead := readOctet firstSmall (noDigitAhead_dot (Nat.toDigits 10 second ++
    '.' :: (Nat.toDigits 10 third ++ '.' :: (Nat.toDigits 10 fourth ++ rest))))
  have secondRead := (readSeparator_succ '.' 0 _ _).trans (readOctet secondSmall
    (noDigitAhead_dot (Nat.toDigits 10 third ++ '.' :: (Nat.toDigits 10 fourth ++ rest))))
  have thirdRead := (readSeparator_succ '.' 1 _ _).trans
    (readOctet thirdSmall (noDigitAhead_dot (Nat.toDigits 10 fourth ++ rest)))
  have fourthRead := (readSeparator_succ '.' 2 _ _).trans (readOctet fourthSmall ends)
  rw [readIpv4Addr, readOctets_of_octet ((readSeparator_zero '.' _ _).trans firstRead),
    readOctets_of_octet secondRead, readOctets_of_octet thirdRead, readOctets_of_octet fourthRead]
  simp [readOctets]

/-- A printed IPv4 address is read back when no digit follows. -/
theorem readIpv4Addr_displayIpv4 (address : BitVec 32) {rest : List Char}
    (ends : NoDigitAhead 10 rest) :
    readIpv4Addr ((displayIpv4 address).toList ++ rest) = some (address.toNat, rest) := by
  have small := address.isLt
  rw [toList_displayIpv4]
  simp only [List.append_assoc, List.cons_append]
  rw [readIpv4Addr_octets (Nat.mod_lt _ (by decide)) (Nat.mod_lt _ (by decide))
    (Nat.mod_lt _ (by decide)) (Nat.mod_lt _ (by decide)) ends]
  congr 2
  omega

/-! ### IPv6 addresses -/

/-- Groups separated by colons, as text. -/
def groupsText : List ℕ → List Char
  | [] => []
  | [group] => Nat.toDigits 16 group
  | group :: second :: rest => Nat.toDigits 16 group ++ ':' :: groupsText (second :: rest)

theorem toList_displayGroups (groups : List ℕ) :
    (displayGroups groups).toList = groupsText groups := by
  induction groups with
  | nil => simp [displayGroups, groupsText]
  | cons group rest ih =>
    cases rest with
    | nil => simp [displayGroups, groupsText]
    | cons second rest =>
      rw [groupsText, ← ih]
      simp [displayGroups, String.intercalate_cons_cons]

/-- No hexadecimal digit and no dot stands in front. -/
def GroupEnds (text : List Char) : Prop := NoDigitAhead 16 text ∧ text.head? ≠ some '.'

theorem groupEnds_colon (rest : List Char) : GroupEnds (':' :: rest) :=
  ⟨noDigitAhead_cons rest (by decide), by simp⟩

/-- A decimal digit is a hexadecimal one. -/
theorem NoDigitAhead.decimal {text : List Char} (ends : NoDigitAhead 16 text) :
    NoDigitAhead 10 text := by
  intro char isFirst
  have noHex := ends char isFirst
  unfold toDigit at noHex ⊢
  dsimp only at noHex ⊢
  rw [Option.filter_eq_none_iff] at noHex ⊢
  intro value isValue small
  exact noHex value isValue (by simp only [decide_eq_true_eq] at small ⊢; omega)

theorem readGroup {group : ℕ} (small : group < 65536) {rest : List Char}
    (ends : NoDigitAhead 16 rest) :
    readNumber 16 4 true 65536 (Nat.toDigits 16 group ++ rest) = some (group, rest) :=
  readNumber_toDigits true (by decide) (by decide) small (by decide) (by omega) ends

/-- The text behind the leading decimal digits of hexadecimal digits does not
start with a dot. -/
theorem head?_takeDigits_ne_dot {digits : List ℕ} (hexadecimal : ∀ digit ∈ digits, digit < 16)
    {rest : List Char} (ends : GroupEnds rest) :
    (takeDigits 10 (digits.map Nat.digitChar ++ rest)).2.head? ≠ some '.' := by
  induction digits with
  | nil =>
    cases rest with
    | nil => simp [takeDigits]
    | cons char rest =>
      have noDigit := ends.1.decimal char rfl
      simpa [takeDigits, noDigit] using ends.2
  | cons digit digits ih =>
    obtain ⟨small, restSmall⟩ := List.forall_mem_cons.mp hexadecimal
    rw [List.map_cons, List.cons_append, takeDigits]
    cases toDigit 10 (Nat.digitChar digit) with
    | none =>
      have notDot : ∀ value < 16, Nat.digitChar value ≠ '.' := by decide
      simp [notDot digit small]
    | some value => exact ih restSmall

/-- The text behind a number is the text behind its digits. -/
theorem readNumber_rest {radix maxDigits bound number : ℕ} {allowZeroPrefix : Bool}
    {text rest : List Char}
    (read : readNumber radix maxDigits allowZeroPrefix bound text = some (number, rest)) :
    rest = (takeDigits radix text).2 := by
  unfold readNumber at read
  dsimp only at read
  split_ifs at read
  exact (Prod.mk.inj (Option.some.inj read)).2.symm

/-- A text whose leading digits are not followed by a dot is no IPv4 address. -/
theorem readIpv4Addr_eq_none {text : List Char}
    (noDot : (takeDigits 10 text).2.head? ≠ some '.') : readIpv4Addr text = none := by
  cases read : readNumber 10 3 false 256 text with
  | none => exact readOctets_of_none ((readSeparator_zero '.' _ _).trans read)
  | some result =>
    obtain ⟨octet, rest⟩ := result
    rw [← readNumber_rest read] at noDot
    rw [readIpv4Addr, readOctets_of_octet ((readSeparator_zero '.' _ _).trans read)]
    exact readOctets_of_none (readSeparator_of_head (by decide) noDot)

/-- A printed group is no IPv4 address. -/
theorem readIpv4Addr_group (group : ℕ) {rest : List Char} (ends : GroupEnds rest) :
    readIpv4Addr (Nat.toDigits 16 group ++ rest) = none := by
  obtain ⟨digits, printed, allSmall, -⟩ := exists_digits (by decide : 1 < 16) group
  rw [printed]
  exact readIpv4Addr_eq_none (head?_takeDigits_ne_dot allSmall ends)

theorem readNumber_eq_none {radix maxDigits bound : ℕ} {allowZeroPrefix : Bool} {text : List Char}
    (ends : NoDigitAhead radix text) :
    readNumber radix maxDigits allowZeroPrefix bound text = none := by
  have noDigits : takeDigits radix text = ([], text) := by
    cases text with
    | nil => rfl
    | cons char rest => simp [takeDigits, ends char rfl]
  simp [readNumber, noDigits]

theorem readIpv4Addr_of_ends {text : List Char} (ends : GroupEnds text) :
    readIpv4Addr text = none :=
  readOctets_of_none ((readSeparator_zero '.' _ _).trans (readNumber_eq_none ends.1.decimal))

/-- The groups end here: another colon does not introduce a group. -/
def GroupsEnd (text : List Char) : Prop :=
  GroupEnds text ∧ (text.head? = some ':' → ∃ rest, text = ':' :: ':' :: rest)

/-- Nothing is read where the groups end. -/
theorem readGroups_of_ends (limit index remaining : ℕ) {text : List Char} (ends : GroupsEnd text) :
    readGroups limit index remaining text = ([], false, text) := by
  have noItem : ∀ {α : Type} (inner : Reader α), (∀ rest, GroupEnds rest → inner rest = none) →
      readSeparator ':' index inner text = none := by
    intro α inner fails
    by_cases first : index = 0
    · subst first
      exact fails text ends.1
    · by_cases colon : text.head? = some ':'
      · obtain ⟨rest, rfl⟩ := ends.2 colon
        rw [readSeparator, if_neg first]
        exact fails _ (groupEnds_colon rest)
      · exact readSeparator_of_head first colon
  have noAddress := noItem readIpv4Addr fun rest restEnds => readIpv4Addr_of_ends restEnds
  have noGroup := noItem (readNumber 16 4 true 65536) fun rest restEnds =>
    readNumber_eq_none restEnds.1
  cases remaining with
  | zero => rfl
  | succ remaining => simp [readGroups, noAddress, noGroup]

/-- The text of a group with its separator. -/
def groupItem (index group : ℕ) : List Char :=
  if index = 0 then Nat.toDigits 16 group else ':' :: Nat.toDigits 16 group

theorem readSeparator_groupItem {α : Type} (index group : ℕ) (inner : Reader α)
    (rest : List Char) :
    readSeparator ':' index inner (groupItem index group ++ rest) =
      inner (Nat.toDigits 16 group ++ rest) := by
  cases index with
  | zero => rfl
  | succ index => exact readSeparator_succ ':' index inner _

/-- A printed group is read, and the reading goes on behind it. -/
theorem readGroups_item (limit index remaining : ℕ) {group : ℕ} (small : group < 65536)
    {rest : List Char} (ends : GroupEnds rest) :
    readGroups limit index (remaining + 1) (groupItem index group ++ rest) =
      (group :: (readGroups limit (index + 1) remaining rest).1,
        (readGroups limit (index + 1) remaining rest).2) := by
  rw [readGroups, readSeparator_groupItem, readSeparator_groupItem, readIpv4Addr_group group ends,
    readGroup small ends.1]
  simp

/-- The text of groups from this index on. -/
def groupItems : ℕ → List ℕ → List Char
  | _, [] => []
  | index, group :: rest => groupItem index group ++ groupItems (index + 1) rest

theorem groupsText_eq_groupItems (groups : List ℕ) : groupsText groups = groupItems 0 groups := by
  have later : ∀ (rest : List ℕ) (index group : ℕ),
      groupsText (group :: rest) = Nat.toDigits 16 group ++ groupItems (index + 1) rest := by
    intro rest
    induction rest with
    | nil => intro index group; simp [groupsText, groupItems]
    | cons second rest ih =>
      intro index group
      rw [groupsText, ih (index + 1) second, groupItems, groupItem, if_neg (Nat.succ_ne_zero _)]
      rfl
  cases groups with
  | nil => rfl
  | cons group rest => exact later rest 0 group

theorem groupEnds_groupItems (index : ℕ) (groups : List ℕ) {rest : List Char}
    (ends : GroupEnds rest) : GroupEnds (groupItems (index + 1) groups ++ rest) := by
  cases groups with
  | nil => exact ends
  | cons group groups =>
    rw [groupItems, groupItem, if_neg (Nat.succ_ne_zero _)]
    exact groupEnds_colon _

/-- Printed groups are read up to where they end. -/
theorem readGroups_groupItems (limit index remaining : ℕ) {groups : List ℕ}
    (small : ∀ group ∈ groups, group < 65536) (enough : groups.length ≤ remaining)
    {rest : List Char} (ends : GroupEnds rest)
    (stops : groups.length = remaining ∨ GroupsEnd rest) :
    readGroups limit index remaining (groupItems index groups ++ rest) = (groups, false, rest) := by
  induction groups generalizing index remaining with
  | nil =>
    rcases stops with full | groupsEnd
    · rw [List.length_nil] at full
      subst full
      rfl
    · exact readGroups_of_ends limit index remaining groupsEnd
  | cons group groups ih =>
    obtain ⟨groupSmall, restSmall⟩ := List.forall_mem_cons.mp small
    obtain ⟨later, rfl⟩ : ∃ later, remaining = later + 1 := ⟨remaining - 1, by
      rw [List.length_cons] at enough
      omega⟩
    rw [List.length_cons] at enough stops
    have read := ih (index + 1) later restSmall (by omega)
      (stops.imp (fun full => by omega) id)
    rw [groupItems, List.append_assoc,
      readGroups_item limit index later groupSmall (groupEnds_groupItems index groups ends), read]

/-- Eight printed groups are an address. -/
theorem readIpv6Addr_eight {groups : List ℕ} (eight : groups.length = 8)
    (small : ∀ group ∈ groups, group < 65536) {rest : List Char} (ends : GroupEnds rest) :
    readIpv6Addr (groupsText groups ++ rest) = some (ofDigits 65536 groups, rest) := by
  have read := readGroups_groupItems 8 0 8 small (Nat.le_of_eq eight) ends (Or.inl eight)
  rw [groupsText_eq_groupItems]
  simp [readIpv6Addr, read, eight]

/-- Groups on both sides of compressed zeros are an address. -/
theorem readIpv6Addr_compressed {front back : List ℕ} (short : front.length + back.length < 7)
    (frontSmall : ∀ group ∈ front, group < 65536) (backSmall : ∀ group ∈ back, group < 65536)
    {rest : List Char} (ends : GroupsEnd rest) :
    readIpv6Addr (groupsText front ++ ':' :: ':' :: (groupsText back ++ rest)) =
      some (ofDigits 65536 (front ++ List.replicate (8 - front.length - back.length) 0 ++ back),
        rest) := by
  have frontRead := readGroups_groupItems 8 0 8 frontSmall (by omega)
    (groupEnds_colon (':' :: (groupItems 0 back ++ rest)))
    (Or.inr ⟨groupEnds_colon _, fun _ => ⟨_, rfl⟩⟩)
  have backRead := readGroups_groupItems (8 - (front.length + 1)) 0 (8 - (front.length + 1))
    backSmall (by omega) ends.1 (Or.inr ends)
  have sameLimit : 8 - (front.length + 1) = 7 - front.length := by omega
  rw [sameLimit] at backRead
  rw [groupsText_eq_groupItems, groupsText_eq_groupItems]
  have notEight : front.length ≠ 8 := by omega
  simp [readIpv6Addr, frontRead, backRead, notEight, readGivenChar]

/-- The dotted tail behind `::ffff:` gives the last two groups. -/
theorem readIpv6Addr_mapped (address : BitVec 32) {rest : List Char}
    (ends : NoDigitAhead 10 rest) :
    readIpv6Addr ("::ffff:".toList ++ ((displayIpv4 address).toList ++ rest)) =
      some (ofDigits 65536
        [0, 0, 0, 0, 0, 65535, address.toNat / 65536, address.toNat % 65536], rest) := by
  have dotted := readIpv4Addr_displayIpv4 address ends
  have noFront := readGroups_groupItems 8 0 8 (by simp : ∀ group ∈ ([] : List ℕ), group < 65536)
    (by decide) (groupEnds_colon (':' :: 'f' :: 'f' :: 'f' :: 'f' :: ':' ::
      ((displayIpv4 address).toList ++ rest))) (Or.inr ⟨groupEnds_colon _, fun _ => ⟨_, rfl⟩⟩)
  have marker : ('f' :: 'f' :: 'f' :: 'f' :: ':' :: ((displayIpv4 address).toList ++ rest)) =
      groupItem 0 65535 ++ (':' :: ((displayIpv4 address).toList ++ rest)) := by
    rw [show groupItem 0 65535 = ['f', 'f', 'f', 'f'] by decide]
    simp
  have tail : readGroups 7 1 6 (':' :: ((displayIpv4 address).toList ++ rest)) =
      ([address.toNat / 65536, address.toNat % 65536], true, rest) := by
    rw [readGroups, readSeparator_succ, dotted]
    simp
  have back := readGroups_item 7 0 6 (by decide : 65535 < 65536)
    (groupEnds_colon ((displayIpv4 address).toList ++ rest))
  rw [tail] at back
  have text : "::ffff:".toList ++ ((displayIpv4 address).toList ++ rest) =
      ':' :: ':' :: 'f' :: 'f' :: 'f' :: 'f' :: ':' :: ((displayIpv4 address).toList ++ rest) := by
    simp
  rw [groupItems, List.nil_append] at noFront
  rw [text, readIpv6Addr, noFront]
  simp only [List.length_nil, readGivenChar, Option.bind_some, if_true]
  rw [marker, back]
  rfl

/-- The digits of an address to the base of its groups. -/
theorem ofDigits_ipv6Groups (address : BitVec 128) :
    ofDigits 65536 (ipv6Groups address) = address.toNat := by
  have next : ∀ shift, address.toNat / 2 ^ (shift + 16) * 65536 + address.toNat / 2 ^ shift % 65536 =
      address.toNat / 2 ^ shift := by
    intro shift
    rw [pow_add, ← Nat.div_div_eq_div_mul]
    exact Nat.div_add_mod' _ _
  have top : address.toNat / 2 ^ 112 % 65536 = address.toNat / 2 ^ 112 := by
    have small := address.isLt
    omega
  simp only [ofDigits, ipv6Groups, List.map_cons, List.map_nil, List.foldl_cons, List.foldl_nil,
    Nat.zero_mul, Nat.zero_add]
  rw [top, next 96, next 80, next 64, next 48, next 32, next 16, next 0, pow_zero, Nat.div_one]

theorem ipv6Groups_small (address : BitVec 128) : ∀ group ∈ ipv6Groups address, group < 65536 := by
  intro group member
  obtain ⟨shift, _, rfl⟩ := List.mem_map.mp member
  exact Nat.mod_lt _ (by decide)

@[simp] theorem length_ipv6Groups (address : BitVec 128) : (ipv6Groups address).length = 8 := by
  simp [ipv6Groups]

/-! ### The longest run of zeros -/

/-- A run of zeros inside these groups. -/
def ZeroRun (groups : List ℕ) (run : ℕ × ℕ) : Prop :=
  ∃ before behind, groups = before ++ List.replicate run.2 0 ++ behind ∧ before.length = run.1

/-- A run of zeros that reaches the end of these groups. -/
def ZeroEnd (groups : List ℕ) (run : ℕ × ℕ) : Prop :=
  run.2 = 0 ∨ ∃ before, groups = before ++ List.replicate run.2 0 ∧ before.length = run.1

theorem ZeroRun.append {groups : List ℕ} {run : ℕ × ℕ} (zeros : ZeroRun groups run)
    (later : List ℕ) : ZeroRun (groups ++ later) run := by
  obtain ⟨before, behind, split, start⟩ := zeros
  exact ⟨before, behind ++ later, by rw [split, List.append_assoc], start⟩

/-- Another zero prolongs the run that reaches the end. -/
theorem ZeroEnd.prolonged {seen : List ℕ} {current : ℕ × ℕ} (reached : ZeroEnd seen current) :
    let next := if current.2 = 0 then (seen.length, 1) else (current.1, current.2 + 1)
    ∃ before, seen ++ [0] = before ++ List.replicate next.2 0 ∧ before.length = next.1 := by
  intro next
  by_cases fresh : current.2 = 0
  · have isNext : next = (seen.length, 1) := if_pos fresh
    rw [isNext]
    exact ⟨seen, rfl, rfl⟩
  · have isNext : next = (current.1, current.2 + 1) := if_neg fresh
    rw [isNext]
    rcases reached with empty | ⟨before, split, start⟩
    · exact absurd empty fresh
    · have grown : seen ++ [0] = before ++ List.replicate (current.2 + 1) 0 := by
        conv_lhs => rw [split]
        rw [List.append_assoc, List.replicate_succ']
      exact ⟨before, grown, start⟩

/-- The run that was found is a run of zeros. -/
theorem zeroRun_longestZeroRun {seen rest : List ℕ} {longest current : ℕ × ℕ}
    (found : ZeroRun seen longest) (reached : ZeroEnd seen current) :
    ZeroRun (seen ++ rest) (longestZeroRun seen.length longest current rest) := by
  induction rest generalizing seen longest current with
  | nil =>
    rw [List.append_nil]
    exact found
  | cons group rest ih =>
    have split : seen ++ group :: rest = (seen ++ [group]) ++ rest := by simp
    have length : seen.length + 1 = (seen ++ [group]).length := by simp
    rw [split, longestZeroRun, length]
    by_cases zero : group = 0
    · rw [if_pos zero]
      subst zero
      have prolonged := reached.prolonged
      dsimp only at prolonged ⊢
      generalize (if current.2 = 0 then (seen.length, 1) else (current.1, current.2 + 1)) = next
        at prolonged ⊢
      obtain ⟨before, split, start⟩ := prolonged
      apply ih _ (Or.inr ⟨before, split, start⟩)
      by_cases longer : longest.2 < next.2
      · rw [if_pos longer]
        exact ⟨before, [], by rw [List.append_nil, split], start⟩
      · rw [if_neg longer]
        exact found.append [0]
    · rw [if_neg zero]
      exact ih (found.append [group]) (Or.inl rfl)

/-- Printing with compressed zeros cuts the groups at a run of zeros. -/
theorem groups_eq_of_zeroRun {groups : List ℕ} {run : ℕ × ℕ} (zeros : ZeroRun groups run) :
    groups = groups.take run.1 ++ List.replicate run.2 0 ++ groups.drop (run.1 + run.2) ∧
      run.1 + run.2 ≤ groups.length := by
  obtain ⟨before, behind, split, start⟩ := zeros
  have front : groups.take run.1 = before := by
    rw [split, ← start, List.append_assoc, List.take_left']
    rfl
  have back : groups.drop (run.1 + run.2) = behind := by
    rw [split, List.drop_left']
    rw [List.length_append, List.length_replicate, start]
  constructor
  · rw [front, back]
    exact split
  · rw [split, List.length_append, List.length_append, List.length_replicate, start]
    omega

/-- The groups of an IPv4-mapped address end with those of the IPv4 address. -/
theorem ipv6Groups_mapped {address : BitVec 128}
    (mapped : (ipv6Groups address).take 6 = [0, 0, 0, 0, 0, 65535]) :
    ipv6Groups address = [0, 0, 0, 0, 0, 65535, (address.setWidth 32).toNat / 65536,
      (address.setWidth 32).toNat % 65536] := by
  have split := List.take_append_drop 6 (ipv6Groups address)
  have back : (ipv6Groups address).drop 6 =
      [(address.setWidth 32).toNat / 65536, (address.setWidth 32).toNat % 65536] := by
    have high : address.toNat / 2 ^ 16 % 65536 = address.toNat % 2 ^ 32 / 65536 := by omega
    have low : address.toNat / 2 ^ 0 % 65536 = address.toNat % 2 ^ 32 % 65536 := by omega
    rw [BitVec.toNat_setWidth, ← high, ← low]
    rfl
  rw [mapped, back] at split
  exact split.symm

/-- A printed IPv6 address is read back when the groups end behind it. -/
theorem readIpv6Addr_displayIpv6 (address : BitVec 128) {rest : List Char}
    (ends : GroupsEnd rest) :
    readIpv6Addr ((displayIpv6 address).toList ++ rest) = some (address.toNat, rest) := by
  have value := ofDigits_ipv6Groups address
  have small := ipv6Groups_small address
  unfold displayIpv6
  dsimp only
  split_ifs with mapped compressed
  · -- An IPv4-mapped address keeps its last 32 bits.
    rw [String.toList_append, List.append_assoc, readIpv6Addr_mapped _ ends.1.1.decimal,
      ← ipv6Groups_mapped mapped, value]
  · have run : ZeroRun (ipv6Groups address) (longestZeroRun 0 (0, 0) (0, 0) (ipv6Groups address)) :=
      @zeroRun_longestZeroRun [] _ _ _ ⟨[], [], rfl, rfl⟩ (Or.inl rfl)
    generalize longestZeroRun 0 (0, 0) (0, 0) (ipv6Groups address) = found at run compressed ⊢
    obtain ⟨split, inside⟩ := groups_eq_of_zeroRun run
    rw [length_ipv6Groups] at inside
    have frontLength : ((ipv6Groups address).take found.1).length = found.1 := by
      rw [List.length_take, length_ipv6Groups]
      omega
    have backLength : ((ipv6Groups address).drop (found.1 + found.2)).length =
        8 - (found.1 + found.2) := by
      rw [List.length_drop, length_ipv6Groups]
    have zeros : 8 - found.1 - (8 - (found.1 + found.2)) = found.2 := by omega
    have short : ((ipv6Groups address).take found.1).length +
        ((ipv6Groups address).drop (found.1 + found.2)).length < 7 := by omega
    have read := readIpv6Addr_compressed short
      (fun group member => small group (List.mem_of_mem_take member))
      (fun group member => small group (List.mem_of_mem_drop member)) ends
    rw [frontLength, backLength, zeros, ← split, value] at read
    simpa [toList_displayGroups] using read
  · rw [toList_displayGroups, readIpv6Addr_eight (length_ipv6Groups address) small ends.1, value]

/-! ### Characters of the notation -/

/-- A hexadecimal digit, a dot or a colon. -/
def IsAddressChar (char : Char) : Prop :=
  (∃ digit < 16, char = Nat.digitChar digit) ∨ char = '.' ∨ char = ':'

theorem isAddressChar_toDigits {radix : ℕ} (large : 1 < radix) (hexadecimal : radix ≤ 16)
    (number : ℕ) : ∀ char ∈ Nat.toDigits radix number, IsAddressChar char := by
  obtain ⟨digits, printed, allSmall, -⟩ := exists_digits large number
  rw [printed]
  intro char member
  obtain ⟨digit, inDigits, rfl⟩ := List.mem_map.mp member
  exact Or.inl ⟨digit, lt_of_lt_of_le (allSmall digit inDigits) hexadecimal, rfl⟩

theorem isAddressChar_displayIpv4 (address : BitVec 32) :
    ∀ char ∈ (displayIpv4 address).toList, IsAddressChar char := by
  have octet := isAddressChar_toDigits (by decide : 1 < 10) (by decide)
  have dot : IsAddressChar '.' := Or.inr (Or.inl rfl)
  rw [toList_displayIpv4]
  simp only [List.forall_mem_append, List.forall_mem_cons]
  exact ⟨octet _, dot, octet _, dot, octet _, dot, octet _⟩

theorem isAddressChar_groupsText (groups : List ℕ) :
    ∀ char ∈ groupsText groups, IsAddressChar char := by
  have group := isAddressChar_toDigits (by decide : 1 < 16) (by decide)
  fun_induction groupsText groups with
  | case1 => simp
  | case2 single => exact group single
  | case3 first second rest ih =>
    simp only [List.forall_mem_append, List.forall_mem_cons]
    exact ⟨group first, Or.inr (Or.inr rfl), ih⟩

theorem isAddressChar_displayIpv6 (address : BitVec 128) :
    ∀ char ∈ (displayIpv6 address).toList, IsAddressChar char := by
  have marker : ∀ char ∈ "::ffff:".toList, IsAddressChar char := by
    intro char member
    have known : char = ':' ∨ char = 'f' ∨ char = ':' := by simpa using member
    rcases known with rfl | rfl | rfl
    · exact Or.inr (Or.inr rfl)
    · exact Or.inl ⟨15, by decide, rfl⟩
    · exact Or.inr (Or.inr rfl)
  have colons : ∀ char ∈ "::".toList, IsAddressChar char := by
    intro char member
    obtain rfl : char = ':' := by simpa using member
    exact Or.inr (Or.inr rfl)
  unfold displayIpv6
  dsimp only
  split_ifs with mapped compressed
  · simp only [String.toList_append, List.forall_mem_append]
    exact ⟨marker, isAddressChar_displayIpv4 _⟩
  · simp only [String.toList_append, List.forall_mem_append, toList_displayGroups]
    exact ⟨⟨isAddressChar_groupsText _, colons⟩, isAddressChar_groupsText _⟩
  · rw [toList_displayGroups]
    exact isAddressChar_groupsText _

theorem IsAddressChar.plain {char : Char} (isAddressChar : IsAddressChar char) :
    isWhitespace char = false ∧ char ≠ '/' ∧ char ≠ '#' := by
  have digits : ∀ digit < 16, isWhitespace (Nat.digitChar digit) = false ∧
      Nat.digitChar digit ≠ '/' ∧ Nat.digitChar digit ≠ '#' := by decide
  rcases isAddressChar with ⟨digit, small, rfl⟩ | rfl | rfl
  · exact digits digit small
  · decide
  · decide

theorem IsAddressChar.ascii {char : Char} (isAddressChar : IsAddressChar char) :
    char.toNat < 128 ∧ char ≠ ',' := by
  have digits : ∀ digit < 16, (Nat.digitChar digit).toNat < 128 ∧ Nat.digitChar digit ≠ ',' := by
    decide
  rcases isAddressChar with ⟨digit, small, rfl⟩ | rfl | rfl
  · exact digits digit small
  · decide
  · decide

/-! ### Networks -/

/-- The text of a printed address. -/
def IpAddr.text : IpAddr → List Char
  | .v4 address => (displayIpv4 address).toList
  | .v6 address => (displayIpv6 address).toList

theorem IpAddr.isAddressChar_text (address : IpAddr) :
    ∀ char ∈ address.text, IsAddressChar char := by
  cases address with
  | v4 address => exact isAddressChar_displayIpv4 address
  | v6 address => exact isAddressChar_displayIpv6 address

/-- A printed IPv6 address is not read as an IPv4 address. -/
theorem readIpv4Addr_displayIpv6 (address : BitVec 128) {rest : List Char}
    (ends : GroupEnds rest) : readIpv4Addr ((displayIpv6 address).toList ++ rest) = none := by
  have groups : ∀ (group : ℕ) (later : List ℕ) (behind : List Char), GroupEnds behind →
      readIpv4Addr (groupsText (group :: later) ++ behind) = none := by
    intro group later behind behindEnds
    rw [groupsText_eq_groupItems, groupItems, List.append_assoc]
    exact readIpv4Addr_group group (groupEnds_groupItems 0 later behindEnds)
  unfold displayIpv6
  dsimp only
  split_ifs with mapped compressed
  · rw [String.toList_append, List.append_assoc]
    exact readIpv4Addr_of_ends (groupEnds_colon _)
  · generalize longestZeroRun 0 (0, 0) (0, 0) (ipv6Groups address) = found
    rw [String.toList_append, String.toList_append, toList_displayGroups, List.append_assoc,
      List.append_assoc]
    cases (ipv6Groups address).take found.1 with
    | nil => exact readIpv4Addr_of_ends (groupEnds_colon _)
    | cons group later => exact groups group later _ (groupEnds_colon _)
  · rw [toList_displayGroups]
    exact groups _ _ rest ends

theorem groupsEnd_nil : GroupsEnd [] :=
  ⟨⟨noDigitAhead_nil 16, by simp⟩, by simp⟩

theorem groupsEnd_slash (rest : List Char) : GroupsEnd ('/' :: rest) :=
  ⟨⟨noDigitAhead_cons rest (by decide), by simp⟩, by simp⟩

/-- A printed address is read back. -/
theorem parseIpAddr_text (address : IpAddr) : parseIpAddr address.text = some address := by
  unfold parseIpAddr
  cases address with
  | v4 address =>
    have read := readIpv4Addr_displayIpv4 address (noDigitAhead_nil 10)
    rw [List.append_nil] at read
    simp [IpAddr.text, read]
  | v6 address =>
    have notIpv4 := readIpv4Addr_displayIpv6 address groupsEnd_nil.1
    have read := readIpv6Addr_displayIpv6 address groupsEnd_nil
    rw [List.append_nil] at notIpv4 read
    simp [IpAddr.text, notIpv4, read]

/-- A printed address with a prefix length behind it is no address. -/
theorem parseIpAddr_text_slash (address : IpAddr) (rest : List Char) :
    parseIpAddr (address.text ++ '/' :: rest) = none := by
  unfold parseIpAddr
  have ends := groupsEnd_slash rest
  cases address with
  | v4 address =>
    rw [IpAddr.text, readIpv4Addr_displayIpv4 address ends.1.1.decimal]
    rfl
  | v6 address =>
    rw [IpAddr.text, readIpv4Addr_displayIpv6 address ends.1, readIpv6Addr_displayIpv6 address ends]
    rfl

theorem splitOnce_append {separator : Char} {front : List Char} (absent : separator ∉ front)
    (behind : List Char) :
    splitOnce separator (front ++ separator :: behind) = some (front, behind) := by
  have passes : ∀ char ∈ front, decide (char ≠ separator) = true := by
    intro char member
    exact decide_eq_true fun same => absent (same ▸ member)
  unfold splitOnce
  rw [List.dropWhile_append_of_pos passes, List.takeWhile_append_of_pos passes]
  simp

/-- A printed prefix length is read back. -/
theorem parseU8_toDigits {number : ℕ} (small : number < 256) :
    parseU8 (Nat.toDigits 10 number) = some number := by
  obtain ⟨digits, printed, allSmall, value, nonempty, -⟩ := exists_digits (by decide : 1 < 10) number
  have read := takeDigits_digits (by decide) allSmall (noDigitAhead_nil 10)
  rw [List.append_nil, ← printed] at read
  have unsigned : (Nat.toDigits 10 number).head? ≠ some '+' := by
    intro plus
    have isDigit := isAddressChar_toDigits (by decide : 1 < 10) (by decide) number '+'
      (List.mem_of_mem_head? plus)
    have digitsKnown : ∀ digit < 16, '+' ≠ Nat.digitChar digit := by decide
    rcases isDigit with ⟨digit, digitSmall, same⟩ | same | same
    · exact digitsKnown digit digitSmall same
    · exact absurd same (by decide)
    · exact absurd same (by decide)
  unfold parseU8
  dsimp only
  rw [if_neg unsigned, read]
  simp [nonempty, value, small]

/-- The address of a network. -/
def CanonicalCidr.address : CanonicalCidr → IpAddr
  | v4 cidr => .v4 cidr.network
  | v6 cidr => .v6 cidr.network

/-- The prefix length of a network. -/
def CanonicalCidr.length : CanonicalCidr → ℕ
  | v4 cidr => cidr.prefixLen
  | v6 cidr => cidr.prefixLen

theorem toList_display (cidr : CanonicalCidr) :
    cidr.display.toList = cidr.address.text ++ '/' :: Nat.toDigits 10 cidr.length := by
  cases cidr <;> simp [CanonicalCidr.display, CanonicalCidr.address, CanonicalCidr.length,
    IpAddr.text, String.toList_append]

theorem CanonicalCidr.length_lt (cidr : CanonicalCidr) : cidr.length < 256 := by
  cases cidr with
  | v4 cidr => exact lt_of_le_of_lt cidr.inRange (by decide)
  | v6 cidr => exact lt_of_le_of_lt cidr.inRange (by decide)

theorem Cidr.new_network {width : ℕ} (cidr : Cidr width) :
    Cidr.new cidr.network cidr.prefixLen = some cidr := by
  rw [Cidr.new, dif_pos cidr.inRange]
  exact congrArg some
    (Cidr.ext (Cidr.network_fromParts_of_aligned cidr.inRange cidr.canonical) rfl)

/-- The address and the prefix length of a network determine it. -/
theorem cidrOfIpAddr_address (cidr : CanonicalCidr) :
    cidrOfIpAddr cidr.address cidr.length = some cidr := by
  cases cidr with
  | v4 cidr => simp [CanonicalCidr.address, CanonicalCidr.length, cidrOfIpAddr, Cidr.new_network]
  | v6 cidr => simp [CanonicalCidr.address, CanonicalCidr.length, cidrOfIpAddr, Cidr.new_network]

/-- A printed network is read back as a token. -/
theorem parseIpCidrToken_display (cidr : CanonicalCidr) :
    parseIpCidrToken cidr.display.toList = some cidr := by
  have noSlash : '/' ∉ cidr.address.text := by
    intro member
    exact (cidr.address.isAddressChar_text '/' member).plain.2.1 rfl
  rw [toList_display, parseIpCidrToken, parseIpAddr_text_slash, splitOnce_append noSlash]
  simp [parseU8_toDigits cidr.length_lt, parseIpAddr_text, cidrOfIpAddr_address]

/-- The characters of a printed network. -/
theorem isAddressChar_display (cidr : CanonicalCidr) :
    ∀ char ∈ cidr.display.toList, IsAddressChar char ∨ char = '/' := by
  intro char member
  rw [toList_display] at member
  rcases List.mem_append.mp member with inAddress | behind
  · exact Or.inl (cidr.address.isAddressChar_text char inAddress)
  · rcases List.mem_cons.mp behind with rfl | inLength
    · exact Or.inr rfl
    · exact Or.inl (isAddressChar_toDigits (by decide : 1 < 10) (by decide) _ char inLength)

/-- A printed network holds no white space and no comment sign. -/
theorem plain_display (cidr : CanonicalCidr) :
    ∀ char ∈ cidr.display.toList, isWhitespace char = false ∧ char ≠ '#' := by
  intro char member
  rcases isAddressChar_display cidr char member with isAddressChar | rfl
  · exact ⟨isAddressChar.plain.1, isAddressChar.plain.2.2⟩
  · decide

/-- A printed network is plain text in one column. -/
theorem ascii_display (cidr : CanonicalCidr) :
    ∀ char ∈ cidr.display.toList, char.toNat < 128 ∧ char ≠ ',' := by
  intro char member
  rcases isAddressChar_display cidr char member with isAddressChar | rfl
  · exact isAddressChar.ascii
  · decide

theorem display_ne_nil (cidr : CanonicalCidr) : cidr.display.toList ≠ [] := by
  rw [toList_display]
  simp

/-- A printed network is its own trimming. -/
theorem trim_display (cidr : CanonicalCidr) : trim cidr.display.toList = cidr.display.toList :=
  trim_of_plain fun char member => (plain_display cidr char member).1

/-- A printed network is one word. -/
theorem splitWhitespace_display (cidr : CanonicalCidr) :
    splitWhitespace cidr.display.toList = [cidr.display.toList] :=
  splitWhitespace_of_plain (display_ne_nil cidr) fun char member =>
    (plain_display cidr char member).1

/-- A printed network is read back. -/
theorem parseIpCidrStrict_display (cidr : CanonicalCidr) :
    parseIpCidrStrict cidr.display.toList = some cidr := by
  have notEmpty : cidr.display.toList.isEmpty = false := by simpa using display_ne_nil cidr
  unfold parseIpCidrStrict
  dsimp only
  rw [trim_display, notEmpty, splitWhitespace_display]
  simpa using parseIpCidrToken_display cidr

end Kidobo
