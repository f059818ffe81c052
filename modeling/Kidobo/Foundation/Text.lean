import Mathlib

/-!
# Lines and surrounding white space

Text is a list of characters. A line ends at a line feed, which takes one
carriage return before it along; the text behind the last line feed is a line
when it is not empty.

## Main results

* `lines_append`: the lines of a terminated line and the text behind it
* `lines_joinTerminated`: reading terminated lines back
* `trim_eq_self`: text without white space at its ends is its own trimming
-/

namespace Foundation

/-- The characters with the Unicode property `White_Space`. -/
def isWhitespace (char : Char) : Bool :=
  (9 ≤ char.toNat && char.toNat ≤ 13) || char.toNat == 0x20 || char.toNat == 0x85 ||
    char.toNat == 0xA0 || char.toNat == 0x1680 ||
    (0x2000 ≤ char.toNat && char.toNat ≤ 0x200A) || char.toNat == 0x2028 ||
    char.toNat == 0x2029 || char.toNat == 0x202F || char.toNat == 0x205F || char.toNat == 0x3000

/-- Remove white space in front. -/
def trimStart (text : List Char) : List Char := text.dropWhile isWhitespace

/-- Remove white space at the end. -/
def trimEnd (text : List Char) : List Char := (text.reverse.dropWhile isWhitespace).reverse

/-- Remove white space on both sides. -/
def trim (text : List Char) : List Char := trimEnd (trimStart text)

/-- The lines of a text. -/
def lines : List Char → List (List Char)
  | [] => []
  | '\n' :: rest => [] :: lines rest
  | '\r' :: '\n' :: rest => [] :: lines rest
  | char :: rest =>
    match lines rest with
    | [] => [[char]]
    | line :: later => (char :: line) :: later

/-- The maximal runs of characters that are not white space. -/
def splitWhitespace (text : List Char) : List (List Char) :=
  (text.splitOnP isWhitespace).filter fun word => !word.isEmpty

/-- Whether `pattern` occurs in `text`. -/
def containsText (pattern text : List Char) : Bool :=
  text.tails.any fun suffix => pattern.isPrefixOf suffix

/-- The parts around the first occurrence of a pattern. -/
def splitOnceText (pattern : List Char) : List Char → Option (List Char × List Char)
  | [] => if pattern.isEmpty then some ([], []) else none
  | char :: rest =>
    match pattern.isPrefixOf? (char :: rest) with
    | some back => some ([], back)
    | none => (splitOnceText pattern rest).map fun (front, back) => (char :: front, back)

/-- Remove one carriage return at the end. -/
def stripCarriageReturn (line : List Char) : List Char :=
  if line.getLast? = some '\r' then line.dropLast else line

/-- The size of a text in UTF-8. -/
def byteLength (text : List Char) : ℕ := (text.map Char.utf8Size).sum

@[simp] theorem lines_nil : lines [] = [] := by rw [lines]

@[simp] theorem lines_lineFeed (rest : List Char) : lines ('\n' :: rest) = [] :: lines rest := by
  rw [lines]

@[simp] theorem lines_carriageReturn_lineFeed (rest : List Char) :
    lines ('\r' :: '\n' :: rest) = [] :: lines rest := by
  rw [lines]

theorem lines_cons {char : Char} {rest : List Char} (notFeed : char ≠ '\n')
    (notReturn : ∀ later, char = '\r' → rest ≠ '\n' :: later) :
    lines (char :: rest) =
      match lines rest with
      | [] => [[char]]
      | line :: later => (char :: line) :: later := by
  rw [lines]
  · exact notFeed
  · exact fun later same => notReturn later same

theorem stripCarriageReturn_cons (first second : Char) (rest : List Char) :
    stripCarriageReturn (first :: second :: rest) =
      first :: stripCarriageReturn (second :: rest) := by
  unfold stripCarriageReturn
  rw [List.getLast?_cons_cons, List.dropLast_cons_cons]
  split_ifs <;> rfl

/-- A terminated line is the first line of a text. -/
theorem lines_append {line : List Char} (singleLine : '\n' ∉ line) (rest : List Char) :
    lines (line ++ '\n' :: rest) = stripCarriageReturn line :: lines rest := by
  induction line with
  | nil => simp [stripCarriageReturn]
  | cons char line ih =>
    simp only [List.mem_cons, not_or] at singleLine
    obtain ⟨notFeed, tailSingle⟩ := singleLine
    cases line with
    | nil =>
      by_cases isReturn : char = '\r'
      · subst isReturn
        simp [stripCarriageReturn]
      · rw [List.cons_append, lines_cons (Ne.symm notFeed) fun _ same => absurd same isReturn]
        simp [stripCarriageReturn, isReturn]
    | cons second line =>
      have notTerminated : ∀ later, char = '\r' →
          (second :: line) ++ '\n' :: rest ≠ '\n' :: later := by
        intro later _ same
        simp only [List.cons_append, List.cons.injEq] at same
        exact tailSingle (same.1 ▸ List.mem_cons_self)
      rw [List.cons_append, lines_cons (Ne.symm notFeed) notTerminated, ih tailSingle,
        stripCarriageReturn_cons]

theorem trimStart_eq_self {text : List Char}
    (first : ∀ char, text.head? = some char → isWhitespace char = false) :
    trimStart text = text := by
  cases text with
  | nil => rfl
  | cons char rest => simp [trimStart, first char rfl]

theorem trimEnd_eq_self {text : List Char}
    (last : ∀ char, text.getLast? = some char → isWhitespace char = false) :
    trimEnd text = text := by
  have reversed : text.reverse.dropWhile isWhitespace = text.reverse := by
    refine trimStart_eq_self fun char isFirst => last char ?_
    rwa [List.head?_reverse] at isFirst
  rw [trimEnd, reversed, List.reverse_reverse]

/-- Text that neither begins nor ends with white space is its own trimming. -/
theorem trim_eq_self {text : List Char}
    (first : ∀ char, text.head? = some char → isWhitespace char = false)
    (last : ∀ char, text.getLast? = some char → isWhitespace char = false) :
    trim text = text := by
  rw [trim, trimStart_eq_self first, trimEnd_eq_self last]

theorem isDigit_iff {char : Char} : char.isDigit = true ↔ 48 ≤ char.toNat ∧ char.toNat ≤ 57 := by
  simp only [Char.isDigit, ge_iff_le, Bool.and_eq_true, decide_eq_true_eq,
    UInt32.le_iff_toNat_le]
  rfl

theorem isWhitespace_of_isDigit {char : Char} (isDigit : char.isDigit = true) :
    isWhitespace char = false := by
  have bounds := isDigit_iff.mp isDigit
  simp [isWhitespace]
  omega

/-- Text without white space is its own trimming. -/
theorem trim_of_plain {text : List Char} (plain : ∀ char ∈ text, isWhitespace char = false) :
    trim text = text := by
  apply trim_eq_self
  · intro char isFirst
    exact plain char (List.mem_of_mem_head? isFirst)
  · intro char isLast
    exact plain char (List.mem_of_mem_getLast? isLast)

/-- Text without white space is one word. -/
theorem splitWhitespace_of_plain {text : List Char} (nonempty : text ≠ [])
    (plain : ∀ char ∈ text, isWhitespace char = false) : splitWhitespace text = [text] := by
  have notEmpty : text.isEmpty = false := by simpa using nonempty
  rw [splitWhitespace, List.splitOnP_eq_singleton plain, List.filter_cons, notEmpty]
  rfl

theorem getLast?_trimEnd {text : List Char} {char : Char}
    (last : (trimEnd text).getLast? = some char) : isWhitespace char = false := by
  rw [trimEnd, List.getLast?_reverse] at last
  have found := List.head?_dropWhile_not isWhitespace text.reverse
  rw [last] at found
  simpa using found

/-- Trimmed text does not end with white space. -/
theorem not_isWhitespace_getLast? {text : List Char} (trimmed : trim text = text) {char : Char}
    (last : text.getLast? = some char) : isWhitespace char = false := by
  rw [← trimmed, trim] at last
  exact getLast?_trimEnd last

/-! ### Terminated lines -/

/-- Lines joined by line feeds, with a final one unless there is no text. -/
def joinTerminated (items : List (List Char)) : List Char :=
  let contents := ['\n'].intercalate items
  if contents.isEmpty then contents else contents ++ ['\n']

theorem intercalate_append_lineFeed (first : List Char) (rest : List (List Char)) :
    ['\n'].intercalate (first :: rest) ++ ['\n'] =
      (first :: rest).flatMap fun line => line ++ ['\n'] := by
  induction rest generalizing first with
  | nil => simp [List.intercalate]
  | cons second rest ih =>
    rw [List.flatMap_cons, ← ih second]
    simp [List.intercalate]

theorem lines_flatMap {items : List (List Char)} (singleLines : ∀ line ∈ items, '\n' ∉ line) :
    lines (items.flatMap fun line => line ++ ['\n']) = items.map stripCarriageReturn := by
  induction items with
  | nil => simp
  | cons line rest ih =>
    obtain ⟨lineSingle, restSingle⟩ := List.forall_mem_cons.mp singleLines
    rw [List.flatMap_cons, List.append_assoc, List.singleton_append, lines_append lineSingle,
      ih restSingle, List.map_cons]

theorem intercalate_isEmpty {items : List (List Char)}
    (noText : (['\n'].intercalate items).isEmpty = true) : items = [] ∨ items = [[]] := by
  rcases items with _ | ⟨first, _ | ⟨second, rest⟩⟩
  · exact Or.inl rfl
  · simp only [List.intercalate, List.intersperse_singleton, List.flatten_singleton,
      List.isEmpty_iff] at noText
    exact Or.inr (by rw [noText])
  · simp [List.intercalate] at noText

/-- Every line is terminated, unless a single empty line is all there is. -/
theorem joinTerminated_eq_flatMap {items : List (List Char)} (notBlank : items ≠ [[]]) :
    joinTerminated items = items.flatMap fun line => line ++ ['\n'] := by
  unfold joinTerminated
  dsimp only
  split_ifs with noText
  · rcases intercalate_isEmpty noText with rfl | isBlank
    · simp [List.intercalate]
    · exact absurd isBlank notBlank
  · rcases items with _ | ⟨first, rest⟩
    · simp [List.intercalate] at noText
    · exact intercalate_append_lineFeed first rest

/-- A blank line behind other lines shows. -/
theorem joinTerminated_append_blank {front : List (List Char)} (nonempty : front ≠ []) :
    joinTerminated (front ++ [[]]) ≠ joinTerminated front := by
  have notBlank : front ++ [[]] ≠ [[]] := by
    intro same
    exact nonempty (List.append_left_eq_self.mp same)
  rw [joinTerminated_eq_flatMap notBlank, List.flatMap_append]
  intro same
  have lengths := congrArg List.length same
  by_cases isBlank : front = [[]]
  · simp [isBlank, joinTerminated, List.intercalate] at lengths
  · rw [joinTerminated_eq_flatMap isBlank] at lengths
    simp at lengths

/-- Terminated lines are read back without a final carriage return each. A
single empty line leaves no text at all. -/
theorem lines_joinTerminated {items : List (List Char)}
    (singleLines : ∀ line ∈ items, '\n' ∉ line) :
    lines (joinTerminated items) = items.map stripCarriageReturn ∨
      items = [[]] ∧ lines (joinTerminated items) = [] := by
  unfold joinTerminated
  dsimp only
  split_ifs with noText
  · rcases intercalate_isEmpty noText with rfl | rfl
    · exact Or.inl (by simp [List.intercalate])
    · exact Or.inr ⟨rfl, by simp [List.intercalate]⟩
  · rcases items with _ | ⟨first, rest⟩
    · simp [List.intercalate] at noText
    · rw [intercalate_append_lineFeed]
      exact Or.inl (lines_flatMap singleLines)

/-- A line holds no line feed. -/
theorem lineFeed_not_mem_of_mem_lines {line text : List Char} (member : line ∈ lines text) :
    '\n' ∉ line := by
  fun_induction lines text generalizing line with
  | case1 => simp at member
  | case2 rest ih =>
    rcases List.mem_cons.mp member with rfl | later
    · simp
    · exact ih later
  | case3 rest ih =>
    rcases List.mem_cons.mp member with rfl | later
    · simp
    · exact ih later
  | case4 char rest notFeed notReturn noLines ih =>
    obtain rfl := List.mem_singleton.mp member
    exact fun isFeed => notFeed (List.mem_singleton.mp isFeed).symm
  | case5 char rest notFeed notReturn first later found ih =>
    rw [found] at ih
    rcases List.mem_cons.mp member with rfl | inLater
    · intro isFeed
      rcases List.mem_cons.mp isFeed with same | inFirst
      · exact notFeed same.symm
      · exact ih List.mem_cons_self inFirst
    · exact ih (List.mem_cons_of_mem _ inLater)

theorem trim_append_whitespace (text : List Char) {char : Char}
    (white : isWhitespace char = true) : trim (text ++ [char]) = trim text := by
  unfold trim trimStart
  rw [List.dropWhile_append]
  split_ifs with allWhite
  · rw [List.isEmpty_iff.mp allWhite]
    simp [trimEnd, white]
  · simp [trimEnd, white]

theorem trimEnd_prefix_self (text : List Char) : trimEnd text <+: text := by
  have suffix := List.dropWhile_suffix isWhitespace (l := text.reverse)
  rw [trimEnd, ← List.reverse_suffix, List.reverse_reverse]
  exact suffix

/-- Trimmed text stays as it is. -/
@[simp] theorem trim_trim (text : List Char) : trim (trim text) = trim text := by
  apply trim_eq_self
  · intro char isFirst
    -- The first character of the trimmed text is the first one that is not white.
    have front : (trimStart text).head? = some char := by
      obtain ⟨behind, split⟩ := trimEnd_prefix_self (trimStart text)
      obtain ⟨rest, isTrim⟩ : ∃ rest, trim text = char :: rest := by
        cases trimmed : trim text with
        | nil => simp [trimmed] at isFirst
        | cons first rest => exact ⟨rest, by rw [trimmed] at isFirst; simpa using isFirst⟩
      rw [← split, ← trim, isTrim]
      rfl
    have notWhite := List.head?_dropWhile_not isWhitespace text
    rw [← trimStart, front] at notWhite
    simpa using notWhite
  · intro char isLast
    exact getLast?_trimEnd isLast

/-- Trimming commutes with a change of characters that keeps white space. -/
theorem trim_map {change : Char → Char}
    (same : ∀ char, isWhitespace (change char) = isWhitespace char) (text : List Char) :
    trim (text.map change) = (trim text).map change := by
  have dropped (text : List Char) :
      (text.map change).dropWhile isWhitespace = (text.dropWhile isWhitespace).map change := by
    have sameTest : isWhitespace ∘ change = isWhitespace := funext same
    rw [List.dropWhile_map, sameTest]
  rw [trim, trimStart, dropped, trimEnd, ← List.map_reverse, dropped, ← List.map_reverse]
  rfl

/-- Trimming keeps characters only. -/
theorem mem_of_mem_trim {char : Char} {text : List Char} (member : char ∈ trim text) :
    char ∈ text :=
  (List.dropWhile_suffix isWhitespace).subset ((trimEnd_prefix_self _).subset member)

/-- A final carriage return does not matter to trimming. -/
theorem trim_stripCarriageReturn (line : List Char) :
    trim (stripCarriageReturn line) = trim line := by
  unfold stripCarriageReturn
  split_ifs with isReturn
  · obtain ⟨front, rfl⟩ := List.getLast?_eq_some_iff.mp isReturn
    rw [List.dropLast_concat]
    exact (trim_append_whitespace front (by decide)).symm
  · rfl

/-! ### Appending lines -/

theorem lines_flatMap_append {items : List (List Char)} (singleLines : ∀ line ∈ items, '\n' ∉ line)
    (rest : List Char) :
    lines ((items.flatMap fun line => line ++ ['\n']) ++ rest) =
      items.map stripCarriageReturn ++ lines rest := by
  induction items with
  | nil => rfl
  | cons line later ih =>
    obtain ⟨lineSingle, laterSingle⟩ := List.forall_mem_cons.mp singleLines
    rw [List.flatMap_cons, List.append_assoc, List.append_assoc, List.singleton_append,
      lines_append lineSingle, ih laterSingle, List.map_cons, List.cons_append]

theorem lines_of_single {text : List Char} (single : '\n' ∉ text) (nonempty : text ≠ []) :
    lines text = [text] := by
  induction text with
  | nil => exact absurd rfl nonempty
  | cons char rest ih =>
    simp only [List.mem_cons, not_or] at single
    obtain ⟨notFeed, restSingle⟩ := single
    have notTerminated : ∀ later, char = '\r' → rest ≠ '\n' :: later := by
      intro later _ same
      exact restSingle (same ▸ List.mem_cons_self)
    rw [lines_cons (Ne.symm notFeed) notTerminated]
    cases rest with
    | nil => simp
    | cons second later => rw [ih restSingle (List.cons_ne_nil _ _)]

/-- Lines between line feeds are read back without a carriage return, but the last. -/
theorem lines_intercalate {items : List (List Char)} (singleLines : ∀ line ∈ items, '\n' ∉ line)
    (nonempty : ∀ line ∈ items, line ≠ []) (noReturn : ∀ line ∈ items, stripCarriageReturn line = line) :
    lines (['\n'].intercalate items) = items := by
  induction items with
  | nil => simp [List.intercalate]
  | cons line rest ih =>
    obtain ⟨lineSingle, restSingle⟩ := List.forall_mem_cons.mp singleLines
    obtain ⟨lineNonempty, restNonempty⟩ := List.forall_mem_cons.mp nonempty
    obtain ⟨lineReturn, restReturn⟩ := List.forall_mem_cons.mp noReturn
    cases rest with
    | nil => simpa [List.intercalate] using lines_of_single lineSingle lineNonempty
    | cons second later =>
      have split : ['\n'].intercalate (line :: second :: later) =
          line ++ '\n' :: ['\n'].intercalate (second :: later) := by
        simp [List.intercalate]
      rw [split, lines_append lineSingle, lineReturn, ih restSingle restNonempty restReturn]

/-- A text is a list of terminated lines and what stands behind them. -/
theorem exists_terminated_lines (text : List Char) :
    ∃ (items : List (List Char)) (tail : List Char),
      text = (items.flatMap fun line => line ++ ['\n']) ++ tail ∧
        (∀ line ∈ items, '\n' ∉ line) ∧ '\n' ∉ tail := by
  induction text with
  | nil => exact ⟨[], [], rfl, by simp, by simp⟩
  | cons char rest ih =>
    obtain ⟨items, tail, split, itemsSingle, tailSingle⟩ := ih
    by_cases feed : char = '\n'
    · exact ⟨[] :: items, tail, by simp [split, feed],
        List.forall_mem_cons.mpr ⟨by simp, itemsSingle⟩, tailSingle⟩
    · cases items with
      | nil =>
        refine ⟨[], char :: tail, by simp [split], by simp, ?_⟩
        rw [List.mem_cons, not_or]
        exact ⟨Ne.symm feed, tailSingle⟩
      | cons first later =>
        obtain ⟨firstSingle, laterSingle⟩ := List.forall_mem_cons.mp itemsSingle
        refine ⟨(char :: first) :: later, tail, by simp [split],
          List.forall_mem_cons.mpr ⟨?_, laterSingle⟩, tailSingle⟩
        rw [List.mem_cons, not_or]
        exact ⟨Ne.symm feed, firstSingle⟩

/-- Lines appended behind a text whose last line is terminated first. The last
line loses at most a final carriage return. -/
theorem lines_append_terminated (text : List Char) {added : List (List Char)}
    (singleLines : ∀ line ∈ added, '\n' ∉ line) :
    let terminated :=
      if text ≠ [] ∧ text.getLast? ≠ some '\n' then text ++ ['\n'] else text
    ∃ front back, lines text = front ++ back ∧ back.length ≤ 1 ∧
      lines (terminated ++ added.flatMap fun line => line ++ ['\n']) =
        front ++ back.map stripCarriageReturn ++ added.map stripCarriageReturn := by
  intro terminated
  obtain ⟨items, tail, split, itemsSingle, tailSingle⟩ := exists_terminated_lines text
  have oldLines : lines text = items.map stripCarriageReturn ++ lines tail := by
    rw [split, lines_flatMap_append itemsSingle]
  -- a text ends with a terminated line, or with an open one that gets its terminator
  by_cases noTail : tail = []
  · subst noTail
    have isTerminated : terminated = text := by
      apply if_neg
      rintro ⟨nonempty, open_⟩
      rw [List.append_nil] at split
      rcases List.eq_nil_or_concat items with rfl | ⟨front, last, rfl⟩
      · exact nonempty split
      · exact open_ (by rw [split, List.concat_eq_append, List.flatMap_append]; simp)
    refine ⟨items.map stripCarriageReturn, [], by simpa using oldLines, by simp, ?_⟩
    rw [isTerminated, split, List.append_nil, lines_flatMap_append itemsSingle,
      lines_flatMap singleLines]
    simp
  · have isTerminated : terminated = text ++ ['\n'] := by
      apply if_pos
      constructor
      · intro empty
        rw [empty] at split
        exact noTail (List.append_eq_nil_iff.mp split.symm).2
      · intro ends
        obtain ⟨front, last, rfl⟩ := (List.eq_nil_or_concat tail).resolve_left noTail
        rw [split, List.concat_eq_append, ← List.append_assoc, List.getLast?_concat,
          Option.some.injEq] at ends
        exact tailSingle (by simp [ends])
    refine ⟨items.map stripCarriageReturn, [tail], by
      rw [oldLines, lines_of_single tailSingle noTail], by simp, ?_⟩
    rw [isTerminated, split, List.append_assoc, List.append_assoc,
      lines_flatMap_append itemsSingle, List.singleton_append, lines_append tailSingle,
      lines_flatMap singleLines]
    simp

/-! ### Neighbouring tokens -/

/-- Two tokens stand side by side when they are a pair of the list and its tail. -/
theorem pair_infix_iff {α : Type} {first second : α} {tokens : List α} :
    [first, second] <:+: tokens ↔ (first, second) ∈ tokens.zip tokens.tail := by
  induction tokens with
  | nil => simp
  | cons head rest ih =>
    rw [List.infix_cons_iff, ih]
    cases rest with
    | nil => simp
    | cons next later => simp [List.cons_prefix_cons]

/-! ### Words and lines -/

/-- White space ends the words before it. -/
theorem splitWhitespace_append_cons (front rest : List Char) {char : Char}
    (white : isWhitespace char = true) :
    splitWhitespace (front ++ char :: rest) = splitWhitespace front ++ splitWhitespace rest := by
  unfold splitWhitespace
  rw [List.splitOnP_append_cons _ _ white, List.filter_append]

theorem splitWhitespace_append_whitespace (text : List Char) {char : Char}
    (white : isWhitespace char = true) : splitWhitespace (text ++ [char]) = splitWhitespace text := by
  rw [splitWhitespace_append_cons text [] white]
  exact List.append_nil _

theorem splitWhitespace_stripCarriageReturn (line : List Char) :
    splitWhitespace (stripCarriageReturn line) = splitWhitespace line := by
  unfold stripCarriageReturn
  split_ifs with isReturn
  · obtain ⟨front, rfl⟩ := List.getLast?_eq_some_iff.mp isReturn
    rw [List.dropLast_concat]
    exact (splitWhitespace_append_whitespace front (by decide)).symm
  · rfl

/-- White space around a text has no words. -/
theorem splitWhitespace_trim (text : List Char) :
    splitWhitespace (trim text) = splitWhitespace text := by
  have ending : ∀ text : List Char, splitWhitespace (trimEnd text) = splitWhitespace text := by
    intro text
    induction text using List.reverseRecOn with
    | nil => rfl
    | append_singleton front last ih =>
      cases white : isWhitespace last with
      | true =>
        rw [splitWhitespace_append_whitespace front white, ← ih]
        simp [trimEnd, white]
      | false => simp [trimEnd, white]
  rw [trim, ending]
  induction text with
  | nil => rfl
  | cons char rest ih =>
    cases white : isWhitespace char with
    | true =>
      rw [trimStart, List.dropWhile_cons_of_pos white, ← trimStart, ih]
      exact (splitWhitespace_append_cons [] rest white).symm
    | false => rw [trimStart, List.dropWhile_cons_of_neg (by simp [white])]

/-- A terminated front does not disturb the lines behind it. -/
theorem lines_append_lineFeed (front rest : List Char) :
    lines (front ++ '\n' :: rest) = lines (front ++ ['\n']) ++ lines rest := by
  obtain ⟨items, tail, rfl, itemsSingle, tailSingle⟩ := exists_terminated_lines front
  rw [List.append_assoc, lines_flatMap_append itemsSingle, lines_append tailSingle,
    List.append_assoc, lines_flatMap_append itemsSingle, lines_append tailSingle]
  simp

/-- The words of a line stand side by side in the text. -/
theorem splitWhitespace_infix_of_mem_lines {line text : List Char} (member : line ∈ lines text) :
    splitWhitespace line <:+: splitWhitespace text := by
  obtain ⟨items, tail, rfl, itemsSingle, tailSingle⟩ := exists_terminated_lines text
  rw [lines_flatMap_append itemsSingle, List.mem_append] at member
  clear itemsSingle
  induction items with
  | nil =>
    rcases member with impossible | inTail
    · cases impossible
    · by_cases empty : tail = []
      · simp [empty] at inTail
      · rw [lines_of_single tailSingle empty, List.mem_singleton] at inTail
        rw [inTail]
        exact List.infix_rfl
  | cons item later ih =>
    have split : splitWhitespace (((item :: later).flatMap fun line => line ++ ['\n']) ++ tail) =
        splitWhitespace item ++
          splitWhitespace ((later.flatMap fun line => line ++ ['\n']) ++ tail) := by
      rw [← splitWhitespace_append_cons item _ (show isWhitespace '\n' = true by decide)]
      simp
    rw [split]
    rw [List.map_cons, List.mem_cons, or_assoc] at member
    rcases member with isFirst | inLater
    · rw [isFirst, splitWhitespace_stripCarriageReturn]
      exact (List.prefix_append _ _).isInfix
    · exact (ih inLater).trans (List.suffix_append _ _).isInfix

end Foundation
