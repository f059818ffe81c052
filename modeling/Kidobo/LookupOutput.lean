import Kidobo.Foundation.TokenCode
import Kidobo.Foundation.Traverse
import Kidobo.Lookup
import Kidobo.Network.RoundTrip

/-!
# Escaped text and the tab-separated output of a lookup

Control characters and the backslash are written behind a backslash. The escaped
forms are code words, so escaped text stands for one text only and fields can be
separated by control characters.

## Main definitions

* `escape`, `unescape`: the escaped form of a text, and its reading
* `encodeLines`, `decodeLines`: lines of tab-separated fields
* `LookupRenderer.emit`, `LookupRenderer.finish`: what a lookup prints

## Main results

* `escape_injective_controlFree`: escaping loses nothing and hides every control character
* `decodeLines_lookup`: the output of a lookup reads back as its records
-/

namespace Kidobo

open Foundation

/-! ### Escaping -/

/-- `char::is_ascii_control`. -/
def isAsciiControl (char : Char) : Bool := char.toNat < 0x20 || char.toNat == 0x7F

/-- `char::is_control`: the general category `Cc`. -/
def isControl (char : Char) : Bool :=
  char.toNat < 0x20 || (0x7F ≤ char.toNat && char.toNat ≤ 0x9F)

/-- A number in capital hexadecimal digits, with at least `width` of them. -/
def upperHex (width number : ℕ) : List Char :=
  ((Nat.toDigits 16 number).map Char.toUpper).leftpad width '0'

/-- The escaped form of a character. -/
def escapeChar (char : Char) : List Char :=
  if char = '\\' then ['\\', '\\']
  else if char = '\t' then ['\\', 't']
  else if char = '\r' then ['\\', 'r']
  else if char = '\n' then ['\\', 'n']
  else if isAsciiControl char then '\\' :: 'x' :: upperHex 2 char.toNat
  else if isControl char then '\\' :: 'u' :: '{' :: upperHex 0 char.toNat ++ ['}']
  else [char]

/-- `escape`. -/
def escape (value : List Char) : List Char := value.flatMap escapeChar

/-- The character that two hexadecimal digits name. -/
def ofHexPair (high low : Char) : Option Char :=
  (toDigit 16 high).bind fun first =>
    (toDigit 16 low).map fun second => Char.ofNat (first * 16 + second)

/-- The first character of an escaped text and the text behind it. -/
def unescapeChar : List Char → Option (Char × List Char)
  | '\\' :: '\\' :: rest => some ('\\', rest)
  | '\\' :: 't' :: rest => some ('\t', rest)
  | '\\' :: 'r' :: rest => some ('\r', rest)
  | '\\' :: 'n' :: rest => some ('\n', rest)
  | '\\' :: 'x' :: high :: low :: rest => (ofHexPair high low).map (·, rest)
  | '\\' :: 'u' :: '{' :: high :: low :: '}' :: rest => (ofHexPair high low).map (·, rest)
  | '\\' :: _ => none
  | char :: rest => some (char, rest)
  | [] => none

/-- Read an escaped text. -/
def unescape (text : List Char) : Option (List Char) := readAll unescapeChar text.length text

/-- A capital hexadecimal digit. -/
def upperDigit (digit : ℕ) : Char := (Nat.digitChar digit).toUpper

/-- An ASCII character has two digits, the first of them padded. -/
theorem upperHex_ascii : ∀ code < 128, upperHex 2 code = [upperDigit (code / 16), upperDigit (code % 16)] ∧
    ofHexPair (upperDigit (code / 16)) (upperDigit (code % 16)) = some (Char.ofNat code) := by
  decide +kernel

/-- A control character outside of ASCII has two digits of its own. -/
theorem upperHex_control : ∀ code < 160, 128 ≤ code →
    upperHex 0 code = [upperDigit (code / 16), upperDigit (code % 16)] ∧
    ofHexPair (upperDigit (code / 16)) (upperDigit (code % 16)) = some (Char.ofNat code) := by
  decide +kernel

theorem isControl_upperDigit : ∀ digit < 16, isControl (upperDigit digit) = false := by decide

/-- The forms that name a character by its number. -/
theorem escapeChar_named (char : Char) :
    (isAsciiControl char = true → ∃ high < 16, ∃ low < 16,
      upperHex 2 char.toNat = [upperDigit high, upperDigit low] ∧
        ofHexPair (upperDigit high) (upperDigit low) = some char) ∧
    (isAsciiControl char = false → isControl char = true → ∃ high < 16, ∃ low < 16,
      upperHex 0 char.toNat = [upperDigit high, upperDigit low] ∧
        ofHexPair (upperDigit high) (upperDigit low) = some char) := by
  constructor
  · intro ascii
    have small : char.toNat < 128 := by
      simp [isAsciiControl] at ascii
      omega
    obtain ⟨digits, named⟩ := upperHex_ascii char.toNat small
    rw [Char.ofNat_toNat] at named
    exact ⟨_, by omega, _, Nat.mod_lt _ (by decide), digits, named⟩
  · intro notAscii control
    have bounds : 128 ≤ char.toNat ∧ char.toNat < 160 := by
      simp [isAsciiControl, isControl] at notAscii control
      omega
    obtain ⟨digits, named⟩ := upperHex_control char.toNat bounds.2 bounds.1
    rw [Char.ofNat_toNat] at named
    exact ⟨_, by omega, _, Nat.mod_lt _ (by decide), digits, named⟩

theorem unescapeChar_plain {char : Char} (notBackslash : char ≠ '\\') (rest : List Char) :
    unescapeChar (char :: rest) = some (char, rest) := by
  unfold unescapeChar
  split <;> simp_all

/-- Each character has an escaped form that is read back, whatever follows. -/
theorem reads_escapeChar : Reads unescapeChar escapeChar where
  nonempty char := by
    unfold escapeChar
    split_ifs <;> simp
  reads char rest := by
    unfold escapeChar
    split_ifs with backslash tab carriageReturn lineFeed ascii control
    · rw [backslash]
      rfl
    · rw [tab]
      rfl
    · rw [carriageReturn]
      rfl
    · rw [lineFeed]
      rfl
    · obtain ⟨high, _, low, _, digits, named⟩ := (escapeChar_named char).1 ascii
      rw [digits]
      simp [unescapeChar, named]
    · obtain ⟨high, _, low, _, digits, named⟩ :=
        (escapeChar_named char).2 (Bool.not_eq_true _ ▸ ascii) control
      rw [digits]
      simp [unescapeChar, named]
    · exact unescapeChar_plain backslash rest

theorem unescape_escape (text : List Char) : unescape (escape text) = some text :=
  reads_escapeChar.readAll_flatMap (reads_escapeChar.length_le text)

theorem escape_injective : Function.Injective escape := reads_escapeChar.flatMap_injective

theorem not_isControl_escapeChar (char : Char) :
    ∀ shown ∈ escapeChar char, isControl shown = false := by
  unfold escapeChar
  split_ifs with backslash tab carriageReturn lineFeed ascii control
  · simp [isControl]
  · simp [isControl]
  · simp [isControl]
  · simp [isControl]
  · obtain ⟨high, highSmall, low, lowSmall, digits, _⟩ := (escapeChar_named char).1 ascii
    rw [digits]
    simp only [List.forall_mem_cons]
    exact ⟨by decide, by decide, isControl_upperDigit high highSmall,
      isControl_upperDigit low lowSmall, by simp⟩
  · obtain ⟨high, highSmall, low, lowSmall, digits, _⟩ :=
      (escapeChar_named char).2 (Bool.not_eq_true _ ▸ ascii) control
    rw [digits]
    simp only [List.cons_append, List.nil_append, List.forall_mem_cons]
    exact ⟨by decide, by decide, by decide, isControl_upperDigit high highSmall,
      isControl_upperDigit low lowSmall, by decide, by simp⟩
  · simpa using control

/-- Escaping hides every control character. -/
theorem not_isControl_escape {text : List Char} {char : Char} (member : char ∈ escape text) :
    isControl char = false := by
  obtain ⟨original, _, inForm⟩ := List.mem_flatMap.mp member
  exact not_isControl_escapeChar original char inForm

/-- A control character does not occur in escaped text. -/
theorem not_mem_escape {char : Char} (control : isControl char = true) (text : List Char) :
    char ∉ escape text := by
  intro member
  rw [not_isControl_escape member] at control
  cases control

/-- Text without control characters and backslashes is printed as it is. -/
theorem escape_eq_self {text : List Char}
    (plain : ∀ char ∈ text, isControl char = false ∧ char ≠ '\\') : escape text = text := by
  have single : ∀ char ∈ text, escapeChar char = [char] := by
    intro char member
    obtain ⟨notControl, notBackslash⟩ := plain char member
    have shown : ∀ control, isControl control = true → char ≠ control := by
      rintro control isControl rfl
      rw [notControl] at isControl
      cases isControl
    have notAscii : isAsciiControl char = false := by
      simp [isControl, isAsciiControl] at notControl ⊢
      omega
    simp [escapeChar, notBackslash, shown '\t' (by decide), shown '\r' (by decide),
      shown '\n' (by decide), notAscii, notControl]
  rw [escape, List.flatMap_congr single]
  simp

/-! ### Lines of tab-separated fields -/

/-- One line with the escaped fields between tabs. -/
def encodeLine (record : List (List Char)) : List Char :=
  ['\t'].intercalate (record.map escape) ++ ['\n']

/-- The lines of these records, one behind the other. -/
def encodeLines (records : List (List (List Char))) : List Char := records.flatMap encodeLine

/-- The fields of a line. -/
def decodeLine (line : List Char) : Option (List (List Char)) :=
  (line.splitOn '\t').mapM unescape

/-- The fields of every line. -/
def decodeLines (text : List Char) : Option (List (List (List Char))) :=
  (lines text).mapM decodeLine

theorem mem_intercalate {separator : List Char} {items : List (List Char)} {char : Char}
    (member : char ∈ separator.intercalate items) :
    char ∈ separator ∨ ∃ item ∈ items, char ∈ item := by
  induction items with
  | nil => simp at member
  | cons item rest ih =>
    cases rest with
    | nil => exact Or.inr ⟨item, List.mem_cons_self, by simpa using member⟩
    | cons next later =>
      rw [List.intercalate_cons_cons, List.append_assoc, List.mem_append, List.mem_append] at member
      rcases member with inItem | inSeparator | behind
      · exact Or.inr ⟨item, List.mem_cons_self, inItem⟩
      · exact Or.inl inSeparator
      · rcases ih behind with inSeparator | ⟨other, isItem, inOther⟩
        · exact Or.inl inSeparator
        · exact Or.inr ⟨other, List.mem_cons_of_mem _ isItem, inOther⟩

/-- A line of escaped fields holds no control character but its tabs. -/
theorem not_mem_line {char : Char} (control : isControl char = true) (notTab : char ≠ '\t')
    (record : List (List Char)) : char ∉ ['\t'].intercalate (record.map escape) := by
  intro member
  rcases mem_intercalate member with isTab | ⟨field, isField, inField⟩
  · exact notTab (List.mem_singleton.mp isTab)
  · obtain ⟨text, _, rfl⟩ := List.mem_map.mp isField
    exact not_mem_escape control text inField

theorem decodeLine_escape {record : List (List Char)} (nonempty : record ≠ []) :
    decodeLine (['\t'].intercalate (record.map escape)) = some record := by
  have noTab : ∀ field ∈ record.map escape, '\t' ∉ field := by
    intro field member
    obtain ⟨text, _, rfl⟩ := List.mem_map.mp member
    exact not_mem_escape (by decide) text
  rw [decodeLine, List.splitOn_intercalate '\t' noTab (by simpa using nonempty),
    mapM_eq_some_iff, List.forall₂_map_left_iff, List.forall₂_same]
  intro text _
  exact unescape_escape text

/-- The lines of records of at least one field are read back. -/
theorem decodeLines_encodeLines {records : List (List (List Char))}
    (nonempty : ∀ record ∈ records, record ≠ []) :
    decodeLines (encodeLines records) = some records := by
  let line := fun record : List (List Char) => ['\t'].intercalate (record.map escape)
  have singleLines : ∀ text ∈ records.map line, '\n' ∉ text := by
    intro text member
    obtain ⟨record, _, rfl⟩ := List.mem_map.mp member
    exact not_mem_line (by decide) (by decide) record
  have kept : ∀ record ∈ records, stripCarriageReturn (line record) = line record := by
    intro record _
    have noReturn : (line record).getLast? ≠ some '\r' := by
      intro last
      exact not_mem_line (by decide) (by decide) record (List.mem_of_mem_getLast? last)
    rw [stripCarriageReturn, if_neg noReturn]
  have split : lines (encodeLines records) = records.map line := by
    have broken := lines_flatMap singleLines
    rw [List.flatMap_map, List.map_map] at broken
    rw [encodeLines]
    exact broken.trans (List.map_congr_left kept)
  rw [decodeLines, split, mapM_eq_some_iff, List.forall₂_map_left_iff, List.forall₂_same]
  intro record member
  exact decodeLine_escape (nonempty record member)

/-- Escaped text holds no control character and stands for one text, so the lines
of escaped fields stand for one list of records. -/
theorem escape_injective_controlFree :
    (∀ text : List Char, ∀ char ∈ escape text, isControl char = false) ∧
    Function.Injective escape ∧
    ∀ records : List (List (List Char)), (∀ record ∈ records, record ≠ []) →
      decodeLines (encodeLines records) = some records :=
  ⟨fun _ _ member => not_isControl_escape member, escape_injective,
    fun _ nonempty => decodeLines_encodeLines nonempty⟩

example : escape "é\\\t\r\n\x1b[31m\x7f\u0085".toList =
    "é\\\\\\t\\r\\n\\x1B[31m\\x7F\\u\x7b85\x7d".toList := by decide +kernel

/-! ### What a lookup prints -/

/-- A renderer of tab-separated output: what was printed, and the escaped targets
without a match. -/
structure LookupRenderer where
  unmatchedTargets : List (List Char)
  output : List Char

/-- `LookupSummary`, as far as tab-separated output shows it. -/
structure LookupSummary where
  totalCount : ℕ
  matchedCount : ℕ
  fileMode : Bool

/-- `percent`, with the largest word as the limit of the product. -/
def percent (numerator denominator : ℕ) : ℕ :=
  if denominator = 0 then 0 else min (numerator * 100) (2 ^ 64 - 1) / denominator

/-- The mark of a target without a match. -/
def noMatch : List Char := "NO_MATCH".toList

/-- The last line of a lookup of a file. -/
def summaryLine (summary : LookupSummary) : String :=
  s!"summary: total_ips={summary.totalCount} matched_ips={summary.matchedCount} matched_pct={
    percent summary.matchedCount summary.totalCount}%"

namespace LookupRenderer

/-- `emit`: one line for each match, or one more unmatched target. -/
def emit (renderer : LookupRenderer) (target : List Char) (found : List LookupSourceEntry) :
    LookupRenderer where
  output := renderer.output ++ found.flatMap fun source =>
    escape target ++ '\t' :: escape source.sourceLabel ++ '\t' :: escape source.sourceLine ++ ['\n']
  unmatchedTargets :=
    if found.isEmpty then renderer.unmatchedTargets ++ [escape target] else renderer.unmatchedTargets

/-- `finish`: the unmatched targets and the summary, when the targets are from a file. -/
def finish (renderer : LookupRenderer) (summary : LookupSummary) : List Char :=
  if summary.fileMode then
    renderer.output ++
      (renderer.unmatchedTargets.flatMap fun target => target ++ '\t' :: noMatch ++ ['\n']) ++
      (summaryLine summary).toList ++ ['\n']
  else renderer.output

end LookupRenderer

/-- The records of one target. -/
def matchRecords (target : List Char) (found : List LookupSourceEntry) : List (List (List Char)) :=
  found.map fun source => [target, source.sourceLabel, source.sourceLine]

/-- The records of a whole lookup. -/
def lookupRecords (reports : List (List Char × List LookupSourceEntry)) (summary : LookupSummary) :
    List (List (List Char)) :=
  (reports.flatMap fun report => matchRecords report.1 report.2) ++
    if summary.fileMode then
      ((reports.filter fun report => report.2.isEmpty).map fun report =>
        [report.1, noMatch]) ++ [[(summaryLine summary).toList]]
    else []

/-- What the renderer holds after it was handed these reports. -/
structure Rendered (renderer : LookupRenderer)
    (reports : List (List Char × List LookupSourceEntry)) : Prop where
  output : renderer.output =
    encodeLines (reports.flatMap fun report => matchRecords report.1 report.2)
  unmatched : renderer.unmatchedTargets =
    (reports.filter fun report => report.2.isEmpty).map fun report => escape report.1

theorem encodeLines_append (front back : List (List (List Char))) :
    encodeLines (front ++ back) = encodeLines front ++ encodeLines back := List.flatMap_append

/-- Each report adds its records and, without a match, its target. -/
theorem Rendered.emit {renderer : LookupRenderer}
    {reports : List (List Char × List LookupSourceEntry)} (rendered : Rendered renderer reports)
    (target : List Char) (found : List LookupSourceEntry) :
    Rendered (renderer.emit target found) (reports ++ [(target, found)]) where
  output := by
    simp only [LookupRenderer.emit]
    rw [rendered.output, List.flatMap_append, encodeLines_append, List.flatMap_singleton]
    congr 1
    rw [matchRecords, encodeLines, List.flatMap_map]
    refine List.flatMap_congr fun source _ => ?_
    simp [encodeLine, List.intercalate]
  unmatched := by
    simp only [LookupRenderer.emit]
    rw [rendered.unmatched, List.filter_append, List.map_append]
    by_cases empty : found.isEmpty = true
    · simp [empty]
    · simp [empty]

theorem encodeLine_singleton (field : List Char) : encodeLine [field] = escape field ++ ['\n'] := by
  simp [encodeLine]

/-- The summary is printed as it is. -/
theorem escape_summaryLine (summary : LookupSummary) :
    escape (summaryLine summary).toList = (summaryLine summary).toList := by
  have digits (number : ℕ) : ∀ char ∈ (toString number).toList,
      isControl char = false ∧ char ≠ '\\' := by
    intro char member
    rw [toList_toString] at member
    have isDigit := Nat.isDigit_of_mem_toDigits (by decide) (by decide) member
    have bounds := isDigit_iff.mp isDigit
    constructor
    · simp [isControl]
      omega
    · rintro rfl
      exact absurd isDigit (by decide)
  apply escape_eq_self
  unfold summaryLine
  simp only [String.toList_append, List.forall_mem_append]
  refine ⟨⟨⟨⟨⟨⟨?_, digits _⟩, ?_⟩, digits _⟩, ?_⟩, digits _⟩, ?_⟩
  all_goals simp [isControl, toString]

/-- The lines of the unmatched targets. -/
theorem encodeLines_unmatched (reports : List (List Char × List LookupSourceEntry)) :
    encodeLines (reports.map fun report => [report.1, noMatch]) =
      (reports.map fun report => escape report.1).flatMap fun target =>
        target ++ '\t' :: noMatch ++ ['\n'] := by
  have shown : escape noMatch = noMatch := by decide
  rw [encodeLines, List.flatMap_map, List.flatMap_map]
  refine List.flatMap_congr fun report _ => ?_
  simp [encodeLine, List.intercalate, shown]

/-- The output of a whole lookup is the lines of its records. -/
theorem Rendered.finish {renderer : LookupRenderer}
    {reports : List (List Char × List LookupSourceEntry)} (rendered : Rendered renderer reports)
    (summary : LookupSummary) :
    renderer.finish summary = encodeLines (lookupRecords reports summary) := by
  have lastLine : encodeLines [[(summaryLine summary).toList]] =
      (summaryLine summary).toList ++ ['\n'] := by
    rw [encodeLines, List.flatMap_singleton, encodeLine_singleton, escape_summaryLine]
  unfold LookupRenderer.finish lookupRecords
  rw [encodeLines_append, rendered.output, rendered.unmatched]
  by_cases fileMode : summary.fileMode = true
  · rw [if_pos fileMode, if_pos fileMode, encodeLines_append, encodeLines_unmatched, lastLine,
      List.append_assoc, List.append_assoc]
  · rw [if_neg fileMode, if_neg fileMode]
    exact (List.append_nil _).symm

/-- The targets of a lookup with their matches, in the order of the callback. -/
def reportsOf (sources : List LookupSourceEntry) (prepared : List PreparedTarget) :
    List (List Char × List LookupSourceEntry) :=
  prepared.map fun target =>
    (target.raw, targetMatches target sources (ipv4Index sources) (ipv6Index sources))

theorem rendered_emitBatches {ε : Type} (sources : List LookupSourceEntry)
    (prepared : List PreparedTarget) {renderer last : LookupRenderer}
    {reports : List (List Char × List LookupSourceEntry)} (rendered : Rendered renderer reports)
    (ran : emitBatches sources (ipv4Index sources) (ipv6Index sources)
      (fun target found renderer => (.ok (renderer.emit target found) : Except ε LookupRenderer))
      prepared renderer = .ok last) :
    Rendered last (reports ++ reportsOf sources prepared) := by
  induction prepared generalizing renderer reports with
  | nil =>
    obtain rfl := Except.ok.inj ran
    rwa [reportsOf, List.map_nil, List.append_nil]
  | cons target rest ih =>
    have later := ih (rendered.emit target.raw (targetMatches target sources (ipv4Index sources)
      (ipv6Index sources))) ran
    rwa [List.append_assoc] at later

/-- Whatever its targets and sources hold, the output of a lookup reads back as
the records of its matches and, for a file, of its unmatched targets and summary. -/
theorem decodeLines_lookup {ε : Type} {targets : List (List Char)}
    {sources : List LookupSourceEntry} {last : LookupRenderer} {invalid : List (List Char)}
    (summary : LookupSummary)
    (ran : tryRunLookupByTarget targets sources
      (fun target found renderer => (.ok (renderer.emit target found) : Except ε LookupRenderer))
      ⟨[], []⟩ = .ok (last, invalid)) :
    decodeLines (last.finish summary) =
      some (lookupRecords (reportsOf sources (prepareTargets targets).1) summary) := by
  obtain ⟨renderer, emitted, returned⟩ := bind_eq_ok_iff.mp ran
  obtain ⟨rfl, rfl⟩ := Prod.mk.inj (Except.ok.inj returned)
  have rendered := rendered_emitBatches sources _ (⟨rfl, rfl⟩ : Rendered ⟨[], []⟩ []) emitted
  rw [List.nil_append] at rendered
  rw [rendered.finish]
  refine decodeLines_encodeLines fun record member => ?_
  rcases List.mem_append.mp member with isMatch | isLast
  · obtain ⟨report, _, inReport⟩ := List.mem_flatMap.mp isMatch
    obtain ⟨source, _, rfl⟩ := List.mem_map.mp inReport
    exact List.cons_ne_nil _ _
  · split_ifs at isLast
    · rcases List.mem_append.mp isLast with unmatched | isSummary
      · obtain ⟨report, _, rfl⟩ := List.mem_map.mp unmatched
        exact List.cons_ne_nil _ _
      · rw [List.mem_singleton.mp isSummary]
        exact List.cons_ne_nil _ _
    · cases isLast

end Kidobo
