import Kidobo.Blocklist
import Kidobo.Network.RoundTrip

/-!
# Canonicalising the local blocklist

The canonical text keeps the header, puts a blank line behind it, and lists the
collapsed networks. Read again, it gives the same header and the same networks,
so a second pass changes nothing, with one exception: without any network only
one blank line is removed from the end of the header, and the next pass removes
another one.

## Main definitions

* `normalizeLocalBlocklistWithLimit`
* `headerComments`, `BlocklistDocument.HasLooseTail`

## Main results

* `canonicalizeBlocklist_preserves`: the canonical text keeps the meaning
* `settlesInOnePass_iff`: when a second pass changes nothing
-/

namespace Kidobo

open Foundation

/-! ### The file -/

/-- `BLOCKLIST_READ_LIMIT`. -/
def blocklistReadLimit : ℕ := 16 * 1024 * 1024

/-- Why a local blocklist was not normalised. -/
inductive NormalizeError where
  | read
  | invalid (line : InvalidBlocklistLine)
  | write

/-- `normalize_local_blocklist_with_limit`: what is written, when anything is. A
missing file stays missing. -/
def normalizeLocalBlocklistWithLimit (file : Option (List Char)) (limit : ℕ) :
    Except NormalizeError (Option (List Char)) :=
  match file with
  | none => .ok none
  | some original =>
    if limit < byteLength original then .error .read
    else
      match canonicalizeBlocklist original with
      | .error invalid => .error (.invalid invalid)
      | .ok normalized =>
        if normalized = original then .ok none
        else if limit < byteLength normalized then .error .write
        else .ok (some normalized)

/-! ### Headers -/

/-- The comment lines before the first network, trimmed. -/
def headerComments (documentLines : List BlocklistLine) : List (List Char) :=
  ((documentLines.takeWhile fun line => line.canonical.isNone).map fun line =>
    trim line.original).filter fun text => text.head? == some '#'

/-- A trimmed blank or comment line. -/
structure HeaderText (text : List Char) : Prop where
  trimmed : trim text = text
  silent : text = [] ∨ text.head? = some '#'
  single : '\n' ∉ text

/-- The header as it stands before the networks. -/
def spacedHeader (header : List (List Char)) (hasEntries : Bool) : List (List Char) :=
  if hasEntries then
    if header ≠ [] && header.getLast? ≠ some [] then header ++ [[]] else header
  -- one blank line is taken from the end, not all of them
  else if header.getLast? = some [] then header.dropLast
  else header

/-- The collapsed networks of both families. -/
def collapsedEntries (entries : List CanonicalCidr) : List CanonicalCidr :=
  (collapseIpv4 (splitByFamily entries).ipv4).map CanonicalCidr.v4 ++
    (collapseIpv6 (splitByFamily entries).ipv6).map CanonicalCidr.v6

/-- The text of a network. -/
def CanonicalCidr.line (cidr : CanonicalCidr) : List Char := cidr.display.toList

theorem canonicalEntryLines_eq (entries : List CanonicalCidr) :
    canonicalEntryLines entries = (collapsedEntries entries).map CanonicalCidr.line := rfl

theorem canonicalizedContents_eq (document : BlocklistDocument) :
    document.canonicalizedContents =
      joinTerminated (spacedHeader (headerLines document.lines)
        (!(collapsedEntries document.entries).isEmpty) ++
          (collapsedEntries document.entries).map CanonicalCidr.line) := by
  unfold BlocklistDocument.canonicalizedContents
  dsimp only
  rw [show document.lines.filterMap BlocklistLine.canonical = document.entries from rfl,
    canonicalEntryLines_eq]
  cases collapsedEntries document.entries <;> simp [spacedHeader]

/-- A blank or comment line holds no network, and only such a line does not. -/
theorem BlocklistLine.Parsed.canonical_eq_none_iff {line : BlocklistLine} (parsed : line.Parsed) :
    line.canonical = none ↔ trim line.original = [] ∨ (trim line.original).head? = some '#' := by
  have meaning := parsed 0
  unfold parseBlocklistEntry at meaning
  dsimp only at meaning
  split_ifs at meaning with silent
  · rw [Bool.or_eq_true, List.isEmpty_iff, beq_iff_eq] at silent
    exact iff_of_true (Except.ok.inj meaning).symm silent
  · rw [Bool.or_eq_true, List.isEmpty_iff, beq_iff_eq] at silent
    refine iff_of_false ?_ silent
    intro missing
    cases found : parseIpCidrStrict (trim line.original) with
    | none => simp [found] at meaning
    | some cidr => simp [found, missing] at meaning

/-- The header of a parsed document reaches up to the first network. -/
theorem headerLines_eq {documentLines : List BlocklistLine}
    (allParsed : ∀ line ∈ documentLines, line.Parsed) :
    headerLines documentLines =
      (documentLines.takeWhile fun line => line.canonical.isNone).map fun line =>
        trim line.original := by
  induction documentLines with
  | nil => rfl
  | cons line rest ih =>
    obtain ⟨lineParsed, restParsed⟩ := List.forall_mem_cons.mp allParsed
    have silent := lineParsed.canonical_eq_none_iff
    rw [headerLines, List.takeWhile_cons]
    cases holds : line.canonical with
    | none =>
      have isSilent : ((trim line.original).isEmpty || (trim line.original).head? == some '#') =
          true := by
        rw [Bool.or_eq_true, List.isEmpty_iff, beq_iff_eq]
        exact silent.mp holds
      simp [isSilent, ih restParsed]
    | some cidr => simp

theorem headerText_of_mem_headerLines {documentLines : List BlocklistLine}
    (singleLines : ∀ line ∈ documentLines, '\n' ∉ line.original) {text : List Char}
    (member : text ∈ headerLines documentLines) : HeaderText text := by
  induction documentLines with
  | nil => exact absurd member List.not_mem_nil
  | cons line rest ih =>
    obtain ⟨lineSingle, restSingle⟩ := List.forall_mem_cons.mp singleLines
    rw [headerLines] at member
    split_ifs at member with silent
    · rcases List.mem_cons.mp member with rfl | later
      · simp only [Bool.and_eq_true, Bool.or_eq_true, List.isEmpty_iff, beq_iff_eq] at silent
        exact ⟨trim_trim _, silent.2, fun feed => lineSingle (mem_of_mem_trim feed)⟩
      · exact ih restSingle later
    · exact absurd member List.not_mem_nil

theorem headerText_nil : HeaderText [] := ⟨rfl, Or.inl rfl, List.not_mem_nil⟩

theorem headerText_of_mem_spacedHeader {header : List (List Char)} {hasEntries : Bool}
    (headerTexts : ∀ text ∈ header, HeaderText text) :
    ∀ text ∈ spacedHeader header hasEntries, HeaderText text := by
  intro text member
  unfold spacedHeader at member
  split_ifs at member with entries spaced blank
  · rcases List.mem_append.mp member with inHeader | isBlank
    · exact headerTexts text inHeader
    · rw [List.mem_singleton.mp isBlank]
      exact headerText_nil
  · exact headerTexts text member
  · exact headerTexts text (List.mem_of_mem_dropLast member)
  · exact headerTexts text member

/-! ### Reading the canonical text -/

/-- The lines of the canonical text. -/
def outputLines (header : List (List Char)) (collapsed : List CanonicalCidr) :
    List BlocklistLine :=
  header.map (fun text => ⟨text, none⟩) ++ collapsed.map fun cidr => ⟨cidr.line, some cidr⟩

theorem parsed_headerText {text : List Char} (headerText : HeaderText text) :
    (⟨text, none⟩ : BlocklistLine).Parsed := by
  intro lineNumber
  have silent : (text.isEmpty || text.head? == some '#') = true := by
    rw [Bool.or_eq_true, List.isEmpty_iff, beq_iff_eq]
    exact headerText.silent
  unfold parseBlocklistEntry
  dsimp only
  rw [headerText.trimmed, if_pos silent]

theorem parsed_line (cidr : CanonicalCidr) :
    (⟨cidr.line, some cidr⟩ : BlocklistLine).Parsed := by
  intro lineNumber
  have noComment : cidr.line.head? ≠ some '#' := by
    intro isFirst
    exact (plain_display cidr '#' (List.mem_of_mem_head? isFirst)).2 rfl
  have notSilent : (cidr.line.isEmpty || cidr.line.head? == some '#') = false := by
    rw [Bool.or_eq_false_iff]
    exact ⟨List.isEmpty_eq_false_iff.mpr (display_ne_nil cidr), by simpa using noComment⟩
  unfold parseBlocklistEntry
  dsimp only
  rw [show trim cidr.line = cidr.line from trim_display cidr, notSilent,
    show parseIpCidrStrict cidr.line = some cidr from parseIpCidrStrict_display cidr]
  rfl

theorem lineFeed_not_mem_line (cidr : CanonicalCidr) : '\n' ∉ cidr.line := by
  intro member
  exact absurd (plain_display cidr '\n' member).1 (by decide)

/-- Trimmed text does not end with a carriage return. -/
theorem stripCarriageReturn_of_trimmed {text : List Char} (trimmed : trim text = text) :
    stripCarriageReturn text = text := by
  unfold stripCarriageReturn
  apply if_neg
  intro isLast
  exact absurd (not_isWhitespace_getLast? trimmed isLast) (by decide)

/-- The canonical text is read back line by line; a single blank line leaves no
text at all. -/
theorem parse_output {header : List (List Char)} (headerTexts : ∀ text ∈ header, HeaderText text)
    (collapsed : List CanonicalCidr) :
    ∃ again, BlocklistDocument.parse
        (joinTerminated (header ++ collapsed.map CanonicalCidr.line)) = .ok again ∧
      (again.lines = outputLines header collapsed ∨
        again.lines = [] ∧ header = [[]] ∧ collapsed = []) := by
  have allParsed : ∀ line ∈ outputLines header collapsed, line.Parsed := by
    intro line member
    rcases List.mem_append.mp member with inHeader | inEntries
    · obtain ⟨text, inTexts, rfl⟩ := List.mem_map.mp inHeader
      exact parsed_headerText (headerTexts text inTexts)
    · obtain ⟨cidr, _, rfl⟩ := List.mem_map.mp inEntries
      exact parsed_line cidr
  have texts : (outputLines header collapsed).map BlocklistLine.original =
      header ++ collapsed.map CanonicalCidr.line := by
    simp [outputLines, Function.comp_def]
  have eachText : ∀ text ∈ header ++ collapsed.map CanonicalCidr.line,
      '\n' ∉ text ∧ stripCarriageReturn text = text := by
    intro text member
    rcases List.mem_append.mp member with inHeader | inEntries
    · have headerText := headerTexts text inHeader
      exact ⟨headerText.single, stripCarriageReturn_of_trimmed headerText.trimmed⟩
    · obtain ⟨cidr, _, rfl⟩ := List.mem_map.mp inEntries
      exact ⟨lineFeed_not_mem_line cidr, stripCarriageReturn_of_trimmed (trim_display cidr)⟩
  rcases lines_joinTerminated fun text member => (eachText text member).1 with
    readBack | ⟨oneBlank, nothing⟩
  · have unchanged : (header ++ collapsed.map CanonicalCidr.line).map stripCarriageReturn =
        header ++ collapsed.map CanonicalCidr.line := by
      conv_rhs => rw [← List.map_id (header ++ collapsed.map CanonicalCidr.line)]
      exact List.map_congr_left fun text member => (eachText text member).2
    rw [unchanged, ← texts] at readBack
    rw [← texts]
    obtain ⟨again, parses, sameLines⟩ := parse_of_lines readBack allParsed
    exact ⟨again, parses, Or.inl sameLines⟩
  -- a single blank line without entries is written as nothing
  · obtain ⟨again, parses, noLines⟩ := @parse_of_lines _ [] nothing (by simp)
    refine ⟨again, parses, Or.inr ⟨noLines, ?_⟩⟩
    cases collapsed with
    | nil => simpa using oneBlank
    | cons cidr rest =>
      have isBlank : cidr.line ∈ [[]] := by
        rw [← oneBlank]
        simp
      exact absurd (List.mem_singleton.mp isBlank) (display_ne_nil cidr)

/-! ### The meaning of the canonical text -/

theorem entries_outputLines (header : List (List Char)) (collapsed : List CanonicalCidr) :
    (outputLines header collapsed).filterMap BlocklistLine.canonical = collapsed := by
  simp [outputLines, List.filterMap_append, List.filterMap_map]

theorem takeWhile_outputLines (header : List (List Char)) (collapsed : List CanonicalCidr) :
    ((outputLines header collapsed).takeWhile fun line => line.canonical.isNone) =
      header.map fun text => ⟨text, none⟩ := by
  rw [outputLines, List.takeWhile_append_of_pos (by simp)]
  cases collapsed <;> simp

theorem trimmed_outputHeader {header : List (List Char)}
    (headerTexts : ∀ text ∈ header, HeaderText text) (collapsed : List CanonicalCidr) :
    (((outputLines header collapsed).takeWhile fun line => line.canonical.isNone).map fun line =>
      trim line.original) = header := by
  rw [takeWhile_outputLines, List.map_map]
  conv_rhs => rw [← List.map_id header]
  exact List.map_congr_left fun text member => (headerTexts text member).trimmed

/-- Blank lines at the end of the header are no comments. -/
theorem filter_spacedHeader (header : List (List Char)) (hasEntries : Bool) :
    ((spacedHeader header hasEntries).filter fun text => text.head? == some '#') =
      header.filter fun text => text.head? == some '#' := by
  unfold spacedHeader
  split_ifs with entries spaced blank
  · rw [List.filter_append]
    simp
  · rfl
  · obtain ⟨front, split⟩ := List.getLast?_eq_some_iff.mp blank
    rw [split, List.dropLast_concat, List.filter_append]
    simp
  · rfl

theorem collapsedEntries_ipv4 (entries : List CanonicalCidr) :
    (splitByFamily (collapsedEntries entries)).ipv4 = collapseIpv4 (splitByFamily entries).ipv4 := by
  rw [collapsedEntries, splitByFamily_append]

theorem collapsedEntries_ipv6 (entries : List CanonicalCidr) :
    (splitByFamily (collapsedEntries entries)).ipv6 = collapseIpv6 (splitByFamily entries).ipv6 := by
  rw [collapsedEntries, splitByFamily_append]

theorem collapsedEntries_normalForm (entries : List CanonicalCidr) :
    NormalForm (ipv4Addresses entries) (splitByFamily (collapsedEntries entries)).ipv4 ∧
      NormalForm (ipv6Addresses entries) (splitByFamily (collapsedEntries entries)).ipv6 := by
  rw [collapsedEntries_ipv4, collapsedEntries_ipv6, ← covered_splitByFamily_ipv4,
    ← covered_splitByFamily_ipv6]
  exact ⟨collapseIpv4_normalForm _, collapseIpv6_normalForm _⟩

theorem collapsedEntries_sorted (entries : List CanonicalCidr) :
    (collapsedEntries entries).Pairwise (· < ·) := by
  apply List.pairwise_append.mpr
  refine ⟨?_, ?_, ?_⟩
  · apply List.pairwise_map.mpr
    exact (collapseIpv4_normalForm _).ascending.imp CanonicalCidr.v4_lt_v4.mpr
  · apply List.pairwise_map.mpr
    exact (collapseIpv6_normalForm _).ascending.imp CanonicalCidr.v6_lt_v6.mpr
  · intro left leftMember right rightMember
    obtain ⟨leftCidr, _, rfl⟩ := List.mem_map.mp leftMember
    obtain ⟨rightCidr, _, rfl⟩ := List.mem_map.mp rightMember
    exact CanonicalCidr.v4_lt_v6 leftCidr rightCidr

/-- Collapsing keeps the addresses of both families. -/
theorem addresses_collapsedEntries (entries : List CanonicalCidr) :
    ipv4Addresses (collapsedEntries entries) = ipv4Addresses entries ∧
      ipv6Addresses (collapsedEntries entries) = ipv6Addresses entries := by
  obtain ⟨ipv4, ipv6⟩ := collapsedEntries_normalForm entries
  rw [← covered_splitByFamily_ipv4 (collapsedEntries entries),
    ← covered_splitByFamily_ipv6 (collapsedEntries entries)]
  exact ⟨ipv4.covers, ipv6.covers⟩

/-- Collapsing twice is collapsing once. -/
theorem collapsedEntries_collapsedEntries (entries : List CanonicalCidr) :
    collapsedEntries (collapsedEntries entries) = collapsedEntries entries := by
  obtain ⟨sameIpv4, sameIpv6⟩ := addresses_collapsedEntries entries
  rw [← covered_splitByFamily_ipv4, ← covered_splitByFamily_ipv4] at sameIpv4
  rw [← covered_splitByFamily_ipv6, ← covered_splitByFamily_ipv6] at sameIpv6
  conv_lhs => rw [collapsedEntries, collapseIpv4_congr sameIpv4, collapseIpv6_congr sameIpv6]
  rfl

/-- The canonical text of a document, read again. -/
theorem parse_canonicalizedContents {contents : List Char} {document : BlocklistDocument}
    (parses : BlocklistDocument.parse contents = .ok document) :
    let hasEntries := !(collapsedEntries document.entries).isEmpty
    let header := spacedHeader (headerLines document.lines) hasEntries
    (∀ text ∈ header, HeaderText text) ∧
      ∃ again, BlocklistDocument.parse document.canonicalizedContents = .ok again ∧
        (again.lines = outputLines header (collapsedEntries document.entries) ∨
          again.lines = [] ∧ header = [[]] ∧ collapsedEntries document.entries = []) := by
  intro hasEntries header
  have singleLines : ∀ line ∈ document.lines, '\n' ∉ line.original := by
    intro line member
    have inLines : line.original ∈ lines contents := by
      rw [← (parse_eq_ok parses).1]
      exact List.mem_map_of_mem member
    exact lineFeed_not_mem_of_mem_lines inLines
  have headerTexts : ∀ text ∈ header, HeaderText text :=
    headerText_of_mem_spacedHeader fun text member =>
      headerText_of_mem_headerLines singleLines member
  refine ⟨headerTexts, ?_⟩
  rw [canonicalizedContents_eq]
  exact parse_output headerTexts _

/-- The canonical text of a document whose entries all parse is read without
error, covers the same addresses in both families, keeps the comments before the
first entry, and lists strictly ascending networks in normal form. -/
theorem canonicalizeBlocklist_preserves {contents : List Char} {document : BlocklistDocument}
    (parses : BlocklistDocument.parse contents = .ok document) :
    ∃ output again, canonicalizeBlocklist contents = .ok output ∧
      BlocklistDocument.parse output = .ok again ∧
      ipv4Addresses again.entries = ipv4Addresses document.entries ∧
      ipv6Addresses again.entries = ipv6Addresses document.entries ∧
      headerComments again.lines = headerComments document.lines ∧
      again.entries.Pairwise (· < ·) ∧
      NormalForm (ipv4Addresses document.entries) (splitByFamily again.entries).ipv4 ∧
      NormalForm (ipv6Addresses document.entries) (splitByFamily again.entries).ipv6 := by
  obtain ⟨headerTexts, again, parsesAgain, readBack⟩ := parse_canonicalizedContents parses
  have canonicalized : canonicalizeBlocklist contents = .ok document.canonicalizedContents := by
    rw [canonicalizeBlocklist, parses]
    rfl
  -- the output parses to the written lines, or to none when there was one blank line
  have sameEntries : again.entries = collapsedEntries document.entries := by
    rw [BlocklistDocument.entries]
    rcases readBack with sameLines | ⟨noLines, -, noEntries⟩
    · rw [sameLines, entries_outputLines]
    · rw [noLines, noEntries]
      rfl
  have sameComments : headerComments again.lines = headerComments document.lines := by
    have original : headerComments document.lines =
        (headerLines document.lines).filter fun text => text.head? == some '#' := by
      rw [headerLines_eq (parse_eq_ok parses).2]
      rfl
    rw [original, ← filter_spacedHeader (headerLines document.lines)
      (!(collapsedEntries document.entries).isEmpty)]
    rcases readBack with sameLines | ⟨noLines, blankHeader, -⟩
    · rw [sameLines, headerComments, trimmed_outputHeader headerTexts]
    · rw [noLines, blankHeader]
      rfl
  obtain ⟨sameIpv4, sameIpv6⟩ := addresses_collapsedEntries document.entries
  obtain ⟨ipv4, ipv6⟩ := collapsedEntries_normalForm document.entries
  refine ⟨_, again, canonicalized, parsesAgain, ?_⟩
  rw [sameEntries]
  exact ⟨sameIpv4, sameIpv6, sameComments, collapsedEntries_sorted _, ipv4, ipv6⟩

/-- A comment, a host inside a network, and the network. -/
theorem canonicalizeBlocklist_preserves_nested :
    ∃ output again, canonicalizeBlocklist "# top \n10.0.0.1/32\n10.0.0.0/8\n".toList = .ok output ∧
      BlocklistDocument.parse output = .ok again ∧ again.entries.Pairwise (· < ·) := by
  have allParse : (BlocklistDocument.parse
      "# top \n10.0.0.1/32\n10.0.0.0/8\n".toList).toOption.isSome = true := by decide +kernel
  cases parses : BlocklistDocument.parse "# top \n10.0.0.1/32\n10.0.0.0/8\n".toList with
  | error invalid =>
    rw [parses] at allParse
    exact absurd allParse Bool.false_ne_true
  | ok document =>
    obtain ⟨output, again, canonicalized, parsesAgain, -, -, -, sorted, -⟩ :=
      canonicalizeBlocklist_preserves parses
    exact ⟨output, again, canonicalized, parsesAgain, sorted⟩

/-! ### A second pass -/

/-- Canonicalising gives a text that canonicalising leaves alone, so a file that
holds it is not written again. -/
def SettlesInOnePass (contents : List Char) : Prop :=
  ∃ output, canonicalizeBlocklist contents = .ok output ∧
    canonicalizeBlocklist output = .ok output ∧
    ∀ limit, byteLength output ≤ limit →
      normalizeLocalBlocklistWithLimit (some output) limit = .ok none

/-- No network, at least three lines, and the last two of them blank. -/
def BlocklistDocument.HasLooseTail (document : BlocklistDocument) : Prop :=
  document.entries = [] ∧ 2 < document.lines.length ∧
    (document.lines.map fun line => trim line.original).drop (document.lines.length - 2) =
      [[], []]

theorem spacedHeader_spacedHeader (header : List (List Char)) :
    spacedHeader (spacedHeader header true) true = spacedHeader header true := by
  by_cases unspaced : header ≠ [] ∧ header.getLast? ≠ some []
  · simp [spacedHeader, unspaced]
  · simp [spacedHeader, unspaced]

/-- Without networks a second pass changes nothing unless two blank lines end a
header that holds more. -/
theorem spacedHeader_fixed_iff (header : List (List Char)) :
    joinTerminated (spacedHeader (spacedHeader header false) false) =
        joinTerminated (spacedHeader header false) ↔
      ¬∃ front, front ≠ [] ∧ header = front ++ [[], []] := by
  have unchanged : ∀ {texts : List (List Char)}, texts.getLast? ≠ some [] →
      spacedHeader texts false = texts := by
    intro texts settled
    simp [spacedHeader, settled]
  have shortened : ∀ front : List (List Char), spacedHeader (front ++ [[]]) false = front := by
    intro front
    simp [spacedHeader]
  -- a pass takes one blank line from the end, so two of them take two passes
  by_cases blank : header.getLast? = some []
  · obtain ⟨first, rfl⟩ := List.getLast?_eq_some_iff.mp blank
    rw [shortened]
    by_cases again : first.getLast? = some []
    · obtain ⟨front, rfl⟩ := List.getLast?_eq_some_iff.mp again
      rw [shortened]
      constructor
      · intro same ⟨rest, nonempty, split⟩
        have sameFront : front = rest := by
          have ends : front ++ [[], []] = rest ++ [[], []] := by simpa using split
          exact List.append_cancel_right ends
        exact joinTerminated_append_blank nonempty (sameFront ▸ same).symm
      · intro never
        have noFront : front = [] := by
          by_contra nonempty
          exact never ⟨front, nonempty, by simp⟩
        rw [noFront]
        rfl
    · rw [unchanged again]
      refine iff_of_true rfl ?_
      rintro ⟨front, -, split⟩
      have ends : first = front ++ [[]] := by
        have same : first ++ [[]] = (front ++ [[]]) ++ [[]] := by simpa using split
        exact List.append_cancel_right same
      exact again (by simp [ends])
  · rw [unchanged blank]
    rw [unchanged blank]
    refine iff_of_true rfl ?_
    rintro ⟨front, -, split⟩
    exact blank (by simp [split])

theorem collapsedEntries_eq_nil_iff (entries : List CanonicalCidr) :
    collapsedEntries entries = [] ↔ entries = [] := by
  obtain ⟨sameIpv4, sameIpv6⟩ := addresses_collapsedEntries entries
  constructor
  · intro noneLeft
    rw [noneLeft] at sameIpv4 sameIpv6
    apply List.eq_nil_iff_forall_not_mem.mpr
    intro entry member
    cases entry with
    | v4 cidr =>
      have inside : cidr.span.lo ∈ ipv4Addresses entries :=
        ⟨cidr, member, le_rfl, cidr.span_valid⟩
      rw [← sameIpv4] at inside
      obtain ⟨_, missing, _⟩ := inside
      exact absurd missing List.not_mem_nil
    | v6 cidr =>
      have inside : cidr.span.lo ∈ ipv6Addresses entries :=
        ⟨cidr, member, le_rfl, cidr.span_valid⟩
      rw [← sameIpv6] at inside
      obtain ⟨_, missing, _⟩ := inside
      exact absurd missing List.not_mem_nil
  · intro noEntries
    rw [noEntries]
    rfl

/-- The second pass starts from the header that the first one left. -/
theorem canonicalize_again {contents : List Char} {document : BlocklistDocument}
    (parses : BlocklistDocument.parse contents = .ok document) :
    let collapsed := collapsedEntries document.entries
    let header := spacedHeader (headerLines document.lines) (!collapsed.isEmpty)
    canonicalizeBlocklist document.canonicalizedContents =
      .ok (joinTerminated (spacedHeader header (!collapsed.isEmpty) ++
        collapsed.map CanonicalCidr.line)) := by
  intro collapsed header
  obtain ⟨headerTexts, again, parsesAgain, readBack⟩ := parse_canonicalizedContents parses
  rw [canonicalizeBlocklist, parsesAgain]
  change Except.ok again.canonicalizedContents = _
  rw [canonicalizedContents_eq, BlocklistDocument.entries]
  congr 2
  rcases readBack with sameLines | ⟨noLines, blankHeader, noEntries⟩
  · have sameHeader : headerLines again.lines = header := by
      rw [headerLines_eq (parse_eq_ok parsesAgain).2, sameLines]
      exact trimmed_outputHeader headerTexts _
    rw [sameHeader, sameLines, entries_outputLines, collapsedEntries_collapsedEntries]
  · have isBlank : header = [[]] := blankHeader
    rw [noLines, isBlank, show collapsed = [] from noEntries]
    rfl

/-- The header of a document without networks is all of it. -/
theorem headerLines_of_entries_eq_nil {contents : List Char} {document : BlocklistDocument}
    (parses : BlocklistDocument.parse contents = .ok document) (noEntries : document.entries = []) :
    headerLines document.lines = document.lines.map fun line => trim line.original := by
  rw [headerLines_eq (parse_eq_ok parses).2, List.takeWhile_eq_self_iff.mpr]
  intro line member
  rw [Option.isNone_iff_eq_none]
  exact List.filterMap_eq_nil_iff.mp noEntries line member

theorem hasLooseTail_iff {contents : List Char} {document : BlocklistDocument}
    (parses : BlocklistDocument.parse contents = .ok document) :
    document.HasLooseTail ↔ document.entries = [] ∧
      ∃ front, front ≠ [] ∧ headerLines document.lines = front ++ [[], []] := by
  apply and_congr_right
  intro noEntries
  rw [headerLines_of_entries_eq_nil parses noEntries]
  have sameLength : (document.lines.map fun line => trim line.original).length =
      document.lines.length := List.length_map _
  rw [← sameLength]
  generalize (document.lines.map fun line => trim line.original) = texts
  constructor
  · rintro ⟨long, tail⟩
    refine ⟨texts.take (texts.length - 2), ?_, ?_⟩
    · apply List.ne_nil_of_length_pos
      rw [List.length_take]
      omega
    · rw [← tail, List.take_append_drop]
  · rintro ⟨front, nonempty, rfl⟩
    have positive := List.length_pos_iff.mpr nonempty
    constructor
    · simp
      omega
    · simp

/-- For a document whose entries all parse, canonicalising settles in one pass
exactly when the document has a network, fewer than three lines, or a line that
is not blank among its last two. -/
theorem settlesInOnePass_iff {contents : List Char} {document : BlocklistDocument}
    (parses : BlocklistDocument.parse contents = .ok document) :
    SettlesInOnePass contents ↔ ¬document.HasLooseTail := by
  have first : canonicalizeBlocklist contents = .ok document.canonicalizedContents := by
    rw [canonicalizeBlocklist, parses]
    rfl
  have second := canonicalize_again parses
  dsimp only at second
  have fixedIff : SettlesInOnePass contents ↔
      canonicalizeBlocklist document.canonicalizedContents =
        .ok document.canonicalizedContents := by
    constructor
    · rintro ⟨output, canonicalized, fixed, -⟩
      rw [first, Except.ok.injEq] at canonicalized
      rw [canonicalized]
      exact fixed
    · intro fixed
      refine ⟨_, first, fixed, ?_⟩
      intro limit fits
      simp [normalizeLocalBlocklistWithLimit, Nat.not_lt.mpr fits, fixed]
  rw [fixedIff, second, Except.ok.injEq, canonicalizedContents_eq, hasLooseTail_iff parses,
    not_and]
  by_cases noEntries : document.entries = []
  · have noneCollapsed := (collapsedEntries_eq_nil_iff document.entries).mpr noEntries
    rw [noneCollapsed]
    simp only [List.isEmpty_nil, Bool.not_true, List.map_nil, List.append_nil]
    rw [spacedHeader_fixed_iff]
    exact ⟨fun fixed _ => fixed, fun fixed => fixed noEntries⟩
  · have someCollapsed : (collapsedEntries document.entries).isEmpty = false := by
      rw [List.isEmpty_eq_false_iff]
      exact fun none => noEntries ((collapsedEntries_eq_nil_iff _).mp none)
    rw [someCollapsed, Bool.not_false, spacedHeader_spacedHeader]
    exact iff_of_true rfl fun none => absurd none noEntries

/-- A comment and two blank lines: the first pass removes one of them and the
second pass the other. -/
theorem settlesInOnePass_fails :
    ¬∀ contents document, BlocklistDocument.parse contents = .ok document →
      SettlesInOnePass contents := by
  intro always
  have parses : BlocklistDocument.parse "# header\n\n\n".toList =
      .ok ⟨[⟨"# header".toList, none⟩, ⟨[], none⟩, ⟨[], none⟩], true, true⟩ := by
    rfl
  obtain ⟨output, first, second, -⟩ := always _ _ parses
  have isFirst : canonicalizeBlocklist "# header\n\n\n".toList = .ok "# header\n\n".toList := by
    rfl
  have isSecond : canonicalizeBlocklist "# header\n\n".toList = .ok "# header\n".toList := by
    rfl
  rw [isFirst, Except.ok.injEq] at first
  rw [← first, isSecond, Except.ok.injEq] at second
  exact absurd second (by decide)

theorem settlesInOnePass_iff_header :
    SettlesInOnePass "# header\n\n".toList := by
  have parses : BlocklistDocument.parse "# header\n\n".toList =
      .ok ⟨[⟨"# header".toList, none⟩, ⟨[], none⟩], true, true⟩ := by
    rfl
  apply (settlesInOnePass_iff parses).mpr
  rintro ⟨-, long, -⟩
  exact absurd long (by decide)

end Kidobo
