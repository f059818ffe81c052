import Kidobo.Foundation.Indexes
import Kidobo.Network.Notation
import Kidobo.Network.Effective
import Kidobo.Network.Overlap
import Kidobo.Network.NormalForm

/-!
# The local blocklist

Parsing of the line-oriented document, its canonical form, and the plans for
ban and unban requests. The index of an unban request carries the proof that it
was built from its targets.

## Main definitions

* `BlocklistDocument.parse`, `BlocklistDocument.canonicalizedContents`
* `classifyBanTargets`, `exactMatchIndexes`
* `UnbanTargetIndex.new`, `UnbanTargetIndex.plan`, `UnbanTargetIndex.overlaps`

## Main results

* `UnbanTargetIndex.overlaps_iff`: the merged intervals decide the overlap
* `unbanPlan_pairwise`: the plan agrees with the pairwise definition
* `parse_joinTerminated`: kept lines that are written and read back
-/

namespace Kidobo

open Foundation

/-! ### Documents -/

/-- One original line and its optional canonical network. -/
structure BlocklistLine where
  original : List Char
  canonical : Option CanonicalCidr

/-- A line that is neither blank, nor a comment, nor a network. -/
structure InvalidBlocklistLine where
  lineNumber : ℕ
  content : List Char

/-- Parsed blocklist contents. -/
structure BlocklistDocument where
  lines : List BlocklistLine
  hasContent : Bool
  trailingNewline : Bool

/-- The networks of a document, in document order. -/
def BlocklistDocument.entries (document : BlocklistDocument) : List CanonicalCidr :=
  document.lines.filterMap BlocklistLine.canonical

/-- `parse_blocklist_entry`. -/
def parseBlocklistEntry (line : List Char) (lineNumber : ℕ) :
    Except InvalidBlocklistLine (Option CanonicalCidr) :=
  let trimmed := trim line
  if trimmed.isEmpty || trimmed.head? == some '#' then .ok none
  else
    match parseIpCidrStrict trimmed with
    | some cidr => .ok (some cidr)
    | none => .error ⟨lineNumber, line⟩

/-- Parse lines numbered from here on, up to the first invalid one. -/
def parseLinesFrom (lineNumber : ℕ) :
    List (List Char) → Except InvalidBlocklistLine (List BlocklistLine)
  | [] => .ok []
  | line :: rest => do
    let canonical ← parseBlocklistEntry line lineNumber
    let later ← parseLinesFrom (lineNumber + 1) rest
    return ⟨line, canonical⟩ :: later

/-- `BlocklistDocument::parse`. -/
def BlocklistDocument.parse (contents : List Char) :
    Except InvalidBlocklistLine BlocklistDocument := do
  let parsed ← parseLinesFrom 1 (Foundation.lines contents)
  return ⟨parsed, !contents.isEmpty, contents.getLast? == some '\n'⟩

/-- `canonical_entry_lines`. -/
def canonicalEntryLines (entries : List CanonicalCidr) : List (List Char) :=
  let families := splitByFamily entries
  let collapsed := (collapseIpv4 families.ipv4).map CanonicalCidr.v4 ++
    (collapseIpv6 families.ipv6).map CanonicalCidr.v6
  collapsed.map fun cidr => cidr.display.toList

/-- The leading blank and comment lines. -/
def headerLines : List BlocklistLine → List (List Char)
  | [] => []
  | line :: rest =>
    let trimmed := trim line.original
    if line.canonical.isNone && (trimmed.isEmpty || trimmed.head? == some '#') then
      trimmed :: headerLines rest
    else []

/-- `BlocklistDocument::canonicalized_contents`. -/
def BlocklistDocument.canonicalizedContents (document : BlocklistDocument) : List Char :=
  let header := headerLines document.lines
  let canonicalEntries := canonicalEntryLines (document.lines.filterMap BlocklistLine.canonical)
  let normalized :=
    if canonicalEntries ≠ [] then
      let spaced := if header ≠ [] && header.getLast? ≠ some [] then header ++ [[]] else header
      spaced ++ canonicalEntries
    else if header.getLast? = some [] then header.dropLast
    else header
  joinTerminated normalized

/-- `canonicalize_blocklist`. -/
def canonicalizeBlocklist (contents : List Char) : Except InvalidBlocklistLine (List Char) := do
  let document ← BlocklistDocument.parse contents
  return document.canonicalizedContents

/-! ### Targets -/

/-- `parse_blocklist_target`. -/
def parseBlocklistTarget (input : List Char) : Option CanonicalCidr :=
  parseIpCidrStrict (trim input)

/-- Result of comparing a requested ban target with the current blocklist. -/
inductive BanClassification where
  | added (cidr : CanonicalCidr)
  | alreadyPresent (cidr : CanonicalCidr)

/-- `classify_ban_targets`: earlier new targets count as present. -/
def classifyBanTargets (existing : List CanonicalCidr) :
    List CanonicalCidr → List BanClassification
  | [] => []
  | target :: rest =>
    if target ∈ existing then .alreadyPresent target :: classifyBanTargets existing rest
    else .added target :: classifyBanTargets (target :: existing) rest

/-- `exact_match_indexes`. -/
def exactMatchIndexes (entries : List (Option CanonicalCidr)) (targets : List CanonicalCidr) :
    List ℕ :=
  indexesWhere (fun entry => entry.any fun cidr => decide (cidr ∈ targets)) entries

/-! ### Unban plans -/

/-- Exact and overlapping line indexes affected by an unban request. -/
structure UnbanIndexPlan where
  exactIndexes : List ℕ
  partialIndexes : List ℕ

/-- Sorted, unique targets and their merged coverage. -/
structure UnbanTargetIndex where
  targets : List CanonicalCidr
  ipv4 : List (Interval 32)
  ipv6 : List (Interval 128)
  ascending : targets.Pairwise (· < ·)
  ipv4Coverage :
    ipv4 = mergeIntervalsU32Owned ((splitByFamily targets).ipv4.map toInterval)
  ipv6Coverage :
    ipv6 = mergeIntervalsU128Owned ((splitByFamily targets).ipv6.map toInterval)

namespace UnbanTargetIndex

/-- `UnbanTargetIndex::new`. -/
def new (requested : List CanonicalCidr) : UnbanTargetIndex where
  targets := dedupAdjacent (sortUnstable requested)
  ipv4 := mergeIntervalsU32Owned
    ((splitByFamily (dedupAdjacent (sortUnstable requested))).ipv4.map toInterval)
  ipv6 := mergeIntervalsU128Owned
    ((splitByFamily (dedupAdjacent (sortUnstable requested))).ipv6.map toInterval)
  ascending := dedupAdjacent_sortUnstable_strict requested
  ipv4Coverage := rfl
  ipv6Coverage := rfl

/-- `overlaps`. -/
def overlaps (index : UnbanTargetIndex) : CanonicalCidr → Bool
  | .v4 cidr => overlapsInterval index.ipv4 (toInterval cidr)
  | .v6 cidr => overlapsInterval index.ipv6 (toInterval cidr)

/-- The plan of the entries from this position on. An entry that is a target is
exact, whatever it overlaps. -/
def planFrom (index : UnbanTargetIndex) (position : ℕ) :
    List (Option CanonicalCidr) → UnbanIndexPlan
  | [] => ⟨[], []⟩
  | none :: rest => index.planFrom (position + 1) rest
  | some entry :: rest =>
    let later := index.planFrom (position + 1) rest
    if entry ∈ index.targets then { later with exactIndexes := position :: later.exactIndexes }
    else if index.overlaps entry then
      { later with partialIndexes := position :: later.partialIndexes }
    else later

/-- `plan`. -/
def plan (index : UnbanTargetIndex) (entries : List (Option CanonicalCidr)) : UnbanIndexPlan :=
  index.planFrom 0 entries

/-- An entry that is exactly a target. -/
def isExact (index : UnbanTargetIndex) (entry : CanonicalCidr) : Bool :=
  decide (entry ∈ index.targets)

/-- An entry that overlaps a target and is none. -/
def isPartial (index : UnbanTargetIndex) (entry : CanonicalCidr) : Bool :=
  !index.isExact entry && index.overlaps entry

@[simp] theorem mem_targets_new {requested : List CanonicalCidr} {target : CanonicalCidr} :
    target ∈ (new requested).targets ↔ target ∈ requested := by
  simp [new]

theorem planFrom_eq (index : UnbanTargetIndex) (position : ℕ)
    (entries : List (Option CanonicalCidr)) :
    index.planFrom position entries =
      ⟨indexesFrom (fun entry => entry.any index.isExact) position entries,
        indexesFrom (fun entry => entry.any index.isPartial) position entries⟩ := by
  induction entries generalizing position with
  | nil => rfl
  | cons entry rest ih =>
    cases entry with
    | none => simpa [planFrom, indexesFrom_cons] using ih (position + 1)
    | some entry =>
      rw [planFrom, ih]
      by_cases exact : entry ∈ index.targets
      · simp [indexesFrom_cons, isPartial, isExact, exact]
      · by_cases partly : index.overlaps entry = true <;>
          simp [indexesFrom_cons, isPartial, isExact, exact, partly]

/-- The exact indexes are the positions of the targets. -/
theorem exactIndexes_plan (index : UnbanTargetIndex) (entries : List (Option CanonicalCidr)) :
    (index.plan entries).exactIndexes =
      indexesWhere (fun entry => entry.any index.isExact) entries :=
  congrArg UnbanIndexPlan.exactIndexes (index.planFrom_eq 0 entries)

/-- The partial indexes are the positions of overlapping entries that are no
targets. -/
theorem partialIndexes_plan (index : UnbanTargetIndex) (entries : List (Option CanonicalCidr)) :
    (index.plan entries).partialIndexes =
      indexesWhere (fun entry => entry.any index.isPartial) entries :=
  congrArg UnbanIndexPlan.partialIndexes (index.planFrom_eq 0 entries)

end UnbanTargetIndex

/-! ### Overlap -/

namespace UnbanTargetIndex

/-- The merged intervals decide whether an entry overlaps a target. -/
theorem overlaps_iff (index : UnbanTargetIndex) (entry : CanonicalCidr) :
    index.overlaps entry = true ↔ ∃ target ∈ index.targets, entry.Overlaps target := by
  cases entry with
  | v4 cidr =>
    obtain ⟨sameCover, separated⟩ := mergeIntervalsU32Owned_cidrs (splitByFamily index.targets).ipv4
    rw [overlaps, index.ipv4Coverage, overlapsInterval_iff separated.ascending
      (span_toInterval cidr ▸ cidr.span_valid), sameCover, covered_splitByFamily_ipv4,
      span_toInterval]
    constructor
    · rintro ⟨address, inEntry, target, member, inTarget⟩
      exact ⟨.v4 target, member, address, inEntry, inTarget⟩
    · rintro ⟨target | target, member, overlap⟩
      · obtain ⟨address, inEntry, inTarget⟩ := overlap
        exact ⟨address, inEntry, target, member, inTarget⟩
      · exact overlap.elim
  | v6 cidr =>
    obtain ⟨sameCover, separated⟩ := mergeIntervalsU128Owned_cidrs (splitByFamily index.targets).ipv6
    rw [overlaps, index.ipv6Coverage, overlapsInterval_iff separated.ascending
      (span_toInterval cidr ▸ cidr.span_valid), sameCover, covered_splitByFamily_ipv6,
      span_toInterval]
    constructor
    · rintro ⟨address, inEntry, target, member, inTarget⟩
      exact ⟨.v6 target, member, address, inEntry, inTarget⟩
    · rintro ⟨target | target, member, overlap⟩
      · exact overlap.elim
      · obtain ⟨address, inEntry, inTarget⟩ := overlap
        exact ⟨address, inEntry, target, member, inTarget⟩

theorem isExact_iff (index : UnbanTargetIndex) (entry : CanonicalCidr) :
    index.isExact entry = true ↔ entry ∈ index.targets :=
  decide_eq_true_iff

theorem isPartial_iff (index : UnbanTargetIndex) (entry : CanonicalCidr) :
    index.isPartial entry = true ↔
      (∃ target ∈ index.targets, entry.Overlaps target) ∧ entry ∉ index.targets := by
  rw [isPartial, Bool.and_eq_true, Bool.not_eq_true', ← Bool.not_eq_true, isExact_iff,
    overlaps_iff, and_comm]

/-- Targets with the same members have the same index. -/
theorem new_congr {requested others : List CanonicalCidr}
    (sameMembers : ∀ target, target ∈ others ↔ target ∈ requested) :
    new others = new requested := by
  have sameTargets := dedupAdjacent_sortUnstable_congr sameMembers
  simp only [new, sameTargets]

end UnbanTargetIndex

/-- The plan lists, in document order and each once, the positions of the
entries that are targets and the positions of the entries that overlap a target
by `cidrOverlaps` and are none. Order and repetition of the targets do not
matter. -/
theorem unbanPlan_pairwise (targets : List CanonicalCidr)
    (entries : List (Option CanonicalCidr)) :
    let plan := (UnbanTargetIndex.new targets).plan entries
    (∀ index, index ∈ plan.exactIndexes ↔
      ∃ entry, entries[index]? = some (some entry) ∧ entry ∈ targets) ∧
    (∀ index, index ∈ plan.partialIndexes ↔
      ∃ entry, entries[index]? = some (some entry) ∧
        (∃ target ∈ targets, cidrOverlaps entry target = true) ∧ entry ∉ targets) ∧
    plan.exactIndexes.Pairwise (· < ·) ∧ plan.partialIndexes.Pairwise (· < ·) ∧
    ∀ others, (∀ target, target ∈ others ↔ target ∈ targets) →
      (UnbanTargetIndex.new others).plan entries = plan := by
  intro plan
  refine ⟨?_, ?_, ?_, ?_, ?_⟩
  · intro index
    rw [UnbanTargetIndex.exactIndexes_plan, mem_indexesWhere_any]
    simp only [UnbanTargetIndex.isExact_iff, UnbanTargetIndex.mem_targets_new]
  · intro index
    rw [UnbanTargetIndex.partialIndexes_plan, mem_indexesWhere_any]
    simp only [UnbanTargetIndex.isPartial_iff, UnbanTargetIndex.mem_targets_new,
      cidrOverlaps_iff]
  · rw [UnbanTargetIndex.exactIndexes_plan]
    exact indexesWhere_ascending _ _
  · rw [UnbanTargetIndex.partialIndexes_plan]
    exact indexesWhere_ascending _ _
  · intro others sameMembers
    rw [UnbanTargetIndex.new_congr sameMembers]

/-! ### Parsing again -/

/-- A line whose canonical network is what its text says. -/
def BlocklistLine.Parsed (line : BlocklistLine) : Prop :=
  ∀ lineNumber, parseBlocklistEntry line.original lineNumber = .ok line.canonical

/-- The same line without a final carriage return. -/
def BlocklistLine.stripped (line : BlocklistLine) : BlocklistLine :=
  ⟨stripCarriageReturn line.original, line.canonical⟩

/-- A line that holds more than white space. -/
def BlocklistLine.isNonblank (line : BlocklistLine) : Bool := !(trim line.original).isEmpty

theorem parsed_of_parseBlocklistEntry {line : List Char} {lineNumber : ℕ}
    {canonical : Option CanonicalCidr}
    (parses : parseBlocklistEntry line lineNumber = .ok canonical) :
    (⟨line, canonical⟩ : BlocklistLine).Parsed := by
  intro otherNumber
  unfold parseBlocklistEntry at parses ⊢
  dsimp only at parses ⊢
  split_ifs at parses ⊢ with blank
  · exact parses
  · cases found : parseIpCidrStrict (trim line) with
    | none => simp [found] at parses
    | some cidr => simpa [found] using parses

/-- A final carriage return does not change what a line says. -/
theorem BlocklistLine.Parsed.stripped {line : BlocklistLine} (parsed : line.Parsed) :
    line.stripped.Parsed := by
  intro lineNumber
  have original := parsed lineNumber
  unfold parseBlocklistEntry at original ⊢
  simp only [BlocklistLine.stripped, trim_stripCarriageReturn] at original ⊢
  split_ifs at original ⊢ with blank
  · exact original
  · cases found : parseIpCidrStrict (trim line.original) with
    | none => simp [found] at original
    | some cidr => simpa [found] using original

@[simp] theorem isNonblank_stripped (line : BlocklistLine) :
    line.stripped.isNonblank = line.isNonblank := by
  simp [BlocklistLine.isNonblank, BlocklistLine.stripped, trim_stripCarriageReturn]

/-- A line with a network is not blank. -/
theorem BlocklistLine.Parsed.isNonblank {line : BlocklistLine} (parsed : line.Parsed)
    {cidr : CanonicalCidr} (holds : line.canonical = some cidr) : line.isNonblank = true := by
  have original := parsed 0
  unfold parseBlocklistEntry at original
  rw [holds] at original
  unfold BlocklistLine.isNonblank
  cases blank : (trim line.original).isEmpty with
  | false => rfl
  | true => simp [blank] at original

/-- Parsed lines keep their texts and say what they hold. -/
theorem parsed_of_parseLinesFrom {lineNumber : ℕ} {texts : List (List Char)}
    {parsed : List BlocklistLine} (parses : parseLinesFrom lineNumber texts = .ok parsed) :
    parsed.map BlocklistLine.original = texts ∧ ∀ line ∈ parsed, line.Parsed := by
  induction texts generalizing lineNumber parsed with
  | nil =>
    obtain rfl := Except.ok.inj parses
    simp
  | cons text rest ih =>
    simp only [parseLinesFrom, bind, Except.bind, pure, Except.pure] at parses
    cases first : parseBlocklistEntry text lineNumber with
    | error invalid => simp [first] at parses
    | ok canonical =>
      cases later : parseLinesFrom (lineNumber + 1) rest with
      | error invalid => simp [first, later] at parses
      | ok parsedRest =>
        simp only [first, later, Except.ok.injEq] at parses
        subst parses
        obtain ⟨sameTexts, allParsed⟩ := ih later
        exact ⟨by simp [sameTexts],
          List.forall_mem_cons.mpr ⟨parsed_of_parseBlocklistEntry first, allParsed⟩⟩

/-- Lines that say what they hold are parsed again as they are. -/
theorem parseLinesFrom_originals {parsed : List BlocklistLine}
    (allParsed : ∀ line ∈ parsed, line.Parsed) (lineNumber : ℕ) :
    parseLinesFrom lineNumber (parsed.map BlocklistLine.original) = .ok parsed := by
  induction parsed generalizing lineNumber with
  | nil => rfl
  | cons line rest ih =>
    obtain ⟨lineParsed, restParsed⟩ := List.forall_mem_cons.mp allParsed
    rw [List.map_cons, parseLinesFrom, lineParsed lineNumber, ih restParsed]
    rfl

/-- The lines of a parsed document are the lines of its contents. -/
theorem parse_eq_ok {contents : List Char} {document : BlocklistDocument}
    (parses : BlocklistDocument.parse contents = .ok document) :
    document.lines.map BlocklistLine.original = lines contents ∧
      ∀ line ∈ document.lines, line.Parsed := by
  simp only [BlocklistDocument.parse, bind, Except.bind, pure, Except.pure] at parses
  cases parsed : parseLinesFrom 1 (lines contents) with
  | error invalid => simp [parsed] at parses
  | ok parsedLines =>
    simp only [parsed, Except.ok.injEq] at parses
    subst parses
    exact parsed_of_parseLinesFrom parsed

/-- What a parsed document remembers of its contents as a whole. -/
theorem parse_flags {contents : List Char} {document : BlocklistDocument}
    (parses : BlocklistDocument.parse contents = .ok document) :
    document.hasContent = !contents.isEmpty ∧
      document.trailingNewline = (contents.getLast? == some '\n') := by
  simp only [BlocklistDocument.parse, bind, Except.bind, pure, Except.pure] at parses
  cases parsed : parseLinesFrom 1 (lines contents) with
  | error invalid => simp [parsed] at parses
  | ok parsedLines =>
    simp only [parsed, Except.ok.injEq] at parses
    subst parses
    exact ⟨rfl, rfl⟩

theorem parse_of_lines {contents : List Char} {parsed : List BlocklistLine}
    (sameTexts : lines contents = parsed.map BlocklistLine.original)
    (allParsed : ∀ line ∈ parsed, line.Parsed) :
    ∃ document, BlocklistDocument.parse contents = .ok document ∧ document.lines = parsed := by
  refine ⟨⟨parsed, !contents.isEmpty, contents.getLast? == some '\n'⟩, ?_, rfl⟩
  rw [BlocklistDocument.parse, sameTexts, parseLinesFrom_originals allParsed]
  rfl

/-- Kept lines that are written and read back are the same lines without a
final carriage return. Only a single blank line can be lost. -/
theorem parse_joinTerminated {kept : List BlocklistLine}
    (allParsed : ∀ line ∈ kept, line.Parsed)
    (singleLines : ∀ line ∈ kept, '\n' ∉ line.original) :
    ∃ document, BlocklistDocument.parse (joinTerminated (kept.map BlocklistLine.original)) =
        .ok document ∧
      (document.lines = kept.map BlocklistLine.stripped ∨
        document.lines = [] ∧ ∀ line ∈ kept, line.isNonblank = false) := by
  have strippedParsed : ∀ line ∈ kept.map BlocklistLine.stripped, line.Parsed := by
    intro line member
    obtain ⟨source, inKept, rfl⟩ := List.mem_map.mp member
    exact (allParsed source inKept).stripped
  have single : ∀ text ∈ kept.map BlocklistLine.original, '\n' ∉ text := by
    intro text member
    obtain ⟨line, inKept, rfl⟩ := List.mem_map.mp member
    exact singleLines line inKept
  rcases lines_joinTerminated single with readBack | ⟨oneBlank, nothing⟩
  · have sameTexts : lines (joinTerminated (kept.map BlocklistLine.original)) =
        (kept.map BlocklistLine.stripped).map BlocklistLine.original := by
      rw [readBack, List.map_map, List.map_map]
      rfl
    obtain ⟨document, parses, sameLines⟩ := parse_of_lines sameTexts strippedParsed
    exact ⟨document, parses, Or.inl sameLines⟩
  · obtain ⟨document, parses, noLines⟩ := @parse_of_lines _ [] nothing (by simp)
    refine ⟨document, parses, Or.inr ⟨noLines, ?_⟩⟩
    intro line member
    have blank : line.original ∈ kept.map BlocklistLine.original := List.mem_map_of_mem member
    rw [oneBlank, List.mem_singleton] at blank
    simp [BlocklistLine.isNonblank, blank, trim, trimStart, trimEnd]

end Kidobo
