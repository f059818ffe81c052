import Kidobo.App.Unban
import Kidobo.App.Stores

/-!
# What an unban does to the two stores

An unban removes, from the blocklist and from the temporary records, the entries
that are targets and, with the operator's consent, the entries that overlap a
target. Here the plan over positions is compared with plain filters of the two
stores, and the workflow with the stores that the filters leave.

## Main definitions

* `exactly`, `partly`, `UnbanDecision.removes`: the entries a target meets
* `matchesIn`: how the entries that pass a test are shown
* `Stores.unbanned`: the stores without the removed entries
* `UnbanFailure`: every way to fail, with the state that is left

## Main results

* `exactEntries_unbanPlan`, `removePlanned_eq`: the plan is a filter
* `parse_unbanned`: the written blocklist is read back as the kept lines
* `applyUnban_contract`: the contract of an unban
-/

namespace Kidobo

open Foundation

/-! ### Matching entries -/

/-- An entry that is one of the targets. -/
def exactly (targets : List CanonicalCidr) (cidr : CanonicalCidr) : Bool :=
  decide (cidr ∈ targets)

/-- An entry that overlaps a target and is none. -/
def partly (targets : List CanonicalCidr) (cidr : CanonicalCidr) : Bool :=
  !exactly targets cidr && targets.any (cidrOverlaps cidr)

/-- The entries that an unban with this decision removes. -/
def UnbanDecision.removes (decision : UnbanDecision) (targets : List CanonicalCidr)
    (cidr : CanonicalCidr) : Bool :=
  exactly targets cidr || (decision.removePartial && partly targets cidr)

/-- How the entries that pass a test are shown. -/
def matchesIn (test : CanonicalCidr → Bool) (document : BlocklistDocument)
    (temporary : TemporaryBans) : List String :=
  (document.entries.filter test).map CanonicalCidr.display ++
    (temporary.ips.entries.filter fun record => test record.1).map fun record =>
      displayTemporary record.1 record.2

theorem isExact_new (targets : List CanonicalCidr) :
    (UnbanTargetIndex.new targets).isExact = exactly targets := by
  funext cidr
  rw [Bool.eq_iff_iff, UnbanTargetIndex.isExact_iff, UnbanTargetIndex.mem_targets_new, exactly,
    decide_eq_true_iff]

theorem isPartial_new (targets : List CanonicalCidr) :
    (UnbanTargetIndex.new targets).isPartial = partly targets := by
  funext cidr
  rw [UnbanTargetIndex.isPartial, partly, isExact_new]
  congr 1
  rw [Bool.eq_iff_iff, UnbanTargetIndex.overlaps_iff, List.any_eq_true]
  simp only [UnbanTargetIndex.mem_targets_new, cidrOverlaps_iff]

/-- A network overlaps itself. -/
theorem CanonicalCidr.overlaps_self (cidr : CanonicalCidr) : cidr.Overlaps cidr := by
  cases cidr with
  | v4 cidr => exact ⟨cidr.span.lo, ⟨le_rfl, cidr.span_valid⟩, ⟨le_rfl, cidr.span_valid⟩⟩
  | v6 cidr => exact ⟨cidr.span.lo, ⟨le_rfl, cidr.span_valid⟩, ⟨le_rfl, cidr.span_valid⟩⟩

/-- With consent, exactly the entries that overlap a target are removed. -/
theorem removes_partial_iff {decision : UnbanDecision} (accepted : decision.removePartial = true)
    {targets : List CanonicalCidr} {cidr : CanonicalCidr} :
    decision.removes targets cidr = true ↔ ∃ target ∈ targets, cidr.Overlaps target := by
  have anyOverlap : targets.any (cidrOverlaps cidr) = true ↔
      ∃ target ∈ targets, cidr.Overlaps target := by
    rw [List.any_eq_true]
    simp only [cidrOverlaps_iff]
  rw [UnbanDecision.removes, accepted, Bool.true_and, Bool.or_eq_true, ← anyOverlap]
  by_cases isTarget : cidr ∈ targets
  · have overlaps : targets.any (cidrOverlaps cidr) = true :=
      anyOverlap.mpr ⟨cidr, isTarget, cidr.overlaps_self⟩
    simp [exactly, isTarget, overlaps]
  · simp [exactly, partly, isTarget]

/-- Without consent, exactly the targets are removed. -/
theorem removes_exact {decision : UnbanDecision} (declined : decision.removePartial = false)
    (targets : List CanonicalCidr) : decision.removes targets = exactly targets := by
  funext cidr
  rw [UnbanDecision.removes, declined, Bool.false_and, Bool.or_false]

/-! ### The plan as a filter -/

section Plan

variable (targets : List CanonicalCidr) (document : BlocklistDocument) (temporary : TemporaryBans)

theorem entries_filter (test : CanonicalCidr → Bool) (lines : List BlocklistLine) :
    (lines.filter fun line => line.canonical.any test).filterMap BlocklistLine.canonical =
      (lines.filterMap BlocklistLine.canonical).filter test :=
  filterMap_filter_any BlocklistLine.canonical test lines

theorem entriesForIndexes_indexesWhere (test : CanonicalCidr → Bool) :
    entriesForIndexes document (indexesWhere (fun entry => entry.any test)
        (document.lines.map BlocklistLine.canonical)) =
      (document.entries.filter test).map CanonicalCidr.display := by
  rw [entriesForIndexes, indexesWhere_map, filterMap_getElem?_indexesWhere]
  have shown : (fun line : BlocklistLine => line.canonical.map CanonicalCidr.display) =
      fun line => (line.canonical).bind (some ∘ CanonicalCidr.display) := by
    funext line
    cases line.canonical <;> rfl
  rw [shown, ← List.filterMap_filterMap, List.filterMap_eq_map]
  exact congrArg (List.map CanonicalCidr.display) (entries_filter test document.lines)

theorem temporaryRecords_indexesWhere (test : CanonicalCidr → Bool) :
    temporaryRecords temporary (indexesWhere (fun entry => entry.any test)
        (temporary.ips.keys.map some)) =
      temporary.ips.entries.filter fun record => test record.1 := by
  rw [temporaryRecords, indexesWhere_map, filterMap_getElem?_indexesWhere]
  exact temporary.ips.filterMap_lookup_filter_keys test

theorem exactEntries_unbanPlan :
    (unbanPlan (.new targets) document temporary).exactEntries =
      sortUnstable (matchesIn (exactly targets) document temporary) := by
  simp only [unbanPlan, UnbanTargetIndex.exactIndexes_plan, isExact_new]
  rw [entriesForIndexes_indexesWhere, temporaryRecords_indexesWhere, matchesIn]

theorem partialEntries_unbanPlan :
    (unbanPlan (.new targets) document temporary).partialEntries =
      sortUnstable (matchesIn (partly targets) document temporary) := by
  simp only [unbanPlan, UnbanTargetIndex.partialIndexes_plan, isPartial_new]
  rw [entriesForIndexes_indexesWhere, temporaryRecords_indexesWhere, matchesIn]

/-- The positions of both stores are as many as the entries they show. -/
theorem length_indexes (test : CanonicalCidr → Bool) :
    (indexesWhere (fun entry => entry.any test)
        (document.lines.map BlocklistLine.canonical)).length +
      (indexesWhere (fun entry => entry.any test) (temporary.ips.keys.map some)).length =
      (matchesIn test document temporary).length := by
  have permanent := length_indexesWhere_any BlocklistLine.canonical test document.lines
  have temporaryKeys : ((temporary.ips.keys).filter test).length =
      (temporary.ips.entries.filter fun record => test record.1).length := by
    rw [SortedMap.keys, List.filter_map, List.length_map]
    rfl
  rw [indexesWhere_map, indexesWhere_map, matchesIn, List.length_append, List.length_map,
    List.length_map, ← temporaryKeys, ← length_indexesWhere test temporary.ips.keys]
  exact congrArg (· + _) permanent

/-- The recorded matches are the temporary records that meet a target. -/
theorem temporaryMatches_unbanPlan :
    (unbanPlan (.new targets) document temporary).temporaryMatches =
      temporary.ips.retain fun target _ => exactly targets target || partly targets target := by
  simp only [unbanPlan, UnbanTargetIndex.exactIndexes_plan, UnbanTargetIndex.partialIndexes_plan,
    isExact_new, isPartial_new]
  rw [temporaryRecords_indexesWhere, temporaryRecords_indexesWhere, recordMap]
  have distinct : (((temporary.ips.entries.filter fun record => exactly targets record.1) ++
      temporary.ips.entries.filter fun record => partly targets record.1).map Prod.fst).Nodup := by
    rw [List.map_append, List.nodup_append]
    refine ⟨?_, ?_, ?_⟩
    · exact temporary.ips.nodup_keys.sublist (List.filter_sublist.map Prod.fst)
    · exact temporary.ips.nodup_keys.sublist (List.filter_sublist.map Prod.fst)
    · intro left leftIn right rightIn same
      obtain ⟨leftRecord, leftMember, rfl⟩ := List.mem_map.mp leftIn
      obtain ⟨rightRecord, rightMember, rfl⟩ := List.mem_map.mp rightIn
      have exact := (List.mem_filter.mp leftMember).2
      have part := (List.mem_filter.mp rightMember).2
      rw [← same, partly, exact] at part
      cases part
  apply SortedMap.eq_of_mem_iff
  intro record
  rw [SortedMap.mem_entries_foldl_insert distinct, SortedMap.mem_entries_retain, List.mem_append,
    List.mem_filter, List.mem_filter, Bool.or_eq_true, and_or_left]
  simp [SortedMap.empty]

/-- The lines that a decision leaves. -/
def BlocklistDocument.keptLines (document : BlocklistDocument) (targets : List CanonicalCidr)
    (decision : UnbanDecision) : List BlocklistLine :=
  document.lines.filter fun line => !line.canonical.any (decision.removes targets)

/-- The temporary records that a decision leaves. -/
def TemporaryBans.kept (temporary : TemporaryBans) (targets : List CanonicalCidr)
    (decision : UnbanDecision) : TemporaryBans :=
  { temporary with ips := temporary.ips.retain fun target _ => !decision.removes targets target }

variable (decision : UnbanDecision)

/-- A position is removed when its entry is. -/
theorem mem_removed_iff (entries : List (Option CanonicalCidr)) {index : ℕ} :
    index ∈ ((UnbanTargetIndex.new targets).plan entries).removed decision ↔
      ∃ entry, entries[index]? = some (some entry) ∧ decision.removes targets entry = true := by
  rw [UnbanIndexPlan.removed, UnbanTargetIndex.exactIndexes_plan,
    UnbanTargetIndex.partialIndexes_plan, isExact_new, isPartial_new, List.mem_append,
    mem_indexesWhere_any]
  cases accepted : decision.removePartial with
  | false => simp [removes_exact accepted]
  | true =>
    rw [if_pos rfl, mem_indexesWhere_any]
    constructor
    · rintro (⟨entry, found, exact⟩ | ⟨entry, found, part⟩)
      · exact ⟨entry, found, by simp [UnbanDecision.removes, exact]⟩
      · exact ⟨entry, found, by simp [UnbanDecision.removes, accepted, part]⟩
    · rintro ⟨entry, found, removed⟩
      rw [UnbanDecision.removes, accepted, Bool.true_and, Bool.or_eq_true] at removed
      rcases removed with exact | part
      · exact Or.inl ⟨entry, found, exact⟩
      · exact Or.inr ⟨entry, found, part⟩

/-- Removing the planned positions leaves the kept lines. -/
theorem removeIndexes_removed :
    let removed := ((UnbanTargetIndex.new targets).plan
      (document.lines.map BlocklistLine.canonical)).removed decision
    removeIndexes (fun index => decide (index ∈ removed)) document.lines =
      document.keptLines targets decision := by
  intro removed
  apply removeIndexes_eq_filter
  intro index line found
  rw [Bool.eq_iff_iff, decide_eq_true_iff, mem_removed_iff, List.getElem?_map, found,
    Option.map_some, Option.any_eq_true]
  constructor
  · rintro ⟨entry, same, removed⟩
    exact ⟨entry, Option.some.inj same, removed⟩
  · rintro ⟨entry, same, removed⟩
    exact ⟨entry, congrArg some same, removed⟩

/-- Some position is removed exactly when some entry is. -/
theorem removed_ne_nil_iff (entries : List (Option CanonicalCidr)) :
    ((UnbanTargetIndex.new targets).plan entries).removed decision ≠ [] ↔
      ∃ entry ∈ entries.filterMap id, decision.removes targets entry = true := by
  rw [Ne, List.eq_nil_iff_forall_not_mem, not_forall_not]
  simp only [mem_removed_iff, List.mem_filterMap, id]
  constructor
  · rintro ⟨index, entry, found, removed⟩
    exact ⟨entry, ⟨some entry, List.mem_of_getElem? found, rfl⟩, removed⟩
  · rintro ⟨entry, ⟨_, member, rfl⟩, removed⟩
    obtain ⟨index, found⟩ := List.mem_iff_getElem?.mp member
    exact ⟨index, entry, found, removed⟩

/-- Removing targets one after another keeps the records of the others. -/
theorem removeTemporary_fst (removals : List CanonicalCidr) (ips : SortedMap CanonicalCidr ℕ) :
    (removeTemporary removals ips).1 = ips.retain fun target _ => decide (target ∉ removals) := by
  induction removals generalizing ips with
  | nil =>
    apply SortedMap.eq_of_mem_iff
    intro record
    simp [removeTemporary]
  | cons target rest ih =>
    apply SortedMap.eq_of_mem_iff
    intro record
    simp [removeTemporary, ih, SortedMap.remove, and_assoc]

/-- Something is removed exactly when some target is recorded. -/
theorem removeTemporary_snd_pos (removals : List CanonicalCidr)
    (ips : SortedMap CanonicalCidr ℕ) :
    0 < (removeTemporary removals ips).2 ↔ ∃ target ∈ removals, target ∈ ips.keys := by
  induction removals generalizing ips with
  | nil => simp [removeTemporary]
  | cons target rest ih =>
    change 0 < (removeTemporary rest (ips.remove target)).2 +
      (if (ips.lookup target).isSome = true then 1 else 0) ↔ _
    by_cases present : target ∈ ips.keys
    · rw [if_pos (SortedMap.isSome_lookup_iff.mpr present)]
      exact iff_of_true (Nat.succ_pos _) ⟨target, List.mem_cons_self, present⟩
    · rw [if_neg (mt SortedMap.isSome_lookup_iff.mp present), Nat.add_zero, ih]
      constructor
      · rintro ⟨other, inRest, recorded⟩
        exact ⟨other, List.mem_cons_of_mem _ inRest, (SortedMap.mem_keys_remove.mp recorded).1⟩
      · rintro ⟨other, member, recorded⟩
        have different : other ≠ target := by
          rintro rfl
          exact present recorded
        exact ⟨other, List.mem_of_ne_of_mem different member,
          SortedMap.mem_keys_remove.mpr ⟨recorded, different⟩⟩

/-- The temporary records behind the planned removals. -/
theorem removeTemporary_removed :
    let plan := unbanPlan (.new targets) document temporary
    let removals := (plan.temporary.removed decision).filterMap (plan.temporaryTargets[·]?)
    (removeTemporary removals temporary.ips).1 = (temporary.kept targets decision).ips ∧
      (0 < (removeTemporary removals temporary.ips).2 ↔
        ∃ target ∈ temporary.ips.keys, decision.removes targets target = true) := by
  intro plan removals
  have mem_removals : ∀ target, target ∈ removals ↔
      target ∈ temporary.ips.keys ∧ decision.removes targets target = true := by
    intro target
    rw [List.mem_filterMap]
    simp only [plan, unbanPlan, mem_removed_iff, List.getElem?_map]
    constructor
    · rintro ⟨index, ⟨entry, found, removed⟩, atIndex⟩
      rw [atIndex, Option.map_some, Option.some.injEq, Option.some.injEq] at found
      subst found
      exact ⟨List.mem_of_getElem? atIndex, removed⟩
    · rintro ⟨recorded, removed⟩
      obtain ⟨index, atIndex⟩ := List.mem_iff_getElem?.mp recorded
      exact ⟨index, ⟨target, by rw [atIndex, Option.map_some], removed⟩, atIndex⟩
  constructor
  · rw [removeTemporary_fst, TemporaryBans.kept]
    apply SortedMap.eq_of_mem_iff
    intro record
    rw [SortedMap.mem_entries_retain, SortedMap.mem_entries_retain, decide_eq_true_iff,
      mem_removals, Bool.not_eq_true', ← Bool.not_eq_true]
    apply and_congr_right
    intro member
    have recorded : record.1 ∈ temporary.ips.keys := List.mem_map_of_mem member
    simp [recorded]
  · rw [removeTemporary_snd_pos]
    simp only [mem_removals]
    constructor
    · rintro ⟨target, ⟨_, removed⟩, recorded⟩
      exact ⟨target, recorded, removed⟩
    · rintro ⟨target, recorded, removed⟩
      exact ⟨target, ⟨recorded, removed⟩, recorded⟩

end Plan

/-! ### The stores behind an unban -/

/-- The stores without the removed entries. A blocklist that loses nothing is
not written. -/
def Stores.unbanned (stores : Stores) (document : BlocklistDocument)
    (targets : List CanonicalCidr) (decision : UnbanDecision) : Stores where
  blocklist :=
    if document.entries.any (decision.removes targets) then
      some (joinTerminated ((document.keptLines targets decision).map BlocklistLine.original))
    else stores.blocklist
  temporary := stores.temporary.kept targets decision
  configuration := stores.configuration

/-- The same line, up to a final carriage return. -/
def BlocklistLine.SameText (new old : BlocklistLine) : Prop :=
  new.canonical = old.canonical ∧
    (new.original = old.original ∨ new.original = stripCarriageReturn old.original)

section Files

variable {document : BlocklistDocument} {targets : List CanonicalCidr} {decision : UnbanDecision}

/-- Removing the lines of some networks removes these networks. -/
theorem canonical_filter_not (test : CanonicalCidr → Bool) (lines : List BlocklistLine) :
    (lines.filter fun line => !line.canonical.any test).filterMap BlocklistLine.canonical =
      (lines.filterMap BlocklistLine.canonical).filter fun cidr => !test cidr := by
  induction lines with
  | nil => rfl
  | cons line rest ih =>
    cases seen : line.canonical with
    | none => simp [seen, ih]
    | some cidr =>
      by_cases removed : test cidr = true
      · simp [seen, removed, ih]
      · simp [seen, removed, ih]

theorem entries_keptLines :
    (document.keptLines targets decision).filterMap BlocklistLine.canonical =
      document.entries.filter fun cidr => !decision.removes targets cidr :=
  canonical_filter_not _ _

/-- Some lines of a document, written and read back, are the same lines up to blank ones. -/
theorem parse_filter {contents : List Char} (parses : BlocklistDocument.parse contents = .ok document)
    (keep : BlocklistLine → Bool) :
    ∃ again,
      BlocklistDocument.parse
          (joinTerminated ((document.lines.filter keep).map BlocklistLine.original)) = .ok again ∧
        again.entries = (document.lines.filter keep).filterMap BlocklistLine.canonical ∧
        List.Forall₂ BlocklistLine.SameText (again.lines.filter BlocklistLine.isNonblank)
          ((document.lines.filter keep).filter BlocklistLine.isNonblank) := by
  obtain ⟨sameTexts, allParsed⟩ := parse_eq_ok parses
  have keptParsed : ∀ line ∈ document.lines.filter keep, line.Parsed :=
    fun line member => allParsed line (List.mem_of_mem_filter member)
  have keptSingle : ∀ line ∈ document.lines.filter keep, '\n' ∉ line.original := by
    intro line member
    apply lineFeed_not_mem_of_mem_lines
    rw [← sameTexts]
    exact List.mem_map_of_mem (List.mem_of_mem_filter member)
  obtain ⟨again, parsesAgain, readBack⟩ := parse_joinTerminated keptParsed keptSingle
  refine ⟨again, parsesAgain, ?_⟩
  rw [BlocklistDocument.entries]
  rcases readBack with stripped | ⟨noLines, allBlank⟩
  · rw [stripped]
    constructor
    · rw [List.filterMap_map]
      rfl
    · have sameTest : BlocklistLine.isNonblank ∘ BlocklistLine.stripped =
          BlocklistLine.isNonblank := by
        funext line
        exact isNonblank_stripped line
      rw [List.filter_map, sameTest, List.forall₂_map_left_iff, List.forall₂_same]
      intro line _
      exact ⟨rfl, Or.inr rfl⟩
  · have noNonblank : (document.lines.filter keep).filter BlocklistLine.isNonblank = [] := by
      apply List.filter_eq_nil_iff.mpr
      intro line member
      rw [allBlank line member]
      exact Bool.false_ne_true
    have noEntries : (document.lines.filter keep).filterMap BlocklistLine.canonical = [] := by
      apply List.filterMap_eq_nil_iff.mpr
      intro line member
      cases seen : line.canonical with
      | none => rfl
      | some cidr =>
        -- a line with a network is not blank
        have nonblank := (keptParsed line member).isNonblank seen
        rw [allBlank line member] at nonblank
        cases nonblank
    rw [noLines, noNonblank, noEntries]
    exact ⟨rfl, List.Forall₂.nil⟩

/-- Without a removed entry every line is kept. -/
theorem keptLines_eq_self (nothing : document.entries.any (decision.removes targets) = false) :
    document.keptLines targets decision = document.lines := by
  apply List.filter_eq_self.mpr
  intro line member
  rw [Bool.not_eq_true', ← Bool.not_eq_true, Option.any_eq_true]
  rintro ⟨cidr, seen, removed⟩
  have isEntry : cidr ∈ document.entries := List.mem_filterMap.mpr ⟨line, member, seen⟩
  exact List.any_eq_false.mp nothing cidr isEntry removed

/-- The blocklist behind an unban is read as the kept lines. -/
theorem parse_unbanned {stores : Stores}
    (parses : BlocklistDocument.parse (stores.blocklist.getD []) = .ok document) :
    ∃ again,
      BlocklistDocument.parse ((stores.unbanned document targets decision).blocklist.getD []) =
        .ok again ∧
      again.entries = (document.entries.filter fun cidr => !decision.removes targets cidr) ∧
      List.Forall₂ BlocklistLine.SameText (again.lines.filter BlocklistLine.isNonblank)
        ((document.keptLines targets decision).filter BlocklistLine.isNonblank) := by
  cases touched : document.entries.any (decision.removes targets) with
  | false =>
    refine ⟨document, ?_, ?_, ?_⟩
    · simpa [Stores.unbanned, touched] using parses
    · rw [← entries_keptLines, keptLines_eq_self touched]
      rfl
    · rw [keptLines_eq_self touched, List.forall₂_same]
      intro line _
      exact ⟨rfl, Or.inl rfl⟩
  | true =>
    obtain ⟨again, parsesAgain, sameEntries, sameLines⟩ := parse_filter parses
      fun line => !line.canonical.any (decision.removes targets)
    refine ⟨again, ?_, sameEntries.trans entries_keptLines, sameLines⟩
    simpa [Stores.unbanned, touched, BlocklistDocument.keptLines] using parsesAgain

end Files

/-! ### The workflow -/

/-- Write both stores without the removed entries. -/
def removeEntries (paths : ResolvedPaths) (decision : UnbanDecision) (targets : List CanonicalCidr)
    (document : BlocklistDocument) (temporary : TemporaryBans) : Workflow Unit := do
  let temporaryChanged := temporary.ips.keys.any (decision.removes targets)
  checkCancelled
  if temporaryChanged then
    propagate (callPort (.saveTemporaryBans paths.temporaryBansFile
      (temporary.kept targets decision)))
  if document.entries.any (decision.removes targets) then
    (propagate (callPort (.writeLines paths.blocklistFile
      ((document.keptLines targets decision).map BlocklistLine.original)))).mapError fun source =>
        partialUpdateError source temporaryChanged paths.temporaryBansFile paths.blocklistFile

/-- Removing the planned positions is removing the entries that pass the test. -/
theorem removePlanned_eq (paths : ResolvedPaths) (decision : UnbanDecision)
    (targets : List CanonicalCidr) (document : BlocklistDocument) (temporary : TemporaryBans) :
    removePlanned paths decision document temporary (unbanPlan (.new targets) document temporary) =
      removeEntries paths decision targets document temporary := by
  obtain ⟨keptIps, somethingRemoved⟩ := removeTemporary_removed targets document temporary decision
  have sameTemporary : decide (0 < (removeTemporary
      (((unbanPlan (.new targets) document temporary).temporary.removed decision).filterMap
        ((unbanPlan (.new targets) document temporary).temporaryTargets[·]?)) temporary.ips).2) =
      temporary.ips.keys.any (decision.removes targets) := by
    rw [Bool.eq_iff_iff, decide_eq_true_iff, somethingRemoved, List.any_eq_true]
  have samePermanent :
      (!((unbanPlan (.new targets) document temporary).permanent.removed decision).isEmpty) =
        document.entries.any (decision.removes targets) := by
    have removedEntries := removed_ne_nil_iff targets decision
      (document.lines.map BlocklistLine.canonical)
    rw [List.filterMap_map] at removedEntries
    rw [Bool.eq_iff_iff, List.any_eq_true, Bool.not_eq_true', ← Bool.not_eq_true,
      List.isEmpty_iff]
    exact removedEntries
  have keptLines : removeIndexes (fun index => decide (index ∈
      (unbanPlan (.new targets) document temporary).permanent.removed decision)) document.lines =
      document.keptLines targets decision := removeIndexes_removed targets document decision
  have sameRecords : ({ temporary with ips := (removeTemporary
      (((unbanPlan (.new targets) document temporary).temporary.removed decision).filterMap
        ((unbanPlan (.new targets) document temporary).temporaryTargets[·]?)) temporary.ips).1 } :
      TemporaryBans) = temporary.kept targets decision := by
    rw [keptIps]
    rfl
  unfold removePlanned removeEntries
  simp only [← sameTemporary, ← samePermanent, decide_eq_true_eq]
  rw [keptLines, sameRecords]

section Workflow

variable {setting : StoreSetting} {guarantee : Step PortOp PortOp.Result StoreState}
  {state : StoreState} {fails : AppError → StoreState → Prop} {decision : UnbanDecision}
  {targets : List CanonicalCidr} {document : BlocklistDocument}

/-- The state when the temporary records are saved and the blocklist is not. -/
def StoreState.temporarilyUnbanned (state : StoreState) (targets : List CanonicalCidr)
    (decision : UnbanDecision) : StoreState :=
  { state with temporary := state.temporary.kept targets decision }

/-- Records that lose nothing are the same. -/
theorem kept_eq_self {temporary : TemporaryBans}
    (nothing : temporary.ips.keys.any (decision.removes targets) = false) :
    temporary.kept targets decision = temporary := by
  have sameIps : (temporary.kept targets decision).ips = temporary.ips := by
    apply SortedMap.eq_of_mem_iff
    intro record
    rw [TemporaryBans.kept, SortedMap.mem_entries_retain]
    constructor
    · exact And.left
    · intro member
      have recorded : record.1 ∈ temporary.ips.keys := List.mem_map_of_mem member
      exact ⟨member, by simpa using List.any_eq_false.mp nothing record.1 recorded⟩
  exact TemporaryBans.ext sameIps rfl

theorem wp_removeEntries {paths : ResolvedPaths}
    (allowed : ∀ before op result after, guarantee before op result after)
    (tolerates : Tolerates fails state)
    (temporaryRefused : ∀ error path saved, fails error (state.refuse (.saveTemporaryBans path saved)))
    (permanentRefused : ∀ path lines source,
      document.entries.any (decision.removes targets) = true →
      fails (partialUpdateError (.blocklistWrite path source)
          (state.temporary.ips.keys.any (decision.removes targets)) paths.temporaryBansFile path)
        ((state.temporarilyUnbanned targets decision).refuse (.writeLines path lines))) :
    wp (storeStep setting) guarantee
      (fun _ last => last = ⟨state.toStores.unbanned document targets decision, state.refusals⟩)
      fails (removeEntries paths decision targets document state.temporary) state := by
  have unmoved : Unmoved guarantee := fun _ _ _ _ _ _ => allowed _ _ _ _
  -- the file is rewritten after the records, so its failure leaves them removed
  have permanently : wp (storeStep setting) guarantee
      (fun _ last => last = ⟨state.toStores.unbanned document targets decision, state.refusals⟩)
      fails (if document.entries.any (decision.removes targets) then
        (propagate (callPort (.writeLines paths.blocklistFile
          ((document.keptLines targets decision).map BlocklistLine.original)))).mapError
          fun source => partialUpdateError source
            (state.temporary.ips.keys.any (decision.removes targets)) paths.temporaryBansFile
            paths.blocklistFile
        else pure ()) (state.temporarilyUnbanned targets decision) := by
    cases touched : document.entries.any (decision.removes targets) with
    | false => simp [StoreState.temporarilyUnbanned, Stores.unbanned, touched]
    | true =>
      rw [if_pos rfl, wp_mapError]
      refine wp_propagate.mpr (wp_save (fun _ _ => allowed _ _ _ _) ?_ ?_)
      · intro answer _ answered
        cases answer with
        | error _ => cases answered
        | ok _ =>
          simp [StoreState.after, Stores.after, StoreState.temporarilyUnbanned, Stores.unbanned,
            touched, PortOp.refusedBy, Except.isOk, Except.toBool]
      · intro answer truthful refused
        cases answer with
        | error _ =>
          obtain ⟨source, rfl⟩ := truthful
          exact permanentRefused _ _ _ touched
        | ok _ => cases refused
  unfold removeEntries
  dsimp only
  rw [wp_bind]
  apply wp_checkCancelled_stores unmoved tolerates
  -- the records are only saved when a decision removes one
  cases changed : state.temporary.ips.keys.any (decision.removes targets) with
  | false =>
    have unchanged : state.temporarilyUnbanned targets decision = state := by
      rw [StoreState.temporarilyUnbanned, kept_eq_self changed]
    rw [unchanged, changed] at permanently
    exact permanently
  | true =>
    rw [if_pos rfl, wp_bind]
    refine wp_propagate.mpr (wp_save (fun _ _ => allowed _ _ _ _) ?_ ?_)
    · intro answer _ answered
      cases answer with
      | error _ => cases answered
      | ok _ =>
        rw [changed] at permanently
        exact permanently
    · intro answer _ refused
      cases answer with
      | error _ => exact temporaryRefused _ _ _
      | ok _ => cases refused

theorem wp_buildUnbanPlan (unmoved : Unmoved guarantee) (tolerates : Tolerates fails state)
    {index : UnbanTargetIndex} {temporary : TemporaryBans}
    {returns : UnbanStatePlan → StoreState → Prop}
    (continues : returns (unbanPlan index document temporary) state) :
    wp (storeStep setting) guarantee returns fails (buildUnbanPlan index document temporary)
      state := by
  rw [buildUnbanPlan, wp_bind]
  apply wp_checkCancelled_stores unmoved tolerates
  rw [wp_bind]
  apply wp_checkCancelled_stores unmoved tolerates
  rw [wp_bind]
  apply wp_checkCancelled_stores unmoved tolerates
  rw [wp_bind]
  exact wp_checkCancelled_stores unmoved tolerates continues

/-- The preview of a request against these stores. -/
def unbanPreview (request : UnbanRequest) (targets : List CanonicalCidr)
    (document : BlocklistDocument) (temporary : TemporaryBans) : UnbanPreview where
  targetLabel := unbanTargetLabel request.input (.new targets)
  requestedTargetCount := (UnbanTargetIndex.new targets).targets.length
  exactEntries := (unbanPlan (.new targets) document temporary).exactEntries
  partialEntries := (unbanPlan (.new targets) document temporary).partialEntries
  targets := .new targets
  temporaryMatches := (unbanPlan (.new targets) document temporary).temporaryMatches

/-- A preparation saves nothing and shows the preview of the stores. It fails
when a port refuses or the request is no list of targets. -/
theorem wp_prepareUnban (request : UnbanRequest) :
    wp (storeStep setting) (fun _ op _ _ => op.saves = false)
      (fun outcome last => last = state ∧
        match outcome with
        | .ready preview => ∃ targets document, Requested setting request.input targets ∧
            BlocklistDocument.parse (state.blocklist.getD []) = .ok document ∧
            preview = unbanPreview request targets document state.temporary
        | _ => ∀ targets, ¬ Requested setting request.input targets)
      (fun _ last => last.refusals ≠ state.refusals ∨
        ∀ targets, ¬ Requested setting request.input targets) (prepareUnban request) state := by
  have unmoved : Unmoved fun _ op _ _ => op.saves = false := fun _ _ _ _ quiet _ => quiet
  have tolerates : Tolerates (fun _ last => last.refusals ≠ state.refusals ∨
      ∀ targets, ¬ Requested setting request.input targets) state :=
    fun _ _ _ => Or.inl (state.refusals_refuse_ne _)
  rw [prepareUnban, wp_bind]
  apply wp_checkCancelled_stores unmoved tolerates
  rw [wp_bind]
  apply wp_resolvePaths unmoved tolerates
  intro paths
  rw [wp_bind]
  apply wp_loadConfig unmoved tolerates
  intro _ _
  rw [wp_bind]
  apply wp_parseInput unmoved tolerates (fun invalid _ => Or.inr invalid)
  intro parsed requested
  cases parsed with
  | invalidTargets _ => exact ⟨rfl, fun targets asked => nomatch (requested targets).mp asked⟩
  | emptyFile => exact ⟨rfl, fun targets asked => nomatch (requested targets).mp asked⟩
  | ready targets =>
    dsimp only
    rw [wp_bind]
    apply wp_checkCancelled_stores unmoved tolerates
    rw [wp_bind]
    apply wp_checkCancelled_stores unmoved tolerates
    rw [wp_bind]
    apply wp_loadBlocklist unmoved tolerates
    intro document loaded
    rw [wp_bind]
    apply wp_checkCancelled_stores unmoved tolerates
    rw [wp_bind]
    apply wp_loadTemporaryBans unmoved tolerates
    rw [wp_bind]
    apply wp_buildUnbanPlan unmoved tolerates
    -- the preview is made of the stores it was read from, and nothing was saved
    exact ⟨rfl, targets, document, (requested targets).mpr rfl,
      (loadBlocklistDocument_eq_ok.mp loaded).2, rfl⟩

/-- The plan of the current stores is the previewed one. -/
def StillPreviewed (request : UnbanRequest) (preview : UnbanPreview) (stores : Stores)
    (document : BlocklistDocument) : Prop :=
  BlocklistDocument.parse (stores.blocklist.getD []) = .ok document ∧
    previewUnchanged request preview (unbanPlan preview.targets document stores.temporary) = true

/-- Every way an unban fails, with the state it leaves. -/
inductive UnbanFailure (request : UnbanRequest) (preview : UnbanPreview)
    (targets : List CanonicalCidr) (decision : UnbanDecision) (state : StoreState) :
    AppError → StoreState → Prop
  | refused {error : AppError} {op : PortOp} (quiet : op.saves = false) :
      UnbanFailure request preview targets decision state error (state.refuse op)
  | changed {document : BlocklistDocument}
      (parses : BlocklistDocument.parse (state.blocklist.getD []) = .ok document)
      (differs : ¬ StillPreviewed request preview state.toStores document) :
      UnbanFailure request preview targets decision state .blocklistChanged state
  | temporaryRefused {error : AppError} {path : String} {saved : TemporaryBans} :
      UnbanFailure request preview targets decision state error
        (state.refuse (.saveTemporaryBans path saved))
  | permanentRefused {document : BlocklistDocument} {path temporaryPath source : String}
      {lines : List (List Char)}
      (previewed : StillPreviewed request preview state.toStores document)
      (touched : document.entries.any (decision.removes targets) = true) :
      UnbanFailure request preview targets decision state
        (partialUpdateError (.blocklistWrite path source)
          (state.temporary.ips.keys.any (decision.removes targets)) temporaryPath path)
        ((state.temporarilyUnbanned targets decision).refuse (.writeLines path lines))

theorem wp_applyUnban (request : UnbanRequest) {preview : UnbanPreview}
    (index : preview.targets = .new targets) :
    wp (storeStep setting)
      (fun _ op _ _ => op.saves = true →
        ∃ document, StillPreviewed request preview state.toStores document)
      (fun outcome last => ∃ document, StillPreviewed request preview state.toStores document ∧
        outcome = unbanOutcome preview decision
          (unbanPlan (.new targets) document state.temporary) ∧
        last = ⟨state.toStores.unbanned document targets decision, state.refusals⟩)
      (UnbanFailure request preview targets decision state) (applyUnban request preview decision)
      state := by
  have unmoved : Unmoved fun _ op _ _ => op.saves = true →
      ∃ document, StillPreviewed request preview state.toStores document := by
    intro _ op _ _ quiet _ saves
    rw [quiet] at saves
    cases saves
  have tolerates : Tolerates (UnbanFailure request preview targets decision state) state :=
    fun _ _ quiet => .refused quiet
  rw [applyUnban, wp_bind]
  apply wp_checkCancelled_stores unmoved tolerates
  rw [wp_bind]
  apply wp_resolvePaths unmoved tolerates
  intro paths
  apply wp_withLock_stores unmoved tolerates
  rw [applyUnbanLocked, wp_bind]
  apply wp_loadConfig unmoved tolerates
  intro _ _
  rw [wp_bind]
  apply wp_checkCancelled_stores unmoved tolerates
  rw [wp_bind]
  apply wp_loadBlocklist unmoved tolerates
  intro document loaded
  have parses := (loadBlocklistDocument_eq_ok.mp loaded).2
  rw [wp_bind]
  apply wp_checkCancelled_stores unmoved tolerates
  rw [wp_bind]
  apply wp_loadTemporaryBans unmoved tolerates
  rw [wp_bind]
  apply wp_buildUnbanPlan unmoved tolerates
  -- the preview is compared with a plan made of what was just read under the lock
  by_cases same : previewUnchanged request preview
      (unbanPlan preview.targets document state.temporary) = true
  · have previewed : StillPreviewed request preview state.toStores document := ⟨parses, same⟩
    rw [if_pos same, index, removePlanned_eq, wp_bind]
    apply wp_mono
    · exact wp_removeEntries (fun _ _ _ _ _ => ⟨document, previewed⟩) tolerates
        (fun _ _ _ => .temporaryRefused) (fun _ _ _ touched => .permanentRefused previewed touched)
    · intro _ last saved
      exact ⟨document, previewed, rfl, saved⟩
    · exact fun _ _ failed => failed
  · rw [if_neg same]
    exact .changed parses fun previewed => same previewed.2

end Workflow

/-! ### The contract -/

/-- The stores meet the targets as the preview shows. -/
structure UnbanPreview.Matches (preview : UnbanPreview) (targets : List CanonicalCidr)
    (document : BlocklistDocument) (temporary : TemporaryBans) : Prop where
  exactShown : preview.exactEntries.Perm (matchesIn (exactly targets) document temporary)
  partialShown : preview.partialEntries.Perm (matchesIn (partly targets) document temporary)
  recordsShown : preview.temporaryMatches =
    temporary.ips.retain fun target _ => exactly targets target || partly targets target

/-- Sorted lists are equal exactly when the lists have the same members. -/
theorem sortUnstable_eq_iff {left right : List String} :
    sortUnstable left = sortUnstable right ↔ left.Perm right := by
  constructor
  · intro same
    exact (sortUnstable_perm left).symm.trans (same ▸ sortUnstable_perm right)
  · intro perm
    have sameMembers := (sortUnstable_perm left).trans (perm.trans (sortUnstable_perm right).symm)
    exact sameMembers.eq_of_pairwise (fun _ _ _ _ => le_antisymm) (sortUnstable_sorted left)
      (sortUnstable_sorted right)

/-- The comparison under the lock decides whether the stores still match. -/
theorem previewUnchanged_iff {request : UnbanRequest} {targets : List CanonicalCidr}
    {seen document : BlocklistDocument} {seenTemporary temporary : TemporaryBans} :
    previewUnchanged request (unbanPreview request targets seen seenTemporary)
        (unbanPlan (.new targets) document temporary) = true ↔
      (unbanPreview request targets seen seenTemporary).Matches targets document temporary := by
  have exactIff : (unbanPlan (.new targets) document temporary).exactEntries =
      (unbanPlan (.new targets) seen seenTemporary).exactEntries ↔
      (unbanPlan (.new targets) seen seenTemporary).exactEntries.Perm
        (matchesIn (exactly targets) document temporary) := by
    rw [exactEntries_unbanPlan, exactEntries_unbanPlan, sortUnstable_eq_iff]
    exact ⟨fun same => (sortUnstable_perm _).trans same.symm,
      fun same => (same.symm.trans (sortUnstable_perm _))⟩
  have partialIff : (unbanPlan (.new targets) document temporary).partialEntries =
      (unbanPlan (.new targets) seen seenTemporary).partialEntries ↔
      (unbanPlan (.new targets) seen seenTemporary).partialEntries.Perm
        (matchesIn (partly targets) document temporary) := by
    rw [partialEntries_unbanPlan, partialEntries_unbanPlan, sortUnstable_eq_iff]
    exact ⟨fun same => (sortUnstable_perm _).trans same.symm,
      fun same => (same.symm.trans (sortUnstable_perm _))⟩
  have recordsIff : (unbanPlan (.new targets) document temporary).temporaryMatches =
      (unbanPlan (.new targets) seen seenTemporary).temporaryMatches ↔
      (unbanPlan (.new targets) seen seenTemporary).temporaryMatches =
        temporary.ips.retain fun target _ => exactly targets target || partly targets target := by
    rw [temporaryMatches_unbanPlan targets document]
    exact eq_comm
  simp only [previewUnchanged, Bool.and_eq_true, decide_eq_true_iff, unbanPreview, exactIff,
    partialIff, recordsIff, and_true]
  constructor
  · rintro ⟨⟨exactShown, partialShown⟩, recordsShown⟩
    exact ⟨exactShown, partialShown, recordsShown⟩
  · rintro ⟨exactShown, partialShown, recordsShown⟩
    exact ⟨⟨exactShown, partialShown⟩, recordsShown⟩

/-- What an applied unban leaves of the two stores and reports. -/
structure Unbanned (targets : List CanonicalCidr) (decision : UnbanDecision)
    (preview : UnbanPreview) (outcome : UnbanOutcome) (document again : BlocklistDocument)
    (old new : TemporaryBans) : Prop where
  noTarget : ∀ cidr ∈ again.entries ++ new.ips.keys, cidr ∉ targets
  noOverlap : decision.removePartial = true →
    ∀ cidr ∈ again.entries ++ new.ips.keys, ∀ target ∈ targets, ¬ cidr.Overlaps target
  othersKept : decision.removePartial = false →
    again.entries = (document.entries.filter fun cidr => decide (cidr ∉ targets)) ∧
      new.ips.entries = old.ips.entries.filter fun record => decide (record.1 ∉ targets)
  sameLines : List.Forall₂ BlocklistLine.SameText (again.lines.filter BlocklistLine.isNonblank)
    ((document.keptLines targets decision).filter BlocklistLine.isNonblank)
  sameRecords : new.ips.entries =
    old.ips.entries.filter fun record => !decision.removes targets record.1
  sameAsns : new.asns = old.asns
  removedShown : (matchesIn (fun _ => true) document old).Perm
    (matchesIn (fun _ => true) again new ++
      (preview.exactEntries ++ if decision.removePartial then preview.partialEntries else []))
  removedExact : outcome.removedExact = preview.exactEntries.length
  removedPartial : outcome.removedPartial =
    if decision.removePartial then preview.partialEntries.length else 0

/-- Splitting the shown entries by another test. -/
theorem matchesIn_perm (test split : CanonicalCidr → Bool) (document : BlocklistDocument)
    (temporary : TemporaryBans) :
    (matchesIn test document temporary).Perm
      (matchesIn (fun cidr => split cidr && test cidr) document temporary ++
        matchesIn (fun cidr => !split cidr && test cidr) document temporary) := by
  have permanent := (List.filter_append_perm split (document.entries.filter test)).symm.map
    CanonicalCidr.display
  have records := (List.filter_append_perm (fun record : CanonicalCidr × ℕ => split record.1)
    (temporary.ips.entries.filter fun record => test record.1)).symm.map fun record =>
      displayTemporary record.1 record.2
  rw [List.filter_filter, List.filter_filter, List.map_append] at permanent records
  refine (permanent.append records).trans ?_
  simp only [matchesIn, List.append_assoc]
  exact (List.perm_append_comm_assoc _ _ _).append_left _

theorem matchesIn_removes (decision : UnbanDecision) (targets : List CanonicalCidr)
    (document : BlocklistDocument) (temporary : TemporaryBans) :
    (matchesIn (decision.removes targets) document temporary).Perm
      (matchesIn (exactly targets) document temporary ++
        if decision.removePartial then matchesIn (partly targets) document temporary else []) := by
  cases accepted : decision.removePartial with
  | false =>
    rw [removes_exact accepted, if_neg Bool.false_ne_true, List.append_nil]
  | true =>
    have exact : (fun cidr => exactly targets cidr && decision.removes targets cidr) =
        exactly targets := by
      funext cidr
      cases isTarget : exactly targets cidr <;> simp [UnbanDecision.removes, isTarget]
    have part : (fun cidr => !exactly targets cidr && decision.removes targets cidr) =
        partly targets := by
      funext cidr
      cases isTarget : exactly targets cidr <;>
        simp [UnbanDecision.removes, partly, isTarget, accepted]
    have split := matchesIn_perm (decision.removes targets) (exactly targets) document temporary
    rwa [exact, part] at split

/-- The entries that are not removed, and the shown ones. -/
theorem matchesIn_split (decision : UnbanDecision) (targets : List CanonicalCidr)
    (document : BlocklistDocument) (temporary : TemporaryBans) :
    (matchesIn (fun _ => true) document temporary).Perm
      (matchesIn (fun cidr => !decision.removes targets cidr) document temporary ++
        (matchesIn (exactly targets) document temporary ++
          if decision.removePartial then matchesIn (partly targets) document temporary else [])) := by
  have split := matchesIn_perm (fun _ => true) (decision.removes targets) document temporary
  simp only [Bool.and_true] at split
  exact (split.trans List.perm_append_comm).trans
    ((matchesIn_removes decision targets document temporary).append_left _)

theorem matchesIn_all {test : CanonicalCidr → Bool} {document again : BlocklistDocument}
    {old new : TemporaryBans} (entries : again.entries = document.entries.filter test)
    (records : new.ips.entries = old.ips.entries.filter fun record => test record.1) :
    matchesIn (fun _ => true) again new = matchesIn test document old := by
  rw [matchesIn, matchesIn, List.filter_true, List.filter_true, entries, records]

/-- What the filters leave of matching stores is what an unban promises. -/
theorem unbanned_filter {targets : List CanonicalCidr} {decision : UnbanDecision}
    {preview : UnbanPreview} {document again : BlocklistDocument}
    {old : TemporaryBans} (shown : preview.Matches targets document old)
    (entries : again.entries = document.entries.filter fun cidr => !decision.removes targets cidr)
    (sameLines : List.Forall₂ BlocklistLine.SameText (again.lines.filter BlocklistLine.isNonblank)
      ((document.keptLines targets decision).filter BlocklistLine.isNonblank)) :
    Unbanned targets decision preview
      (unbanOutcome preview decision (unbanPlan (.new targets) document old)) document again old
      (old.kept targets decision) := by
  have records : (old.kept targets decision).ips.entries =
      old.ips.entries.filter fun record => !decision.removes targets record.1 := rfl
  -- what is left, in the file and in the records, is what the decision keeps
  have remaining : ∀ cidr ∈ again.entries ++ (old.kept targets decision).ips.keys,
      decision.removes targets cidr = false := by
    intro cidr member
    rcases List.mem_append.mp member with permanent | temporary
    · rw [entries] at permanent
      simpa using (List.mem_filter.mp permanent).2
    · obtain ⟨record, kept, rfl⟩ := List.mem_map.mp temporary
      simpa using (List.mem_filter.mp kept).2
  have shownPartial : ((if decision.removePartial then preview.partialEntries else []).Perm
      (if decision.removePartial then matchesIn (partly targets) document old else [])) := by
    split_ifs
    · exact shown.partialShown
    · exact List.Perm.nil
  constructor
  case noTarget =>
    intro cidr member isTarget
    have removed : decision.removes targets cidr = true := by
      simp [UnbanDecision.removes, exactly, isTarget]
    rw [remaining cidr member] at removed
    cases removed
  case noOverlap =>
    intro accepted cidr member target isTarget overlap
    have removed := (removes_partial_iff accepted).mpr ⟨target, isTarget, overlap⟩
    rw [remaining cidr member] at removed
    cases removed
  case othersKept =>
    intro declined
    rw [entries, records, removes_exact declined]
    simp [exactly]
  case sameLines => exact sameLines
  case sameRecords => exact records
  case sameAsns => rfl
  case removedShown =>
    rw [matchesIn_all entries records]
    apply (matchesIn_split decision targets document old).trans
    exact (shown.exactShown.symm.append shownPartial.symm).append_left _
  case removedExact =>
    rw [shown.exactShown.length_eq, ← length_indexes]
    simp only [unbanOutcome, unbanPlan, UnbanTargetIndex.exactIndexes_plan, isExact_new]
  case removedPartial =>
    rw [shown.partialShown.length_eq, ← length_indexes]
    simp only [unbanOutcome, unbanPlan, UnbanTargetIndex.partialIndexes_plan, isPartial_new]

/-- An unban that returns leaves the stores without the targets, and without the
overlapping entries when that was accepted, keeps everything else in order, and
removes and counts exactly what its preview showed. When the stores do not match
the preview any more it saves nothing and fails with the changed error, unless a
port refuses first. -/
theorem applyUnban_contract {earlier setting : StoreSetting} {request : UnbanRequest}
    {preview : UnbanPreview} {decision : UnbanDecision}
    {before prepared state last : StoreState}
    {earlierTrace trace : List (Event PortOp PortOp.Result StoreState)}
    {ending : Ending AppError UnbanOutcome}
    (prepares : Runs (storeStep earlier) (prepareUnban request) before earlierTrace prepared
      (.returned (.ready preview)))
    (runs : Runs (storeStep setting) (applyUnban request preview decision) state trace last
      ending) :
    ∃ targets, Requested earlier request.input targets ∧
      (∀ outcome, ending = .returned outcome → ∃ document again,
        BlocklistDocument.parse (state.blocklist.getD []) = .ok document ∧
        BlocklistDocument.parse (last.blocklist.getD []) = .ok again ∧
        Unbanned targets decision preview outcome document again state.temporary last.temporary ∧
        last.configuration = state.configuration) ∧
      ∀ document, BlocklistDocument.parse (state.blocklist.getD []) = .ok document →
        ¬ preview.Matches targets document state.temporary →
        (∀ outcome, ending ≠ .returned outcome) ∧
        (∀ event ∈ trace, event.op.saves = false) ∧ last.toStores = state.toStores ∧
        ∀ error, ending = .failed error → last.refusals = state.refusals →
          error = .blocklistChanged := by
  obtain ⟨_, _, targets, seen, requested, _, rfl⟩ := prepares.sound (wp_prepareUnban request)
  obtain ⟨steps, ended⟩ := runs.sound (wp_applyUnban request (rfl :
    (unbanPreview request targets seen before.temporary).targets = .new targets))
  refine ⟨targets, requested, ?_, ?_⟩
  · intro outcome returned
    rw [returned] at ended
    obtain ⟨document, ⟨parses, unchanged⟩, rfl, rfl⟩ := ended
    obtain ⟨again, parsesAgain, entries, sameLines⟩ :=
      @parse_unbanned document targets decision _ parses
    exact ⟨document, again, parses, parsesAgain,
      unbanned_filter (previewUnchanged_iff.mp unchanged) entries sameLines, rfl⟩
  · intro document parses differs
    -- a save needs the preview to match the one document that the file parses to
    have notPreviewed : ∀ other, ¬ StillPreviewed request
        (unbanPreview request targets seen before.temporary) state.toStores other := by
      rintro other ⟨otherParses, unchanged⟩
      obtain rfl := Except.ok.inj (otherParses.symm.trans parses)
      exact differs (previewUnchanged_iff.mp unchanged)
    have quiet : ∀ event ∈ trace, event.op.saves = false := by
      intro event member
      cases saves : event.op.saves with
      | false => rfl
      | true =>
        obtain ⟨other, previewed⟩ := steps event member saves
        exact absurd previewed (notPreviewed other)
    have sameStores : last.toStores = state.toStores := by
      apply toStores_eq_of_runs runs
      intro event member saves
      rw [quiet event member] at saves
      cases saves
    refine ⟨?_, quiet, sameStores, ?_⟩
    · intro outcome returned
      rw [returned] at ended
      obtain ⟨other, previewed, _⟩ := ended
      exact notPreviewed other previewed
    · intro error failed unrefused
      rw [failed] at ended
      cases ended with
      | refused _ => exact absurd unrefused (StoreState.refusals_refuse_ne _ _)
      | changed _ _ => rfl
      | temporaryRefused => exact absurd unrefused (StoreState.refusals_refuse_ne _ _)
      | permanentRefused previewed _ => exact absurd previewed (notPreviewed _)

/-- The preparation is ready, and its preview passes the test. -/
def UnbanPreparation.readyWith (test : UnbanPreview → Bool) : UnbanPreparation → Bool
  | ready preview => test preview
  | _ => false

theorem readyWith_eq_true {test : UnbanPreview → Bool} {preparation : UnbanPreparation} :
    preparation.readyWith test = true ↔
      ∃ preview, preparation = .ready preview ∧ test preview = true := by
  cases preparation <;> simp [UnbanPreparation.readyWith]

/-- One network in the file and in the records, with an overlapping one. -/
theorem applyUnban_contract_overlapping :
    ∃ targets preview outcome document again old, ∃ last : StoreState,
      last.blocklist = some "# seen\n10.0.1.0/24\n".toList ∧ outcome.removedExact = 2 ∧
      outcome.removedPartial = 1 ∧
      Unbanned targets ⟨true⟩ preview outcome document again old last.temporary := by
  let setting : StoreSetting := ⟨minimalFormat [], fun _ => none⟩
  let records : List (CanonicalCidr × ℕ) := ["10.0.0.0/24", "10.0.2.0/24"].filterMap fun text =>
    (parseBlocklistTarget text.toList).map fun target => (target, 100)
  let state : StoreState :=
    ⟨⟨some "10.0.0.0/24\n# seen\r\n10.0.0.9\n10.0.1.0/24".toList, ⟨recordMap records, .empty⟩,
      some minimalText⟩, []⟩
  let request : UnbanRequest := ⟨⟨none, "/tmp", []⟩, .single "10.0.0.7/24".toList⟩
  have applied : returnsWith (fun preparation prepared => preparation.readyWith fun preview =>
      returnsWith (fun outcome last =>
          last.blocklist == some "# seen\n10.0.1.0/24\n".toList && outcome.removedExact == 2 &&
            outcome.removedPartial == 1)
        (exec (calmStores setting systemPaths 0) (applyUnban request preview ⟨true⟩) prepared))
      (exec (calmStores setting systemPaths 0) (prepareUnban request) state) = true := by
    decide +kernel
  have truthful := storeStep_calmStores setting systemPaths 0
  obtain ⟨preparation, prepared, ran, isReady⟩ := returnsWith_eq_true.mp applied
  obtain ⟨preview, rfl, applied⟩ := readyWith_eq_true.mp isReady
  obtain ⟨outcome, last, applyRan, applied⟩ := returnsWith_eq_true.mp applied
  obtain ⟨_, prepares⟩ := exists_runs_of_exec truthful ran
  obtain ⟨_, applies⟩ := exists_runs_of_exec truthful applyRan
  simp only [Bool.and_eq_true, beq_iff_eq] at applied
  obtain ⟨⟨file, exact⟩, part⟩ := applied
  obtain ⟨targets, _, returned, _⟩ := applyUnban_contract prepares applies
  obtain ⟨document, again, _, _, unbanned, _⟩ := returned outcome rfl
  exact ⟨targets, preview, outcome, document, again, prepared.temporary, last, file, exact, part,
    unbanned⟩

end Kidobo
