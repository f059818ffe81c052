import Kidobo.App.Ban
import Kidobo.App.Stores

/-!
# What a permanent ban does to the blocklist

A permanent ban keeps the bytes of the file and appends one line for each
network that is neither in the file nor earlier in the request. The appended
text is read by the line parser, whatever the last line of the old text looked
like.

## Main definitions

* `newTargets`: the missing networks, in the order first requested

## Main results

* `parse_appendedContents`: the old entries, then the appended ones
* `executeBan_appends`: the contract of a permanent ban
-/

namespace Kidobo

open Foundation

/-! ### Missing targets -/

/-- The networks that are not in the list yet, each once, in the order first
requested. -/
def newTargets (existing targets : List CanonicalCidr) : List CanonicalCidr :=
  (targets.filter fun target => decide (target ∉ existing)).eraseDups

theorem newTargets_cons_of_mem {existing rest : List CanonicalCidr} {target : CanonicalCidr}
    (present : target ∈ existing) :
    newTargets existing (target :: rest) = newTargets existing rest := by
  simp [newTargets, present]

theorem newTargets_cons_of_not_mem {existing rest : List CanonicalCidr} {target : CanonicalCidr}
    (missing : target ∉ existing) :
    newTargets existing (target :: rest) = target :: newTargets (target :: existing) rest := by
  have filtered : ((rest.filter fun other => decide (other ∉ existing)).filter
      fun other => !other == target) =
      rest.filter fun other => decide (other ∉ target :: existing) := by
    rw [List.filter_filter]
    apply List.filter_congr
    intro other _
    by_cases same : other = target <;> simp [same]
  have kept : decide (target ∉ existing) = true := decide_eq_true missing
  rw [newTargets, List.filter_cons, if_pos kept, List.eraseDups_cons, filtered]
  rfl

theorem mem_newTargets {existing targets : List CanonicalCidr} {target : CanonicalCidr} :
    target ∈ newTargets existing targets ↔ target ∈ targets ∧ target ∉ existing := by
  simp [newTargets]

/-- Once the missing networks are in the list, nothing is missing. -/
theorem newTargets_append_newTargets (existing targets : List CanonicalCidr) :
    newTargets (existing ++ newTargets existing targets) targets = [] := by
  apply List.eq_nil_iff_forall_not_mem.mpr
  intro target member
  obtain ⟨requested, missing⟩ := mem_newTargets.mp member
  rw [List.mem_append, not_or] at missing
  exact missing.2 (mem_newTargets.mpr ⟨requested, missing.1⟩)

/-- A classification adds exactly the missing networks. -/
theorem addedTargets_classify (existing targets : List CanonicalCidr) :
    addedTargets (classifyBanTargets existing targets) = newTargets existing targets := by
  induction targets generalizing existing with
  | nil => rfl
  | cons target rest ih =>
    rw [classifyBanTargets]
    split_ifs with present
    · rw [newTargets_cons_of_mem present, ← ih existing]
      rfl
    · rw [newTargets_cons_of_not_mem present, ← ih (target :: existing)]
      rfl

/-- A target is reported as present when it is in the list or was requested
before. -/
theorem getElem?_classify {existing targets : List CanonicalCidr} {index : ℕ}
    {target : CanonicalCidr} (found : targets[index]? = some target) :
    (classifyBanTargets existing targets)[index]? = some
      (if target ∈ existing ∨ target ∈ targets.take index then .alreadyPresent target
        else .added target) := by
  induction targets generalizing existing index with
  | nil => simp at found
  | cons first rest ih =>
    rw [classifyBanTargets]
    cases index with
    | zero =>
      rw [List.getElem?_cons_zero, Option.some.injEq] at found
      subst found
      by_cases present : first ∈ existing <;> simp [present]
    | succ index =>
      rw [List.getElem?_cons_succ] at found
      rw [List.take_succ_cons]
      by_cases present : first ∈ existing
      · have sameTest : (target ∈ existing ∨ target ∈ rest.take index) ↔
            target ∈ existing ∨ target ∈ first :: rest.take index := by
          rw [List.mem_cons]
          constructor
          · rintro (old | earlier)
            · exact Or.inl old
            · exact Or.inr (Or.inr earlier)
          · rintro (old | rfl | earlier)
            · exact Or.inl old
            · exact Or.inl present
            · exact Or.inr earlier
        rw [if_pos present, List.getElem?_cons_succ, ih found]
        simp only [sameTest]
      · have sameTest : (target ∈ first :: existing ∨ target ∈ rest.take index) ↔
            target ∈ existing ∨ target ∈ first :: rest.take index := by
          rw [List.mem_cons, List.mem_cons, or_assoc, or_left_comm]
        rw [if_neg present, List.getElem?_cons_succ, ih found]
        simp only [sameTest]

theorem length_classify (existing targets : List CanonicalCidr) :
    (classifyBanTargets existing targets).length = targets.length := by
  induction targets generalizing existing with
  | nil => rfl
  | cons target rest ih =>
    rw [classifyBanTargets]
    split_ifs with present <;> simp [ih]

/-! ### The appended text -/

/-- The line of a network. -/
def entryLine (cidr : CanonicalCidr) : BlocklistLine := ⟨cidr.line, some cidr⟩

theorem appendedContents_eq (contents : List Char) (added : List CanonicalCidr) :
    appendedContents contents (added.map CanonicalCidr.display) (!contents.isEmpty)
        (contents.getLast? == some '\n') =
      (if contents ≠ [] ∧ contents.getLast? ≠ some '\n' then contents ++ ['\n'] else contents) ++
        (added.map CanonicalCidr.line).flatMap fun line => line ++ ['\n'] := by
  have sameTest : (!contents.isEmpty && !(contents.getLast? == some '\n')) = true ↔
      contents ≠ [] ∧ contents.getLast? ≠ some '\n' := by
    simp
  rw [appendedContents, List.flatMap_map, List.flatMap_map]
  simp only [sameTest, CanonicalCidr.line]

/-- The text behind the old bytes is read as the appended networks. -/
theorem parse_appendedContents {contents : List Char} {document : BlocklistDocument}
    (parses : BlocklistDocument.parse contents = .ok document) (added : List CanonicalCidr) :
    let appended := appendedContents contents (added.map CanonicalCidr.display)
      document.hasContent document.trailingNewline
    contents <+: appended ∧ ∃ again, BlocklistDocument.parse appended = .ok again ∧
      again.entries = document.entries ++ added := by
  intro appended
  obtain ⟨sameTexts, allParsed⟩ := parse_eq_ok parses
  obtain ⟨content, newline⟩ := parse_flags parses
  have single : ∀ line ∈ added.map CanonicalCidr.line, '\n' ∉ line := by
    intro line member
    obtain ⟨cidr, _, rfl⟩ := List.mem_map.mp member
    exact lineFeed_not_mem_line cidr
  have unstripped : (added.map CanonicalCidr.line).map stripCarriageReturn =
      (added.map entryLine).map BlocklistLine.original := by
    rw [List.map_map, List.map_map]
    apply List.map_congr_left
    intro cidr _
    exact stripCarriageReturn_of_trimmed (trim_display cidr)
  have sameAppended : appended =
      (if contents ≠ [] ∧ contents.getLast? ≠ some '\n' then contents ++ ['\n'] else contents) ++
        (added.map CanonicalCidr.line).flatMap fun line => line ++ ['\n'] := by
    rw [← appendedContents_eq, ← content, ← newline]
  obtain ⟨front, back, split, _, readBack⟩ := lines_append_terminated contents single
  rw [← sameAppended, unstripped] at readBack
  rw [split] at sameTexts
  -- only the last old line can lose a carriage return
  obtain ⟨frontLines, backLines, sameLines, rfl, rfl⟩ := List.map_eq_append_iff.mp sameTexts
  rw [sameLines] at allParsed
  have parsedAgain : ∀ line ∈ frontLines ++ backLines.map BlocklistLine.stripped ++
      added.map entryLine, line.Parsed := by
    intro line member
    rw [List.mem_append, List.mem_append] at member
    rcases member with (inFront | inBack) | isAdded
    · exact allParsed line (List.mem_append_left _ inFront)
    · obtain ⟨old, isBack, rfl⟩ := List.mem_map.mp inBack
      exact (allParsed old (List.mem_append_right _ isBack)).stripped
    · obtain ⟨cidr, _, rfl⟩ := List.mem_map.mp isAdded
      exact parsed_line cidr
  have strippedTexts : (backLines.map BlocklistLine.original).map stripCarriageReturn =
      (backLines.map BlocklistLine.stripped).map BlocklistLine.original := by
    rw [List.map_map, List.map_map]
    rfl
  have texts : lines appended = (frontLines ++ backLines.map BlocklistLine.stripped ++
      added.map entryLine).map BlocklistLine.original := by
    rw [readBack, List.map_append, List.map_append, strippedTexts]
  constructor
  · rw [sameAppended]
    apply List.prefix_append_of_prefix
    split_ifs
    · exact List.prefix_append _ _
    · exact List.prefix_rfl
  · obtain ⟨again, parsesAgain, linesAgain⟩ := parse_of_lines texts parsedAgain
    refine ⟨again, parsesAgain, ?_⟩
    have strippedEntries : (backLines.map BlocklistLine.stripped).filterMap
        BlocklistLine.canonical = backLines.filterMap BlocklistLine.canonical := by
      rw [List.filterMap_map]
      rfl
    have addedEntries : (added.map entryLine).filterMap BlocklistLine.canonical = added := by
      rw [List.filterMap_map]
      exact List.filterMap_some
    rw [BlocklistDocument.entries, BlocklistDocument.entries, linesAgain, sameLines,
      List.filterMap_append, List.filterMap_append, List.filterMap_append, strippedEntries,
      addedEntries]

/-! ### The workflow -/

section Workflow

variable {setting : StoreSetting} {state : StoreState}

/-- The targets of a ban and the document they are compared with. -/
structure BanView (setting : StoreSetting) (input : BlocklistInput) (stores : Stores) where
  targets : List CanonicalCidr
  document : BlocklistDocument
  requested : Requested setting input targets
  parses : BlocklistDocument.parse (stores.blocklist.getD []) = .ok document

namespace BanView

variable {input : BlocklistInput} {stores : Stores}

theorem unique (left right : BanView setting input stores) : left = right := by
  obtain ⟨leftTargets, leftDocument, leftRequested, leftParses⟩ := left
  obtain ⟨rightTargets, rightDocument, rightRequested, rightParses⟩ := right
  obtain rfl := leftRequested.unique rightRequested
  obtain rfl := Except.ok.inj (leftParses.symm.trans rightParses)
  rfl

/-- The networks that are missing. -/
def added (view : BanView setting input stores) : List CanonicalCidr :=
  newTargets view.document.entries view.targets

/-- The text with the missing networks behind it. -/
def contents (view : BanView setting input stores) : List Char :=
  appendedContents (stores.blocklist.getD []) (view.added.map CanonicalCidr.display)
    view.document.hasContent view.document.trailingNewline

/-- How the targets are reported. -/
def changes (view : BanView setting input stores) : List BanChange :=
  (classifyBanTargets view.document.entries view.targets).map BanClassification.change

/-- The stores after the ban. -/
def result (view : BanView setting input stores) : Stores :=
  if view.added = [] then stores else { stores with blocklist := some view.contents }

theorem length_changes (view : BanView setting input stores) :
    view.changes.length = view.targets.length := by
  rw [changes, List.length_map, length_classify]

theorem getElem?_changes (view : BanView setting input stores) {index : ℕ}
    {target : CanonicalCidr} (found : view.targets[index]? = some target) :
    view.changes[index]? = some
      (if target ∈ view.document.entries ∨ target ∈ view.targets.take index then
        .alreadyPresent target.display else .added target.display) := by
  rw [changes, List.getElem?_map, getElem?_classify found, Option.map_some]
  split_ifs <;> rfl

/-- The file behind the ban has the old bytes in front and the missing networks
behind the old ones. -/
theorem parse_result (view : BanView setting input stores) :
    stores.blocklist.getD [] <+: view.result.blocklist.getD [] ∧
      ∃ again, BlocklistDocument.parse (view.result.blocklist.getD []) = .ok again ∧
        again.entries = view.document.entries ++ view.added := by
  by_cases nothing : view.added = []
  · rw [result, if_pos nothing, nothing, List.append_nil]
    exact ⟨List.prefix_rfl, view.document, view.parses, rfl⟩
  · rw [result, if_neg nothing]
    exact parse_appendedContents view.parses view.added

theorem result_others (view : BanView setting input stores) :
    view.result.temporary = stores.temporary ∧
      view.result.configuration = stores.configuration := by
  unfold result
  split_ifs <;> exact ⟨rfl, rfl⟩

/-- Nothing is missing behind the ban. -/
theorem added_result (view : BanView setting input stores)
    (again : BanView setting input view.result) : again.added = [] := by
  obtain ⟨_, document, parses, entries⟩ := view.parse_result
  have sameTargets : again.targets = view.targets := again.requested.unique view.requested
  have sameDocument : again.document = document :=
    Except.ok.inj (again.parses.symm.trans parses)
  rw [added, sameTargets, sameDocument, entries]
  exact newTargets_append_newTargets _ _

end BanView

/-- A save is called for with missing networks only, and refused over the limit. -/
def SavesMissing (setting : StoreSetting) (input : BlocklistInput) (stores : Stores) :
    Step PortOp PortOp.Result StoreState :=
  fun before op _ after => op.saves = true →
    ∃ view : BanView setting input stores, view.added ≠ [] ∧
      (after.toStores = before.toStores ∨ byteLength view.contents ≤ blocklistReadLimit)

theorem wp_executeBan (paths : PathResolutionInput) (input : BlocklistInput) :
    wp (storeStep setting) (SavesMissing setting input state.toStores)
      (fun outcome last => match outcome with
        | .applied changes => ∃ view : BanView setting input state.toStores,
          changes = view.changes ∧ last.toStores = view.result ∧
            (view.added ≠ [] → byteLength view.contents ≤ blocklistReadLimit)
        | _ => last.toStores = state.toStores ∧ ∀ targets, ¬ Requested setting input targets)
      (fun _ last => last.toStores = state.toStores)
      (executeBan ⟨paths, input, none⟩) state := by
  have unmoved : Unmoved (SavesMissing setting input state.toStores) := by
    intro _ op _ _ quiet _ saves
    rw [quiet] at saves
    cases saves
  have tolerates : Tolerates (fun _ last => last.toStores = state.toStores) state :=
    fun _ _ _ => rfl
  rw [executeBan, wp_bind]
  apply wp_checkCancelled_stores unmoved tolerates
  rw [wp_bind]
  apply wp_resolvePaths unmoved tolerates
  intro resolved
  apply wp_withLock_stores unmoved tolerates
  rw [executeBanLocked, wp_bind]
  apply wp_loadConfig unmoved tolerates
  intro _ _
  rw [wp_bind]
  apply wp_parseInput unmoved tolerates (fun _ _ => rfl)
  intro parsed requested
  cases parsed with
  | invalidTargets _ => exact ⟨rfl, fun targets asked => nomatch (requested targets).mp asked⟩
  | emptyFile => exact ⟨rfl, fun targets asked => nomatch (requested targets).mp asked⟩
  | ready targets =>
    dsimp only
    rw [wp_bind]
    apply wp_loadBlocklist unmoved tolerates
    intro document loaded
    -- everything that is reported or saved is read off this one view
    let view : BanView setting input state.toStores :=
      ⟨targets, document, (requested targets).mpr rfl, (loadBlocklistDocument_eq_ok.mp loaded).2⟩
    have sameAdded : addedTargets (classifyBanTargets document.entries targets) = view.added :=
      addedTargets_classify _ _
    simp only [banPermanently, sameAdded, List.isEmpty_map]
    -- without a missing target nothing is saved
    by_cases nothing : view.added = []
    · have unchanged : view.result = state.toStores := if_pos nothing
      rw [nothing]
      exact ⟨view, rfl, unchanged.symm, fun missing => absurd nothing missing⟩
    · have someMissing : (!view.added.isEmpty) = true := by
        simpa using nothing
      have someEntries : view.added.map CanonicalCidr.display ≠ [] := by
        simpa using nothing
      have saved : view.result =
          { state.toStores with blocklist := some view.contents } := if_neg nothing
      rw [if_pos someMissing, wp_bind]
      apply wp_checkCancelled_stores unmoved tolerates
      rw [wp_bind, sameAdded]
      refine wp_propagate.mpr (wp_save ?_ ?_ ?_)
      · intro answer truthful _
        refine ⟨view, nothing, ?_⟩
        cases answer with
        | error _ => exact Or.inl rfl
        | ok _ => exact Or.inr (truthful someEntries)
      · intro answer truthful answered
        cases answer with
        | error _ => cases answered
        | ok _ =>
          refine ⟨view, rfl, ?_, fun _ => truthful someEntries⟩
          rw [saved]
          exact if_neg someEntries
      · intro answer _ refused
        cases answer with
        | error _ => rfl
        | ok _ => cases refused

end Workflow

/-! ### The contract -/

/-- A permanent ban that is applied keeps the bytes of the file and appends the
missing networks, each once and in the order first requested. The report agrees,
the other stores are kept, and the same ban saves nothing the next time. A ban
that would exceed the limit never returns and keeps every store. -/
theorem executeBan_appends {setting : StoreSetting} {paths : PathResolutionInput}
    {input : BlocklistInput} {state last : StoreState}
    {trace : List (Event PortOp PortOp.Result StoreState)} {ending : Ending AppError BanOutcome}
    (runs : Runs (storeStep setting) (executeBan ⟨paths, input, none⟩) state trace last ending) :
    (∀ changes, ending = .returned (.applied changes) →
      ∃ (targets : List CanonicalCidr) (document again : BlocklistDocument),
        Requested setting input targets ∧
        BlocklistDocument.parse (state.blocklist.getD []) = .ok document ∧
        state.blocklist.getD [] <+: last.blocklist.getD [] ∧
        BlocklistDocument.parse (last.blocklist.getD []) = .ok again ∧
        again.entries = document.entries ++ newTargets document.entries targets ∧
        changes.length = targets.length ∧
        (∀ (index : ℕ) (target : CanonicalCidr), targets[index]? = some target →
          changes[index]? = some
            (if target ∈ document.entries ∨ target ∈ targets.take index then
              .alreadyPresent target.display else .added target.display)) ∧
        last.temporary = state.temporary ∧ last.configuration = state.configuration ∧
        ∀ {laterTrace laterLast laterEnding},
          Runs (storeStep setting) (executeBan ⟨paths, input, none⟩) last laterTrace laterLast
            laterEnding →
          (∀ event ∈ laterTrace, event.op.saves = false) ∧
            laterLast.toStores = last.toStores) ∧
    ∀ (targets : List CanonicalCidr) (document : BlocklistDocument),
      Requested setting input targets →
      BlocklistDocument.parse (state.blocklist.getD []) = .ok document →
      newTargets document.entries targets ≠ [] →
      blocklistReadLimit < byteLength (appendedContents (state.blocklist.getD [])
        ((newTargets document.entries targets).map CanonicalCidr.display) document.hasContent
        document.trailingNewline) →
      (∀ outcome, ending ≠ .returned outcome) ∧ last.toStores = state.toStores := by
  obtain ⟨steps, ended⟩ := runs.sound (wp_executeBan paths input)
  constructor
  · intro changes returned
    rw [returned] at ended
    obtain ⟨view, rfl, sameStores, _⟩ := ended
    obtain ⟨sameStart, again, parsesAgain, entries⟩ := view.parse_result
    obtain ⟨sameTemporary, sameConfiguration⟩ := view.result_others
    rw [← sameStores] at sameStart parsesAgain sameTemporary sameConfiguration
    refine ⟨view.targets, view.document, again, view.requested, view.parses, sameStart,
      parsesAgain, entries, view.length_changes, fun _ _ => view.getElem?_changes,
      sameTemporary, sameConfiguration, ?_⟩
    intro laterTrace laterLast laterEnding later
    -- the second run sees a blocklist that misses none of its targets
    have settled : ∀ other : BanView setting input last.toStores, other.added = [] := by
      rw [sameStores]
      exact view.added_result
    obtain ⟨steps, _⟩ := later.sound (wp_executeBan paths input)
    have quiet : ∀ event ∈ laterTrace, event.op.saves = false := by
      intro event member
      cases saves : event.op.saves with
      | false => rfl
      | true =>
        obtain ⟨other, missing, _⟩ := steps event member saves
        exact absurd (settled other) missing
    refine ⟨quiet, toStores_eq_of_runs later ?_⟩
    intro event member saves
    rw [quiet event member] at saves
    cases saves
  · intro targets document requested parses missing tooLong
    let view : BanView setting input state.toStores := ⟨targets, document, requested, parses⟩
    constructor
    · intro outcome returned
      rw [returned] at ended
      cases outcome with
      | applied changes =>
        obtain ⟨other, _, _, bounded⟩ := ended
        rw [other.unique view] at bounded
        exact absurd (bounded missing) (Nat.not_le_of_lt tooLong)
      | _ => exact ended.2 targets requested
    -- a save would have passed the size check
    · apply toStores_eq_of_runs runs
      intro event member saves
      obtain ⟨other, _, unchanged | bounded⟩ := steps event member saves
      · exact unchanged
      · rw [other.unique view] at bounded
        exact absurd bounded (Nat.not_le_of_lt tooLong)

/-- Whether a permanent ban was applied. -/
def BanOutcome.isApplied : BanOutcome → Bool
  | applied _ => true
  | _ => false

/-- Two networks in three spellings behind a line that is not terminated. -/
theorem executeBan_appends_unterminated :
    ∃ (targets : List CanonicalCidr) (document again : BlocklistDocument) (last : StoreState),
      BlocklistDocument.parse "10.0.0.0/24\r\n# seen\r\n10.0.1.0/24".toList = .ok document ∧
      last.blocklist = some
        "10.0.0.0/24\r\n# seen\r\n10.0.1.0/24\n10.0.0.9/32\n10.0.2.0/24\n".toList ∧
      BlocklistDocument.parse (last.blocklist.getD []) = .ok again ∧
      again.entries = document.entries ++ newTargets document.entries targets := by
  let setting : StoreSetting := ⟨minimalFormat [], fun _ =>
    some "10.0.0.9\n10.0.1.7/24\n10.0.0.9/32\n10.0.2.3/24".toList⟩
  let state : StoreState :=
    ⟨⟨some "10.0.0.0/24\r\n# seen\r\n10.0.1.0/24".toList, ⟨.empty, .empty⟩,
      some minimalText⟩, []⟩
  let request : BanRequest := ⟨⟨none, "/tmp", []⟩, .file "targets", none⟩
  have applied : returnsWith (fun outcome _ => outcome.isApplied)
      (exec (calmStores setting systemPaths 0) (executeBan request) state) = true := by
    decide +kernel
  have saved : (exec (calmStores setting systemPaths 0) (executeBan request) state).2.blocklist =
      some "10.0.0.0/24\r\n# seen\r\n10.0.1.0/24\n10.0.0.9/32\n10.0.2.0/24\n".toList := by
    decide +kernel
  generalize ran : exec (calmStores setting systemPaths 0) (executeBan request) state = outcome
    at applied saved
  obtain ⟨ending, last⟩ := outcome
  obtain ⟨trace, runs⟩ := exists_runs_of_exec (storeStep_calmStores setting systemPaths 0) ran
  obtain ⟨banned, after, returned, isApplied⟩ := returnsWith_eq_true.mp applied
  obtain ⟨ended, -⟩ := Prod.mk.inj returned
  cases banned with
  | applied changes =>
    obtain ⟨targets, document, again, _, parses, _, parsesAgain, entries, _⟩ :=
      (executeBan_appends runs).1 changes ended
    exact ⟨targets, document, again, last, parses, saved, parsesAgain, entries⟩
  | _ => cases isApplied

end Kidobo
