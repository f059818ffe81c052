import Kidobo.App.PartialUpdate
import Kidobo.App.TimedBan
import Kidobo.Configuration.AsnList

/-!
# What ASN bans and unbans leave

An unban takes the requested ASNs out of the configuration and of the temporary
records and reports those that were there. A permanent ban adds them to the
configuration and then removes the lines of the blocklist that name one of the
resolved prefixes, so both together cover what they covered before. Whatever
else is configured, recorded or listed stays.

## Main definitions

* `Stores.Configured`: the configuration that is saved
* `AsnsUnbanned`, `AsnsBanned`: what the commands leave and report
* `resolvingStep`: truthful ports, with the prefixes that each ASN resolves to

## Main results

* `asnCommands_exact`
-/

namespace Kidobo

open Foundation

/-! ### The saved configuration -/

/-- The configuration that is saved. -/
def Stores.Configured (library : ConfigLibrary) (stores : Stores) (config : ValidatedConfig) :
    Prop :=
  ∃ contents, stores.configuration = some contents ∧ library.fromTomlStr contents = .ok config

/-- The library is faithful on the update of the saved configuration. -/
def Stores.PrintsUpdate (library : ConfigLibrary) (stores : Stores) (add remove : List ℕ) : Prop :=
  ∀ contents, stores.configuration = some contents → library.PrintsUpdate contents add remove

theorem configured_of_load {library : ConfigLibrary} {path : String} {stores : Stores}
    {saved : SavedConfig}
    (loaded : loadConfigFromFile library.format path stores.configuration = .ok saved) :
    ∃ config, stores.Configured library config ∧ config.toSavedConfig = saved := by
  unfold loadConfigFromFile at loaded
  cases isFile : stores.configuration with
  | none =>
    rw [isFile] at loaded
    cases loaded
  | some contents =>
    rw [isFile] at loaded
    dsimp only [ConfigLibrary.format] at loaded
    split_ifs at loaded
    cases accepted : library.fromTomlStr contents with
    | error _ => simp [accepted, Except.map] at loaded
    | ok config =>
      rw [accepted] at loaded
      exact ⟨config, ⟨contents, isFile, accepted⟩, Except.ok.inj loaded⟩

/-- The saved configuration behind an update, and what the update reports. -/
theorem configured_of_update {library : ConfigLibrary} {path : String} {stores : Stores}
    {config : ValidatedConfig} {add remove : List ℕ} {contents : List Char}
    {update : AsnConfigUpdate} (configured : stores.Configured library config)
    (prints : stores.PrintsUpdate library add remove) (areAsns : ∀ asn ∈ add, IsAsn asn)
    (updated : updateAsnBans library.format path stores.configuration add remove =
      .ok (contents, update)) :
    library.fromTomlStr contents =
        .ok (config.withBanned (bannedAfter config.asn.banned add remove)) ∧
      update = ⟨(bannedAfter config.asn.banned add remove).filter
          fun asn => decide (asn ∉ config.asn.banned),
        config.asn.banned.filter
          fun asn => decide (asn ∉ bannedAfter config.asn.banned add remove)⟩ := by
  obtain ⟨original, isFile, accepted⟩ := configured
  exact updateAsnBans_config isFile accepted (prints original isFile) areAsns updated

/-! ### Unbanning -/

/-- What an unban of these ASNs leaves and reports. -/
structure AsnsUnbanned (library : ConfigLibrary) (asns : List ℕ) (config : ValidatedConfig)
    (start last : Stores) (outcome : AsnUnbanOutcome) : Prop where
  configured : start.Configured library config
  reconfigured : ∃ banned, last.Configured library (config.withBanned banned) ∧
    ∀ asn, asn ∈ banned ↔ asn ∈ config.asn.banned ∧ asn ∉ asns
  recorded : ∀ asn, last.temporary.asns.lookup asn =
    if asn ∈ asns then none else start.temporary.asns.lookup asn
  networksKept : last.temporary.ips = start.temporary.ips
  blocklistKept : last.blocklist = start.blocklist
  reportedOnce : outcome.removed.Pairwise (· < ·)
  reported : ∀ asn, asn ∈ outcome.removed ↔
    asn ∈ asns ∧ (asn ∈ config.asn.banned ∨ asn ∈ start.temporary.asns.keys)

theorem mem_removeTemporaryAsns {asns : List ℕ} {records : SortedMap ℕ ℕ} {asn : ℕ} :
    asn ∈ (removeTemporaryAsns asns records).1 ↔ asn ∈ asns ∧ asn ∈ records.keys := by
  induction asns generalizing records with
  | nil => simp [removeTemporaryAsns]
  | cons first rest ih =>
    rw [removeTemporaryAsns]
    dsimp only
    by_cases recorded : first ∈ records.keys
    · rw [if_pos (SortedMap.isSome_lookup_iff.mpr recorded), List.mem_cons, ih,
        SortedMap.mem_keys_remove, List.mem_cons]
      by_cases same : asn = first
      · simp [same, recorded]
      · simp [same]
    · rw [if_neg fun found => recorded (SortedMap.isSome_lookup_iff.mp found), ih,
        SortedMap.mem_keys_remove, List.mem_cons]
      by_cases same : asn = first
      · simp [same, recorded]
      · simp [same]

theorem lookup_withoutAsns (temporary : TemporaryBans) (asns : List ℕ) (asn : ℕ) :
    (temporary.withoutAsns asns).asns.lookup asn =
      if asn ∈ asns then none else temporary.asns.lookup asn := by
  apply Option.ext
  intro deadline
  rw [TemporaryBans.withoutAsns, SortedMap.lookup_eq_some_iff, SortedMap.mem_entries_retain,
    decide_eq_true_iff]
  by_cases requested : asn ∈ asns
  · simp [requested]
  · simp [requested, SortedMap.lookup_eq_some_iff]

/-- A returned unban, read off the stores it leaves and its report. -/
theorem asnsUnbanned_of_reported {library : ConfigLibrary} {asns : List ℕ} {start last : Stores}
    {outcome : AsnUnbanOutcome} (prints : start.PrintsUpdate library [] asns)
    (unbanned : AsnUnbannedStores library.format asns start last)
    (reported : AsnsReported library.format asns start outcome) :
    ∃ config, AsnsUnbanned library asns config start last outcome := by
  obtain ⟨path, saved, loaded, sameBlocklist, sameRecords, configuration⟩ := unbanned
  obtain ⟨_, otherSaved, update, otherLoaded, removed, attempted⟩ := reported
  obtain rfl := loadConfigFromFile_unique loaded otherLoaded
  obtain ⟨config, configured, rfl⟩ := configured_of_load loaded
  -- what is reported apart from the records
  have banned : ∃ banned, last.Configured library (config.withBanned banned) ∧
      (∀ asn, asn ∈ banned ↔ asn ∈ config.asn.banned ∧ asn ∉ asns) ∧
      ∀ asn, asn ∈ update.removed ↔ asn ∈ config.asn.banned ∧ asn ∈ asns := by
    split_ifs at configuration attempted with left
    · have untouched : ∀ asn ∈ asns, asn ∉ config.asn.banned := by
        rw [leavesConfiguration, Bool.and_eq_true] at left
        simpa using left.2
      obtain ⟨contents, isFile, accepted⟩ := configured
      refine ⟨config.asn.banned, ⟨contents, configuration.trans isFile, accepted⟩, ?_, ?_⟩
      · intro asn
        exact ⟨fun isBanned => ⟨isBanned, fun requested => untouched asn requested isBanned⟩,
          And.left⟩
      · intro asn
        rw [attempted]
        constructor
        · intro member
          cases member
        · rintro ⟨isBanned, requested⟩
          exact absurd isBanned (untouched asn requested)
    · obtain ⟨otherPath, contents, _, updated, isWritten⟩ := configuration
      obtain ⟨thirdPath, otherContents, otherUpdated⟩ := attempted
      obtain ⟨rfl, rfl⟩ := Prod.mk.inj (updateAsnBans_unique updated otherUpdated)
      obtain ⟨accepted, isUpdate⟩ := configured_of_update configured prints (by simp) updated
      refine ⟨_, ⟨contents, isWritten, accepted⟩, ?_, ?_⟩
      · simp
      · intro asn
        rw [isUpdate, List.mem_filter, decide_eq_true_iff, mem_bannedAfter]
        simp only [List.not_mem_nil, or_false, not_and, not_not]
        exact ⟨fun member => ⟨member.1, member.2 member.1⟩, fun member => ⟨member.1, fun _ => member.2⟩⟩
  obtain ⟨banned, reconfigured, isBanned, isReported⟩ := banned
  refine ⟨config, configured, ⟨banned, reconfigured, isBanned⟩, ?_, ?_, sameBlocklist, ?_, ?_⟩
  · intro asn
    rw [sameRecords, lookup_withoutAsns]
  · rw [sameRecords]
    rfl
  · rw [removed]
    exact numberSet_strict _
  · intro asn
    rw [removed, mem_numberSet, List.mem_append, mem_removeTemporaryAsns, isReported]
    tauto

/-! ### The duplicate cleanup -/

/-- Whether a line names one of these prefixes. -/
def BlocklistLine.names (prefixes : List CanonicalCidr) (line : BlocklistLine) : Bool :=
  line.canonical.any fun cidr => decide (cidr ∈ prefixes)

/-- A document without some of the lines that name one of these prefixes. The addresses that
it covers together with the prefixes are the same. -/
structure CleanedDocument (prefixes : List CanonicalCidr) (document again : BlocklistDocument) : Prop where
  keptLines : ∃ kept : List BlocklistLine, kept.Sublist document.lines ∧
    (kept.filter fun line => !line.names prefixes) =
      (document.lines.filter fun line => !line.names prefixes) ∧
    List.Forall₂ BlocklistLine.SameText (again.lines.filter BlocklistLine.isNonblank)
      (kept.filter BlocklistLine.isNonblank)
  fewerEntries : again.entries.Sublist document.entries
  otherEntries : (again.entries.filter fun cidr => decide (cidr ∉ prefixes)) =
    document.entries.filter fun cidr => decide (cidr ∉ prefixes)
  ipv4Covered : ipv4Addresses (again.entries ++ prefixes) =
    ipv4Addresses (document.entries ++ prefixes)
  ipv6Covered : ipv6Addresses (again.entries ++ prefixes) =
    ipv6Addresses (document.entries ++ prefixes)

/-- How a cleanup leaves the file: as it was, or without the lines of the prefixes. -/
inductive DuplicatesRemoved (prefixes : List CanonicalCidr) (file : Option (List Char)) :
    Option (List Char) → Prop
  | kept : DuplicatesRemoved prefixes file file
  | rewritten {document : BlocklistDocument}
      (parses : BlocklistDocument.parse (file.getD []) = .ok document) :
      DuplicatesRemoved prefixes file (some (joinTerminated
        ((document.lines.filter fun line => !line.names prefixes).map BlocklistLine.original)))

section Cleanup

variable {prefixes : List CanonicalCidr} {document again : BlocklistDocument}

/-- Lists with the same members outside of the prefixes cover the same with them. -/
theorem addresses_append_congr {entries others : List CanonicalCidr}
    (same : ∀ cidr, cidr ∉ prefixes → (cidr ∈ entries ↔ cidr ∈ others)) :
    ipv4Addresses (entries ++ prefixes) = ipv4Addresses (others ++ prefixes) ∧
      ipv6Addresses (entries ++ prefixes) = ipv6Addresses (others ++ prefixes) := by
  have sameMembers (cidr : CanonicalCidr) : cidr ∈ entries ++ prefixes ↔ cidr ∈ others ++ prefixes := by
    rw [List.mem_append, List.mem_append]
    by_cases isPrefix : cidr ∈ prefixes
    · simp [isPrefix]
    · simp [isPrefix, same cidr isPrefix]
  constructor
  · ext address
    simp only [ipv4Addresses, Set.mem_ofPred_eq, sameMembers]
  · ext address
    simp only [ipv6Addresses, Set.mem_ofPred_eq, sameMembers]

theorem cleanedDocument_of_entries {kept : List BlocklistLine} (sublist : kept.Sublist document.lines)
    (sameOthers : (kept.filter fun line => !line.names prefixes) =
      document.lines.filter fun line => !line.names prefixes)
    (sameTexts : List.Forall₂ BlocklistLine.SameText (again.lines.filter BlocklistLine.isNonblank)
      (kept.filter BlocklistLine.isNonblank))
    (entries : again.entries = kept.filterMap BlocklistLine.canonical) :
    CleanedDocument prefixes document again := by
  have otherEntries : (again.entries.filter fun cidr => decide (cidr ∉ prefixes)) =
      document.entries.filter fun cidr => decide (cidr ∉ prefixes) := by
    have outside (lines : List BlocklistLine) :=
      canonical_filter_not (fun cidr => decide (cidr ∈ prefixes)) lines
    simp only [← decide_not] at outside
    rw [entries, BlocklistDocument.entries, ← outside, ← outside]
    exact congrArg (List.filterMap BlocklistLine.canonical) sameOthers
  have sameMembers (cidr : CanonicalCidr) (notPrefix : cidr ∉ prefixes) :
      cidr ∈ again.entries ↔ cidr ∈ document.entries := by
    have member := congrArg (cidr ∈ ·) otherEntries
    simpa [List.mem_filter, notPrefix] using member
  obtain ⟨ipv4Covered, ipv6Covered⟩ := addresses_append_congr sameMembers
  exact {
    keptLines := ⟨kept, sublist, sameOthers, sameTexts⟩
    fewerEntries := entries ▸ sublist.filterMap _
    otherEntries := otherEntries
    ipv4Covered := ipv4Covered
    ipv6Covered := ipv6Covered }

/-- The file behind a cleanup is read as a document without lines of the prefixes. -/
theorem DuplicatesRemoved.cleaned {file last : Option (List Char)}
    (removed : DuplicatesRemoved prefixes file last)
    (parses : BlocklistDocument.parse (file.getD []) = .ok document) :
    ∃ again, BlocklistDocument.parse (last.getD []) = .ok again ∧
      CleanedDocument prefixes document again := by
  cases removed with
  | kept =>
    refine ⟨document, parses, cleanedDocument_of_entries (List.Sublist.refl _) rfl ?_ rfl⟩
    rw [List.forall₂_same]
    exact fun _ _ => ⟨rfl, Or.inl rfl⟩
  | rewritten otherParses =>
    obtain rfl := Except.ok.inj (parses.symm.trans otherParses)
    obtain ⟨again, parsesAgain, entries, sameTexts⟩ :=
      parse_filter parses fun line => !line.names prefixes
    refine ⟨again, parsesAgain, cleanedDocument_of_entries List.filter_sublist ?_ sameTexts entries⟩
    rw [List.filter_filter]
    simp

/-- Removing the matching positions leaves the other lines. -/
theorem removeIndexes_exactMatches (duplicates : List CanonicalCidr) :
    removeIndexes (fun index => decide (index ∈
        exactMatchIndexes (document.lines.map BlocklistLine.canonical) duplicates))
      document.lines = document.lines.filter fun line => !line.names duplicates := by
  apply removeIndexes_eq_filter
  intro index line found
  rw [Bool.eq_iff_iff, decide_eq_true_iff, exactMatchIndexes, mem_indexesWhere_any,
    List.getElem?_map, found, Option.map_some, BlocklistLine.names, Option.any_eq_true]
  constructor
  · rintro ⟨cidr, same, isDuplicate⟩
    exact ⟨cidr, Option.some.inj same, isDuplicate⟩
  · rintro ⟨cidr, same, isDuplicate⟩
    exact ⟨cidr, congrArg some same, isDuplicate⟩

end Cleanup

/-! ### Banning -/

/-- Each ASN has the same prefixes whenever they are loaded. A ban loads those of each requested
ASN once. -/
def Resolves (resolves : ℕ → List CanonicalCidr) : (op : PortOp) → op.Result → Prop
  | .loadPrefixes asn _ _, .ok batch => batch.prefixes = resolves asn
  | _, _ => True

/-- Truthful ports that may refuse, with the prefixes that each ASN resolves to. -/
def resolvingStep (setting : StoreSetting) (resolves : ℕ → List CanonicalCidr) :
    Step PortOp PortOp.Result StoreState :=
  fun before op result after =>
    storeStep setting before op result after ∧ Resolves resolves op result

/-- What a permanent ban of these ASNs leaves and reports. -/
structure AsnsBanned (library : ConfigLibrary) (prefixes : List CanonicalCidr) (asns : List ℕ)
    (config : ValidatedConfig) (start last : Stores) (outcome : AsnBanOutcome) : Prop where
  configured : start.Configured library config
  reconfigured : ∃ banned, last.Configured library (config.withBanned banned) ∧
    ∀ asn, asn ∈ banned ↔ asn ∈ config.asn.banned ∨ asn ∈ asns
  temporaryKept : last.temporary = start.temporary
  added : outcome.added = asns.filter fun asn => decide (asn ∉ config.asn.banned)
  alreadyPresent : outcome.alreadyPresent = asns.filter fun asn => decide (asn ∈ config.asn.banned)
  cleaned : ∀ document, BlocklistDocument.parse (start.blocklist.getD []) = .ok document →
    ∃ again, BlocklistDocument.parse (last.blocklist.getD []) = .ok again ∧
      CleanedDocument prefixes document again
  unreadableKept : (∀ document, BlocklistDocument.parse (start.blocklist.getD []) ≠ .ok document) →
    last.blocklist = start.blocklist

section Workflow

variable {setting : StoreSetting} {resolves : ℕ → List CanonicalCidr} {state : StoreState}

/-- No promise about steps. -/
def anyStep : Step PortOp PortOp.Result StoreState := fun _ _ _ _ => True

theorem unmoved_anyStep : Unmoved anyStep := fun _ _ _ _ _ _ => trivial

theorem resolvingStep_narrows (before : StoreState) (op : PortOp) (result : op.Result)
    (after : StoreState) (stepped : resolvingStep setting resolves before op result after) :
    storeStep setting before op result after :=
  stepped.1

/-- What truthful ports guarantee does not depend on what the ASNs resolve to. -/
theorem wp_resolving {α : Type} {guarantee : Step PortOp PortOp.Result StoreState}
    {program : Workflow α} {returns : α → StoreState → Prop} {fails : AppError → StoreState → Prop}
    (holds : wp (storeStep setting) guarantee returns fails program state) :
    wp (resolvingStep setting resolves) guarantee returns fails program state :=
  wp_narrow holds resolvingStep_narrows

/-- The prefixes of all ASNs are collected in order. -/
theorem wp_loadAsnPrefixes_resolving {fails : AppError → StoreState → Prop}
    (tolerates : Tolerates fails state) {cacheDir : String} {staleAfterSecs : ℕ} {asns : List ℕ}
    {resolved : List CanonicalCidr} {notices : List Notice}
    {returns : List CanonicalCidr × List Notice → StoreState → Prop}
    (continues : ∀ notices, returns (resolved ++ asns.flatMap resolves, notices) state) :
    wp (resolvingStep setting resolves) anyStep returns fails
      (loadAsnPrefixes cacheDir staleAfterSecs asns resolved notices) state := by
  induction asns generalizing resolved notices with
  | nil =>
    have collected := continues notices
    rw [List.flatMap_nil, List.append_nil] at collected
    exact collected
  | cons asn rest ih =>
    rw [loadAsnPrefixes, wp_bind]
    apply wp_resolving
    apply wp_checkCancelled_stores unmoved_anyStep tolerates
    rw [wp_bind]
    refine wp_propagate.mpr ?_
    rintro (error | batch) after ⟨⟨_, rfl⟩, isBatch⟩
    · rw [after_refused rfl]
      exact ⟨trivial, tolerates _ _ rfl⟩
    · rw [after_answered rfl rfl]
      refine ⟨trivial, ih ?_⟩
      intro notices
      rw [show batch.prefixes = resolves asn from isBatch, List.append_assoc,
        ← List.flatMap_cons]
      exact continues notices

/-- The cleanup leaves the file as it was, or without the lines of the duplicates. -/
theorem wp_removeExactDuplicates (path : String) (duplicates : List CanonicalCidr) :
    wp (storeStep setting) anyStep
      (fun _ last => DuplicatesRemoved duplicates state.blocklist last.blocklist ∧
        last.temporary = state.temporary ∧ last.configuration = state.configuration)
      (fun _ last => last.toStores = state.toStores)
      (removeExactDuplicates path duplicates) state := by
  have tolerates : Tolerates (fun _ last => last.toStores = state.toStores) state :=
    fun _ _ _ => rfl
  unfold removeExactDuplicates
  split
  case isTrue => exact ⟨.kept, rfl, rfl⟩
  case isFalse =>
    rw [wp_bind]
    apply wp_loadBlocklist unmoved_anyStep tolerates
    intro document loaded
    dsimp only
    rw [removeIndexes_exactMatches]
    split
    case isTrue =>
      rw [wp_bind]
      refine wp_propagate.mpr (wp_save (fun _ _ => trivial) ?_ ?_)
      · rintro (error | done) _ answered
        · cases answered
        · exact ⟨.rewritten (loadBlocklistDocument_eq_ok.mp loaded).2, rfl, rfl⟩
      · rintro (error | done) _ refused
        · rfl
        · cases refused
    case isFalse => exact ⟨.kept, rfl, rfl⟩

/-- What a permanent ban leaves, by the update of the configuration and the cleanup. -/
def AsnsBannedStores (format : ConfigFormat) (prefixes : List CanonicalCidr) (asns : List ℕ)
    (start last : Stores) (outcome : AsnBanOutcome) : Prop :=
  ∃ path otherPath saved contents update,
    loadConfigFromFile format path start.configuration = .ok saved ∧
      updateAsnBans format otherPath start.configuration asns [] = .ok (contents, update) ∧
      last.configuration = some contents ∧ last.temporary = start.temporary ∧
      DuplicatesRemoved prefixes start.blocklist last.blocklist ∧
      outcome.added = update.added ∧
      outcome.alreadyPresent = asns.filter fun asn => decide (asn ∉ update.added)

theorem wp_executeBanAsn_permanent (paths : PathResolutionInput) (tokens : List (List Char)) :
    wp (resolvingStep setting resolves) anyStep
      (fun outcome last => ∃ asns, normalizeAsnTokens tokens = .ok asns ∧
        AsnsBannedStores setting.format (networkSet (asns.flatMap resolves)) asns
          state.toStores last.toStores outcome)
      (fun _ _ => True) (executeBanAsn ⟨paths, tokens, none⟩) state := by
  have tolerates : Tolerates (fun _ _ => True) state := fun _ _ _ => trivial
  rw [executeBanAsn, wp_bind]
  apply wp_resolving
  apply wp_checkCancelled_stores unmoved_anyStep tolerates
  rw [wp_bind]
  apply wp_resolving
  apply wp_resolvePaths unmoved_anyStep tolerates
  intro resolved
  rw [wp_bind, wp_ofExcept]
  cases requested : normalizeAsnTokens tokens with
  | error _ => trivial
  | ok asns =>
    apply wp_withLock_narrow resolvingStep_narrows unmoved_anyStep tolerates
    rw [executeBanAsnLocked, wp_bind]
    apply wp_resolving
    apply wp_loadConfig unmoved_anyStep tolerates
    intro saved loaded
    change wp _ _ _ _ (loadAsnPrefixes _ _ _ _ _ >>= _) _
    rw [wp_bind]
    apply wp_loadAsnPrefixes_resolving tolerates
    intro notices
    rw [List.nil_append, wp_bind]
    apply wp_resolving
    apply wp_checkCancelled_stores unmoved_anyStep tolerates
    dsimp only
    rw [banAsnsPermanently, wp_bind]
    apply wp_resolving
    refine wp_updateConfig (fun _ _ _ _ => trivial) ?_ fun _ _ => trivial
    intro contents update updated
    rw [wp_bind, wp_attempt]
    apply wp_resolving
    -- the configuration is saved; a cleanup that fails is only reported
    apply wp_mono (wp_removeExactDuplicates _ _)
    · rintro removed last ⟨cleaned, sameRecords, sameConfiguration⟩
      exact ⟨asns, rfl, _, _, saved, contents, update, loaded, updated, sameConfiguration,
        sameRecords, cleaned, rfl, rfl⟩
    · intro error last sameStores
      refine ⟨asns, rfl, _, _, saved, contents, update, loaded, updated, ?_, ?_, ?_, rfl, rfl⟩
      · rw [sameStores]
      · rw [sameStores]
      · rw [sameStores]
        exact .kept

end Workflow

theorem parseU32_lt {text : List Char} {number : ℕ} (read : parseU32 text = some number) :
    number < 2 ^ 32 := by
  unfold parseU32 at read
  generalize (if text.head? = some '+' then text.tail else text) = unsigned at read
  dsimp only at read
  split_ifs at read with _ small
  obtain rfl := Option.some.inj read
  exact small

/-- A requested ASN is a positive word. -/
theorem isAsn_of_normalize {tokens : List (List Char)} {asns : List ℕ}
    (normal : normalizeAsnTokens tokens = .ok asns) : ∀ asn ∈ asns, IsAsn asn := by
  obtain ⟨_, parsed, allParsed, sameMembers⟩ := normalizeAsnTokens_ascending normal
  intro asn requested
  obtain ⟨token, _, isParsed⟩ :=
    exists_of_forall₂_right (mapM_eq_ok_iff.mp allParsed) ((sameMembers asn).mp requested)
  unfold parseAsnToken at isParsed
  split at isParsed
  case h_1 found =>
    obtain rfl := Except.ok.inj isParsed
    obtain ⟨read, positive⟩ := Option.filter_eq_some_iff.mp found
    exact ⟨of_decide_eq_true positive, parseU32_lt read⟩
  case h_2 => cases isParsed

/-- A returned permanent ban, read off the stores it leaves. -/
theorem asnsBanned_of_stores {library : ConfigLibrary} {prefixes : List CanonicalCidr}
    {asns : List ℕ} {start last : Stores} {outcome : AsnBanOutcome}
    (prints : start.PrintsUpdate library asns []) (areAsns : ∀ asn ∈ asns, IsAsn asn)
    (ascending : asns.Pairwise (· < ·))
    (banned : AsnsBannedStores library.format prefixes asns start last outcome) :
    ∃ config, AsnsBanned library prefixes asns config start last outcome := by
  obtain ⟨path, otherPath, saved, contents, update, loaded, updated, isWritten, sameRecords,
    cleaned, added, alreadyPresent⟩ := banned
  obtain ⟨config, configured, rfl⟩ := configured_of_load loaded
  obtain ⟨accepted, isUpdate⟩ := configured_of_update configured prints areAsns updated
  have isAdded : update.added = asns.filter fun asn => decide (asn ∉ config.asn.banned) := by
    rw [isUpdate]
    apply List.Pairwise.eq_of_mem_iff ((bannedAfter_strict _ _ _).filter _) (ascending.filter _)
    intro asn
    rw [List.mem_filter, List.mem_filter, mem_bannedAfter, decide_eq_true_iff]
    simp only [List.not_mem_nil, not_false_eq_true, and_true]
    tauto
  refine ⟨config, configured, ⟨_, ⟨contents, isWritten, accepted⟩, ?_⟩, sameRecords,
    added.trans isAdded, ?_, fun document parses => cleaned.cleaned parses, ?_⟩
  · simp
  · rw [alreadyPresent, isAdded]
    apply List.filter_congr
    intro asn requested
    simp [requested]
  · intro unreadable
    generalize last.blocklist = final at cleaned ⊢
    cases cleaned with
    | kept => rfl
    | rewritten parses => exact absurd parses (unreadable _)

/-- A returned unban leaves no requested ASN in the configuration or the records, and reports
those that were there; a returned permanent ban configures the requested ASNs besides those
before, and takes from the blocklist only lines of the prefixes they resolve to. Nothing else
changes. -/
theorem asnCommands_exact (library : ConfigLibrary) (targetFile : String → Option (List Char))
    (state last : StoreState) (trace : List (Event PortOp PortOp.Result StoreState)) :
    (∀ (request : AsnUnbanRequest) (outcome : AsnUnbanOutcome),
      (∀ asns, normalizeAsnTokens request.tokens = .ok asns →
        state.PrintsUpdate library [] asns) →
      Runs (storeStep ⟨library.format, targetFile⟩) (executeUnbanAsn request) state trace last
        (.returned outcome) →
      ∃ asns config, normalizeAsnTokens request.tokens = .ok asns ∧
        AsnsUnbanned library asns config state.toStores last.toStores outcome) ∧
    ∀ (request : AsnBanRequest) (resolves : ℕ → List CanonicalCidr) (outcome : AsnBanOutcome),
      request.duration = none →
      (∀ asns, normalizeAsnTokens request.tokens = .ok asns →
        state.PrintsUpdate library asns []) →
      Runs (resolvingStep ⟨library.format, targetFile⟩ resolves) (executeBanAsn request) state trace
        last (.returned outcome) →
      ∃ asns config, normalizeAsnTokens request.tokens = .ok asns ∧
        AsnsBanned library (networkSet (asns.flatMap resolves)) asns config state.toStores
          last.toStores outcome := by
  constructor
  · intro request outcome prints runs
    obtain ⟨_, _, asns, requested, unbanned, reported⟩ := runs.sound (wp_executeUnbanAsn request)
    obtain ⟨config, exact⟩ := asnsUnbanned_of_reported (prints asns requested) unbanned reported
    exact ⟨asns, config, requested, exact⟩
  · rintro ⟨paths, tokens, _⟩ resolves outcome rfl prints runs
    obtain ⟨_, asns, requested, banned⟩ :=
      runs.sound (wp_executeBanAsn_permanent paths tokens)
    obtain ⟨config, exact⟩ := asnsBanned_of_stores (prints asns requested)
      (isAsn_of_normalize requested) (normalizeAsnTokens_ascending requested).1 banned
    exact ⟨asns, config, requested, exact⟩

/-! ### Two runs -/

/-- The text of the minimal configuration with an `[asn]` section. -/
def withAsnText (banned : List ℕ) : List Char :=
  minimalText ++ ("\n[asn]\nbanned = [" ++ ", ".intercalate (banned.map toString) ++
    "]\ncache_stale_after_secs = 86400\n").toList

/-- A library that knows the minimal configuration, also with an `[asn]` section. -/
def minimalLibrary : ConfigLibrary where
  toml :=
    { parse := fun contents =>
        if contents = minimalText then .ok minimalDocument
        else if contents = withAsnText [64500] then .ok (withBanned minimalDocument [] [64500])
        else if contents = withAsnText [] then .ok (withBanned minimalDocument [] [])
        else .error "unknown document"
      print := fun original edited =>
        match ((Toml.tableAt "asn" edited).map bannedIn) with
        | some (.ok banned) => withAsnText banned
        | _ => original
      mismatch := fun _ => "unexpected document" }
  parseUrl _ := none

theorem minimalLibrary_bans : minimalLibrary.PrintsUpdate minimalText [64500] [] := by
  intro document entries existing parsed isTable found
  obtain rfl : minimalDocument = document := Except.ok.inj parsed
  obtain rfl : [] = entries := Option.some.inj isTable
  obtain rfl : [] = existing := Except.ok.inj found
  exact ⟨_, rfl, Toml.same_refl _⟩

theorem minimalLibrary_unbans : minimalLibrary.PrintsUpdate (withAsnText [64500]) [] [64500] := by
  intro document entries existing parsed isTable found
  obtain rfl : withBanned minimalDocument [] [64500] = document := Except.ok.inj parsed
  obtain rfl : withBannedEntries [] [64500] = entries := Option.some.inj isTable
  obtain rfl : [64500] = existing := Except.ok.inj found
  exact ⟨_, rfl, Toml.same_refl _⟩

/-- The network of one ASN. -/
def announcedBy (asn : ℕ) : List CanonicalCidr :=
  if asn = 64500 then (parseIpCidrToken "10.0.0.0/8".toList).toList else []

/-- Calm ports that resolve ASNs to their prefixes. -/
def resolvingStores (setting : StoreSetting) (paths : ResolvedPaths)
    (resolves : ℕ → List CanonicalCidr) : Handler PortOp PortOp.Result StoreState := fun state op =>
  match op with
  | .loadPrefixes asn _ _ => (.ok ⟨resolves asn, false⟩, state)
  | other => calmStores setting paths 0 state other

theorem resolvingStep_resolvingStores (setting : StoreSetting) (paths : ResolvedPaths)
    (resolves : ℕ → List CanonicalCidr) (state : StoreState) (op : PortOp) :
    resolvingStep setting resolves state op (resolvingStores setting paths resolves state op).1
      (resolvingStores setting paths resolves state op).2 := by
  cases op with
  | loadPrefixes asn cacheDir staleAfterSecs => exact ⟨⟨trivial, rfl⟩, rfl⟩
  | _ => exact ⟨storeStep_calmStores setting paths 0 state _, trivial⟩

/-- An unban takes an ASN from the configuration and from the records. A ban of this ASN takes
the line of its network from the blocklist and keeps the line of a smaller one. -/
theorem asnCommands_exact_minimal :
    (∃ config outcome, ∃ last : Stores, AsnsUnbanned minimalLibrary [64500] config
      ⟨none, ⟨.empty, SortedMap.empty.insert 64500 100⟩, some (withAsnText [64500])⟩ last outcome ∧
        last.temporary.asns.keys = [] ∧ outcome.removed = [64500]) ∧
    ∃ config outcome, ∃ last : Stores, AsnsBanned minimalLibrary
      (networkSet ([64500].flatMap announcedBy)) [64500] config
      ⟨some "# seen\n10.0.0.0/8\n10.0.0.0/9\n".toList, ⟨.empty, .empty⟩, some minimalText⟩
        last outcome ∧
        last.blocklist = some "# seen\n10.0.0.0/9\n".toList ∧ outcome.added = [64500] := by
  let setting : StoreSetting := ⟨minimalLibrary.format, fun _ => none⟩
  let banned : StoreState := ⟨⟨none, ⟨.empty, SortedMap.empty.insert 64500 100⟩,
    some (withAsnText [64500])⟩, []⟩
  let unbanned : StoreState := ⟨⟨some "# seen\n10.0.0.0/8\n10.0.0.0/9\n".toList,
    ⟨.empty, .empty⟩, some minimalText⟩, []⟩
  let unban : AsnUnbanRequest := ⟨⟨none, "/tmp", []⟩, ["AS64500".toList]⟩
  let ban : AsnBanRequest := ⟨⟨none, "/tmp", []⟩, ["AS64500".toList], none⟩
  have normal : normalizeAsnTokens ["AS64500".toList] = .ok [64500] := by decide +kernel
  constructor
  · have applied : returnsWith (fun outcome (last : StoreState) =>
          last.temporary.asns.keys.isEmpty && outcome.removed == [64500])
        (exec (calmStores setting systemPaths 0) (executeUnbanAsn unban) banned) = true := by
      decide +kernel
    obtain ⟨outcome, last, ran, exactly⟩ := returnsWith_eq_true.mp applied
    obtain ⟨trace, runs⟩ := exists_runs_of_exec (storeStep_calmStores setting systemPaths 0) ran
    obtain ⟨asns, config, requested, exact⟩ :=
      (asnCommands_exact minimalLibrary (fun _ => none) banned last trace).1 unban outcome
        (fun asns requested contents isFile => by
          obtain rfl := Except.ok.inj (normal.symm.trans requested)
          obtain rfl := Option.some.inj isFile
          exact minimalLibrary_unbans) runs
    obtain rfl := Except.ok.inj (normal.symm.trans requested)
    simp only [Bool.and_eq_true, beq_iff_eq, List.isEmpty_iff] at exactly
    exact ⟨config, outcome, last.toStores, exact, exactly⟩
  · have applied : returnsWith (fun outcome (last : StoreState) =>
          last.blocklist == some "# seen\n10.0.0.0/9\n".toList && outcome.added == [64500])
        (exec (resolvingStores setting systemPaths announcedBy) (executeBanAsn ban) unbanned) =
          true := by
      decide +kernel
    obtain ⟨outcome, last, ran, exactly⟩ := returnsWith_eq_true.mp applied
    obtain ⟨trace, runs⟩ :=
      exists_runs_of_exec (resolvingStep_resolvingStores setting systemPaths announcedBy) ran
    obtain ⟨asns, config, requested, exact⟩ :=
      (asnCommands_exact minimalLibrary (fun _ => none) unbanned last trace).2 ban announcedBy
        outcome rfl
        (fun asns requested contents isFile => by
          obtain rfl := Except.ok.inj (normal.symm.trans requested)
          obtain rfl := Option.some.inj isFile
          exact minimalLibrary_bans) runs
    obtain rfl := Except.ok.inj (normal.symm.trans requested)
    simp only [Bool.and_eq_true, beq_iff_eq] at exactly
    exact ⟨config, outcome, last.toStores, exact, exactly⟩

end Kidobo
