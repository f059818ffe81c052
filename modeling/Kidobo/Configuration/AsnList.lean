import Kidobo.Configuration.EditedDocument

/-!
# Another list of banned ASNs

Writing another list of banned ASNs into a configuration changes the banned ASNs
of the configuration and nothing else.

## Main definitions

* `ValidatedConfig.withBanned`: a configuration with other banned ASNs
* `ConfigLibrary.PrintsUpdate`: the library is faithful on the document of an update

## Main results

* `numberSet_bannedAsns`: a document bans what its configuration bans
* `updateAsnBans_config`: an update changes the banned ASNs alone
-/

namespace Kidobo

open Foundation

/-- A configuration with other banned ASNs. -/
def ValidatedConfig.withBanned (config : ValidatedConfig) (banned : List ℕ) : ValidatedConfig :=
  { config with asn := { config.asn with banned := banned } }

/-- A number that can be banned: a positive word. -/
def IsAsn (asn : ℕ) : Prop := 0 < asn ∧ asn < 2 ^ 32

/-- The banned ASNs of an update. -/
def bannedAfter (existing add remove : List ℕ) : List ℕ :=
  (numberSet (numberSet existing ++ add)).filter fun asn => decide (asn ∉ remove)

/-- What is printed of the document of an update is read back. -/
def ConfigLibrary.PrintsUpdate (library : ConfigLibrary) (contents : List Char)
    (add remove : List ℕ) : Prop :=
  ∀ document entries existing, library.toml.parse contents = .ok document →
    Toml.tableAt "asn" document = some entries → bannedIn entries = .ok existing →
    library.toml.ReadsBack contents
      (withBanned document entries (bannedAfter existing add remove))

/-! ### Sets of numbers -/

@[simp] theorem mem_numberSet {asn : ℕ} {numbers : List ℕ} :
    asn ∈ numberSet numbers ↔ asn ∈ numbers := by
  rw [numberSet, mem_dedupAdjacent, mem_sortUnstable]

theorem numberSet_strict (numbers : List ℕ) : (numberSet numbers).Pairwise (· < ·) :=
  dedupAdjacent_sortUnstable_strict numbers

theorem numberSet_eq_self {numbers : List ℕ} (strict : numbers.Pairwise (· < ·)) :
    numberSet numbers = numbers := by
  rw [numberSet, sortUnstable_eq_self (strict.imp Nat.le_of_lt), dedupAdjacent_eq_self strict]

theorem bannedAfter_strict (existing add remove : List ℕ) :
    (bannedAfter existing add remove).Pairwise (· < ·) :=
  (numberSet_strict _).filter _

@[simp] theorem mem_bannedAfter {asn : ℕ} {existing add remove : List ℕ} :
    asn ∈ bannedAfter existing add remove ↔ (asn ∈ existing ∨ asn ∈ add) ∧ asn ∉ remove := by
  simp [bannedAfter]

/-! ### Reading ASNs -/

/-- The editor reads an item of the list as the validator does. -/
theorem parseAsnItem_eq_ok_iff {item : Toml} {asn : ℕ} :
    parseAsnItem item = .ok asn ↔
      ∃ number : ℤ, item.asInteger = some number ∧
        boundedU32 number "asn.banned" 1 (2 ^ 32 - 1) = .ok asn := by
  unfold parseAsnItem
  cases item.asInteger with
  | none => simp [invalidField]
  | some number =>
    have sameBounds : (number ≤ 0 ∨ 2 ^ 32 - 1 < number) ↔
        (number < ((1 : ℕ) : ℤ) ∨ ((2 ^ 32 - 1 : ℕ) : ℤ) < number) := by
      norm_num
      omega
    simp only [boundedU32, sameBounds, Option.some.injEq, exists_eq_left']
    split_ifs <;> simp [invalidField]

theorem boundedU32_asn {number : ℤ} {asn : ℕ}
    (valid : boundedU32 number "asn.banned" 1 (2 ^ 32 - 1) = .ok asn) :
    IsAsn asn ∧ number = asn := by
  unfold boundedU32 at valid
  split at valid
  case isTrue => cases valid
  case isFalse inside =>
    obtain rfl := Except.ok.inj valid
    norm_num at inside
    exact ⟨⟨by omega, by omega⟩, by omega⟩

theorem boundedU32_natCast {asn : ℕ} (isAsn : IsAsn asn) :
    boundedU32 (asn : ℤ) "asn.banned" 1 (2 ^ 32 - 1) = .ok asn := by
  obtain ⟨positive, small⟩ := isAsn
  have inside : ¬((asn : ℤ) < ((1 : ℕ) : ℤ) ∨ ((2 ^ 32 - 1 : ℕ) : ℤ) < asn) := by
    norm_num
    omega
  rw [boundedU32, if_neg inside, Int.toNat_natCast]

/-- The items of a list that can be banned. -/
theorem parseAsnListFromToml_eq_ok_iff {value : Toml} {asns : List ℕ} :
    parseAsnListFromToml value = .ok asns ↔
      ∃ numbers, Toml.readList Toml.asInteger value = some numbers ∧
        numbers.mapM (fun number => boundedU32 number "asn.banned" 1 (2 ^ 32 - 1)) = .ok asns := by
  unfold parseAsnListFromToml Toml.readList
  cases value.asList with
  | none => simp [invalidField]
  | some items =>
    simp only [mapM_eq_ok_iff, Option.bind_some, mapM_eq_some_iff, parseAsnItem_eq_ok_iff]
    exact forall₂_comp_iff

/-- Validated numbers can be banned, and they are the numbers that were read. -/
theorem mapM_boundedU32_asn {numbers : List ℤ} {asns : List ℕ}
    (valid : numbers.mapM (fun number => boundedU32 number "asn.banned" 1 (2 ^ 32 - 1)) =
      .ok asns) : ∀ asn ∈ asns, IsAsn asn := by
  intro asn member
  obtain ⟨_, _, isValid⟩ := exists_of_forall₂_right (mapM_eq_ok_iff.mp valid) member
  exact (boundedU32_asn isValid).1

/-- A list of ASNs is read back from the integers it is written as. -/
theorem readAsns_natCast {asns : List ℕ} (areAsns : ∀ asn ∈ asns, IsAsn asn) :
    (asns.map fun asn : ℕ => Toml.integer asn).mapM Toml.asInteger =
        some (asns.map (Nat.cast : ℕ → ℤ)) ∧
      (asns.map (Nat.cast : ℕ → ℤ)).mapM
        (fun number => boundedU32 number "asn.banned" 1 (2 ^ 32 - 1)) = .ok asns := by
  constructor
  · rw [mapM_eq_some_iff, List.forall₂_map_left_iff, List.forall₂_map_right_iff,
      List.forall₂_same]
    intro asn _
    rfl
  · rw [mapM_eq_ok_iff, List.forall₂_map_left_iff, List.forall₂_same]
    intro asn member
    exact boundedU32_natCast (areAsns asn member)

/-! ### The section -/

theorem parseAsn_eq_ok_iff {raw : RawAsnConfig} {asn : AsnConfig} :
    parseAsn raw = .ok asn ↔
      ∃ banned, (raw.banned.getD []).mapM
          (fun number => boundedU32 number "asn.banned" 1 (2 ^ 32 - 1)) = .ok banned ∧
        asn.banned = numberSet banned ∧
        boundedNewtype (raw.cacheStaleAfterSecs.getD defaultAsnCacheStaleAfterSecs)
          "asn.cache_stale_after_secs" 1 asnCacheStaleAfterSecsMax
          s!"must be between 1 and {asnCacheStaleAfterSecsMax}" newAsnCacheStaleAfterSecs =
            .ok asn.cacheStaleAfterSecs := by
  unfold parseAsn
  simp only [bind_eq_ok_iff]
  constructor
  · rintro ⟨banned, valid, seconds, validSeconds, built⟩
    obtain rfl := Except.ok.inj built
    exact ⟨banned, valid, rfl, validSeconds⟩
  · rintro ⟨banned, valid, isSet, validSeconds⟩
    refine ⟨banned, valid, asn.cacheStaleAfterSecs, validSeconds, ?_⟩
    rw [← isSet]
    rfl

section Updates

variable {library : ConfigLibrary} {document entries : Toml.Entries} {raw : RawConfig}
  {existing : List ℕ}

/-- The editor finds the ASNs that the validator finds. -/
theorem bannedIn_eq {rawAsn : RawAsnConfig} {asn : AsnConfig}
    (decoded : RawAsnConfig.decode (.table entries) = some rawAsn)
    (valid : parseAsn rawAsn = .ok asn) (found : bannedIn entries = .ok existing) :
    asn.banned = numberSet existing ∧ ∀ asn ∈ existing, IsAsn asn := by
  obtain ⟨banned, validBanned, isSet, _⟩ := parseAsn_eq_ok_iff.mp valid
  have read := (RawAsnConfig.decode_eq_some_iff.mp decoded).2.1
  rw [Toml.member] at read
  unfold bannedIn at found
  cases present : entries.lookup "banned" with
  | none =>
    rw [present] at read found
    rw [← Option.some.inj read] at validBanned
    obtain rfl := Except.ok.inj found
    obtain rfl := Except.ok.inj validBanned
    exact ⟨isSet, by simp⟩
  | some value =>
    rw [present] at read found
    obtain ⟨numbers, isRead, sameBanned⟩ := Option.map_eq_some_iff.mp read
    obtain ⟨otherNumbers, alsoRead, alsoValid⟩ := parseAsnListFromToml_eq_ok_iff.mp found
    obtain rfl := Option.some.inj (isRead.symm.trans alsoRead)
    rw [← sameBanned, Option.getD_some] at validBanned
    obtain rfl := Except.ok.inj (validBanned.symm.trans alsoValid)
    exact ⟨isSet, mapM_boundedU32_asn alsoValid⟩

/-- The edited section is decoded with the new list and the age it had. -/
theorem decode_withBannedEntries {rawAsn : RawAsnConfig} {banned : List ℕ}
    (decoded : RawAsnConfig.decode (.table entries) = some rawAsn)
    (areAsns : ∀ asn ∈ banned, IsAsn asn) :
    ∃ seconds : Option ℤ,
      RawAsnConfig.decode (.table (withBannedEntries entries banned)) =
        some ⟨some (banned.map (Nat.cast : ℕ → ℤ)), seconds⟩ ∧
      seconds.getD defaultAsnCacheStaleAfterSecs =
        rawAsn.cacheStaleAfterSecs.getD defaultAsnCacheStaleAfterSecs := by
  have listed := decode_setBanned decoded (readAsns_natCast areAsns).1
  unfold withBannedEntries
  simp only
  split_ifs with missing
  · refine ⟨_, decode_setAsnCacheStaleAfterSecs listed _, ?_⟩
    have read := (RawAsnConfig.decode_eq_some_iff.mp listed).2.2
    rw [Toml.member, Option.isNone_iff_eq_none.mp missing] at read
    rw [← Option.some.inj read]
    rfl
  · exact ⟨_, listed, rfl⟩

/-- The edited document is accepted with the new list. -/
theorem fromTomlStr_print {contents : List Char} {config : ValidatedConfig} {banned : List ℕ}
    (accepted : library.fromTomlStr contents = .ok config)
    (parsed : library.toml.parse contents = .ok document)
    (isTable : Toml.tableAt "asn" document = some entries)
    (areAsns : ∀ asn ∈ banned, IsAsn asn) (strict : banned.Pairwise (· < ·))
    (readsBack : library.toml.ReadsBack contents (withBanned document entries banned)) :
    library.fromTomlStr (library.toml.print contents (withBanned document entries banned)) =
      .ok (config.withBanned banned) := by
  obtain ⟨_, raw, sameParsed, decoded, valid⟩ := fromTomlStr_eq_ok_iff.mp accepted
  obtain rfl := Except.ok.inj (parsed.symm.trans sameParsed)
  obtain ⟨rawIpset, ipset, safe, remote, asn, isIpset, ipsetValid, safeValid, remoteValid,
    asnValid, rfl⟩ := fromRaw_eq_ok_iff.mp valid
  obtain ⟨found, printed, sameDecoded⟩ := decode_of_readsBack readsBack
  obtain ⟨seconds, editedSection, sameSeconds⟩ :=
    decode_withBannedEntries (decode_asnSection decoded isTable) areAsns
  rw [withBanned, decode_setAsn decoded editedSection] at sameDecoded
  refine fromTomlStr_eq_ok_iff.mpr ⟨found, _, printed, sameDecoded, ?_⟩
  obtain ⟨_, _, _, validSeconds⟩ := parseAsn_eq_ok_iff.mp asnValid
  refine fromRaw_eq_ok_iff.mpr ⟨rawIpset, ipset, safe, remote,
    { asn with banned := banned }, isIpset, ipsetValid, safeValid, remoteValid, ?_, rfl⟩
  refine parseAsn_eq_ok_iff.mpr ⟨banned, (readAsns_natCast areAsns).2,
    (numberSet_eq_self strict).symm, ?_⟩
  rw [← sameSeconds] at validSeconds
  exact validSeconds

/-- What an update does to a configuration: it bans the ASNs of the update and is otherwise
the same, and it reports the difference of the two lists. -/
theorem updateAsnBans_config {path : String} {file : Option (List Char)} {add remove : List ℕ}
    {contents rendered : List Char} {config : ValidatedConfig} {update : AsnConfigUpdate}
    (isFile : file = some contents) (accepted : library.fromTomlStr contents = .ok config)
    (prints : library.PrintsUpdate contents add remove) (areAsns : ∀ asn ∈ add, IsAsn asn)
    (updated : updateAsnBans library.format path file add remove = .ok (rendered, update)) :
    library.fromTomlStr rendered =
        .ok (config.withBanned (bannedAfter config.asn.banned add remove)) ∧
      update = ⟨(bannedAfter config.asn.banned add remove).filter
          fun asn => decide (asn ∉ config.asn.banned),
        config.asn.banned.filter
          fun asn => decide (asn ∉ bannedAfter config.asn.banned add remove)⟩ := by
  subst isFile
  obtain ⟨document, raw, parsed, decoded, valid⟩ := fromTomlStr_eq_ok_iff.mp accepted
  obtain ⟨_, _, _, _, asn, _, _, _, _, asnValid, isConfig⟩ := fromRaw_eq_ok_iff.mp valid
  simp only [updateAsnBans, ConfigLibrary.format, ConfigLibrary.bannedAsns,
    ConfigLibrary.renderBanned, parsed] at updated
  split at updated
  case isTrue => cases updated
  case isFalse =>
    cases isTable : Toml.tableAt "asn" document with
    | none => simp [isTable, invalidField] at updated
    | some entries =>
      cases found : bannedIn entries with
      | error _ => simp [isTable, found] at updated
      | ok existing =>
        obtain ⟨isSet, existingAsns⟩ :=
          bannedIn_eq (decode_asnSection decoded isTable) asnValid found
        -- the configuration holds the listed ASNs as a set, the file may repeat them
        have configSet : config.asn.banned = numberSet existing := by
          rw [isConfig]
          exact isSet
        have sameAfter : bannedAfter (numberSet existing) add remove =
            bannedAfter existing add remove := by
          rw [bannedAfter, bannedAfter, numberSet_eq_self (numberSet_strict existing)]
        have isAsn : ∀ asn ∈ bannedAfter existing add remove, IsAsn asn := by
          intro asn member
          rcases (mem_bannedAfter.mp member).1 with before | added
          · exact existingAsns asn before
          · exact areAsns asn added
        have printed := fromTomlStr_print accepted parsed isTable isAsn
          (bannedAfter_strict _ _ _) (prints document entries existing parsed isTable found)
        simp only [isTable, found] at updated
        split at updated
        case isTrue => cases updated
        case isFalse =>
          obtain ⟨rfl, rfl⟩ := Prod.mk.inj (Except.ok.inj updated)
          rw [configSet, sameAfter]
          exact ⟨printed, rfl⟩

end Updates

end Kidobo
