import Kidobo.Configuration.EditedDocument

/-!
# Configuration edits are semantic and framed

An edit works on the text of a document, and its law is about the configurations
that are read from the texts before and after it. Both are compared on the four
fields that edits target; the rest of the document is decoded as before. A source
and its configured URL have one normalized URL, and a spelling of an exemption
and its configured network are one network, so edits that find elements by what
they denote find exactly the configured ones.

## Main definitions

* `BasicFields`, `RawConfig.basic`, `RawConfig.rest`: the targeted fields and the rest
* `EditedAs`: the configuration that an edit asks for
* `SameMeaning`: configurations that agree on what edits target
* `ConfigLibrary.FaithfulFor`: the library is faithful on the document of an edit

## Main results

* `render_semantic`
-/

namespace Kidobo

open Foundation

/-! ### The targeted fields -/

/-- The fields that edits target, with their defaults. -/
structure BasicFields where
  enableIpv6 : Bool
  includeGithubMeta : Bool
  urls : List String
  ips : List String

namespace BasicFields

/-- The fields with other sources. -/
def withUrls (basic : BasicFields) (urls : List String) : BasicFields := { basic with urls := urls }

/-- The fields with other exemptions. -/
def withIps (basic : BasicFields) (ips : List String) : BasicFields := { basic with ips := ips }

end BasicFields

/-- The targeted fields of a document. -/
def RawConfig.basic (raw : RawConfig) : BasicFields where
  enableIpv6 := (raw.ipset.bind RawIpsetConfig.enableIpv6).getD true
  includeGithubMeta := (raw.safe.getD default).includeGithubMeta.getD true
  urls := (raw.remote.getD default).urls.getD []
  ips := (raw.safe.getD default).ips.getD []

/-- The document without the targeted fields. -/
def RawConfig.rest (raw : RawConfig) : RawConfig where
  ipset := raw.ipset.map fun rawIpset => { rawIpset with enableIpv6 := none }
  safe := some { raw.safe.getD default with ips := none, includeGithubMeta := none }
  remote := some { raw.remote.getD default with urls := none }
  asn := raw.asn

/-- A document that decodes with these targeted fields and the rest of another one. -/
def DecodesAs (document : Toml.Entries) (raw : RawConfig) (basic : BasicFields) : Prop :=
  ∃ edited, RawConfig.decode (.table document) = some edited ∧ edited.rest = raw.rest ∧
    edited.basic = basic

/-! ### Configured values -/

section Configured

variable {library : ConfigLibrary}

theorem nonEmpty_eq_ok_iff {value field result : String} :
    nonEmpty value field = .ok result ↔
      trim value.toList ≠ [] ∧ result = String.ofList (trim value.toList) := by
  unfold nonEmpty
  dsimp only
  split
  case isTrue blank => simp [invalidField, List.isEmpty_iff.mp blank]
  case isFalse nonblank =>
    rw [Except.ok.injEq, eq_comm]
    simp [List.isEmpty_iff.not.mp nonblank]

/-- The validator reads an exemption as the editor does. -/
theorem parseSafeIp_eq_ok_iff {text : String} {cidr : CanonicalCidr} :
    parseSafeIp text = .ok cidr ↔ parseIpCidrStrict text.toList = some cidr := by
  unfold parseSafeIp parseIpCidrStrict
  rw [bind_eq_ok_iff]
  simp only [nonEmpty_eq_ok_iff]
  constructor
  · rintro ⟨_, ⟨nonblank, rfl⟩, parsed⟩
    unfold parseCidrFieldStrict at parsed
    simp only [String.toList_ofList, trim_trim] at parsed
    rw [if_neg (by simpa using nonblank)]
    split_ifs at parsed ⊢ with words
    · cases parsed
    · cases found : parseIpCidrToken (trim text.toList) with
      | none => simp [found, invalidField] at parsed
      | some other =>
        rw [found] at parsed
        rw [Except.ok.inj parsed]
  · intro parsed
    split_ifs at parsed with blank words
    refine ⟨_, ⟨by simpa using blank, rfl⟩, ?_⟩
    unfold parseCidrFieldStrict
    simp only [String.toList_ofList, trim_trim]
    rw [if_neg words, parsed]

theorem canonicalTarget_eq_ok_iff {input : String} {target : CanonicalCidr} :
    canonicalTarget input = .ok target ↔ parseIpCidrStrict input.toList = some target := by
  unfold canonicalTarget
  cases parseIpCidrStrict input.toList <;> simp [editError]

/-- White space around a source does not matter. -/
theorem normalizedUrl_trim (text : String) :
    library.normalizedUrl (String.ofList (trim text.toList)) = library.normalizedUrl text := by
  unfold ConfigLibrary.normalizedUrl
  rw [String.toList_ofList, trim_trim]

/-- A configured source is the trimmed text, and it has the normalized URL of the text. -/
theorem parseRemoteUrl_ok {text url : String} (valid : library.parseRemoteUrl text = .ok url) :
    url = String.ofList (trim text.toList) ∧
      ∃ identity, library.normalizedUrl text = .ok identity := by
  unfold ConfigLibrary.parseRemoteUrl at valid
  obtain ⟨_, isTrimmed, checked⟩ := bind_eq_ok_iff.mp valid
  obtain ⟨_, rfl⟩ := nonEmpty_eq_ok_iff.mp isTrimmed
  obtain ⟨_, isHttp, returned⟩ := bind_eq_ok_iff.mp checked
  refine ⟨(Except.ok.inj returned).symm, ?_⟩
  unfold ConfigLibrary.validateHttpUrl at isHttp
  rw [String.toList_ofList] at isHttp
  unfold ConfigLibrary.normalizedUrl
  cases parsed : library.parseUrl (trim text.toList) with
  | none => simp [parsed, invalidField] at isHttp
  | some found =>
    rw [parsed] at isHttp
    simp only at isHttp ⊢
    split_ifs at isHttp ⊢ with http
    · exact ⟨_, rfl⟩
    · cases isHttp

theorem parseIpset_ok {raw : RawIpsetConfig} {ipset : IpsetConfig}
    (valid : parseIpset raw = .ok ipset) :
    requiredNonEmpty raw.setName "ipset.set_name" = .ok ipset.setName ∧
      raw.enableIpv6.getD true = ipset.enableIpv6 ∧
      parseSetNameV6 raw.setNameV6 ipset.setName ipset.enableIpv6 = .ok ipset.setNameV6 ∧
      parseChainAction raw.chainAction = .ok ipset.chainAction ∧
      parseSetType raw.setType = .ok ipset.setType ∧
      boundedNewtype (raw.hashsize.getD defaultHashsize) "ipset.hashsize" 1 (2 ^ 32 - 1)
        "must be a power-of-two positive integer" newHashsizePow2 = .ok ipset.hashsize ∧
      boundedNewtype (raw.maxelem.getD defaultMaxelem) "ipset.maxelem" 1 defaultMaxelem
        s!"must be between 1 and {defaultMaxelem}" newMaxElem = .ok ipset.maxelem ∧
      boundedU32 (raw.timeout.getD 0) "ipset.timeout" 0 ipsetTimeoutSecsMax =
        .ok ipset.timeout := by
  unfold parseIpset at valid
  simp only [bind_eq_ok_iff] at valid
  obtain ⟨setName, isSetName, _, _, setNameV6, isSetNameV6, valid⟩ := valid
  split_ifs at valid
  · cases valid
  · simp only [bind_eq_ok_iff] at valid
    obtain ⟨chainAction, isChainAction, setType, isSetType, hashsize, isHashsize, maxelem,
      isMaxelem, timeout, isTimeout, built⟩ := valid
    obtain rfl := Except.ok.inj built
    exact ⟨isSetName, rfl, isSetNameV6, isChainAction, isSetType, isHashsize, isMaxelem, isTimeout⟩

/-- The IPv6 set name does not depend on whether IPv6 is enforced. -/
theorem parseSetNameV6_unique {raw : Option String} {setName first second : String}
    {enabled otherEnabled : Bool} (isFirst : parseSetNameV6 raw setName enabled = .ok first)
    (isSecond : parseSetNameV6 raw setName otherEnabled = .ok second) : first = second := by
  cases raw with
  | some value => exact Except.ok.inj (isFirst.symm.trans isSecond)
  | none =>
    have derived {enabled : Bool} {name : String}
        (isName : parseSetNameV6 none setName enabled = .ok name) : name = setName ++ "-v6" := by
      unfold parseSetNameV6 at isName
      cases enabled with
      | false => exact (Except.ok.inj isName).symm
      | true =>
        obtain ⟨_, _, returned⟩ := bind_eq_ok_iff.mp isName
        exact (Except.ok.inj returned).symm
    rw [derived isFirst, derived isSecond]

theorem parseIpset_rest {raw other : RawIpsetConfig} {ipset otherIpset : IpsetConfig}
    (valid : parseIpset raw = .ok ipset) (otherValid : parseIpset other = .ok otherIpset)
    (same : ({ other with enableIpv6 := none } : RawIpsetConfig) = { raw with enableIpv6 := none }) :
    otherIpset = { ipset with enableIpv6 := otherIpset.enableIpv6 } := by
  obtain ⟨setName, setNameV6, _, chainAction, setType, hashsize, maxelem, timeout⟩ := other
  simp only [RawIpsetConfig.mk.injEq] at same
  obtain ⟨rfl, rfl, _, rfl, rfl, rfl, rfl, rfl⟩ := same
  obtain ⟨isName, _, isNameV6, isAction, isType, isHashsize, isMaxelem, isTimeout⟩ :=
    parseIpset_ok valid
  obtain ⟨alsoName, _, alsoNameV6, alsoAction, alsoType, alsoHashsize, alsoMaxelem, alsoTimeout⟩ :=
    parseIpset_ok otherValid
  have sameName := Except.ok.inj (alsoName.symm.trans isName)
  rw [sameName] at alsoNameV6
  obtain ⟨name, nameV6, enabled, action, type, size, capacity, age⟩ := otherIpset
  simp only [IpsetConfig.mk.injEq, true_and]
  exact ⟨sameName, parseSetNameV6_unique alsoNameV6 isNameV6,
    Except.ok.inj (alsoAction.symm.trans isAction), Except.ok.inj (alsoType.symm.trans isType),
    Except.ok.inj (alsoHashsize.symm.trans isHashsize),
    Except.ok.inj (alsoMaxelem.symm.trans isMaxelem),
    Except.ok.inj (alsoTimeout.symm.trans isTimeout)⟩

theorem parseSafe_ok {raw : RawSafeConfig} {safe : SafeConfig}
    (valid : library.parseSafe raw = .ok safe) :
    (raw.ips.getD []).mapM parseSafeIp = .ok safe.ips ∧
      raw.includeGithubMeta.getD true = safe.includeGithubMeta ∧
      library.parseGithubMetaUrl raw.githubMetaUrl = .ok safe.githubMetaUrl ∧
      parseGithubMetaCategories raw.githubMetaCategories = .ok safe.githubMetaCategories := by
  unfold ConfigLibrary.parseSafe at valid
  simp only [bind_eq_ok_iff] at valid
  obtain ⟨ips, isIps, url, isUrl, categories, isCategories, built⟩ := valid
  obtain rfl := Except.ok.inj built
  exact ⟨isIps, rfl, isUrl, isCategories⟩

theorem parseRemote_ok {raw : RawRemoteConfig} {remote : RemoteConfig}
    (valid : library.parseRemote raw = .ok remote) :
    (raw.urls.getD []).mapM library.parseRemoteUrl = .ok remote.urls ∧
      boundedNewtype (raw.timeoutSecs.getD defaultRemoteTimeoutSecs) "remote.timeout_secs" 1
        remoteTimeoutSecsMax s!"must be between 1 and {remoteTimeoutSecsMax}"
        newRemoteTimeoutSecs = .ok remote.timeoutSecs := by
  unfold ConfigLibrary.parseRemote at valid
  simp only [bind_eq_ok_iff] at valid
  obtain ⟨urls, isUrls, timeoutSecs, isTimeout, _, _, built⟩ := valid
  obtain rfl := Except.ok.inj built
  exact ⟨isUrls, isTimeout⟩

/-- What a valid configuration has for the targeted fields. -/
theorem basic_of_fromRaw {raw : RawConfig} {config : ValidatedConfig}
    (valid : library.fromRaw raw = .ok config) :
    config.ipset.enableIpv6 = raw.basic.enableIpv6 ∧
      config.includeGithubMeta = raw.basic.includeGithubMeta ∧
      raw.basic.urls.mapM library.parseRemoteUrl = .ok config.remoteUrls ∧
      raw.basic.ips.mapM parseSafeIp = .ok config.safeIps := by
  obtain ⟨rawIpset, ipset, safe, remote, asn, isIpset, ipsetValid, safeValid, remoteValid, _, rfl⟩ :=
    fromRaw_eq_ok_iff.mp valid
  obtain ⟨_, enabled, _⟩ := parseIpset_ok ipsetValid
  obtain ⟨ips, included, _⟩ := parseSafe_ok safeValid
  refine ⟨?_, included.symm, (parseRemote_ok remoteValid).1, ips⟩
  rw [RawConfig.basic, isIpset]
  exact enabled.symm

/-- Two valid configurations of documents with the same rest differ in the targeted fields
only. -/
theorem fromRaw_of_rest {raw other : RawConfig} {config otherConfig : ValidatedConfig}
    (valid : library.fromRaw raw = .ok config) (otherValid : library.fromRaw other = .ok otherConfig)
    (same : other.rest = raw.rest) :
    otherConfig = { config with
      ipset := { config.ipset with enableIpv6 := otherConfig.ipset.enableIpv6 }
      includeGithubMeta := otherConfig.includeGithubMeta
      remoteUrls := otherConfig.remoteUrls
      safeIps := otherConfig.safeIps } := by
  obtain ⟨rawIpset, ipset, safe, remote, asn, isIpset, ipsetValid, safeValid, remoteValid, asnValid,
    rfl⟩ := fromRaw_eq_ok_iff.mp valid
  obtain ⟨otherRawIpset, otherIpset, otherSafe, otherRemote, otherAsn, otherIsIpset,
    otherIpsetValid, otherSafeValid, otherRemoteValid, otherAsnValid, rfl⟩ :=
    fromRaw_eq_ok_iff.mp otherValid
  simp only [RawConfig.rest, RawConfig.mk.injEq, isIpset, otherIsIpset, Option.map_some,
    Option.some.injEq] at same
  obtain ⟨sameIpset, sameSafe, sameRemote, sameAsn⟩ := same
  simp only [RawSafeConfig.mk.injEq, true_and] at sameSafe
  simp only [RawRemoteConfig.mk.injEq, true_and] at sameRemote
  obtain ⟨_, _, isUrl, isCategories⟩ := parseSafe_ok safeValid
  obtain ⟨_, _, alsoUrl, alsoCategories⟩ := parseSafe_ok otherSafeValid
  obtain ⟨_, isTimeout⟩ := parseRemote_ok remoteValid
  obtain ⟨_, alsoTimeout⟩ := parseRemote_ok otherRemoteValid
  rw [sameSafe.1] at alsoUrl
  rw [sameSafe.2] at alsoCategories
  rw [sameRemote.1] at alsoTimeout
  rw [sameAsn] at otherAsnValid
  have sameSets := parseIpset_rest ipsetValid otherIpsetValid sameIpset
  have sameUrl := Except.ok.inj (alsoUrl.symm.trans isUrl)
  have sameCategories := Except.ok.inj (alsoCategories.symm.trans isCategories)
  have sameTimeout := Except.ok.inj (alsoTimeout.symm.trans isTimeout)
  have sameAsns := Except.ok.inj (otherAsnValid.symm.trans asnValid)
  simp only [ValidatedConfig.ofSections]
  rw [sameUrl, sameCategories, sameTimeout, sameAsns, ← sameSets]

end Configured

/-! ### Edits of the targeted fields -/

section Edits

variable {document edited : Toml.Entries} {raw : RawConfig}

theorem DecodesAs.refl (decoded : RawConfig.decode (.table document) = some raw) :
    DecodesAs document raw raw.basic :=
  ⟨raw, decoded, rfl, rfl⟩

/-- Items that decode to texts are those texts. -/
theorem items_eq_map_string {items : List Toml} {texts : List String}
    (read : items.mapM Toml.asString = some texts) : items = texts.map Toml.string := by
  have paired := mapM_eq_some_iff.mp read
  induction paired with
  | nil => rfl
  | cons isText _ ih =>
    rename_i item text _ _ _
    cases item with
    | string other =>
      obtain rfl := Option.some.inj isText
      rw [List.map_cons, ← ih (mapM_eq_some_iff.mpr ‹_›)]
    | integer | boolean | literal | array | table => cases isText

theorem mapM_asString_map (texts : List String) :
    (texts.map Toml.string).mapM Toml.asString = some texts := by
  rw [mapM_eq_some_iff, List.forall₂_map_left_iff, List.forall₂_same]
  intro text _
  rfl

/-- A list field that is read holds its texts as strings. -/
theorem arrayAt_eq_texts {entries : Toml.Entries} {key : String} {items : List Toml}
    {field : Option (List String)}
    (read : Toml.readField (Toml.readList Toml.asString) ((Toml.table entries).member key 0) =
      some field)
    (isArray : Toml.arrayAt key entries = some items) :
    items = (field.getD []).map Toml.string := by
  rw [Toml.member] at read
  unfold Toml.arrayAt at isArray
  cases present : entries.lookup key with
  | none =>
    rw [present] at read isArray
    obtain rfl := Option.some.inj read
    obtain rfl := Option.some.inj isArray
    rfl
  | some value =>
    rw [present] at read isArray
    obtain ⟨texts, isRead, rfl⟩ := Option.map_eq_some_iff.mp read
    obtain ⟨sameItems, alsoArray, mapped⟩ := Option.bind_eq_some_iff.mp isRead
    obtain rfl := Option.some.inj (isArray.symm.trans alsoArray)
    exact items_eq_map_string mapped

theorem changeArray_eq_ok {sectionName key : String} {change : List Toml → List Toml}
    (changed : changeArray sectionName key change document = .ok edited) :
    ∃ entries items, Toml.tableAt sectionName document = some entries ∧
      Toml.arrayAt key entries = some items ∧
      edited = Toml.insertEntry sectionName
        (.table (Toml.insertEntry key (.array (change items)) entries)) document := by
  unfold changeArray at changed
  cases isTable : Toml.tableAt sectionName document with
  | none => simp [isTable, editError] at changed
  | some entries =>
    cases isArray : Toml.arrayAt key entries with
    | none => simp [isTable, isArray, editError] at changed
    | some items =>
      simp only [isTable, isArray, Except.ok.injEq] at changed
      exact ⟨entries, items, rfl, isArray, changed.symm⟩

theorem setBoolean_eq_ok {sectionName key : String} {setting : Bool}
    (changed : setBoolean sectionName key setting document = .ok edited) :
    ∃ entries, Toml.tableAt sectionName document = some entries ∧
      edited = Toml.insertEntry sectionName
        (.table (Toml.insertEntry key (.boolean setting) entries)) document := by
  unfold setBoolean at changed
  cases isTable : Toml.tableAt sectionName document with
  | none => simp [isTable, editError] at changed
  | some entries =>
    simp only [isTable, Except.ok.injEq] at changed
    exact ⟨entries, rfl, changed.symm⟩

/-- A change of the source list by its texts. -/
theorem decodesAs_changeUrls {change : List Toml → List Toml}
    (changeTexts : List String → List String)
    (byTexts : ∀ texts, change (texts.map Toml.string) = (changeTexts texts).map Toml.string)
    (decoded : RawConfig.decode (.table document) = some raw)
    (changed : changeArray "remote" "urls" change document = .ok edited) :
    DecodesAs edited raw (raw.basic.withUrls (changeTexts raw.basic.urls)) := by
  obtain ⟨entries, items, isTable, isArray, rfl⟩ := changeArray_eq_ok changed
  have isRemote := decode_remoteSection decoded isTable
  have isTexts := arrayAt_eq_texts (RawRemoteConfig.decode_eq_some_iff.mp isRemote).2.1 isArray
  rw [isTexts, byTexts]
  exact ⟨_, decode_setRemote decoded (decode_setUrls isRemote (mapM_asString_map _)), rfl, rfl⟩

/-- A change of the safelist by its texts. -/
theorem decodesAs_changeIps {change : List Toml → List Toml}
    (changeTexts : List String → List String)
    (byTexts : ∀ texts, change (texts.map Toml.string) = (changeTexts texts).map Toml.string)
    (decoded : RawConfig.decode (.table document) = some raw)
    (changed : changeArray "safe" "ips" change document = .ok edited) :
    DecodesAs edited raw (raw.basic.withIps (changeTexts raw.basic.ips)) := by
  obtain ⟨entries, items, isTable, isArray, rfl⟩ := changeArray_eq_ok changed
  have isSafe := decode_safeSection decoded isTable
  have isTexts := arrayAt_eq_texts (RawSafeConfig.decode_eq_some_iff.mp isSafe).2.1 isArray
  rw [isTexts, byTexts]
  exact ⟨_, decode_setSafe decoded (decode_setIps isSafe (mapM_asString_map _)), rfl, rfl⟩

theorem decodesAs_setIncludeGithubMeta {setting : Bool}
    (decoded : RawConfig.decode (.table document) = some raw)
    (changed : setBoolean "safe" "include_github_meta" setting document = .ok edited) :
    DecodesAs edited raw { raw.basic with includeGithubMeta := setting } := by
  obtain ⟨entries, isTable, rfl⟩ := setBoolean_eq_ok changed
  have isSafe := decode_safeSection decoded isTable
  exact ⟨_, decode_setSafe decoded (decode_setIncludeGithubMeta isSafe setting), rfl, rfl⟩

theorem decodesAs_setEnableIpv6 {setting : Bool} {rawIpset : RawIpsetConfig}
    (decoded : RawConfig.decode (.table document) = some raw) (present : raw.ipset = some rawIpset)
    (changed : setBoolean "ipset" "enable_ipv6" setting document = .ok edited) :
    DecodesAs edited raw { raw.basic with enableIpv6 := setting } := by
  obtain ⟨entries, isTable, rfl⟩ := setBoolean_eq_ok changed
  have isIpset := decode_ipsetSection decoded present isTable
  refine ⟨_, decode_setIpset decoded (decode_setEnableIpv6 isIpset setting), ?_, rfl⟩
  rw [RawConfig.rest, RawConfig.rest, present]
  rfl

end Edits

/-! ### Configurations of edited documents -/

/-- A text without white space around it. -/
def trimmedText (text : String) : String := String.ofList (trim text.toList)

/-- The normalized URL of a source. -/
def ConfigLibrary.sourceOf (library : ConfigLibrary) (text : String) : Option String :=
  (library.normalizedUrl text).toOption

section Reading

variable {library : ConfigLibrary} {raw : RawConfig} {config edited : ValidatedConfig}

@[simp] theorem sourceOf_trimmedText (text : String) :
    library.sourceOf (trimmedText text) = library.sourceOf text :=
  congrArg Except.toOption (normalizedUrl_trim text)

/-- The configured sources are the trimmed texts. -/
theorem urls_eq_map {texts urls : List String}
    (valid : texts.mapM library.parseRemoteUrl = .ok urls) : urls = texts.map trimmedText := by
  have paired := mapM_eq_ok_iff.mp valid
  induction paired with
  | nil => rfl
  | cons isUrl _ ih =>
    rw [List.map_cons, ← ih (mapM_eq_ok_iff.mpr ‹_›), (parseRemoteUrl_ok isUrl).1]
    rfl

/-- The configured exemptions are the networks of the texts. -/
theorem ips_forall₂ {texts : List String} {ips : List CanonicalCidr} :
    texts.mapM parseSafeIp = .ok ips ↔
      List.Forall₂ (fun text cidr => parseIpCidrStrict text.toList = some cidr) texts ips := by
  rw [mapM_eq_ok_iff]
  simp only [parseSafeIp_eq_ok_iff]

/-- A configuration with other targeted fields. -/
def ValidatedConfig.withBasic (config : ValidatedConfig) (enableIpv6 includeGithubMeta : Bool)
    (remoteUrls : List String) (safeIps : List CanonicalCidr) : ValidatedConfig :=
  { config with
    ipset := { config.ipset with enableIpv6 := enableIpv6 }
    includeGithubMeta := includeGithubMeta
    remoteUrls := remoteUrls
    safeIps := safeIps }

/-- The configuration of an edited document differs in the targeted fields only. -/
theorem config_of_decodesAs {original : List Char} {document : Toml.Entries}
    {basic : BasicFields} (valid : library.fromRaw raw = .ok config)
    (decodesAs : DecodesAs document raw basic)
    (readsBack : library.toml.ReadsBack original document)
    (accepted : library.fromTomlStr (library.toml.print original document) = .ok edited) :
    edited = config.withBasic basic.enableIpv6 basic.includeGithubMeta edited.remoteUrls
        edited.safeIps ∧
      basic.urls.mapM library.parseRemoteUrl = .ok edited.remoteUrls ∧
      basic.ips.mapM parseSafeIp = .ok edited.safeIps := by
  obtain ⟨editedRaw, decoded, sameRest, rfl⟩ := decodesAs
  obtain ⟨found, printed, sameDecoded⟩ := decode_of_readsBack readsBack
  obtain ⟨_, _, alsoPrinted, alsoDecoded, editedValid⟩ := fromTomlStr_eq_ok_iff.mp accepted
  obtain rfl := Except.ok.inj (printed.symm.trans alsoPrinted)
  obtain rfl := Option.some.inj ((sameDecoded.trans decoded).symm.trans alsoDecoded)
  obtain ⟨enabled, included, urls, ips⟩ := basic_of_fromRaw editedValid
  have differs := fromRaw_of_rest valid editedValid sameRest
  rw [enabled, included] at differs
  exact ⟨differs, urls, ips⟩

/-- Another source list, and everything else as before. -/
theorem config_of_urls {original : List Char} {document : Toml.Entries} {texts : List String}
    (valid : library.fromRaw raw = .ok config)
    (decodesAs : DecodesAs document raw (raw.basic.withUrls texts))
    (readsBack : library.toml.ReadsBack original document)
    (accepted : library.fromTomlStr (library.toml.print original document) = .ok edited) :
    edited = { config with remoteUrls := texts.map trimmedText } := by
  obtain ⟨enabled, included, _, ips⟩ := basic_of_fromRaw valid
  obtain ⟨differs, urls, sameIps⟩ := config_of_decodesAs valid decodesAs readsBack accepted
  rw [differs, urls_eq_map urls, ← Except.ok.inj (ips.symm.trans sameIps)]
  rw [show (raw.basic.withUrls texts).enableIpv6 = config.ipset.enableIpv6 from enabled.symm,
    show (raw.basic.withUrls texts).includeGithubMeta = config.includeGithubMeta from included.symm]
  rfl

/-- Another safelist, and everything else as before. -/
theorem config_of_ips {original : List Char} {document : Toml.Entries} {texts : List String}
    {ips : List CanonicalCidr} (valid : library.fromRaw raw = .ok config)
    (decodesAs : DecodesAs document raw (raw.basic.withIps texts))
    (readsBack : library.toml.ReadsBack original document)
    (accepted : library.fromTomlStr (library.toml.print original document) = .ok edited)
    (networks : List.Forall₂ (fun text cidr => parseIpCidrStrict text.toList = some cidr) texts
      ips) : edited = { config with safeIps := ips } := by
  obtain ⟨enabled, included, urls, _⟩ := basic_of_fromRaw valid
  obtain ⟨differs, sameUrls, editedIps⟩ := config_of_decodesAs valid decodesAs readsBack accepted
  rw [differs, ← Except.ok.inj (urls.symm.trans sameUrls),
    ← Except.ok.inj ((ips_forall₂.mpr networks).symm.trans editedIps)]
  rw [show (raw.basic.withIps texts).enableIpv6 = config.ipset.enableIpv6 from enabled.symm,
    show (raw.basic.withIps texts).includeGithubMeta = config.includeGithubMeta from included.symm]
  rfl

end Reading

/-! ### Single edits -/

section Single

variable {library : ConfigLibrary} {document edited : Toml.Entries} {raw : RawConfig}
  {existing : List String} {networks : List CanonicalCidr} {input : String}

/-- A source is added when no configured source has its normalized URL. -/
theorem editSource_add (decoded : RawConfig.decode (.table document) = some raw)
    (isEdited : library.editSource existing input true document = .ok edited) :
    ∃ identity, library.normalizedUrl input = .ok identity ∧
      (∀ url ∈ existing, library.sourceOf url ≠ some identity) ∧
      DecodesAs edited raw (raw.basic.withUrls (raw.basic.urls ++ [trimmedText input])) := by
  unfold ConfigLibrary.editSource at isEdited
  obtain ⟨identity, isIdentity, isEdited⟩ := bind_eq_ok_iff.mp isEdited
  refine ⟨identity, isIdentity, ?_⟩
  simp only [Bool.true_and, Bool.not_true, Bool.false_and, Bool.false_eq_true, if_false,
    if_true] at isEdited
  split_ifs at isEdited with present
  · cases isEdited
  · constructor
    · intro url configured same
      exact present (List.any_eq_true.mpr ⟨url, configured, decide_eq_true same⟩)
    · refine decodesAs_changeUrls (· ++ [trimmedText input]) ?_ decoded isEdited
      intro texts
      rw [List.map_append]
      rfl

/-- Every source with the normalized URL is removed. -/
theorem editSource_remove (decoded : RawConfig.decode (.table document) = some raw)
    (isEdited : library.editSource existing input false document = .ok edited) :
    ∃ identity, library.normalizedUrl input = .ok identity ∧
      ((∀ url ∈ existing, library.sourceOf url ≠ some identity) ∧ edited = document ∨
        (∃ url ∈ existing, library.sourceOf url = some identity) ∧
          DecodesAs edited raw (raw.basic.withUrls (raw.basic.urls.filter
            fun text => decide (library.sourceOf text ≠ some identity)))) := by
  unfold ConfigLibrary.editSource at isEdited
  obtain ⟨identity, isIdentity, isEdited⟩ := bind_eq_ok_iff.mp isEdited
  refine ⟨identity, isIdentity, ?_⟩
  simp only [Bool.false_and, Bool.not_false, Bool.true_and, Bool.false_eq_true, if_false,
    Bool.not_eq_true'] at isEdited
  split_ifs at isEdited with absent
  · left
    refine ⟨?_, (Except.ok.inj isEdited).symm⟩
    intro url configured same
    exact List.any_eq_false.mp absent url configured (decide_eq_true same)
  · right
    constructor
    · rw [← ne_eq, ne_eq, Bool.not_eq_false, List.any_eq_true] at absent
      obtain ⟨url, configured, same⟩ := absent
      exact ⟨url, configured, of_decide_eq_true same⟩
    · refine decodesAs_changeUrls
        (List.filter fun text => decide (library.sourceOf text ≠ some identity)) ?_ decoded isEdited
      intro texts
      rw [List.filter_map]
      rfl

/-- An exemption is added when its network is not configured. -/
theorem editAllow_add (decoded : RawConfig.decode (.table document) = some raw)
    (isEdited : editAllow networks input true document = .ok edited) :
    ∃ identity, parseIpCidrStrict input.toList = some identity ∧
      (identity ∈ networks ∧ edited = document ∨ identity ∉ networks ∧
        DecodesAs edited raw (raw.basic.withIps (raw.basic.ips ++ [identity.display]))) := by
  unfold editAllow at isEdited
  obtain ⟨identity, isIdentity, isEdited⟩ := bind_eq_ok_iff.mp isEdited
  refine ⟨identity, canonicalTarget_eq_ok_iff.mp isIdentity, ?_⟩
  simp only [if_true] at isEdited
  split_ifs at isEdited with present
  · exact Or.inl ⟨of_decide_eq_true present.symm, (Except.ok.inj isEdited).symm⟩
  · refine Or.inr ⟨fun configured => present (decide_eq_true configured).symm, ?_⟩
    refine decodesAs_changeIps (· ++ [identity.display]) ?_ decoded isEdited
    intro texts
    rw [List.map_append]
    rfl

/-- Every spelling of the network is removed. -/
theorem editAllow_remove (decoded : RawConfig.decode (.table document) = some raw)
    (isEdited : editAllow networks input false document = .ok edited) :
    ∃ identity, parseIpCidrStrict input.toList = some identity ∧
      (identity ∉ networks ∧ edited = document ∨ identity ∈ networks ∧
        DecodesAs edited raw (raw.basic.withIps (raw.basic.ips.filter
          fun text => decide (parseIpCidrStrict text.toList ≠ some identity)))) := by
  unfold editAllow at isEdited
  obtain ⟨identity, isIdentity, isEdited⟩ := bind_eq_ok_iff.mp isEdited
  refine ⟨identity, canonicalTarget_eq_ok_iff.mp isIdentity, ?_⟩
  simp only [Bool.false_eq_true, if_false] at isEdited
  split_ifs at isEdited with absent
  · exact Or.inl ⟨of_decide_eq_false absent.symm, (Except.ok.inj isEdited).symm⟩
  · refine Or.inr ⟨?_, ?_⟩
    · by_contra notConfigured
      exact absent (decide_eq_false notConfigured).symm
    · refine decodesAs_changeIps
        (List.filter fun text => decide (parseIpCidrStrict text.toList ≠ some identity)) ?_ decoded
        isEdited
      intro texts
      rw [List.filter_map]
      rfl

end Single

/-! ### The basic edit -/

section Basic

variable {library : ConfigLibrary} {document edited : Toml.Entries} {raw : RawConfig}
  {config : ValidatedConfig}

/-- The spellings of a new source list: one that denotes the source, or the requested one. -/
def ConfigLibrary.keptSources (library : ConfigLibrary) (texts identities requested : List String) :
    List String :=
  (identities.zip requested).map fun (identity, input) =>
    (texts.reverse.find? fun text => decide (library.sourceOf text = some identity)).getD
      (trimmedText input)

/-- The spellings of a new safelist: one that denotes the network, or its own. -/
def keptIps (texts : List String) (targets : List CanonicalCidr) : List String :=
  targets.map fun target =>
    (texts.reverse.find? fun text => decide (parseIpCidrStrict text.toList = some target)).getD
      target.display

/-- The kept spellings denote the requested sources. -/
theorem keptSources_denote {texts identities requested : List String}
    (isIdentities : requested.mapM library.normalizedUrl = .ok identities) :
    List.Forall₂ (fun text identity => library.sourceOf text = some identity)
      (library.keptSources texts identities requested) identities := by
  unfold ConfigLibrary.keptSources
  have paired := mapM_eq_ok_iff.mp isIdentities
  induction paired with
  | nil => exact .nil
  | cons isIdentity _ ih =>
    rename_i input identity _ _ _
    rw [List.zip_cons_cons, List.map_cons]
    refine .cons ?_ (ih (mapM_eq_ok_iff.mpr ‹_›))
    cases found : texts.reverse.find? fun text => decide (library.sourceOf text = some identity) with
    | none =>
      simp only [found, Option.getD_none, sourceOf_trimmedText]
      rw [ConfigLibrary.sourceOf, isIdentity]
      rfl
    | some text =>
      simp only [found, Option.getD_some]
      have denotes := List.find?_some found
      exact of_decide_eq_true denotes

/-- The kept spellings denote the requested networks. -/
theorem keptIps_denote (texts : List String) (targets : List CanonicalCidr) :
    List.Forall₂ (fun text target => parseIpCidrStrict text.toList = some target)
      (keptIps texts targets) targets := by
  rw [keptIps, List.forall₂_map_left_iff, List.forall₂_same]
  intro target _
  cases found : texts.reverse.find? fun text =>
      decide (parseIpCidrStrict text.toList = some target) with
  | none => exact parseIpCidrStrict_display target
  | some text =>
    have denotes := List.find?_some found
    exact of_decide_eq_true denotes

/-- A preserved item is a preserved text. -/
theorem preservedItem_map {κ : Type} [DecidableEq κ] (denotes : Toml → Option κ)
    (texts : List String) (wanted : κ) (fallback : String) :
    (preservedItem denotes (texts.map Toml.string) wanted).getD (.string fallback) =
      .string ((texts.reverse.find? fun text => decide (denotes (.string text) = some wanted)).getD
        fallback) := by
  rw [preservedItem, ← List.map_reverse, List.find?_map, Option.getD_map]
  rfl

theorem replaceSources_ok {existing requested : List String}
    (decoded : RawConfig.decode (.table document) = some raw)
    (isEdited : library.replaceSources existing requested document = .ok edited) :
    ∃ old new, existing.mapM library.normalizedUrl = .ok old ∧
      requested.mapM library.normalizedUrl = .ok new ∧
      (old = new ∧ edited = document ∨ old ≠ new ∧ DecodesAs edited raw
        (raw.basic.withUrls (library.keptSources raw.basic.urls new requested))) := by
  unfold ConfigLibrary.replaceSources at isEdited
  obtain ⟨old, isOld, isEdited⟩ := bind_eq_ok_iff.mp isEdited
  obtain ⟨new, isNew, isEdited⟩ := bind_eq_ok_iff.mp isEdited
  refine ⟨old, new, isOld, isNew, ?_⟩
  split_ifs at isEdited with same distinct
  · exact Or.inl ⟨same, (Except.ok.inj isEdited).symm⟩
  · refine Or.inr ⟨same, decodesAs_changeUrls
      (fun texts => library.keptSources texts new requested) ?_ decoded isEdited⟩
    intro texts
    rw [ConfigLibrary.keptSources, List.map_map]
    apply List.map_congr_left
    intro pair _
    exact preservedItem_map library.itemSource texts pair.1 _
  · cases isEdited

theorem replaceAllow_ok {existing : List CanonicalCidr} {requested : List String}
    (decoded : RawConfig.decode (.table document) = some raw)
    (isEdited : replaceAllow existing requested document = .ok edited) :
    ∃ targets, requested.mapM canonicalTarget = .ok targets ∧
      (networkSet existing = networkSet targets ∧ edited = document ∨
        networkSet existing ≠ networkSet targets ∧ DecodesAs edited raw
          (raw.basic.withIps (keptIps raw.basic.ips (networkSet targets)))) := by
  unfold replaceAllow at isEdited
  obtain ⟨targets, isTargets, isEdited⟩ := bind_eq_ok_iff.mp isEdited
  refine ⟨targets, isTargets, ?_⟩
  dsimp only at isEdited
  split_ifs at isEdited with same
  · exact Or.inl ⟨same, (Except.ok.inj isEdited).symm⟩
  · refine Or.inr ⟨same, decodesAs_changeIps (fun texts => keptIps texts (networkSet targets)) ?_
      decoded isEdited⟩
    intro texts
    rw [keptIps, List.map_map]
    apply List.map_congr_left
    intro target _
    exact preservedItem_map itemNetwork texts target _

/-- An edit of an edited document. -/
theorem DecodesAs.step {basic otherBasic : BasicFields} {other : Toml.Entries}
    (decodesAs : DecodesAs document raw basic)
    (next : ∀ middle, RawConfig.decode (.table document) = some middle → middle.rest = raw.rest →
      middle.basic = basic → DecodesAs other middle otherBasic) :
    DecodesAs other raw otherBasic := by
  obtain ⟨middle, decoded, sameRest, isBasic⟩ := decodesAs
  obtain ⟨last, lastDecoded, lastRest, lastBasic⟩ := next middle decoded sameRest isBasic
  exact ⟨last, lastDecoded, lastRest.trans sameRest, lastBasic⟩

/-- A basic edit reads the requested truth values and keeps a list or rebuilds it. It keeps the
document when there is nothing to change. -/
theorem setBasic_ok {enableIpv6 includeGithubMeta : Bool} {remoteUrls safeIps : List String}
    (decoded : RawConfig.decode (.table document) = some raw)
    (valid : library.fromRaw raw = .ok config)
    (isEdited : library.editDocument config.toSavedConfig
      (.setBasic enableIpv6 includeGithubMeta remoteUrls safeIps) document = .ok edited) :
    ∃ old new targets texts spellings, config.remoteUrls.mapM library.normalizedUrl = .ok old ∧
      remoteUrls.mapM library.normalizedUrl = .ok new ∧
      safeIps.mapM canonicalTarget = .ok targets ∧
      DecodesAs edited raw ⟨enableIpv6, includeGithubMeta, texts, spellings⟩ ∧
      (old = new ∧ texts = raw.basic.urls ∨
        texts = library.keptSources raw.basic.urls new remoteUrls) ∧
      (networkSet config.safeIps = networkSet targets ∧ spellings = raw.basic.ips ∨
        spellings = keptIps raw.basic.ips (networkSet targets)) ∧
      (config.ipset.enableIpv6 = enableIpv6 → config.includeGithubMeta = includeGithubMeta →
        old = new → networkSet config.safeIps = networkSet targets → edited = document) := by
  obtain ⟨enabled, included, _, _⟩ := basic_of_fromRaw valid
  obtain ⟨rawIpset, _, _, _, _, isIpset, _⟩ := fromRaw_eq_ok_iff.mp valid
  unfold ConfigLibrary.editDocument at isEdited
  obtain ⟨withIpv6, isWithIpv6, isEdited⟩ := bind_eq_ok_iff.mp isEdited
  obtain ⟨withMeta, isWithMeta, isEdited⟩ := bind_eq_ok_iff.mp isEdited
  obtain ⟨withSources, isWithSources, isEdited⟩ := bind_eq_ok_iff.mp isEdited
  -- a section is only written where its value differs
  have ipv6Step : DecodesAs withIpv6 raw { raw.basic with enableIpv6 := enableIpv6 } ∧
      (config.ipset.enableIpv6 = enableIpv6 → withIpv6 = document) := by
    split_ifs at isWithIpv6 with differs
    · exact ⟨decodesAs_setEnableIpv6 decoded isIpset isWithIpv6, fun same => absurd same differs⟩
    · obtain rfl := Except.ok.inj isWithIpv6
      rw [← not_ne_iff.mp differs, enabled]
      exact ⟨.refl decoded, fun _ => rfl⟩
  have metaStep : DecodesAs withMeta raw
        ⟨enableIpv6, includeGithubMeta, raw.basic.urls, raw.basic.ips⟩ ∧
      (config.includeGithubMeta = includeGithubMeta → withMeta = withIpv6) := by
    split_ifs at isWithMeta with differs
    · refine ⟨ipv6Step.1.step ?_, fun same => absurd same differs⟩
      intro middle isMiddle _ isBasic
      have set := decodesAs_setIncludeGithubMeta isMiddle isWithMeta
      rwa [isBasic] at set
    · obtain rfl := Except.ok.inj isWithMeta
      rw [← not_ne_iff.mp differs, included]
      exact ⟨ipv6Step.1, fun _ => rfl⟩
  obtain ⟨metaRaw, isMeta, metaRest, metaBasic⟩ := metaStep.1
  obtain ⟨old, new, isOld, isNew, sources⟩ := replaceSources_ok isMeta isWithSources
  rw [metaBasic] at sources
  have sourcesStep : ∃ texts, DecodesAs withSources raw
        ⟨enableIpv6, includeGithubMeta, texts, raw.basic.ips⟩ ∧
      (old = new ∧ texts = raw.basic.urls ∨
        texts = library.keptSources raw.basic.urls new remoteUrls) ∧
      (old = new → withSources = withMeta) := by
    rcases sources with ⟨same, rfl⟩ | ⟨differs, replaced⟩
    · exact ⟨_, metaStep.1, Or.inl ⟨same, rfl⟩, fun _ => rfl⟩
    · refine ⟨_, ?_, Or.inr rfl, fun same => absurd same differs⟩
      obtain ⟨last, isLast, lastRest, lastBasic⟩ := replaced
      exact ⟨last, isLast, lastRest.trans metaRest, lastBasic⟩
  obtain ⟨texts, sourcesRead, isTexts, sourcesKept⟩ := sourcesStep
  obtain ⟨sourcesRaw, isSources, sourcesRest, sourcesBasic⟩ := sourcesRead
  obtain ⟨targets, isTargets, exemptions⟩ := replaceAllow_ok isSources isEdited
  rw [sourcesBasic] at exemptions
  have unchanged (sameIpv6 : config.ipset.enableIpv6 = enableIpv6)
      (sameMeta : config.includeGithubMeta = includeGithubMeta) (sameSources : old = new) :
      withSources = document := by
    rw [sourcesKept sameSources, metaStep.2 sameMeta, ipv6Step.2 sameIpv6]
  -- an unchanged document needs all four values unchanged
  rcases exemptions with ⟨same, rfl⟩ | ⟨differs, replaced⟩
  · exact ⟨old, new, targets, texts, raw.basic.ips, isOld, isNew, isTargets,
      ⟨sourcesRaw, isSources, sourcesRest, sourcesBasic⟩, isTexts, Or.inl ⟨same, rfl⟩,
      fun sameIpv6 sameMeta sameSources _ => unchanged sameIpv6 sameMeta sameSources⟩
  · obtain ⟨last, isLast, lastRest, lastBasic⟩ := replaced
    exact ⟨old, new, targets, texts, _, isOld, isNew, isTargets,
      ⟨last, isLast, lastRest.trans sourcesRest, lastBasic⟩, isTexts, Or.inr rfl,
      fun _ _ _ same => absurd same differs⟩

end Basic

/-! ### The law of the editor -/

/-- The configuration that an edit asks for. -/
def EditedAs (library : ConfigLibrary) (config edited : ValidatedConfig) : ConfigurationEdit → Prop
  | .addSource url =>
      (∀ other ∈ config.remoteUrls, library.sourceOf other ≠ library.sourceOf url) ∧
        edited = { config with remoteUrls := config.remoteUrls ++ [trimmedText url] }
  | .removeSource url => ∃ identity, library.normalizedUrl url = .ok identity ∧
      edited = { config with remoteUrls :=
        (config.remoteUrls.filter (fun other => decide (library.sourceOf other ≠ some identity))) }
  | .addAllow target => ∃ network, parseIpCidrStrict target.toList = some network ∧
      edited = { config with safeIps :=
        if network ∈ config.safeIps then config.safeIps else config.safeIps ++ [network] }
  | .removeAllow target => ∃ network, parseIpCidrStrict target.toList = some network ∧
      edited = { config with safeIps :=
        (config.safeIps.filter (fun other => decide (other ≠ network))) }
  | .setBasic enableIpv6 includeGithubMeta remoteUrls safeIps =>
      edited = config.withBasic enableIpv6 includeGithubMeta edited.remoteUrls edited.safeIps ∧
        (∃ identities, remoteUrls.mapM library.normalizedUrl = .ok identities ∧
          edited.remoteUrls.mapM library.normalizedUrl = .ok identities) ∧
        ∃ networks, safeIps.mapM canonicalTarget = .ok networks ∧
          ∀ network, network ∈ edited.safeIps ↔ network ∈ networks

/-- Configurations that agree on what edits target: the truth values, the normalized sources in
order, and the set of exempt networks. -/
structure SameMeaning (library : ConfigLibrary) (config other : ValidatedConfig) : Prop where
  enableIpv6 : config.ipset.enableIpv6 = other.ipset.enableIpv6
  includeGithubMeta : config.includeGithubMeta = other.includeGithubMeta
  sources : config.remoteUrls.map library.sourceOf = other.remoteUrls.map library.sourceOf
  exemptions : ∀ network, network ∈ config.safeIps ↔ network ∈ other.safeIps

/-- The library is faithful on a text and on the document that an edit makes of it. -/
structure ConfigLibrary.FaithfulFor (library : ConfigLibrary) (original : List Char)
    (edit : ConfigurationEdit) : Prop where
  keepsFormat : library.toml.KeepsFormat original
  readsBack : ∀ config document edited, library.fromTomlStr original = .ok config →
    library.toml.parse original = .ok document →
    library.editDocument config.toSavedConfig edit document = .ok edited →
    library.toml.ReadsBack original edited

section Law

variable {library : ConfigLibrary} {original candidate : List Char} {config edited : ValidatedConfig}
  {edit : ConfigurationEdit}

/-- What it takes for a candidate to be rendered. -/
theorem render_eq_ok (accepted : library.fromTomlStr original = .ok config)
    (rendered : library.editor.render library.format original edit = .ok candidate) :
    ∃ document raw editedDocument edited, library.toml.parse original = .ok document ∧
      RawConfig.decode (.table document) = some raw ∧ library.fromRaw raw = .ok config ∧
      library.editDocument config.toSavedConfig edit document = .ok editedDocument ∧
      candidate = library.toml.print original editedDocument ∧
      library.fromTomlStr candidate = .ok edited := by
  obtain ⟨document, raw, parsed, decoded, valid⟩ := fromTomlStr_eq_ok_iff.mp accepted
  unfold ConfigurationEditor.render at rendered
  obtain ⟨saved, isSaved, rendered⟩ := bind_eq_ok_iff.mp rendered
  obtain ⟨text, isText, rendered⟩ := bind_eq_ok_iff.mp rendered
  obtain ⟨_, _, rendered⟩ := bind_eq_ok_iff.mp rendered
  obtain ⟨_, isAccepted, returned⟩ := bind_eq_ok_iff.mp rendered
  obtain rfl := Except.ok.inj returned
  simp only [ConfigFormat.parse, ConfigLibrary.format, accepted, Except.map,
    Except.ok.injEq] at isSaved
  subst isSaved
  simp only [ConfigLibrary.editor, parsed] at isText
  obtain ⟨editedDocument, isEdited, printed⟩ := bind_eq_ok_iff.mp isText
  cases again : library.fromTomlStr text with
  | error _ => simp [ConfigFormat.parse, ConfigLibrary.format, again, Except.map] at isAccepted
  | ok edited =>
    exact ⟨document, raw, editedDocument, edited, parsed, decoded, valid, isEdited,
      (Except.ok.inj printed).symm, rfl⟩

/-- A document that was not edited gives the same text and the same configuration. -/
theorem eq_of_unedited {document : Toml.Entries} (faithful : library.toml.KeepsFormat original)
    (accepted : library.fromTomlStr original = .ok config)
    (parsed : library.toml.parse original = .ok document)
    (printed : candidate = library.toml.print original document)
    (editedAccepted : library.fromTomlStr candidate = .ok edited) :
    candidate = original ∧ edited = config := by
  have sameText : candidate = original := printed.trans (faithful document parsed)
  rw [sameText] at editedAccepted
  exact ⟨sameText, Except.ok.inj (editedAccepted.symm.trans accepted)⟩

theorem mapM_toOption {texts : List String} {identities : List String}
    (isIdentities : texts.mapM library.normalizedUrl = .ok identities) :
    texts.map library.sourceOf = identities.map some := by
  have paired := mapM_eq_ok_iff.mp isIdentities
  induction paired with
  | nil => rfl
  | cons isIdentity _ ih =>
    rw [List.map_cons, List.map_cons, ih (mapM_eq_ok_iff.mpr ‹_›), ConfigLibrary.sourceOf,
      isIdentity]
    rfl

/-- What an edit does to the configuration, and that it keeps the text when it has no effect. -/
def LawfulEdit (library : ConfigLibrary) (original candidate : List Char)
    (config edited : ValidatedConfig) (edit : ConfigurationEdit) : Prop :=
  EditedAs library config edited edit ∧ (SameMeaning library edited config → candidate = original)

theorem lawful_addSource {url : String} (faithful : library.FaithfulFor original (.addSource url))
    (accepted : library.fromTomlStr original = .ok config)
    (rendered : library.editor.render library.format original (.addSource url) = .ok candidate) :
    ∃ edited, library.fromTomlStr candidate = .ok edited ∧
      LawfulEdit library original candidate config edited (.addSource url) := by
  obtain ⟨document, raw, editedDocument, edited, parsed, decoded, valid, isEdited, rfl,
    editedAccepted⟩ := render_eq_ok accepted rendered
  have readsBack := faithful.readsBack _ _ _ accepted parsed isEdited
  obtain ⟨identity, isIdentity, absent, decodesAs⟩ := editSource_add decoded isEdited
  have isConfig := config_of_urls valid decodesAs readsBack editedAccepted
  obtain ⟨_, _, urls, _⟩ := basic_of_fromRaw valid
  rw [List.map_append, ← urls_eq_map urls] at isConfig
  have isSource : library.sourceOf url = some identity := congrArg Except.toOption isIdentity
  refine ⟨edited, editedAccepted, ⟨?_, by rw [isConfig]; simp [trimmedText]⟩, ?_⟩
  · rw [isSource]
    exact absent
  · intro same
    have sameLength := congrArg List.length same.sources
    rw [isConfig] at sameLength
    simp at sameLength

theorem lawful_removeSource {url : String}
    (faithful : library.FaithfulFor original (.removeSource url))
    (accepted : library.fromTomlStr original = .ok config)
    (rendered : library.editor.render library.format original (.removeSource url) =
      .ok candidate) :
    ∃ edited, library.fromTomlStr candidate = .ok edited ∧
      LawfulEdit library original candidate config edited (.removeSource url) := by
  obtain ⟨document, raw, editedDocument, edited, parsed, decoded, valid, isEdited, printed,
    editedAccepted⟩ := render_eq_ok accepted rendered
  have readsBack := faithful.readsBack _ _ _ accepted parsed isEdited
  obtain ⟨identity, isIdentity, removed⟩ := editSource_remove decoded isEdited
  rcases removed with ⟨absent, rfl⟩ | ⟨⟨present, configured, denotes⟩, decodesAs⟩
  · obtain ⟨sameText, rfl⟩ :=
      eq_of_unedited faithful.keepsFormat accepted parsed printed editedAccepted
    refine ⟨edited, editedAccepted, ⟨identity, isIdentity, ?_⟩, fun _ => sameText⟩
    have kept : (edited.remoteUrls.filter
        fun other => decide (library.sourceOf other ≠ some identity)) = edited.remoteUrls :=
      List.filter_eq_self.mpr fun other member => decide_eq_true (absent other member)
    rw [kept]
  · subst printed
    obtain ⟨_, _, urls, _⟩ := basic_of_fromRaw valid
    have isConfig := config_of_urls valid decodesAs readsBack editedAccepted
    have isFiltered : (raw.basic.urls.filter
          fun text => decide (library.sourceOf text ≠ some identity)).map trimmedText =
        config.remoteUrls.filter fun other => decide (library.sourceOf other ≠ some identity) := by
      rw [urls_eq_map urls, List.filter_map]
      simp only [Function.comp_def, sourceOf_trimmedText]
    rw [isFiltered] at isConfig
    refine ⟨edited, editedAccepted, ⟨identity, isIdentity, isConfig⟩, ?_⟩
    intro same
    have sameLength := congrArg List.length same.sources
    rw [isConfig, List.length_map, List.length_map] at sameLength
    have allKept := (List.length_filter_eq_length_iff.mp sameLength) present configured
    exact absurd denotes (of_decide_eq_true allKept)

theorem lawful_addAllow {target : String} (faithful : library.FaithfulFor original (.addAllow target))
    (accepted : library.fromTomlStr original = .ok config)
    (rendered : library.editor.render library.format original (.addAllow target) = .ok candidate) :
    ∃ edited, library.fromTomlStr candidate = .ok edited ∧
      LawfulEdit library original candidate config edited (.addAllow target) := by
  obtain ⟨document, raw, editedDocument, edited, parsed, decoded, valid, isEdited, printed,
    editedAccepted⟩ := render_eq_ok accepted rendered
  have readsBack := faithful.readsBack _ _ _ accepted parsed isEdited
  obtain ⟨network, isNetwork, added⟩ := editAllow_add decoded isEdited
  rcases added with ⟨present, rfl⟩ | ⟨absent, decodesAs⟩
  · obtain ⟨sameText, rfl⟩ :=
      eq_of_unedited faithful.keepsFormat accepted parsed printed editedAccepted
    refine ⟨edited, editedAccepted, ⟨network, isNetwork, ?_⟩, fun _ => sameText⟩
    rw [if_pos present]
  · subst printed
    obtain ⟨_, _, _, ips⟩ := basic_of_fromRaw valid
    have networks : List.Forall₂ (fun text cidr => parseIpCidrStrict text.toList = some cidr)
        (raw.basic.ips ++ [network.display]) (config.safeIps ++ [network]) :=
      List.rel_append (ips_forall₂.mp ips) (.cons (parseIpCidrStrict_display network) .nil)
    have isConfig := config_of_ips valid decodesAs readsBack editedAccepted networks
    refine ⟨edited, editedAccepted, ⟨network, isNetwork, ?_⟩, ?_⟩
    · rw [if_neg absent]
      exact isConfig
    · intro same
      have isMember := (same.exemptions network).mp (by rw [isConfig]; simp)
      exact absurd isMember absent

theorem lawful_removeAllow {target : String}
    (faithful : library.FaithfulFor original (.removeAllow target))
    (accepted : library.fromTomlStr original = .ok config)
    (rendered : library.editor.render library.format original (.removeAllow target) =
      .ok candidate) :
    ∃ edited, library.fromTomlStr candidate = .ok edited ∧
      LawfulEdit library original candidate config edited (.removeAllow target) := by
  obtain ⟨document, raw, editedDocument, edited, parsed, decoded, valid, isEdited, printed,
    editedAccepted⟩ := render_eq_ok accepted rendered
  have readsBack := faithful.readsBack _ _ _ accepted parsed isEdited
  obtain ⟨network, isNetwork, removed⟩ := editAllow_remove decoded isEdited
  rcases removed with ⟨absent, rfl⟩ | ⟨present, decodesAs⟩
  · obtain ⟨sameText, rfl⟩ :=
      eq_of_unedited faithful.keepsFormat accepted parsed printed editedAccepted
    refine ⟨edited, editedAccepted, ⟨network, isNetwork, ?_⟩, fun _ => sameText⟩
    have kept : (edited.safeIps.filter fun other => decide (other ≠ network)) = edited.safeIps := by
      apply List.filter_eq_self.mpr
      intro other member
      exact decide_eq_true fun same => absent (same ▸ member)
    rw [kept]
  · subst printed
    obtain ⟨_, _, _, ips⟩ := basic_of_fromRaw valid
    have networks : List.Forall₂ (fun text cidr => parseIpCidrStrict text.toList = some cidr)
        (raw.basic.ips.filter fun text => decide (parseIpCidrStrict text.toList ≠ some network))
        (config.safeIps.filter fun other => decide (other ≠ network)) := by
      apply List.rel_filter _ (ips_forall₂.mp ips)
      intro text other denotes
      simp [denotes]
    have isConfig := config_of_ips valid decodesAs readsBack editedAccepted networks
    refine ⟨edited, editedAccepted, ⟨network, isNetwork, isConfig⟩, ?_⟩
    intro same
    have isMember := (same.exemptions network).mpr present
    rw [isConfig] at isMember
    simp at isMember

/-- Networks are requested as a set. -/
theorem networkSet_eq_iff {networks others : List CanonicalCidr} :
    networkSet networks = networkSet others ↔ ∀ network, network ∈ networks ↔ network ∈ others := by
  constructor
  · intro same network
    have sameMembers : network ∈ networkSet networks ↔ network ∈ networkSet others := by rw [same]
    simpa only [networkSet, mem_dedupAdjacent, mem_sortUnstable] using sameMembers
  · exact dedupAdjacent_sortUnstable_congr

/-- Sources that each denote a requested one. -/
theorem mapM_normalizedUrl_map {texts identities : List String}
    (denote : List.Forall₂ (fun text identity => library.sourceOf text = some identity) texts
      identities) : (texts.map trimmedText).mapM library.normalizedUrl = .ok identities := by
  rw [mapM_eq_ok_iff, List.forall₂_map_left_iff]
  apply denote.imp
  intro text identity denotes
  rw [trimmedText, normalizedUrl_trim]
  unfold ConfigLibrary.sourceOf at denotes
  cases found : library.normalizedUrl text with
  | error _ => simp [found, Except.toOption] at denotes
  | ok other =>
    rw [found] at denotes
    rw [Option.some.inj denotes]

theorem lawful_setBasic {enableIpv6 includeGithubMeta : Bool} {remoteUrls safeIps : List String}
    (faithful : library.FaithfulFor original
      (.setBasic enableIpv6 includeGithubMeta remoteUrls safeIps))
    (accepted : library.fromTomlStr original = .ok config)
    (rendered : library.editor.render library.format original
      (.setBasic enableIpv6 includeGithubMeta remoteUrls safeIps) = .ok candidate) :
    ∃ edited, library.fromTomlStr candidate = .ok edited ∧
      LawfulEdit library original candidate config edited
        (.setBasic enableIpv6 includeGithubMeta remoteUrls safeIps) := by
  obtain ⟨document, raw, editedDocument, edited, parsed, decoded, valid, isEdited, printed,
    editedAccepted⟩ := render_eq_ok accepted rendered
  have readsBack := faithful.readsBack _ _ _ accepted parsed isEdited
  obtain ⟨_, _, urls, ips⟩ := basic_of_fromRaw valid
  obtain ⟨old, new, targets, texts, spellings, isOld, isNew, isTargets, decodesAs, isTexts,
    isSpellings, unchanged⟩ := setBasic_ok decoded valid isEdited
  obtain ⟨differs, editedUrls, editedIps⟩ :=
    config_of_decodesAs valid decodesAs readsBack (printed ▸ editedAccepted)
  dsimp only at differs editedUrls editedIps
  have sources : edited.remoteUrls.mapM library.normalizedUrl = .ok new := by
    rcases isTexts with ⟨rfl, rfl⟩ | rfl
    · rw [← Except.ok.inj (urls.symm.trans editedUrls)]
      exact isOld
    · rw [urls_eq_map editedUrls]
      exact mapM_normalizedUrl_map (keptSources_denote isNew)
  have exemptions : ∀ network, network ∈ edited.safeIps ↔ network ∈ targets := by
    apply networkSet_eq_iff.mp
    rcases isSpellings with ⟨same, rfl⟩ | rfl
    · rw [← Except.ok.inj (ips.symm.trans editedIps)]
      exact same
    · have kept := ips_forall₂.mpr (keptIps_denote raw.basic.ips (networkSet targets))
      rw [Except.ok.inj (editedIps.symm.trans kept), networkSet_eq_iff]
      intro network
      rw [networkSet, mem_dedupAdjacent, mem_sortUnstable]
  refine ⟨edited, editedAccepted,
    ⟨differs, ⟨new, isNew, sources⟩, targets, isTargets, exemptions⟩, ?_⟩
  intro same
  have sameIpv6 : edited.ipset.enableIpv6 = enableIpv6 := by rw [differs]; rfl
  have sameMeta : edited.includeGithubMeta = includeGithubMeta := by rw [differs]; rfl
  have sameSources : old = new := by
    have sameIdentities := same.sources
    rw [mapM_toOption sources, mapM_toOption isOld] at sameIdentities
    exact ((Option.some_injective _).list_map sameIdentities).symm
  have sameTargets : networkSet config.safeIps = networkSet targets := by
    rw [networkSet_eq_iff]
    intro network
    rw [← same.exemptions, exemptions]
  -- an edit that asks for what is there leaves the document and so the text
  have sameDocument := unchanged (same.enableIpv6 ▸ sameIpv6) (same.includeGithubMeta ▸ sameMeta)
    sameSources sameTargets
  rw [sameDocument] at printed
  exact (eq_of_unedited faithful.keepsFormat accepted parsed printed editedAccepted).1

/-- Every edit that is rendered follows the law. -/
theorem lawful_render (faithful : library.FaithfulFor original edit)
    (accepted : library.fromTomlStr original = .ok config)
    (rendered : library.editor.render library.format original edit = .ok candidate) :
    ∃ edited, library.fromTomlStr candidate = .ok edited ∧
      LawfulEdit library original candidate config edited edit := by
  cases edit with
  | addSource => exact lawful_addSource faithful accepted rendered
  | removeSource => exact lawful_removeSource faithful accepted rendered
  | addAllow => exact lawful_addAllow faithful accepted rendered
  | removeAllow => exact lawful_removeAllow faithful accepted rendered
  | setBasic => exact lawful_setBasic faithful accepted rendered

/-- Removing the source that was added gives the configuration back. -/
theorem eq_of_removeSource_addSource {url : String} {added restored : ValidatedConfig}
    (isAdded : EditedAs library config added (.addSource url))
    (isRestored : EditedAs library added restored (.removeSource url)) : restored = config := by
  obtain ⟨absent, rfl⟩ := isAdded
  obtain ⟨identity, isIdentity, rfl⟩ := isRestored
  have isSource : library.sourceOf url = some identity := congrArg Except.toOption isIdentity
  have kept : (config.remoteUrls ++ [trimmedText url]).filter
      (fun other => decide (library.sourceOf other ≠ some identity)) = config.remoteUrls := by
    rw [List.filter_append, List.filter_eq_self.mpr]
    · simp [isSource]
    · intro other configured
      rw [← isSource]
      exact decide_eq_true (absent other configured)
  rw [kept]

/-- Removing the exemption that was added gives the configuration back. -/
theorem eq_of_removeAllow_addAllow {target : String} {added restored : ValidatedConfig}
    (absent : ∀ network, parseIpCidrStrict target.toList = some network →
      network ∉ config.safeIps)
    (isAdded : EditedAs library config added (.addAllow target))
    (isRestored : EditedAs library added restored (.removeAllow target)) : restored = config := by
  obtain ⟨network, isNetwork, rfl⟩ := isAdded
  obtain ⟨other, isOther, rfl⟩ := isRestored
  obtain rfl := Option.some.inj (isNetwork.symm.trans isOther)
  have kept : (config.safeIps ++ [network]).filter (fun other => decide (other ≠ network)) =
      config.safeIps := by
    rw [List.filter_append, List.filter_eq_self.mpr]
    · simp
    · intro other configured
      exact decide_eq_true fun same => absent network isNetwork (same ▸ configured)
  rw [if_neg (absent network isNetwork), kept]

/-- For every accepted text: a rendered edit is accepted again, changes what it targets and
nothing else, and keeps the text when it has no effect; removing what was added gives the
configuration back. -/
theorem render_semantic (library : ConfigLibrary) (original : List Char) (config : ValidatedConfig)
    (accepted : library.fromTomlStr original = .ok config) :
    (∀ edit candidate, library.FaithfulFor original edit →
      library.editor.render library.format original edit = .ok candidate →
        ∃ edited, library.fromTomlStr candidate = .ok edited ∧
          LawfulEdit library original candidate config edited edit) ∧
      (∀ url candidate restored, library.FaithfulFor original (.addSource url) →
        library.editor.render library.format original (.addSource url) = .ok candidate →
        library.FaithfulFor candidate (.removeSource url) →
        library.editor.render library.format candidate (.removeSource url) = .ok restored →
          library.fromTomlStr restored = .ok config) ∧
      ∀ target candidate restored,
        (∀ network, parseIpCidrStrict target.toList = some network → network ∉ config.safeIps) →
        library.FaithfulFor original (.addAllow target) →
        library.editor.render library.format original (.addAllow target) = .ok candidate →
        library.FaithfulFor candidate (.removeAllow target) →
        library.editor.render library.format candidate (.removeAllow target) = .ok restored →
          library.fromTomlStr restored = .ok config := by
  refine ⟨fun edit candidate faithful rendered => lawful_render faithful accepted rendered, ?_, ?_⟩
  · intro url candidate restored faithful rendered faithfulAgain renderedAgain
    obtain ⟨added, addedAccepted, isAdded, _⟩ := lawful_render faithful accepted rendered
    obtain ⟨last, lastAccepted, isRestored, _⟩ :=
      lawful_render faithfulAgain addedAccepted renderedAgain
    rw [lastAccepted, eq_of_removeSource_addSource isAdded isRestored]
  · intro target candidate restored absent faithful rendered faithfulAgain renderedAgain
    obtain ⟨added, addedAccepted, isAdded, _⟩ := lawful_render faithful accepted rendered
    obtain ⟨last, lastAccepted, isRestored, _⟩ :=
      lawful_render faithfulAgain addedAccepted renderedAgain
    rw [lastAccepted, eq_of_removeAllow_addAllow absent isAdded isRestored]

end Law

/-! ### An addition and its removal -/

/-- The text of the minimal configuration with a source list. -/
def withSourcesText (urls : List String) : List Char :=
  minimalText ++ ("\n[remote]\nurls = [" ++
    ", ".intercalate (urls.map fun url => "\"" ++ url ++ "\"") ++ "]\n").toList

/-- The document of the minimal configuration with a source list. -/
def withSourcesDocument (urls : List String) : Toml.Entries :=
  minimalDocument ++ [("remote", .table [("urls", .array (urls.map Toml.string))])]

/-- The text that the library prints for a source list. -/
def printSources (original : List Char) (edited : Toml.Entries) : List Char :=
  match edited.lookup "remote" with
  | some (.table entries) =>
    match (Toml.arrayAt "urls" entries).bind fun items => items.mapM Toml.asString with
    | some urls => withSourcesText urls
    | none => original
  | _ => original

/-- A library that knows the minimal configuration, also with a list of at most one source. -/
def sourceLibrary : ConfigLibrary where
  toml :=
    { parse := fun contents =>
        if contents = minimalText then .ok minimalDocument
        else if contents = withSourcesText ["https://example.test/list"] then
          .ok (withSourcesDocument ["https://example.test/list"])
        else if contents = withSourcesText [] then .ok (withSourcesDocument [])
        else .error "unknown document"
      print := printSources
      mismatch := fun _ => "unexpected document" }
  parseUrl text :=
    if text = "https://example.test/list".toList then
      some ⟨"https", true, "https://example.test/list"⟩
    else if text = "https://api.github.com/meta".toList then
      some ⟨"https", true, "https://api.github.com/meta"⟩
    else none

theorem faithful_addSource :
    sourceLibrary.FaithfulFor minimalText (.addSource "https://example.test/list") where
  keepsFormat := by
    intro document parsed
    obtain rfl : minimalDocument = document := Except.ok.inj parsed
    rfl
  readsBack := by
    intro config document edited accepted parsed isEdited
    obtain rfl : minimalDocument = document := Except.ok.inj parsed
    have isConfig : (sourceLibrary.fromTomlStr minimalText).map
        (fun config => config.toSavedConfig.remoteUrls) = .ok [] := by decide +kernel
    rw [accepted] at isConfig
    have noSources : config.toSavedConfig.remoteUrls = [] := Except.ok.inj isConfig
    rw [ConfigLibrary.editDocument, noSources] at isEdited
    obtain rfl : withSourcesDocument ["https://example.test/list"] = edited :=
      Except.ok.inj isEdited
    exact ⟨withSourcesDocument ["https://example.test/list"], rfl, Toml.same_refl _⟩

theorem faithful_removeSource :
    sourceLibrary.FaithfulFor (withSourcesText ["https://example.test/list"])
      (.removeSource "https://example.test/list") where
  keepsFormat := by
    intro document parsed
    obtain rfl : withSourcesDocument ["https://example.test/list"] = document :=
      Except.ok.inj parsed
    rfl
  readsBack := by
    intro config document edited accepted parsed isEdited
    obtain rfl : withSourcesDocument ["https://example.test/list"] = document :=
      Except.ok.inj parsed
    have isConfig : (sourceLibrary.fromTomlStr (withSourcesText ["https://example.test/list"])).map
        (fun config => config.toSavedConfig.remoteUrls) = .ok ["https://example.test/list"] := by
      decide +kernel
    rw [accepted] at isConfig
    have sources : config.toSavedConfig.remoteUrls = ["https://example.test/list"] :=
      Except.ok.inj isConfig
    rw [ConfigLibrary.editDocument, sources] at isEdited
    obtain rfl : withSourcesDocument [] = edited := Except.ok.inj isEdited
    exact ⟨withSourcesDocument [], rfl, Toml.same_refl _⟩

/-- A source is added to the minimal configuration and removed again. -/
theorem render_semantic_sources :
    ∃ config edited, sourceLibrary.fromTomlStr minimalText = .ok config ∧
      LawfulEdit sourceLibrary minimalText (withSourcesText ["https://example.test/list"]) config
        edited (.addSource "https://example.test/list") ∧
      sourceLibrary.fromTomlStr (withSourcesText []) = .ok config := by
  have isAccepted : (sourceLibrary.fromTomlStr minimalText).toOption.isSome = true := by
    decide +kernel
  have added : sourceLibrary.editor.render sourceLibrary.format minimalText
      (.addSource "https://example.test/list") =
        .ok (withSourcesText ["https://example.test/list"]) := by decide +kernel
  have removed : sourceLibrary.editor.render sourceLibrary.format
      (withSourcesText ["https://example.test/list"]) (.removeSource "https://example.test/list") =
        .ok (withSourcesText []) := by decide +kernel
  cases accepted : sourceLibrary.fromTomlStr minimalText with
  | error _ => simp [accepted, Except.toOption] at isAccepted
  | ok config =>
    obtain ⟨lawful, sourceRestored, _⟩ := render_semantic sourceLibrary minimalText config accepted
    obtain ⟨edited, _, isEdited⟩ := lawful _ _ faithful_addSource added
    exact ⟨config, edited, rfl, isEdited,
      sourceRestored _ _ _ faithful_addSource added faithful_removeSource removed⟩

end Kidobo
