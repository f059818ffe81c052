import Kidobo.Configuration.Editing

/-!
# What an edited document says

A field that was set is decoded as it was set, and every other field of the
document is decoded as before.

## Main results

* `RawConfig.decode_eq_some_iff`: what a decoded document says of its sections
* `decode_of_tableAt`: a section is decoded from the table at its name
* `decode_setIpset`, `decode_setSafe`, `decode_setRemote`, `decode_setAsn`: what a document says
  once a section is set
-/

namespace Kidobo

open Foundation

/-! ### Decoded sections -/

theorem RawIpsetConfig.decode_eq_some_iff {record : Toml} {raw : RawIpsetConfig} :
    RawIpsetConfig.decode record = some raw ↔
      record.isRecord ["set_name", "set_name_v6", "enable_ipv6", "chain_action", "set_type",
          "hashsize", "maxelem", "timeout"] = true ∧
        Toml.readField Toml.asString (record.member "set_name" 0) = some raw.setName ∧
        Toml.readField Toml.asString (record.member "set_name_v6" 1) = some raw.setNameV6 ∧
        Toml.readField Toml.asBoolean (record.member "enable_ipv6" 2) = some raw.enableIpv6 ∧
        Toml.readField Toml.asString (record.member "chain_action" 3) = some raw.chainAction ∧
        Toml.readField Toml.asString (record.member "set_type" 4) = some raw.setType ∧
        Toml.readField Toml.asInteger (record.member "hashsize" 5) = some raw.hashsize ∧
        Toml.readField Toml.asInteger (record.member "maxelem" 6) = some raw.maxelem ∧
        Toml.readField Toml.asInteger (record.member "timeout" 7) = some raw.timeout := by
  simp only [RawIpsetConfig.decode, Option.bind_eq_bind, Option.bind_eq_some_iff, Option.pure_def,
    Option.some.injEq, Option.guard_eq_some', exists_const]
  constructor
  · rintro ⟨isRecord, _, setName, _, setNameV6, _, enableIpv6, _, chainAction, _, setType,
      _, hashsize, _, maxelem, _, timeout, rfl⟩
    exact ⟨isRecord, setName, setNameV6, enableIpv6, chainAction, setType, hashsize, maxelem,
      timeout⟩
  · rintro ⟨isRecord, setName, setNameV6, enableIpv6, chainAction, setType, hashsize, maxelem,
      timeout⟩
    exact ⟨isRecord, _, setName, _, setNameV6, _, enableIpv6, _, chainAction, _, setType,
      _, hashsize, _, maxelem, _, timeout, rfl⟩

theorem RawSafeConfig.decode_eq_some_iff {record : Toml} {raw : RawSafeConfig} :
    RawSafeConfig.decode record = some raw ↔
      record.isRecord
          ["ips", "include_github_meta", "github_meta_url", "github_meta_categories"] = true ∧
        Toml.readField (Toml.readList Toml.asString) (record.member "ips" 0) = some raw.ips ∧
        Toml.readField Toml.asBoolean (record.member "include_github_meta" 1) =
          some raw.includeGithubMeta ∧
        Toml.readField Toml.asString (record.member "github_meta_url" 2) =
          some raw.githubMetaUrl ∧
        Toml.readField (Toml.readList Toml.asString) (record.member "github_meta_categories" 3) =
          some raw.githubMetaCategories := by
  simp only [RawSafeConfig.decode, Option.bind_eq_bind, Option.bind_eq_some_iff, Option.pure_def,
    Option.some.injEq, Option.guard_eq_some', exists_const]
  constructor
  · rintro ⟨isRecord, _, ips, _, includeGithubMeta, _, githubMetaUrl, _, categories, rfl⟩
    exact ⟨isRecord, ips, includeGithubMeta, githubMetaUrl, categories⟩
  · rintro ⟨isRecord, ips, includeGithubMeta, githubMetaUrl, categories⟩
    exact ⟨isRecord, _, ips, _, includeGithubMeta, _, githubMetaUrl, _, categories, rfl⟩

theorem RawRemoteConfig.decode_eq_some_iff {record : Toml} {raw : RawRemoteConfig} :
    RawRemoteConfig.decode record = some raw ↔
      record.isRecord ["urls", "timeout_secs", "cache_stale_after_secs"] = true ∧
        Toml.readField (Toml.readList Toml.asString) (record.member "urls" 0) = some raw.urls ∧
        Toml.readField Toml.asInteger (record.member "timeout_secs" 1) = some raw.timeoutSecs ∧
        Toml.readField Toml.asInteger (record.member "cache_stale_after_secs" 2) =
          some raw.cacheStaleAfterSecs := by
  simp only [RawRemoteConfig.decode, Option.bind_eq_bind, Option.bind_eq_some_iff,
    Option.pure_def, Option.some.injEq, Option.guard_eq_some', exists_const]
  constructor
  · rintro ⟨isRecord, _, urls, _, timeoutSecs, _, staleAfter, rfl⟩
    exact ⟨isRecord, urls, timeoutSecs, staleAfter⟩
  · rintro ⟨isRecord, urls, timeoutSecs, staleAfter⟩
    exact ⟨isRecord, _, urls, _, timeoutSecs, _, staleAfter, rfl⟩

theorem RawAsnConfig.decode_eq_some_iff {record : Toml} {raw : RawAsnConfig} :
    RawAsnConfig.decode record = some raw ↔
      record.isRecord ["banned", "cache_stale_after_secs"] = true ∧
        Toml.readField (Toml.readList Toml.asInteger) (record.member "banned" 0) =
          some raw.banned ∧
        Toml.readField Toml.asInteger (record.member "cache_stale_after_secs" 1) =
          some raw.cacheStaleAfterSecs := by
  simp only [RawAsnConfig.decode, Option.bind_eq_bind, Option.bind_eq_some_iff, Option.pure_def,
    Option.some.injEq, Option.guard_eq_some', exists_const]
  constructor
  · rintro ⟨isRecord, _, banned, _, staleAfter, rfl⟩
    exact ⟨isRecord, banned, staleAfter⟩
  · rintro ⟨isRecord, banned, staleAfter⟩
    exact ⟨isRecord, _, banned, _, staleAfter, rfl⟩

theorem RawConfig.decode_eq_some_iff {record : Toml} {raw : RawConfig} :
    RawConfig.decode record = some raw ↔
      record.isRecord ["ipset", "safe", "remote", "asn"] = true ∧
        Toml.readField RawIpsetConfig.decode (record.member "ipset" 0) = some raw.ipset ∧
        Toml.readField RawSafeConfig.decode (record.member "safe" 1) = some raw.safe ∧
        Toml.readField RawRemoteConfig.decode (record.member "remote" 2) = some raw.remote ∧
        Toml.readField RawAsnConfig.decode (record.member "asn" 3) = some raw.asn := by
  simp only [RawConfig.decode, Option.bind_eq_bind, Option.bind_eq_some_iff, Option.pure_def,
    Option.some.injEq, Option.guard_eq_some', exists_const]
  constructor
  · rintro ⟨isRecord, _, ipset, _, safe, _, remote, _, asn, rfl⟩
    exact ⟨isRecord, ipset, safe, remote, asn⟩
  · rintro ⟨isRecord, ipset, safe, remote, asn⟩
    exact ⟨isRecord, _, ipset, _, safe, _, remote, _, asn, rfl⟩

/-! ### The fields of a section -/

section Fields

variable {entries : Toml.Entries}

theorem decode_setEnableIpv6 {raw : RawIpsetConfig}
    (decoded : RawIpsetConfig.decode (.table entries) = some raw) (setting : Bool) :
    RawIpsetConfig.decode (.table (Toml.insertEntry "enable_ipv6" (.boolean setting) entries)) =
      some { raw with enableIpv6 := some setting } := by
  obtain ⟨isRecord, setName, setNameV6, _, rest⟩ := RawIpsetConfig.decode_eq_some_iff.mp decoded
  rw [RawIpsetConfig.decode_eq_some_iff, Toml.isRecord_insertEntry (by simp)]
  simp only [Toml.member_insertEntry, String.reduceEq, if_true, if_false]
  exact ⟨isRecord, setName, setNameV6, rfl, rest⟩

theorem decode_setIncludeGithubMeta {raw : RawSafeConfig}
    (decoded : RawSafeConfig.decode (.table entries) = some raw) (setting : Bool) :
    RawSafeConfig.decode
        (.table (Toml.insertEntry "include_github_meta" (.boolean setting) entries)) =
      some { raw with includeGithubMeta := some setting } := by
  obtain ⟨isRecord, ips, _, rest⟩ := RawSafeConfig.decode_eq_some_iff.mp decoded
  rw [RawSafeConfig.decode_eq_some_iff, Toml.isRecord_insertEntry (by simp)]
  simp only [Toml.member_insertEntry, String.reduceEq, if_true, if_false]
  exact ⟨isRecord, ips, rfl, rest⟩

/-- A list of readable items is a readable field. -/
theorem readField_array {α : Type} {decode : Toml → Option α} {items : List Toml}
    {values : List α} (read : items.mapM decode = some values) :
    Toml.readField (Toml.readList decode) (some (.array items)) = some (some values) := by
  rw [Toml.readField, Toml.readList, Toml.asList, Option.bind_some, read, Option.map_some]

theorem decode_setIps {raw : RawSafeConfig}
    (decoded : RawSafeConfig.decode (.table entries) = some raw) {items : List Toml}
    {texts : List String} (read : items.mapM Toml.asString = some texts) :
    RawSafeConfig.decode (.table (Toml.insertEntry "ips" (.array items) entries)) =
      some { raw with ips := some texts } := by
  obtain ⟨isRecord, _, rest⟩ := RawSafeConfig.decode_eq_some_iff.mp decoded
  rw [RawSafeConfig.decode_eq_some_iff, Toml.isRecord_insertEntry (by simp)]
  simp only [Toml.member_insertEntry, String.reduceEq, if_true, if_false]
  exact ⟨isRecord, readField_array read, rest⟩

theorem decode_setUrls {raw : RawRemoteConfig}
    (decoded : RawRemoteConfig.decode (.table entries) = some raw) {items : List Toml}
    {texts : List String} (read : items.mapM Toml.asString = some texts) :
    RawRemoteConfig.decode (.table (Toml.insertEntry "urls" (.array items) entries)) =
      some { raw with urls := some texts } := by
  obtain ⟨isRecord, _, rest⟩ := RawRemoteConfig.decode_eq_some_iff.mp decoded
  rw [RawRemoteConfig.decode_eq_some_iff, Toml.isRecord_insertEntry (by simp)]
  simp only [Toml.member_insertEntry, String.reduceEq, if_true, if_false]
  exact ⟨isRecord, readField_array read, rest⟩

theorem decode_setBanned {raw : RawAsnConfig}
    (decoded : RawAsnConfig.decode (.table entries) = some raw) {items : List Toml}
    {numbers : List ℤ} (read : items.mapM Toml.asInteger = some numbers) :
    RawAsnConfig.decode (.table (Toml.insertEntry "banned" (.array items) entries)) =
      some { raw with banned := some numbers } := by
  obtain ⟨isRecord, _, staleAfter⟩ := RawAsnConfig.decode_eq_some_iff.mp decoded
  rw [RawAsnConfig.decode_eq_some_iff, Toml.isRecord_insertEntry (by simp)]
  simp only [Toml.member_insertEntry, String.reduceEq, if_true, if_false]
  exact ⟨isRecord, readField_array read, staleAfter⟩

theorem decode_setAsnCacheStaleAfterSecs {raw : RawAsnConfig}
    (decoded : RawAsnConfig.decode (.table entries) = some raw) (seconds : ℤ) :
    RawAsnConfig.decode
        (.table (Toml.insertEntry "cache_stale_after_secs" (.integer seconds) entries)) =
      some { raw with cacheStaleAfterSecs := some seconds } := by
  obtain ⟨isRecord, banned, _⟩ := RawAsnConfig.decode_eq_some_iff.mp decoded
  rw [RawAsnConfig.decode_eq_some_iff, Toml.isRecord_insertEntry (by simp)]
  simp only [Toml.member_insertEntry, String.reduceEq, if_true, if_false]
  exact ⟨isRecord, banned, rfl⟩

end Fields

/-! ### The sections of a document -/

section Sections

variable {document entries : Toml.Entries} {raw : RawConfig}

/-- A section that is a table is decoded from its entries. -/
theorem decode_of_tableAt {α : Type} {decode : Toml → Option α} {empty : α} {name : String}
    {field : Option α} (decodesEmpty : decode (.table []) = some empty)
    (found : Toml.tableAt name document = some entries)
    (read : Toml.readField decode ((Toml.table document).member name 0) = some field) :
    decode (.table entries) = some (field.getD empty) := by
  rw [Toml.member] at read
  unfold Toml.tableAt at found
  cases present : document.lookup name with
  | none =>
    rw [present] at found read
    obtain rfl := Option.some.inj found
    obtain rfl := Option.some.inj read
    exact decodesEmpty
  | some value =>
    rw [present] at found read
    cases value with
    | table sameEntries =>
      obtain rfl := Option.some.inj found
      obtain ⟨decoded, isDecoded, rfl⟩ := Option.map_eq_some_iff.mp read
      exact isDecoded
    | string | integer | boolean | literal | array => cases found

theorem decode_ipsetSection {rawIpset : RawIpsetConfig}
    (decoded : RawConfig.decode (.table document) = some raw) (present : raw.ipset = some rawIpset)
    (found : Toml.tableAt "ipset" document = some entries) :
    RawIpsetConfig.decode (.table entries) = some rawIpset := by
  have read := (RawConfig.decode_eq_some_iff.mp decoded).2.1
  rw [present] at read
  exact @decode_of_tableAt _ _ _ _ ⟨none, none, none, none, none, none, none, none⟩ _ _ rfl
    found read

theorem decode_safeSection (decoded : RawConfig.decode (.table document) = some raw)
    (found : Toml.tableAt "safe" document = some entries) :
    RawSafeConfig.decode (.table entries) = some (raw.safe.getD default) :=
  decode_of_tableAt rfl found (RawConfig.decode_eq_some_iff.mp decoded).2.2.1

theorem decode_remoteSection (decoded : RawConfig.decode (.table document) = some raw)
    (found : Toml.tableAt "remote" document = some entries) :
    RawRemoteConfig.decode (.table entries) = some (raw.remote.getD default) :=
  decode_of_tableAt rfl found (RawConfig.decode_eq_some_iff.mp decoded).2.2.2.1

theorem decode_asnSection (decoded : RawConfig.decode (.table document) = some raw)
    (found : Toml.tableAt "asn" document = some entries) :
    RawAsnConfig.decode (.table entries) = some (raw.asn.getD default) :=
  decode_of_tableAt rfl found (RawConfig.decode_eq_some_iff.mp decoded).2.2.2.2

/-- A readable section is a readable field. -/
theorem readField_table {α : Type} {decode : Toml → Option α} {value : α}
    (read : decode (.table entries) = some value) :
    Toml.readField decode (some (.table entries)) = some (some value) := by
  rw [Toml.readField, read, Option.map_some]

theorem decode_setIpset {rawIpset : RawIpsetConfig}
    (decoded : RawConfig.decode (.table document) = some raw)
    (isIpset : RawIpsetConfig.decode (.table entries) = some rawIpset) :
    RawConfig.decode (.table (Toml.insertEntry "ipset" (.table entries) document)) =
      some { raw with ipset := some rawIpset } := by
  obtain ⟨isRecord, _, rest⟩ := RawConfig.decode_eq_some_iff.mp decoded
  rw [RawConfig.decode_eq_some_iff, Toml.isRecord_insertEntry (by simp)]
  simp only [Toml.member_insertEntry, String.reduceEq, if_true, if_false]
  exact ⟨isRecord, readField_table isIpset, rest⟩

theorem decode_setSafe {rawSafe : RawSafeConfig}
    (decoded : RawConfig.decode (.table document) = some raw)
    (isSafe : RawSafeConfig.decode (.table entries) = some rawSafe) :
    RawConfig.decode (.table (Toml.insertEntry "safe" (.table entries) document)) =
      some { raw with safe := some rawSafe } := by
  obtain ⟨isRecord, ipset, _, rest⟩ := RawConfig.decode_eq_some_iff.mp decoded
  rw [RawConfig.decode_eq_some_iff, Toml.isRecord_insertEntry (by simp)]
  simp only [Toml.member_insertEntry, String.reduceEq, if_true, if_false]
  exact ⟨isRecord, ipset, readField_table isSafe, rest⟩

theorem decode_setRemote {rawRemote : RawRemoteConfig}
    (decoded : RawConfig.decode (.table document) = some raw)
    (isRemote : RawRemoteConfig.decode (.table entries) = some rawRemote) :
    RawConfig.decode (.table (Toml.insertEntry "remote" (.table entries) document)) =
      some { raw with remote := some rawRemote } := by
  obtain ⟨isRecord, ipset, safe, _, asn⟩ := RawConfig.decode_eq_some_iff.mp decoded
  rw [RawConfig.decode_eq_some_iff, Toml.isRecord_insertEntry (by simp)]
  simp only [Toml.member_insertEntry, String.reduceEq, if_true, if_false]
  exact ⟨isRecord, ipset, safe, readField_table isRemote, asn⟩

theorem decode_setAsn {rawAsn : RawAsnConfig}
    (decoded : RawConfig.decode (.table document) = some raw)
    (isAsn : RawAsnConfig.decode (.table entries) = some rawAsn) :
    RawConfig.decode (.table (Toml.insertEntry "asn" (.table entries) document)) =
      some { raw with asn := some rawAsn } := by
  obtain ⟨isRecord, ipset, safe, remote, _⟩ := RawConfig.decode_eq_some_iff.mp decoded
  rw [RawConfig.decode_eq_some_iff, Toml.isRecord_insertEntry (by simp)]
  simp only [Toml.member_insertEntry, String.reduceEq, if_true, if_false]
  exact ⟨isRecord, ipset, safe, remote, readField_table isAsn⟩

end Sections

end Kidobo
