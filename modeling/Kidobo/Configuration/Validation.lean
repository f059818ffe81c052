import Kidobo.App.Stores
import Kidobo.Foundation.TomlEdit

/-!
# Validated configuration

A configuration text is decoded into optional raw fields, which are then
validated section by section. A known field that is absent gets its default, and
an unknown one is refused.

## Main definitions

* `RawConfig`: the fields that a document may have
* `ConfigLibrary`: what reads documents and URLs
* `fromRaw`, `ConfigLibrary.fromTomlStr`: the validated configuration of a text
* `ConfigLibrary.normalizedUrl`: the identity of a source

## Main results

* `fromTomlStr_eq_ok_iff`, `fromRaw_eq_ok_iff`: what an accepted text says
* `orderFree_decode`: the order of the entries of a document does not matter
-/

namespace Kidobo

open Foundation

/-! ### Raw fields -/

/-- The fields of `[ipset]`. -/
structure RawIpsetConfig where
  setName : Option String
  setNameV6 : Option String
  enableIpv6 : Option Bool
  chainAction : Option String
  setType : Option String
  hashsize : Option ℤ
  maxelem : Option ℤ
  timeout : Option ℤ

/-- The fields of `[safe]`. -/
structure RawSafeConfig where
  ips : Option (List String)
  includeGithubMeta : Option Bool
  githubMetaUrl : Option String
  githubMetaCategories : Option (List String)

/-- The fields of `[remote]`. -/
structure RawRemoteConfig where
  urls : Option (List String)
  timeoutSecs : Option ℤ
  cacheStaleAfterSecs : Option ℤ

/-- The fields of `[asn]`. -/
structure RawAsnConfig where
  banned : Option (List ℤ)
  cacheStaleAfterSecs : Option ℤ

/-- The sections of a document. -/
structure RawConfig where
  ipset : Option RawIpsetConfig
  safe : Option RawSafeConfig
  remote : Option RawRemoteConfig
  asn : Option RawAsnConfig

instance : Inhabited RawSafeConfig := ⟨⟨none, none, none, none⟩⟩

instance : Inhabited RawRemoteConfig := ⟨⟨none, none, none⟩⟩

instance : Inhabited RawAsnConfig := ⟨⟨none, none⟩⟩

/-- Decode `[ipset]`. -/
def RawIpsetConfig.decode (record : Toml) : Option RawIpsetConfig := do
  guard (record.isRecord ["set_name", "set_name_v6", "enable_ipv6", "chain_action", "set_type",
    "hashsize", "maxelem", "timeout"])
  return {
    setName := ← Toml.readField Toml.asString (record.member "set_name" 0)
    setNameV6 := ← Toml.readField Toml.asString (record.member "set_name_v6" 1)
    enableIpv6 := ← Toml.readField Toml.asBoolean (record.member "enable_ipv6" 2)
    chainAction := ← Toml.readField Toml.asString (record.member "chain_action" 3)
    setType := ← Toml.readField Toml.asString (record.member "set_type" 4)
    hashsize := ← Toml.readField Toml.asInteger (record.member "hashsize" 5)
    maxelem := ← Toml.readField Toml.asInteger (record.member "maxelem" 6)
    timeout := ← Toml.readField Toml.asInteger (record.member "timeout" 7) }

/-- Decode `[safe]`. -/
def RawSafeConfig.decode (record : Toml) : Option RawSafeConfig := do
  guard (record.isRecord
    ["ips", "include_github_meta", "github_meta_url", "github_meta_categories"])
  return {
    ips := ← Toml.readField (Toml.readList Toml.asString) (record.member "ips" 0)
    includeGithubMeta := ← Toml.readField Toml.asBoolean (record.member "include_github_meta" 1)
    githubMetaUrl := ← Toml.readField Toml.asString (record.member "github_meta_url" 2)
    githubMetaCategories := ← Toml.readField (Toml.readList Toml.asString)
      (record.member "github_meta_categories" 3) }

/-- Decode `[remote]`. -/
def RawRemoteConfig.decode (record : Toml) : Option RawRemoteConfig := do
  guard (record.isRecord ["urls", "timeout_secs", "cache_stale_after_secs"])
  return {
    urls := ← Toml.readField (Toml.readList Toml.asString) (record.member "urls" 0)
    timeoutSecs := ← Toml.readField Toml.asInteger (record.member "timeout_secs" 1)
    cacheStaleAfterSecs := ← Toml.readField Toml.asInteger
      (record.member "cache_stale_after_secs" 2) }

/-- Decode `[asn]`. -/
def RawAsnConfig.decode (record : Toml) : Option RawAsnConfig := do
  guard (record.isRecord ["banned", "cache_stale_after_secs"])
  return {
    banned := ← Toml.readField (Toml.readList Toml.asInteger) (record.member "banned" 0)
    cacheStaleAfterSecs := ← Toml.readField Toml.asInteger
      (record.member "cache_stale_after_secs" 1) }

/-- Decode a document. -/
def RawConfig.decode (record : Toml) : Option RawConfig := do
  guard (record.isRecord ["ipset", "safe", "remote", "asn"])
  return {
    ipset := ← Toml.readField RawIpsetConfig.decode (record.member "ipset" 0)
    safe := ← Toml.readField RawSafeConfig.decode (record.member "safe" 1)
    remote := ← Toml.readField RawRemoteConfig.decode (record.member "remote" 2)
    asn := ← Toml.readField RawAsnConfig.decode (record.member "asn" 3) }

/-! ### Field checks -/

/-- `Err(ConfigError::InvalidField)`. -/
def invalidField {α : Type} (field reason : String) : Except ConfigError α :=
  .error (.invalidField field reason)

/-- `non_empty`: the value without white space around it. -/
def nonEmpty (value field : String) : Except ConfigError String :=
  let normalized := trim value.toList
  if normalized.isEmpty then invalidField field "value must not be empty"
  else .ok (String.ofList normalized)

/-- `required_non_empty`. -/
def requiredNonEmpty (value : Option String) (field : String) : Except ConfigError String :=
  match value with
  | some value => nonEmpty value field
  | none => invalidField field "value is required"

/-- `parse_cidr_field_strict`. -/
def parseCidrFieldStrict (value field : String) : Except ConfigError CanonicalCidr :=
  let normalized := trim value.toList
  if (splitWhitespace normalized).length ≠ 1 then
    invalidField field "must be a single IP or CIDR token"
  else
    match parseIpCidrToken normalized with
    | some cidr => .ok cidr
    | none => invalidField field ("invalid IP/CIDR token `" ++ String.ofList normalized ++ "`")

/-- `bounded_u32`. The upper bound is a word, so the conversion behind the check succeeds. -/
def boundedU32 (value : ℤ) (field : String) (min max : ℕ) : Except ConfigError ℕ :=
  if value < min ∨ max < value then invalidField field s!"must be between {min} and {max}"
  else .ok value.toNat

/-- `bounded_newtype`. -/
def boundedNewtype (value : ℤ) (field : String) (min max : ℕ) (invalidReason : String)
    (parse : ℕ → Option ℕ) : Except ConfigError ℕ := do
  let value ← boundedU32 value field min max
  match parse value with
  | some valid => return valid
  | none => invalidField field invalidReason

/-- `validate_ipset_set_name`. -/
def validateIpsetSetName (value field : String) : Except ConfigError Unit :=
  if ipsetNameMaxLen < byteLength value.toList then
    invalidField field s!"must be {ipsetNameMaxLen} characters or fewer"
  else if value.toList.head? = some '-' then invalidField field "must not start with '-'"
  else if !(value.toList.all fun char =>
      char.isAlphanum || char == '_' || char == '-' || char == '.') then
    invalidField field "must contain only [A-Za-z0-9_.-]"
  else .ok ()

/-- `validate_ipset_set_type`. -/
def validateIpsetSetType (value : String) : Except ConfigError Unit :=
  if !(value.toList.all fun char => char.isAlphanum || char == ':' || char == ',' ||
      char == '_' || char == '-' || char == '.') then
    invalidField "ipset.set_type" "must contain only [A-Za-z0-9:,_-.]"
  else .ok ()

/-- `parse_chain_action`. -/
def parseChainAction (value : Option String) : Except ConfigError FirewallAction :=
  match value with
  | none => .ok .drop
  | some value => do
    let normalized ← nonEmpty value "ipset.chain_action"
    if normalized.toList.map Char.toLower = "drop".toList then return .drop
    else if normalized.toList.map Char.toLower = "reject".toList then return .reject
    else invalidField "ipset.chain_action" "must be DROP or REJECT"

/-! ### Addresses of sources -/

/-- A URL as its parser serializes it. -/
structure ParsedUrl where
  scheme : String
  hasHost : Bool
  serialization : String

/-- What third-party libraries contribute: documents and URLs. -/
structure ConfigLibrary where
  toml : TomlEditor
  parseUrl : List Char → Option ParsedUrl

/-- Whether a URL is served over HTTP or HTTPS by a host. -/
def ParsedUrl.isHttp (url : ParsedUrl) : Bool :=
  (url.scheme == "http" || url.scheme == "https") && url.hasHost

/-- `validate_http_url`. -/
def ConfigLibrary.validateHttpUrl (library : ConfigLibrary) (value field : String) :
    Except ConfigError Unit :=
  match library.parseUrl value.toList with
  | none => invalidField field "must be a valid http:// or https:// URL with a host"
  | some url =>
    if url.isHttp then .ok ()
    else invalidField field "must be a valid http:// or https:// URL with a host"

/-! ### Sections -/

/-- `HashsizePow2::new`. -/
def newHashsizePow2 (value : ℕ) : Option ℕ :=
  if value ≠ 0 ∧ 2 ^ value.log2 = value then some value else none

/-- A word that is not zero and not above a limit. -/
def nonZeroUpTo (limit value : ℕ) : Option ℕ :=
  if value ≠ 0 ∧ value ≤ limit then some value else none

/-- `DEFAULT_HASHSIZE`. -/
def defaultHashsize : ℕ := 65536

/-- `DEFAULT_MAXELEM`. -/
def defaultMaxelem : ℕ := 500000

/-- `MaxElem::new`. -/
def newMaxElem : ℕ → Option ℕ := nonZeroUpTo defaultMaxelem

/-- `IPSET_TIMEOUT_SECS_MAX`. -/
def ipsetTimeoutSecsMax : ℕ := 2147483

/-- `DEFAULT_REMOTE_TIMEOUT_SECS`. -/
def defaultRemoteTimeoutSecs : ℕ := 30

/-- `REMOTE_TIMEOUT_SECS_MAX`. -/
def remoteTimeoutSecsMax : ℕ := 3600

/-- `RemoteTimeoutSecs::new`. -/
def newRemoteTimeoutSecs : ℕ → Option ℕ := nonZeroUpTo remoteTimeoutSecsMax

/-- `DEFAULT_ASN_CACHE_STALE_AFTER_SECS`. -/
def defaultAsnCacheStaleAfterSecs : ℕ := 24 * 60 * 60

/-- `ASN_CACHE_STALE_AFTER_SECS_MAX`. -/
def asnCacheStaleAfterSecsMax : ℕ := 7 * 24 * 60 * 60

/-- `AsnCacheStaleAfterSecs::new`. -/
def newAsnCacheStaleAfterSecs : ℕ → Option ℕ := nonZeroUpTo asnCacheStaleAfterSecsMax

/-- `LEGACY_REMOTE_CACHE_STALE_AFTER_SECS_MAX`. -/
def legacyRemoteCacheStaleAfterSecsMax : ℕ := 7 * 24 * 60 * 60

/-- Safelist and GitHub metadata configuration. -/
structure SafeConfig where
  ips : List CanonicalCidr
  includeGithubMeta : Bool
  githubMetaUrl : String
  githubMetaCategories : Option (List String)

/-- Remote blocklist configuration. -/
structure RemoteConfig where
  urls : List String
  timeoutSecs : ℕ

/-- The IPv6 set name: the configured one, or one derived from the IPv4 name. A derived name
is checked only where IPv6 is enforced. -/
def parseSetNameV6 (raw : Option String) (setName : String) (enableIpv6 : Bool) :
    Except ConfigError String :=
  match raw with
  | some value => do
    let parsed ← nonEmpty value "ipset.set_name_v6"
    validateIpsetSetName parsed "ipset.set_name_v6"
    return parsed
  | none => do
    let derived := setName ++ "-v6"
    if enableIpv6 then validateIpsetSetName derived "ipset.set_name_v6"
    return derived

/-- The set type of `parse_ipset`. -/
def parseSetType (raw : Option String) : Except ConfigError String :=
  match raw with
  | some value => do
    let parsed ← nonEmpty value "ipset.set_type"
    validateIpsetSetType parsed
    return parsed
  | none => return "hash:net"

/-- `parse_ipset`. -/
def parseIpset (raw : RawIpsetConfig) : Except ConfigError IpsetConfig := do
  let setName ← requiredNonEmpty raw.setName "ipset.set_name"
  validateIpsetSetName setName "ipset.set_name"
  let enableIpv6 := raw.enableIpv6.getD true
  let setNameV6 ← parseSetNameV6 raw.setNameV6 setName enableIpv6
  if setNameV6 = setName then
    invalidField "ipset.set_name_v6" "must differ from ipset.set_name"
  else
    let chainAction ← parseChainAction raw.chainAction
    let setType ← parseSetType raw.setType
    let hashsize ← boundedNewtype (raw.hashsize.getD defaultHashsize) "ipset.hashsize" 1
      (2 ^ 32 - 1) "must be a power-of-two positive integer" newHashsizePow2
    let maxelem ← boundedNewtype (raw.maxelem.getD defaultMaxelem) "ipset.maxelem" 1
      defaultMaxelem s!"must be between 1 and {defaultMaxelem}" newMaxElem
    let timeout ← boundedU32 (raw.timeout.getD 0) "ipset.timeout" 0 ipsetTimeoutSecsMax
    return ⟨setName, setNameV6, enableIpv6, chainAction, setType, hashsize, maxelem, timeout⟩

/-- One entry of `safe.ips`. -/
def parseSafeIp (value : String) : Except ConfigError CanonicalCidr := do
  let token ← nonEmpty value "safe.ips"
  parseCidrFieldStrict token "safe.ips"

/-- One entry of `remote.urls`. -/
def ConfigLibrary.parseRemoteUrl (library : ConfigLibrary) (value : String) :
    Except ConfigError String := do
  let parsed ← nonEmpty value "remote.urls"
  library.validateHttpUrl parsed "remote.urls"
  return parsed

/-- The GitHub metadata endpoint of `parse_safe`. -/
def ConfigLibrary.parseGithubMetaUrl (library : ConfigLibrary) (raw : Option String) :
    Except ConfigError String :=
  match raw with
  | some value => do
    let parsed ← nonEmpty value "safe.github_meta_url"
    library.validateHttpUrl parsed "safe.github_meta_url"
    return parsed
  | none => return "https://api.github.com/meta"

/-- The categories of `parse_safe`. -/
def parseGithubMetaCategories (raw : Option (List String)) :
    Except ConfigError (Option (List String)) :=
  match raw with
  | none => return none
  | some values => do
    let normalized ← values.mapM fun value => nonEmpty value "safe.github_meta_categories"
    return some normalized

/-- `parse_safe`. -/
def ConfigLibrary.parseSafe (library : ConfigLibrary) (raw : RawSafeConfig) :
    Except ConfigError SafeConfig := do
  let ips ← (raw.ips.getD []).mapM parseSafeIp
  let githubMetaUrl ← library.parseGithubMetaUrl raw.githubMetaUrl
  let githubMetaCategories ← parseGithubMetaCategories raw.githubMetaCategories
  return ⟨ips, raw.includeGithubMeta.getD true, githubMetaUrl, githubMetaCategories⟩

/-- The setting that only older configurations have. -/
def checkLegacyRemoteCacheStaleAfterSecs (raw : Option ℤ) : Except ConfigError Unit :=
  match raw with
  | some value => do
    let _ ← boundedU32 value "remote.cache_stale_after_secs" 1 legacyRemoteCacheStaleAfterSecsMax
    return ()
  | none => return ()

/-- `parse_remote`. -/
def ConfigLibrary.parseRemote (library : ConfigLibrary) (raw : RawRemoteConfig) :
    Except ConfigError RemoteConfig := do
  let urls ← (raw.urls.getD []).mapM library.parseRemoteUrl
  let timeoutSecs ← boundedNewtype (raw.timeoutSecs.getD defaultRemoteTimeoutSecs)
    "remote.timeout_secs" 1 remoteTimeoutSecsMax s!"must be between 1 and {remoteTimeoutSecsMax}"
    newRemoteTimeoutSecs
  checkLegacyRemoteCacheStaleAfterSecs raw.cacheStaleAfterSecs
  return ⟨urls, timeoutSecs⟩

/-- `parse_asn`. -/
def parseAsn (raw : RawAsnConfig) : Except ConfigError AsnConfig := do
  let banned ← (raw.banned.getD []).mapM fun value => boundedU32 value "asn.banned" 1 (2 ^ 32 - 1)
  let cacheStaleAfterSecs ← boundedNewtype
    (raw.cacheStaleAfterSecs.getD defaultAsnCacheStaleAfterSecs) "asn.cache_stale_after_secs" 1
    asnCacheStaleAfterSecsMax s!"must be between 1 and {asnCacheStaleAfterSecsMax}"
    newAsnCacheStaleAfterSecs
  return ⟨numberSet banned, cacheStaleAfterSecs⟩

/-! ### Configurations -/

/-- The configuration of validated sections. -/
def ValidatedConfig.ofSections (ipset : IpsetConfig) (safe : SafeConfig) (remote : RemoteConfig)
    (asn : AsnConfig) : ValidatedConfig where
  ipset := ipset
  asn := asn
  safeIps := safe.ips
  includeGithubMeta := safe.includeGithubMeta
  remoteUrls := remote.urls
  githubMetaUrl := safe.githubMetaUrl
  githubMetaCategories := safe.githubMetaCategories
  timeoutSecs := remote.timeoutSecs

/-- `from_raw`. -/
def ConfigLibrary.fromRaw (library : ConfigLibrary) (raw : RawConfig) :
    Except ConfigError ValidatedConfig :=
  match raw.ipset with
  | none => .error .missingIpsetSection
  | some rawIpset => do
    let ipset ← parseIpset rawIpset
    let safe ← library.parseSafe (raw.safe.getD default)
    let remote ← library.parseRemote (raw.remote.getD default)
    let asn ← parseAsn (raw.asn.getD default)
    return .ofSections ipset safe remote asn

/-- `from_toml_str`. -/
def ConfigLibrary.fromTomlStr (library : ConfigLibrary) (contents : List Char) :
    Except ConfigError ValidatedConfig :=
  match library.toml.parse contents with
  | .error reason => .error (.parse reason)
  | .ok document =>
    match RawConfig.decode (.table document) with
    | none => .error (.parse (library.toml.mismatch contents))
    | some raw => library.fromRaw raw

/-! ### What an accepted text says -/

theorem orderFree_rawIpsetConfig : Toml.OrderFree RawIpsetConfig.decode := by
  intro value other same
  have strings (name : String) (position : ℕ) :=
    Toml.orderFree_asString.readField (same.member name position)
  have booleans (name : String) (position : ℕ) :=
    Toml.orderFree_asBoolean.readField (same.member name position)
  have integers (name : String) (position : ℕ) :=
    Toml.orderFree_asInteger.readField (same.member name position)
  simp only [RawIpsetConfig.decode, same.isRecord, strings, booleans, integers]

theorem orderFree_rawSafeConfig : Toml.OrderFree RawSafeConfig.decode := by
  intro value other same
  have strings (name : String) (position : ℕ) :=
    Toml.orderFree_asString.readField (same.member name position)
  have booleans (name : String) (position : ℕ) :=
    Toml.orderFree_asBoolean.readField (same.member name position)
  have lists (name : String) (position : ℕ) :=
    Toml.orderFree_asString.readList.readField (same.member name position)
  simp only [RawSafeConfig.decode, same.isRecord, strings, booleans, lists]

theorem orderFree_rawRemoteConfig : Toml.OrderFree RawRemoteConfig.decode := by
  intro value other same
  have integers (name : String) (position : ℕ) :=
    Toml.orderFree_asInteger.readField (same.member name position)
  have lists (name : String) (position : ℕ) :=
    Toml.orderFree_asString.readList.readField (same.member name position)
  simp only [RawRemoteConfig.decode, same.isRecord, integers, lists]

theorem orderFree_rawAsnConfig : Toml.OrderFree RawAsnConfig.decode := by
  intro value other same
  have integers (name : String) (position : ℕ) :=
    Toml.orderFree_asInteger.readField (same.member name position)
  have lists (name : String) (position : ℕ) :=
    Toml.orderFree_asInteger.readList.readField (same.member name position)
  simp only [RawAsnConfig.decode, same.isRecord, integers, lists]

/-- The order of the entries of a document does not matter. -/
theorem orderFree_decode : Toml.OrderFree RawConfig.decode := by
  intro value other same
  have ipset (name : String) (position : ℕ) :=
    orderFree_rawIpsetConfig.readField (same.member name position)
  have safe (name : String) (position : ℕ) :=
    orderFree_rawSafeConfig.readField (same.member name position)
  have remote (name : String) (position : ℕ) :=
    orderFree_rawRemoteConfig.readField (same.member name position)
  have asn (name : String) (position : ℕ) :=
    orderFree_rawAsnConfig.readField (same.member name position)
  simp only [RawConfig.decode, same.isRecord, ipset, safe, remote, asn]

section Accepted

variable {library : ConfigLibrary}

theorem fromTomlStr_eq_ok_iff {contents : List Char} {config : ValidatedConfig} :
    library.fromTomlStr contents = .ok config ↔
      ∃ document raw, library.toml.parse contents = .ok document ∧
        RawConfig.decode (.table document) = some raw ∧ library.fromRaw raw = .ok config := by
  unfold ConfigLibrary.fromTomlStr
  cases library.toml.parse contents with
  | error reason => simp
  | ok document =>
    cases decoded : RawConfig.decode (.table document) with
    | none => simp [decoded]
    | some raw => simp [decoded]

/-- A configuration is accepted when each of its sections is. -/
theorem fromRaw_eq_ok_iff {raw : RawConfig} {config : ValidatedConfig} :
    library.fromRaw raw = .ok config ↔
      ∃ rawIpset ipset safe remote asn, raw.ipset = some rawIpset ∧
        parseIpset rawIpset = .ok ipset ∧ library.parseSafe (raw.safe.getD default) = .ok safe ∧
        library.parseRemote (raw.remote.getD default) = .ok remote ∧
        parseAsn (raw.asn.getD default) = .ok asn ∧
        config = .ofSections ipset safe remote asn := by
  unfold ConfigLibrary.fromRaw
  cases found : raw.ipset with
  | none => simp
  | some rawIpset =>
    simp only [bind_eq_ok_iff]
    constructor
    · rintro ⟨ipset, ipsetValid, safe, safeValid, remote, remoteValid, asn, asnValid, built⟩
      exact ⟨rawIpset, ipset, safe, remote, asn, rfl, ipsetValid, safeValid, remoteValid,
        asnValid, (Except.ok.inj built).symm⟩
    · rintro ⟨_, ipset, safe, remote, asn, same, ipsetValid, safeValid, remoteValid, asnValid, rfl⟩
      obtain rfl := Option.some.inj same
      exact ⟨ipset, ipsetValid, safe, safeValid, remote, remoteValid, asn, asnValid, rfl⟩

/-- An edited document that is read back is decoded as it was edited. -/
theorem decode_of_readsBack {original : List Char} {edited : Toml.Entries}
    (readsBack : library.toml.ReadsBack original edited) :
    ∃ found, library.toml.parse (library.toml.print original edited) = .ok found ∧
      RawConfig.decode (.table found) = RawConfig.decode (.table edited) := by
  obtain ⟨found, parsed, same⟩ := readsBack
  exact ⟨found, parsed, orderFree_decode _ _ same⟩

end Accepted

/-- The document of the minimal configuration. -/
def minimalDocument : Toml.Entries := [("ipset", .table [("set_name", .string "kidobo")])]

end Kidobo
