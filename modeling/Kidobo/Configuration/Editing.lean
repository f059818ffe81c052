import Kidobo.App.Configuration
import Kidobo.Configuration.Validation

/-!
# Edits of configuration documents

An edit changes one list or one truth value of a document, and creates the
section or the list where it is missing. Elements are found by what they denote:
a source by its normalized URL, an exemption by its canonical network.

## Main definitions

* `ConfigLibrary.bannedAsns`, `withBanned`: the edit of the banned ASNs
* `changeArray`, `setBoolean`: the edits of a section
* `ConfigLibrary.editDocument`: the edit of a document that a command asks for
* `ConfigLibrary.format`, `ConfigLibrary.editor`: the library as the workflows use it
-/

namespace Kidobo

open Foundation

/-! ### Banned ASNs -/

/-- One item of `parse_asn_list_from_toml`. -/
def parseAsnItem (item : Toml) : Except ConfigError ℕ :=
  match item.asInteger with
  | none => invalidField "asn.banned" "must contain positive integers"
  | some number =>
    if number ≤ 0 ∨ 2 ^ 32 - 1 < number then
      invalidField "asn.banned" "must contain positive integers"
    else .ok number.toNat

/-- `parse_asn_list_from_toml`. -/
def parseAsnListFromToml (value : Toml) : Except ConfigError (List ℕ) :=
  match value.asList with
  | none => invalidField "asn.banned" "must be an array"
  | some items => items.mapM parseAsnItem

/-- The ASNs that a document with this `[asn]` section bans. -/
def bannedIn (asnEntries : Toml.Entries) : Except ConfigError (List ℕ) :=
  match asnEntries.lookup "banned" with
  | none => .ok []
  | some value => parseAsnListFromToml value

/-- The ASNs that the document of a text bans. -/
def ConfigLibrary.bannedAsns (library : ConfigLibrary) (contents : List Char) :
    Except ConfigError (List ℕ) :=
  match library.toml.parse contents with
  | .error reason => .error (.parse reason)
  | .ok document =>
    match Toml.tableAt "asn" document with
    | none => invalidField "asn" "must be a TOML table"
    | some entries => bannedIn entries

/-- The `[asn]` section with another list of banned ASNs. -/
def withBannedEntries (entries : Toml.Entries) (banned : List ℕ) : Toml.Entries :=
  let listed := Toml.insertEntry "banned" (.array (banned.map fun asn : ℕ => .integer asn)) entries
  if (listed.lookup "cache_stale_after_secs").isNone then
    Toml.insertEntry "cache_stale_after_secs" (.integer defaultAsnCacheStaleAfterSecs) listed
  else listed

/-- The document with another list of banned ASNs. -/
def withBanned (document entries : Toml.Entries) (banned : List ℕ) : Toml.Entries :=
  Toml.insertEntry "asn" (.table (withBannedEntries entries banned)) document

/-- The text with another list of banned ASNs. A text whose `[asn]` is no table is not
edited. -/
def ConfigLibrary.renderBanned (library : ConfigLibrary) (contents : List Char)
    (banned : List ℕ) : List Char :=
  match library.toml.parse contents with
  | .error _ => contents
  | .ok document =>
    match Toml.tableAt "asn" document with
    | none => contents
    | some entries => library.toml.print contents (withBanned document entries banned)

/-- The library as the workflows read and edit configurations with it. -/
def ConfigLibrary.format (library : ConfigLibrary) : ConfigFormat where
  fromTomlStr contents := (library.fromTomlStr contents).map ValidatedConfig.toSavedConfig
  bannedAsns := library.bannedAsns
  renderBanned := library.renderBanned

/-! ### Edits of a section -/

/-- `edit_error`. -/
def editError {α : Type} (reason : String) : Except AppError α :=
  .error (.configurationEdit reason)

/-- `array_mut`, and the change of the array. -/
def changeArray (sectionName key : String) (change : List Toml → List Toml)
    (document : Toml.Entries) : Except AppError Toml.Entries :=
  match Toml.tableAt sectionName document with
  | none => editError "configuration section is not a table"
  | some entries =>
    match Toml.arrayAt key entries with
    | none => editError "configuration setting is not an array"
    | some items =>
      .ok (Toml.insertEntry sectionName
        (.table (Toml.insertEntry key (.array (change items)) entries)) document)

/-- `set_boolean`. -/
def setBoolean (sectionName key : String) (setting : Bool) (document : Toml.Entries) :
    Except AppError Toml.Entries :=
  match Toml.tableAt sectionName document with
  | none => editError "configuration section is not a table"
  | some entries =>
    .ok (Toml.insertEntry sectionName
      (.table (Toml.insertEntry key (.boolean setting) entries)) document)

/-- The last item that denotes this, as it is spelled. -/
def preservedItem {κ : Type} [DecidableEq κ] (denotes : Toml → Option κ) (items : List Toml)
    (wanted : κ) : Option Toml :=
  items.reverse.find? fun item => decide (denotes item = some wanted)

/-! ### Sources -/

/-- `normalized_url`, as it is serialized. URLs are equal when their serializations are. -/
def ConfigLibrary.normalizedUrl (library : ConfigLibrary) (input : String) :
    Except AppError String :=
  match library.parseUrl (trim input.toList) with
  | none => editError "source must be an HTTP or HTTPS URL with a host"
  | some url =>
    if url.isHttp then .ok url.serialization
    else editError "source must be an HTTP or HTTPS URL with a host"

/-- The normalized URL of an item of the source list. -/
def ConfigLibrary.itemSource (library : ConfigLibrary) (item : Toml) : Option String :=
  item.asString.bind fun text => (library.normalizedUrl text).toOption

/-- A source as it is added: without white space around it. -/
def sourceItem (input : String) : Toml := .string (String.ofList (trim input.toList))

/-- `edit_source`. -/
def ConfigLibrary.editSource (library : ConfigLibrary) (existing : List String) (input : String)
    (add : Bool) (document : Toml.Entries) : Except AppError Toml.Entries := do
  let identity ← library.normalizedUrl input
  let present := existing.any fun url =>
    decide ((library.normalizedUrl url).toOption = some identity)
  if add && present then
    editError "source is already configured; use kidobo sources list to inspect it"
  else if !add && !present then return document
  else if add then changeArray "remote" "urls" (fun items => items ++ [sourceItem input]) document
  else
    changeArray "remote" "urls"
      (fun items => items.filter fun item => decide (library.itemSource item ≠ some identity))
      document

/-- `replace_sources`. A spelling that denotes a requested source is kept. -/
def ConfigLibrary.replaceSources (library : ConfigLibrary) (existing requested : List String)
    (document : Toml.Entries) : Except AppError Toml.Entries := do
  let oldIdentities ← existing.mapM library.normalizedUrl
  let identities ← requested.mapM library.normalizedUrl
  if oldIdentities = identities then return document
  else if ¬ identities.Nodup then editError "setup sources contain duplicate normalized URLs"
  else
    changeArray "remote" "urls"
      (fun items => (identities.zip requested).map fun (identity, input) =>
        (preservedItem library.itemSource items identity).getD (sourceItem input))
      document

/-! ### Exemptions -/

/-- `canonical_target`. -/
def canonicalTarget (input : String) : Except AppError CanonicalCidr :=
  match parseIpCidrStrict input.toList with
  | some target => .ok target
  | none => editError "safelist target must be one IPv4 or IPv6 address or CIDR"

/-- The network of an item of the safelist. -/
def itemNetwork (item : Toml) : Option CanonicalCidr :=
  item.asString.bind fun text => parseIpCidrStrict text.toList

/-- A network as it is added to the safelist. -/
def networkItem (target : CanonicalCidr) : Toml := .string target.display

/-- `edit_allow`. -/
def editAllow (existing : List CanonicalCidr) (input : String) (add : Bool)
    (document : Toml.Entries) : Except AppError Toml.Entries := do
  let identity ← canonicalTarget input
  let present := decide (identity ∈ existing)
  if add = present then return document
  else if add then changeArray "safe" "ips" (fun items => items ++ [networkItem identity]) document
  else
    changeArray "safe" "ips"
      (fun items => items.filter fun item => decide (itemNetwork item ≠ some identity)) document

/-- The ordered set of these networks. -/
def networkSet (networks : List CanonicalCidr) : List CanonicalCidr :=
  dedupAdjacent (sortUnstable networks)

/-- `replace_allow`. A spelling that denotes a requested network is kept. -/
def replaceAllow (existing : List CanonicalCidr) (requested : List String)
    (document : Toml.Entries) : Except AppError Toml.Entries := do
  let targets ← requested.mapM canonicalTarget
  let identities := networkSet targets
  if networkSet existing = identities then return document
  else
    changeArray "safe" "ips"
      (fun items => identities.map fun target =>
        (preservedItem itemNetwork items target).getD (networkItem target))
      document

/-! ### Commands -/

/-- The edit of a document that a command asks for. -/
def ConfigLibrary.editDocument (library : ConfigLibrary) (config : SavedConfig)
    (edit : ConfigurationEdit) (document : Toml.Entries) : Except AppError Toml.Entries :=
  match edit with
  | .addSource url => library.editSource config.remoteUrls url true document
  | .removeSource url => library.editSource config.remoteUrls url false document
  | .addAllow target => editAllow config.safeIps target true document
  | .removeAllow target => editAllow config.safeIps target false document
  | .setBasic enableIpv6 includeGithubMeta remoteUrls safeIps => do
    let withIpv6 ← (if config.ipset.enableIpv6 ≠ enableIpv6 then
      setBoolean "ipset" "enable_ipv6" enableIpv6 document else .ok document)
    let withMeta ← (if config.includeGithubMeta ≠ includeGithubMeta then
      setBoolean "safe" "include_github_meta" includeGithubMeta withIpv6 else .ok withIpv6)
    let withSources ← library.replaceSources config.remoteUrls remoteUrls withMeta
    replaceAllow config.safeIps safeIps withSources

/-- The library as the configuration workflow edits texts with it. -/
def ConfigLibrary.editor (library : ConfigLibrary) : ConfigurationEditor where
  edited config original edit :=
    match library.toml.parse original with
    | .error reason => .error (.configParse (.parse reason))
    | .ok document => do
      let edited ← library.editDocument config edit document
      return library.toml.print original edited

end Kidobo
