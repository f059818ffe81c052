import Kidobo.Cache.RemoteFeed
import Kidobo.Network.NormalForm

/-!
# GitHub metadata and its cache

The safelist of GitHub is a JSON document whose strings are searched for
networks, in all of it or in selected categories. Its cache keeps the category
selection beside the document. A fetched document is staged, and the best cached
networks stay available as a fallback; a preview reads the same and stages
nothing.

## Main definitions

* `parseAndExtractNetworks`: the networks of a document
* `readGithubMetaCache`: the first usable cached data and the next one behind it
* `prepareGithubMetaSafelist`, `readGithubMetaForPreview`
-/

namespace Kidobo

open Foundation FileProgram

/-! ### Documents -/

/-- A JSON value, as far as it is read. -/
inductive Json where
  | null
  | bool (value : Bool)
  | number
  | string (text : List Char)
  | array (values : List Json)
  | object (entries : List (String × Json))

/-- The categories that contribute networks. -/
inductive CategorySelection where
  | all
  | selected (categories : List String)
  deriving DecidableEq

/-- `GITHUB_META_MAX_ENTRIES`. -/
def githubMetaMaxEntries : ℕ := 4096

/-- `GITHUB_META_MIN_IPV4_PREFIX`. -/
def githubMetaMinIpv4Prefix : ℕ := 8

/-- `GITHUB_META_MIN_IPV6_PREFIX`. -/
def githubMetaMinIpv6Prefix : ℕ := 16

/-- `GITHUB_META_IPV4_COVERAGE_LIMIT`. -/
def githubMetaIpv4CoverageLimit : ℕ := 2 ^ 28

/-- `GITHUB_META_IPV6_COVERAGE_LIMIT`. -/
def githubMetaIpv6CoverageLimit : ℕ := 2 ^ 124

/-- `is_empty_container_tree`. -/
def Json.isEmptyContainerTree : Json → Bool
  | .array values => values.attach.all fun ⟨value, _⟩ => value.isEmptyContainerTree
  | .object entries => entries.attach.all fun ⟨entry, _⟩ => entry.2.isEmptyContainerTree
  | _ => false
termination_by value => sizeOf value
decreasing_by
  · rename_i member
    have smaller := List.sizeOf_lt_of_mem member
    simp only [Json.array.sizeOf_spec]
    omega
  · rename_i member
    have smaller := List.sizeOf_lt_of_mem member
    have value : sizeOf entry.2 < sizeOf entry := by
      cases entry
      simp
    simp only [Json.object.sizeOf_spec]
    omega

theorem sum_sizeOf_le (values : List Json) : (values.map sizeOf).sum ≤ sizeOf values := by
  induction values with
  | nil => simp
  | cons value rest ih =>
    simp only [List.map_cons, List.sum_cons, List.cons.sizeOf_spec]
    omega

/-- The values of an object. -/
def entryValues (entries : List (String × Json)) : List Json := entries.map Prod.snd

theorem sum_sizeOf_entryValues_le (entries : List (String × Json)) :
    ((entryValues entries).map sizeOf).sum ≤ sizeOf entries := by
  induction entries with
  | nil => simp [entryValues]
  | cons entry rest ih =>
    obtain ⟨key, value⟩ := entry
    simp only [entryValues, List.map_cons, List.sum_cons, List.cons.sizeOf_spec,
      Prod.mk.sizeOf_spec] at ih ⊢
    omega

/-- `collect_networks_recursively`: the networks of a queue of values. -/
def collectNetworks : List Json → List CanonicalCidr
  | [] => []
  | .string text :: rest => (parseIpCidrNonStrict text).toList ++ collectNetworks rest
  | .array values :: rest => collectNetworks (rest ++ values)
  | .object entries :: rest => collectNetworks (rest ++ entryValues entries)
  | .null :: rest | .bool _ :: rest | .number :: rest => collectNetworks rest
termination_by queue => (queue.map sizeOf).sum
decreasing_by
  · simp
  · have smaller := sum_sizeOf_le values
    simp only [List.map_append, List.sum_append, List.map_cons, List.sum_cons,
      Json.array.sizeOf_spec]
    omega
  · have smaller := sum_sizeOf_entryValues_le entries
    simp only [List.map_append, List.sum_append, List.map_cons, List.sum_cons,
      Json.object.sizeOf_spec]
    omega
  all_goals simp

/-- `extract_networks`. -/
def extractNetworks (value : Json) (selection : CategorySelection) : List CanonicalCidr :=
  dedupAdjacent (sortUnstable (
    match selection, value with
    | .all, value => collectNetworks [value]
    | .selected categories, .object root =>
      categories.flatMap fun category => collectNetworks (root.lookup category).toList
    | .selected _, _ => []))

/-- `1 << amount` in words of this many bits, which take the amount modulo their width. -/
def shiftedOne (bits amount : ℕ) : BitVec bits := BitVec.ofNat bits 1 <<< (amount % bits)

/-- `checked_add`. -/
def checkedAdd {bits : ℕ} (left right : BitVec bits) : Option (BitVec bits) :=
  if left.toNat + right.toNat < 2 ^ bits then some (left + right) else none

/-- How many addresses some networks of a family cover, added up in words of this many bits. -/
def coverageOf (bits : ℕ) {width : ℕ} (collapsed : List (Cidr width)) : Option (BitVec bits) :=
  (collapsed.map fun cidr => shiftedOne bits (width - cidr.prefixLen)).foldlM checkedAdd
    (BitVec.ofNat bits 0)

/-- Whether the prefix of a network is too short for the safelist. -/
def isTooWide : CanonicalCidr → Bool
  | .v4 cidr => cidr.prefixLen < githubMetaMinIpv4Prefix
  | .v6 cidr => cidr.prefixLen < githubMetaMinIpv6Prefix

/-- `github_meta_networks_within_envelope`. -/
def githubMetaNetworksWithinEnvelope (networks : List CanonicalCidr) : Bool :=
  if githubMetaMaxEntries < networks.length || networks.any isTooWide then false
  else
    let families := splitByFamily networks
    let ipv4Coverage := coverageOf 64 (collapseIpv4 families.ipv4)
    let ipv6Coverage := coverageOf 128 (collapseIpv6 families.ipv6)
    (ipv4Coverage.any fun coverage => coverage.toNat ≤ githubMetaIpv4CoverageLimit) &&
      ipv6Coverage.any fun coverage => coverage.toNat ≤ githubMetaIpv6CoverageLimit

/-- The values that must not be empty by accident: the selected ones, or all. -/
def selectedValues (value : Json) : CategorySelection → Option (List Json)
  | .all => some [value]
  | .selected categories =>
    match value with
    | .object root => categories.mapM fun category => root.lookup category
    | _ => none

/-- What is taken of a parsed document. -/
def networksOfValue (value : Json) (selection : CategorySelection) : Option (List CanonicalCidr) := do
  let values ← selectedValues value selection
  let networks := extractNetworks value selection
  if networks.isEmpty && !values.all Json.isEmptyContainerTree then none
  else if githubMetaNetworksWithinEnvelope networks then some networks
  else none

/-! ### Cached data -/

/-- `GITHUB_META_CACHE_READ_LIMIT`. -/
def githubMetaCacheReadLimit : ℕ := 8 * 1024 * 1024

/-- `GITHUB_META_META_READ_LIMIT`. -/
def githubMetaMetaReadLimit : ℕ := 512 * 1024

/-- `GITHUB_META_CATEGORY_READ_LIMIT`. -/
def githubMetaCategoryReadLimit : ℕ := 256 * 1024

/-- `DEFAULT_GITHUB_META_URL`. -/
def defaultGithubMetaUrl : String := "https://api.github.com/meta"

/-- `DEFAULT_GITHUB_META_CATEGORIES`. -/
def defaultGithubMetaCategories : List String := ["api", "git", "hooks", "packages"]

/-- Validators and checksum of a cached document. -/
structure GithubMetaCacheMetadata where
  url : String
  etag : Option String
  lastModified : Option String
  sha256Raw : String
  deriving DecidableEq

/-- The category selection beside a cached document. -/
structure GithubMetaCategorySidecar where
  mode : String
  categories : List String
  deriving DecidableEq

/-- Where the networks come from. -/
inductive GithubMetaSource where
  | network
  | cacheNotModified
  | fallbackCache
  | empty
  deriving DecidableEq

/-- Networks with their provenance. -/
structure GithubMetaLoadResult where
  networks : List CanonicalCidr
  source : GithubMetaSource
  metadata : Option GithubMetaCacheMetadata
  deriving DecidableEq

/-- The JSON library also reads and writes what belongs to a document. -/
structure GithubCodec extends GenerationCodec where
  parseValue : Bytes → Option Json
  parseMetadata : Bytes → Option GithubMetaCacheMetadata
  renderMetadata : GithubMetaCacheMetadata → Bytes
  parseSidecar : Bytes → Option GithubMetaCategorySidecar
  renderSidecar : GithubMetaCategorySidecar → Bytes

/-- The configured categories. -/
inductive GithubMetaCategoryMode where
  | default
  | all
  | explicit (values : List String)

/-- `normalize_categories`. -/
def normalizeCategories (values : List String) : List String :=
  dedupAdjacent (sortUnstable (values.filterMap fun value =>
    let normalized := (trim value.toList).map Char.toLower
    if normalized.isEmpty then none else some (String.ofList normalized)))

namespace CategorySelection

/-- `from_mode`. -/
def fromMode : GithubMetaCategoryMode → CategorySelection
  | .all => .all
  | .default => .selected (normalizeCategories defaultGithubMetaCategories)
  | .explicit values => .selected (normalizeCategories values)

/-- `to_sidecar`. -/
def toSidecar : CategorySelection → GithubMetaCategorySidecar
  | .all => ⟨"all", []⟩
  | .selected categories => ⟨"selected", categories⟩

end CategorySelection

/-- `cache_scope_compatible`. -/
def cacheScopeCompatible : CategorySelection → Option GithubMetaCategorySidecar → Bool
  | .all, _ => true
  | .selected _, none => false
  | .selected categories, some sidecar =>
    sidecar.mode == "selected" && normalizeCategories sidecar.categories == categories

/-- `github_meta_cache_url_matches`. -/
def githubMetaCacheUrlMatches (metadata : GithubMetaCacheMetadata) (configuredUrl : String) :
    Bool :=
  trim metadata.url.toList == trim configuredUrl.toList

/-- The files of cached GitHub data. -/
structure GithubCachePaths where
  raw : Path
  metadata : Path
  categorySidecar : Path
  generationStore : Path

/-- `from_cache_dir`. -/
def GithubCachePaths.fromCacheDir (cacheDir : Path) : GithubCachePaths where
  raw := cacheDir ++ ["github-meta.raw.json"]
  metadata := cacheDir ++ ["github-meta.meta.json"]
  categorySidecar := cacheDir ++ ["github-meta.categories.json"]
  generationStore := cacheDir ++ ["v2", "github-meta"]

/-- The files of a cached generation. -/
def GithubCachePaths.ofGeneration (paths : GithubCachePaths) (directory : Path) :
    GithubCachePaths where
  raw := directory ++ ["raw.json"]
  metadata := directory ++ ["meta.json"]
  categorySidecar := directory ++ ["categories.json"]
  generationStore := paths.generationStore

/-- The files of a GitHub generation. -/
def githubGenerationLimits : List GenerationFileLimit :=
  [⟨"raw.json", githubMetaCacheReadLimit⟩, ⟨"meta.json", githubMetaMetaReadLimit⟩,
    ⟨"categories.json", githubMetaCategoryReadLimit⟩]

/-- What the cache offers, with the next usable data behind it. -/
structure GithubMetaCache where
  networks : Option (List CanonicalCidr)
  metadata : Option GithubMetaCacheMetadata
  generationId : Option String
  previous : Option GithubMetaLoadResult

namespace GithubMetaCache

/-- `http_validators`. -/
def httpValidators (cache : GithubMetaCache) : Option String × Option String :=
  match cache.metadata with
  | none => (none, none)
  | some metadata => (metadata.etag, metadata.lastModified)

/-- `into_fallback_result`. -/
def intoFallbackResult (cache : GithubMetaCache) : Option GithubMetaLoadResult :=
  cache.networks.map fun networks => ⟨networks, .fallbackCache, cache.metadata⟩

end GithubMetaCache

section Codec

variable (codec : GithubCodec)

/-- `parse_and_extract_networks`. -/
def parseAndExtractNetworks (raw : Bytes) (selection : CategorySelection) :
    Option (List CanonicalCidr) := do
  let value ← codec.parseValue raw
  networksOfValue value selection

/-- `read_github_meta_cache_files`. -/
def readGithubMetaCacheFiles (files : FileSystem) (paths : GithubCachePaths)
    (selection : CategorySelection) (url : String) (requireMetadata : Bool) : GithubMetaCache :=
  let cachedMeta :=
    readOptionalJsonLossy codec.parseMetadata files paths.metadata githubMetaMetaReadLimit
  let cacheUrlMatches :=
    match cachedMeta with
    | some metadata => githubMetaCacheUrlMatches metadata url
    | none => !requireMetadata && url == defaultGithubMetaUrl
  let metadata := if cacheUrlMatches then cachedMeta else none
  let raw :=
    if cacheUrlMatches then
      readValidatedBytesLossy codec.toGenerationCodec files paths.raw githubMetaCacheReadLimit
        (metadata.map GithubMetaCacheMetadata.sha256Raw)
    else none
  let sidecar :=
    if cacheUrlMatches then
      readOptionalJsonLossy codec.parseSidecar files paths.categorySidecar
        githubMetaCategoryReadLimit
    else none
  let networks :=
    if requireMetadata && (metadata.isNone || sidecar.isNone) then none
    else if cacheScopeCompatible selection sidecar then
      raw.bind fun contents => parseAndExtractNetworks codec contents selection
    else none
  ⟨networks, metadata, none, none⟩

/-- What a candidate generation offers. -/
def githubCandidate (files : FileSystem) (paths : GithubCachePaths)
    (selection : CategorySelection) (url : String) (candidate : GenerationCandidate) :
    Option GithubMetaCache :=
  if generationContentsMatch codec.toGenerationCodec files candidate githubGenerationLimits then
    let cache := readGithubMetaCacheFiles codec files (paths.ofGeneration candidate.directory)
      selection url true
    if cache.networks.isSome then some { cache with generationId := some candidate.id } else none
  else none

/-- `read_github_meta_cache`: the first usable generation with the next one, or
the legacy data, behind it. -/
def readGithubMetaCache (files : FileSystem) (paths : GithubCachePaths)
    (selection : CategorySelection) (url : String) : GithubMetaCache :=
  let candidates := generationCandidates codec.toGenerationCodec files paths.generationStore
  let legacy := readGithubMetaCacheFiles codec files paths selection url false
  match candidates.filterMap (githubCandidate codec files paths selection url) with
  | [] => legacy
  | [primary] => { primary with previous := legacy.intoFallbackResult }
  | primary :: second :: _ => { primary with previous := second.intoFallbackResult }

end Codec

/-! ### Preparing the safelist -/

/-- Failure to persist a generation. -/
inductive GithubMetaLoadError where
  | writeCacheFile (path : Path) (reason : String)

/-- The networks of GitHub, a fallback, and the generation to promote. -/
structure PreparedGithubMetaLoad where
  primary : GithubMetaLoadResult
  fallback : Option GithubMetaLoadResult
  pendingPromotion : Option StagedGeneration
  stagingFailure : Option GithubMetaLoadError

/-- `prepared_github_fallback`. -/
def preparedGithubFallback (cached : GithubMetaCache) : PreparedGithubMetaLoad :=
  let (networks, source) :=
    match cached.networks with
    | some networks => (networks, GithubMetaSource.fallbackCache)
    | none => ([], GithubMetaSource.empty)
  ⟨⟨networks, source, cached.metadata⟩, cached.previous, none, none⟩

section Codec

variable (codec : GithubCodec)

/-- `validate_github_response`. -/
def validateGithubResponse (response : HttpResponse) (maxBytes : ℕ)
    (selection : CategorySelection) : Option (List CanonicalCidr) :=
  if !response.isSuccess then none
  else if maxBytes < response.body.length then none
  else parseAndExtractNetworks codec response.body selection

/-- `stage_cache`, returning what became of it. -/
def stageGithubCache {ε : Type} (paths : GithubCachePaths) (raw : Bytes)
    (metadata : GithubMetaCacheMetadata) (selection : CategorySelection)
    (previousGeneration : Option String) :
    CacheProgram ε (Except GithubMetaLoadError StagedGeneration) := do
  let staged ← CacheProgram.onFiles (stageGeneration codec.toGenerationCodec
    paths.generationStore
    [⟨"raw.json", raw⟩, ⟨"categories.json", codec.renderSidecar selection.toSidecar⟩,
      ⟨"meta.json", codec.renderMetadata metadata⟩] previousGeneration)
  return staged.mapError fun error =>
    .writeCacheFile (manifestPath paths.generationStore) (IoError.text error)

/-- `handle_network_response`. -/
def handleGithubResponse (response : HttpResponse) (paths : GithubCachePaths) (url : String)
    (maxBytes : ℕ) (cached : GithubMetaCache) (selection : CategorySelection) :
    CacheProgram GithubMetaLoadError PreparedGithubMetaLoad := do
  match validateGithubResponse codec response maxBytes selection with
  | none => return preparedGithubFallback cached
  | some networks =>
    let metadata : GithubMetaCacheMetadata :=
      { url := url
        etag := response.etag
        lastModified := response.lastModified
        sha256Raw := codec.sha256Hex response.body }
    match ← stageGithubCache codec paths response.body metadata selection cached.generationId with
    | .ok promotion =>
      return {
        primary := ⟨networks, .network, some metadata⟩
        fallback := cached.intoFallbackResult
        pendingPromotion := some promotion
        stagingFailure := none }
    | .error error =>
      let fallback := preparedGithubFallback cached
      if fallback.primary.source = .empty then throw error
      else return { fallback with stagingFailure := some error }

/-- `prepare_github_meta_safelist`. -/
def prepareGithubMetaSafelist (cacheDir : Path) (url : String) (mode : GithubMetaCategoryMode)
    (env : List (String × String)) : CacheProgram GithubMetaLoadError PreparedGithubMetaLoad := do
  let selection := CategorySelection.fromMode mode
  let maxBytes := min (maxHttpBodyBytes env) githubMetaCacheReadLimit
  let paths := GithubCachePaths.fromCacheDir cacheDir
  let _ ← CacheProgram.onFiles
    (cleanupUnselectedGenerations codec.toGenerationCodec paths.generationStore)
  let files ← CacheProgram.look
  let cache := readGithubMetaCache codec files paths selection url
  let (etag, lastModified) := cache.httpValidators
  match ← fetchWithConditionalCache url maxBytes etag lastModified cache.networks.isSome with
  | .cacheNotModified =>
    match cache.networks with
    | some networks =>
      return ⟨⟨networks, .cacheNotModified, cache.metadata⟩, cache.previous, none, none⟩
    | none => return preparedGithubFallback cache
  | .fallbackCache => return preparedGithubFallback cache
  | .network response => handleGithubResponse codec response paths url maxBytes cache selection

end Codec

/-! ### Previewing the safelist -/

/-- Networks that a preview may use. -/
structure ReadOnlyGithubBatch where
  networks : List CanonicalCidr
  provenance : SourceProvenance

/-- The networks of GitHub and a fallback, for a preview. -/
structure ReadOnlyGithubMeta where
  primary : ReadOnlyGithubBatch
  fallback : Option (List CanonicalCidr)
  notices : List Notice

/-- `read_only_github_cached`. -/
def readOnlyGithubCached (cache : GithubMetaCache) (provenance : SourceProvenance)
    (offline : Bool) : ReadOnlyGithubMeta :=
  let fallback := cache.previous.map GithubMetaLoadResult.networks
  match cache.networks with
  | none =>
    { primary := ⟨[], .unavailable⟩
      fallback := fallback
      notices := [.ofWarning "no compatible GitHub metadata is available for this preview"] }
  | some networks =>
    { primary := ⟨networks, provenance⟩
      fallback := fallback
      notices :=
        if offline then
          [⟨.info, "preview uses validated cached GitHub metadata without refreshing it; " ++
            "freshness is unknown"⟩]
        else if provenance = .fallbackCache then
          [.ofWarning ("GitHub metadata refresh was unavailable or rejected; preview uses " ++
            "validated cached data")]
        else [] }

/-- `read_github_meta_for_preview`; without network access it only reads. -/
def readGithubMetaForPreview {ε : Type} (codec : GithubCodec) (allowNetwork : Bool)
    (cacheDir : Path) (url : String) (mode : GithubMetaCategoryMode)
    (env : List (String × String)) : CacheProgram ε ReadOnlyGithubMeta := do
  let selection := CategorySelection.fromMode mode
  let files ← CacheProgram.look
  let cache := readGithubMetaCache codec files (.fromCacheDir cacheDir) selection url
  if !allowNetwork then return readOnlyGithubCached cache .cache true
  else
    let maxBytes := min (maxHttpBodyBytes env) githubMetaCacheReadLimit
    let (etag, modified) := cache.httpValidators
    match ← fetchWithConditionalCache url maxBytes etag modified cache.networks.isSome with
    | .cacheNotModified => return readOnlyGithubCached cache .cache false
    | .fallbackCache => return readOnlyGithubCached cache .fallbackCache false
    | .network response =>
      match validateGithubResponse codec response maxBytes selection with
      | none => return readOnlyGithubCached cache .fallbackCache false
      | some networks =>
        return {
          primary := ⟨networks, .network⟩
          fallback := cache.intoFallbackResult.map GithubMetaLoadResult.networks
          notices := [] }

end Kidobo
