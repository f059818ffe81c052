import Kidobo.Cache.Generation
import Kidobo.Foundation.Utf8
import Kidobo.App.Ports
import Kidobo.Network.Notation

/-!
# Remote feeds and their cache

A feed is fetched conditionally, validated, and staged as a new generation; any
failure on the way falls back to the cached networks. A preview reads the same
cache and the same response, and stages nothing.

## Main definitions

* `parseRemoteCidrsBounded`, `formatNormalizedCidrs`: the text of a feed
* `fetchWithConditionalCache`: at most two requests
* `readRemoteCache`: the first usable cached data
* `prepareIplistWithCacheLimit`, `readIplistForPreviewWithLimit`
-/

namespace Kidobo

open Foundation FileProgram

/-! ### The text of a feed -/

/-- How much of a feed is accepted. -/
structure RemoteFeedLimits where
  dataLines : ℕ
  uniqueCidrs : ℕ

/-- `from_maxelem`. -/
def RemoteFeedLimits.fromMaxelem (maxelem : ℕ) : RemoteFeedLimits :=
  let doubled := maxelem * 2
  { dataLines := max 16384 (min doubled 1000000)
    uniqueCidrs := max 4096 (min doubled 1000000) }

/-- The budget that a feed exceeds. -/
inductive RemoteParseBudget where
  | dataLines (observed limit : ℕ)
  | uniqueCidrs (observed limit : ℕ)

/-- The networks of a feed and how many lines it took. -/
structure ParsedRemoteCidrs where
  networks : List CanonicalCidr
  dataLines : ℕ
  invalidLines : ℕ

/-- A line of a feed without byte order marks and surrounding white space. -/
def feedLine (line : List Char) : List Char := trim (line.dropWhile (· == '\uFEFF'))

/-- The first word of the first column. -/
def firstToken (line : List Char) : Option (List Char) :=
  (splitWhitespace (((splitOnce ',' line).map Prod.fst).getD line)).head?

/-- What has been read of a feed. -/
structure FeedProgress where
  parsed : SortedMap CanonicalCidr Unit
  dataLines : ℕ
  invalidLines : ℕ

/-- Read the lines of a feed one after another. -/
def readFeedLines (limits : RemoteFeedLimits) :
    List (List Char) → FeedProgress → Except RemoteParseBudget FeedProgress
  | [], progress => .ok progress
  | line :: rest, progress =>
    let withoutBom := feedLine line
    if withoutBom.isEmpty || withoutBom.head? == some '#' then readFeedLines limits rest progress
    else
      let counted := { progress with dataLines := progress.dataLines + 1 }
      if limits.dataLines < counted.dataLines then
        .error (.dataLines counted.dataLines limits.dataLines)
      else
        match firstToken withoutBom with
        | none => readFeedLines limits rest counted
        | some token =>
          match parseIpCidrNonStrict token with
          | none =>
            readFeedLines limits rest { counted with invalidLines := counted.invalidLines + 1 }
          | some cidr =>
            let parsed := counted.parsed.insert cidr ()
            if limits.uniqueCidrs < parsed.entries.length then
              .error (.uniqueCidrs parsed.entries.length limits.uniqueCidrs)
            else readFeedLines limits rest { counted with parsed := parsed }

/-- `parse_remote_cidrs_bounded`. -/
def parseRemoteCidrsBounded (raw : Bytes) (limits : RemoteFeedLimits) :
    Except RemoteParseBudget ParsedRemoteCidrs := do
  let progress ← readFeedLines limits (lines (fromUtf8Lossy raw)) ⟨.empty, 0, 0⟩
  return ⟨progress.parsed.keys, progress.dataLines, progress.invalidLines⟩

/-- `parse_cached_iplist_bounded`. -/
def parseCachedIplistBounded (iplist : Bytes) (limits : RemoteFeedLimits) :
    Except RemoteParseBudget (List CanonicalCidr) := do
  let parsed ← parseRemoteCidrsBounded iplist limits
  return parsed.networks

/-- `format_normalized_cidrs`. -/
def formatNormalizedCidrs (cidrs : List CanonicalCidr) : String :=
  "\n".intercalate (cidrs.map CanonicalCidr.display)

/-! ### Conditional requests -/

/-- `DEFAULT_MAX_HTTP_BODY_BYTES`. -/
def defaultMaxHttpBodyBytes : ℕ := 8 * 1024 * 1024

/-- `MAX_HTTP_BODY_BYTES`. -/
def maxHttpBodyBytesCeiling : ℕ := 32 * 1024 * 1024

/-- `max_http_body_bytes`. -/
def maxHttpBodyBytes (env : List (String × String)) : ℕ :=
  match ((env.lookup "KIDOBO_MAX_HTTP_BODY_BYTES").bind fun value =>
      parseUsize (trim value.toList)).filter (0 < ·) with
  | some value => min value maxHttpBodyBytesCeiling
  | none => defaultMaxHttpBodyBytes

/-- One bounded conditional request. -/
structure HttpRequest where
  url : String
  ifNoneMatch : Option String
  ifModifiedSince : Option String
  maxBodyBytes : ℕ
  deriving DecidableEq

/-- A response with its cache validators. -/
structure HttpResponse where
  status : ℕ
  body : Bytes
  etag : Option String
  lastModified : Option String
  deriving DecidableEq

/-- Failure of a request. -/
inductive HttpClientError where
  | initialization (reason : String)
  | request (reason : String)
  deriving DecidableEq

/-- One operation of a source adapter. -/
inductive CacheOp where
  | files (op : FileOp)
  | fetch (request : HttpRequest)

/-- What each operation answers. -/
@[reducible] def CacheOp.Result : CacheOp → Type
  | files op => op.Result
  | fetch _ => Except HttpClientError HttpResponse

/-- A program of a source adapter. -/
abbrev CacheProgram (ε α : Type) := Program CacheOp CacheOp.Result ε α

namespace CacheProgram

variable {ε α : Type}

/-- Run a program on files and return how it ended. -/
def onFiles (program : FileProgram α) : CacheProgram ε (Except IoError α) :=
  (program.embed CacheOp.files fun _ answer => answer).attempt

/-- Issue an operation. -/
def perform (op : CacheOp) : CacheProgram ε op.Result := Program.perform op

/-- Look at the file system. -/
def look : CacheProgram ε FileSystem := perform (.files .look)

/-- Make a request. -/
def fetch (request : HttpRequest) : CacheProgram ε (Except HttpClientError HttpResponse) :=
  perform (.fetch request)

end CacheProgram

/-- What a conditional request leads to. -/
inductive ConditionalFetchResult where
  | network (response : HttpResponse)
  | cacheNotModified
  | fallbackCache

/-- `fetch_with_conditional_cache`. -/
def fetchWithConditionalCache {ε : Type} (url : String) (maxBodyBytes : ℕ)
    (etag lastModified : Option String) (hasUsableCache : Bool) :
    CacheProgram ε ConditionalFetchResult := do
  match ← CacheProgram.fetch ⟨url, etag, lastModified, maxBodyBytes⟩ with
  | .error _ => return .fallbackCache
  | .ok response =>
    if response.status ≠ 304 then return .network response
    else if hasUsableCache then return .cacheNotModified
    else
      -- without a usable cache nothing is unchanged: ask again without validators
      match ← CacheProgram.fetch ⟨url, none, none, maxBodyBytes⟩ with
      | .ok response => return .network response
      | .error _ => return .fallbackCache

/-! ### Cached data -/

/-- `MAX_IPLIST_READ_BYTES`. -/
def maxIplistReadBytes : ℕ := 16 * 1024 * 1024

/-- `MAX_METADATA_READ_BYTES`. -/
def maxMetadataReadBytes : ℕ := 512 * 1024

/-- URL, validators, and checksums bound to a cached feed. -/
structure RemoteCacheMetadata where
  url : String
  etag : Option String
  lastModified : Option String
  sha256Raw : String
  sha256Iplist : String
  deriving DecidableEq

/-- The JSON library also reads and writes the metadata of a feed. -/
structure RemoteCodec extends GenerationCodec where
  parseMetadata : Bytes → Option RemoteCacheMetadata
  renderMetadata : RemoteCacheMetadata → Bytes

/-- The files of cached feed data. -/
structure CachePaths where
  iplistPath : Path
  metaPath : Path
  rawPath : Path

/-- Failure to read cached data or to commit a generation. -/
inductive HttpCacheError where
  | writeMetadata (path : Path) (reason : String)
  | readIplist (path : Path) (reason : IoError)

/-- `read_optional_json_lossy`. -/
def readOptionalJsonLossy {α : Type} (parse : Bytes → Option α) (files : FileSystem) (path : Path)
    (readLimit : ℕ) : Option α :=
  (readBytesWithLimit files path readLimit).toOption.bind parse

section Codec

variable (codec : RemoteCodec)

/-- `url_hash_prefix`. -/
def urlHashPrefix (url : String) : String := String.ofList ((codec.sha256Hex (utf8 url)).toList.take 16)

/-- `cache_paths_for_url`. -/
def cachePathsForUrl (cacheDir : Path) (url : String) : CachePaths :=
  let hash := urlHashPrefix codec url
  { iplistPath := cacheDir ++ [s!"{hash}.iplist"]
    metaPath := cacheDir ++ [s!"{hash}.meta.json"]
    rawPath := cacheDir ++ [s!"{hash}.raw"] }

/-- `remote_generation_store`. -/
def remoteGenerationStore (cacheDir : Path) (url : String) : Path :=
  cacheDir ++ ["v2", "remote", urlHashPrefix codec url]

/-- The files of a feed generation. -/
def remoteGenerationLimits (rawReadLimit : ℕ) : List GenerationFileLimit :=
  [⟨"raw", rawReadLimit⟩, ⟨"iplist", maxIplistReadBytes⟩, ⟨"meta.json", maxMetadataReadBytes⟩]

/-- `remote_generation_contents_match`. -/
def remoteGenerationContentsMatch (files : FileSystem) (candidate : GenerationCandidate)
    (rawReadLimit : ℕ) : Bool :=
  generationContentsMatch codec.toGenerationCodec files candidate
    (remoteGenerationLimits rawReadLimit)

/-- `read_validated_bytes_lossy`. -/
def readValidatedBytesLossy (codec : GenerationCodec) (files : FileSystem) (path : Path)
    (readLimit : ℕ) (expectedSha256 : Option String) : Option Bytes :=
  match (readBytesWithLimit files path readLimit).toOption with
  | none => none
  | some bytes =>
    if expectedSha256.any fun expected => codec.sha256Hex bytes != expected then none
    else some bytes

/-- `read_to_string_with_limit`, the text as its bytes. -/
def readTextWithLimit (files : FileSystem) (path : Path) (limit : ℕ) : Except IoError Bytes :=
  match readBytesWithLimit files path limit with
  | .error error => .error error
  | .ok bytes =>
    if (fromUtf8 bytes).isSome then .ok bytes else .error (.failed "invalid utf-8 sequence")

/-- `read_validated_remote_generation`. -/
def readValidatedRemoteGeneration (files : FileSystem) (directory : Path)
    (expectedUrl : Option String) (rawReadLimit : ℕ) : Option (Bytes × RemoteCacheMetadata) := do
  let metadata ← readOptionalJsonLossy codec.parseMetadata files (directory ++ ["meta.json"])
    maxMetadataReadBytes
  let normalizedUrl := trim metadata.url.toList
  if normalizedUrl.isEmpty || expectedUrl.any fun expected => normalizedUrl != trim expected.toList
  then none
  else
    let _ ← readValidatedBytesLossy codec.toGenerationCodec files (directory ++ ["raw"])
      rawReadLimit (some metadata.sha256Raw)
    let iplist ← (readTextWithLimit files (directory ++ ["iplist"]) maxIplistReadBytes).toOption
    if codec.sha256Hex iplist ≠ metadata.sha256Iplist then none else some (iplist, metadata)

/-- What the cache offers. -/
structure LoadedRemoteCache where
  networks : Option (List CanonicalCidr)
  metadata : Option RemoteCacheMetadata
  generationId : Option String
  deriving DecidableEq

/-- `read_optional_iplist_networks`. -/
def readOptionalIplistNetworks (files : FileSystem) (paths : CachePaths)
    (metadata : Option RemoteCacheMetadata) (feedLimits : RemoteFeedLimits) :
    Except HttpCacheError (Option (List CanonicalCidr)) :=
  match readTextWithLimit files paths.iplistPath maxIplistReadBytes with
  | .error .notFound => .ok none
  | .error error => .error (.readIplist paths.iplistPath error)
  | .ok iplist =>
    if metadata.any fun known => codec.sha256Hex iplist != known.sha256Iplist then .ok none
    else .ok (parseCachedIplistBounded iplist feedLimits).toOption

/-- What a candidate generation offers. -/
def remoteCandidate (files : FileSystem) (url : String) (rawReadLimit : ℕ)
    (feedLimits : RemoteFeedLimits) (candidate : GenerationCandidate) :
    Option LoadedRemoteCache := do
  if remoteGenerationContentsMatch codec files candidate rawReadLimit then
    let (iplist, metadata) ←
      readValidatedRemoteGeneration codec files candidate.directory (some url) rawReadLimit
    let networks ← (parseCachedIplistBounded iplist feedLimits).toOption
    return ⟨some networks, some metadata, some candidate.id⟩
  else none

/-- `read_remote_cache`. -/
def readRemoteCache (files : FileSystem) (cacheDir : Path) (url : String)
    (legacyPaths : CachePaths) (rawReadLimit : ℕ) (feedLimits : RemoteFeedLimits) :
    Except HttpCacheError LoadedRemoteCache :=
  let candidates :=
    generationCandidates codec.toGenerationCodec files (remoteGenerationStore codec cacheDir url)
  match candidates.findSome? (remoteCandidate codec files url rawReadLimit feedLimits) with
  | some loaded => .ok loaded
  | none => do
    let metadata := readOptionalJsonLossy codec.parseMetadata files legacyPaths.metaPath
      maxMetadataReadBytes
    let networks ← readOptionalIplistNetworks codec files legacyPaths metadata feedLimits
    return ⟨networks, metadata, none⟩

/-- The validators of cached data. -/
def LoadedRemoteCache.validators (cached : LoadedRemoteCache) : Option String × Option String :=
  match cached.metadata with
  | none => (none, none)
  | some metadata => (metadata.etag, metadata.lastModified)

end Codec

/-! ### Validating a response -/

/-- Networks of a response and their normalized text. -/
structure ValidatedRemoteResponse where
  networks : List CanonicalCidr
  normalized : String

/-- `StatusCode::is_success`. -/
def HttpResponse.isSuccess (response : HttpResponse) : Bool :=
  200 ≤ response.status && response.status < 300

/-- `validate_remote_response`. -/
def validateRemoteResponse (response : HttpResponse) (maxBytes : ℕ)
    (feedLimits : RemoteFeedLimits) : Option ValidatedRemoteResponse :=
  if !response.isSuccess then none
  else if maxBytes < response.body.length then none
  else
    match parseRemoteCidrsBounded response.body feedLimits with
    | .error _ => none
    | .ok parsed =>
      if 0 < parsed.dataLines && parsed.networks.isEmpty then none
      else some ⟨parsed.networks, formatNormalizedCidrs parsed.networks⟩

/-- Failure of a preview. -/
inductive ReadOnlyIplistError where
  | cacheRead (error : HttpCacheError)
  | normalizedLimit (bytes limit : ℕ)

/-- `ensure_normalized_size`. -/
def ensureNormalizedSize (bytes limit : ℕ) : Except ReadOnlyIplistError Unit :=
  if limit < bytes then .error (.normalizedLimit bytes limit) else .ok ()

/-! ### Preparing a feed -/

/-- Where the networks of a feed come from. -/
inductive CacheSource where
  | network
  | cacheNotModified
  | fallbackCache
  | empty
  deriving DecidableEq

/-- The networks of a feed. -/
structure CachedIplist where
  networks : List CanonicalCidr
  source : CacheSource
  metadata : Option RemoteCacheMetadata
  deriving DecidableEq

/-- The networks of a feed and the generation to promote with them. -/
structure PreparedCachedIplist where
  loaded : CachedIplist
  pendingPromotion : Option StagedGeneration

/-- `cache_fallback`. -/
def cacheFallback (networks : Option (List CanonicalCidr)) (metadata : Option RemoteCacheMetadata) :
    CachedIplist :=
  match networks with
  | some networks => ⟨networks, .fallbackCache, metadata⟩
  | none => ⟨[], .empty, metadata⟩

/-- `prepared_fallback`. -/
def preparedFallback (networks : Option (List CanonicalCidr))
    (metadata : Option RemoteCacheMetadata) : PreparedCachedIplist :=
  ⟨cacheFallback networks metadata, none⟩

section Codec

variable (codec : RemoteCodec)

/-- The text of a size failure. -/
def normalizedLimitText (bytes limit : ℕ) : String :=
  s!"normalized iplist size {bytes} exceeds {limit} byte limit"

/-- The text of a file failure. -/
def IoError.text : IoError → String
  | .notFound => "not found"
  | .alreadyExists => "already exists"
  | .failed reason => reason

/-- `stage_cache`, returning what became of it. -/
def stageRemoteCache {ε : Type} (cacheDir : Path) (url iplist : String) (raw : Bytes)
    (metadata : RemoteCacheMetadata) (previousGeneration : Option String) (maxIplistBytes : ℕ) :
    CacheProgram ε (Except HttpCacheError StagedGeneration) := do
  let store := remoteGenerationStore codec cacheDir url
  match ensureNormalizedSize (utf8 iplist).length maxIplistBytes with
  | .error _ =>
    return .error (.writeMetadata (manifestPath store)
      (normalizedLimitText (utf8 iplist).length maxIplistBytes))
  | .ok _ =>
    let staged ← CacheProgram.onFiles (stageGeneration codec.toGenerationCodec store
      [⟨"raw", raw⟩, ⟨"iplist", utf8 iplist⟩, ⟨"meta.json", codec.renderMetadata metadata⟩]
      previousGeneration)
    return staged.mapError fun error => .writeMetadata (manifestPath store) (IoError.text error)

/-- What a refresh works with. -/
structure RemoteRefreshContext where
  url : String
  cacheDir : Path
  maxBytes : ℕ
  previousGeneration : Option String
  feedLimits : RemoteFeedLimits
  maxIplistBytes : ℕ

/-- `handle_network_response`. -/
def handleRemoteResponse (response : HttpResponse) (cachedNetworks : Option (List CanonicalCidr))
    (cachedMeta : Option RemoteCacheMetadata) (context : RemoteRefreshContext) :
    CacheProgram HttpCacheError PreparedCachedIplist := do
  match validateRemoteResponse response context.maxBytes context.feedLimits with
  | none => return preparedFallback cachedNetworks cachedMeta
  | some validated =>
    let metadata : RemoteCacheMetadata :=
      { url := context.url
        etag := response.etag
        lastModified := response.lastModified
        sha256Raw := codec.sha256Hex response.body
        sha256Iplist := codec.sha256Hex (utf8 validated.normalized) }
    match ← stageRemoteCache codec context.cacheDir context.url validated.normalized response.body
        metadata context.previousGeneration context.maxIplistBytes with
    | .ok promotion =>
      return ⟨⟨validated.networks, .network, some metadata⟩, some promotion⟩
    | .error error =>
      if cachedNetworks.isSome then return preparedFallback cachedNetworks cachedMeta
      else throw error

/-- `prepare_iplist_with_cache_limit`. -/
def prepareIplistWithCacheLimit (url : String) (cacheDir : Path) (env : List (String × String))
    (maxelem maxIplistBytes : ℕ) : CacheProgram HttpCacheError PreparedCachedIplist := do
  let maxBytes := maxHttpBodyBytes env
  let feedLimits := RemoteFeedLimits.fromMaxelem maxelem
  let cachePaths := cachePathsForUrl codec cacheDir url
  let _ ← CacheProgram.onFiles
    (cleanupUnselectedGenerations codec.toGenerationCodec (remoteGenerationStore codec cacheDir url))
  let files ← CacheProgram.look
  let cached ← Program.ofExcept
    (readRemoteCache codec files cacheDir url cachePaths maxHttpBodyBytesCeiling feedLimits)
  let (etag, lastModified) := cached.validators
  match ← fetchWithConditionalCache url maxBytes etag lastModified cached.networks.isSome with
  | .cacheNotModified =>
    match cached.networks with
    | some networks => return ⟨⟨networks, .cacheNotModified, cached.metadata⟩, none⟩
    | none => return ⟨⟨[], .empty, none⟩, none⟩
  | .fallbackCache => return preparedFallback cached.networks cached.metadata
  | .network response =>
    handleRemoteResponse codec response cached.networks cached.metadata
      { url := url
        cacheDir := cacheDir
        maxBytes := maxBytes
        previousGeneration := cached.generationId
        feedLimits := feedLimits
        maxIplistBytes := maxIplistBytes }

/-! ### Previewing a feed -/

/-- The networks of a feed that a preview uses. -/
structure ReadOnlyIplist where
  networks : List CanonicalCidr
  provenance : SourceProvenance
  notices : List Notice

/-- `read_only_cached`. -/
def readOnlyCached (cached : LoadedRemoteCache) (provenance : SourceProvenance) (offline : Bool) :
    ReadOnlyIplist :=
  match cached.networks with
  | none =>
    { networks := []
      provenance := .unavailable
      notices := [.ofWarning "no usable remote feed data is available for this preview"] }
  | some networks =>
    { networks := networks
      provenance := provenance
      notices :=
        if offline then
          [⟨.info, "preview uses validated cached feed data without refreshing it; " ++
            "freshness is unknown"⟩]
        else if provenance = .fallbackCache then
          [.ofWarning ("remote refresh was unavailable or rejected; preview uses validated " ++
            "cached data")]
        else [] }

/-- What a preview makes of a response. -/
def previewRemoteResponse (response : HttpResponse) (cached : LoadedRemoteCache) (maxBytes : ℕ)
    (limits : RemoteFeedLimits) (maxIplistBytes : ℕ) :
    Except ReadOnlyIplistError ReadOnlyIplist :=
  match validateRemoteResponse response maxBytes limits with
  | none => .ok (readOnlyCached cached .fallbackCache false)
  | some validated =>
    match ensureNormalizedSize (utf8 validated.normalized).length maxIplistBytes with
    | .error error =>
      if cached.networks.isNone then .error error
      else
        let fallback := readOnlyCached cached .fallbackCache false
        .ok { fallback with
          notices := fallback.notices ++
            [.ofWarning ("remote preview refresh rejected: " ++
              normalizedLimitText (utf8 validated.normalized).length maxIplistBytes ++
              "; using validated cache")] }
    | .ok _ => .ok ⟨validated.networks, .network, []⟩

/-- `read_iplist_for_preview_with_limit`; without network access it only reads. -/
def readIplistForPreviewWithLimit (allowNetwork : Bool) (url : String) (cacheDir : Path)
    (env : List (String × String)) (maxelem maxIplistBytes : ℕ) :
    CacheProgram ReadOnlyIplistError ReadOnlyIplist := do
  let limits := RemoteFeedLimits.fromMaxelem maxelem
  let files ← CacheProgram.look
  let cached ← Program.ofExcept
    ((readRemoteCache codec files cacheDir url (cachePathsForUrl codec cacheDir url)
      maxHttpBodyBytesCeiling limits).mapError ReadOnlyIplistError.cacheRead)
  if !allowNetwork then return readOnlyCached cached .cache true
  else
    let maxBytes := maxHttpBodyBytes env
    let (etag, modified) := cached.validators
    match ← fetchWithConditionalCache url maxBytes etag modified cached.networks.isSome with
    | .cacheNotModified => return readOnlyCached cached .cache false
    | .fallbackCache => return readOnlyCached cached .fallbackCache false
    | .network response =>
      Program.ofExcept (previewRemoteResponse response cached maxBytes limits maxIplistBytes)

end Codec

end Kidobo
