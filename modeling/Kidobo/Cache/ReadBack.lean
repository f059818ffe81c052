import Kidobo.Cache.Promotion
import Kidobo.Cache.LiveSafelist
import Kidobo.Cache.FeedAcceptance

/-!
# Reading back what was stored

An accepted response is staged as its files. A reader takes them again exactly
when the metadata, and for the safelist the category selection, fit its limits:
the writer bounds the body and the normalized text, but not what it renders
itself.

## Main definitions

* `CacheStep`: the files of a cache, with a server that may answer anything
* `feedFiles`, `githubFiles`: what is stored for an accepted response
* `FeedFits`, `SafelistFits`: the reader can take what was rendered

## Main results

* `wp_handleFeed`, `wp_handleSafelist`: what is staged
* `usableGeneration_feed_iff`, `githubCandidate_iff`: what is read again
* `readRemoteCache_promoted`, `readGithubMetaCache_of_first`: the first candidate is selected
-/

namespace Kidobo

open Foundation FileProgram

/-! ### The files of a cache -/

/-- The steps of the files of a cache; a server may answer anything. -/
def CacheStep : Step CacheOp CacheOp.Result FileSystem
  | before, .files op, answer, after => FileStep before op answer after
  | before, .fetch _, _, after => after = before

/-- What a program on files ensures, it ensures inside of a source adapter. -/
theorem wp_cacheFiles {ε α : Type} {program : FileProgram α}
    {ends : Except IoError α → FileSystem → Prop} {fails : ε → FileSystem → Prop}
    {files : FileSystem}
    (holds : Ensures (fun _ => True) (fun value after => ends (.ok value) after)
      (fun error after => ends (.error error) after) program files) :
    wp CacheStep (fun _ _ _ _ => True) ends fails
      (CacheProgram.onFiles program : CacheProgram ε _) files := by
  induction program generalizing files with
  | ret value => exact holds
  | fail error => exact holds
  | spin => trivial
  | call op next ih => exact fun answer after stepped => ⟨trivial, ih answer (holds answer after stepped).2⟩

/-- Staging files of safe names leaves a staged generation that can be promoted. -/
theorem wp_cacheStage {codec : GenerationCodec} {ε : Type} {fails : ε → FileSystem → Prop}
    {root : Path} {members : List GenerationFile} {previous : Option String} {files : FileSystem}
    (digest : ∀ bytes, (codec.sha256 bytes).length = 32) :
    wp CacheStep (fun _ _ _ _ => True)
      (fun outcome after => ∀ staged, outcome = .ok staged →
        NamedFiles (sortedByName GenerationFile.name members) ∧
        Staged codec root (sortedByName GenerationFile.name members) previous files after staged)
      fails (CacheProgram.onFiles (stageGeneration codec root members previous) : CacheProgram ε _)
      files := by
  refine wp_cacheFiles (ensures_mono
    (ensures_stageGeneration (isGenerationId_sha256Hex (digest _))) (fun _ _ => trivial)
    (fun value after made => ?_) fun error after _ => nofun)
  intro staged same
  obtain rfl := Except.ok.inj same
  exact made

/-- A directory with all files within the limits of a reader matches their generation. -/
theorem contentsMatch_of_holds {codec : GenerationCodec} {files : FileSystem} {directory : Path}
    {ordered members : List GenerationFile} {limits : List GenerationFileLimit}
    (holds : Holds files directory ordered)
    (fits : List.Forall₂ (fun (limit : GenerationFileLimit) (file : GenerationFile) =>
      limit.name = file.name ∧ file.contents.length ≤ limit.readLimit) limits ordered)
    (sorted : sortedByName Prod.fst (partsOf ordered) = partsOf members) :
    generationContentsMatch codec files ⟨generationId codec members, directory⟩ limits = true := by
  rw [generationContentsMatch, readMembers_of_holds holds fits]
  simp only [sorted]
  exact beq_self_eq_true _

/-- A file within the limit is read. -/
theorem readBytes_of_holds {files : FileSystem} {directory : Path} {members : List GenerationFile}
    {file : GenerationFile} {limit : ℕ} (holds : Holds files directory members)
    (member : file ∈ members) (fits : file.contents.length ≤ limit) :
    readBytesWithLimit files (directory ++ [file.name]) limit = .ok file.contents := by
  rw [readBytesWithLimit, holds file member]
  exact if_neg (not_lt.mpr fits)

/-- A document is read if it fits its limit. -/
theorem readJson_of_holds {α : Type} {parse : Bytes → Option α} {files : FileSystem}
    {directory : Path} {members : List GenerationFile} {file : GenerationFile} {limit : ℕ}
    (holds : Holds files directory members) (member : file ∈ members) :
    readOptionalJsonLossy parse files (directory ++ [file.name]) limit =
      if file.contents.length ≤ limit then parse file.contents else none := by
  rw [readOptionalJsonLossy]
  split_ifs with fits
  · rw [readBytes_of_holds holds member fits]
    rfl
  · rw [readBytesWithLimit, holds file member]
    simp only [if_pos (not_le.mp fits)]
    rfl

/-! ### Feeds -/

section Feed

variable (codec : RemoteCodec)

/-- The files that are stored for an accepted response, in the order of their names. -/
def feedFiles (url : String) (response : HttpResponse) (networks : List CanonicalCidr) :
    List GenerationFile :=
  [⟨"iplist", utf8 (formatNormalizedCidrs networks)⟩,
    ⟨"meta.json", codec.renderMetadata (feedMetadata codec url response networks)⟩,
    ⟨"raw", response.body⟩]

/-- Only the status and the body of a response are validated. -/
theorem validateRemoteResponse_congr {response other : HttpResponse}
    (sameStatus : other.status = response.status) (sameBody : other.body = response.body)
    (maxBytes : ℕ) (limits : RemoteFeedLimits) :
    validateRemoteResponse other maxBytes limits =
      validateRemoteResponse response maxBytes limits := by
  rw [validateRemoteResponse, validateRemoteResponse, HttpResponse.isSuccess,
    HttpResponse.isSuccess, sameStatus, sameBody]

/-- A feed that is staged fits the limit of its text. -/
theorem wp_cacheStageRemote {ε : Type} {fails : ε → FileSystem → Prop}
    (digest : ∀ bytes, (codec.sha256 bytes).length = 32) (cacheDir : Path) (url : String)
    (response : HttpResponse) (networks : List CanonicalCidr) (previous : Option String)
    (maxIplistBytes : ℕ) (before : FileSystem) :
    wp CacheStep (fun _ _ _ _ => True)
      (fun outcome after => ∀ staged, outcome = .ok staged →
        (utf8 (formatNormalizedCidrs networks)).length ≤ maxIplistBytes ∧
        NamedFiles (feedFiles codec url response networks) ∧
        Staged codec.toGenerationCodec (remoteGenerationStore codec cacheDir url)
          (feedFiles codec url response networks) previous before after staged)
      fails
      (stageRemoteCache codec cacheDir url (formatNormalizedCidrs networks) response.body
        (feedMetadata codec url response networks) previous maxIplistBytes : CacheProgram ε _)
      before := by
  rw [stageRemoteCache, ensureNormalizedSize]
  by_cases tooLong : maxIplistBytes < (utf8 (formatNormalizedCidrs networks)).length
  · rw [if_pos tooLong]
    intro staged impossible
    cases impossible
  · rw [if_neg tooLong]
    simp only
    rw [wp_bind]
    refine wp_mono (wp_cacheStage digest) (fun outcome after made => ?_) fun _ _ failed => failed
    intro staged same
    cases outcome with
    | error error => cases same
    | ok generation =>
      obtain rfl := Except.ok.inj same
      obtain ⟨named, isStaged⟩ := made generation rfl
      rw [sortedByName_feed] at named isStaged
      exact ⟨not_lt.mp tooLong, named, isStaged⟩

/-- An accepted response of a feed is staged as its files. -/
theorem wp_handleFeed (digest : ∀ bytes, (codec.sha256 bytes).length = 32)
    (response : HttpResponse) (cachedNetworks : Option (List CanonicalCidr))
    (cachedMeta : Option RemoteCacheMetadata) (context : RemoteRefreshContext)
    (before : FileSystem) :
    wp CacheStep (fun _ _ _ _ => True)
      (fun prepared after => prepared.loaded.source = .network →
        ∃ generation parsed, prepared.pendingPromotion = some generation ∧
          response.body.length ≤ context.maxBytes ∧
          parseRemoteCidrsBounded response.body context.feedLimits = .ok parsed ∧
          prepared.loaded.networks = parsed.networks ∧
          (utf8 (formatNormalizedCidrs parsed.networks)).length ≤ context.maxIplistBytes ∧
          NamedFiles (feedFiles codec context.url response parsed.networks) ∧
          Staged codec.toGenerationCodec (remoteGenerationStore codec context.cacheDir context.url)
            (feedFiles codec context.url response parsed.networks) context.previousGeneration
            before after generation)
      (fun _ _ => True) (handleRemoteResponse codec response cachedNetworks cachedMeta context)
      before := by
  have fallback : (preparedFallback cachedNetworks cachedMeta).loaded.source ≠ .network := by
    cases cachedNetworks <;> exact nofun
  unfold handleRemoteResponse
  cases accepted : validateRemoteResponse response context.maxBytes context.feedLimits with
  | none => exact fun isNetwork => absurd isNetwork fallback
  | some validated =>
    obtain ⟨bounded, parsed, read, rfl⟩ := accepted_of_validateRemoteResponse accepted
    simp only
    rw [wp_bind]
    refine wp_mono (wp_cacheStageRemote codec digest context.cacheDir context.url response
      parsed.networks context.previousGeneration context.maxIplistBytes before)
      (fun outcome after made => ?_) fun _ _ failed => failed
    cases outcome with
    | error error =>
      simp only
      split
      · exact fun isNetwork => absurd isNetwork fallback
      · exact trivial
    | ok generation =>
      obtain ⟨short, named, staged⟩ := made generation rfl
      exact fun _ => ⟨generation, parsed, rfl, bounded, read, rfl, short, named, staged⟩

/-- The reader can take what was rendered for an accepted response. -/
def FeedFits (url : String) (response : HttpResponse) (networks : List CanonicalCidr) : Prop :=
  trim url.toList ≠ [] ∧
    (codec.renderMetadata (feedMetadata codec url response networks)).length ≤ maxMetadataReadBytes

variable {codec} {url : String} {response : HttpResponse} {maxelem : ℕ} {files : FileSystem}
  {directory : Path} {parsed : ParsedRemoteCidrs}

/-- The files of an accepted response are usable exactly when the reader can
take the metadata. -/
theorem usableGeneration_feed_iff
    (roundTrip : codec.parseMetadata (codec.renderMetadata
      (feedMetadata codec url response parsed.networks)) =
        some (feedMetadata codec url response parsed.networks))
    (holds : Holds files directory (feedFiles codec url response parsed.networks))
    (bodyFits : response.body.length ≤ maxHttpBodyBytesCeiling)
    (listFits : (utf8 (formatNormalizedCidrs parsed.networks)).length ≤ maxIplistReadBytes)
    (accepted : parseRemoteCidrsBounded response.body (.fromMaxelem maxelem) = .ok parsed)
    {id : String} (sameId : id = generationId codec.toGenerationCodec
      (feedFiles codec url response parsed.networks)) {iplist : Bytes}
    {metadata : RemoteCacheMetadata} {networks : List CanonicalCidr} :
    UsableGeneration codec files url maxHttpBodyBytesCeiling (.fromMaxelem maxelem)
        ⟨id, directory⟩ iplist metadata networks ↔
      FeedFits codec url response parsed.networks ∧
        iplist = utf8 (formatNormalizedCidrs parsed.networks) ∧
        metadata = feedMetadata codec url response parsed.networks ∧
        networks = parsed.networks := by
  have isRaw : ⟨"raw", response.body⟩ ∈ feedFiles codec url response parsed.networks := by
    simp [feedFiles]
  have isMetadata : ⟨"meta.json", codec.renderMetadata
      (feedMetadata codec url response parsed.networks)⟩ ∈
        feedFiles codec url response parsed.networks := by
    simp [feedFiles]
  have isList : ⟨"iplist", utf8 (formatNormalizedCidrs parsed.networks)⟩ ∈
      feedFiles codec url response parsed.networks := by
    simp [feedFiles]
  -- the metadata is the only member whose size the writer does not bound
  have metadataRead : readOptionalJsonLossy codec.parseMetadata files (directory ++ ["meta.json"])
      maxMetadataReadBytes = some metadata ↔
      (codec.renderMetadata (feedMetadata codec url response parsed.networks)).length ≤
          maxMetadataReadBytes ∧
        feedMetadata codec url response parsed.networks = metadata := by
    rw [readJson_of_holds holds isMetadata]
    simp only [roundTrip]
    split_ifs with fits
    · simp [fits]
    · simp [fits]
  have listRead : readTextWithLimit files (directory ++ ["iplist"]) maxIplistReadBytes =
      .ok (utf8 (formatNormalizedCidrs parsed.networks)) := by
    rw [readTextWithLimit, readBytes_of_holds holds isList listFits]
    simp only
    rw [utf8_eq_encodeUtf8, fromUtf8_encodeUtf8]
    rfl
  have parsedAgain := parseCachedIplistBounded_accepted accepted
  constructor
  · intro usable
    obtain ⟨fits, rfl⟩ := metadataRead.mp usable.metadataRead
    have sameList := usable.iplistRead
    rw [listRead] at sameList
    obtain rfl := Except.ok.inj sameList
    have sameNetworks := usable.networksParsed
    rw [parsedAgain] at sameNetworks
    exact ⟨⟨usable.sameUrl.1, fits⟩, rfl, rfl, (Except.ok.inj sameNetworks).symm⟩
  · rintro ⟨⟨nonempty, fits⟩, rfl, rfl, rfl⟩
    refine ⟨?_, metadataRead.mpr ⟨fits, rfl⟩, ⟨nonempty, rfl⟩,
      ⟨_, readBytes_of_holds holds isRaw bodyFits, rfl⟩, listRead, rfl, parsedAgain⟩
    -- the reader lists the files in its own order
    have holdsListed : Holds files directory [⟨"raw", response.body⟩,
        ⟨"iplist", utf8 (formatNormalizedCidrs parsed.networks)⟩,
        ⟨"meta.json", codec.renderMetadata (feedMetadata codec url response parsed.networks)⟩] := by
      simp only [Holds, List.forall_mem_cons, List.not_mem_nil, false_imp_iff, implies_true, and_true]
      exact ⟨holds _ isRaw, holds _ isList, holds _ isMetadata⟩
    rw [sameId]
    exact contentsMatch_of_holds holdsListed
      (.cons ⟨rfl, bodyFits⟩ (.cons ⟨rfl, listFits⟩ (.cons ⟨rfl, fits⟩ .nil)))
      (by simp [partsOf, feedFiles, sortedByName, List.mergeSort])

/-- Reading the cache selects a generation only if it is a usable candidate, and
selects the first candidate if that one is usable. -/
theorem readRemoteCache_promoted {codec : RemoteCodec} {files : FileSystem} {cacheDir : Path}
    {url : String} {rawReadLimit : ℕ} {limits : RemoteFeedLimits} {id : String}
    {rest : List GenerationCandidate}
    (candidates : generationCandidates codec.toGenerationCodec files
      (remoteGenerationStore codec cacheDir url) =
        ⟨id, generationDirectory (remoteGenerationStore codec cacheDir url) id⟩ :: rest)
    {cache : LoadedRemoteCache} :
    (readRemoteCache codec files cacheDir url (cachePathsForUrl codec cacheDir url) rawReadLimit
        limits = .ok cache ∧ cache.generationId = some id) ↔
      remoteCandidate codec files url rawReadLimit limits
        ⟨id, generationDirectory (remoteGenerationStore codec cacheDir url) id⟩ = some cache := by
  constructor
  · rintro ⟨read, selected⟩
    rcases firstUsable_of_readRemoteCache read with
      ⟨front, candidate, back, iplist, metadata, networks, split, _, usable, rfl⟩ | ⟨_, legacy⟩
    · obtain rfl := Option.some.inj selected
      have member : candidate ∈ generationCandidates codec.toGenerationCodec files
          (remoteGenerationStore codec cacheDir url) := by
        rw [split]
        simp
      rw [← directory_of_mem_candidates member]
      exact remoteCandidate_eq_some_iff.mpr ⟨iplist, metadata, networks, usable, rfl⟩
    · rw [legacy.noGeneration] at selected
      cases selected
  · intro offered
    obtain ⟨_, _, _, _, rfl⟩ := remoteCandidate_eq_some_iff.mp offered
    refine ⟨?_, rfl⟩
    unfold readRemoteCache
    simp only [candidates, List.findSome?_cons, offered]

end Feed

/-! ### The safelist -/

section Safelist

/-- Lowering a letter gives no white space, and is done once. -/
theorem toLower_spec (char : Char) :
    isWhitespace char.toLower = isWhitespace char ∧ char.toLower.toLower = char.toLower := by
  by_cases isAscii : char.toNat < 128
  · have known : ∀ code < 128, isWhitespace (Char.ofNat code).toLower =
        isWhitespace (Char.ofNat code) ∧
        (Char.ofNat code).toLower.toLower = (Char.ofNat code).toLower := by decide
    simpa [Char.ofNat_toNat] using known char.toNat isAscii
  · have unchanged : char.toLower = char := by
      unfold Char.toLower
      rw [dif_neg]
      rintro ⟨_, isUpper⟩
      have small : char.toNat ≤ 90 := isUpper
      omega
    rw [unchanged]
    exact ⟨rfl, unchanged⟩

/-- The normalized form of a category, if there is one. -/
def normalizedCategory (value : String) : Option String :=
  let normalized := (trim value.toList).map Char.toLower
  if normalized.isEmpty then none else some (String.ofList normalized)

theorem normalizedCategory_idem {value normalized : String}
    (isNormalized : normalizedCategory value = some normalized) :
    normalizedCategory normalized = some normalized := by
  unfold normalizedCategory at isNormalized
  simp only at isNormalized
  split_ifs at isNormalized with isEmpty
  obtain rfl := Option.some.inj isNormalized
  have again : (trim ((trim value.toList).map Char.toLower)).map Char.toLower =
      (trim value.toList).map Char.toLower := by
    rw [trim_map fun char => (toLower_spec char).1, trim_trim, List.map_map]
    exact List.map_congr_left fun char _ => (toLower_spec char).2
  rw [normalizedCategory]
  simp only [String.toList_ofList, again]
  exact if_neg isEmpty

/-- Normalized categories are normalized. -/
theorem normalizeCategories_idem (values : List String) :
    normalizeCategories (normalizeCategories values) = normalizeCategories values := by
  have unfolded (values : List String) : normalizeCategories values =
      dedupAdjacent (sortUnstable (values.filterMap normalizedCategory)) := rfl
  rw [unfolded (normalizeCategories values), unfolded values]
  apply List.Pairwise.eq_of_mem_iff (dedupAdjacent_sortUnstable_strict _)
    (dedupAdjacent_sortUnstable_strict _)
  intro category
  simp only [mem_dedupAdjacent, mem_sortUnstable, List.mem_filterMap]
  constructor
  · rintro ⟨normalized, ⟨value, member, isNormalized⟩, again⟩
    rw [normalizedCategory_idem isNormalized] at again
    obtain rfl := Option.some.inj again
    exact ⟨value, member, isNormalized⟩
  · rintro ⟨value, member, isNormalized⟩
    exact ⟨category, ⟨value, member, isNormalized⟩, normalizedCategory_idem isNormalized⟩

variable (codec : GithubCodec)

/-- The metadata that is stored with an accepted document. -/
def githubMetadata (url : String) (response : HttpResponse) : GithubMetaCacheMetadata where
  url := url
  etag := response.etag
  lastModified := response.lastModified
  sha256Raw := codec.sha256Hex response.body

/-- The files that are stored for an accepted document, in the order of their names. -/
def githubFiles (url : String) (response : HttpResponse) (selection : CategorySelection) :
    List GenerationFile :=
  [⟨"categories.json", codec.renderSidecar selection.toSidecar⟩,
    ⟨"meta.json", codec.renderMetadata (githubMetadata codec url response)⟩,
    ⟨"raw.json", response.body⟩]

/-- An accepted document is staged as its files. -/
theorem wp_handleSafelist (digest : ∀ bytes, (codec.sha256 bytes).length = 32)
    (response : HttpResponse) (paths : GithubCachePaths) (url : String) (maxBytes : ℕ)
    (cached : GithubMetaCache) (selection : CategorySelection) (before : FileSystem) :
    wp CacheStep (fun _ _ _ _ => True)
      (fun prepared after => prepared.primary.source = .network →
        ∃ generation, prepared.pendingPromotion = some generation ∧
          response.body.length ≤ maxBytes ∧
          parseAndExtractNetworks codec response.body selection = some prepared.primary.networks ∧
          NamedFiles (githubFiles codec url response selection) ∧
          Staged codec.toGenerationCodec paths.generationStore
            (githubFiles codec url response selection) cached.generationId before after generation)
      (fun _ _ => True) (handleGithubResponse codec response paths url maxBytes cached selection)
      before := by
  have fallback : (preparedGithubFallback cached).primary.source ≠ .network := by
    unfold preparedGithubFallback
    cases cached.networks <;> exact nofun
  unfold handleGithubResponse
  cases accepted : validateGithubResponse codec response maxBytes selection with
  | none => exact fun isNetwork => absurd isNetwork fallback
  | some networks =>
    have bounded : response.body.length ≤ maxBytes ∧
        parseAndExtractNetworks codec response.body selection = some networks := by
      unfold validateGithubResponse at accepted
      split_ifs at accepted with unsuccessful tooLong
      exact ⟨not_lt.mp tooLong, accepted⟩
    simp only [stageGithubCache]
    rw [wp_bind, wp_bind]
    refine wp_mono (wp_cacheStage digest) (fun outcome after made => ?_) fun _ _ failed => failed
    cases outcome with
    | error error =>
      change wp _ _ _ _ (if _ then _ else _) _
      split
      · exact trivial
      · exact fun isNetwork => absurd isNetwork fallback
    | ok generation =>
      obtain ⟨named, staged⟩ := made generation rfl
      rw [sortedByName_github] at named staged
      exact fun _ => ⟨generation, rfl, bounded.1, bounded.2, named, staged⟩

/-- The reader can take what was rendered for an accepted document. -/
def SafelistFits (url : String) (response : HttpResponse) (selection : CategorySelection) : Prop :=
  (codec.renderMetadata (githubMetadata codec url response)).length ≤ githubMetaMetaReadLimit ∧
    (codec.renderSidecar selection.toSidecar).length ≤ githubMetaCategoryReadLimit

variable {codec} {url : String} {response : HttpResponse} {files : FileSystem} {directory : Path}
  {mode : GithubMetaCategoryMode} {networks : List CanonicalCidr} {paths : GithubCachePaths}

/-- A selection of categories is compatible with its own rendering. -/
theorem cacheScopeCompatible_toSidecar (mode : GithubMetaCategoryMode) :
    cacheScopeCompatible (.fromMode mode) (some (CategorySelection.fromMode mode).toSidecar) =
      true := by
  cases mode with
  | all => rfl
  | default | explicit =>
    simp [CategorySelection.fromMode, CategorySelection.toSidecar, cacheScopeCompatible,
      normalizeCategories_idem]

/-- The files of an accepted document are usable exactly when the reader can take
its metadata and its selection. -/
theorem githubCandidate_iff
    (metadataRoundTrip : codec.parseMetadata (codec.renderMetadata
      (githubMetadata codec url response)) = some (githubMetadata codec url response))
    (sidecarRoundTrip : codec.parseSidecar (codec.renderSidecar
      (CategorySelection.fromMode mode).toSidecar) = some (CategorySelection.fromMode mode).toSidecar)
    (holds : Holds files directory (githubFiles codec url response (.fromMode mode)))
    (bodyFits : response.body.length ≤ githubMetaCacheReadLimit)
    (accepted : parseAndExtractNetworks codec response.body (.fromMode mode) = some networks)
    {id : String} (sameId : id = generationId codec.toGenerationCodec
      (githubFiles codec url response (.fromMode mode))) {cache : GithubMetaCache} :
    githubCandidate codec files paths (.fromMode mode) url ⟨id, directory⟩ = some cache ↔
      SafelistFits codec url response (.fromMode mode) ∧
        cache = ⟨some networks, some (githubMetadata codec url response), some id, none⟩ := by
  have isRaw : ⟨"raw.json", response.body⟩ ∈ githubFiles codec url response (.fromMode mode) := by
    simp [githubFiles]
  have isMetadata : ⟨"meta.json", codec.renderMetadata (githubMetadata codec url response)⟩ ∈
      githubFiles codec url response (.fromMode mode) := by
    simp [githubFiles]
  have isSidecar : ⟨"categories.json", codec.renderSidecar
      (CategorySelection.fromMode mode).toSidecar⟩ ∈
        githubFiles codec url response (.fromMode mode) := by
    simp [githubFiles]
  have metadataRead := @readJson_of_holds _ codec.parseMetadata files directory _ _
    githubMetaMetaReadLimit holds isMetadata
  have sidecarRead := @readJson_of_holds _ codec.parseSidecar files directory _ _
    githubMetaCategoryReadLimit holds isSidecar
  have rawRead : readValidatedBytesLossy codec.toGenerationCodec files
      (directory ++ ["raw.json"]) githubMetaCacheReadLimit
      (some (codec.sha256Hex response.body)) = some response.body :=
    readValidatedBytesLossy_eq_some_iff.mpr ⟨readBytes_of_holds holds isRaw bodyFits, rfl⟩
  simp only [metadataRoundTrip, sidecarRoundTrip] at metadataRead sidecarRead
  unfold githubCandidate readGithubMetaCacheFiles GithubCachePaths.ofGeneration
  simp only [metadataRead, sidecarRead]
  -- the body fits by hypothesis; the two other members may exceed what is read of them
  by_cases metadataFits :
      (codec.renderMetadata (githubMetadata codec url response)).length ≤ githubMetaMetaReadLimit
  · by_cases sidecarFits : (codec.renderSidecar
        (CategorySelection.fromMode mode).toSidecar).length ≤ githubMetaCategoryReadLimit
    · have holdsListed : Holds files directory [⟨"raw.json", response.body⟩,
          ⟨"meta.json", codec.renderMetadata (githubMetadata codec url response)⟩,
          ⟨"categories.json", codec.renderSidecar
            (CategorySelection.fromMode mode).toSidecar⟩] := by
        simp only [Holds, List.forall_mem_cons, List.not_mem_nil, false_imp_iff, implies_true,
          and_true]
        exact ⟨holds _ isRaw, holds _ isMetadata, holds _ isSidecar⟩
      have matched : generationContentsMatch codec.toGenerationCodec files ⟨id, directory⟩
          githubGenerationLimits = true := by
        rw [sameId]
        exact contentsMatch_of_holds holdsListed
          (.cons ⟨rfl, bodyFits⟩ (.cons ⟨rfl, metadataFits⟩ (.cons ⟨rfl, sidecarFits⟩ .nil)))
          (by simp [partsOf, githubFiles, sortedByName, List.mergeSort])
      have sameUrl : githubMetaCacheUrlMatches (githubMetadata codec url response) url = true :=
        beq_self_eq_true _
      simp only [if_pos metadataFits, if_pos sidecarFits, matched, sameUrl, if_true, Option.map_some]
      rw [show (githubMetadata codec url response).sha256Raw = codec.sha256Hex response.body from rfl,
        rawRead]
      simp [cacheScopeCompatible_toSidecar, accepted, SafelistFits, metadataFits, sidecarFits,
        eq_comm]
    · simp [sidecarFits, SafelistFits]
  · simp [metadataFits, SafelistFits]

/-- The cache offers the first candidate if that one is usable. -/
theorem readGithubMetaCache_of_first {selection : CategorySelection} {first : GenerationCandidate}
    {rest : List GenerationCandidate} {cache : GithubMetaCache}
    (candidates : generationCandidates codec.toGenerationCodec files paths.generationStore =
      first :: rest)
    (offered : githubCandidate codec files paths selection url first = some cache) :
    ∃ previous, readGithubMetaCache codec files paths selection url =
      { cache with previous := previous } := by
  unfold readGithubMetaCache
  simp only [candidates, List.filterMap_cons, offered]
  cases rest.filterMap (githubCandidate codec files paths selection url) with
  | nil => exact ⟨_, rfl⟩
  | cons second later => exact ⟨_, rfl⟩

/-- The cache selects a generation only if it is usable. -/
theorem exists_candidate_of_selected {selection : CategorySelection} {id : String}
    (selected : (readGithubMetaCache codec files paths selection url).generationId = some id) :
    ∃ cache, githubCandidate codec files paths selection url
      ⟨id, generationDirectory paths.generationStore id⟩ = some cache := by
  have usable : ∀ primary ∈ (generationCandidates codec.toGenerationCodec files
      paths.generationStore).filterMap (githubCandidate codec files paths selection url),
      primary.generationId = some id →
        ∃ cache, githubCandidate codec files paths selection url
          ⟨id, generationDirectory paths.generationStore id⟩ = some cache := by
    intro primary member isPrimary
    obtain ⟨candidate, isCandidate, offered⟩ := List.mem_filterMap.mp member
    have sameId : candidate.id = id := by
      unfold githubCandidate at offered
      split at offered
      · simp only at offered
        split_ifs at offered with isUsable
        obtain rfl := Option.some.inj offered
        exact Option.some.inj isPrimary
      · cases offered
    rw [← sameId, ← directory_of_mem_candidates isCandidate]
    exact ⟨primary, offered⟩
  unfold readGithubMetaCache at selected
  simp only at selected
  split at selected
  case h_1 => cases selected
  case h_2 primary isList => exact usable primary (by rw [isList]; simp) selected
  case h_3 primary second later isList => exact usable primary (by rw [isList]; simp) selected

end Safelist

end Kidobo
