import Kidobo.Cache.EmptyStore
import Kidobo.Cache.ReadBack

/-!
# Promoted responses are read back

The generation of an accepted response stands first in the manifest once it is
promoted, so the cache selects it exactly when the reader can take its files.

## Main definitions

* `PromotedFeed`, `PromotedSafelist`: an accepted response, staged and promoted
* `FeedReadBack`, `SafelistReadBack`: the cache selects it, with its networks and validators

## Main results

* `promotedFetches_readBack`
* `exists_promotedFeed`, `exists_promotedSafelist`: accepted responses can be promoted
-/

namespace Kidobo

open Foundation FileProgram

/-! ### Promoted responses -/

/-- A response that was accepted for a feed, staged and promoted. -/
structure PromotedFeed (codec : RemoteCodec) (cacheDir : Path) (url : String)
    (env : List (String × String)) (maxelem : ℕ) (response : HttpResponse)
    (prepared : PreparedCachedIplist) (generation : StagedGeneration) (id : String)
    (last : FileSystem) : Prop where
  accepted : prepared.loaded.source = .network
  pending : prepared.pendingPromotion = some generation
  ran : ∃ cachedNetworks cachedMeta previousGeneration before staging middle promoting,
    Runs CacheStep
      (handleRemoteResponse codec response cachedNetworks cachedMeta
        { url := url
          cacheDir := cacheDir
          maxBytes := maxHttpBodyBytes env
          previousGeneration := previousGeneration
          feedLimits := .fromMaxelem maxelem
          maxIplistBytes := maxIplistReadBytes })
      before staging middle (.returned prepared) ∧
    Runs FileStep (promote codec.toGenerationCodec generation) middle promoting last (.returned id)

/-- The hash has 32 bytes and no other preimage of the generation, and JSON is
written and read faithfully. -/
structure FaithfulFeed (codec : RemoteCodec) (url : String) (response : HttpResponse)
    (networks : List CanonicalCidr) (generation : StagedGeneration) : Prop where
  digest : ∀ bytes, (codec.sha256 bytes).length = 32
  unique : codec.Unique (encodeParts (partsOf (feedFiles codec url response networks)))
  manifest : codec.Faithful generation.manifest
  metadata : codec.parseMetadata (codec.renderMetadata (feedMetadata codec url response networks)) =
    some (feedMetadata codec url response networks)

/-- The cache selects the promoted generation, with the networks and validators
of its response. -/
def FeedReadBack (codec : RemoteCodec) (cacheDir : Path) (url : String) (maxelem : ℕ)
    (response : HttpResponse) (networks : List CanonicalCidr) (id : String)
    (files : FileSystem) : Prop :=
  ∃ cache, readRemoteCache codec files cacheDir url (cachePathsForUrl codec cacheDir url)
      maxHttpBodyBytesCeiling (.fromMaxelem maxelem) = .ok cache ∧
    cache.generationId = some id ∧ cache.networks = some networks ∧
    cache.validators = (response.etag, response.lastModified)

theorem maxHttpBodyBytes_le (env : List (String × String)) :
    maxHttpBodyBytes env ≤ maxHttpBodyBytesCeiling := by
  unfold maxHttpBodyBytes
  split
  · exact min_le_right _ _
  · decide

/-- What a manifest names first is the candidate that is read first. -/
theorem candidates_of_switched {codec : GenerationCodec} {root : Path}
    {members : List GenerationFile} {staged : StagedGeneration} {before after : FileSystem}
    (switched : Switched codec root members staged before after) :
    ∃ rest, generationCandidates codec after root =
      ⟨staged.generationId, generationDirectory root staged.generationId⟩ :: rest := by
  rw [generationCandidates, switched.manifest]
  exact ⟨_, rfl⟩

theorem feedReadBack_iff {codec : RemoteCodec} {cacheDir : Path} {url : String}
    {env : List (String × String)} {maxelem : ℕ} {response : HttpResponse}
    {prepared : PreparedCachedIplist} {generation : StagedGeneration} {id : String}
    {last : FileSystem}
    (promoted : PromotedFeed codec cacheDir url env maxelem response prepared generation id last)
    (faithful : FaithfulFeed codec url response prepared.loaded.networks generation) :
    FeedReadBack codec cacheDir url maxelem response prepared.loaded.networks id last ↔
      FeedFits codec url response prepared.loaded.networks := by
  obtain ⟨cachedNetworks, cachedMeta, previousGeneration, before, staging, middle, promoting, handled,
    promotes⟩ := promoted.ran
  obtain ⟨made, parsed, isPending, bounded, accepted, sameNetworks, short, named, staged⟩ :=
    (handled.sound (wp_handleFeed codec faithful.digest response cachedNetworks cachedMeta _
      before)).2 promoted.accepted
  rw [promoted.pending] at isPending
  obtain rfl := Option.some.inj isPending
  rw [sameNetworks] at faithful ⊢
  have ready := staged.ready named (isGenerationId_sha256Hex (faithful.digest _)) faithful.unique
  obtain ⟨rfl, switched⟩ :=
    (promotes.sound (ensures_promote ready faithful.unique faithful.manifest)).2
  obtain ⟨rest, candidates⟩ := candidates_of_switched switched
  have usable_iff (iplist : Bytes) (metadata : RemoteCacheMetadata)
      (networks : List CanonicalCidr) :=
    @usableGeneration_feed_iff codec url response maxelem last _ parsed faithful.metadata
      switched.holds (bounded.trans (maxHttpBodyBytes_le env)) short accepted _ ready.generationId
      iplist metadata networks
  constructor
  · rintro ⟨cache, read, selected, _⟩
    have offered := (readRemoteCache_promoted candidates).mp ⟨read, selected⟩
    obtain ⟨iplist, metadata, networks, usable, _⟩ := remoteCandidate_eq_some_iff.mp offered
    exact ((usable_iff iplist metadata networks).mp usable).1
  · intro fits
    have usable := (usable_iff _ _ _).mpr ⟨fits, rfl, rfl, rfl⟩
    obtain ⟨read, selected⟩ := (readRemoteCache_promoted candidates).mpr
      (remoteCandidate_eq_some_iff.mpr ⟨_, _, _, usable, rfl⟩)
    exact ⟨_, read, selected, rfl, rfl⟩

/-- A document that was accepted for the safelist, staged and promoted. -/
structure PromotedSafelist (codec : GithubCodec) (cacheDir : Path) (url : String)
    (mode : GithubMetaCategoryMode) (env : List (String × String)) (response : HttpResponse)
    (prepared : PreparedGithubMetaLoad) (generation : StagedGeneration) (id : String)
    (last : FileSystem) : Prop where
  accepted : prepared.primary.source = .network
  pending : prepared.pendingPromotion = some generation
  ran : ∃ cached before staging middle promoting,
    Runs CacheStep
      (handleGithubResponse codec response (.fromCacheDir cacheDir) url
        (min (maxHttpBodyBytes env) githubMetaCacheReadLimit) cached (.fromMode mode))
      before staging middle (.returned prepared) ∧
    Runs FileStep (promote codec.toGenerationCodec generation) middle promoting last (.returned id)

/-- The hash has 32 bytes and no other preimage of the generation, and JSON is
written and read faithfully. -/
structure FaithfulSafelist (codec : GithubCodec) (url : String) (mode : GithubMetaCategoryMode)
    (response : HttpResponse) (generation : StagedGeneration) : Prop where
  digest : ∀ bytes, (codec.sha256 bytes).length = 32
  unique : codec.Unique (encodeParts (partsOf (githubFiles codec url response (.fromMode mode))))
  manifest : codec.Faithful generation.manifest
  metadata : codec.parseMetadata (codec.renderMetadata (githubMetadata codec url response)) =
    some (githubMetadata codec url response)
  sidecar : codec.parseSidecar (codec.renderSidecar (CategorySelection.fromMode mode).toSidecar) =
    some (CategorySelection.fromMode mode).toSidecar

/-- The cache selects the promoted generation, with the networks and validators
of its document. -/
def SafelistReadBack (codec : GithubCodec) (cacheDir : Path) (url : String)
    (mode : GithubMetaCategoryMode) (response : HttpResponse) (networks : List CanonicalCidr)
    (id : String) (files : FileSystem) : Prop :=
  let cache := readGithubMetaCache codec files (.fromCacheDir cacheDir) (.fromMode mode) url
  cache.generationId = some id ∧ cache.networks = some networks ∧
    cache.httpValidators = (response.etag, response.lastModified)

theorem safelistReadBack_iff {codec : GithubCodec} {cacheDir : Path} {url : String}
    {mode : GithubMetaCategoryMode} {env : List (String × String)} {response : HttpResponse}
    {prepared : PreparedGithubMetaLoad} {generation : StagedGeneration} {id : String}
    {last : FileSystem}
    (promoted : PromotedSafelist codec cacheDir url mode env response prepared generation id last)
    (faithful : FaithfulSafelist codec url mode response generation) :
    SafelistReadBack codec cacheDir url mode response prepared.primary.networks id last ↔
      SafelistFits codec url response (.fromMode mode) := by
  obtain ⟨cached, before, staging, middle, promoting, handled, promotes⟩ := promoted.ran
  obtain ⟨made, isPending, bounded, accepted, named, staged⟩ :=
    (handled.sound (wp_handleSafelist codec faithful.digest response _ url _ cached _ before)).2
      promoted.accepted
  rw [promoted.pending] at isPending
  obtain rfl := Option.some.inj isPending
  have ready := staged.ready named (isGenerationId_sha256Hex (faithful.digest _)) faithful.unique
  obtain ⟨rfl, switched⟩ :=
    (promotes.sound (ensures_promote ready faithful.unique faithful.manifest)).2
  obtain ⟨rest, candidates⟩ := candidates_of_switched switched
  have candidate_iff (cache : GithubMetaCache) :=
    @githubCandidate_iff codec url response last _ mode _ (.fromCacheDir cacheDir) faithful.metadata
      faithful.sidecar switched.holds (bounded.trans (min_le_right _ _)) accepted _
      ready.generationId cache
  constructor
  · rintro ⟨selected, _⟩
    obtain ⟨cache, offered⟩ := exists_candidate_of_selected selected
    exact ((candidate_iff cache).mp offered).1
  · intro fits
    obtain ⟨previous, read⟩ :=
      readGithubMetaCache_of_first candidates ((candidate_iff _).mpr ⟨fits, rfl⟩)
    unfold SafelistReadBack
    rw [read]
    exact ⟨rfl, rfl, rfl⟩

/-- A promoted feed is read back, with its networks and validators, if and only if
its address is not blank and its rendered metadata fits the limit of the reader;
a promoted safelist, if and only if its rendered metadata and its rendered
category selection fit theirs. -/
theorem promotedFetches_readBack (cacheDir : Path) (url : String) (env : List (String × String))
    (response : HttpResponse) (generation : StagedGeneration) (id : String) (last : FileSystem) :
    (∀ (codec : RemoteCodec) (maxelem : ℕ) (prepared : PreparedCachedIplist),
      PromotedFeed codec cacheDir url env maxelem response prepared generation id last →
      FaithfulFeed codec url response prepared.loaded.networks generation →
        (FeedReadBack codec cacheDir url maxelem response prepared.loaded.networks id last ↔
          FeedFits codec url response prepared.loaded.networks)) ∧
    ∀ (codec : GithubCodec) (mode : GithubMetaCategoryMode) (prepared : PreparedGithubMetaLoad),
      PromotedSafelist codec cacheDir url mode env response prepared generation id last →
      FaithfulSafelist codec url mode response generation →
        (SafelistReadBack codec cacheDir url mode response prepared.primary.networks id last ↔
          SafelistFits codec url response (.fromMode mode)) :=
  ⟨fun _ _ _ promoted faithful => feedReadBack_iff promoted faithful,
    fun _ _ _ promoted faithful => safelistReadBack_iff promoted faithful⟩

/-! ### Accepted responses can be promoted -/

/-- No file is there yet. -/
def noFiles : FileSystem := fun _ => none

/-- What a program on files can do, it can do inside of a source adapter. -/
theorem canReturn_onFiles {ε α : Type} {returns : α → FileSystem → Prop} {program : FileProgram α}
    {files : FileSystem} (can : CanReturn FileStep returns program files) :
    CanReturn CacheStep (fun outcome last => ∃ value, outcome = .ok value ∧ returns value last)
      (CacheProgram.onFiles program : CacheProgram ε _) files := by
  induction program generalizing files with
  | ret value => exact ⟨value, rfl, can⟩
  | fail error => exact can.elim
  | spin => exact can.elim
  | call op next ih =>
    obtain ⟨result, after, stepped, rest⟩ := can
    exact ⟨result, after, stepped, ih result rest⟩

/-- In an empty store, files of distinct safe names can be staged. -/
theorem canReturn_cacheStage {codec : GenerationCodec} {ε : Type} {root : Path}
    {members : List GenerationFile} (digest : ∀ bytes, (codec.sha256 bytes).length = 32)
    (nonempty : members.isEmpty = false)
    (accepted : (repeatsName (sortedByName GenerationFile.name members) ||
      (sortedByName GenerationFile.name members).any fun file => !isSafeFileName file.name) = false) :
    CanReturn CacheStep
      (fun outcome last => ∃ generation, outcome = .ok generation ∧ NothingBeside generation last)
      (CacheProgram.onFiles (stageGeneration codec root members none) : CacheProgram ε _) noFiles :=
  canReturn_onFiles (canReturn_stageGeneration (fun _ _ => rfl) nonempty accepted
    (isGenerationId_sha256Hex (digest _)))

/-- A response that is accepted, with a text that fits, can be promoted. -/
theorem exists_promotedFeed {codec : RemoteCodec} {url : String} {env : List (String × String)}
    {maxelem : ℕ} {response : HttpResponse} {validated : ValidatedRemoteResponse} (cacheDir : Path)
    (digest : ∀ bytes, (codec.sha256 bytes).length = 32)
    (accepted : validateRemoteResponse response (maxHttpBodyBytes env) (.fromMaxelem maxelem) =
      some validated)
    (short : (utf8 validated.normalized).length ≤ maxIplistReadBytes) :
    ∃ prepared generation id last,
      PromotedFeed codec cacheDir url env maxelem response prepared generation id last ∧
        prepared.loaded.networks = validated.networks ∧
        generation.manifest = ⟨cacheSchemaVersion,
          generationId codec.toGenerationCodec (feedFiles codec url response validated.networks),
          none⟩ := by
  obtain ⟨bounded, parsed, read, rfl⟩ := accepted_of_validateRemoteResponse accepted
  have handles : CanReturn CacheStep (fun prepared after => prepared.loaded.source = .network ∧
      ∃ generation, prepared.pendingPromotion = some generation ∧ NothingBeside generation after)
      (handleRemoteResponse codec response none none
        { url := url
          cacheDir := cacheDir
          maxBytes := maxHttpBodyBytes env
          previousGeneration := none
          feedLimits := .fromMaxelem maxelem
          maxIplistBytes := maxIplistReadBytes }) noFiles := by
    unfold handleRemoteResponse stageRemoteCache
    rw [accepted]
    simp only [ensureNormalizedSize, if_neg (not_lt.mpr short)]
    rw [canReturn_bind, canReturn_bind]
    refine (canReturn_cacheStage digest rfl (safeNames_feed _ _ _)).mono ?_
    rintro _ last ⟨generation, rfl, fresh⟩
    exact ⟨rfl, generation, rfl, fresh⟩
  obtain ⟨staging, prepared, middle, handled, isNetwork, generation, pending, fresh⟩ :=
    handles.exists_runs
  obtain ⟨made, parsedAgain, isPending, _, readAgain, sameNetworks, _, _, isStaged⟩ :=
    (handled.sound (wp_handleFeed codec digest response none none _ noFiles)).2 isNetwork
  rw [pending] at isPending
  obtain rfl := Option.some.inj isPending
  obtain rfl := Except.ok.inj (readAgain.symm.trans read)
  obtain ⟨promoting, id, last, promotes, _⟩ :=
    (@canReturn_promote codec.toGenerationCodec _ _ fresh).exists_runs
  refine ⟨prepared, generation, id, last, ⟨isNetwork, pending, none, none, none, noFiles, staging,
    middle, promoting, handled, promotes⟩, sameNetworks, ?_⟩
  obtain ⟨view, _, previous⟩ := isStaged.previous
  rw [StagedGeneration.manifest, isStaged.generationId, previous]
  rfl

/-- A document that is accepted can be promoted. -/
theorem exists_promotedSafelist {codec : GithubCodec} {url : String}
    {mode : GithubMetaCategoryMode} {env : List (String × String)} {response : HttpResponse}
    {networks : List CanonicalCidr} (cacheDir : Path)
    (digest : ∀ bytes, (codec.sha256 bytes).length = 32)
    (accepted : validateGithubResponse codec response
      (min (maxHttpBodyBytes env) githubMetaCacheReadLimit) (.fromMode mode) = some networks) :
    ∃ prepared generation id last,
      PromotedSafelist codec cacheDir url mode env response prepared generation id last ∧
        prepared.primary.networks = networks ∧
        generation.manifest = ⟨cacheSchemaVersion,
          generationId codec.toGenerationCodec (githubFiles codec url response (.fromMode mode)),
          none⟩ := by
  have handles : CanReturn CacheStep (fun prepared after => prepared.primary.source = .network ∧
      prepared.primary.networks = networks ∧
      ∃ generation, prepared.pendingPromotion = some generation ∧ NothingBeside generation after)
      (handleGithubResponse codec response (.fromCacheDir cacheDir) url
        (min (maxHttpBodyBytes env) githubMetaCacheReadLimit) ⟨none, none, none, none⟩
        (.fromMode mode)) noFiles := by
    unfold handleGithubResponse stageGithubCache
    rw [accepted]
    simp only
    rw [canReturn_bind, canReturn_bind]
    refine (canReturn_cacheStage digest rfl (safeNames_github _ _ _)).mono ?_
    rintro _ last ⟨generation, rfl, fresh⟩
    exact ⟨rfl, rfl, generation, rfl, fresh⟩
  obtain ⟨staging, prepared, middle, handled, isNetwork, sameNetworks, generation, pending, fresh⟩ :=
    handles.exists_runs
  obtain ⟨made, isPending, _, _, _, isStaged⟩ :=
    (handled.sound (wp_handleSafelist codec digest response _ url _ _ _ noFiles)).2 isNetwork
  rw [pending] at isPending
  obtain rfl := Option.some.inj isPending
  obtain ⟨promoting, id, last, promotes, _⟩ :=
    (@canReturn_promote codec.toGenerationCodec _ _ fresh).exists_runs
  refine ⟨prepared, generation, id, last, ⟨isNetwork, pending, _, noFiles, staging, middle,
    promoting, handled, promotes⟩, sameNetworks, ?_⟩
  obtain ⟨view, _, previous⟩ := isStaged.previous
  rw [StagedGeneration.manifest, isStaged.generationId, previous]
  rfl

/-! ### A feed of one network -/

section Example

variable {etag : Option String} {digest : Bytes}

/-- The encoding starts with the length of the first name. -/
theorem ne_exampleEncoding {text : Bytes} (start : text.head? ≠ some 6) :
    text ≠ exampleEncoding etag := by
  have head : (exampleEncoding etag).head? = some 6 := by
    simp only [exampleEncoding, encodeParts, List.flatMap_cons]
    rfl
  rintro rfl
  exact start head

theorem sha256_exampleBody :
    (exampleFeedCodec etag digest).sha256 exampleBody = exampleBodyDigest := by
  have apart : exampleBody ≠ exampleEncoding etag := ne_exampleEncoding (by decide +kernel)
  rw [exampleFeedCodec]
  simp only
  rw [if_neg apart, if_pos trivial]

theorem sha256_exampleList :
    (exampleFeedCodec etag digest).sha256 exampleList = exampleListDigest := by
  have apart : exampleList ≠ exampleEncoding etag := ne_exampleEncoding (by decide +kernel)
  have notBody : exampleList ≠ exampleBody := by decide +kernel
  rw [exampleFeedCodec]
  simp only
  rw [if_neg apart, if_neg notBody, if_pos trivial]

theorem format_exampleNetworks : utf8 (formatNormalizedCidrs exampleNetworks) = exampleList := by
  decide +kernel

theorem feedMetadata_example :
    feedMetadata (exampleFeedCodec etag digest) exampleUrl (exampleResponse etag) exampleNetworks =
      exampleMetadata etag := by
  rw [feedMetadata, format_exampleNetworks, exampleMetadata, GenerationCodec.sha256Hex,
    GenerationCodec.sha256Hex, sha256_exampleList]
  rw [show (exampleResponse etag).body = exampleBody from rfl, sha256_exampleBody]
  simp only [exampleResponse]

theorem feedFiles_example :
    encodeParts (partsOf (feedFiles (exampleFeedCodec etag digest) exampleUrl (exampleResponse etag)
      exampleNetworks)) = exampleEncoding etag := by
  rw [feedFiles, feedMetadata_example, format_exampleNetworks, exampleEncoding, partsOf]
  simp only [List.map_cons, List.map_nil, exampleFeedCodec, exampleResponse]

theorem generationId_example :
    generationId (exampleFeedCodec etag digest).toGenerationCodec
      (feedFiles (exampleFeedCodec etag digest) exampleUrl (exampleResponse etag) exampleNetworks) =
        hexLower digest := by
  have hashed : (exampleFeedCodec etag digest).sha256 (exampleEncoding etag) = digest := if_pos rfl
  rw [generationId, generationIdFromParts, GenerationCodec.sha256Hex]
  rw [show List.map (fun file => (file.name, file.contents)) (feedFiles (exampleFeedCodec etag digest)
    exampleUrl (exampleResponse etag) exampleNetworks) = partsOf _ from rfl, feedFiles_example, hashed]

/-- What is asked of the hash of that feed: it is no other hash in use. -/
structure OwnDigest (digest : Bytes) : Prop where
  length : digest.length = 32
  fresh : digest ≠ exampleBodyDigest ∧ digest ≠ exampleListDigest ∧
    ∀ bytes, digest ≠ exampleCodec.sha256 bytes
  fits : (renderManifestJson ⟨cacheSchemaVersion, hexLower digest, none⟩).length ≤
    manifestReadLimit

theorem length_sha256_example (own : OwnDigest digest) (bytes : Bytes) :
    ((exampleFeedCodec etag digest).sha256 bytes).length = 32 := by
  simp only [exampleFeedCodec]
  split_ifs
  · exact own.length
  all_goals rfl

theorem faithfulFeed_example (own : OwnDigest digest) {generation : StagedGeneration}
    (staged : generation.manifest = ⟨cacheSchemaVersion,
      generationId (exampleFeedCodec etag digest).toGenerationCodec
        (feedFiles (exampleFeedCodec etag digest) exampleUrl (exampleResponse etag) exampleNetworks),
      none⟩) :
    FaithfulFeed (exampleFeedCodec etag digest) exampleUrl (exampleResponse etag) exampleNetworks
      generation where
  digest := length_sha256_example own
  unique := by
    rw [feedFiles_example]
    intro other same
    by_contra different
    obtain ⟨notBody, notList, notOther⟩ := own.fresh
    simp only [exampleFeedCodec, if_neg different, if_true] at same
    split_ifs at same
    · exact notBody same.symm
    · exact notList same.symm
    · exact notOther _ same.symm
  manifest := by
    rw [staged, generationId_example]
    have read := parseOnly_render renderManifestJson ⟨cacheSchemaVersion, hexLower digest, none⟩
    simp only [GenerationCodec.Faithful, exampleFeedCodec]
    exact ⟨read, own.fits⟩
  metadata := by
    have read := parseOnly_render renderFeedJson (exampleMetadata etag)
    rw [feedMetadata_example]
    simp only [exampleFeedCodec]
    exact read

theorem validate_exampleResponse (etag : Option String) :
    ∃ validated, validateRemoteResponse (exampleResponse etag) (maxHttpBodyBytes [])
        (.fromMaxelem 65536) = some validated ∧ validated.networks = exampleNetworks ∧
      utf8 validated.normalized = exampleList := by
  have evaluated : ((validateRemoteResponse (exampleResponse none) (maxHttpBodyBytes [])
      (.fromMaxelem 65536)).map fun validated =>
        (validated.networks, utf8 validated.normalized)) = some (exampleNetworks, exampleList) := by
    decide +kernel
  have same := @validateRemoteResponse_congr (exampleResponse none) (exampleResponse etag) rfl rfl
    (maxHttpBodyBytes []) (.fromMaxelem 65536)
  rw [← same, Option.map_eq_some_iff] at evaluated
  obtain ⟨validated, accepted, parts⟩ := evaluated
  rw [Prod.mk.injEq] at parts
  exact ⟨validated, accepted, parts.1, parts.2⟩

theorem exists_promotedExample (own : OwnDigest digest) (etag : Option String) :
    ∃ prepared generation id last,
      PromotedFeed (exampleFeedCodec etag digest) ["cache"] exampleUrl [] 65536
        (exampleResponse etag) prepared generation id last ∧
      prepared.loaded.networks = exampleNetworks ∧
      FaithfulFeed (exampleFeedCodec etag digest) exampleUrl (exampleResponse etag)
        prepared.loaded.networks generation := by
  obtain ⟨validated, accepted, networks, normalized⟩ := validate_exampleResponse etag
  have short : (utf8 validated.normalized).length ≤ maxIplistReadBytes := by
    rw [normalized]
    decide +kernel
  obtain ⟨prepared, generation, id, last, promoted, sameNetworks, manifest⟩ :=
    exists_promotedFeed ["cache"] (length_sha256_example own) accepted short
  rw [networks] at sameNetworks manifest
  refine ⟨prepared, generation, id, last, promoted, sameNetworks, ?_⟩
  rw [sameNetworks]
  exact faithfulFeed_example own manifest

/-- The hash of the files of that feed without an entity tag. -/
def plainDigest : Bytes := [64, 156, 99, 252, 26, 228, 243, 144, 121, 85, 170, 224, 138, 229, 28,
  187, 44, 9, 186, 114, 87, 52, 154, 230, 223, 26, 12, 150, 15, 168, 115, 38]

theorem ownDigest_plain : OwnDigest plainDigest where
  length := rfl
  fresh := ⟨by decide +kernel, by decide +kernel, fun _ => by
    simp only [exampleCodec]
    decide +kernel⟩
  fits := by decide +kernel

theorem promotedFetches_readBack_plain :
    ∃ prepared generation id last,
      PromotedFeed (exampleFeedCodec none plainDigest) ["cache"] exampleUrl [] 65536
        (exampleResponse none) prepared generation id last ∧
      FeedReadBack (exampleFeedCodec none plainDigest) ["cache"] exampleUrl 65536
        (exampleResponse none) exampleNetworks id last := by
  obtain ⟨prepared, generation, id, last, promoted, networks, faithful⟩ :=
    exists_promotedExample ownDigest_plain none
  have fits : FeedFits (exampleFeedCodec none plainDigest) exampleUrl (exampleResponse none)
      prepared.loaded.networks := by
    rw [networks, FeedFits, feedMetadata_example]
    decide +kernel
  have readBack :=
    ((promotedFetches_readBack _ _ _ _ _ _ _).1 _ _ _ promoted faithful).mpr fits
  rw [networks] at readBack
  exact ⟨prepared, generation, id, last, promoted, readBack⟩

/-- An entity tag of quotes, which JSON prints behind backslashes. -/
def quotes : String := String.ofList (List.replicate 300000 (Char.ofNat 34))

/-- The hash of the files of that feed with these quotes. -/
def quotesDigest : Bytes := [233, 73, 231, 135, 179, 216, 115, 249, 244, 51, 183, 21, 80, 85, 164,
  204, 107, 190, 204, 242, 206, 237, 119, 123, 4, 142, 127, 97, 222, 128, 213, 141]

theorem ownDigest_quotes : OwnDigest quotesDigest where
  length := rfl
  fresh := ⟨by decide +kernel, by decide +kernel, fun _ => by
    simp only [exampleCodec]
    decide +kernel⟩
  fits := by decide +kernel

theorem length_le_encodeUtf8 (text : List Char) : text.length ≤ (encodeUtf8 text).length := by
  induction text with
  | nil => exact le_rfl
  | cons char rest ih =>
    have positive := char.utf8Size_pos
    simp only [encodeUtf8, List.flatMap_cons, List.length_append, List.length_cons,
      String.length_utf8EncodeChar] at ih ⊢
    omega

/-- Each quote is printed behind a backslash. -/
theorem length_jsonString_quotes (count : ℕ) :
    (jsonString (String.ofList (List.replicate count (Char.ofNat 34)))).length = 2 * count + 2 := by
  simp only [jsonString, String.toList_ofList, List.flatMap_replicate, List.length_append,
    List.length_cons, List.length_flatten, List.map_replicate]
  simp
  omega

theorem length_renderFeedJson_quotes :
    maxMetadataReadBytes < (renderFeedJson (exampleMetadata (some quotes))).length := by
  have long : (jsonString quotes).length = 2 * 300000 + 2 := length_jsonString_quotes 300000
  have limit : maxMetadataReadBytes < (jsonString quotes).length := by
    rw [long, maxMetadataReadBytes]
    omega
  refine lt_of_lt_of_le limit ?_
  rw [renderFeedJson, jsonObject]
  refine le_trans ?_ (length_le_encodeUtf8 _)
  simp only [exampleMetadata, jsonOptional, List.map_cons, List.map_nil, List.intercalate,
    List.intersperse, List.flatten_cons, List.length_append]
  omega

/-- The feed that is sent with that entity tag is promoted and cannot be read. -/
theorem promotedFetch_not_readBack :
    ∃ prepared generation id last,
      PromotedFeed (exampleFeedCodec (some quotes) quotesDigest) ["cache"] exampleUrl [] 65536
        (exampleResponse (some quotes)) prepared generation id last ∧
      FaithfulFeed (exampleFeedCodec (some quotes) quotesDigest) exampleUrl
        (exampleResponse (some quotes)) prepared.loaded.networks generation ∧
      ¬FeedReadBack (exampleFeedCodec (some quotes) quotesDigest) ["cache"] exampleUrl 65536
        (exampleResponse (some quotes)) prepared.loaded.networks id last := by
  obtain ⟨prepared, generation, id, last, promoted, networks, faithful⟩ :=
    exists_promotedExample ownDigest_quotes (some quotes)
  refine ⟨prepared, generation, id, last, promoted, faithful, ?_⟩
  rw [feedReadBack_iff promoted faithful, networks, FeedFits, feedMetadata_example, not_and]
  intro _
  simp only [exampleFeedCodec]
  exact not_le.mpr length_renderFeedJson_quotes

end Example

end Kidobo
