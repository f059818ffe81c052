import Kidobo.Cache.LiveFeeds

/-!
# Refreshing and previewing against the same server

The safelist of GitHub is refreshed as a feed is, and a preview of either reads
the same cache and the same responses. What a refresh would use, the preview shows.

## Main definitions

* `liveSafelist`: the networks and the fallback that a refresh comes to
* `SameNetworks`, `SameSafelist`: endings of a refresh and a preview that agree

## Main results

* `wp_prepareGithubMeta`, `wp_readGithubMetaForPreview`
* `live_sources_agree`
-/

namespace Kidobo

open Foundation FileProgram

/-! ### Cleaning up beforehand -/

section Congruence

variable {codec : GithubCodec} {files after : FileSystem} {selection : CategorySelection}
  {url : String}

/-- Reading cached GitHub data looks at its three files only. -/
theorem readGithubMetaCacheFiles_congr {paths : GithubCachePaths} {requireMetadata : Bool}
    (sameMetadata : after paths.metadata = files paths.metadata)
    (sameRaw : after paths.raw = files paths.raw)
    (sameSidecar : after paths.categorySidecar = files paths.categorySidecar) :
    readGithubMetaCacheFiles codec after paths selection url requireMetadata =
      readGithubMetaCacheFiles codec files paths selection url requireMetadata := by
  unfold readGithubMetaCacheFiles
  simp only [readOptionalJsonLossy_congr sameMetadata, readValidatedBytesLossy_congr sameRaw,
    readOptionalJsonLossy_congr sameSidecar]

theorem githubCandidate_congr {paths : GithubCachePaths} {candidate : GenerationCandidate}
    (same : SameSelection codec.toGenerationCodec paths.generationStore files after)
    (member : candidate ∈
      generationCandidates codec.toGenerationCodec files paths.generationStore) :
    githubCandidate codec after paths selection url candidate =
      githubCandidate codec files paths selection url candidate := by
  have sameMembers : ∀ name,
      after (candidate.directory ++ [name]) = files (candidate.directory ++ [name]) :=
    fun name => same _ (not_unselected_member name member)
  rw [githubCandidate, githubCandidate, same.generationContentsMatch member,
    readGithubMetaCacheFiles_congr (sameMembers "meta.json") (sameMembers "raw.json")
      (sameMembers "categories.json")]

/-- What the cache offers does not depend on generations that are not selected. -/
theorem readGithubMetaCache_congr {cacheDir : Path}
    (same : SameSelection codec.toGenerationCodec
      (GithubCachePaths.fromCacheDir cacheDir).generationStore files after) :
    readGithubMetaCache codec after (.fromCacheDir cacheDir) selection url =
      readGithubMetaCache codec files (.fromCacheDir cacheDir) selection url := by
  have beside : ∀ name, after (cacheDir ++ [name]) = files (cacheDir ++ [name]) := by
    intro name
    exact same _ (not_unselected_of_length (by simp [GithubCachePaths.fromCacheDir]))
  have candidates := List.filterMap_congr fun candidate member =>
    @githubCandidate_congr codec files after selection url _ candidate same member
  have legacy := @readGithubMetaCacheFiles_congr codec files after selection url
    (.fromCacheDir cacheDir) false (beside _) (beside _) (beside _)
  unfold readGithubMetaCache
  simp only [same.generationCandidates, candidates, legacy]

end Congruence

/-! ### Refreshing the safelist -/

/-- The networks of a refresh and the fallback behind them. -/
def liveSafelist (codec : GithubCodec) (selection : CategorySelection) (maxBytes : ℕ)
    (cache : GithubMetaCache) (result : ConditionalFetchResult) :
    List CanonicalCidr × Option (List CanonicalCidr) :=
  let cached := (cache.networks.getD [], cache.previous.map GithubMetaLoadResult.networks)
  match result with
  | .cacheNotModified | .fallbackCache => cached
  | .network response =>
    match validateGithubResponse codec response maxBytes selection with
    | none => cached
    | some networks => (networks, cache.networks)

/-- The networks of a prepared safelist and the fallback behind them. -/
def PreparedGithubMetaLoad.safelist (prepared : PreparedGithubMetaLoad) :
    List CanonicalCidr × Option (List CanonicalCidr) :=
  (prepared.primary.networks, prepared.fallback.map GithubMetaLoadResult.networks)

/-- The networks of a previewed safelist and the fallback behind them. -/
def ReadOnlyGithubMeta.safelist (read : ReadOnlyGithubMeta) :
    List CanonicalCidr × Option (List CanonicalCidr) :=
  (read.primary.networks, read.fallback)

theorem preparedGithubFallback_safelist (cached : GithubMetaCache) :
    (preparedGithubFallback cached).safelist =
      (cached.networks.getD [], cached.previous.map GithubMetaLoadResult.networks) := by
  unfold preparedGithubFallback
  cases cached.networks <;> rfl

theorem readOnlyGithubCached_safelist (cache : GithubMetaCache) (provenance : SourceProvenance)
    (offline : Bool) : (readOnlyGithubCached cache provenance offline).safelist =
      (cache.networks.getD [], cache.previous.map GithubMetaLoadResult.networks) := by
  unfold readOnlyGithubCached
  cases cache.networks <;> rfl

/-- The fallback of usable data has its networks. -/
theorem intoFallbackResult_networks (cache : GithubMetaCache) :
    cache.intoFallbackResult.map GithubMetaLoadResult.networks = cache.networks := by
  unfold GithubMetaCache.intoFallbackResult
  cases cache.networks <;> rfl

theorem sortedByName_github (raw sidecar metadata : Bytes) :
    sortedByName GenerationFile.name
        [⟨"raw.json", raw⟩, ⟨"categories.json", sidecar⟩, ⟨"meta.json", metadata⟩] =
      [⟨"categories.json", sidecar⟩, ⟨"meta.json", metadata⟩, ⟨"raw.json", raw⟩] := by
  simp [sortedByName, List.mergeSort]

theorem safeNames_github (raw sidecar metadata : Bytes) :
    (repeatsName (sortedByName GenerationFile.name
        [⟨"raw.json", raw⟩, ⟨"categories.json", sidecar⟩, ⟨"meta.json", metadata⟩]) ||
      (sortedByName GenerationFile.name
        [⟨"raw.json", raw⟩, ⟨"categories.json", sidecar⟩, ⟨"meta.json", metadata⟩]).any
        fun file => !isSafeFileName file.name) = false := by
  have safe : isSafeFileName "raw.json" = true ∧ isSafeFileName "categories.json" = true ∧
      isSafeFileName "meta.json" = true := by decide
  rw [sortedByName_github]
  simp [repeatsName, safe]

section Refresh

variable {codec : GithubCodec} {server : Server} {files : FileSystem} {url : String}
  {cacheDir : Path} {expected : List HttpRequest}

/-- A response leaves its networks, or the cached ones, as no operation fails. -/
theorem wp_handleGithubResponse (requested : expected ≠ []) (response : HttpResponse)
    (maxBytes : ℕ) (cached : GithubMetaCache) (selection : CategorySelection) :
    wp (LiveStep True (GithubCachePaths.fromCacheDir cacheDir).generationStore server)
      (RequestsWithin expected)
      (fun prepared _ => prepared.safelist =
        liveSafelist codec selection maxBytes cached (.network response))
      (fun _ _ => False)
      (handleGithubResponse codec response (.fromCacheDir cacheDir) url maxBytes cached selection)
      ⟨files, expected⟩ := by
  unfold handleGithubResponse
  cases validated : validateGithubResponse codec response maxBytes selection with
  | none =>
    have live : liveSafelist codec selection maxBytes cached (.network response) =
        (cached.networks.getD [], cached.previous.map GithubMetaLoadResult.networks) := by
      simp only [liveSafelist, validated]
    rw [live]
    exact preparedGithubFallback_safelist cached
  | some networks =>
    have live : liveSafelist codec selection maxBytes cached (.network response) =
        (networks, cached.networks) := by
      simp only [liveSafelist, validated]
    rw [live]
    simp only
    rw [wp_bind, stageGithubCache, wp_bind]
    apply wp_mono (wp_stage codec.toGenerationCodec requested cached.generationId rfl
      (safeNames_github _ _ _))
    · rintro outcome after ⟨_, succeeds⟩
      have isOk := succeeds trivial
      cases outcome with
      | ok promotion => exact congrArg (Prod.mk networks) (intoFallbackResult_networks cached)
      | error error => cases isOk
    · exact fun _ _ failed => failed

/-- A refresh of the safelist behind the cleanup, with the cache as it was before. -/
theorem wp_prepareGithubMeta (mode : GithubMetaCategoryMode) (env : List (String × String)) :
    let selection := CategorySelection.fromMode mode
    let maxBytes := min (maxHttpBodyBytes env) githubMetaCacheReadLimit
    let cache := readGithubMetaCache codec files (.fromCacheDir cacheDir) selection url
    let outcome := fetchOutcome server url maxBytes cache.httpValidators cache.networks.isSome
    wp (LiveStep True (GithubCachePaths.fromCacheDir cacheDir).generationStore server)
      (RequestsWithin outcome.2)
      (fun prepared _ => prepared.safelist = liveSafelist codec selection maxBytes cache outcome.1)
      (fun _ _ => False) (prepareGithubMetaSafelist codec cacheDir url mode env) ⟨files, []⟩ := by
  intro selection maxBytes cache outcome
  unfold prepareGithubMetaSafelist
  apply wp_cleanup List.nil_prefix
  intro _ cleaned same
  apply wp_look List.nil_prefix
  simp only [readGithubMetaCache_congr same]
  rw [wp_bind]
  apply wp_mono (wp_fetchWithConditionalCache cleaned url maxBytes cache.httpValidators.1
    cache.httpValidators.2 cache.networks.isSome)
  · rintro result ⟨_, requests⟩ ⟨came, rfl⟩
    have nonempty := fetchOutcome_nonempty server url maxBytes cache.httpValidators
      cache.networks.isSome
    have isOutcome : (result, requests) = outcome := came
    change outcome.2 ≠ [] at nonempty
    rw [← isOutcome] at nonempty ⊢
    cases result with
    | cacheNotModified =>
      simp only
      split
      · rename_i networks usable
        change cache.networks = some networks at usable
        change (networks, cache.previous.map GithubMetaLoadResult.networks) =
          (cache.networks.getD [], cache.previous.map GithubMetaLoadResult.networks)
        rw [usable, Option.getD_some]
      · exact preparedGithubFallback_safelist _
    | fallbackCache => exact preparedGithubFallback_safelist _
    | network response => exact wp_handleGithubResponse nonempty response maxBytes cache selection
  · exact fun _ _ failed => failed

/-- A preview of the safelist comes to what a refresh comes to. -/
theorem wp_readGithubMetaForPreview {root : Path} {ε : Type} (mode : GithubMetaCategoryMode)
    (env : List (String × String)) :
    let selection := CategorySelection.fromMode mode
    let maxBytes := min (maxHttpBodyBytes env) githubMetaCacheReadLimit
    let cache := readGithubMetaCache codec files (.fromCacheDir cacheDir) selection url
    let outcome := fetchOutcome server url maxBytes cache.httpValidators cache.networks.isSome
    wp (LiveStep False root server) (RequestsWithin outcome.2)
      (fun read _ => read.safelist = liveSafelist codec selection maxBytes cache outcome.1)
      (fun _ _ => False)
      (readGithubMetaForPreview codec true cacheDir url mode env : CacheProgram ε _)
      ⟨files, []⟩ := by
  intro selection maxBytes cache outcome
  unfold readGithubMetaForPreview
  apply wp_look List.nil_prefix
  simp only [Bool.not_true, Bool.false_eq_true, if_false]
  rw [wp_bind]
  apply wp_mono (wp_fetchWithConditionalCache files url maxBytes cache.httpValidators.1
    cache.httpValidators.2 cache.networks.isSome)
  · rintro result ⟨_, requests⟩ ⟨came, rfl⟩
    have isOutcome : (result, requests) = outcome := came
    rw [← isOutcome]
    cases result with
    | cacheNotModified => exact readOnlyGithubCached_safelist cache .cache false
    | fallbackCache => exact readOnlyGithubCached_safelist cache .fallbackCache false
    | network response =>
      simp only
      cases validated : validateGithubResponse codec response maxBytes selection with
      | none =>
        have live : liveSafelist codec selection maxBytes cache (.network response) =
            (cache.networks.getD [], cache.previous.map GithubMetaLoadResult.networks) := by
          simp only [liveSafelist, validated]
        rw [live]
        exact readOnlyGithubCached_safelist cache .fallbackCache false
      | some networks =>
        have live : liveSafelist codec selection maxBytes cache (.network response) =
            (networks, cache.networks) := by
          simp only [liveSafelist, validated]
        rw [live]
        exact congrArg (Prod.mk networks) (intoFallbackResult_networks cache)
  · exact fun _ _ failed => failed

end Refresh

/-! ### Agreement -/

/-- A refresh and a preview of a feed come to the same networks, or both fail. -/
def SameNetworks :
    Ending HttpCacheError PreparedCachedIplist → Ending ReadOnlyIplistError ReadOnlyIplist → Prop
  | .returned prepared, .returned read => prepared.loaded.networks = read.networks
  | .failed _, .failed _ => True
  | _, _ => False

/-- A refresh and a preview of the safelist come to the same networks and to the
same fallback. -/
def SameSafelist {ε : Type} :
    Ending GithubMetaLoadError PreparedGithubMetaLoad → Ending ε ReadOnlyGithubMeta → Prop
  | .returned prepared, .returned read =>
    prepared.primary.networks = read.primary.networks ∧
      prepared.fallback.map GithubMetaLoadResult.networks = read.fallback
  | _, _ => False

section Agreement

variable {server : Server} {files : FileSystem} {url : String} {cacheDir : Path}
  {env : List (String × String)} {refreshTrace previewTrace : List (Event CacheOp CacheOp.Result LiveState)}
  {refreshLast previewLast : LiveState}

theorem feeds_agree {codec : RemoteCodec} {maxelem maxIplistBytes : ℕ}
    {refreshed : Ending HttpCacheError PreparedCachedIplist}
    {previewed : Ending ReadOnlyIplistError ReadOnlyIplist}
    (refresh : Runs (LiveStep True (remoteGenerationStore codec cacheDir url) server)
      (prepareIplistWithCacheLimit codec url cacheDir env maxelem maxIplistBytes) ⟨files, []⟩
      refreshTrace refreshLast refreshed)
    (preview : Runs (LiveStep False (remoteGenerationStore codec cacheDir url) server)
      (readIplistForPreviewWithLimit codec true url cacheDir env maxelem maxIplistBytes) ⟨files, []⟩
      previewTrace previewLast previewed)
    (refreshEnds : refreshed ≠ .stopped) (previewEnds : previewed ≠ .stopped) :
    SameNetworks refreshed previewed := by
  have afterRefresh := (refresh.sound (wp_prepareIplist env maxelem maxIplistBytes)).2
  have afterPreview := (preview.sound (wp_readIplistForPreview env maxelem maxIplistBytes)).2
  cases refreshed with
  | stopped => exact absurd rfl refreshEnds
  | returned prepared =>
    obtain ⟨_, loaded, isRead, refreshedSo⟩ := afterRefresh
    have networks := refreshedSo.networks trivial
    cases previewed with
    | stopped => exact absurd rfl previewEnds
    | returned read =>
      obtain ⟨other, sameRead, otherNetworks⟩ := afterPreview
      obtain rfl := Except.ok.inj (isRead.symm.trans sameRead)
      exact Option.some.inj (networks.symm.trans otherNetworks)
    | failed error =>
      cases networks.symm.trans (afterPreview loaded isRead)
  | failed error =>
    cases previewed with
    | stopped => exact absurd rfl previewEnds
    | returned read =>
      obtain ⟨loaded, isRead, networks⟩ := afterPreview
      cases networks.symm.trans ((afterRefresh.2 loaded isRead).2 trivial)
    | failed other => trivial

theorem safelists_agree {ε : Type} {codec : GithubCodec} {mode : GithubMetaCategoryMode}
    {refreshed : Ending GithubMetaLoadError PreparedGithubMetaLoad}
    {previewed : Ending ε ReadOnlyGithubMeta}
    (refresh : Runs (LiveStep True (GithubCachePaths.fromCacheDir cacheDir).generationStore server)
      (prepareGithubMetaSafelist codec cacheDir url mode env) ⟨files, []⟩ refreshTrace refreshLast
      refreshed)
    (preview : Runs (LiveStep False (GithubCachePaths.fromCacheDir cacheDir).generationStore server)
      (readGithubMetaForPreview codec true cacheDir url mode env) ⟨files, []⟩ previewTrace
      previewLast previewed)
    (refreshEnds : refreshed ≠ .stopped) (previewEnds : previewed ≠ .stopped) :
    SameSafelist refreshed previewed := by
  have afterRefresh := (refresh.sound (wp_prepareGithubMeta mode env)).2
  have afterPreview := (preview.sound (wp_readGithubMetaForPreview mode env)).2
  cases refreshed with
  | stopped => exact absurd rfl refreshEnds
  | failed error => exact afterRefresh.elim
  | returned prepared =>
    cases previewed with
    | stopped => exact absurd rfl previewEnds
    | failed error => exact afterPreview.elim
    | returned read =>
      have same : prepared.safelist = read.safelist := afterRefresh.trans afterPreview.symm
      exact Prod.mk.inj same

end Agreement

/-- Whatever stands in the cache and whatever the server answers, a refresh whose
staging operations succeed uses the networks that a preview shows, for a feed
and for the safelist of GitHub. -/
theorem live_sources_agree (server : Server) (files : FileSystem) (url : String) (cacheDir : Path)
    (env : List (String × String)) :
    (∀ (codec : RemoteCodec) (maxelem maxIplistBytes : ℕ) refreshTrace refreshLast refreshed
      previewTrace previewLast previewed,
      Runs (LiveStep True (remoteGenerationStore codec cacheDir url) server)
        (prepareIplistWithCacheLimit codec url cacheDir env maxelem maxIplistBytes) ⟨files, []⟩
        refreshTrace refreshLast refreshed →
      Runs (LiveStep False (remoteGenerationStore codec cacheDir url) server)
        (readIplistForPreviewWithLimit codec true url cacheDir env maxelem maxIplistBytes)
        ⟨files, []⟩ previewTrace previewLast previewed →
      refreshed ≠ .stopped → previewed ≠ .stopped → SameNetworks refreshed previewed) ∧
    (∀ (ε : Type) (codec : GithubCodec) (mode : GithubMetaCategoryMode) refreshTrace refreshLast
      refreshed previewTrace previewLast (previewed : Ending ε ReadOnlyGithubMeta),
      Runs (LiveStep True (GithubCachePaths.fromCacheDir cacheDir).generationStore server)
        (prepareGithubMetaSafelist codec cacheDir url mode env) ⟨files, []⟩ refreshTrace refreshLast
        refreshed →
      Runs (LiveStep False (GithubCachePaths.fromCacheDir cacheDir).generationStore server)
        (readGithubMetaForPreview codec true cacheDir url mode env) ⟨files, []⟩ previewTrace
        previewLast previewed →
      refreshed ≠ .stopped → previewed ≠ .stopped → SameSafelist refreshed previewed) := by
  constructor
  · intro codec maxelem maxIplistBytes _ _ refreshed _ _ previewed refresh preview
    exact feeds_agree refresh preview
  · intro ε codec mode _ _ refreshed _ _ previewed refresh preview
    exact safelists_agree refresh preview

/-! ### Accepted responses on both sides -/

/-- A document of GitHub with one network. -/
def exampleDocument (network : String) : Json :=
  .object [("hooks", .array [.string network.toList])]

/-- The text of that document. -/
def documentText (network : String) : Bytes :=
  jsonObject [("hooks", ['['] ++ jsonString network ++ [']'])]

/-- The hash of the document that is sent. -/
def documentDigest : Bytes := [237, 254, 221, 254, 152, 50, 210, 31, 127, 240, 251, 123, 62, 220,
  101, 9, 93, 105, 67, 219, 236, 15, 40, 41, 108, 213, 49, 153, 67, 181, 178, 205]

/-- The hash of the files that are stored for it. -/
def documentFilesDigest : Bytes := [104, 57, 34, 205, 150, 66, 227, 29, 124, 80, 83, 106, 222, 75,
  14, 122, 24, 180, 246, 45, 176, 159, 178, 175, 27, 153, 8, 254, 215, 77, 73, 152]

/-- The libraries, as far as they are asked about that document and a former one. -/
def exampleGithubCodec : GithubCodec where
  sha256 bytes := if bytes = documentText "192.0.2.0/24" then documentDigest else documentFilesDigest
  parseManifest _ := none
  renderManifest := renderManifestJson
  parseValue bytes :=
    if bytes = documentText "192.0.2.0/24" then some (exampleDocument "192.0.2.0/24")
    else if bytes = documentText "198.51.100.0/24" then some (exampleDocument "198.51.100.0/24")
    else none
  parseMetadata _ := none
  renderMetadata metadata :=
    jsonObject [("url", jsonString metadata.url), ("etag", jsonOptional metadata.etag),
      ("last_modified", jsonOptional metadata.lastModified),
      ("sha256_raw", jsonString metadata.sha256Raw)]
  parseSidecar _ := none
  renderSidecar sidecar :=
    jsonObject [("mode", jsonString sidecar.mode), ("categories", "[]".toList)]

/-- A server that sends that document. -/
def documentServer : Server := fun _ _ => .ok ⟨200, documentText "192.0.2.0/24", some "v1", none⟩

/-- The former document in a legacy file, and an empty store. -/
def documentFiles : FileSystem := fun path =>
  let paths := GithubCachePaths.fromCacheDir ["cache"]
  if path = paths.raw then some (.file (documentText "198.51.100.0/24"))
  else if path = generationsRoot paths.generationStore then some .directory
  else none

theorem readable_documentFiles : documentFiles.Readable := by
  intro path
  unfold documentFiles
  simp only
  split_ifs <;> simp

theorem networksOfValue_exampleDocument {network : String} {cidr : CanonicalCidr}
    (parsed : parseIpCidrNonStrict network.toList = some cidr)
    (isWithin : githubMetaNetworksWithinEnvelope [cidr] = true) :
    networksOfValue (exampleDocument network) .all = some [cidr] := by
  have collected : collectNetworks [exampleDocument network] = [cidr] := by
    simp [exampleDocument, collectNetworks, entryValues, parsed]
  have extracted : extractNetworks (exampleDocument network) .all = [cidr] := by
    rw [extractNetworks, collected]
    simp [sortUnstable, dedupAdjacent]
  simp [networksOfValue, selectedValues, extracted, isWithin]

/-- The networks of the two documents. -/
theorem parseAndExtract_exampleGithubCodec (raw : Bytes) :
    parseAndExtractNetworks exampleGithubCodec raw .all =
      if raw = documentText "192.0.2.0/24" then
        (parseIpCidrNonStrict "192.0.2.0/24".toList).map ([·])
      else if raw = documentText "198.51.100.0/24" then
        (parseIpCidrNonStrict "198.51.100.0/24".toList).map ([·])
      else none := by
  have extracts (network : String) (isOne : ((parseIpCidrNonStrict network.toList).any fun cidr =>
      githubMetaNetworksWithinEnvelope [cidr]) = true) :
      networksOfValue (exampleDocument network) .all =
        (parseIpCidrNonStrict network.toList).map ([·]) := by
    cases parsed : parseIpCidrNonStrict network.toList with
    | none =>
      rw [parsed] at isOne
      cases isOne
    | some cidr =>
      rw [parsed] at isOne
      exact networksOfValue_exampleDocument parsed isOne
  unfold parseAndExtractNetworks exampleGithubCodec
  simp only
  split_ifs
  · exact extracts _ (by decide +kernel)
  · exact extracts _ (by decide +kernel)
  · rfl

/-- The refresh and the preview behind the document. -/
theorem document_accepted :
    (passes (calmSource documentServer) changesSucceed
        (prepareGithubMetaSafelist exampleGithubCodec ["cache"] defaultGithubMetaUrl .all [])
        ⟨documentFiles, []⟩ = true ∧
      returnsWith (fun prepared _ => decide (prepared.primary.source = .network ∧
          prepared.fallback.isSome = true))
        (exec (calmSource documentServer) (prepareGithubMetaSafelist exampleGithubCodec ["cache"]
          defaultGithubMetaUrl .all []) ⟨documentFiles, []⟩) = true) ∧
    returnsWith (fun read _ => decide (read.primary.provenance = .network))
      (exec (calmSource documentServer) (readGithubMetaForPreview exampleGithubCodec true ["cache"]
        defaultGithubMetaUrl .all [] : CacheProgram Empty _) ⟨documentFiles, []⟩) = true := by
  unfold prepareGithubMetaSafelist readGithubMetaForPreview handleGithubResponse
    validateGithubResponse readGithubMetaCache readGithubMetaCacheFiles stageGithubCache
    stageGeneration
  simp only [CategorySelection.fromMode, sortedByName_github, parseAndExtract_exampleGithubCodec]
  decide +kernel

theorem preview_legacyFiles :
    returnsWith (fun read _ => decide (read.provenance = .network))
      (exec (calmSource taggedServer) (readIplistForPreviewWithLimit taggedCodec true exampleUrl
        ["cache"] [] 65536 maxIplistReadBytes) ⟨legacyFiles, []⟩) = true := by
  decide +kernel

/-- A refresh and a preview that both take their networks from a response: for a
feed behind a repeated request, and for the safelist before its former networks. -/
theorem live_sources_agree_accepted :
    (∃ refreshTrace refreshLast prepared previewTrace previewLast read,
      Runs (LiveStep True (remoteGenerationStore taggedCodec ["cache"] exampleUrl) taggedServer)
        (prepareIplistWithCacheLimit taggedCodec exampleUrl ["cache"] [] 65536 maxIplistReadBytes)
        ⟨legacyFiles, []⟩ refreshTrace refreshLast (.returned prepared) ∧
      Runs (LiveStep False (remoteGenerationStore taggedCodec ["cache"] exampleUrl) taggedServer)
        (readIplistForPreviewWithLimit taggedCodec true exampleUrl ["cache"] [] 65536
          maxIplistReadBytes) ⟨legacyFiles, []⟩ previewTrace previewLast (.returned read) ∧
      prepared.loaded.source = .network ∧ read.provenance = .network ∧
      prepared.loaded.networks = read.networks) ∧
    ∃ refreshTrace refreshLast prepared previewTrace previewLast read,
      Runs (LiveStep True (GithubCachePaths.fromCacheDir ["cache"]).generationStore documentServer)
        (prepareGithubMetaSafelist exampleGithubCodec ["cache"] defaultGithubMetaUrl .all [])
        ⟨documentFiles, []⟩ refreshTrace refreshLast (.returned prepared) ∧
      Runs (LiveStep False (GithubCachePaths.fromCacheDir ["cache"]).generationStore documentServer)
        (readGithubMetaForPreview exampleGithubCodec true ["cache"] defaultGithubMetaUrl .all [] :
          CacheProgram Empty _) ⟨documentFiles, []⟩ previewTrace previewLast (.returned read) ∧
      prepared.primary.source = .network ∧ read.primary.provenance = .network ∧
      prepared.primary.networks = read.primary.networks ∧
      prepared.fallback.map GithubMetaLoadResult.networks = read.fallback ∧
      prepared.fallback.isSome = true := by
  constructor
  · obtain ⟨refreshTrace, refreshLast, prepared, refresh, isNetwork, _⟩ := exists_runs_legacyFiles
    obtain ⟨read, previewLast, ended, isShown⟩ := returnsWith_eq_true.mp preview_legacyFiles
    obtain ⟨previewTrace, preview⟩ := exists_runs_of_exec
      (@liveStep_calmSource (remoteGenerationStore taggedCodec ["cache"] exampleUrl) taggedServer)
      ended
    have agree := (live_sources_agree taggedServer legacyFiles exampleUrl ["cache"] []).1 taggedCodec
      65536 maxIplistReadBytes _ _ _ _ _ _ refresh preview Ending.returned_ne_stopped
        Ending.returned_ne_stopped
    exact ⟨refreshTrace, refreshLast, prepared, previewTrace, previewLast, read, refresh, preview,
      isNetwork, of_decide_eq_true isShown, agree⟩
  · obtain ⟨⟨passed, returned⟩, previewed⟩ := document_accepted
    obtain ⟨prepared, refreshLast, refreshEnded, isAccepted⟩ := returnsWith_eq_true.mp returned
    obtain ⟨read, previewLast, previewEnded, isShown⟩ := returnsWith_eq_true.mp previewed
    have allowed := @reliableStep_calmSource (GithubCachePaths.fromCacheDir ["cache"]).generationStore
      documentServer
    obtain ⟨refreshTrace, refresh⟩ := exists_runs_of_passes allowed readable_documentFiles passed
    rw [refreshEnded] at refresh
    obtain ⟨previewTrace, preview⟩ := exists_runs_of_exec
      (@liveStep_calmSource (GithubCachePaths.fromCacheDir ["cache"]).generationStore documentServer)
      previewEnded
    obtain ⟨isNetwork, hasFallback⟩ := of_decide_eq_true isAccepted
    have agree := (live_sources_agree documentServer documentFiles defaultGithubMetaUrl ["cache"]
      []).2 Empty exampleGithubCodec .all _ _ _ _ _ _ refresh preview
        Ending.returned_ne_stopped Ending.returned_ne_stopped
    exact ⟨refreshTrace, refreshLast, prepared, previewTrace, previewLast, read, refresh, preview,
      isNetwork, of_decide_eq_true isShown, agree.1, agree.2, hasFallback⟩

end Kidobo
