import Mathlib
import Kidobo.Foundation.WorkerPool
import Kidobo.Foundation.SortedMap
import Kidobo.App.Ports
import Kidobo.Cache.RemoteFeed

/-!
# Fetching remote feeds in chunks

The distinct addresses are fetched chunk by chunk, each chunk by a pool of
workers, and the results of a chunk are merged in the order of its addresses.
Without cancellation this comes to the same as fetching and merging one address
after another.

## Main definitions

* `uniqueUrls`, `chunksOf`, `remoteAggregateLimit`, `remoteFetchWorkerCountFor`
* `mergeFeed`: one result is added to what was loaded
* `ChunksRun`, `PrepareRun`: the runs of `prepare_remote_networks_in_chunks`
* `prepareOneByOne`: the distinct addresses one after another

## Main results

* `ChunksRun.outcome_eq`: a run merges the results of all addresses in order
* `foldlM_mergeFeed`: when the budget for all loaded networks is exceeded
* `prepareRemoteNetworks_orderIndependent`
-/

namespace Kidobo

open Foundation

/-- `MAX_REMOTE_FETCH_WORKERS`. -/
def maxRemoteFetchWorkers : ℕ := 5

/-- `remote_aggregate_limit`. -/
def remoteAggregateLimit (maxelem : ℕ) : ℕ := max 8192 (min (maxelem * 4) 2000000)

/-- `remote_fetch_worker_count_for`. -/
def remoteFetchWorkerCountFor (urlCount cpuParallelism : ℕ) : ℕ :=
  let cpuBudget := max cpuParallelism 1
  let maxWorkers := min maxRemoteFetchWorkers cpuBudget
  min urlCount (max maxWorkers 1)

/-- The addresses that were not seen before, at their first occurrence. -/
def unseenUrls (seen : List String) : List String → List String
  | [] => []
  | url :: rest =>
    if url ∈ seen then unseenUrls seen rest else url :: unseenUrls (url :: seen) rest

/-- The distinct addresses in the order of their first occurrence. -/
def uniqueUrls (urls : List String) : List String := unseenUrls [] urls

/-- `chunks`: consecutive parts of this size, the last one maybe shorter. -/
def chunksOf {α : Type} (size : ℕ) : List α → List (List α)
  | [] => []
  | first :: rest => (first :: rest.take (size - 1)) :: chunksOf size (rest.drop (size - 1))
termination_by items => items.length

/-- `remote_provenance`. -/
def remoteProvenance : CacheSource → SourceProvenance
  | .network => .network
  | .cacheNotModified => .cache
  | .fallbackCache => .fallbackCache
  | .empty => .unavailable

/-- The text of a path. -/
def Path.display (path : Path) : String := "/" ++ "/".intercalate path

/-- The text of a failure to read or commit cached data. -/
def HttpCacheError.text : HttpCacheError → String
  | writeMetadata path reason => s!"failed to write metadata cache {Path.display path}: {reason}"
  | readIplist path reason =>
    s!"failed to read iplist cache {Path.display path}: {IoError.text reason}"

/-- What a failed feed is reported as: unreadable cached data is a failure of the
source, anything else one of the cache. -/
def remoteFeedError (url : String) : HttpCacheError → AppError
  | .readIplist path reason =>
    .source "remote-feeds" s!"{url}: {HttpCacheError.text (.readIplist path reason)}"
  | .writeMetadata path reason =>
    .cacheStaging "remote-feeds" s!"{url}: {HttpCacheError.text (.writeMetadata path reason)}"

/-- What was loaded from the feeds so far. -/
structure RemoteAggregate where
  networks : SortedMap CanonicalCidr Unit
  notices : List Notice
  pendingPromotions : List PendingCachePromotion
  observations : List SourceObservation

/-- A prepared feed or its failure, by its address. -/
abbrev FeedResult := String × Except AppError PreparedCachedIplist

/-- The notice about a feed that failed softly. -/
def softFetchNotice (error : AppError) : Notice :=
  .ofWarning s!"remote source fetch failed softly: {error.display}"

/-- Add networks one after another while the limit allows it. -/
def addNetworks (limit : ℕ) :
    List CanonicalCidr → SortedMap CanonicalCidr Unit →
      Except AppError (SortedMap CanonicalCidr Unit)
  | [], aggregate => .ok aggregate
  | network :: rest, aggregate =>
    let added := aggregate.insert network ()
    if limit < added.entries.length then
      .error (.sourceAggregateBudgetExceeded added.entries.length limit)
    else addNetworks limit rest added

section Preparing

variable (results : String → Except HttpCacheError PreparedCachedIplist)
  (handle : StagedGeneration → PendingCachePromotion) (limit : ℕ)

/-- What a worker does with an address. -/
def fetchFeed (url : String) : FeedResult := (url, (results url).mapError (remoteFeedError url))

/-- The body of the loop over the results of a chunk. -/
def mergeFeed (aggregate : RemoteAggregate) : FeedResult → Except AppError RemoteAggregate
  | (label, .error (.source provider cause)) =>
    .ok { aggregate with
      observations := aggregate.observations ++ [⟨label, .unavailable⟩]
      notices := aggregate.notices ++ [softFetchNotice (.source provider cause)] }
  | (_, .error error) => .error error
  | (label, .ok prepared) => do
    let networks ← addNetworks limit prepared.loaded.networks aggregate.networks
    return { aggregate with
      networks := networks
      pendingPromotions :=
        aggregate.pendingPromotions ++ (prepared.pendingPromotion.map handle).toList
      observations :=
        aggregate.observations ++ [⟨label, remoteProvenance prepared.loaded.source⟩] }

/-- Merge results in the order of their indexes. -/
def mergeChunk (aggregate : RemoteAggregate) (found : List (ℕ × FeedResult)) :
    Except AppError RemoteAggregate :=
  ((Pool.sortByIndex found).map Prod.snd).foldlM (mergeFeed handle limit) aggregate

/-- What has been loaded before the first chunk. -/
def startAggregate (urls : List String) : RemoteAggregate where
  networks := .empty
  notices := []
  pendingPromotions := []
  observations := if urls.isEmpty then [⟨"remote-feeds", .disabled⟩] else []

/-- The load of a source. -/
def RemoteAggregate.load (aggregate : RemoteAggregate) : SyncSourceLoad where
  primary := ⟨aggregate.networks.keys, aggregate.notices⟩
  fallback := none
  pendingPromotions := aggregate.pendingPromotions
  fallbackFailure := none
  observations := aggregate.observations

/-- The runs over the remaining chunks, with the addresses in the order they were
fetched. The workers of a chunk take and finish its addresses in any order. -/
inductive ChunksRun (workers : List String → ℕ) :
    List (List String) → RemoteAggregate → List String → Except AppError RemoteAggregate → Prop where
  | done (aggregate : RemoteAggregate) : ChunksRun workers [] aggregate [] (.ok aggregate)
  | merged {chunk : List String} {rest : List (List String)} {aggregate next : RemoteAggregate}
      {pool : Pool String FeedResult} {fetched : List String}
      {outcome : Except AppError RemoteAggregate}
      (reached : Relation.ReflTransGen (Pool.Step chunk (fetchFeed results))
        (Pool.start (workers chunk)) pool)
      (complete : pool.Complete) (accepted : mergeChunk handle limit aggregate pool.results = .ok next)
      (later : ChunksRun workers rest next fetched outcome) :
      ChunksRun workers (chunk :: rest) aggregate (pool.taken ++ fetched) outcome
  | failed {chunk : List String} {rest : List (List String)} {aggregate : RemoteAggregate}
      {pool : Pool String FeedResult} {error : AppError}
      (reached : Relation.ReflTransGen (Pool.Step chunk (fetchFeed results))
        (Pool.start (workers chunk)) pool)
      (complete : pool.Complete)
      (rejected : mergeChunk handle limit aggregate pool.results = .error error) :
      ChunksRun workers (chunk :: rest) aggregate pool.taken (.error error)

/-- A run of `prepare_remote_networks_in_chunks` without cancellation. -/
inductive PrepareRun (workers : List String → ℕ) (urls : List String) :
    List String → Except AppError SyncSourceLoad → Prop where
  | intro {fetched : List String} {outcome : Except AppError RemoteAggregate}
      (ran : ChunksRun results handle limit workers (chunksOf maxRemoteFetchWorkers (uniqueUrls urls))
        (startAggregate (uniqueUrls urls)) fetched outcome) :
      PrepareRun workers urls fetched (outcome.map RemoteAggregate.load)

/-- Fetch and merge the distinct addresses one after another. -/
def prepareOneByOne (urls : List String) : Except AppError SyncSourceLoad :=
  ((uniqueUrls urls).foldlM (fun aggregate url => mergeFeed handle limit aggregate
    (fetchFeed results url)) (startAggregate (uniqueUrls urls))).map RemoteAggregate.load

end Preparing

/-! ### Addresses and chunks -/

theorem mem_unseenUrls {seen urls : List String} {url : String} :
    url ∈ unseenUrls seen urls ↔ url ∈ urls ∧ url ∉ seen := by
  induction urls generalizing seen with
  | nil => simp [unseenUrls]
  | cons first rest ih =>
    unfold unseenUrls
    split_ifs with old
    · rw [ih, List.mem_cons]
      constructor
      · exact fun ⟨inRest, isNew⟩ => ⟨Or.inr inRest, isNew⟩
      · rintro ⟨rfl | inRest, isNew⟩
        · exact absurd old isNew
        · exact ⟨inRest, isNew⟩
    · rw [List.mem_cons, ih, List.mem_cons, List.mem_cons, not_or]
      constructor
      · rintro (rfl | ⟨inRest, _, isNew⟩)
        · exact ⟨Or.inl rfl, old⟩
        · exact ⟨Or.inr inRest, isNew⟩
      · rintro ⟨rfl | inRest, isNew⟩
        · exact Or.inl rfl
        · by_cases isFirst : url = first
          · exact Or.inl isFirst
          · exact Or.inr ⟨inRest, isFirst, isNew⟩

theorem nodup_unseenUrls (seen urls : List String) : (unseenUrls seen urls).Nodup := by
  induction urls generalizing seen with
  | nil => exact List.nodup_nil
  | cons first rest ih =>
    unfold unseenUrls
    split_ifs
    · exact ih seen
    · refine List.nodup_cons.mpr ⟨fun again => ?_, ih _⟩
      exact (mem_unseenUrls.mp again).2 List.mem_cons_self

@[simp] theorem mem_uniqueUrls {urls : List String} {url : String} :
    url ∈ uniqueUrls urls ↔ url ∈ urls := by
  simp [uniqueUrls, mem_unseenUrls]

theorem nodup_uniqueUrls (urls : List String) : (uniqueUrls urls).Nodup := nodup_unseenUrls [] urls

theorem flatten_chunksOf {α : Type} (size : ℕ) (items : List α) :
    (chunksOf size items).flatten = items := by
  fun_induction chunksOf size items with
  | case1 => rfl
  | case2 first rest ih => simp [ih]

theorem ne_nil_of_mem_chunksOf {α : Type} {size : ℕ} {items chunk : List α}
    (member : chunk ∈ chunksOf size items) : chunk ≠ [] := by
  fun_induction chunksOf size items with
  | case1 => simp at member
  | case2 first rest ih =>
    rcases List.mem_cons.mp member with rfl | later
    · exact List.cons_ne_nil _ _
    · exact ih later

theorem remoteFetchWorkerCountFor_pos {urlCount : ℕ} (nonempty : 0 < urlCount)
    (cpuParallelism : ℕ) : 0 < remoteFetchWorkerCountFor urlCount cpuParallelism := by
  unfold remoteFetchWorkerCountFor
  simp only
  omega

/-! ### Runs -/

section Runs

variable {results : String → Except HttpCacheError PreparedCachedIplist}
  {handle : StagedGeneration → PendingCachePromotion} {limit : ℕ} {workers : List String → ℕ}

/-- The results of a chunk, merged by index, are merged in the order of its addresses. -/
theorem mergeChunk_eq {chunk : List String} {pool : Pool String FeedResult}
    (reached : Relation.ReflTransGen (Pool.Step chunk (fetchFeed results))
      (Pool.start (workers chunk)) pool)
    (complete : pool.Complete) (positive : 0 < workers chunk) (aggregate : RemoteAggregate) :
    mergeChunk handle limit aggregate pool.results =
        chunk.foldlM (fun aggregate url => mergeFeed handle limit aggregate (fetchFeed results url))
          aggregate ∧
      pool.taken = chunk := by
  have present : pool.workers ≠ [] := by
    rw [← List.length_pos_iff, Pool.length_workers_of_reachable reached]
    exact positive
  obtain ⟨sorted, taken⟩ :=
    (Pool.consistent_of_reachable reached).sortByIndex_eq present complete
  have inOrder : (Pool.inOrder chunk (fetchFeed results)).map Prod.snd =
      chunk.map (fetchFeed results) := by
    rw [Pool.inOrder, List.map_map]
    conv_rhs => rw [← List.zipIdx_map_fst 0 chunk, List.map_map]
    rfl
  rw [mergeChunk, sorted, inOrder, List.foldlM_map]
  exact ⟨rfl, taken⟩

/-- Whatever the workers do, a run merges the results of all addresses in order.
It fetches a front part of them, and all of them unless it fails. -/
theorem ChunksRun.outcome_eq {chunks : List (List String)} {aggregate : RemoteAggregate}
    {fetched : List String} {outcome : Except AppError RemoteAggregate}
    (ran : ChunksRun results handle limit workers chunks aggregate fetched outcome)
    (positive : ∀ chunk ∈ chunks, 0 < workers chunk) :
    outcome = chunks.flatten.foldlM (fun aggregate url => mergeFeed handle limit aggregate
        (fetchFeed results url)) aggregate ∧
      fetched <+: chunks.flatten ∧ (∀ last, outcome = .ok last → fetched = chunks.flatten) := by
  induction ran with
  | done aggregate => exact ⟨rfl, List.prefix_rfl, fun _ _ => rfl⟩
  | @merged chunk rest aggregate next pool fetched outcome reached complete accepted _ ih =>
    obtain ⟨first, later⟩ := List.forall_mem_cons.mp positive
    obtain ⟨merged, taken⟩ := mergeChunk_eq reached complete first aggregate
    obtain ⟨sameOutcome, front, whole⟩ := ih later
    rw [accepted] at merged
    refine ⟨?_, ?_, ?_⟩
    · rw [List.flatten_cons, List.foldlM_append, ← merged, sameOutcome]
      rfl
    · rw [taken, List.flatten_cons]
      exact (List.prefix_append_right_inj chunk).mpr front
    · intro last returned
      rw [taken, whole last returned, List.flatten_cons]
  | @failed chunk rest aggregate pool error reached complete rejected =>
    obtain ⟨merged, taken⟩ :=
      mergeChunk_eq reached complete (positive chunk List.mem_cons_self) aggregate
    rw [rejected] at merged
    refine ⟨?_, ?_, fun _ impossible => by cases impossible⟩
    · rw [List.flatten_cons, List.foldlM_append, ← merged]
      rfl
    · rw [taken, List.flatten_cons]
      exact List.prefix_append _ _

/-- The workers of every chunk can get done, so there is a run. -/
theorem exists_chunksRun (chunks : List (List String)) (aggregate : RemoteAggregate) :
    ∃ fetched outcome, ChunksRun results handle limit workers chunks aggregate fetched outcome := by
  induction chunks generalizing aggregate with
  | nil => exact ⟨[], _, .done aggregate⟩
  | cons chunk rest ih =>
    obtain ⟨pool, reached, complete⟩ :=
      Pool.exists_complete (Pool.consistent_start chunk (fetchFeed results) (workers chunk))
    cases merged : mergeChunk handle limit aggregate pool.results with
    | ok next =>
      obtain ⟨fetched, outcome, ran⟩ := ih next
      exact ⟨_, _, .merged reached complete merged ran⟩
    | error error => exact ⟨_, _, .failed reached complete merged⟩

end Runs

/-! ### The budget for all networks -/

/-- The distinct networks loaded so far. -/
def loadedSet (networks : SortedMap CanonicalCidr Unit) : Finset CanonicalCidr :=
  networks.keys.toFinset

theorem length_entries_eq_card (networks : SortedMap CanonicalCidr Unit) :
    networks.entries.length = (loadedSet networks).card := by
  rw [loadedSet, List.toFinset_card_of_nodup networks.nodup_keys, SortedMap.keys, List.length_map]

theorem loadedSet_insert (networks : SortedMap CanonicalCidr Unit) (network : CanonicalCidr) :
    loadedSet (networks.insert network ()) = insert network (loadedSet networks) := by
  ext other
  simp [loadedSet, SortedMap.mem_keys_insert]

/-- The loop ends with these networks added and within the limit, or with the
budget error, because the networks exceed the limit. -/
def WithinBudget (limit : ℕ) (expected : Finset CanonicalCidr) :
    Except AppError (SortedMap CanonicalCidr Unit) → Prop
  | .ok loaded => loadedSet loaded = expected ∧ expected.card ≤ limit
  | .error error => (∃ entries, error = .sourceAggregateBudgetExceeded entries limit) ∧
      limit < expected.card

theorem withinBudget_addNetworks {limit : ℕ} (networks : List CanonicalCidr)
    {aggregate : SortedMap CanonicalCidr Unit} (bounded : (loadedSet aggregate).card ≤ limit) :
    WithinBudget limit (loadedSet aggregate ∪ networks.toFinset)
      (addNetworks limit networks aggregate) := by
  induction networks generalizing aggregate with
  | nil => exact ⟨by simp, by simpa using bounded⟩
  | cons network rest ih =>
    have union : loadedSet aggregate ∪ (network :: rest).toFinset =
        loadedSet (aggregate.insert network ()) ∪ rest.toFinset := by
      ext other
      simp [loadedSet_insert]
    rw [union, addNetworks, length_entries_eq_card]
    split_ifs with exceeded
    · exact ⟨⟨_, rfl⟩, Nat.lt_of_lt_of_le exceeded (Finset.card_le_card Finset.subset_union_left)⟩
    · exact ih (Nat.not_lt.mp exceeded)

section Budget

variable (results : String → Except HttpCacheError PreparedCachedIplist)

/-- The networks of an address, none when it could not be loaded. -/
def fetchedNetworks (url : String) : List CanonicalCidr :=
  match results url with
  | .ok prepared => prepared.loaded.networks
  | .error _ => []

/-- The union of the successfully loaded networks. -/
def loadedUnion (urls : List String) : Finset CanonicalCidr :=
  (urls.flatMap (fetchedNetworks results)).toFinset

/-- Committing the data of an address failed. -/
def StagingFailed (url : String) : Prop := ∃ path reason, results url = .error (.writeMetadata path reason)

variable {results} {handle : StagedGeneration → PendingCachePromotion} {limit : ℕ}

/-- One result that is no staging failure. -/
theorem withinBudget_mergeFeed {url : String} (staged : ¬StagingFailed results url)
    {aggregate : RemoteAggregate} (bounded : (loadedSet aggregate.networks).card ≤ limit) :
    WithinBudget limit (loadedSet aggregate.networks ∪ (fetchedNetworks results url).toFinset)
      ((mergeFeed handle limit aggregate (fetchFeed results url)).map RemoteAggregate.networks) := by
  unfold fetchFeed fetchedNetworks
  cases found : results url with
  | error error =>
    cases error with
    | writeMetadata path reason => exact absurd ⟨path, reason, found⟩ staged
    | readIplist path reason => exact ⟨by simp, by simpa using bounded⟩
  | ok prepared =>
    have added := withinBudget_addNetworks prepared.loaded.networks bounded
    change WithinBudget limit _ ((addNetworks limit prepared.loaded.networks aggregate.networks >>=
      _).map _)
    cases outcome : addNetworks limit prepared.loaded.networks aggregate.networks with
    | ok networks =>
      rw [outcome] at added
      exact added
    | error error =>
      rw [outcome] at added
      exact added

/-- All results, when none is a staging failure. -/
theorem foldlM_mergeFeed (urls : List String) (staged : ∀ url ∈ urls, ¬StagingFailed results url)
    {aggregate : RemoteAggregate} (bounded : (loadedSet aggregate.networks).card ≤ limit) :
    WithinBudget limit (loadedSet aggregate.networks ∪ loadedUnion results urls)
      ((urls.foldlM (fun aggregate url => mergeFeed handle limit aggregate (fetchFeed results url))
        aggregate).map RemoteAggregate.networks) := by
  induction urls generalizing aggregate with
  | nil => exact ⟨by simp [loadedUnion], by simpa [loadedUnion] using bounded⟩
  | cons url rest ih =>
    obtain ⟨first, later⟩ := List.forall_mem_cons.mp staged
    have merged := @withinBudget_mergeFeed results handle limit url first aggregate bounded
    have union : loadedSet aggregate.networks ∪ loadedUnion results (url :: rest) =
        loadedSet aggregate.networks ∪ (fetchedNetworks results url).toFinset ∪
          loadedUnion results rest := by
      ext other
      simp [loadedUnion]
    rw [List.foldlM_cons, union]
    cases outcome : mergeFeed handle limit aggregate (fetchFeed results url) with
    | ok next =>
      rw [outcome] at merged
      obtain ⟨loaded, within⟩ := merged
      rw [← loaded] at within ⊢
      exact ih later within
    | error error =>
      rw [outcome] at merged
      obtain ⟨budget, exceeded⟩ := merged
      exact ⟨budget, Nat.lt_of_lt_of_le exceeded (Finset.card_le_card Finset.subset_union_left)⟩

/-- Loading the distinct addresses meets the budget error exactly when the union
of all networks exceeds the limit. -/
theorem uniqueUrls_exceeds_iff (urls : List String)
    (staged : ∀ url ∈ urls, ¬StagingFailed results url) {outcome : Except AppError RemoteAggregate}
    (merged : outcome = (uniqueUrls urls).foldlM (fun aggregate url =>
      mergeFeed handle limit aggregate (fetchFeed results url)) (startAggregate (uniqueUrls urls))) :
    (∃ entries budget, outcome.map RemoteAggregate.load =
        .error (.sourceAggregateBudgetExceeded entries budget)) ↔
      limit < (loadedUnion results urls).card := by
  have unloaded : loadedSet (startAggregate (uniqueUrls urls)).networks = ∅ := rfl
  have sameUnion : loadedUnion results (uniqueUrls urls) = loadedUnion results urls := by
    ext network
    simp [loadedUnion]
  have within := @foldlM_mergeFeed results handle limit (uniqueUrls urls)
    (fun url member => staged url (mem_uniqueUrls.mp member)) (startAggregate (uniqueUrls urls))
    (by simp [unloaded])
  rw [unloaded, Finset.empty_union, sameUnion, ← merged] at within
  cases outcome with
  | ok last =>
    refine iff_of_false ?_ (Nat.not_lt.mpr within.2)
    rintro ⟨entries, budget, impossible⟩
    cases impossible
  | error error =>
    obtain ⟨⟨entries, rfl⟩, exceeded⟩ := within
    exact iff_of_true ⟨entries, limit, rfl⟩ exceeded

end Budget

/-- Whatever the number of workers and whichever way they take and finish the
addresses of each chunk, fetching in chunks comes to the same as fetching and
merging the distinct addresses one after another, which includes the first error.
An address is fetched once at most, and once when the load succeeds. Without
staging failures the budget error is raised exactly when the union of the loaded
networks exceeds the limit. There is a run for any positive numbers of workers, such
as those the number of processors gives. -/
theorem prepareRemoteNetworks_orderIndependent
    (results : String → Except HttpCacheError PreparedCachedIplist)
    (handle : StagedGeneration → PendingCachePromotion) (maxelem : ℕ) (urls : List String) :
    (∀ workers : List String → ℕ, (∀ chunk, chunk ≠ [] → 0 < workers chunk) →
      (∀ fetched outcome,
        PrepareRun results handle (remoteAggregateLimit maxelem) workers urls fetched outcome →
          outcome = prepareOneByOne results handle (remoteAggregateLimit maxelem) urls ∧
          (∀ url, fetched.count url ≤ 1) ∧ (∀ url ∈ fetched, url ∈ urls) ∧
          (∀ load, outcome = .ok load → ∀ url ∈ urls, fetched.count url = 1) ∧
          ((∀ url ∈ urls, ¬StagingFailed results url) →
            ((∃ entries budget, outcome = .error (.sourceAggregateBudgetExceeded entries budget)) ↔
              remoteAggregateLimit maxelem < (loadedUnion results urls).card))) ∧
      ∃ fetched outcome,
        PrepareRun results handle (remoteAggregateLimit maxelem) workers urls fetched outcome) ∧
    ∀ chunk : List String, chunk ≠ [] → ∀ cpuParallelism,
      0 < remoteFetchWorkerCountFor chunk.length cpuParallelism := by
  constructor
  · intro workers positive
    constructor
    · intro fetched _ prepared
      cases prepared with
      | @intro outcome ran =>
        obtain ⟨merged, front, whole⟩ := ran.outcome_eq fun chunk member =>
          positive chunk (ne_nil_of_mem_chunksOf member)
        rw [flatten_chunksOf] at merged front whole
        -- the chunks are cut from distinct urls, and a failed run has fetched a prefix of them
        have once : fetched.Nodup := (nodup_uniqueUrls urls).sublist front.sublist
        refine ⟨by rw [merged]; rfl, List.nodup_iff_count_le_one.mp once,
          fun url member => mem_uniqueUrls.mp (front.subset member), ?_,
          fun staged => uniqueUrls_exceeds_iff urls staged merged⟩
        intro load returned url member
        cases outcome with
        | ok last =>
          rw [whole last rfl]
          exact List.count_eq_one_of_mem (nodup_uniqueUrls urls) (mem_uniqueUrls.mpr member)
        | error error => cases returned
    · obtain ⟨fetched, outcome, ran⟩ := exists_chunksRun (chunksOf maxRemoteFetchWorkers
        (uniqueUrls urls)) (startAggregate (uniqueUrls urls))
      exact ⟨fetched, _, ⟨ran⟩⟩
  · exact fun chunk nonempty cpuParallelism =>
      remoteFetchWorkerCountFor_pos (List.length_pos_iff.mpr nonempty) cpuParallelism

end Kidobo
