import Kidobo.Cache.Cleanup
import Kidobo.Cache.GithubMeta

/-!
# Sources against a file system and a server

A source adapter looks at the files of its cache, changes them, and makes
requests that a server answers in turn. Looking shows the files as they are;
changes may fail, or, once a request has been made, are known to succeed.

## Main definitions

* `LiveState`, `Server`, `LiveStep`: the environment of a source adapter
* `fetchOutcome`: what a conditional request comes to, and the requests it makes
* `calmSource`: a source adapter whose files work

## Main results

* `wp_onFiles`: a program on files makes no request
* `wp_stageGeneration_succeeds`: staging returns when its operations succeed
* `wp_cleanup`, `wp_fetchWithConditionalCache`
-/

namespace Kidobo

open Foundation FileProgram

/-! ### The environment -/

/-- The files of a cache and the requests that have been made. -/
structure LiveState where
  files : FileSystem
  requests : List HttpRequest

/-- A server answers a request by what has been requested before. -/
abbrev Server := List HttpRequest → HttpRequest → Except HttpClientError HttpResponse

/-- Looking shows the files as they are. -/
def Shows (files : FileSystem) : (op : FileOp) → op.Result → Prop
  | .look, view => view = files
  | _, _ => True

/-- The operation did not fail; looking tells whether a generation is there. -/
def Succeeds (root : Path) : (op : FileOp) → op.Result → Prop
  | .look, view => ∀ id, view (generationDirectory root id) ≠ some .unreadable
  | .change _, .error _ => False
  | _, _ => True

/-- The steps of the files, behind these requests. -/
def DiskStep (reliable : Prop) (root : Path) (requests : List HttpRequest) :
    Step FileOp FileOp.Result FileSystem := fun before op answer after =>
  FileStep before op answer after ∧ Shows before op answer ∧
    (reliable → requests ≠ [] → Succeeds root op answer)

/-- The steps of a source adapter. If its cache is reliable, no file operation
fails behind a request. -/
def LiveStep (reliable : Prop) (root : Path) (server : Server) :
    Step CacheOp CacheOp.Result LiveState
  | before, .files op, answer, after =>
    DiskStep reliable root before.requests before.files op answer after.files ∧
      after.requests = before.requests
  | before, .fetch request, answer, after =>
    answer = server before.requests request ∧ after = ⟨before.files, before.requests ++ [request]⟩

/-- Every request so far is an expected one, in the expected order. -/
def RequestsWithin (expected : List HttpRequest) : Step CacheOp CacheOp.Result LiveState :=
  fun _ _ _ after => after.requests <+: expected

section Rules

variable {reliable : Prop} {root : Path} {server : Server} {expected : List HttpRequest}
  {ε α β : Type} {returns : α → LiveState → Prop} {fails : ε → LiveState → Prop}
  {state : LiveState}

/-- A program on files makes no request. -/
theorem wp_onFiles {program : FileProgram β} {ends : Except IoError β → LiveState → Prop}
    (within : state.requests <+: expected)
    (holds : wp (DiskStep reliable root state.requests) (fun _ _ _ _ => True)
      (fun value files => ends (.ok value) ⟨files, state.requests⟩)
      (fun error files => ends (.error error) ⟨files, state.requests⟩) program state.files) :
    wp (LiveStep reliable root server) (RequestsWithin expected) ends fails
      (CacheProgram.onFiles program : CacheProgram ε _) state := by
  induction program generalizing state with
  | ret value => exact holds
  | fail error => exact holds
  | spin => trivial
  | call op next ih =>
    rintro answer ⟨files, requests⟩ ⟨stepped, rfl⟩
    exact ⟨within, ih answer within (holds answer files stepped).2⟩

/-- Looking at the files of a cache. -/
theorem wp_look {next : FileSystem → CacheProgram ε α} (within : state.requests <+: expected)
    (continues : wp (LiveStep reliable root server) (RequestsWithin expected) returns fails
      (next state.files) state) :
    wp (LiveStep reliable root server) (RequestsWithin expected) returns fails
      (CacheProgram.look >>= next) state := by
  rintro view ⟨files, requests⟩ ⟨⟨⟨rfl, _⟩, rfl, _⟩, rfl⟩
  exact ⟨within, continues⟩

/-- Cleaning up keeps what the store selects, whatever fails. -/
theorem wp_cleanup {codec : GenerationCodec} {store : Path} {next : Except IoError Unit → CacheProgram ε α}
    (within : state.requests <+: expected)
    (continues : ∀ outcome files, SameSelection codec store state.files files →
      wp (LiveStep reliable root server) (RequestsWithin expected) returns fails (next outcome)
        ⟨files, state.requests⟩) :
    wp (LiveStep reliable root server) (RequestsWithin expected) returns fails
      (CacheProgram.onFiles (cleanupUnselectedGenerations codec store) >>= next) state := by
  rw [wp_bind]
  apply wp_onFiles within
  have onDisk : ∀ before op answer after,
      DiskStep reliable root state.requests before op answer after →
        FileStep before op answer after := fun _ _ _ _ stepped => stepped.1
  apply wp_weaken (wp_mono (wp_project id (ensures_cleanup codec store state.files) onDisk) _ _)
    fun _ _ _ _ _ => trivial
  · intro value files same
    exact continues _ files same
  · intro error files impossible
    exact impossible.elim

end Rules

/-! ### Staging -/

/-- The program returns, as no operation behind a request fails. -/
def Completes {α : Type} (root : Path) (requests : List HttpRequest) (program : FileProgram α)
    (files : FileSystem) : Prop :=
  wp (DiskStep True root requests) (fun _ _ _ _ => True) (fun _ _ => True) (fun _ _ => False)
    program files

section Completes

variable {α β : Type} {root : Path} {requests : List HttpRequest} {files : FileSystem}

theorem completes_bind {program : FileProgram β} {next : β → FileProgram α}
    (first : Completes root requests program files)
    (continues : ∀ value after, Completes root requests (next value) after) :
    Completes root requests (program >>= next) files :=
  (wp_bind program next files).mpr
    (wp_mono first (fun value after _ => continues value after) fun _ _ failed => failed)

theorem completes_look {next : FileSystem → FileProgram α}
    (continues : ∀ view after, (requests ≠ [] → Succeeds root .look view) →
      Completes root requests (next view) after) :
    Completes root requests (look >>= next) files := by
  rintro view after ⟨_, _, succeeds⟩
  exact ⟨trivial, continues view after fun requested => succeeds trivial requested⟩

theorem completes_change (requested : requests ≠ []) (mutation : Mutation) :
    Completes root requests (change mutation) files := by
  rintro outcome after ⟨_, _, succeeds⟩
  cases outcome with
  | ok _ => exact ⟨trivial, trivial⟩
  | error error => exact (succeeds trivial requested).elim

theorem completes_createStagingDirectory (requested : requests ≠ []) (generations : Path)
    (attempts : ℕ) :
    Completes root requests (createStagingDirectory generations (attempts + 1)) files := by
  rintro numbers after _
  refine ⟨trivial, ?_⟩
  rintro outcome later ⟨_, _, succeeds⟩
  cases outcome with
  | ok _ => exact ⟨trivial, trivial⟩
  | error error => exact (succeeds trivial requested).elim

theorem completes_writeMembers (requested : requests ≠ []) (staging : Path)
    (members : List GenerationFile) :
    Completes root requests (writeMembers staging members) files := by
  induction members generalizing files with
  | nil => exact trivial
  | cons file rest ih =>
    rw [writeMembers]
    apply completes_bind (completes_change requested _)
    intro _ created
    apply completes_bind (completes_change requested _)
    intro _ written
    apply completes_bind (completes_change requested _)
    intro _ synced
    exact ih

theorem completes_publishStaged (codec : GenerationCodec) (requested : requests ≠ []) (id : String)
    (limits : List GenerationFileLimit) (staging : Path) :
    Completes root requests (publishStaged codec root id limits staging) files := by
  apply completes_look
  intro view shown succeeds
  have readable : ∃ isThere, tryExists view (generationDirectory root id) = .ok isThere := by
    have isReadable := succeeds requested id
    unfold tryExists
    split
    · exact absurd ‹_› isReadable
    · exact ⟨_, rfl⟩
  obtain ⟨isThere, exists_eq⟩ := readable
  rw [exists_eq]
  cases isThere with
  | true =>
    apply completes_look
    intro current _ _
    split
    · apply completes_bind (completes_change requested _)
      intro _ _
      exact trivial
    · exact trivial
  | false =>
    apply completes_bind (completes_change requested _)
    intro _ _
    apply completes_bind (completes_change requested _)
    intro _ _
    exact trivial

theorem completes_stageInto (codec : GenerationCodec) (requested : requests ≠ [])
    (ordered : List GenerationFile) (previous : Option String) (staging : Path) :
    Completes root requests (stageInto codec root ordered previous staging) files := by
  apply completes_bind (completes_writeMembers requested _ _)
  intro _ _
  apply completes_bind (completes_change requested _)
  intro _ _
  apply completes_bind (completes_publishStaged codec requested _ _ _)
  intro _ _
  apply completes_look
  intro _ _ _
  exact trivial

/-- Staging files with distinct safe names returns. -/
theorem completes_stageGeneration (codec : GenerationCodec) (requested : requests ≠ [])
    {members : List GenerationFile} (previous : Option String) (nonempty : members.isEmpty = false)
    (safeNames : (repeatsName (sortedByName GenerationFile.name members) ||
      (sortedByName GenerationFile.name members).any fun file => !isSafeFileName file.name) = false) :
    Completes root requests (stageGeneration codec root members previous) files := by
  rw [stageGeneration]
  simp only [nonempty, safeNames]
  rw [if_neg Bool.false_ne_true, if_neg Bool.false_ne_true]
  apply completes_bind (completes_change requested _)
  intro _ _
  apply completes_bind (completes_createStagingDirectory requested _ _)
  intro staging _
  rw [Completes, wp_bind, wp_attempt]
  apply wp_mono (completes_stageInto codec requested _ _ _)
  · intro _ _ _
    exact trivial
  · intro _ _ failed
    exact failed.elim

/-- Staging makes no request, and succeeds when no operation fails. -/
theorem wp_stage {reliable : Prop} {server : Server} {ε : Type} {fails : ε → LiveState → Prop}
    (codec : GenerationCodec) (requested : requests ≠ []) {members : List GenerationFile}
    (previous : Option String) (nonempty : members.isEmpty = false)
    (safeNames : (repeatsName (sortedByName GenerationFile.name members) ||
      (sortedByName GenerationFile.name members).any fun file => !isSafeFileName file.name) = false) :
    wp (LiveStep reliable root server) (RequestsWithin requests)
      (fun outcome after => after.requests = requests ∧ (reliable → outcome.isOk = true)) fails
      (CacheProgram.onFiles (stageGeneration codec root members previous) : CacheProgram ε _)
      ⟨files, requests⟩ := by
  refine wp_onFiles ?_ ?_
  · exact List.prefix_rfl
  by_cases isReliable : reliable
  · obtain rfl : reliable = True := eq_true isReliable
    apply wp_mono (completes_stageGeneration codec requested previous nonempty safeNames)
    · intro staged after _
      exact ⟨rfl, fun _ => rfl⟩
    · intro error after failed
      exact failed.elim
  · apply wp_mono (wp_true _ _)
    · intro staged after _
      exact ⟨rfl, fun _ => rfl⟩
    · intro error after _
      exact ⟨rfl, fun assumed => absurd assumed isReliable⟩

end Completes

/-! ### Conditional requests -/

/-- What a conditional request comes to, and the requests that it makes. -/
def fetchOutcome (server : Server) (url : String) (maxBodyBytes : ℕ)
    (validators : Option String × Option String) (hasUsableCache : Bool) :
    ConditionalFetchResult × List HttpRequest :=
  let conditional : HttpRequest := ⟨url, validators.1, validators.2, maxBodyBytes⟩
  let unconditional : HttpRequest := ⟨url, none, none, maxBodyBytes⟩
  match server [] conditional with
  | .error _ => (.fallbackCache, [conditional])
  | .ok response =>
    if response.status ≠ 304 then (.network response, [conditional])
    else if hasUsableCache then (.cacheNotModified, [conditional])
    else
      match server [conditional] unconditional with
      | .ok retried => (.network retried, [conditional, unconditional])
      | .error _ => (.fallbackCache, [conditional, unconditional])

/-- A conditional request comes to its outcome, and no request is made beside. -/
theorem wp_fetchWithConditionalCache {reliable : Prop} {root : Path} {server : Server} {ε : Type}
    {fails : ε → LiveState → Prop} (files : FileSystem) (url : String) (maxBodyBytes : ℕ)
    (etag lastModified : Option String) (hasUsableCache : Bool) :
    wp (LiveStep reliable root server)
      (RequestsWithin (fetchOutcome server url maxBodyBytes (etag, lastModified) hasUsableCache).2)
      (fun result after =>
        (result, after.requests) =
          fetchOutcome server url maxBodyBytes (etag, lastModified) hasUsableCache ∧
        after.files = files)
      fails (fetchWithConditionalCache url maxBodyBytes etag lastModified hasUsableCache)
      ⟨files, []⟩ := by
  unfold fetchWithConditionalCache fetchOutcome
  simp only [CacheProgram.fetch, CacheProgram.perform, Program.perform_bind]
  rintro answer after ⟨answered, rfl⟩
  simp only [List.nil_append, ← answered, RequestsWithin]
  cases answer with
  | error failure => exact ⟨List.prefix_rfl, rfl, rfl⟩
  | ok response =>
    simp only
    by_cases changed : response.status ≠ 304
    · simp only [if_pos changed]
      exact ⟨List.prefix_rfl, rfl, rfl⟩
    · simp only [if_neg changed]
      cases hasUsableCache with
      | true => exact ⟨List.prefix_rfl, rfl, rfl⟩
      | false =>
        simp only [Bool.false_eq_true, if_false]
        -- nothing usable is cached, so the answer to the second request decides
        cases retried : server [⟨url, etag, lastModified, maxBodyBytes⟩]
            ⟨url, none, none, maxBodyBytes⟩ with
        | error failure =>
          refine ⟨⟨_, rfl⟩, ?_⟩
          rintro answer after ⟨reanswered, rfl⟩
          rw [reanswered.trans retried]
          exact ⟨List.prefix_rfl, rfl, rfl⟩
        | ok response =>
          refine ⟨⟨_, rfl⟩, ?_⟩
          rintro answer after ⟨reanswered, rfl⟩
          rw [reanswered.trans retried]
          exact ⟨List.prefix_rfl, rfl, rfl⟩

/-! ### Sources whose files work -/

/-- A source adapter whose file operations work, before that server. -/
def calmSource (server : Server) : Handler CacheOp CacheOp.Result LiveState
  | state, .files op =>
    ((calmFiles none [] state.files op).1, ⟨(calmFiles none [] state.files op).2, state.requests⟩)
  | state, .fetch request =>
    (server state.requests request, ⟨state.files, state.requests ++ [request]⟩)

/-- The file operation, if it changes files, succeeds. -/
def changesSucceed (state : LiveState) : CacheOp → Bool
  | .files (.change mutation) => (calmFiles none [] state.files (.change mutation)).1.isOk
  | _ => true

section Idle

variable {ε α : Type} {root : Path} {server : Server} {files : FileSystem}
  {requests : List HttpRequest}

end Idle

section Calm

variable {root : Path} (server : Server) (state : LiveState) (op : CacheOp)

theorem shows_calmFiles (files : FileSystem) (op : FileOp) :
    Shows files op (calmFiles none [] files op).1 := by
  cases op with
  | look => rfl
  | uniqueNumbers | readDir | change => trivial

theorem liveStep_calmSource : LiveStep False root server state op (calmSource server state op).1
    (calmSource server state op).2 := by
  cases op with
  | files op =>
    exact ⟨⟨fileStep_calmFiles none [] state.files op, shows_calmFiles state.files op, False.elim⟩,
      rfl⟩
  | fetch request => exact ⟨rfl, rfl⟩

/-- A step whose change of files succeeds is one of a reliable cache. -/
theorem reliableStep_calmSource (readable : state.files.Readable)
    (succeeds : changesSucceed state op = true) :
    LiveStep True root server state op (calmSource server state op).1
        (calmSource server state op).2 ∧
      (calmSource server state op).2.files.Readable := by
  cases op with
  | fetch request => exact ⟨⟨rfl, rfl⟩, readable⟩
  | files op =>
    refine ⟨⟨⟨fileStep_calmFiles none [] state.files op, shows_calmFiles state.files op,
      fun _ _ => ?_⟩, rfl⟩, readable_calmFiles readable none [] op⟩
    cases op with
    | look => exact fun id => readable _
    | uniqueNumbers | readDir => trivial
    | change mutation =>
      change (calmFiles none [] state.files (.change mutation)).1.isOk = true at succeeds
      cases answered : (calmFiles none [] state.files (.change mutation)).1 with
      | ok _ =>
        unfold calmSource
        simp only [answered]
        trivial
      | error error =>
        rw [answered] at succeeds
        cases succeeds

end Calm

end Kidobo
