import Kidobo.Cache.Selection
import Kidobo.Foundation.History

/-!
# Histories of a generation store

Generations are staged, promoted, dropped and cleaned up, each of these may fail at
any file operation, and the process may stop between any two of them. Whatever
happens, only a promotion changes what the store selects, and then to the staged
generation, complete.

Two things break this. A generation whose directory is missing is published when it
is staged, also where the manifest still names it before the selected one: it is
selected before it is promoted. And cleaning up removes a staged generation, whose
promotion then selects nothing new.

## Main definitions

* `CacheStore`, `StoreAction`, `StoreStep`: a store and what happens to it
* `KeepsSelection`: what a step may do to the selection
* `Orderly`: the steps that meet neither of the two conditions

## Main results

* `orderly_keepsSelection`: every orderly history keeps the selection
* `stage_exposes_missing`: a history that does not
-/

namespace Foundation

variable {ε α : Type}

/-- Whether a program returned. -/
def Ending.isReturned : Ending ε α → Bool
  | .returned _ => true
  | _ => false

/-- What a program returned. -/
def Ending.value : Ending ε α → Option α
  | .returned value => some value
  | _ => none

end Foundation

namespace Kidobo

open Foundation FileProgram

/-! ### Stores -/

/-- A store, and the generation that is staged in it with its files. -/
structure CacheStore where
  files : FileSystem
  staged : Option (List GenerationFile × StagedGeneration)

/-- What happens to a store. A promotion includes the drop that follows it. -/
inductive StoreAction where
  | stage (members : List GenerationFile)
  | promote (returned : Bool)
  | drop
  | cleanup
  | stop

section Steps

variable (codec : GenerationCodec) (reader : GenerationReader) (root : Path)

/-- The steps of a store. Every operation may fail or be cut short at any point, and
at most one generation is staged at a time, behind the selected one. -/
inductive StoreStep : CacheStore → StoreAction → CacheStore → Prop
  | stage {files last : FileSystem} {members : List GenerationFile}
      {trace : List (Event FileOp FileOp.Result FileSystem)}
      {ending : Ending IoError StagedGeneration}
      (runs : Runs FileStep (stageGeneration codec root members
        ((reader.selected codec root files).map Prod.fst)) files trace last ending) :
      StoreStep ⟨files, none⟩ (.stage members)
        ⟨last, ending.value.map fun staged => (sortedByName GenerationFile.name members, staged)⟩
  | promote {files last : FileSystem} {members : List GenerationFile} {staged : StagedGeneration}
      {trace : List (Event FileOp FileOp.Result FileSystem)} {ending : Ending IoError String}
      (runs : Runs FileStep (promote codec staged) files trace last ending) :
      StoreStep ⟨files, some (members, staged)⟩ (.promote ending.isReturned) ⟨last, none⟩
  | drop {files last : FileSystem} {members : List GenerationFile} {staged : StagedGeneration}
      {trace : List (Event FileOp FileOp.Result FileSystem)} {ending : Ending IoError Unit}
      (runs : Runs FileStep (dropStaged staged) files trace last ending) :
      StoreStep ⟨files, some (members, staged)⟩ .drop ⟨last, none⟩
  | cleanup {files last : FileSystem} {staged : Option (List GenerationFile × StagedGeneration)}
      {trace : List (Event FileOp FileOp.Result FileSystem)} {ending : Ending IoError Unit}
      (runs : Runs FileStep (cleanupUnselectedGenerations codec root) files trace last ending) :
      StoreStep ⟨files, staged⟩ .cleanup ⟨last, staged⟩
  | stop (store : CacheStore) : StoreStep store .stop ⟨store.files, none⟩

/-- Only a promotion changes the selection, to the staged generation, and it has done so when
it returns and the reader can use the generation. -/
def KeepsSelection (event : Transition CacheStore StoreAction) : Prop :=
  match event.label, event.before.staged with
  | .promote returned, some (members, staged) =>
    (reader.selected codec root event.after.files = reader.selected codec root event.before.files ∨
      reader.selected codec root event.after.files =
        some (staged.generationId, partsOf members)) ∧
      (returned = true → reader.Takes members →
        reader.selected codec root event.after.files =
          some (staged.generationId, partsOf members))
  | _, _ => reader.selected codec root event.after.files =
      reader.selected codec root event.before.files

/-- Unless it is repaired first, the directory of the staged generation is complete. -/
def Intact (files : FileSystem) (members : List GenerationFile) (staged : StagedGeneration) : Prop :=
  staged.repair = none → Holds files (generationDirectory root staged.generationId) members

/-- No generation is staged that readers get to and whose directory is missing, and promotions
that repair nothing find what was staged. -/
def Orderly (event : Transition CacheStore StoreAction) : Prop :=
  match event.label with
  | .stage members =>
    let id := generationId codec (sortedByName GenerationFile.name members)
    reader.Exposes codec root event.before.files id →
      event.before.files (generationDirectory root id) ≠ none
  | .promote _ => ∀ members staged, event.before.staged = some (members, staged) →
      Intact root event.before.files members staged
  | _ => True

/-- The hash stands for the staged files, and manifests are written and read faithfully. -/
def Readable (event : Transition CacheStore StoreAction) : Prop :=
  match event.label with
  | .stage members => codec.Identifies (sortedByName GenerationFile.name members)
  | .promote _ => ∀ members staged, event.before.staged = some (members, staged) →
      codec.Faithful staged.manifest
  | _ => True

end Steps

/-! ### What is staged -/

section Handle

variable {codec : GenerationCodec} {reader : GenerationReader} {root : Path}
  {members : List GenerationFile} {staged : StagedGeneration} {before after : FileSystem}

/-- The fallback of a staged generation is what the store selects, unless that is staged itself. -/
def FallsBack (reader : GenerationReader) (codec : GenerationCodec) (root : Path)
    (files : FileSystem) (staged : StagedGeneration) : Prop :=
  match reader.selected codec root files with
  | none => staged.previous = none
  | some (id, _) => staged.previous = some id ∨ id = staged.generationId

/-- What holds of a staged generation until it is promoted or dropped. -/
structure Handle (reader : GenerationReader) (codec : GenerationCodec) (root : Path)
    (files : FileSystem) (members : List GenerationFile) (staged : StagedGeneration) : Prop where
  named : NamedFiles members
  identifies : codec.Identifies members
  storeRoot : staged.storeRoot = root
  generationId : staged.generationId = generationId codec members
  isId : isGenerationId staged.generationId = true
  previous : ∀ other, staged.previous = some other →
    isGenerationId other = true ∧ other ≠ staged.generationId
  repair : ∀ repair, staged.repair = some repair →
    ∃ staging, repair = ⟨staging, exactLimits members⟩ ∧ IsStaging root staging ∧
      Remains files staging members
  falls : FallsBack reader codec root files staged
  hidden : staged.removeOnDrop = true → ¬reader.Exposes codec root files staged.generationId

theorem Handle.ready (handle : Handle reader codec root before members staged)
    (intact : Intact root before members staged) : Ready codec root members staged before where
  named := handle.named
  storeRoot := handle.storeRoot
  generationId := handle.generationId
  isId := handle.isId
  previous := handle.previous
  filled := by
    cases isRepair : staged.repair with
    | none => exact Or.inl ⟨rfl, intact isRepair⟩
    | some repair =>
      obtain ⟨staging, rfl, isStaging, remains⟩ := handle.repair repair isRepair
      exact Or.inr ⟨staging, rfl, isStaging, remains⟩

/-- A manifest that names the staged generation before its fallback selects one of them. -/
theorem selected_of_manifest (handle : Handle reader codec root before members staged)
    (manifest : readManifest codec after root = some staged.manifest)
    (fallback : ∀ other, staged.previous = some other → ∀ name, isSafeFileName name = true →
      after (generationDirectory root other ++ [name]) =
        before (generationDirectory root other ++ [name]))
    (kept : ∀ parts, reader.selected codec root before = some (staged.generationId, parts) →
      reader.contents codec after
        ⟨staged.generationId, generationDirectory root staged.generationId⟩ ≠ none) :
    reader.selected codec root after = reader.selected codec root before ∨
      reader.selected codec root after = some (staged.generationId, partsOf members) := by
  have candidates : generationCandidates codec after root = staged.manifest.candidates root := by
    rw [generationCandidates, manifest]
  have falls := handle.falls
  unfold FallsBack at falls
  -- the current generation is read if it is complete, else the previous one
  cases isCurrent : reader.contents codec after
      ⟨staged.generationId, generationDirectory root staged.generationId⟩ with
  | some parts =>
    right
    obtain rfl := GenerationReader.contents_eq_of_unique handle.identifies handle.generationId
      isCurrent
    rw [GenerationReader.selected, candidates, GenerationManifest.candidates, List.map_cons,
      List.findSome?_cons, GenerationReader.usable,
      show reader.contents codec after ⟨staged.manifest.current,
        generationDirectory root staged.manifest.current⟩ = some (partsOf members) from isCurrent]
    rfl
  | none =>
    left
    have behind : reader.selected codec root after =
        (staged.previous.toList.map fun id => ⟨id, generationDirectory root id⟩).findSome?
          (reader.usable codec after) := by
      rw [GenerationReader.selected, candidates, GenerationManifest.candidates, List.map_cons,
        List.findSome?_cons, GenerationReader.usable,
        show reader.contents codec after ⟨staged.manifest.current,
          generationDirectory root staged.manifest.current⟩ = none from isCurrent]
      rfl
    cases wasSelected : reader.selected codec root before with
    | none =>
      rw [wasSelected] at falls
      rw [behind, show staged.previous = none from falls]
      rfl
    | some generation =>
      obtain ⟨id, parts⟩ := generation
      rw [wasSelected] at falls
      rcases falls with isPrevious | rfl
      · obtain ⟨_, wasUsable, _⟩ := GenerationReader.selected_eq_some wasSelected
        have stillUsable : reader.contents codec after ⟨id, generationDirectory root id⟩ =
            some parts := by
          rw [GenerationReader.contents_congr (fallback id isPrevious), wasUsable]
        rw [behind, isPrevious]
        simp [GenerationReader.usable, stillUsable]
      -- what was selected before is the current generation, which is still complete
      · exact absurd isCurrent (kept parts wasSelected)

/-- The store selects the staged generation once the manifest names it and it is complete. -/
theorem selected_of_switched (handle : Handle reader codec root before members staged)
    (switched : Switched codec root members staged before after) :
    (reader.selected codec root after = reader.selected codec root before ∨
      reader.selected codec root after = some (staged.generationId, partsOf members)) ∧
      (reader.Takes members →
        reader.selected codec root after = some (staged.generationId, partsOf members)) := by
  constructor
  · apply selected_of_manifest handle switched.manifest switched.fallback
    intro parts wasSelected
    obtain ⟨_, wasUsable, _⟩ := GenerationReader.selected_eq_some wasSelected
    obtain rfl := GenerationReader.contents_eq_of_unique handle.identifies handle.generationId
      wasUsable
    rw [GenerationReader.contents_of_kept wasUsable fun file member =>
      Or.inr (switched.holds file member)]
    exact Option.some_ne_none _
  · intro takes
    have isCurrent : reader.contents codec after
        ⟨staged.generationId, generationDirectory root staged.generationId⟩ =
          some (partsOf members) :=
      GenerationReader.contents_of_holds takes handle.named switched.holds handle.generationId
    rw [GenerationReader.selected, generationCandidates, switched.manifest]
    simp [GenerationManifest.candidates, StagedGeneration.manifest, GenerationReader.usable,
      isCurrent]

/-- At every point of a promotion the store selects what it selected, or the staged generation. -/
theorem selected_of_promoteState (handle : Handle reader codec root before members staged)
    (state : PromoteState codec root members staged before after) :
    reader.selected codec root after = reader.selected codec root before ∨
      reader.selected codec root after = some (staged.generationId, partsOf members) := by
  rcases state with (repairing | switched) | ⟨removes, elsewhere | ⟨manifest, fallback⟩⟩
  · exact GenerationReader.selected_of_repairing handle.identifies handle.generationId repairing
  · exact (selected_of_switched handle switched).1
  · exact Or.inl (GenerationReader.selected_of_hidden elsewhere (handle.hidden removes))
  · apply selected_of_manifest handle manifest fallback
    intro parts wasSelected
    obtain ⟨_, _, exposed⟩ := GenerationReader.selected_eq_some wasSelected
    exact absurd exposed (handle.hidden removes)

/-- A generation that no reader gets to, or that is there, is staged unseen. -/
theorem selected_of_stageState {id : String} (state : StageState root id members before after)
    (orderly : reader.Exposes codec root before id →
      before (generationDirectory root id) ≠ none) :
    reader.selected codec root after = reader.selected codec root before := by
  rcases state with same | published
  · exact GenerationReader.selected_of_sameView same
  · exact GenerationReader.selected_of_hidden published.elsewhere fun exposed =>
      orderly exposed published.absent

theorem handle_of_staged {previous : Option String}
    (made : Staged codec root members previous before after staged) (named : NamedFiles members)
    (identifies : codec.Identifies members)
    (isId : isGenerationId (Kidobo.generationId codec members) = true)
    (isPrevious : previous = (reader.selected codec root before).map Prod.fst)
    (orderly : reader.Exposes codec root before (Kidobo.generationId codec members) →
      before (generationDirectory root (Kidobo.generationId codec members)) ≠ none) :
    Handle reader codec root after members staged := by
  have ready := made.ready named isId identifies.unique
  have outcome := made.outcome
  rw [← made.generationId] at orderly
  have sameSelected : reader.selected codec root after = reader.selected codec root before :=
    selected_of_stageState outcome.state orderly
  refine ⟨named, identifies, made.storeRoot, made.generationId, ready.isId, ready.previous, ?_, ?_,
    ?_⟩
  · intro repair isRepair
    rw [isRepair] at outcome
    generalize staged.removeOnDrop = removes at outcome
    cases outcome with
    | damaged isStaging _ filled => exact ⟨_, rfl, isStaging, filled.remains⟩
  · obtain ⟨view, _, isFallback⟩ := made.previous
    rw [isPrevious] at isFallback
    unfold FallsBack
    rw [sameSelected]
    cases wasSelected : reader.selected codec root before with
    | none =>
      rw [wasSelected] at isFallback
      exact isFallback
    | some generation =>
      obtain ⟨id, parts⟩ := generation
      -- staging what is selected records no previous generation
      by_cases isStaged : id = staged.generationId
      · exact Or.inr isStaged
      · left
        obtain ⟨member, _⟩ := GenerationReader.selected_eq_some wasSelected
        rw [isFallback, wasSelected, previousOf, Option.map_some, if_neg (by simpa using isStaged)]
        simp [Option.filter, isGenerationId_of_mem_candidates member, isStaged]
  · intro removes exposed
    rw [removes] at outcome
    generalize staged.repair = repair at outcome
    cases outcome with
    | published published =>
      exact orderly ((GenerationReader.exposes_of_sameElsewhere published.elsewhere).mp exposed)
        published.absent

/-- Cleaning up leaves what is known of a staged generation. It may remove staged files. -/
theorem Handle.of_sameSelection (handle : Handle reader codec root before members staged)
    (same : SameSelection codec root before after)
    (kept : ∀ path, after path = before path ∨ after path = none) :
    Handle reader codec root after members staged := by
  refine ⟨handle.named, handle.identifies, handle.storeRoot, handle.generationId, handle.isId,
    handle.previous, fun repair isRepair => ?_, ?_, fun removes exposed => ?_⟩
  · obtain ⟨staging, isSame, isStaging, remains⟩ := handle.repair repair isRepair
    refine ⟨staging, isSame, isStaging, fun file member => ?_⟩
    rcases kept (staging ++ [file.name]) with still | gone
    · rw [still]
      exact remains file member
    · exact Or.inr gone
  · have falls := handle.falls
    unfold FallsBack at falls ⊢
    rwa [GenerationReader.selected_of_sameSelection same]
  · exact handle.hidden removes ((GenerationReader.exposes_of_sameSelection same).mp exposed)

/-- Cleaning up leaves every path as it was, or removes it. -/
theorem kept_of_cleanup {trace : List (Event FileOp FileOp.Result FileSystem)}
    {ending : Ending IoError Unit}
    (runs : Runs FileStep (cleanupUnselectedGenerations codec root) before trace after ending)
    (path : Path) : after path = before path ∨ after path = none := by
  have contract : Ensures (fun files => files path = before path ∨ files path = none)
      (fun _ files => files path = before path ∨ files path = none)
      (fun _ files => files path = before path ∨ files path = none)
      (cleanupUnselectedGenerations codec root) before := by
    refine wp_of_issues (issues_cleanup codec root) ?_ (Or.inl rfl)
    intro earlier op answer later removes stepped held
    rcases FileStep.of_removes removes stepped path with same | gone
    · rw [same]
      exact held
    · exact Or.inr gone
  exact always_of_runs runs contract (Or.inl rfl)

/-- Readers see no difference, except that the directory of a dropped generation goes. -/
def Dropped (root : Path) (staged : StagedGeneration) (before after : FileSystem) : Prop :=
  ∀ path, ViewPath root path →
    (staged.removeOnDrop = true → ¬generationDirectory root staged.generationId <+: path) →
      after path = before path

theorem ensures_drop (handle : Handle reader codec root before members staged) :
    Ensures (Dropped root staged before) (fun _ after => Dropped root staged before after)
      (fun _ _ => False) (dropStaged staged) before := by
  have drops {middle : FileSystem} (same : SameView root before middle) :
      Ensures (Dropped root staged before) (fun _ after => Dropped root staged before after)
        (fun _ _ => False)
        (if !staged.promoted && staged.removeOnDrop then
          bestEffort (change (.removeDirAll
            (generationDirectory staged.storeRoot staged.generationId)))
        else return ()) middle := by
    split
    case isTrue unpromoted =>
      rw [Bool.and_eq_true] at unpromoted
      apply ensures_bestEffort_last
      intro after removed
      have dropped : Dropped root staged before after := by
        intro path seen apart
        rw [handle.storeRoot] at removed
        rw [Mutation.frame removed (apart unpromoted.2), same path seen]
      exact ⟨dropped, dropped⟩
    case isFalse => exact fun path seen _ => same path seen
  unfold dropStaged
  cases isRepair : staged.repair with
  | none => exact drops (.refl root before)
  | some repair =>
    obtain ⟨staging, rfl, isStaging, _⟩ := handle.repair repair isRepair
    apply ensures_bestEffort
    intro after removed
    have same := isStaging.removed removed
    exact ⟨fun path seen _ => same path seen, drops same⟩

theorem selected_of_dropped (handle : Handle reader codec root before members staged)
    (dropped : Dropped root staged before after) :
    reader.selected codec root after = reader.selected codec root before := by
  cases removes : staged.removeOnDrop with
  | true =>
    exact GenerationReader.selected_of_hidden
      (fun path seen apart => dropped path seen fun _ => apart) (handle.hidden removes)
  | false =>
    apply GenerationReader.selected_of_sameView
    intro path seen
    exact dropped path seen fun isTrue => by rw [removes] at isTrue; cases isTrue

end Handle

/-! ### Histories -/

section Histories

variable {codec : GenerationCodec} {reader : GenerationReader} {root : Path}

/-- What is staged in a store can be promoted or dropped. -/
def CacheStore.Valid (reader : GenerationReader) (codec : GenerationCodec) (root : Path)
    (store : CacheStore) : Prop :=
  ∀ members staged, store.staged = some (members, staged) →
    Handle reader codec root store.files members staged

theorem CacheStore.valid_of_idle (files : FileSystem) :
    CacheStore.Valid reader codec root ⟨files, none⟩ := fun _ _ nothing => by cases nothing

/-- Every orderly step keeps the selection, and what it stages can be promoted or dropped. -/
theorem StoreStep.keepsSelection {event : Transition CacheStore StoreAction}
    (digest : ∀ bytes, (codec.sha256 bytes).length = 32)
    (step : StoreStep codec reader root event.before event.label event.after)
    (orderly : Orderly codec reader root event) (readable : Readable codec event)
    (valid : event.before.Valid reader codec root) :
    KeepsSelection codec reader root event ∧ event.after.Valid reader codec root := by
  obtain ⟨before, label, after⟩ := event
  dsimp only at step valid ⊢
  -- a valid store has a handle on what is staged, so each action has its contract
  cases step with
  | @stage files last members trace ending runs =>
    have isId : isGenerationId
        (generationId codec (sortedByName GenerationFile.name members)) = true :=
      isGenerationId_sha256Hex (digest _)
    have state := always_of_runs runs (ensures_stageGeneration isId) (Or.inl (.refl root files))
    refine ⟨selected_of_stageState state orderly, ?_⟩
    rintro _ staged isStaged
    obtain ⟨_, isReturned, same⟩ := Option.map_eq_some_iff.mp isStaged
    obtain ⟨rfl, rfl⟩ := Prod.mk.inj same
    cases ending with
    | returned value =>
      obtain rfl := Option.some.inj isReturned
      obtain ⟨named, made⟩ := (runs.sound (ensures_stageGeneration isId)).2
      exact handle_of_staged made named readable isId rfl orderly
    | failed | stopped => cases isReturned
  | @promote files last members staged trace ending runs =>
    have handle := valid members staged rfl
    have contract := ensures_promote (handle.ready (orderly members staged rfl))
      handle.identifies.unique (readable members staged rfl)
    have state := always_of_runs runs contract (Or.inl (Or.inl (.refl _ _ _ _)))
    refine ⟨⟨selected_of_promoteState handle state, ?_⟩, CacheStore.valid_of_idle last⟩
    intro returned takes
    cases ending with
    | returned value => exact (selected_of_switched handle (runs.sound contract).2.2).2 takes
    | failed | stopped => cases returned
  | @drop files last members staged trace ending runs =>
    have handle := valid members staged rfl
    have dropped := always_of_runs runs (ensures_drop handle) fun _ _ _ => rfl
    exact ⟨selected_of_dropped handle dropped, CacheStore.valid_of_idle last⟩
  | @cleanup files last staged trace ending runs =>
    have same := always_of_runs runs (ensures_cleanup codec root files) fun _ _ => rfl
    exact ⟨GenerationReader.selected_of_sameSelection same, fun members staged isStaged =>
      (valid members staged isStaged).of_sameSelection same (kept_of_cleanup runs)⟩
  | stop => exact ⟨rfl, CacheStore.valid_of_idle _⟩

/-- In every history whose steps are orderly, only promotions change what the store selects, and
only to the staged generation, complete. -/
theorem orderly_keepsSelection (codec : GenerationCodec) (reader : GenerationReader) (root : Path)
    (files : FileSystem) (events : List (Transition CacheStore StoreAction)) (last : CacheStore)
    (digest : ∀ bytes, (codec.sha256 bytes).length = 32)
    (history : History (StoreStep codec reader root) ⟨files, none⟩ events last)
    (readable : ∀ event ∈ events, Readable codec event)
    (orderly : ∀ event ∈ events, Orderly codec reader root event) :
    ∀ event ∈ events, KeepsSelection codec reader root event := by
  have keeps (event : Transition CacheStore StoreAction) (member : event ∈ events)
      (step : StoreStep codec reader root event.before event.label event.after)
      (valid : event.before.Valid reader codec root) :=
    step.keepsSelection digest (orderly event member) (readable event member) valid
  -- the handle on what is staged is what every step of the history preserves
  have valid := (history.invariant (CacheStore.valid_of_idle files) fun event member step holds =>
    (keeps event member step holds).2).1
  exact fun event member =>
    (keeps event member (history.stepped event member) (valid event member)).1

end Histories

/-! ### Three histories -/

section Calm

variable (codec : GenerationCodec) (reader : GenerationReader) (root : Path) (stuck : Option Path)
  (names : List String)

/-- A store after files are staged in it. -/
def stagedStore (files : FileSystem) (members : List GenerationFile) : CacheStore :=
  let ran := exec (calmFiles stuck names) (stageGeneration codec root members
    ((reader.selected codec root files).map Prod.fst)) files
  ⟨ran.2, ran.1.value.map fun staged => (sortedByName GenerationFile.name members, staged)⟩

/-- The files of a store after what is staged in it is promoted, and whether that returned. -/
def promotedFiles (store : CacheStore) : Bool × FileSystem :=
  match store.staged with
  | none => (false, store.files)
  | some (_, staged) =>
    let ran := exec (calmFiles stuck names) (promote codec staged) store.files
    (ran.1.isReturned, ran.2)

/-- A store after it is cleaned up. -/
def cleanStore (store : CacheStore) : CacheStore :=
  ⟨(exec (calmFiles stuck names) (cleanupUnselectedGenerations codec root) store.files).2,
    store.staged⟩

variable {codec reader root stuck names}

theorem storeStep_stagedStore (files : FileSystem) (members : List GenerationFile) :
    StoreStep codec reader root ⟨files, none⟩ (.stage members)
      (stagedStore codec reader root stuck names files members) := by
  obtain ⟨trace, runs⟩ := exists_runs_exec (fileStep_calmFiles stuck names)
    (stageGeneration codec root members ((reader.selected codec root files).map Prod.fst)) files
  exact .stage runs

theorem storeStep_promotedFiles {store : CacheStore} (isStaged : store.staged.isSome = true) :
    StoreStep codec reader root store (.promote (promotedFiles codec stuck names store).1)
      ⟨(promotedFiles codec stuck names store).2, none⟩ := by
  obtain ⟨files, staged⟩ := store
  obtain ⟨⟨members, staged⟩, rfl⟩ := Option.isSome_iff_exists.mp isStaged
  obtain ⟨trace, runs⟩ := exists_runs_exec (fileStep_calmFiles stuck names) (promote codec staged)
    files
  exact .promote runs

theorem storeStep_cleanStore (store : CacheStore) :
    StoreStep codec reader root store .cleanup (cleanStore codec root stuck names store) := by
  obtain ⟨trace, runs⟩ := exists_runs_exec (fileStep_calmFiles stuck names)
    (cleanupUnselectedGenerations codec root) store.files
  exact .cleanup runs

end Calm

/-- A generation of one file. -/
def payload (contents : UInt8) : List GenerationFile := [⟨"payload", [contents]⟩]

/-- A name of a generation. -/
def digits (byte : UInt8) : String := hexLower (List.replicate 32 byte)

/-- A codec that knows two generations and two manifests. -/
def pairCodec : GenerationCodec where
  sha256 bytes :=
    if bytes = encodeParts (partsOf (payload 1)) then List.replicate 32 1
    else if bytes = encodeParts (partsOf (payload 2)) then List.replicate 32 2
    else List.replicate 32 0
  parseManifest bytes :=
    if bytes = [1] then some ⟨cacheSchemaVersion, digits 1, some (digits 2)⟩
    else if bytes = [2] then some ⟨cacheSchemaVersion, digits 2, none⟩
    else none
  renderManifest manifest := if manifest.previous = none then [2] else [1]

/-- A reader of one small file. -/
def payloadReader : GenerationReader where
  limits := [⟨"payload", 64⟩]
  safeNames := List.forall_mem_singleton.mpr (by decide)
  accepts _ := true

/-- A store that selects the second generation. -/
def secondSelected : FileSystem := fun path =>
  if path = manifestPath [] then some (.file [2])
  else if path = generationsRoot [] then some .directory
  else if path = generationDirectory [] (digits 2) then some .directory
  else if path = generationDirectory [] (digits 2) ++ ["payload"] then some (.file [2])
  else none

/-- The store with the first generation staged. -/
def firstStaged : CacheStore := stagedStore pairCodec payloadReader [] none [] secondSelected (payload 1)

/-- The files after a promotion whose last sync fails. -/
def firstAbandoned : FileSystem := (promotedFiles pairCodec (some []) [] firstStaged).2

/-- The store after the same files are staged again. -/
def firstRestaged : CacheStore :=
  stagedStore pairCodec payloadReader [] none [] firstAbandoned (payload 1)

/-- The store with the first generation staged, after it is cleaned up. -/
def firstCleaned : CacheStore := cleanStore pairCodec [] none [digits 1, digits 2] firstStaged

theorem digest_pairCodec (bytes : Bytes) : (pairCodec.sha256 bytes).length = 32 := by
  unfold pairCodec
  dsimp only
  split_ifs <;> simp

theorem identifies_payload :
    pairCodec.Identifies (sortedByName GenerationFile.name (payload 1)) := by
  have sorted : sortedByName GenerationFile.name (payload 1) = payload 1 :=
    sortedByName_of_pairwise (List.pairwise_singleton _ _)
  rw [sorted]
  refine ⟨fun other same => ?_, by decide +kernel⟩
  have isFirst : pairCodec.sha256 (encodeParts (partsOf (payload 1))) = List.replicate 32 1 := by
    decide +kernel
  rw [isFirst] at same
  unfold pairCodec at same
  dsimp only at same
  split_ifs at same with first second
  · exact first
  · exact absurd same (by decide)
  · exact absurd same (by decide)

theorem takes_payload : payloadReader.Takes (payload 1) :=
  ⟨⟨payload 1, .refl _, .cons ⟨rfl, by decide⟩ .nil⟩, rfl⟩

theorem firstStaged_manifest : firstStaged.staged.map (fun (_, staged) => staged.manifest) =
    some ⟨cacheSchemaVersion, digits 1, some (digits 2)⟩ := by decide +kernel

theorem readable_firstStaged (returned : Bool) (after : CacheStore) :
    Readable pairCodec ⟨firstStaged, .promote returned, after⟩ := by
  intro members staged isStaged
  have isManifest := firstStaged_manifest
  rw [show firstStaged.staged = some (members, staged) from isStaged] at isManifest
  have manifest : staged.manifest = ⟨cacheSchemaVersion, digits 1, some (digits 2)⟩ :=
    Option.some.inj isManifest
  rw [manifest]
  exact ⟨by decide +kernel, by decide +kernel⟩

theorem step_firstStaged : StoreStep pairCodec payloadReader [] ⟨secondSelected, none⟩
    (.stage (payload 1)) firstStaged := storeStep_stagedStore secondSelected (payload 1)

/-- A promotion whose last sync fails leaves the manifest behind and removes the directory that it
names. Staging the same files again then selects them without a promotion. And cleaning up removes
what is staged, so that its promotion returns without selecting it. -/
theorem stage_exposes_missing :
    (∃ events last, History (StoreStep pairCodec payloadReader []) ⟨secondSelected, none⟩ events
        last ∧ (∀ event ∈ events, Readable pairCodec event) ∧
          ¬∀ event ∈ events, (∃ members, event.label = .stage members) →
            KeepsSelection pairCodec payloadReader [] event) ∧
      ∃ events last, History (StoreStep pairCodec payloadReader []) ⟨secondSelected, none⟩ events
        last ∧ (∀ event ∈ events, Readable pairCodec event) ∧
          ¬∀ event ∈ events, (∃ returned, event.label = .promote returned) →
            KeepsSelection pairCodec payloadReader [] event := by
  have isStaged : firstStaged.staged.isSome = true := by decide +kernel
  constructor
  -- staging alone changes the selected contents from the second members to the first
  · have promoted : StoreStep pairCodec payloadReader [] firstStaged
        (.promote (promotedFiles pairCodec (some []) [] firstStaged).1) ⟨firstAbandoned, none⟩ :=
      storeStep_promotedFiles isStaged
    have restaged : StoreStep pairCodec payloadReader [] ⟨firstAbandoned, none⟩
        (.stage (payload 1)) firstRestaged := storeStep_stagedStore firstAbandoned (payload 1)
    refine ⟨_, _, .cons step_firstStaged (.cons promoted (.cons restaged (.nil _))), ?_, ?_⟩
    · simp only [List.forall_mem_cons, List.not_mem_nil, IsEmpty.forall_iff, implies_true, and_true]
      exact ⟨identifies_payload, readable_firstStaged _ _, identifies_payload⟩
    · intro keeps
      simp only [List.forall_mem_cons] at keeps
      have kept := keeps.2.2.1 ⟨_, rfl⟩
      have before : payloadReader.selected pairCodec [] firstAbandoned =
          some (digits 2, [("payload", [2])]) := by decide +kernel
      have after : payloadReader.selected pairCodec [] firstRestaged.files =
          some (digits 1, [("payload", [1])]) := by decide +kernel
      have same : payloadReader.selected pairCodec [] firstRestaged.files =
          payloadReader.selected pairCodec [] firstAbandoned := kept
      rw [before, after] at same
      exact absurd same (by decide +kernel)
  -- the promotion returns, but the second members stay selected
  · have stillStaged : firstCleaned.staged = firstStaged.staged := rfl
    have cleaned : StoreStep pairCodec payloadReader [] firstStaged .cleanup firstCleaned :=
      storeStep_cleanStore firstStaged
    have promoted : StoreStep pairCodec payloadReader [] firstCleaned
        (.promote (promotedFiles pairCodec none [] firstCleaned).1) _ :=
      storeStep_promotedFiles (stillStaged ▸ isStaged)
    refine ⟨_, _, .cons step_firstStaged (.cons cleaned (.cons promoted (.nil _))), ?_, ?_⟩
    · simp only [List.forall_mem_cons, List.not_mem_nil, IsEmpty.forall_iff, implies_true, and_true]
      exact ⟨identifies_payload, trivial, readable_firstStaged true firstCleaned⟩
    · intro keeps
      simp only [List.forall_mem_cons] at keeps
      have kept := keeps.2.2.1 ⟨_, rfl⟩
      obtain ⟨⟨members, staged⟩, isSome⟩ := Option.isSome_iff_exists.mp isStaged
      have isMembers : firstStaged.staged.map Prod.fst = some (payload 1) := by decide +kernel
      rw [isSome] at isMembers
      obtain rfl : members = payload 1 := Option.some.inj isMembers
      unfold KeepsSelection at kept
      simp only [show firstCleaned.staged = some (payload 1, staged) from isSome] at kept
      have selected := kept.2 (by decide +kernel) takes_payload
      have after : payloadReader.selected pairCodec []
          (promotedFiles pairCodec none [] firstCleaned).2 =
            some (digits 2, [("payload", [2])]) := by decide +kernel
      rw [after] at selected
      have sameParts : [("payload", [2])] = partsOf (payload 1) :=
        congrArg Prod.snd (Option.some.inj selected)
      exact absurd sameParts (by decide +kernel)

/-- A generation is staged, promoted and selected. -/
theorem orderly_keepsSelection_promoted :
    ∃ events last, History (StoreStep pairCodec payloadReader []) ⟨secondSelected, none⟩ events
      last ∧ (∀ event ∈ events, KeepsSelection pairCodec payloadReader [] event) ∧
        payloadReader.selected pairCodec [] last.files =
          some (digits 1, [("payload", [1])]) := by
  have isStaged : firstStaged.staged.isSome = true := by decide +kernel
  have promoted : StoreStep pairCodec payloadReader [] firstStaged
      (.promote (promotedFiles pairCodec none [] firstStaged).1) _ :=
    storeStep_promotedFiles isStaged
  have history : History (StoreStep pairCodec payloadReader []) ⟨secondSelected, none⟩ _ _ :=
    .cons step_firstStaged (.cons promoted (.nil _))
  refine ⟨_, _, history, ?_, by decide +kernel⟩
  apply orderly_keepsSelection pairCodec payloadReader [] secondSelected _ _ digest_pairCodec history
  · simp only [List.forall_mem_cons, List.not_mem_nil, IsEmpty.forall_iff, implies_true, and_true]
    exact ⟨identifies_payload, readable_firstStaged _ _⟩
  · simp only [List.forall_mem_cons, List.not_mem_nil, IsEmpty.forall_iff, implies_true, and_true]
    constructor
    · intro exposed
      have candidates : generationCandidates pairCodec secondSelected [] =
          [⟨digits 2, generationDirectory [] (digits 2)⟩] := by decide +kernel
      unfold GenerationReader.Exposes at exposed
      dsimp only at exposed
      rw [candidates, reaches_cons_iff] at exposed
      rcases exposed with isFirst | ⟨_, nothing⟩
      · exact absurd isFirst (by decide +kernel)
      · exact absurd nothing not_reaches_nil
    · intro members staged isSome
      have isMembers : firstStaged.staged.map (fun (members, staged) =>
          (members, staged.generationId)) = some (payload 1, digits 1) := by decide +kernel
      rw [show firstStaged.staged = some (members, staged) from isSome] at isMembers
      simp only [Option.map_some, Option.some.injEq, Prod.mk.injEq] at isMembers
      obtain ⟨rfl, isFirst⟩ := isMembers
      have stands : firstStaged.files (generationDirectory [] (digits 1) ++ ["payload"]) =
          some (.file [1]) := by decide +kernel
      intro _
      rw [isFirst]
      exact List.forall_mem_singleton.mpr stands

end Kidobo
