import Kidobo.App.UnbanContract
import Kidobo.App.Asn

/-!
# Failures between the two stores

Unbanning networks or ASNs saves the temporary records first and the permanent
store second, each only when it has something to save. A refused save leaves its
own store as it was. Here it is proved what the other store holds then, which
error is reported, and that the same command run again ends where one run
without a failure ends.

## Main definitions

* `FailsAtomically`: what a refused save leaves
* `Recovers`: what the command does when it is run again
* `unbanCommand`: a preview and its application with one decision

## Main results

* `saves_failAtomically`: both commands fail atomically and recover
-/

namespace Kidobo

open Foundation

/-- An error that tells the operator that one store was updated. -/
def AppError.isPartialUpdate : AppError → Bool
  | partialBanUpdate _ _ _ => true
  | _ => false

/-- The saves of the blocklist and of the configuration. -/
def PortOp.savesPermanent : PortOp → Bool
  | writeLines _ _ => true
  | appendEntries _ _ _ _ => true
  | updateConfig _ _ _ => true
  | writeConfiguration _ _ _ => true
  | _ => false

/-- The save of the temporary records. -/
def PortOp.savesTemporary : PortOp → Bool
  | saveTemporaryBans _ _ => true
  | _ => false

/-- What a failed command leaves of the stores it started from, by the save that
was refused. -/
structure FailsAtomically (removal : TemporaryBans → TemporaryBans) (start : Stores)
    (error : AppError) (last : StoreState) : Prop where
  temporaryRefused : (∃ op ∈ last.refusals, op.savesTemporary = true) → last.toStores = start
  permanentRefused : (∃ op ∈ last.refusals, op.savesPermanent = true) →
    last.toStores = { start with temporary := removal start.temporary } ∧
      (error.isPartialUpdate = true ↔ last.temporary ≠ start.temporary)

/-- A command that is run again where one of its runs failed. It fails only when
a port refuses again, and it ends with the stores of a run that succeeds from
the start. -/
structure Recovers {α : Type} (setting : StoreSetting) (command : Workflow α) (done : α → Prop)
    (start failed : Stores) : Prop where
  completes : ∀ {trace last ending}, Runs (storeStep setting) command ⟨failed, []⟩ trace last ending →
    (∀ error, ending = .failed error → last.refusals ≠ []) ∧
      ∀ value, ending = .returned value → done value
  sameStores : ∀ {trace last value otherTrace otherLast other},
    Runs (storeStep setting) command ⟨failed, []⟩ trace last (.returned value) →
    Runs (storeStep setting) command ⟨start, []⟩ otherTrace otherLast (.returned other) →
      last.toStores = otherLast.toStores

theorem saves_iff (op : PortOp) :
    op.saves = true ↔ op.savesTemporary = true ∨ op.savesPermanent = true := by
  cases op <;> simp [PortOp.saves, PortOp.savesTemporary, PortOp.savesPermanent]

/-- Without a refused call there is nothing to say. -/
theorem failsAtomically_of_unrefused {removal : TemporaryBans → TemporaryBans} {start : Stores}
    {error : AppError} {last : StoreState} (unrefused : last.refusals = []) :
    FailsAtomically removal start error last := by
  constructor <;> simp [unrefused]

/-- With one refused call the promise is about that call. -/
theorem failsAtomically_refuse {removal : TemporaryBans → TemporaryBans} {start : Stores}
    {error : AppError} {state : StoreState} {op : PortOp} (unrefused : state.refusals = [])
    (temporary : op.savesTemporary = true → state.toStores = start)
    (permanent : op.savesPermanent = true →
      state.toStores = { start with temporary := removal start.temporary } ∧
        (error.isPartialUpdate = true ↔ state.temporary ≠ start.temporary)) :
    FailsAtomically removal start error (state.refuse op) := by
  have onlyOne : ∀ other ∈ (state.refuse op).refusals, other = op := by
    simp [unrefused]
  constructor
  · rintro ⟨other, member, saves⟩
    exact temporary (onlyOne other member ▸ saves)
  · rintro ⟨other, member, saves⟩
    exact permanent (onlyOne other member ▸ saves)

theorem failsAtomically_refuse_quiet {removal : TemporaryBans → TemporaryBans} {start : Stores}
    {error : AppError} {state : StoreState} {op : PortOp} (unrefused : state.refusals = [])
    (quiet : op.saves = false) : FailsAtomically removal start error (state.refuse op) := by
  have noSave := saves_iff op
  rw [quiet] at noSave
  apply failsAtomically_refuse unrefused
  · intro temporary
    exact absurd (noSave.mpr (Or.inl temporary)) Bool.false_ne_true
  · intro permanent
    exact absurd (noSave.mpr (Or.inr permanent)) Bool.false_ne_true

@[simp] theorem isPartialUpdate_partialUpdateError {source : AppError}
    (whole : source.isPartialUpdate = false) (completed : Bool) (temporaryPath path : String) :
    (partialUpdateError source completed temporaryPath path).isPartialUpdate = completed := by
  cases completed with
  | false => exact whole
  | true => rfl

/-! ### Networks -/

/-- A preview and its application with the decision of the operator. There is no
outcome when the request holds no list of targets. -/
def unbanCommand (request : UnbanRequest) (decision : UnbanDecision) :
    Workflow (Option UnbanOutcome) := do
  match ← prepareUnban request with
  | .ready preview => do
    let outcome ← applyUnban request preview decision
    return some outcome
  | _ => return none

section Networks

variable {setting : StoreSetting} {state : StoreState}

/-- The stores behind an unban of a request. -/
def UnbannedStores (setting : StoreSetting) (request : UnbanRequest) (decision : UnbanDecision)
    (start last : Stores) : Prop :=
  ∃ targets document, Requested setting request.input targets ∧
    BlocklistDocument.parse (start.blocklist.getD []) = .ok document ∧
    last = start.unbanned document targets decision

/-- The command fails only when a port refuses or nothing was requested. -/
theorem wp_unbanCommand (request : UnbanRequest) (decision : UnbanDecision) :
    wp (storeStep setting) (fun _ _ _ _ => True)
      (fun outcome last =>
        (outcome.isSome = true ∧
          UnbannedStores setting request decision state.toStores last.toStores) ∨
        outcome = none ∧ last = state ∧ ∀ targets, ¬ Requested setting request.input targets)
      (fun _ last => last.refusals ≠ state.refusals ∨
        ∀ targets, ¬ Requested setting request.input targets)
      (unbanCommand request decision) state := by
  rw [unbanCommand, wp_bind]
  apply wp_mono (wp_weaken (wp_prepareUnban request) fun _ _ _ _ _ => trivial)
  · rintro outcome last ⟨rfl, shown⟩
    cases outcome with
    | invalidTargets _ => exact Or.inr ⟨rfl, rfl, shown⟩
    | emptyFile => exact Or.inr ⟨rfl, rfl, shown⟩
    | ready preview =>
      obtain ⟨targets, document, requested, parses, rfl⟩ := shown
      dsimp only
      rw [wp_bind]
      apply wp_mono (wp_weaken (wp_applyUnban request rfl) fun _ _ _ _ _ => trivial)
      · rintro outcome _ ⟨again, ⟨parsesAgain, _⟩, _, rfl⟩
        exact Or.inl ⟨rfl, targets, again, requested, parsesAgain, rfl⟩
      · intro error _ failed
        cases failed with
        | refused _ => exact Or.inl (last.refusals_refuse_ne _)
        | temporaryRefused => exact Or.inl (last.refusals_refuse_ne _)
        | permanentRefused _ _ =>
          exact Or.inl ((last.temporarilyUnbanned targets decision).refusals_refuse_ne _)
        | changed parsesAgain differs =>
          -- nothing happened between the preview and its application
          obtain rfl := Except.ok.inj (parsesAgain.symm.trans parses)
          refine absurd ⟨parses, ?_⟩ differs
          simp [previewUnchanged, unbanPreview]
  · exact fun _ _ failed => failed

/-- Records lose something exactly when one of them is removed. -/
theorem kept_ne_iff {temporary : TemporaryBans} {targets : List CanonicalCidr}
    {decision : UnbanDecision} :
    temporary.kept targets decision ≠ temporary ↔
      temporary.ips.keys.any (decision.removes targets) = true := by
  constructor
  · intro different
    by_contra nothing
    exact different (kept_eq_self (Bool.not_eq_true _ ▸ nothing))
  · intro touched same
    obtain ⟨target, recorded, removed⟩ := List.any_eq_true.mp touched
    rw [← same] at recorded
    obtain ⟨record, inKept, rfl⟩ := List.mem_map.mp recorded
    have kept : (!decision.removes targets record.1) = true := (List.mem_filter.mp inKept).2
    rw [removed] at kept
    cases kept

theorem kept_kept (temporary : TemporaryBans) (targets : List CanonicalCidr)
    (decision : UnbanDecision) :
    (temporary.kept targets decision).kept targets decision = temporary.kept targets decision := by
  apply TemporaryBans.ext
  · apply SortedMap.ext
    simp [TemporaryBans.kept, SortedMap.retain]
  · rfl

theorem applyUnban_failAtomically {request : UnbanRequest} {preview : UnbanPreview}
    {decision : UnbanDecision} {before prepared last : StoreState} {start : Stores}
    {earlierTrace trace : List (Event PortOp PortOp.Result StoreState)} {error : AppError}
    (prepares : Runs (storeStep setting) (prepareUnban request) before earlierTrace prepared
      (.returned (.ready preview)))
    (runs : Runs (storeStep setting) (applyUnban request preview decision) ⟨start, []⟩ trace last
      (.failed error)) :
    ∃ targets, Requested setting request.input targets ∧
      FailsAtomically (fun temporary => temporary.kept targets decision) start error last ∧
      ((∃ op ∈ last.refusals, op.saves = true) →
        last.toStores = start ∨
          last.toStores = { start with temporary := start.temporary.kept targets decision }) := by
  obtain ⟨_, _, targets, seen, requested, _, rfl⟩ := prepares.sound (wp_prepareUnban request)
  obtain ⟨_, ended⟩ := runs.sound (wp_applyUnban request (rfl :
    (unbanPreview request targets seen before.temporary).targets = .new targets))
  refine ⟨targets, requested, ?_⟩
  cases ended with
  | refused quiet =>
    exact ⟨failsAtomically_refuse_quiet rfl quiet, fun _ => Or.inl rfl⟩
  | changed _ _ => exact ⟨failsAtomically_of_unrefused rfl, fun _ => Or.inl rfl⟩
  | temporaryRefused => exact ⟨failsAtomically_refuse rfl (fun _ => rfl) nofun, fun _ => Or.inl rfl⟩
  | permanentRefused _ _ =>
    refine ⟨failsAtomically_refuse rfl nofun ?_, fun _ => Or.inr rfl⟩
    intro _
    rw [isPartialUpdate_partialUpdateError rfl]
    exact ⟨rfl, kept_ne_iff.symm⟩

/-- Stores that lost only their temporary records end like the stores before. -/
theorem unbanned_of_failed {start failed : Stores} {targets : List CanonicalCidr}
    {decision : UnbanDecision}
    (failedStores : failed = start ∨
      failed = { start with temporary := start.temporary.kept targets decision })
    (document : BlocklistDocument) :
    failed.blocklist = start.blocklist ∧
      failed.unbanned document targets decision = start.unbanned document targets decision := by
  rcases failedStores with rfl | rfl
  · exact ⟨rfl, rfl⟩
  · simp [Stores.unbanned, kept_kept]

theorem unbanCommand_recovers {request : UnbanRequest} {decision : UnbanDecision}
    {targets : List CanonicalCidr} {start failed : Stores}
    (requested : Requested setting request.input targets)
    (failedStores : failed = start ∨
      failed = { start with temporary := start.temporary.kept targets decision }) :
    Recovers setting (unbanCommand request decision) (fun outcome => outcome.isSome = true) start
      failed := by
  constructor
  · intro trace last ending runs
    obtain ⟨_, ended⟩ := runs.sound (wp_unbanCommand request decision)
    constructor
    · rintro error rfl
      rcases ended with refused | nothing
      · exact refused
      · exact absurd requested (nothing targets)
    · rintro outcome rfl
      rcases ended with ⟨ready, _⟩ | ⟨_, _, nothing⟩
      · exact ready
      · exact absurd requested (nothing targets)
  · intro trace last outcome otherTrace otherLast other reruns single
    obtain ⟨_, again⟩ := reruns.sound (wp_unbanCommand request decision)
    obtain ⟨_, once⟩ := single.sound (wp_unbanCommand request decision)
    rcases again with ⟨_, againTargets, again, againRequested, againParses, againStores⟩ | ⟨_, _, nothing⟩
    · rcases once with ⟨_, onceTargets, once, onceRequested, onceParses, onceStores⟩ | ⟨_, _, nothing⟩
      · obtain rfl := againRequested.unique requested
        obtain rfl := onceRequested.unique requested
        obtain ⟨sameFile, sameResult⟩ := unbanned_of_failed failedStores once
        rw [show (StoreState.mk failed []).blocklist = start.blocklist from sameFile] at againParses
        obtain rfl := Except.ok.inj (againParses.symm.trans onceParses)
        rw [againStores, onceStores]
        exact sameResult
      · exact absurd requested (nothing targets)
    · exact absurd requested (nothing targets)

end Networks

/-! ### Autonomous systems -/

/-- The temporary records without these ASNs. -/
def TemporaryBans.withoutAsns (temporary : TemporaryBans) (asns : List ℕ) : TemporaryBans :=
  { temporary with asns := temporary.asns.retain fun asn _ => decide (asn ∉ asns) }

/-- Whether some of these ASNs is recorded. -/
def TemporaryBans.holdsAsn (temporary : TemporaryBans) (asns : List ℕ) : Bool :=
  asns.any fun asn => decide (asn ∈ temporary.asns.keys)

theorem removeTemporaryAsns_snd (asns : List ℕ) (records : SortedMap ℕ ℕ) :
    (removeTemporaryAsns asns records).2 = records.retain fun asn _ => decide (asn ∉ asns) := by
  induction asns generalizing records with
  | nil =>
    apply SortedMap.eq_of_mem_iff
    intro record
    simp [removeTemporaryAsns]
  | cons asn rest ih =>
    apply SortedMap.eq_of_mem_iff
    intro record
    simp [removeTemporaryAsns, ih, SortedMap.remove, and_assoc]

theorem removeTemporaryAsns_fst (asns : List ℕ) (records : SortedMap ℕ ℕ) :
    (!(removeTemporaryAsns asns records).1.isEmpty) =
      asns.any fun asn => decide (asn ∈ records.keys) := by
  induction asns generalizing records with
  | nil => rfl
  | cons asn rest ih =>
    change (!(if (records.lookup asn).isSome = true then
      asn :: (removeTemporaryAsns rest (records.remove asn)).1
      else (removeTemporaryAsns rest (records.remove asn)).1).isEmpty) = _
    rw [List.any_cons]
    by_cases recorded : asn ∈ records.keys
    · rw [if_pos (SortedMap.isSome_lookup_iff.mpr recorded), decide_eq_true recorded]
      rfl
    · rw [if_neg (mt SortedMap.isSome_lookup_iff.mp recorded), ih, decide_eq_false recorded,
        Bool.false_or, Bool.eq_iff_iff, List.any_eq_true, List.any_eq_true]
      simp only [decide_eq_true_iff, SortedMap.mem_keys_remove]
      constructor
      · rintro ⟨other, inRest, otherRecorded, _⟩
        exact ⟨other, inRest, otherRecorded⟩
      · rintro ⟨other, inRest, otherRecorded⟩
        have different : other ≠ asn := by
          rintro rfl
          exact recorded otherRecorded
        exact ⟨other, inRest, otherRecorded, different⟩

/-- Records that hold none of the ASNs lose nothing. -/
theorem withoutAsns_ne_iff {temporary : TemporaryBans} {asns : List ℕ} :
    temporary.withoutAsns asns ≠ temporary ↔ temporary.holdsAsn asns = true := by
  have sameRecords : temporary.withoutAsns asns = temporary ↔
      ∀ asn ∈ asns, asn ∉ temporary.asns.keys := by
    constructor
    · intro same asn requested recorded
      rw [← same] at recorded
      obtain ⟨record, kept, rfl⟩ := List.mem_map.mp recorded
      simpa [requested] using (List.mem_filter.mp kept).2
    · intro unrecorded
      have sameAsns : (temporary.withoutAsns asns).asns = temporary.asns := by
        apply SortedMap.eq_of_mem_iff
        intro record
        rw [TemporaryBans.withoutAsns, SortedMap.mem_entries_retain, decide_eq_true_iff]
        constructor
        · exact And.left
        · intro member
          exact ⟨member, fun requested => unrecorded _ requested (List.mem_map_of_mem member)⟩
      exact TemporaryBans.ext rfl sameAsns
  rw [Ne, sameRecords, TemporaryBans.holdsAsn, List.any_eq_true]
  simp

/-- Whether the ASNs are left to the temporary records alone. -/
def leavesConfiguration (temporary : TemporaryBans) (banned asns : List ℕ) : Bool :=
  temporary.holdsAsn asns && !(asns.any fun asn => decide (asn ∈ banned))

/-- The stores behind an unban of these ASNs. -/
def AsnUnbannedStores (format : ConfigFormat) (asns : List ℕ) (start last : Stores) : Prop :=
  ∃ path saved, loadConfigFromFile format path start.configuration = .ok saved ∧
    last.blocklist = start.blocklist ∧ last.temporary = start.temporary.withoutAsns asns ∧
    if leavesConfiguration start.temporary saved.asn.banned asns then
      last.configuration = start.configuration
    else ∃ otherPath contents update,
      updateAsnBans format otherPath start.configuration [] asns = .ok (contents, update) ∧
        last.configuration = some contents

/-- What an unban of these ASNs reports: those that were recorded, and those that the
configuration lost. -/
def AsnsReported (format : ConfigFormat) (asns : List ℕ) (start : Stores)
    (outcome : AsnUnbanOutcome) : Prop :=
  ∃ path saved update, loadConfigFromFile format path start.configuration = .ok saved ∧
    outcome.removed =
      numberSet ((removeTemporaryAsns asns start.temporary.asns).1 ++ update.removed) ∧
    if leavesConfiguration start.temporary saved.asn.banned asns then update = ⟨[], []⟩
    else ∃ otherPath contents,
      updateAsnBans format otherPath start.configuration [] asns = .ok (contents, update)

/-- Every way an ASN unban fails, with the state it leaves. -/
inductive AsnUnbanFailure (format : ConfigFormat) (tokens : List (List Char)) (state : StoreState) :
    AppError → StoreState → Prop
  | refused {error : AppError} {op : PortOp} (quiet : op.saves = false) :
      AsnUnbanFailure format tokens state error (state.refuse op)
  | invalid {error : AppError} (invalid : normalizeAsnTokens tokens = .error error) :
      AsnUnbanFailure format tokens state error state
  | temporaryRefused {error : AppError} {asns : List ℕ} {path : String} {saved : TemporaryBans}
      (requested : normalizeAsnTokens tokens = .ok asns) :
      AsnUnbanFailure format tokens state error (state.refuse (.saveTemporaryBans path saved))
  | permanentRefused {asns : List ℕ} {configPath path temporaryPath : String} {saved : SavedConfig}
      {source : AppError} (requested : normalizeAsnTokens tokens = .ok asns)
      (loaded : loadConfigFromFile format configPath state.configuration = .ok saved)
      (attempted : leavesConfiguration state.temporary saved.asn.banned asns = false)
      (whole : source.isPartialUpdate = false) :
      AsnUnbanFailure format tokens state
        (partialUpdateError source (state.temporary.holdsAsn asns) temporaryPath path)
        (StoreState.refuse { state with temporary := state.temporary.withoutAsns asns }
          (.updateConfig path [] asns))

section Systems

variable {setting : StoreSetting} {state : StoreState}

/-- The refused saves are those of the state before. -/
def NoRefusedSave (start last : StoreState) : Prop :=
  ∀ op ∈ last.refusals, op.saves = true → op ∈ start.refusals

/-- Deleting caches changes no store, whatever is refused. -/
theorem wp_deleteAsnCaches {guarantee : Step PortOp PortOp.Result StoreState}
    {fails : AppError → StoreState → Prop} (unmoved : Unmoved guarantee) {cacheDir : String}
    {asns : List ℕ} {deleted : ℕ} {notices : List Notice} :
    wp (storeStep setting) guarantee
      (fun _ last => last.toStores = state.toStores ∧ NoRefusedSave state last) fails
      (deleteAsnCaches cacheDir asns deleted notices) state := by
  induction asns generalizing state deleted notices with
  | nil => exact ⟨rfl, fun _ member _ => member⟩
  | cons asn rest ih =>
    rw [deleteAsnCaches, wp_bind]
    apply wp_quiet unmoved rfl
    · intro answer _ _
      rcases answer with error | gone
      · exact ih
      · cases gone <;> exact ih
    · intro answer _
      have refusedOne : ∀ last : StoreState, last.toStores = state.toStores ∧
          NoRefusedSave (state.refuse (.deleteCache asn cacheDir)) last →
          last.toStores = state.toStores ∧ NoRefusedSave state last := by
        rintro last ⟨sameStores, noSave⟩
        refine ⟨sameStores, ?_⟩
        intro op member saves
        rcases StoreState.mem_refusals_refuse.mp (noSave op member saves) with earlier | rfl
        · exact earlier
        · cases saves
      rcases answer with error | gone
      · exact wp_mono ih (fun _ => refusedOne) fun _ _ failed => failed
      · cases gone
        · exact wp_mono ih (fun _ => refusedOne) fun _ _ failed => failed
        · exact wp_mono ih (fun _ => refusedOne) fun _ _ failed => failed

/-- The update of the configuration is saved or refused. -/
theorem wp_updateConfig {guarantee : Step PortOp PortOp.Result StoreState}
    {fails : AppError → StoreState → Prop} {path : String} {add remove : List ℕ}
    {returns : AsnConfigUpdate → StoreState → Prop}
    (allowed : ∀ before op result after, guarantee before op result after)
    (saved : ∀ contents update,
      updateAsnBans setting.format path state.configuration add remove = .ok (contents, update) →
      returns update { state with configuration := some contents })
    (refused : ∀ source : AppError, source.isPartialUpdate = false →
      fails source (state.refuse (.updateConfig path add remove))) :
    wp (storeStep setting) guarantee returns fails
      (propagate (callPort (.updateConfig path add remove))) state := by
  refine wp_propagate.mpr (wp_save (fun _ _ => allowed _ _ _ _) ?_ ?_)
  · intro answer truthful answered
    cases answer with
    | error _ => cases answered
    | ok update =>
      obtain ⟨contents, updated⟩ := truthful
      have sameState : state.after setting (.updateConfig path add remove) (.ok update) =
          { state with configuration := some contents } := by
        simp [StoreState.after, Stores.after, updated, PortOp.refusedBy, Except.isOk,
          Except.toBool]
      rw [sameState]
      exact saved contents update updated
  · intro answer truthful isRefused
    cases answer with
    | error source =>
      apply refused
      rcases truthful with ⟨_, rfl⟩ | ⟨_, rfl⟩ | ⟨_, rfl⟩ <;> rfl
    | ok _ => cases isRefused

/-- The part of the command behind the temporary save, when some records were
`changed` there and the configuration is `left` alone. -/
def unbanConfiguredAsns (paths : ResolvedPaths) (asns removed : List ℕ) (changed left : Bool) :
    Workflow AsnUnbanOutcome := do
  let update ←
    if left then pure ⟨[], []⟩
    else
      (propagate (callPort (.updateConfig paths.configFile [] asns))).mapError
        fun source => partialUpdateError source changed paths.temporaryBansFile paths.configFile
  let (deletedCacheFiles, notices) ← deleteAsnCaches paths.asnCacheDir asns 0 []
  return {
    removed := dedupAdjacent (sortUnstable (removed ++ update.removed))
    deletedCacheFiles := deletedCacheFiles
    notices := notices }

theorem wp_unbanConfiguredAsns {guarantee : Step PortOp PortOp.Result StoreState}
    {fails : AppError → StoreState → Prop} {paths : ResolvedPaths} {asns removed : List ℕ}
    {changed left : Bool} (allowed : ∀ before op result after, guarantee before op result after)
    (refused : left = false → ∀ source : AppError, source.isPartialUpdate = false →
      fails (partialUpdateError source changed paths.temporaryBansFile paths.configFile)
        (state.refuse (.updateConfig paths.configFile [] asns))) :
    wp (storeStep setting) guarantee
      (fun outcome last => NoRefusedSave state last ∧
        if left then last.toStores = state.toStores ∧ outcome.removed = numberSet (removed ++ [])
        else ∃ path contents update,
          updateAsnBans setting.format path state.configuration [] asns = .ok (contents, update) ∧
            last.toStores = { state.toStores with configuration := some contents } ∧
            outcome.removed = numberSet (removed ++ update.removed))
      fails (unbanConfiguredAsns paths asns removed changed left) state := by
  have unmoved : Unmoved guarantee := fun _ _ _ _ _ _ => allowed _ _ _ _
  unfold unbanConfiguredAsns
  cases left with
  | true =>
    apply (wp_bind _ _ _).mpr
    rw [Program.pure_eq, wp_ret, wp_bind]
    apply wp_mono (wp_deleteAsnCaches unmoved)
    · rintro ⟨deleted, notices⟩ last ⟨sameStores, noSave⟩
      exact ⟨noSave, sameStores, rfl⟩
    · exact fun _ _ failed => failed
  | false =>
    apply (wp_bind _ _ _).mpr
    refine (wp_mapError _ _ _).mpr (wp_updateConfig allowed ?_ ?_)
    · intro contents update updated
      rw [wp_bind]
      apply wp_mono (wp_deleteAsnCaches unmoved)
      · rintro ⟨deleted, notices⟩ last ⟨sameStores, noSave⟩
        exact ⟨noSave, _, contents, update, updated, sameStores, rfl⟩
      · exact fun _ _ failed => failed
    · exact refused rfl

theorem wp_executeUnbanAsn (request : AsnUnbanRequest) :
    wp (storeStep setting) (fun _ _ _ _ => True)
      (fun outcome last => NoRefusedSave state last ∧ ∃ asns,
        normalizeAsnTokens request.tokens = .ok asns ∧
          AsnUnbannedStores setting.format asns state.toStores last.toStores ∧
          AsnsReported setting.format asns state.toStores outcome)
      (AsnUnbanFailure setting.format request.tokens state) (executeUnbanAsn request) state := by
  have unmoved : Unmoved fun (_ : StoreState) (op : PortOp) (_ : op.Result) (_ : StoreState) =>
      True := fun _ _ _ _ _ _ => trivial
  have tolerates : Tolerates (AsnUnbanFailure setting.format request.tokens state) state :=
    fun _ _ quiet => .refused quiet
  rw [executeUnbanAsn, wp_bind]
  apply wp_checkCancelled_stores unmoved tolerates
  rw [wp_bind]
  apply wp_resolvePaths unmoved tolerates
  intro paths
  rw [wp_bind, wp_ofExcept]
  cases requested : normalizeAsnTokens request.tokens with
  | error error => exact .invalid requested
  | ok asns =>
    apply wp_withLock_stores unmoved tolerates
    rw [executeUnbanAsnLocked, wp_bind]
    apply wp_loadConfig unmoved tolerates
    intro saved loaded
    rw [wp_bind]
    apply wp_loadTemporaryBans unmoved tolerates
    have somethingRemoved := removeTemporaryAsns_fst asns state.temporary.asns
    have left := removeTemporaryAsns_snd asns state.temporary.asns
    generalize isRemoval : removeTemporaryAsns asns state.temporary.asns = removal
      at somethingRemoved left
    obtain ⟨removed, records⟩ := removal
    dsimp only at somethingRemoved left ⊢
    subst left
    rw [somethingRemoved, wp_bind]
    apply wp_checkCancelled_stores unmoved tolerates
    -- the permanent store comes second, on top of the records already saved
    have permanently := @wp_unbanConfiguredAsns setting
      { state with temporary := state.temporary.withoutAsns asns } (fun _ _ _ _ => True)
      (AsnUnbanFailure setting.format request.tokens state) paths asns removed
      (state.temporary.holdsAsn asns)
      (leavesConfiguration state.temporary saved.asn.banned asns) (fun _ _ _ _ => trivial)
      (fun attempted _ whole => .permanentRefused requested loaded attempted whole)
    have finished : wp (storeStep setting) (fun _ _ _ _ => True)
        (fun outcome last => NoRefusedSave state last ∧ ∃ others,
          (.ok asns : Except AppError (List ℕ)) = .ok others ∧
          AsnUnbannedStores setting.format others state.toStores last.toStores ∧
          AsnsReported setting.format others state.toStores outcome)
        (AsnUnbanFailure setting.format request.tokens state)
        (unbanConfiguredAsns paths asns removed (state.temporary.holdsAsn asns)
          (leavesConfiguration state.temporary saved.asn.banned asns))
        { state with temporary := state.temporary.withoutAsns asns } := by
      apply wp_mono permanently
      · rintro outcome last ⟨noSave, ended⟩
        refine ⟨noSave, asns, rfl, ?_⟩
        split_ifs at ended with isLeft
        · obtain ⟨sameStores, reported⟩ := ended
          constructor
          · refine ⟨_, saved, loaded, by rw [sameStores], by rw [sameStores], ?_⟩
            rw [if_pos isLeft, sameStores]
          · refine ⟨_, saved, ⟨[], []⟩, loaded, ?_, ?_⟩
            · rw [isRemoval]
              exact reported
            · rw [if_pos isLeft]
        · obtain ⟨path, contents, update, updated, sameStores, reported⟩ := ended
          constructor
          · refine ⟨_, saved, loaded, by rw [sameStores], by rw [sameStores], ?_⟩
            rw [if_neg isLeft]
            exact ⟨path, contents, update, updated, by rw [sameStores]⟩
          · refine ⟨_, saved, update, loaded, ?_, ?_⟩
            · rw [isRemoval]
              exact reported
            · rw [if_neg isLeft]
              exact ⟨path, contents, updated⟩
      · exact fun _ _ failed => failed
    change wp _ _ _ _ (if state.temporary.holdsAsn asns = true then
      (propagate (callPort (.saveTemporaryBans paths.temporaryBansFile
        (state.temporary.withoutAsns asns))) >>= fun _ =>
          unbanConfiguredAsns paths asns removed (state.temporary.holdsAsn asns)
            (leavesConfiguration state.temporary saved.asn.banned asns))
      else unbanConfiguredAsns paths asns removed (state.temporary.holdsAsn asns)
        (leavesConfiguration state.temporary saved.asn.banned asns)) state
    -- nothing to remove from the records means that they are not saved at all
    by_cases changed : state.temporary.holdsAsn asns = true
    · rw [if_pos changed, wp_bind, wp_propagate]
      apply @wp_save _ _ _ _ (.saveTemporaryBans _ _)
      · exact fun _ _ => trivial
      · intro answer _ answered
        cases answer with
        | error _ => cases answered
        | ok _ => exact finished
      · intro answer _ refused
        cases answer with
        | error _ => exact .temporaryRefused requested
        | ok _ => cases refused
    · have unchanged : state.temporary.withoutAsns asns = state.temporary := by
        by_contra different
        exact changed (withoutAsns_ne_iff.mp different)
      rw [if_neg changed]
      rwa [unchanged] at finished

theorem loadConfigFromFile_unique {format : ConfigFormat} {path otherPath : String}
    {file : Option (List Char)} {saved other : SavedConfig}
    (loaded : loadConfigFromFile format path file = .ok saved)
    (otherLoaded : loadConfigFromFile format otherPath file = .ok other) : saved = other := by
  cases file with
  | none => cases loaded
  | some contents =>
    simp only [loadConfigFromFile] at loaded otherLoaded
    split_ifs at loaded otherLoaded
    cases read : format.fromTomlStr contents with
    | error _ => simp [read] at loaded
    | ok config =>
      simp only [read, Except.ok.injEq] at loaded otherLoaded
      rw [← loaded, ← otherLoaded]

theorem updateAsnBans_unique {format : ConfigFormat} {path otherPath : String}
    {file : Option (List Char)} {add remove : List ℕ} {updated other : List Char × AsnConfigUpdate}
    (updates : updateAsnBans format path file add remove = .ok updated)
    (otherUpdates : updateAsnBans format otherPath file add remove = .ok other) :
    updated = other := by
  cases file with
  | none => cases updates
  | some contents =>
    simp only [updateAsnBans] at updates otherUpdates
    split_ifs at updates otherUpdates
    cases read : format.bannedAsns contents with
    | error _ => simp [read] at updates
    | ok existing =>
      simp only [read] at updates otherUpdates
      split_ifs at updates otherUpdates
      rw [← Except.ok.inj updates, ← Except.ok.inj otherUpdates]

/-- An ASN unban has one result. -/
theorem AsnUnbannedStores.unique {format : ConfigFormat} {asns : List ℕ} {start last other : Stores}
    (unbanned : AsnUnbannedStores format asns start last)
    (otherUnbanned : AsnUnbannedStores format asns start other) : last = other := by
  obtain ⟨_, saved, loaded, file, temporary, configuration⟩ := unbanned
  obtain ⟨_, _, otherLoaded, otherFile, otherTemporary, otherConfiguration⟩ := otherUnbanned
  obtain rfl := loadConfigFromFile_unique loaded otherLoaded
  have sameConfiguration : last.configuration = other.configuration := by
    split_ifs at configuration otherConfiguration with isLeft
    · rw [configuration, otherConfiguration]
    · obtain ⟨_, _, _, updates, written⟩ := configuration
      obtain ⟨_, _, _, otherUpdates, otherWritten⟩ := otherConfiguration
      rw [written, otherWritten, (Prod.mk.inj (updateAsnBans_unique updates otherUpdates)).1]
  cases last
  cases other
  simp_all

/-- Without recorded ASNs the configuration is not left alone. -/
theorem leavesConfiguration_withoutAsns (temporary : TemporaryBans) (banned asns : List ℕ) :
    leavesConfiguration (temporary.withoutAsns asns) banned asns = false := by
  have nothing : (temporary.withoutAsns asns).holdsAsn asns = false := by
    apply List.any_eq_false.mpr
    intro asn requested recorded
    obtain ⟨record, kept, rfl⟩ := List.mem_map.mp (of_decide_eq_true recorded)
    simpa [requested] using (List.mem_filter.mp kept).2
  rw [leavesConfiguration, nothing, Bool.false_and]

/-- Stores that lost only their temporary records, when the configuration was
not to be left alone, end like the stores before. -/
theorem asnUnbannedStores_of_failed {format : ConfigFormat} {asns : List ℕ} {start last : Stores}
    {path : String} {saved : SavedConfig}
    (loaded : loadConfigFromFile format path start.configuration = .ok saved)
    (attempted : leavesConfiguration start.temporary saved.asn.banned asns = false)
    (unbanned : AsnUnbannedStores format asns
      { start with temporary := start.temporary.withoutAsns asns } last) :
    AsnUnbannedStores format asns start last := by
  obtain ⟨_, _, _, file, temporary, configuration⟩ := unbanned
  rw [leavesConfiguration_withoutAsns, if_neg Bool.false_ne_true] at configuration
  refine ⟨path, saved, loaded, file, ?_, ?_⟩
  · rw [temporary]
    simp [TemporaryBans.withoutAsns, SortedMap.retain]
  · rw [attempted, if_neg Bool.false_ne_true]
    exact configuration

theorem executeUnbanAsn_recovers {request : AsnUnbanRequest} {start failed : Stores}
    (recovers : ∀ {asns last}, normalizeAsnTokens request.tokens = .ok asns →
      AsnUnbannedStores setting.format asns failed last →
        AsnUnbannedStores setting.format asns start last)
    {asns : List ℕ} (requested : normalizeAsnTokens request.tokens = .ok asns) :
    Recovers setting (executeUnbanAsn request) (fun _ => True) start failed := by
  constructor
  · intro trace last ending runs
    obtain ⟨_, ended⟩ := runs.sound (wp_executeUnbanAsn request)
    refine ⟨?_, fun _ _ => trivial⟩
    rintro error rfl
    cases ended with
    | refused _ => exact StoreState.refusals_refuse_ne _ _
    | temporaryRefused _ => exact StoreState.refusals_refuse_ne _ _
    | permanentRefused _ _ _ _ => exact StoreState.refusals_refuse_ne _ _
    | invalid invalid =>
      rw [requested] at invalid
      cases invalid
  · intro trace last outcome otherTrace otherLast other reruns single
    obtain ⟨_, _, others, otherRequested, again, _⟩ := reruns.sound (wp_executeUnbanAsn request)
    obtain ⟨_, _, _, onceRequested, once, _⟩ := single.sound (wp_executeUnbanAsn request)
    obtain rfl := Except.ok.inj (otherRequested.symm.trans onceRequested)
    exact (recovers otherRequested again).unique once

theorem executeUnbanAsn_failAtomically {request : AsnUnbanRequest} {start : Stores}
    {last : StoreState} {trace : List (Event PortOp PortOp.Result StoreState)} {error : AppError}
    (runs : Runs (storeStep setting) (executeUnbanAsn request) ⟨start, []⟩ trace last
      (.failed error)) {asns : List ℕ} (requested : normalizeAsnTokens request.tokens = .ok asns) :
    FailsAtomically (fun temporary => temporary.withoutAsns asns) start error last ∧
      Recovers setting (executeUnbanAsn request) (fun _ => True) start last.toStores := by
  obtain ⟨_, ended⟩ := runs.sound (wp_executeUnbanAsn request)
  cases ended with
  | refused quiet =>
    exact ⟨failsAtomically_refuse_quiet rfl quiet,
      executeUnbanAsn_recovers (fun _ unbanned => unbanned) requested⟩
  | invalid invalid =>
    rw [requested] at invalid
    cases invalid
  | temporaryRefused _ =>
    exact ⟨failsAtomically_refuse rfl (fun _ => rfl) nofun,
      executeUnbanAsn_recovers (fun _ unbanned => unbanned) requested⟩
  | permanentRefused failedRequested loaded attempted whole =>
    obtain rfl := Except.ok.inj (failedRequested.symm.trans requested)
    constructor
    · refine failsAtomically_refuse rfl nofun ?_
      intro _
      rw [isPartialUpdate_partialUpdateError whole]
      exact ⟨rfl, withoutAsns_ne_iff.symm⟩
    · apply executeUnbanAsn_recovers _ requested
      intro others _ othersRequested unbanned
      obtain rfl := Except.ok.inj (othersRequested.symm.trans requested)
      exact asnUnbannedStores_of_failed loaded attempted unbanned

end Systems

/-! ### Both commands -/

/-- A run with a refused save does not return. A refused save of the temporary
records leaves both stores; a refused save of the permanent store leaves that
store and exactly the requested removals in the temporary records, and the error
tells of a partial update exactly when something was removed there. The command
run again, with a fresh preview and the same decision, fails only when a port
refuses again and ends with the stores of one run that succeeds. -/
theorem saves_failAtomically (setting : StoreSetting) :
    (∀ {request : UnbanRequest} {preview : UnbanPreview} {decision : UnbanDecision}
      {before prepared last : StoreState} {start : Stores}
      {earlierTrace trace : List (Event PortOp PortOp.Result StoreState)}
      {ending : Ending AppError UnbanOutcome},
      Runs (storeStep setting) (prepareUnban request) before earlierTrace prepared
        (.returned (.ready preview)) →
      Runs (storeStep setting) (applyUnban request preview decision) ⟨start, []⟩ trace last
        ending →
      (∀ outcome, ending = .returned outcome → ∀ op ∈ last.refusals, op.saves = false) ∧
      ∀ error, ending = .failed error → ∃ targets, Requested setting request.input targets ∧
        FailsAtomically (fun temporary => temporary.kept targets decision) start error last ∧
        ((∃ op ∈ last.refusals, op.saves = true) →
          Recovers setting (unbanCommand request decision) (fun outcome => outcome.isSome = true)
            start last.toStores)) ∧
    ∀ {request : AsnUnbanRequest} {start : Stores} {last : StoreState}
      {trace : List (Event PortOp PortOp.Result StoreState)}
      {ending : Ending AppError AsnUnbanOutcome},
      Runs (storeStep setting) (executeUnbanAsn request) ⟨start, []⟩ trace last ending →
      (∀ outcome, ending = .returned outcome → ∀ op ∈ last.refusals, op.saves = false) ∧
      ∀ error, ending = .failed error → ∀ asns, normalizeAsnTokens request.tokens = .ok asns →
        FailsAtomically (fun temporary => temporary.withoutAsns asns) start error last ∧
        Recovers setting (executeUnbanAsn request) (fun _ => True) start last.toStores := by
  constructor
  · intro request preview decision before prepared last start _ trace ending prepares runs
    constructor
    · rintro outcome rfl op member
      obtain ⟨_, _, targets, seen, _, _, rfl⟩ := prepares.sound (wp_prepareUnban request)
      obtain ⟨_, _, _, _, rfl⟩ := runs.sound (wp_applyUnban request (rfl :
        (unbanPreview request targets seen before.temporary).targets = .new targets))
      cases member
    · rintro error rfl
      obtain ⟨targets, requested, atomically, failedStores⟩ :=
        applyUnban_failAtomically prepares runs
      refine ⟨targets, requested, atomically, ?_⟩
      intro refusedSave
      exact unbanCommand_recovers requested (failedStores refusedSave)
  · intro request start last trace ending runs
    constructor
    · rintro outcome rfl op member
      obtain ⟨_, noSave, _⟩ := runs.sound (wp_executeUnbanAsn request)
      by_contra saves
      exact nomatch noSave op member (Bool.not_eq_false _ ▸ saves)
    · rintro error rfl asns requested
      exact executeUnbanAsn_failAtomically runs requested

/-- Calm ports, except that no permanent store can be saved. -/
def fullDisk (setting : StoreSetting) (paths : ResolvedPaths) :
    Handler PortOp PortOp.Result StoreState := fun state op =>
  match op with
  | .writeLines path lines =>
    (.error (.blocklistWrite path "no space left on device"), state.refuse (.writeLines path lines))
  | .updateConfig path add remove =>
    (.error (.configWrite path "no space left on device"),
      state.refuse (.updateConfig path add remove))
  | other => calmStores setting paths 0 state other

theorem storeStep_fullDisk (setting : StoreSetting) (paths : ResolvedPaths) (state : StoreState)
    (op : PortOp) :
    storeStep setting state op (fullDisk setting paths state op).1
      (fullDisk setting paths state op).2 := by
  cases op with
  | writeLines path lines => exact ⟨⟨_, rfl⟩, rfl⟩
  | updateConfig path add remove => exact ⟨Or.inr (Or.inr ⟨_, rfl⟩), rfl⟩
  | _ => exact storeStep_calmStores setting paths 0 state _

/-- The minimal configuration, with a banned ASN or with an empty list of them. -/
def exampleSetting : StoreSetting := ⟨minimalFormat [[], [64500]], fun _ => none⟩

/-- A network and an ASN in both stores. -/
def exampleStores : Stores where
  blocklist := some "10.0.0.0/24\n10.0.1.0/24\n".toList
  temporary :=
    ⟨recordMap ((parseBlocklistTarget "10.0.0.0/24".toList).toList.map fun target => (target, 100)),
      SortedMap.empty.insert 64500 100⟩
  configuration := some (minimalText ++ bannedSection [64500])

/-- The request for the network, by one of its addresses. -/
def exampleUnban : UnbanRequest := ⟨⟨none, "/tmp", []⟩, .single "10.0.0.7/24".toList⟩

/-- The request for the ASN. -/
def exampleAsnUnban : AsnUnbanRequest := ⟨⟨none, "/tmp", []⟩, ["AS64500".toList]⟩

/-- Both commands on a full disk lose the temporary record alone and report it. Each of them, run
again once there is space, finishes what it began. -/
theorem saves_failAtomically_fullDisk :
    (∃ targets error outcome trace, ∃ last again : StoreState,
      FailsAtomically (fun temporary => temporary.kept targets ⟨false⟩) exampleStores error last ∧
      last.temporary.ips.keys = [] ∧ error.isPartialUpdate = true ∧
      Recovers exampleSetting (unbanCommand exampleUnban ⟨false⟩)
        (fun outcome => outcome.isSome = true) exampleStores last.toStores ∧
      Runs (storeStep exampleSetting) (unbanCommand exampleUnban ⟨false⟩) ⟨last.toStores, []⟩ trace
        again (.returned outcome) ∧ again.blocklist = some "10.0.1.0/24\n".toList) ∧
    ∃ error outcome trace, ∃ last again : StoreState,
      FailsAtomically (fun temporary => temporary.withoutAsns [64500]) exampleStores error last ∧
      last.temporary.asns.keys = [] ∧ error.isPartialUpdate = true ∧
      Recovers exampleSetting (executeUnbanAsn exampleAsnUnban) (fun _ => True) exampleStores
        last.toStores ∧
      Runs (storeStep exampleSetting) (executeUnbanAsn exampleAsnUnban) ⟨last.toStores, []⟩ trace
        again (.returned outcome) ∧
        again.configuration = some (minimalText ++ bannedSection []) := by
  have calm := storeStep_calmStores exampleSetting systemPaths 0
  have full := storeStep_fullDisk exampleSetting systemPaths
  constructor
  · have failed : returnsWith (fun preparation _ => preparation.readyWith fun preview =>
        failsWith (fun error last =>
            last.temporary.ips.keys.isEmpty && error.isPartialUpdate &&
              last.refusals.any PortOp.saves &&
              returnsWith (fun _ again => again.blocklist == some "10.0.1.0/24\n".toList)
                (exec (calmStores exampleSetting systemPaths 0) (unbanCommand exampleUnban ⟨false⟩)
                  ⟨last.toStores, []⟩))
          (exec (fullDisk exampleSetting systemPaths) (applyUnban exampleUnban preview ⟨false⟩)
            ⟨exampleStores, []⟩))
        (exec (calmStores exampleSetting systemPaths 0) (prepareUnban exampleUnban)
          ⟨exampleStores, []⟩) = true := by
      decide +kernel
    obtain ⟨preparation, prepared, ran, isReady⟩ := returnsWith_eq_true.mp failed
    obtain ⟨preview, rfl, failed⟩ := readyWith_eq_true.mp isReady
    obtain ⟨error, last, applyRan, failed⟩ := failsWith_eq_true.mp failed
    simp only [Bool.and_eq_true, List.isEmpty_iff, List.any_eq_true] at failed
    obtain ⟨⟨⟨records, whole⟩, refusedSave⟩, reran⟩ := failed
    obtain ⟨outcome, again, rerun, file⟩ := returnsWith_eq_true.mp reran
    obtain ⟨_, prepares⟩ := exists_runs_of_exec calm ran
    obtain ⟨_, applies⟩ := exists_runs_of_exec full applyRan
    obtain ⟨trace, reruns⟩ := exists_runs_of_exec calm rerun
    obtain ⟨targets, _, atomically, recovers⟩ :=
      ((saves_failAtomically exampleSetting).1 prepares applies).2 error rfl
    exact ⟨targets, error, outcome, trace, last, again, atomically, records, whole,
      recovers refusedSave, reruns, beq_iff_eq.mp file⟩
  · have failed : failsWith (fun error (last : StoreState) =>
          last.temporary.asns.keys.isEmpty && error.isPartialUpdate &&
            returnsWith (fun _ again =>
                again.configuration == some (minimalText ++ bannedSection []))
              (exec (calmStores exampleSetting systemPaths 0) (executeUnbanAsn exampleAsnUnban)
                ⟨last.toStores, []⟩))
        (exec (fullDisk exampleSetting systemPaths) (executeUnbanAsn exampleAsnUnban)
          ⟨exampleStores, []⟩) = true := by
      decide +kernel
    have requested : normalizeAsnTokens exampleAsnUnban.tokens = .ok [64500] := by decide +kernel
    obtain ⟨error, last, ran, failed⟩ := failsWith_eq_true.mp failed
    simp only [Bool.and_eq_true, List.isEmpty_iff] at failed
    obtain ⟨⟨records, whole⟩, reran⟩ := failed
    obtain ⟨outcome, again, rerun, file⟩ := returnsWith_eq_true.mp reran
    obtain ⟨_, applies⟩ := exists_runs_of_exec full ran
    obtain ⟨trace, reruns⟩ := exists_runs_of_exec calm rerun
    obtain ⟨atomically, recovers⟩ :=
      ((saves_failAtomically exampleSetting).2 applies).2 error rfl [64500] requested
    exact ⟨error, outcome, trace, last, again, atomically, records, whole, recovers, reruns,
      beq_iff_eq.mp file⟩

end Kidobo
