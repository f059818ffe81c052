import Kidobo.App.Asn
import Kidobo.App.BanContract

/-!
# What a timed ban records

A timed ban gives every requested target that is not banned permanently one
temporary entry, with one deadline for the whole request. The clock is read once,
so an environment whose clock shows one time speaks for every run.

## Main definitions

* `timedChange`: how a target is reported, from the records before the ban
* `TimedBan`: the records and the report of a timed ban
* `timedStep`: truthful ports whose clock shows a given time

## Main results

* `timedBan_recordRemaining`: the recording loop
* `timedBans_recorded`: the contract of timed bans of networks and of ASNs
-/

namespace Kidobo

open Foundation

local instance orderedKeysLawful {κ : Type} [LinearOrder κ] : LawfulBEq κ := inferInstance

/-! ### The recording loop -/

section Recording

variable {κ : Type} [LinearOrder κ]

/-- The deadline that a change reports. -/
def BanChange.deadline : BanChange → Option ℕ
  | temporaryAdded _ expiresAt => some expiresAt
  | temporaryRescheduled _ expiresAt => some expiresAt
  | _ => none

/-- How a target is reported that stands behind these earlier ones. -/
def timedChange (permanent earlier : List κ) (before : SortedMap κ ℕ) (expiresAt : ℕ)
    (render : κ → String) (target : κ) : BanChange :=
  if target ∈ permanent then .alreadyPermanent (render target)
  else if target ∈ earlier then .alreadyPresent (render target)
  else if (before.lookup target).isSome then .temporaryRescheduled (render target) expiresAt
  else .temporaryAdded (render target) expiresAt

/-- The records behind a timed ban, and what it reports. -/
structure TimedBan (permanent targets : List κ) (render : κ → String) (expiresAt : ℕ)
    (before after : SortedMap κ ℕ) (changes : List BanChange) : Prop where
  /-- A permanently banned target has no new or changed entry. -/
  permanentKept : ∀ target ∈ permanent, after.lookup target = before.lookup target
  /-- Every other target has one entry, with the deadline of the request. -/
  recorded : ∀ target ∈ targets, target ∉ permanent → after.lookup target = some expiresAt
  /-- Entries of other identities are kept. -/
  othersKept : ∀ target, target ∉ targets → after.lookup target = before.lookup target
  length : changes.length = targets.length
  reported : ∀ (index : ℕ) (target : κ), targets[index]? = some target →
    changes[index]? = some
      (timedChange permanent (targets.take index) before expiresAt render target)

variable {permanent seen targets : List κ} {expiresAt : ℕ} {render : κ → String}
  {entries recorded : SortedMap κ ℕ} {changes : List BanChange}

theorem lookup_recordRemaining {target : κ} :
    (recordRemaining permanent expiresAt render seen targets entries).2.lookup target =
      if target ∈ targets ∧ target ∉ permanent ∧ target ∉ seen then some expiresAt
      else entries.lookup target := by
  induction targets generalizing seen entries with
  | nil => simp [recordRemaining]
  | cons first rest ih =>
    rw [recordRemaining]
    by_cases banned : first ∈ permanent
    · rw [if_pos banned, ih]
      by_cases same : target = first
      · simp [same, banned]
      · simp [same]
    · rw [if_neg banned]
      by_cases repeated : first ∈ seen
      · rw [if_pos repeated, ih]
        by_cases same : target = first
        · simp [same, repeated]
        · simp [same]
      · rw [if_neg repeated, ih]
        by_cases same : target = first
        · simp [same, banned, repeated, SortedMap.lookup_insert]
        · simp [same, SortedMap.lookup_insert]

theorem length_recordRemaining :
    (recordRemaining permanent expiresAt render seen targets entries).1.length =
      targets.length := by
  induction targets generalizing seen entries with
  | nil => rfl
  | cons first rest ih =>
    rw [recordRemaining]
    split_ifs <;> simp [ih]

/-- A target that was reported before is not looked up again, so inserting it does not
change how later ones are reported. -/
theorem timedChange_insert {earlier : List κ} {first target : κ} (known : first ∈ earlier) :
    timedChange permanent earlier (entries.insert first expiresAt) expiresAt render target =
      timedChange permanent earlier entries expiresAt render target := by
  unfold timedChange
  by_cases repeated : target ∈ earlier
  · simp only [if_pos repeated]
  · have different : target ≠ first := fun same => repeated (same ▸ known)
    rw [SortedMap.lookup_insert, if_neg different]

theorem timedChange_congr {earlier other : List κ} {target : κ}
    (sameEarlier : target ∉ permanent → (target ∈ earlier ↔ target ∈ other)) :
    timedChange permanent earlier entries expiresAt render target =
      timedChange permanent other entries expiresAt render target := by
  unfold timedChange
  by_cases banned : target ∈ permanent
  · rw [if_pos banned, if_pos banned]
  · rw [if_neg banned, if_neg banned]
    simp only [sameEarlier banned]

theorem getElem?_recordRemaining {index : ℕ} {target : κ} (found : targets[index]? = some target) :
    (recordRemaining permanent expiresAt render seen targets entries).1[index]? =
      some (timedChange permanent (seen ++ targets.take index) entries expiresAt render target) := by
  induction targets generalizing seen entries index with
  | nil => simp at found
  | cons first rest ih =>
    rw [recordRemaining]
    cases index with
    | zero =>
      obtain rfl : first = target := by simpa using found
      by_cases banned : first ∈ permanent
      · simp [timedChange, banned]
      · by_cases repeated : first ∈ seen
        · simp [timedChange, banned, repeated]
        · simp [timedChange, banned, repeated]
    | succ index =>
      rw [List.getElem?_cons_succ] at found
      rw [List.take_succ_cons]
      by_cases banned : first ∈ permanent
      · rw [if_pos banned, List.getElem?_cons_succ, ih found]
        refine congrArg some (timedChange_congr fun notBanned => ?_)
        have different : target ≠ first := fun same => notBanned (same ▸ banned)
        simp [different]
      · rw [if_neg banned]
        by_cases repeated : first ∈ seen
        · rw [if_pos repeated, List.getElem?_cons_succ, ih found]
          refine congrArg some (timedChange_congr fun _ => ?_)
          by_cases same : target = first
          · simp [same, repeated]
          · simp [same]
        · rw [if_neg repeated, List.getElem?_cons_succ, ih found,
            timedChange_insert (by simp)]
          refine congrArg some (timedChange_congr fun _ => ?_)
          rw [List.mem_append, List.mem_cons, List.mem_append, List.mem_cons, or_assoc]
          exact or_left_comm

/-- The loop records the targets as a timed ban does. -/
theorem timedBan_recordRemaining :
    TimedBan permanent targets render expiresAt entries
      (recordRemaining permanent expiresAt render [] targets entries).2
      (recordRemaining permanent expiresAt render [] targets entries).1 where
  permanentKept target banned := by simp [lookup_recordRemaining, banned]
  recorded target requested notBanned := by simp [lookup_recordRemaining, requested, notBanned]
  othersKept target unasked := by simp [lookup_recordRemaining, unasked]
  length := length_recordRemaining
  reported _ _ found := getElem?_recordRemaining found

/-- A target that is not banned permanently is reported with a deadline. -/
theorem exists_deadline (timed : TimedBan permanent targets render expiresAt entries recorded
    changes) {target : κ} (requested : target ∈ targets) (notBanned : target ∉ permanent) :
    ∃ change ∈ changes, change.deadline.isSome = true := by
  -- the first place of the target is not behind an earlier one
  have inside : targets.idxOf target < targets.length := List.idxOf_lt_length_of_mem requested
  have found : targets[targets.idxOf target]? = some target := by
    rw [List.getElem?_eq_getElem inside, List.getElem_idxOf inside]
  have fresh : target ∉ targets.take (targets.idxOf target) := by
    intro earlier
    obtain ⟨position, before, isTarget⟩ := List.mem_iff_getElem.mp earlier
    rw [List.getElem_take] at isTarget
    rw [List.length_take] at before
    have first := List.not_of_lt_findIdx (p := fun other => other == target)
      (show position < targets.findIdx _ from lt_of_lt_of_le before (min_le_left _ _))
    simp [isTarget] at first
  refine ⟨_, List.mem_of_getElem? (timed.reported _ _ found), ?_⟩
  rw [timedChange, if_neg notBanned, if_neg fresh]
  split_ifs <;> rfl

/-- A report without deadlines is that of permanently banned targets. -/
theorem recordRemaining_of_permanent (banned : ∀ target ∈ targets, target ∈ permanent) :
    recordRemaining permanent expiresAt render seen targets entries =
      (targets.map fun target => .alreadyPermanent (render target), entries) := by
  induction targets with
  | nil => rfl
  | cons first rest ih =>
    obtain ⟨firstBanned, restBanned⟩ := List.forall_mem_cons.mp banned
    rw [recordRemaining, if_pos firstBanned, ih restBanned]
    rfl

end Recording

/-! ### The environment -/

/-- The clock shows this time whenever it answers. -/
def ClockShows (now : ℕ) : (op : PortOp) → op.Result → Prop
  | .nowUnixSecs, .ok shown => shown = now
  | _, _ => True

/-- Truthful ports that may refuse, with a clock that shows one time. -/
def timedStep (setting : StoreSetting) (now : ℕ) : Step PortOp PortOp.Result StoreState :=
  fun before op result after => storeStep setting before op result after ∧ ClockShows now op result

section Rules

variable {setting : StoreSetting} {now : ℕ} {guarantee : Step PortOp PortOp.Result StoreState}
  {state : StoreState} {fails : AppError → StoreState → Prop} {α κ : Type} [LinearOrder κ]

theorem timedStep_narrows (before : StoreState) (op : PortOp) (result : op.Result)
    (after : StoreState) (stepped : timedStep setting now before op result after) :
    storeStep setting before op result after :=
  stepped.1

/-- What truthful ports guarantee does not depend on the time. -/
theorem wp_timed {program : Workflow α} {returns : α → StoreState → Prop}
    (holds : wp (storeStep setting) guarantee returns fails program state) :
    wp (timedStep setting now) guarantee returns fails program state :=
  wp_narrow holds timedStep_narrows

theorem wp_nowUnixSecs_timed (unmoved : Unmoved guarantee) (tolerates : Tolerates fails state)
    {returns : ℕ → StoreState → Prop} (continues : returns now state) :
    wp (timedStep setting now) guarantee returns fails (propagate (callPort .nowUnixSecs)) state := by
  refine wp_propagate.mpr ?_
  rintro (error | shown) after ⟨⟨_, rfl⟩, shows⟩
  · rw [after_refused rfl]
    exact ⟨unmoved _ _ _ _ rfl rfl, tolerates _ _ rfl⟩
  · obtain rfl : shown = now := shows
    rw [after_answered rfl rfl]
    exact ⟨unmoved _ _ _ _ rfl rfl, continues⟩

/-- The records of a request, with the deadline that the clock gives. -/
def recordedAt (now : ℕ) (duration : BanDuration) (render : κ → String) (permanent targets : List κ)
    (entries : SortedMap κ ℕ) : RecordedBans κ where
  changes := (recordRemaining permanent (now + duration.seconds) render [] targets entries).1
  entries := (recordRemaining permanent (now + duration.seconds) render [] targets entries).2
  hasUpdates := targets.any fun target => decide (target ∉ permanent)

theorem wp_recordTemporaryBans (unmoved : Unmoved guarantee) (tolerates : Tolerates fails state)
    {entries : SortedMap κ ℕ} {targets permanent : List κ} {duration : BanDuration} {path : String}
    {render : κ → String} (rejects : ∀ error, fails error state)
    {returns : RecordedBans κ → StoreState → Prop}
    (continues : ((∃ target ∈ targets, target ∉ permanent) →
        now + duration.seconds ≤ maxExpiry) →
      returns (recordedAt now duration render permanent targets entries) state) :
    wp (timedStep setting now) guarantee returns fails
      (recordTemporaryBans entries targets permanent duration path render) state := by
  rw [recordTemporaryBans, wp_bind]
  apply wp_timed
  apply wp_checkCancelled_stores unmoved tolerates
  cases updates : targets.any fun target => decide (target ∉ permanent) with
  | false =>
    have allPermanent : ∀ target ∈ targets, target ∈ permanent := by
      simpa using List.any_eq_false.mp updates
    have nothing : recordedAt now duration render permanent targets entries =
        ⟨(recordRemaining permanent 0 render [] targets entries).1,
          (recordRemaining permanent 0 render [] targets entries).2, false⟩ := by
      rw [recordedAt, updates, recordRemaining_of_permanent allPermanent,
        recordRemaining_of_permanent allPermanent]
    rw [nothing] at continues
    rw [if_neg Bool.false_ne_true]
    apply continues
    rintro ⟨target, requested, notBanned⟩
    exact absurd (allPermanent target requested) notBanned
  | true =>
    rw [if_pos rfl, wp_bind]
    apply wp_nowUnixSecs_timed unmoved tolerates
    unfold BanDuration.expiresAt
    -- the clock is only read when a record is due, and then the deadline must be representable
    by_cases representable : now + duration.seconds ≤ maxExpiry
    · have positive := duration.positive
      have valid : now + duration.seconds ≤ maxExpiry ∧ 0 < now + duration.seconds :=
        ⟨representable, by omega⟩
      have result := continues fun _ => representable
      rw [recordedAt, updates] at result
      simp only [if_pos valid]
      exact result
    · have invalid : ¬(now + duration.seconds ≤ maxExpiry ∧ 0 < now + duration.seconds) :=
        fun valid => representable valid.1
      simp only [if_neg invalid]
      exact rejects _

end Rules

/-! ### Recording and saving -/

/-- A save is called for only with a representable deadline and a target that is not banned
permanently. -/
def SavesInTime {κ : Type} (now : ℕ) (duration : BanDuration) (asks : List κ → List κ → Prop) :
    Step PortOp PortOp.Result StoreState :=
  fun _ op _ _ => op.saves = true → now + duration.seconds ≤ maxExpiry ∧
    ∃ permanent targets, asks permanent targets ∧ ∃ target ∈ targets, target ∉ permanent

theorem unmoved_savesInTime {κ : Type} (now : ℕ) (duration : BanDuration)
    (asks : List κ → List κ → Prop) : Unmoved (SavesInTime now duration asks) := by
  intro _ op _ _ quiet _ saves
  rw [quiet] at saves
  cases saves

/-- The stores with other temporary records. -/
def Stores.withTemporary (stores : Stores) (temporary : TemporaryBans) : Stores :=
  { stores with temporary := temporary }

section Saving

variable {setting : StoreSetting} {now : ℕ} {state : StoreState} {α κ : Type} [LinearOrder κ]

/-- Both timed bans record the targets, save the records if there is one, and report. -/
theorem wp_recordAndSave {asks : List κ → List κ → Prop} {entries : SortedMap κ ℕ}
    {targets permanent : List κ} {duration : BanDuration} {path : String} {render : κ → String}
    (replace : SortedMap κ ℕ → TemporaryBans) {finish : RecordedBans κ → α}
    {returns : α → StoreState → Prop} (asked : asks permanent targets)
    (same : replace entries = state.temporary)
    (continues : ∀ last : StoreState,
      last.toStores = state.toStores.withTemporary
        (replace (recordedAt now duration render permanent targets entries).entries) →
      returns (finish (recordedAt now duration render permanent targets entries)) last) :
    wp (timedStep setting now) (SavesInTime now duration asks) returns
      (fun _ last => last.toStores = state.toStores)
      (recordTemporaryBans entries targets permanent duration path render >>= fun recorded =>
        if recorded.hasUpdates = true then
          propagate (callPort (.saveTemporaryBans path (replace recorded.entries))) >>=
            fun _ => pure (finish recorded)
        else pure (finish recorded)) state := by
  have unmoved := unmoved_savesInTime now duration asks
  have tolerates : Tolerates (fun _ last => last.toStores = state.toStores) state :=
    fun _ _ _ => rfl
  rw [wp_bind]
  refine wp_recordTemporaryBans unmoved tolerates (fun _ => rfl) ?_
  intro representable
  cases updates : (recordedAt now duration render permanent targets entries).hasUpdates with
  | false =>
    rw [if_neg Bool.false_ne_true]
    -- every target is banned permanently, so there is nothing to record or save
    have allPermanent : ∀ target ∈ targets, target ∈ permanent := by
      simpa using List.any_eq_false.mp updates
    apply continues
    rw [recordedAt, recordRemaining_of_permanent allPermanent, same]
    rfl
  | true =>
    have someTarget : ∃ target ∈ targets, target ∉ permanent := by
      simpa using List.any_eq_true.mp updates
    rw [if_pos rfl, wp_bind]
    apply wp_timed
    refine wp_propagate.mpr (wp_save ?_ ?_ ?_)
    · intro _ _ _
      exact ⟨representable someTarget, permanent, targets, asked, someTarget⟩
    · rintro (error | done) _ answered
      · cases answered
      · exact continues _ rfl
    · rintro (error | done) _ refused
      · rfl
      · cases refused

end Saving

section Workflow

variable {setting : StoreSetting} {now : ℕ} {state : StoreState}

/-- The permanent networks and the targets of a ban, as the stores and the request say. -/
def AsksNetworks (setting : StoreSetting) (input : BlocklistInput) (stores : Stores)
    (permanent targets : List CanonicalCidr) : Prop :=
  Requested setting input targets ∧ ∃ document,
    BlocklistDocument.parse (stores.blocklist.getD []) = .ok document ∧
      document.entries = permanent

/-- The permanent ASNs and the targets of a ban, as the configuration and the request say. -/
def AsksAsns (setting : StoreSetting) (tokens : List (List Char)) (stores : Stores)
    (permanent targets : List ℕ) : Prop :=
  normalizeAsnTokens tokens = .ok targets ∧ ∃ path saved,
    loadConfigFromFile setting.format path stores.configuration = .ok saved ∧
      saved.asn.banned = permanent

/-- One of the two kinds of temporary records. -/
structure RecordKind (κ : Type) [LinearOrder κ] where
  records : TemporaryBans → SortedMap κ ℕ
  replace : TemporaryBans → SortedMap κ ℕ → TemporaryBans
  render : κ → String

/-- The records of networks. -/
def networkRecords : RecordKind CanonicalCidr where
  records := TemporaryBans.ips
  replace bans ips := { bans with ips := ips }
  render := CanonicalCidr.display

/-- The records of ASNs. -/
def asnRecords : RecordKind ℕ where
  records := TemporaryBans.asns
  replace bans asns := { bans with asns := asns }
  render := displayAsn

/-- What a run that reports these changes leaves: the records of a timed ban, and the rest as
it was. -/
structure RecordedRun {κ : Type} [LinearOrder κ] (kind : RecordKind κ)
    (asks : List κ → List κ → Prop) (deadline : ℕ) (permanent targets : List κ)
    (before last : Stores) (changes : List BanChange) : Prop where
  asked : asks permanent targets
  timed : TimedBan permanent targets kind.render deadline (kind.records before.temporary)
    (kind.records last.temporary) changes
  restKept : last = before.withTemporary
    (kind.replace before.temporary (kind.records last.temporary))

theorem wp_executeBan_timed (paths : PathResolutionInput) (input : BlocklistInput)
    (duration : BanDuration) :
    wp (timedStep setting now)
      (SavesInTime now duration (AsksNetworks setting input state.toStores))
      (fun outcome last => match outcome with
        | .temporaryApplied changes _ => ∃ permanent targets,
          RecordedRun networkRecords (AsksNetworks setting input state.toStores)
            (now + duration.seconds) permanent targets state.toStores last.toStores changes
        | _ => last.toStores = state.toStores)
      (fun _ last => last.toStores = state.toStores)
      (executeBan ⟨paths, input, some duration⟩) state := by
  have unmoved := unmoved_savesInTime now duration (AsksNetworks setting input state.toStores)
  have tolerates : Tolerates (fun _ last => last.toStores = state.toStores) state :=
    fun _ _ _ => rfl
  rw [executeBan, wp_bind]
  apply wp_timed
  apply wp_checkCancelled_stores unmoved tolerates
  rw [wp_bind]
  apply wp_timed
  apply wp_resolvePaths unmoved tolerates
  intro resolved
  apply wp_withLock_narrow timedStep_narrows unmoved tolerates
  rw [executeBanLocked, wp_bind]
  apply wp_timed
  apply wp_loadConfig unmoved tolerates
  intro _ _
  rw [wp_bind]
  apply wp_timed
  apply wp_parseInput unmoved tolerates (fun _ _ => rfl)
  intro parsed requested
  cases parsed with
  | invalidTargets _ => rfl
  | emptyFile => rfl
  | ready targets =>
    dsimp only
    rw [wp_bind]
    apply wp_timed
    apply wp_loadBlocklist unmoved tolerates
    intro document loaded
    -- the permanent bans that count are the entries read under the lock
    have asked : AsksNetworks setting input state.toStores document.entries targets :=
      ⟨(requested targets).mpr rfl, document, (loadBlocklistDocument_eq_ok.mp loaded).2, rfl⟩
    rw [banTemporarily, wp_bind]
    apply wp_timed
    apply wp_loadTemporaryBans unmoved tolerates
    refine wp_recordAndSave (fun ips => { state.temporary with ips := ips }) asked rfl ?_
    intro last sameStores
    refine ⟨document.entries, targets, asked, ?_, ?_⟩
    · rw [sameStores]
      exact timedBan_recordRemaining
    · rw [sameStores]
      rfl

/-- Loading prefixes saves nothing. -/
theorem wp_loadAsnPrefixes {guarantee : Step PortOp PortOp.Result StoreState}
    {fails : AppError → StoreState → Prop} (unmoved : Unmoved guarantee)
    (tolerates : Tolerates fails state) {cacheDir : String} {staleAfterSecs : ℕ} {asns : List ℕ}
    {resolved : List CanonicalCidr} {notices : List Notice}
    {returns : List CanonicalCidr × List Notice → StoreState → Prop}
    (continues : ∀ loaded, returns loaded state) :
    wp (storeStep setting) guarantee returns fails
      (loadAsnPrefixes cacheDir staleAfterSecs asns resolved notices) state := by
  induction asns generalizing resolved notices with
  | nil => exact continues _
  | cons asn rest ih =>
    rw [loadAsnPrefixes, wp_bind]
    apply wp_checkCancelled_stores unmoved tolerates
    rw [wp_bind]
    refine wp_propagate.mpr (wp_quiet unmoved rfl ?_ ?_)
    · rintro (error | loaded) _ answered
      · cases answered
      · exact ih
    · rintro (error | loaded) refused
      · exact tolerates _ _ rfl
      · cases refused

theorem wp_executeBanAsn_timed (paths : PathResolutionInput) (tokens : List (List Char))
    (duration : BanDuration) :
    wp (timedStep setting now)
      (SavesInTime now duration (AsksAsns setting tokens state.toStores))
      (fun outcome last => ∃ permanent targets,
        RecordedRun asnRecords (AsksAsns setting tokens state.toStores) (now + duration.seconds)
          permanent targets state.toStores last.toStores outcome.temporaryChanges)
      (fun _ last => last.toStores = state.toStores)
      (executeBanAsn ⟨paths, tokens, some duration⟩) state := by
  have unmoved := unmoved_savesInTime now duration (AsksAsns setting tokens state.toStores)
  have tolerates : Tolerates (fun _ last => last.toStores = state.toStores) state :=
    fun _ _ _ => rfl
  rw [executeBanAsn, wp_bind]
  apply wp_timed
  apply wp_checkCancelled_stores unmoved tolerates
  rw [wp_bind]
  apply wp_timed
  apply wp_resolvePaths unmoved tolerates
  intro resolved
  cases normal : normalizeAsnTokens tokens with
  | error _ => rfl
  | ok targets =>
    rw [Program.ofExcept_ok_bind]
    apply wp_withLock_narrow timedStep_narrows unmoved tolerates
    rw [executeBanAsnLocked, wp_bind]
    apply wp_timed
    apply wp_loadConfig unmoved tolerates
    intro saved loaded
    -- the permanent bans that count are those configured under the lock
    have asked : AsksAsns setting tokens state.toStores saved.asn.banned targets :=
      ⟨normal, resolved.configFile, saved, loaded, rfl⟩
    rw [wp_bind]
    change wp _ _ _ _ (propagate (callPort (.loadTemporaryBans _)) >>= fun temporary =>
      pure (some temporary)) _
    rw [wp_bind]
    apply wp_timed
    apply wp_loadTemporaryBans unmoved tolerates
    change wp _ _ _ _ (loadAsnPrefixes _ _ _ _ _ >>= _) _
    rw [wp_bind]
    apply wp_timed
    apply wp_loadAsnPrefixes unmoved tolerates
    rintro ⟨prefixes, notices⟩
    dsimp only
    rw [wp_bind]
    apply wp_timed
    apply wp_checkCancelled_stores unmoved tolerates
    rw [banAsnsTemporarily]
    refine wp_recordAndSave (fun asns => { state.temporary with asns := asns }) asked rfl ?_
    intro last sameStores
    refine ⟨saved.asn.banned, targets, asked, ?_, ?_⟩
    · rw [sameStores]
      exact timedBan_recordRemaining
    · rw [sameStores]
      rfl

end Workflow

/-! ### A reported deadline was saved -/

section Told

variable {α β κ : Type} [LinearOrder κ]

/-- Where a deadline is reported, a save was answered. -/
def SavedIfReported (changes : List BanChange) (told : Transcript PortOp PortOp.Result) : Prop :=
  (∃ change ∈ changes, change.deadline.isSome = true) → ∃ answer ∈ told, answer.1.saves = true

theorem SavedIfReported.mono {changes : List BanChange} {told more : Transcript PortOp PortOp.Result}
    (saved : SavedIfReported changes told) (kept : told ⊆ more) : SavedIfReported changes more := by
  intro reported
  obtain ⟨answer, member, saves⟩ := saved reported
  exact ⟨answer, kept member, saves⟩

/-- What is called before does not matter. -/
theorem told_skip {report : α → List BanChange} {program : Workflow β} {next : β → Workflow α}
    (continues : ∀ value, Told (fun last told => SavedIfReported (report last) told) (next value)) :
    Told (fun last told => SavedIfReported (report last) told) (program >>= next) := by
  refine Told.bind (Told.of_forall (fun _ _ => trivial) program) ?_
  intro value told (_ : True)
  exact (continues value).mono fun _ _ saved => saved.mono (List.subset_append_right _ _)

theorem told_withLock {report : α → List BanChange} {path : String} {body : Workflow α}
    (holds : Told (fun last told => SavedIfReported (report last) told) body) :
    Told (fun last told => SavedIfReported (report last) told) (withLock path body) := by
  rw [withLock, withGuard]
  refine told_skip fun _ => Told.bind (Told.attempt holds) ?_
  intro outcome told saved
  cases outcome with
  | error error => exact fun _ => trivial
  | ok value =>
    intro _
    exact (saved value rfl).mono (List.subset_append_left _ _)

theorem told_recordTemporaryBans {entries : SortedMap κ ℕ} {targets permanent : List κ}
    {duration : BanDuration} {path : String} {render : κ → String} :
    Told (fun recorded _ => recorded.hasUpdates = false →
        ∀ change ∈ recorded.changes, change.deadline = none)
      (recordTemporaryBans entries targets permanent duration path render) := by
  rw [recordTemporaryBans]
  refine Told.bind (Told.of_forall (fun _ _ => trivial) _) ?_
  intro _ _ (_ : True)
  cases updates : targets.any fun target => decide (target ∉ permanent) with
  | false =>
    have allPermanent : ∀ target ∈ targets, target ∈ permanent := by
      simpa using List.any_eq_false.mp updates
    rw [if_neg Bool.false_ne_true]
    intro _ change member
    rw [recordRemaining_of_permanent allPermanent] at member
    obtain ⟨target, _, rfl⟩ := List.mem_map.mp member
    rfl
  | true =>
    rw [if_pos rfl]
    refine Told.bind (Told.of_forall (fun _ _ => trivial) _) ?_
    intro now _ (_ : True)
    cases duration.expiresAt now with
    | error _ => trivial
    | ok deadline =>
      intro impossible
      cases impossible

theorem told_recordAndSave {entries : SortedMap κ ℕ} {targets permanent : List κ}
    {duration : BanDuration} {path : String} {render : κ → String}
    (replace : SortedMap κ ℕ → TemporaryBans) {finish : RecordedBans κ → α}
    {report : α → List BanChange}
    (reports : ∀ recorded, report (finish recorded) = recorded.changes) :
    Told (fun last told => SavedIfReported (report last) told)
      (recordTemporaryBans entries targets permanent duration path render >>= fun recorded =>
        if recorded.hasUpdates = true then
          propagate (callPort (.saveTemporaryBans path (replace recorded.entries))) >>=
            fun _ => pure (finish recorded)
        else pure (finish recorded)) := by
  refine Told.bind told_recordTemporaryBans ?_
  intro recorded told nothing
  cases updates : recorded.hasUpdates with
  | false =>
    rintro ⟨change, member, hasDeadline⟩
    rw [reports] at member
    rw [nothing updates change member] at hasDeadline
    cases hasDeadline
  | true =>
    rw [if_pos rfl]
    rintro (error | done)
    · trivial
    · intro _
      exact ⟨⟨.saveTemporaryBans path (replace recorded.entries), .ok done⟩, by simp, rfl⟩

/-- The changes that a ban reports. -/
def BanOutcome.timedChanges : BanOutcome → List BanChange
  | temporaryApplied changes _ => changes
  | _ => []

theorem told_executeBan (paths : PathResolutionInput) (input : BlocklistInput)
    (duration : BanDuration) :
    Told (fun outcome told => SavedIfReported outcome.timedChanges told)
      (executeBan ⟨paths, input, some duration⟩) := by
  have nothing (told : Transcript PortOp PortOp.Result) : SavedIfReported [] told := by
    rintro ⟨_, impossible, _⟩
    cases impossible
  rw [executeBan]
  refine told_skip fun _ => told_skip fun resolved => told_withLock ?_
  rw [executeBanLocked]
  refine told_skip fun config => told_skip fun parsed => ?_
  cases parsed with
  | invalidTargets _ => exact nothing _
  | emptyFile => exact nothing _
  | ready targets =>
    refine told_skip fun document => ?_
    change Told _ (banTemporarily resolved config document targets duration)
    rw [banTemporarily]
    refine told_skip fun temporary => ?_
    exact told_recordAndSave (fun ips => { temporary with ips := ips }) fun _ => rfl

theorem told_executeBanAsn (paths : PathResolutionInput) (tokens : List (List Char))
    (duration : BanDuration) :
    Told (fun outcome told => SavedIfReported outcome.temporaryChanges told)
      (executeBanAsn ⟨paths, tokens, some duration⟩) := by
  rw [executeBanAsn]
  refine told_skip fun _ => told_skip fun resolved => told_skip fun targets => told_withLock ?_
  rw [executeBanAsnLocked]
  refine told_skip fun config => ?_
  have loads : Told (fun (found : Option TemporaryBans) _ => ∃ bans, found = some bans)
      (some <$> propagate (callPort (.loadTemporaryBans resolved.temporaryBansFile)) :
        Workflow (Option TemporaryBans)) := by
    rintro (error | bans)
    · trivial
    · exact ⟨bans, rfl⟩
  refine Told.bind loads ?_
  rintro _ front ⟨temporary, rfl⟩
  apply Told.mono (told_skip fun loaded => told_skip fun _ => ?_)
  · intro outcome told saved
    exact saved.mono (List.subset_append_right front told)
  · change Told _ (banAsnsTemporarily resolved config temporary targets duration loaded.2)
    rw [banAsnsTemporarily]
    exact told_recordAndSave (fun asns => { temporary with asns := asns }) fun _ => rfl

end Told

/-! ### The contract -/

/-- The contract of a timed ban. A run that reports changes has recorded the targets, and has
saved nothing exactly when all of them are banned permanently. Any other run that ends, a
request with an invalid target, and a deadline that is not representable change no store. -/
structure TimedContract {κ α : Type} [LinearOrder κ] (kind : RecordKind κ)
    (asks : List κ → List κ → Prop) (now : ℕ) (duration : BanDuration)
    (reports : List BanChange → Prop) (before last : Stores)
    (trace : List (Event PortOp PortOp.Result StoreState)) (ending : Ending AppError α) :
    Prop where
  recorded : ∀ changes, reports changes → ∃ permanent targets,
    RecordedRun kind asks (now + duration.seconds) permanent targets before last changes ∧
      ((∀ event ∈ trace, event.op.saves = false) ↔ ∀ target ∈ targets, target ∈ permanent)
  unreported : ending ≠ .stopped → (∀ changes, ¬reports changes) → last = before
  invalid : (∀ permanent targets, ¬asks permanent targets) → last = before
  unrepresentable : maxExpiry < now + duration.seconds → last = before

theorem SavesInTime.kept {κ α : Type} {setting : StoreSetting} {now : ℕ} {duration : BanDuration}
    {asks : List κ → List κ → Prop} {program : Workflow α} {state last : StoreState}
    {trace : List (Event PortOp PortOp.Result StoreState)} {ending : Ending AppError α}
    (runs : Runs (timedStep setting now) program state trace last ending)
    (inTime : ∀ event ∈ trace,
      SavesInTime now duration asks event.before event.op event.result event.after)
    (impossible : ¬(now + duration.seconds ≤ maxExpiry ∧
      ∃ permanent targets, asks permanent targets ∧ ∃ target ∈ targets, target ∉ permanent)) :
    last.toStores = state.toStores := by
  apply toStores_eq_of_runs (runs.widen timedStep_narrows)
  intro event member saves
  exact absurd (inTime event member saves) impossible

/-- The contract follows from what holds of every step and of the end. -/
theorem timedContract_of_run {κ α : Type} [LinearOrder κ] {kind : RecordKind κ}
    {asks : List κ → List κ → Prop} {setting : StoreSetting} {now : ℕ} {duration : BanDuration}
    {program : Workflow α} {report : α → List BanChange} {reports : List BanChange → Prop}
    {state last : StoreState} {trace : List (Event PortOp PortOp.Result StoreState)}
    {ending : Ending AppError α}
    (unique : ∀ permanent targets permanent' targets', asks permanent targets →
      asks permanent' targets' → permanent = permanent' ∧ targets = targets')
    (told : Told (fun outcome told => SavedIfReported (report outcome) told) program)
    (runs : Runs (timedStep setting now) program state trace last ending)
    (inTime : ∀ event ∈ trace,
      SavesInTime now duration asks event.before event.op event.result event.after)
    (returned : ∀ changes, reports changes →
      (∃ outcome, ending = .returned outcome ∧ report outcome = changes) ∧
      ∃ permanent targets, RecordedRun kind asks (now + duration.seconds) permanent targets
        state.toStores last.toStores changes)
    (otherwise : ending ≠ .stopped → (∀ changes, ¬reports changes) →
      last.toStores = state.toStores) :
    TimedContract kind asks now duration reports state.toStores last.toStores trace ending where
  recorded changes reported := by
    obtain ⟨⟨outcome, ended, rfl⟩, permanent, targets, run⟩ := returned changes reported
    refine ⟨permanent, targets, run, ?_⟩
    constructor
    -- a run that reports changes without a save has no target outside the permanent ones
    · intro nothingSaved target requested
      by_contra notBanned
      rw [ended] at runs
      obtain ⟨answer, member, saves⟩ := told.sound runs
        (exists_deadline run.timed requested notBanned)
      obtain ⟨event, inTrace, rfl⟩ := List.mem_map.mp member
      rw [nothingSaved event inTrace] at saves
      cases saves
    · intro allPermanent event member
      by_contra notQuiet
      obtain ⟨_, permanent', targets', asked, target, requested, notBanned⟩ :=
        inTime event member (by simpa using notQuiet)
      obtain ⟨rfl, rfl⟩ := unique _ _ _ _ run.asked asked
      exact notBanned (allPermanent target requested)
  unreported := otherwise
  invalid nothingAsked := SavesInTime.kept runs inTime fun ⟨_, permanent, targets, asked, _⟩ =>
    nothingAsked permanent targets asked
  unrepresentable tooLate := SavesInTime.kept runs inTime fun ⟨representable, _⟩ =>
    absurd representable (Nat.not_le_of_lt tooLate)

theorem asksNetworks_unique {setting : StoreSetting} {input : BlocklistInput} {stores : Stores}
    (permanent targets permanent' targets' : List CanonicalCidr)
    (left : AsksNetworks setting input stores permanent targets)
    (right : AsksNetworks setting input stores permanent' targets') :
    permanent = permanent' ∧ targets = targets' := by
  obtain ⟨requested, document, parses, rfl⟩ := left
  obtain ⟨requested', document', parses', rfl⟩ := right
  obtain rfl := Except.ok.inj (parses.symm.trans parses')
  exact ⟨rfl, requested.unique requested'⟩

/-- The path of a configuration stands in errors only. -/
theorem loadConfigFromFile_path {format : ConfigFormat} {path path' : String}
    {file : Option (List Char)} {saved : SavedConfig}
    (loaded : loadConfigFromFile format path file = .ok saved) :
    loadConfigFromFile format path' file = .ok saved := by
  unfold loadConfigFromFile at loaded ⊢
  cases file with
  | none => cases loaded
  | some contents =>
    dsimp only at loaded ⊢
    split_ifs at loaded ⊢
    exact loaded

theorem asksAsns_unique {setting : StoreSetting} {tokens : List (List Char)} {stores : Stores}
    (permanent targets permanent' targets' : List ℕ)
    (left : AsksAsns setting tokens stores permanent targets)
    (right : AsksAsns setting tokens stores permanent' targets') :
    permanent = permanent' ∧ targets = targets' := by
  obtain ⟨normal, path, saved, loaded, rfl⟩ := left
  obtain ⟨normal', path', saved', loaded', rfl⟩ := right
  obtain rfl := Except.ok.inj (loaded.symm.trans (loadConfigFromFile_path loaded'))
  exact ⟨rfl, Except.ok.inj (normal.symm.trans normal')⟩

/-- The targets of an ASN request are the ASNs of its tokens, each once and in ascending
order. -/
theorem normalizeAsnTokens_ascending {tokens : List (List Char)} {asns : List ℕ}
    (normal : normalizeAsnTokens tokens = .ok asns) :
    asns.Pairwise (· < ·) ∧ ∃ parsed, tokens.mapM parseAsnToken = .ok parsed ∧
      ∀ asn, asn ∈ asns ↔ asn ∈ parsed := by
  unfold normalizeAsnTokens at normal
  obtain ⟨parsed, allParsed, same⟩ := bind_eq_ok_iff.mp normal
  obtain rfl := Except.ok.inj same
  refine ⟨dedupAdjacent_sortUnstable_strict parsed, parsed, allParsed, fun asn => ?_⟩
  rw [mem_dedupAdjacent, mem_sortUnstable]

/-- Timed bans of networks and of ASNs keep the contract, whatever the stores hold and whatever
the ports refuse. The targets of an ASN request are its distinct ASNs in ascending order. -/
theorem timedBans_recorded {setting : StoreSetting} {now : ℕ} {paths : PathResolutionInput}
    {duration : BanDuration} {state last : StoreState}
    {trace : List (Event PortOp PortOp.Result StoreState)} :
    (∀ (input : BlocklistInput) (ending : Ending AppError BanOutcome),
      Runs (timedStep setting now) (executeBan ⟨paths, input, some duration⟩) state trace last
        ending →
      TimedContract networkRecords (AsksNetworks setting input state.toStores) now duration
        (fun changes => ∃ notices, ending = .returned (.temporaryApplied changes notices))
        state.toStores last.toStores trace ending) ∧
    ∀ (tokens : List (List Char)) (ending : Ending AppError AsnBanOutcome),
      Runs (timedStep setting now) (executeBanAsn ⟨paths, tokens, some duration⟩) state trace last
        ending →
      TimedContract asnRecords (AsksAsns setting tokens state.toStores) now duration
        (fun changes => ∃ outcome, ending = .returned outcome ∧
          outcome.temporaryChanges = changes)
        state.toStores last.toStores trace ending ∧
      ∀ targets, normalizeAsnTokens tokens = .ok targets →
        targets.Pairwise (· < ·) ∧ ∃ parsed, tokens.mapM parseAsnToken = .ok parsed ∧
          ∀ asn, asn ∈ targets ↔ asn ∈ parsed := by
  constructor
  · intro input ending runs
    obtain ⟨inTime, ended⟩ := runs.sound (wp_executeBan_timed paths input duration)
    refine timedContract_of_run asksNetworks_unique (told_executeBan paths input duration) runs
      inTime ?_ ?_
    · rintro changes ⟨notices, rfl⟩
      exact ⟨⟨_, rfl, rfl⟩, ended⟩
    · intro notStopped unreported
      cases ending with
      | returned outcome =>
        cases outcome with
        | temporaryApplied changes notices => exact absurd ⟨notices, rfl⟩ (unreported changes)
        | applied _ => exact ended
        | invalidTargets _ => exact ended
        | emptyFile => exact ended
      | failed error => exact ended
      | stopped => exact absurd rfl notStopped
  · intro tokens ending runs
    obtain ⟨inTime, ended⟩ := runs.sound (wp_executeBanAsn_timed paths tokens duration)
    refine ⟨timedContract_of_run asksAsns_unique (told_executeBanAsn paths tokens duration) runs
      inTime ?_ ?_, fun targets => normalizeAsnTokens_ascending⟩
    · rintro changes ⟨outcome, rfl, rfl⟩
      exact ⟨⟨outcome, rfl, rfl⟩, ended⟩
    · intro notStopped unreported
      cases ending with
      | returned outcome => exact absurd ⟨outcome, rfl, rfl⟩ (unreported _)
      | failed error => exact ended
      | stopped => exact absurd rfl notStopped

/-! ### Two runs -/

/-- Calm ports show their time. -/
theorem timedStep_calmStores (setting : StoreSetting) (paths : ResolvedPaths) (now : ℕ)
    (state : StoreState) (op : PortOp) :
    timedStep setting now state op (calmStores setting paths now state op).1
      (calmStores setting paths now state op).2 := by
  refine ⟨storeStep_calmStores setting paths now state op, ?_⟩
  cases op with
  | nowUnixSecs => rfl
  | _ => trivial

/-- One hour. -/
def oneHour : BanDuration := ⟨3600, by decide, by decide⟩

/-- An expired network, a permanent one, a repeated one and a new one. -/
theorem timedBans_recorded_expired :
    ∃ (permanent targets : List CanonicalCidr) (before last : Stores),
      RecordedRun networkRecords (AsksNetworks ⟨minimalFormat [], fun _ =>
          some "10.0.0.9\n10.0.1.0/24\n10.0.0.9/32\n10.0.2.0/24".toList⟩ (.file "targets") before)
        (1000 + oneHour.seconds) permanent targets before last
        [.temporaryRescheduled "10.0.0.9/32" 4600, .alreadyPermanent "10.0.1.0/24",
          .alreadyPresent "10.0.0.9/32", .temporaryAdded "10.0.2.0/24" 4600] := by
  let setting : StoreSetting := ⟨minimalFormat [], fun _ =>
    some "10.0.0.9\n10.0.1.0/24\n10.0.0.9/32\n10.0.2.0/24".toList⟩
  let expired : SortedMap CanonicalCidr ℕ :=
    (parseIpCidrStrict "10.0.0.9".toList).elim .empty fun target => SortedMap.empty.insert target 5
  let state : StoreState :=
    ⟨⟨some "10.0.1.0/24\n".toList, ⟨expired, .empty⟩, some minimalText⟩, []⟩
  let request : BanRequest := ⟨⟨none, "/tmp", []⟩, .file "targets", some oneHour⟩
  have applied : returnsWith (fun outcome _ => decide (outcome.timedChanges =
      [.temporaryRescheduled "10.0.0.9/32" 4600, .alreadyPermanent "10.0.1.0/24",
        .alreadyPresent "10.0.0.9/32", .temporaryAdded "10.0.2.0/24" 4600]))
      (exec (calmStores setting systemPaths 1000) (executeBan request) state) = true := by
    decide +kernel
  obtain ⟨banned, last, ran, same⟩ := returnsWith_eq_true.mp applied
  obtain ⟨trace, runs⟩ := exists_runs_of_exec (timedStep_calmStores setting systemPaths 1000) ran
  have reported := of_decide_eq_true same
  cases banned with
  | temporaryApplied changes notices =>
    obtain rfl : changes = _ := reported
    obtain ⟨permanent, targets, recorded, _⟩ :=
      (timedBans_recorded.1 _ _ runs).recorded _ ⟨notices, rfl⟩
    exact ⟨permanent, targets, state.toStores, last.toStores, recorded⟩
  | _ => cases reported

/-- Requested ASNs are reported in ascending order, and a repeated one is not reported
again. -/
theorem executeBanAsn_reports_ascending :
    ∃ (trace : List (Event PortOp PortOp.Result StoreState)) (last : StoreState)
      (outcome : AsnBanOutcome),
      Runs (timedStep ⟨minimalFormat [], fun _ => none⟩ 1000)
        (executeBanAsn ⟨⟨none, "/tmp", []⟩, ["AS2".toList, "AS1".toList, "AS2".toList],
          some oneHour⟩)
        ⟨⟨none, ⟨.empty, .empty⟩, some minimalText⟩, []⟩ trace last (.returned outcome) ∧
      ["AS2".toList, "AS1".toList, "AS2".toList].mapM parseAsnToken = .ok [2, 1, 2] ∧
      outcome.temporaryChanges = [.temporaryAdded "AS1" 4600, .temporaryAdded "AS2" 4600] := by
  let setting : StoreSetting := ⟨minimalFormat [], fun _ => none⟩
  let state : StoreState := ⟨⟨none, ⟨.empty, .empty⟩, some minimalText⟩, []⟩
  let request : AsnBanRequest :=
    ⟨⟨none, "/tmp", []⟩, ["AS2".toList, "AS1".toList, "AS2".toList], some oneHour⟩
  have applied : returnsWith (fun outcome _ => decide (outcome.temporaryChanges =
      [.temporaryAdded "AS1" 4600, .temporaryAdded "AS2" 4600]))
      (exec (calmStores setting systemPaths 1000) (executeBanAsn request) state) = true := by
    decide +kernel
  obtain ⟨outcome, last, ran, same⟩ := returnsWith_eq_true.mp applied
  obtain ⟨trace, runs⟩ := exists_runs_of_exec (timedStep_calmStores setting systemPaths 1000) ran
  exact ⟨trace, last, outcome, runs, by decide +kernel, of_decide_eq_true same⟩

end Kidobo
