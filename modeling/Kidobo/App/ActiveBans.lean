import Kidobo.App.SyncOrder
import Kidobo.Cache.AsnPrefixes

/-!
# Expiry and enforcement

Pruning expired records changes nothing that is enforced from then on. A
synchronization reads the clock once, under the lock; the same instant decides
which temporary bans the providers see as active and which records are dropped
after enforcement.

## Main definitions

* `TemporaryBans.Keeps`: the active records of one state are in another
* `loadTemporaryBlocklist`, `MakesCandidates`: what the providers make candidates of
* `BanLedger`, `ledgerPorts`: what a run has read and handed to its providers

## Main results

* `TemporaryBans.pruneExpired_changed_iff`, `TemporaryBans.pruned_pruned`
* `TemporaryBans.activeIps_pruned`, `TemporaryBans.activeAsns_pruned`
* `expiryPruning_invisible`
-/

namespace Kidobo

open Foundation

/-! ### Pruning -/

/-- Retaining everything is retaining as many records. -/
theorem SortedMap.length_retain_eq_iff {κ ν : Type} [LinearOrder κ] {map : SortedMap κ ν}
    {keep : κ → ν → Bool} :
    (map.retain keep).entries.length = map.entries.length ↔ map.retain keep = map := by
  constructor
  · intro sameLength
    ext1
    exact List.filter_eq_self.mpr (List.length_filter_eq_length_iff.mp sameLength)
  · intro same
    rw [same]

namespace TemporaryBans

variable {bans : TemporaryBans} {cutoff instant : ℕ}

@[simp] theorem mem_activeIps {target : CanonicalCidr} :
    target ∈ bans.activeIps cutoff ↔
      ∃ expiry, bans.ips.lookup target = some expiry ∧ cutoff < expiry := by
  simp [activeIps, SortedMap.lookup_eq_some_iff]

@[simp] theorem mem_activeAsns {asn : ℕ} :
    asn ∈ bans.activeAsns cutoff ↔
      ∃ expiry, bans.asns.lookup asn = some expiry ∧ cutoff < expiry := by
  simp [activeAsns, SortedMap.lookup_eq_some_iff]

/-- Later pruning makes earlier pruning superfluous. -/
theorem pruned_pruned (ordered : cutoff ≤ instant) :
    (bans.pruned cutoff).pruned instant = bans.pruned instant := by
  ext1 <;> ext1
  all_goals
    refine List.filter_filter.trans (List.filter_congr fun entry _ => ?_)
    rw [Bool.and_eq_left_iff_imp]
    simp only [decide_eq_true_eq]
    exact fun later => ordered.trans_lt later

/-- Pruning tells that it changed something exactly when it did. -/
theorem pruneExpired_changed_iff :
    (bans.pruneExpired cutoff).2 = true ↔ (bans.pruneExpired cutoff).1 ≠ bans := by
  simp only [pruneExpired, bne_iff_ne, ne_eq, not_iff_not, Prod.mk.injEq]
  rw [eq_comm (a := bans.ips.entries.length), eq_comm (a := bans.asns.entries.length)]
  constructor
  · rintro ⟨ips, asns⟩
    ext1
    · exact SortedMap.length_retain_eq_iff.mp ips
    · exact SortedMap.length_retain_eq_iff.mp asns
  · intro same
    rw [same]
    exact ⟨rfl, rfl⟩

/-- Pruning twice is pruning once, and the second time nothing changes. -/
theorem pruneExpired_twice : (bans.pruneExpired cutoff).1.pruneExpired cutoff =
    ((bans.pruneExpired cutoff).1, false) := by
  have same : ((bans.pruneExpired cutoff).1.pruneExpired cutoff).1 =
      (bans.pruneExpired cutoff).1 := pruned_pruned le_rfl
  refine Prod.ext same ?_
  rw [← Bool.not_eq_true, pruneExpired_changed_iff, not_not]
  exact same

/-- Records that are active later are not pruned. -/
theorem filterMap_active_retain {κ : Type} [LinearOrder κ] (map : SortedMap κ ℕ)
    (ordered : cutoff ≤ instant) :
    ((map.retain fun _ expiry => cutoff < expiry).entries.filterMap fun entry =>
        if instant < entry.2 then some entry.1 else none) =
      map.entries.filterMap fun entry => if instant < entry.2 then some entry.1 else none := by
  refine (List.filterMap_filter).trans (List.filterMap_congr fun entry _ => ?_)
  by_cases active : instant < entry.2
  · rw [if_pos (decide_eq_true (ordered.trans_lt active))]
  · rw [if_neg active, ite_self]

theorem activeIps_pruned (ordered : cutoff ≤ instant) :
    (bans.pruned cutoff).activeIps instant = bans.activeIps instant :=
  filterMap_active_retain bans.ips ordered

theorem activeAsns_pruned (ordered : cutoff ≤ instant) :
    (bans.pruned cutoff).activeAsns instant = bans.activeAsns instant :=
  filterMap_active_retain bans.asns ordered

/-- The other state has every record that is active, with its deadline. -/
structure Keeps (bans : TemporaryBans) (cutoff : ℕ) (other : TemporaryBans) : Prop where
  ips : ∀ target ∈ bans.activeIps cutoff, other.ips.lookup target = bans.ips.lookup target
  asns : ∀ asn ∈ bans.activeAsns cutoff, other.asns.lookup asn = bans.asns.lookup asn

/-- A retained record is looked up as before. -/
theorem lookup_retain_of_keep {κ ν : Type} [LinearOrder κ] {map : SortedMap κ ν}
    {keep : κ → ν → Bool} {key : κ} {value : ν} (present : map.lookup key = some value)
    (kept : keep key value = true) : (map.retain keep).lookup key = map.lookup key := by
  rw [present]
  rw [SortedMap.lookup_eq_some_iff] at present ⊢
  exact SortedMap.mem_entries_retain.mpr ⟨present, kept⟩

theorem keeps_pruned (bans : TemporaryBans) (cutoff : ℕ) :
    bans.Keeps cutoff (bans.pruned cutoff) where
  ips := by
    intro target active
    obtain ⟨expiry, present, later⟩ := mem_activeIps.mp active
    exact lookup_retain_of_keep present (decide_eq_true later)
  asns := by
    intro asn active
    obtain ⟨expiry, present, later⟩ := mem_activeAsns.mp active
    exact lookup_retain_of_keep present (decide_eq_true later)

end TemporaryBans

/-! ### What providers enforce -/

/-- `TemporaryBlocklistSyncProvider::load`: the networks with an active ban. -/
def loadTemporaryBlocklist (context : SyncSourceContext) : SyncSourceLoad where
  primary := ⟨context.temporaryBans.activeIps context.cutoff, []⟩
  fallback := none
  pendingPromotions := []
  fallbackFailure := none
  observations := []

theorem mem_asnsToLoad {context : SyncSourceContext} {asn : ℕ} :
    asn ∈ asnsToLoad context ↔ asn ∈ context.config.asn.banned ∨
      asn ∈ context.temporaryBans.activeAsns context.cutoff := by
  simp [asnsToLoad]

/-- What the providers make candidates of is what is configured and what these
bans make active at this instant. -/
structure MakesCandidates (context : SyncSourceContext) (cutoff : ℕ) (bans : TemporaryBans) : Prop where
  networks : (loadTemporaryBlocklist context).primary.networks = bans.activeIps cutoff
  asns : ∀ asn, asn ∈ asnsToLoad context ↔
    asn ∈ context.config.asn.banned ∨ asn ∈ bans.activeAsns cutoff

/-! ### What a run has read -/

/-- The clock and the temporary bans a run has read, and what it has handed to
its providers. -/
structure BanLedger where
  cutoff : Option ℕ
  temporaryBans : Option TemporaryBans
  contexts : List SyncSourceContext

namespace BanLedger

/-- Nothing read yet. -/
def start : BanLedger := ⟨none, none, []⟩

/-- Take note of one port call and its answer. -/
def observe (ledger : BanLedger) : (op : PortOp) → op.Result → BanLedger
  | .nowUnixSecs, .ok instant => { ledger with cutoff := some instant }
  | .loadTemporaryBans _, .ok bans => { ledger with temporaryBans := some bans }
  | .loadSource _ context, _ => { ledger with contexts := ledger.contexts ++ [context] }
  | _, _ => ledger

/-- The run has read this instant and these bans, and handed out nothing else. -/
structure Holds (ledger : BanLedger) (cutoff : ℕ) (bans : TemporaryBans) : Prop where
  readCutoff : ledger.cutoff = some cutoff
  readBans : ledger.temporaryBans = some bans
  handed : ∀ context ∈ ledger.contexts,
    context.cutoff = cutoff ∧ context.temporaryBans = bans

theorem Holds.makesCandidates {ledger : BanLedger} {cutoff : ℕ} {bans : TemporaryBans}
    (holds : ledger.Holds cutoff bans) :
    ∀ context ∈ ledger.contexts, MakesCandidates context cutoff bans := by
  intro context handed
  obtain ⟨rfl, rfl⟩ := holds.handed context handed
  exact ⟨rfl, fun asn => mem_asnsToLoad⟩

/-- A state that keeps what the providers enforced. -/
def SavesActive (ledger : BanLedger) (saved : TemporaryBans) : Prop :=
  ∃ cutoff bans, ledger.Holds cutoff bans ∧
    (∀ context ∈ ledger.contexts, MakesCandidates context cutoff bans) ∧ bans.Keeps cutoff saved

end BanLedger

/-- The environment in which every port may answer anything. -/
def ledgerPorts : Step PortOp PortOp.Result BanLedger :=
  fun before op result after => after = before.observe op result

/-- Every state that is saved keeps the active records. -/
def savesActive : Step PortOp PortOp.Result BanLedger :=
  fun before op _ _ => ∀ path saved, op = .saveTemporaryBans path saved → before.SavesActive saved

/-! ### Calls that leave the bans alone -/

/-- Calls that neither read nor hand out nor save bans or the time. -/
def PortOp.ignoresBans : PortOp → Bool
  | .nowUnixSecs | .loadTemporaryBans _ | .loadSource _ _ | .saveTemporaryBans _ _ => false
  | _ => true

theorem observe_of_ignoresBans {op : PortOp} (ignores : op.ignoresBans = true) (result : op.Result)
    (ledger : BanLedger) : ledger.observe op result = ledger := by
  cases op <;> first | rfl | cases ignores

/-- The program issues such calls only. -/
def IgnoresBans {α : Type} : Workflow α → Prop
  | .ret _ | .fail _ | .spin => True
  | .call op next => op.ignoresBans = true ∧ ∀ result, IgnoresBans (next result)

section Ignoring

variable {α β : Type}

theorem IgnoresBans.bind {program : Workflow α} {next : α → Workflow β}
    (first : IgnoresBans program) (second : ∀ value, IgnoresBans (next value)) :
    IgnoresBans (program >>= next) := by
  induction program with
  | ret value => exact second value
  | fail error => trivial
  | spin => trivial
  | call op rest ih => exact ⟨first.1, fun result => ih result (first.2 result)⟩

theorem ignoresBans_callPort {op : PortOp} (ignores : op.ignoresBans = true) :
    IgnoresBans (callPort op) :=
  ⟨ignores, fun _ => trivial⟩

theorem ignoresBans_ofExcept (outcome : Except AppError α) :
    IgnoresBans (Program.ofExcept outcome) := by
  cases outcome <;> trivial

theorem IgnoresBans.propagate {answered : Workflow (Except AppError α)}
    (ignores : IgnoresBans answered) : IgnoresBans (propagate answered) :=
  ignores.bind ignoresBans_ofExcept

theorem ignoresBans_checkCancelled : IgnoresBans checkCancelled := by
  refine (ignoresBans_callPort rfl).bind fun cancelled => ?_
  cases cancelled <;> trivial

theorem ignoresBans_of_reports {outcome : Except AppError α} {program : Workflow α}
    (reports : Reports outcome program) : IgnoresBans program := by
  induction program with
  | ret value => trivial
  | fail error => trivial
  | spin => trivial
  | call op next ih =>
    refine ⟨?_, fun result => ih result (reports.2 result)⟩
    cases op <;> first | rfl | cases reports.1

/-- Such a program leaves the ledger as it is. -/
theorem wp_of_ignoresBans {program : Workflow α} (ignores : IgnoresBans program)
    (ledger : BanLedger) :
    wp ledgerPorts savesActive (fun _ after => after = ledger) (fun _ _ => True) program
      ledger := by
  induction program with
  | ret value => rfl
  | fail error => trivial
  | spin => trivial
  | call op next ih =>
    rintro result after rfl
    rw [observe_of_ignoresBans ignores.1]
    refine ⟨?_, ih result (ignores.2 result)⟩
    rintro path saved rfl
    cases ignores.1

/-- The rest goes on from the same ledger. -/
theorem wp_ignoring_bind {program : Workflow α} {next : α → Workflow β} {ledger : BanLedger}
    {returns : β → BanLedger → Prop} (ignores : IgnoresBans program)
    (continued : ∀ value,
      wp ledgerPorts savesActive returns (fun _ _ => True) (next value) ledger) :
    wp ledgerPorts savesActive returns (fun _ _ => True) (program >>= next) ledger := by
  rw [wp_bind]
  refine wp_mono (wp_of_ignoresBans ignores ledger) ?_ fun _ _ => id
  rintro value after rfl
  exact continued value

end Ignoring

namespace Sync

/-! ### The workflow -/

section Contracts

variable {ledger : BanLedger} {paths : ResolvedPaths} {registry : SyncSourceRegistry}

/-- The inputs are what the ledger says was read. -/
def LockedInputs.Recorded (inputs : LockedInputs) (ledger : BanLedger) : Prop :=
  ledger.Holds inputs.cutoff inputs.temporaryBans

theorem wp_ledgerCall {op : PortOp} {returns : op.Result → BanLedger → Prop}
    {fails : AppError → BanLedger → Prop} :
    wp ledgerPorts savesActive returns fails (callPort op) ledger ↔
      ∀ result, savesActive ledger op result (ledger.observe op result) ∧
        returns result (ledger.observe op result) := by
  constructor
  · exact fun holds result => holds result _ rfl
  · rintro holds result after rfl
    exact holds result

/-- Only saving has to keep anything. -/
theorem savesActive_of_unsaving {op : PortOp} {result : op.Result} {after : BanLedger}
    (unsaving : ∀ path saved, op ≠ .saveTemporaryBans path saved) :
    savesActive ledger op result after :=
  fun path saved same => (unsaving path saved same).elim

theorem wp_readLockedBans (unread : ledger.contexts = []) :
    wp ledgerPorts savesActive LockedInputs.Recorded (fun _ _ => True) (readLockedInputs paths)
      ledger := by
  rw [readLockedInputs, wp_bind, wp_propagate]
  refine wp_ledgerCall.mpr ?_
  rintro (error | cutoff)
  · exact ⟨savesActive_of_unsaving (by rintro _ _ ⟨⟩), trivial⟩
  refine ⟨savesActive_of_unsaving (by rintro _ _ ⟨⟩), ?_⟩
  change wp _ _ _ _ (checkCancelled >>= _) _
  refine wp_ignoring_bind ignoresBans_checkCancelled fun _ => ?_
  refine wp_ignoring_bind (ignoresBans_callPort rfl).propagate fun config => ?_
  refine wp_ignoring_bind ignoresBans_checkCancelled fun _ => ?_
  refine wp_ignoring_bind (ignoresBans_callPort rfl).propagate fun _ => ?_
  refine wp_ignoring_bind ignoresBans_checkCancelled fun _ => ?_
  rw [wp_bind, wp_propagate]
  refine wp_ledgerCall.mpr ?_
  rintro (error | bans)
  · exact ⟨savesActive_of_unsaving (by rintro _ _ ⟨⟩), trivial⟩
  refine ⟨savesActive_of_unsaving (by rintro _ _ ⟨⟩), ?_⟩
  have recorded : LockedInputs.Recorded ⟨cutoff, config, bans⟩
      ((ledger.observe .nowUnixSecs (.ok cutoff)).observe
        (.loadTemporaryBans paths.temporaryBansFile) (.ok bans)) := by
    refine ⟨rfl, rfl, ?_⟩
    change ∀ context ∈ ledger.contexts, _
    simp [unread]
  change wp _ _ _ _ (if _ then _ else _) _
  split_ifs
  · exact wp_ignoring_bind (ignoresBans_of_reports (reports_report _)) fun _ => recorded
  · exact recorded

theorem wp_loadRemainingBans {inputs : LockedInputs} (context : SyncSourceContext)
    (sameCutoff : context.cutoff = inputs.cutoff)
    (sameBans : context.temporaryBans = inputs.temporaryBans)
    (descriptors : List SyncSourceDescriptor) (sources : LoadedSources)
    (recorded : inputs.Recorded ledger) :
    wp ledgerPorts savesActive (fun _ => inputs.Recorded) (fun _ _ => True)
      (loadRemaining context descriptors sources) ledger := by
  induction descriptors generalizing ledger sources with
  | nil => exact recorded
  | cons descriptor rest ih =>
    rw [loadRemaining]
    refine wp_ignoring_bind ignoresBans_checkCancelled fun _ => ?_
    rw [wp_bind]
    refine wp_ledgerCall.mpr fun answer => ⟨savesActive_of_unsaving (by rintro _ _ ⟨⟩), ?_⟩
    have recordedNext : inputs.Recorded
        (ledger.observe (.loadSource descriptor context) answer) := by
      refine ⟨recorded.readCutoff, recorded.readBans, ?_⟩
      change ∀ other ∈ ledger.contexts ++ [context], _
      exact List.forall_mem_append.mpr
        ⟨recorded.handed, List.forall_mem_singleton.mpr ⟨sameCutoff, sameBans⟩⟩
    cases answer with
    | ok loaded =>
      refine wp_ignoring_bind (ignoresBans_of_reports (reports_reportAll _)) fun _ => ?_
      exact ih _ recordedNext
    | error error =>
      dsimp only
      split_ifs
      · refine wp_ignoring_bind (ignoresBans_of_reports (reports_report _)) fun _ => ?_
        exact ih _ recordedNext
      · trivial

theorem wp_prepareSourcesBans {env : List (String × String)} {inputs : LockedInputs}
    (recorded : inputs.Recorded ledger) :
    wp ledgerPorts savesActive (fun _ => inputs.Recorded) (fun _ _ => True)
      (prepareSources paths env registry inputs) ledger := by
  rw [prepareSources]
  refine wp_ignoring_bind (ignoresBans_of_reports (reports_startStage _)) fun _ => ?_
  refine wp_ignoring_bind (ignoresBans_callPort rfl).propagate fun _ => ?_
  refine wp_ignoring_bind (ignoresBans_of_reports (reports_completeStage _)) fun _ => ?_
  refine wp_ignoring_bind (ignoresBans_of_reports (reports_startStage _)) fun _ => ?_
  rw [wp_bind]
  refine wp_mono (wp_loadRemainingBans _ rfl rfl _ _ recorded) ?_ fun _ _ => id
  intro sources after stillRecorded
  refine wp_ignoring_bind (ignoresBans_of_reports (reports_completeStage _)) fun _ => ?_
  exact wp_ignoring_bind ignoresBans_checkCancelled fun _ => stillRecorded

theorem ignoresBans_admitRemaining (candidates : List CanonicalCidr) (enableIpv6 : Bool)
    (baseline : EffectiveBlocklists) (externals : List LoadedExternalSafelist)
    (admitted : Admitted) :
    IgnoresBans (admitRemaining candidates enableIpv6 baseline externals admitted) := by
  induction externals generalizing admitted with
  | nil => trivial
  | cons external rest ih =>
    refine IgnoresBans.bind ?_ ih
    unfold admitExternalSafelist
    dsimp only
    split_ifs
    · trivial
    · refine (ignoresBans_of_reports (reports_report _)).bind fun _ => ?_
      split
      · exact (ignoresBans_of_reports (reports_reportAll _)).bind fun _ => trivial
      · split
        · trivial
        · exact (ignoresBans_of_reports (reports_report _)).bind fun _ => trivial

theorem ignoresBans_computeStage (plan : EnforcementPlan) (sources : LoadedSources) :
    IgnoresBans (computeStage plan sources) := by
  refine (ignoresBans_of_reports (reports_startStage _)).bind fun _ => ?_
  refine IgnoresBans.bind ?_ fun admitted =>
    (ignoresBans_of_reports (reports_completeStage _)).bind fun _ => trivial
  exact (ignoresBans_admitRemaining _ _ _ _ _).bind fun _ => trivial

theorem ignoresBans_promotePendingCaches (pending : List PendingPromotion) :
    IgnoresBans (promotePendingCaches pending) := by
  refine (ignoresBans_of_reports (reports_startStage _)).bind fun _ => ?_
  refine IgnoresBans.bind ?_ fun _ => ignoresBans_of_reports (reports_completeStage _)
  induction pending with
  | nil => trivial
  | cons first rest ih =>
    refine ignoresBans_checkCancelled.bind fun _ => ?_
    refine (ignoresBans_callPort rfl).bind fun outcome => ?_
    cases outcome with
    | ok _ => exact ih
    | error source => trivial

theorem ignoresBans_replaceFamily (stage : SyncStage) (spec : ManagedSetSpec)
    (family : AddressFamily) (entries : List CanonicalCidr) :
    IgnoresBans (replaceFamily stage spec family entries) := by
  refine (ignoresBans_of_reports (reports_startStage _)).bind fun _ => ?_
  refine (ignoresBans_callPort rfl).propagate.bind fun _ => ?_
  refine (ignoresBans_callPort rfl).bind fun _ => ?_
  exact ignoresBans_of_reports (reports_completeStage _)

theorem ignoresBans_activateFirewall (plan : EnforcementPlan) :
    IgnoresBans (activateFirewall plan) := by
  have cleanup : IgnoresBans (cleanupDisabled plan) := by
    refine (ignoresBans_callPort rfl).bind fun _ => ?_
    refine (ignoresBans_callPort rfl).bind fun notices => ?_
    refine (ignoresBans_of_reports (reports_reportAll _)).bind fun _ => ?_
    exact ignoresBans_callPort rfl
  refine (ignoresBans_of_reports (reports_startStage _)).bind fun _ => ?_
  refine (ignoresBans_callPort rfl).propagate.bind fun _ => ?_
  refine (ignoresBans_callPort rfl).bind fun _ => ?_
  dsimp only
  split_ifs
  · exact cleanup.bind fun _ => ignoresBans_of_reports (reports_completeStage _)
  · exact ignoresBans_of_reports (reports_completeStage _)

theorem ignoresBans_applyEnforcement (plan : EnforcementPlan)
    (ipv4Entries ipv6Entries : List CanonicalCidr) :
    IgnoresBans (applyEnforcement plan ipv4Entries ipv6Entries) := by
  have last : IgnoresBans (do
      replaceFamily .applyIpv4 plan.ipv4 .ipv4 ipv4Entries
      activateFirewall plan) :=
    (ignoresBans_replaceFamily _ _ _ _).bind fun _ => ignoresBans_activateFirewall plan
  refine (ignoresBans_callPort rfl).bind fun _ => ?_
  dsimp only
  split_ifs
  · exact (ignoresBans_replaceFamily _ _ _ _).bind fun _ => last
  · exact last

/-- What is saved keeps what the providers were told is active. -/
theorem wp_savePrunedBans {path : String} {cutoff : ℕ} {bans : TemporaryBans}
    (recorded : ledger.Holds cutoff bans) :
    wp ledgerPorts savesActive (fun _ _ => True) (fun _ _ => True)
      (savePruned path bans cutoff) ledger := by
  unfold savePruned
  dsimp only [TemporaryBans.pruneExpired]
  split_ifs
  · rw [wp_bind]
    refine wp_ledgerCall.mpr fun outcome => ⟨?_, ?_⟩
    · rintro _ saved same
      cases same
      exact ⟨cutoff, bans, recorded, recorded.makesCandidates, TemporaryBans.keeps_pruned bans cutoff⟩
    · cases outcome with
      | ok _ => trivial
      | error error =>
        exact wp_mono (wp_of_ignoresBans (ignoresBans_of_reports (reports_report _)) _)
          (fun _ _ _ => trivial) fun _ _ => id
  · trivial

theorem wp_enforceSourcesBans {inputs : LockedInputs} {sources : LoadedSources}
    (recorded : inputs.Recorded ledger) :
    wp ledgerPorts savesActive (fun _ _ => True) (fun _ _ => True)
      (enforceSources paths inputs sources) ledger := by
  refine wp_ignoring_bind (ignoresBans_computeStage _ _) fun (effective, admitted) => ?_
  refine wp_ignoring_bind (ignoresBans_ofExcept _) fun entries => ?_
  refine wp_ignoring_bind ignoresBans_checkCancelled fun _ => ?_
  refine wp_ignoring_bind (ignoresBans_promotePendingCaches _) fun _ => ?_
  refine wp_ignoring_bind ignoresBans_checkCancelled fun _ => ?_
  refine wp_ignoring_bind (ignoresBans_applyEnforcement _ _ _) fun _ => ?_
  rw [wp_bind]
  exact wp_mono (wp_savePrunedBans recorded) (fun _ _ _ => trivial) fun _ _ => id

theorem wp_executeLockedBans {env : List (String × String)} (unread : ledger.contexts = []) :
    wp ledgerPorts savesActive (fun _ _ => True) (fun _ _ => True)
      (executeLocked paths env registry) ledger := by
  refine wp_ignoring_bind (ignoresBans_of_reports (reports_completeStage _)) fun _ => ?_
  rw [wp_bind]
  refine wp_mono (wp_readLockedBans unread) ?_ fun _ _ => id
  intro inputs after recorded
  rw [wp_bind]
  refine wp_mono (wp_prepareSourcesBans recorded) ?_ fun _ _ => id
  exact fun sources later stillRecorded => wp_enforceSourcesBans stillRecorded

theorem wp_executeBans (request : PathResolutionInput) (unread : ledger.contexts = []) :
    wp ledgerPorts savesActive (fun _ _ => True) (fun _ _ => True) (execute request registry)
      ledger := by
  refine wp_ignoring_bind ignoresBans_checkCancelled fun _ => ?_
  refine wp_ignoring_bind (ignoresBans_of_reports (reports_startStage _)) fun _ => ?_
  refine wp_ignoring_bind (ignoresBans_callPort rfl).propagate fun paths => ?_
  refine wp_ignoring_bind (ignoresBans_of_reports (reports_completeStage _)) fun _ => ?_
  refine wp_ignoring_bind ignoresBans_checkCancelled fun _ => ?_
  refine wp_ignoring_bind (ignoresBans_of_reports (reports_startStage _)) fun _ => ?_
  refine wp_ignoring_bind (ignoresBans_callPort rfl).propagate fun _ => ?_
  refine wp_ignoring_bind (ignoresBans_of_reports (reports_completeStage _)) fun _ => ?_
  refine wp_ignoring_bind ignoresBans_checkCancelled fun _ => ?_
  refine wp_ignoring_bind (ignoresBans_of_reports (reports_startStage _)) fun _ => ?_
  refine wp_ignoring_bind (ignoresBans_callPort rfl).propagate fun _ => ?_
  rw [wp_bind, wp_attempt]
  have released : ∀ (outcome : Except AppError SyncOutcome) (after : BanLedger),
      wp ledgerPorts savesActive (fun _ _ => True) (fun _ _ => True)
        (callPort .releaseLock >>= fun _ => Program.ofExcept outcome) after := fun outcome after =>
    wp_mono (wp_of_ignoresBans
      ((ignoresBans_callPort rfl).bind fun _ => ignoresBans_ofExcept outcome) after)
      (fun _ _ _ => trivial) fun _ _ => id
  exact wp_mono (wp_executeLockedBans unread) (fun value after _ => released (.ok value) after)
    fun error after _ => released (.error error) after

end Contracts

/-- Pruning tells whether it removed something, does nothing the second time,
and leaves what is active from then on as it was. In every run of a
synchronization, whatever the ports answer, a state that is saved has every
record the providers were told is active, with its deadline. -/
theorem expiryPruning_invisible :
    (∀ (bans : TemporaryBans) (cutoff : ℕ),
      ((bans.pruneExpired cutoff).2 = true ↔ (bans.pruneExpired cutoff).1 ≠ bans) ∧
      (bans.pruneExpired cutoff).1.pruneExpired cutoff = ((bans.pruneExpired cutoff).1, false) ∧
      ∀ instant, cutoff ≤ instant →
        (bans.pruneExpired cutoff).1.activeIps instant = bans.activeIps instant ∧
        (bans.pruneExpired cutoff).1.activeAsns instant = bans.activeAsns instant) ∧
    ∀ (request : PathResolutionInput) (registry : SyncSourceRegistry)
      (trace : List (Event PortOp PortOp.Result BanLedger)) (last : BanLedger)
      (ending : Ending AppError SyncOutcome),
      Runs ledgerPorts (execute request registry) .start trace last ending →
        ∀ event ∈ trace, ∀ path saved, event.op = .saveTemporaryBans path saved →
          event.before.SavesActive saved := by
  constructor
  · intro bans cutoff
    refine ⟨TemporaryBans.pruneExpired_changed_iff, TemporaryBans.pruneExpired_twice, ?_⟩
    exact fun instant ordered =>
      ⟨TemporaryBans.activeIps_pruned ordered, TemporaryBans.activeAsns_pruned ordered⟩
  · intro request registry trace last ending runs event member
    exact (runs.sound (wp_executeBans request rfl)).1 event member

/-- A save of a state with exactly these ASN records. -/
def savesAsns (entries : List (ℕ × ℕ)) : PortOp → Bool
  | .saveTemporaryBans _ saved => saved.asns.entries == entries
  | _ => false

theorem savesAsns_eq_true {entries : List (ℕ × ℕ)} {op : PortOp}
    (saves : savesAsns entries op = true) :
    ∃ path saved, op = .saveTemporaryBans path saved ∧ saved.asns.entries = entries := by
  cases op with
  | saveTemporaryBans path saved => exact ⟨path, saved, rfl, beq_iff_eq.mp saves⟩
  | _ => cases saves

/-- Bans of two ASNs; the first has expired at the instant 100. -/
def expiringBans : TemporaryBans := ⟨.empty, (SortedMap.empty.insert 64500 50).insert 64501 200⟩

/-- Ports that load these bans and otherwise answer calmly. -/
def expiringPorts : Handler PortOp PortOp.Result BanLedger := fun ledger op =>
  match op with
  | .loadTemporaryBans path =>
    (.ok expiringBans, ledger.observe (.loadTemporaryBans path) (.ok expiringBans))
  | other => (calmPorts .start other, ledger.observe other (calmPorts .start other))

theorem ledgerPorts_expiringPorts (ledger : BanLedger) (op : PortOp) :
    ledgerPorts ledger op (expiringPorts ledger op).1 (expiringPorts ledger op).2 := by
  cases op <;> rfl

/-- A synchronization hands both bans to its provider and saves the one that has not expired. -/
theorem expiryPruning_invisible_expired :
    ∃ event ∈ (execSteps expiringPorts 200 (execute ⟨none, "/tmp", []⟩ oneSource) .start).1,
      ∃ path saved, event.op = .saveTemporaryBans path saved ∧
        saved.asns.entries = [(64501, 200)] ∧ event.before.contexts.length = 1 ∧
        event.before.SavesActive saved := by
  have prunes : ((execSteps expiringPorts 200 (execute ⟨none, "/tmp", []⟩ oneSource) .start).1.any
      fun event => savesAsns [(64501, 200)] event.op && event.before.contexts.length == 1) =
        true := by
    decide +kernel
  obtain ⟨event, member, isSave⟩ := List.any_eq_true.mp prunes
  obtain ⟨saves, handed⟩ := Bool.and_eq_true_iff.mp isSave
  obtain ⟨path, saved, isOp, kept⟩ := savesAsns_eq_true saves
  have runs := runs_execSteps ledgerPorts_expiringPorts 200
    (execute ⟨none, "/tmp", []⟩ oneSource) .start
  exact ⟨event, member, path, saved, isOp, kept, beq_iff_eq.mp handed,
    expiryPruning_invisible.2 ⟨none, "/tmp", []⟩ oneSource _ _ _ runs event member path saved isOp⟩

end Sync

end Kidobo
