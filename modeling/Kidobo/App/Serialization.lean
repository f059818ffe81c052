import Kidobo.App.LockDiscipline

/-!
# Commands in any interleaving

Any number of processes run commands over the same resolved paths. Their calls on
files interleave freely; the lock excludes a second holder, and a file is
replaced as a whole. The files are then always those of some serial execution of
the commands that took the lock.

What a command did under the lock it can do as a whole: what it did before has no
effect, and whatever it read there it reads again.

## Main definitions

* `CommandTurn`, `RunsAlone`: whole commands, run alone
* `StoreCommand.Respects`: what a command does to what others wrote
* `startProcesses`: processes that have not started yet

## Main results

* `exists_runs_program`: a section replayed by the whole command
* `respects_of_runs`: sync prunes what it finds, reviewed edits meet what they reviewed
* `commands_serializable`
-/

namespace Kidobo

open Foundation

variable {setting : FileSetting} {paths : ResolvedPaths} {α β : Type}

/-! ### Contracts over the file adapters -/

section Contracts

variable {kept : Files → Prop} {returns : α → Files → Prop} {fails : AppError → Files → Prop}
  {files : Files}

/-- A composition, part by part. -/
theorem wp_onFiles_bind {workflow : Workflow β} {next : β → Workflow α}
    (holds : wp (fileStep paths) (fun _ _ _ after => kept after)
      (fun value => wp (fileStep paths) (fun _ _ _ after => kept after) returns fails
        (setting.onFiles (next value))) fails (setting.onFiles workflow) files) :
    wp (fileStep paths) (fun _ _ _ after => kept after) returns fails
      (setting.onFiles (workflow >>= next)) files := by
  rw [onFiles_bind, wp_bind]
  exact holds

/-- A workflow over the adapters keeps what no file that it may write decides. -/
theorem wp_spared {spared : String → Prop} {workflow : Workflow α}
    (issues : workflow.Issues fun op => op.usesLock = false ∧
      ∀ path, op.writes = some path → ¬ spared path)
    (original : Files) (same : ∀ path, spared path → files path = original path) :
    wp (fileStep paths) (fun _ _ _ after => ∀ path, spared path → after path = original path)
      (fun _ last => ∀ path, spared path → last path = original path)
      (fun _ last => ∀ path, spared path → last path = original path)
      (setting.onFiles workflow) files := by
  have within : (setting.onFiles workflow).Issues fun call =>
      ∀ path, call.writes = some path → ¬ spared path := by
    refine issues.expand fun op allowed => ?_
    refine (issues_asFiles setting allowed.1).mono fun call isWithin path writes => ?_
    exact allowed.2 path (isWithin.2 path writes)
  refine wp_of_issues within ?_ same
  intro before call result after spares stepped unchanged path isSpared
  rw [fileStep_frame stepped fun writes => spares path writes isSpared]
  exact unchanged path isSpared

/-- An idle workflow keeps all files. -/
theorem wp_idle {workflow : Workflow α} (issues : workflow.Issues PortOp.Idle)
    (starts : kept files) (returned : ∀ value, returns value files)
    (failed : ∀ error, fails error files) :
    wp (fileStep paths) (fun _ _ _ after => kept after) returns fails
      (setting.onFiles workflow) files := by
  have spares : workflow.Issues fun op => op.usesLock = false ∧
      ∀ path, op.writes = some path → ¬ True := by
    refine issues.mono fun op idle => ⟨idle.1, fun path writes => ?_⟩
    cases idle.2.symm.trans writes
  have same (after : Files) (unchanged : ∀ path, True → after path = files path) :
      after = files := funext fun path => unchanged path trivial
  refine wp_weaken (wp_mono (wp_spared spares files fun _ _ => rfl) ?_ ?_) ?_
  · intro value last unchanged
    rw [same last unchanged]
    exact returned value
  · intro error last unchanged
    rw [same last unchanged]
    exact failed error
  · intro _ _ _ after unchanged
    rw [same after unchanged]
    exact starts

/-- An idle workflow and then another one. -/
theorem wp_idle_bind {workflow : Workflow β} {next : β → Workflow α}
    (issues : workflow.Issues PortOp.Idle) (starts : kept files)
    (failed : ∀ error, fails error files)
    (continues : ∀ value, wp (fileStep paths) (fun _ _ _ after => kept after) returns fails
      (setting.onFiles (next value)) files) :
    wp (fileStep paths) (fun _ _ _ after => kept after) returns fails
      (setting.onFiles (workflow >>= next)) files :=
  wp_onFiles_bind (wp_idle issues starts continues failed)

/-- Nothing can break what always holds. -/
theorem wp_always (always : ∀ other, kept other)
    (program : Program FileCall FileCall.Result AppError α) :
    wp (fileStep paths) (fun _ _ _ after => kept after) (fun _ last => kept last)
      (fun _ last => kept last) program files :=
  wp_weaken (wp_mono (wp_true program files) (fun _ last _ => always last)
    fun _ last _ => always last) fun _ _ _ after _ => always after

/-- What holds of the body holds under the lock. -/
theorem wp_underLock {body : Workflow α}
    (holds : wp (fileStep paths) (fun _ _ _ after => kept after)
      (fun value last => kept last ∧ returns value last)
      (fun error last => kept last ∧ fails error last) (setting.onFiles body) files) :
    wp (fileStep paths) (fun _ _ _ after => kept after) returns fails
      (setting.onFiles (underLock body)) files := by
  rw [onFiles_underLock, wp_bind, wp_attempt]
  refine wp_mono holds ?_ ?_
  · rintro value last ⟨still, returned⟩ result after rfl
    exact ⟨still, returned⟩
  · rintro error last ⟨still, failed⟩ result after rfl
    exact ⟨still, failed⟩

/-- A port call is carried out by its adapter. -/
theorem wp_callPort_files (op : PortOp) {returns : op.Result → Files → Prop} :
    wp (fileStep paths) (fun _ _ _ after => kept after) returns fails
        (setting.onFiles (callPort op)) files ↔
      wp (fileStep paths) (fun _ _ _ after => kept after) returns
        (fun impossible _ => impossible.elim) (setting.asFiles op) files :=
  wp_followedBy _ _ _

theorem wp_propagate_files {answered : Workflow (Except AppError α)} :
    wp (fileStep paths) (fun _ _ _ after => kept after) returns fails
        (setting.onFiles (propagate answered)) files ↔
      wp (fileStep paths) (fun _ _ _ after => kept after)
        (fun outcome => (Ending.ofExcept outcome).Meets returns fails) fails
        (setting.onFiles answered) files := by
  have decided : (fun outcome => wp (fileStep paths) (fun _ _ _ after => kept after) returns fails
      (setting.onFiles (Program.ofExcept outcome))) =
      fun outcome => (Ending.ofExcept outcome).Meets returns fails := by
    funext outcome last
    cases outcome <;> rfl
  rw [propagate, onFiles_bind, wp_bind, decided]

/-! ### Reading and saving -/

section Reading

variable (starts : kept files) (failed : ∀ error, fails error files) {path : String}

include starts failed

theorem wp_loadBlocklistFile {next : BlocklistDocument → Workflow α}
    (continues : ∀ document, loadBlocklistDocument path (files path) = .ok document →
      wp (fileStep paths) (fun _ _ _ after => kept after) returns fails
        (setting.onFiles (next document)) files) :
    wp (fileStep paths) (fun _ _ _ after => kept after) returns fails
      (setting.onFiles (propagate (callPort (.loadBlocklist path)) >>= next)) files := by
  refine wp_onFiles_bind (wp_propagate_files.mpr ((wp_callPort_files (.loadBlocklist path)).mpr ?_))
  rintro (source | file) after stepped
  · obtain rfl := stepped
    exact ⟨starts, failed _⟩
  · obtain ⟨rfl, rfl⟩ := stepped
    refine ⟨starts, ?_⟩
    change (Ending.ofExcept (loadBlocklistDocument path (after path))).Meets _ _ after
    cases loaded : loadBlocklistDocument path (after path) with
    | error error => exact failed error
    | ok document => exact continues document loaded

theorem wp_loadTemporaryBansFile {next : TemporaryBans → Workflow α}
    (continues : ∀ bans, setting.temporaryBansIn (files path) = .ok bans →
      wp (fileStep paths) (fun _ _ _ after => kept after) returns fails
        (setting.onFiles (next bans)) files) :
    wp (fileStep paths) (fun _ _ _ after => kept after) returns fails
      (setting.onFiles (propagate (callPort (.loadTemporaryBans path)) >>= next)) files := by
  refine wp_onFiles_bind (wp_propagate_files.mpr ((wp_callPort_files (.loadTemporaryBans path)).mpr ?_))
  rintro (source | file) after stepped
  · obtain rfl := stepped
    exact ⟨starts, failed _⟩
  · obtain ⟨rfl, rfl⟩ := stepped
    refine ⟨starts, ?_⟩
    dsimp only [Program.bind]
    cases loaded : setting.temporaryBansIn (after path) with
    | error fault => exact failed _
    | ok bans => exact continues bans loaded

theorem wp_loadConfigFile {next : Config → Workflow α}
    (continues : ∀ saved, loadConfigFromFile setting.format path (files path) = .ok saved →
      wp (fileStep paths) (fun _ _ _ after => kept after) returns fails
        (setting.onFiles (next saved.toConfig)) files) :
    wp (fileStep paths) (fun _ _ _ after => kept after) returns fails
      (setting.onFiles (propagate (callPort (.loadConfig path)) >>= next)) files := by
  refine wp_onFiles_bind (wp_propagate_files.mpr ((wp_callPort_files (.loadConfig path)).mpr ?_))
  rintro (source | file) after stepped
  · obtain rfl := stepped
    exact ⟨starts, failed _⟩
  · obtain ⟨rfl, rfl⟩ := stepped
    refine ⟨starts, ?_⟩
    change (Ending.ofExcept ((loadConfigFromFile setting.format path (after path)).map
      SavedConfig.toConfig)).Meets _ _ after
    cases loaded : loadConfigFromFile setting.format path (after path) with
    | error error => exact failed _
    | ok saved => exact continues saved loaded

theorem wp_readConfigurationFile {next : Option (List Char) → Workflow α}
    (continues : wp (fileStep paths) (fun _ _ _ after => kept after) returns fails
        (setting.onFiles (next (files path))) files) :
    wp (fileStep paths) (fun _ _ _ after => kept after) returns fails
      (setting.onFiles (propagate (callPort (.readConfiguration path)) >>= next)) files := by
  refine wp_onFiles_bind (wp_propagate_files.mpr ((wp_callPort_files (.readConfiguration path)).mpr ?_))
  rintro (source | file) after stepped
  · obtain rfl := stepped
    exact ⟨starts, failed _⟩
  · obtain ⟨rfl, same⟩ := stepped
    refine ⟨starts, ?_⟩
    rw [← same] at continues
    cases file with
    | none => exact continues
    | some contents =>
      dsimp only [Program.bind]
      split_ifs
      · exact failed _
      · cases setting.parseDocument contents with
        | error error => exact failed _
        | ok _ => exact continues

end Reading

/-- A bounded replacement takes place as a whole or not at all. -/
theorem wp_writeStringAtomicWithLimit {path : String} {contents : List Char} {limit : ℕ}
    {failure : String → AppError} {returns : Except AppError Unit → Files → Prop}
    (starts : kept files) (written : kept (Function.update files path (some contents)))
    (unchanged : ∀ answer, returns answer files)
    (replaced : ∀ answer, returns answer (Function.update files path (some contents))) :
    wp (fileStep paths) (fun _ _ _ after => kept after) returns
      (fun impossible _ => impossible.elim)
      (writeStringAtomicWithLimit path contents limit failure) files := by
  unfold writeStringAtomicWithLimit
  split_ifs
  · exact unchanged _
  · rintro (source | _) after stepped
    · rcases stepped with rfl | rfl
      · exact ⟨starts, unchanged _⟩
      · exact ⟨written, replaced _⟩
    · obtain rfl := stepped
      exact ⟨written, replaced _⟩

theorem wp_saveTemporaryBansFile {path : String} {bans : TemporaryBans}
    {returns : Except AppError Unit → Files → Prop} (starts : kept files)
    (unchanged : ∀ answer, returns answer files)
    (saved : ∀ contents, contentsToSave setting.toml temporaryBansReadLimit bans = .ok contents →
      kept (Function.update files path (some contents.toList)) ∧
        ∀ answer, returns answer (Function.update files path (some contents.toList))) :
    wp (fileStep paths) (fun _ _ _ after => kept after) returns fails
      (setting.onFiles (callPort (.saveTemporaryBans path bans))) files := by
  refine (wp_callPort_files (.saveTemporaryBans path bans)).mpr ?_
  change wp _ _ _ _ (setting.saveTemporaryBansFile path bans) _
  unfold FileSetting.saveTemporaryBansFile
  split
  · exact unchanged _
  · rename_i contents written
    obtain ⟨keeps, replaced⟩ := saved contents written
    rintro (⟨parent, source⟩ | _) after stepped
    · obtain rfl := stepped
      exact ⟨starts, unchanged _⟩
    · obtain rfl := stepped
      exact ⟨starts, wp_writeStringAtomicWithLimit starts keeps unchanged replaced⟩

theorem wp_writeConfigurationFile {path : String} {contents : List Char}
    {mode : ConfigurationWriteMode} {returns : Except AppError Unit → Files → Prop}
    (starts : kept files) (written : kept (Function.update files path (some contents)))
    (unchanged : ∀ answer, returns answer files)
    (replaced : ∀ answer, returns answer (Function.update files path (some contents))) :
    wp (fileStep paths) (fun _ _ _ after => kept after) returns fails
      (setting.onFiles (callPort (.writeConfiguration path contents mode))) files := by
  refine (wp_callPort_files (.writeConfiguration path contents mode)).mpr ?_
  change wp _ _ _ _ (setting.writeConfigurationFile path contents mode) _
  unfold FileSetting.writeConfigurationFile
  split
  · exact unchanged _
  · split
    · exact unchanged _
    · cases mode with
      | replaceExisting => exact wp_writeStringAtomicWithLimit starts written unchanged replaced
      | createNew =>
        rintro (⟨parent, source⟩ | _) after stepped
        · obtain rfl := stepped
          exact ⟨starts, unchanged _⟩
        · obtain rfl := stepped
          refine ⟨starts, ?_⟩
          rintro (fault | _) last created
          · have answered (answer : Except AppError Unit) :
                kept last ∧ returns answer last := by
              rcases created with rfl | ⟨_, rfl⟩
              · exact ⟨starts, unchanged answer⟩
              · exact ⟨written, replaced answer⟩
            cases fault with
            | alreadyExists => exact answered _
            | failed source => exact answered _
          · obtain ⟨_, rfl⟩ := created
            exact ⟨written, replaced _⟩

end Contracts

/-! ### What a command does to what others wrote -/

/-- A synchronization leaves the temporary bans that it finds, or saves them
without their expired records. -/
def FileSetting.PrunedOrKept (setting : FileSetting) (before after : Option (List Char)) : Prop :=
  after = before ∨ ∃ bans cutoff contents, setting.temporaryBansIn before = .ok bans ∧
    contentsToSave setting.toml temporaryBansReadLimit (bans.pruneExpired cutoff).1 =
      .ok contents ∧ after = some contents.toList

/-- The files still show what was previewed. -/
def FileSetting.StillShows (setting : FileSetting) (paths : ResolvedPaths)
    (request : UnbanRequest) (preview : UnbanPreview) (files : Files) : Prop :=
  ∃ document temporary,
    loadBlocklistDocument paths.blocklistFile (files paths.blocklistFile) = .ok document ∧
    setting.temporaryBansIn (files paths.temporaryBansFile) = .ok temporary ∧
    previewUnchanged request preview (unbanPlan preview.targets document temporary) = true

/-- What a command does to the files that it finds. A reviewed change is made to
what was reviewed or not at all. -/
def StoreCommand.Respects (setting : FileSetting) (paths : ResolvedPaths) :
    StoreCommand → Files → Files → Prop
  | unban request preview _, before, after =>
    after = before ∨ setting.StillShows paths request preview before
  | configure preview _, before, after =>
    after = before ∨ before paths.configFile = preview.original ∧
      after = Function.update before paths.configFile (some preview.candidate)
  | sync _ _, before, after =>
    (paths.blocklistFile ≠ paths.temporaryBansFile →
      setting.PrunedOrKept (before paths.temporaryBansFile) (after paths.temporaryBansFile)) ∧
    (paths.blocklistFile ≠ paths.configFile → paths.temporaryBansFile ≠ paths.configFile →
      after paths.configFile = before paths.configFile)
  | _, _, _ => True

section Respects

variable {before : Files}

theorem wp_applyUnbanLocked (request : UnbanRequest) (preview : UnbanPreview)
    (decision : UnbanDecision) :
    wp (fileStep paths)
      (fun _ _ _ after => after = before ∨ setting.StillShows paths request preview before)
      (fun _ after => after = before ∨ setting.StillShows paths request preview before)
      (fun _ after => after = before ∨ setting.StillShows paths request preview before)
      (setting.onFiles (applyUnbanLocked paths request preview decision)) before := by
  have starts : before = before ∨ setting.StillShows paths request preview before := Or.inl rfl
  refine wp_idle_bind (issues_propagate (issues_callPort ⟨rfl, rfl⟩)) starts (fun _ => starts)
    fun _ => ?_
  refine wp_idle_bind issues_checks starts (fun _ => starts) fun _ => ?_
  refine wp_loadBlocklistFile starts (fun _ => starts) fun document loaded => ?_
  refine wp_idle_bind issues_checks starts (fun _ => starts) fun _ => ?_
  refine wp_loadTemporaryBansFile starts (fun _ => starts) fun temporary found => ?_
  refine wp_onFiles_bind ?_
  iterate 4 refine wp_idle_bind issues_checks starts (fun _ => starts) fun _ => ?_
  change wp _ _ _ _ (setting.onFiles (if _ then _ else _)) _
  split_ifs with same
  · exact wp_always (fun _ => Or.inr ⟨document, temporary, loaded, found, same⟩) _
  · exact starts

theorem wp_applyConfigurationLocked {preview : ConfigurationPreview}
    (samePaths : preview.paths = paths) :
    wp (fileStep paths)
      (fun _ _ _ after => after = before ∨ before paths.configFile = preview.original ∧
        after = Function.update before paths.configFile (some preview.candidate))
      (fun _ after => after = before ∨ before paths.configFile = preview.original ∧
        after = Function.update before paths.configFile (some preview.candidate))
      (fun _ after => after = before ∨ before paths.configFile = preview.original ∧
        after = Function.update before paths.configFile (some preview.candidate))
      (setting.onFiles (applyConfigurationLocked setting.format preview)) before := by
  subst samePaths
  have starts : before = before ∨ before preview.paths.configFile = preview.original ∧
    before = Function.update before preview.paths.configFile (some preview.candidate) := Or.inl rfl
  refine wp_idle_bind issues_checks starts (fun _ => starts) fun _ => ?_
  refine wp_readConfigurationFile starts (fun _ => starts) ?_
  split
  · exact starts
  · rename_i same
    have reviewed : before preview.paths.configFile = preview.original := not_not.mp same
    refine wp_idle_bind (Program.issues_ofExcept _) starts (fun _ => starts) fun _ => ?_
    refine wp_idle_bind issues_checks starts (fun _ => starts) fun _ => ?_
    refine wp_onFiles_bind (wp_propagate_files.mpr ?_)
    refine wp_writeConfigurationFile starts (Or.inr ⟨reviewed, rfl⟩) ?_ ?_
    · rintro (error | _) <;> exact starts
    · rintro (error | _) <;> exact Or.inr ⟨reviewed, rfl⟩

/-- What is read under the lock are the temporary bans of the file. -/
theorem wp_readLockedInputs {kept : Files → Prop} (starts : kept before) :
    wp (fileStep paths) (fun _ _ _ after => kept after)
      (fun inputs after => after = before ∧
        setting.temporaryBansIn (before paths.temporaryBansFile) = .ok inputs.temporaryBans)
      (fun _ after => after = before) (setting.onFiles (Sync.readLockedInputs paths)) before := by
  refine wp_idle_bind (issues_propagate (issues_callPort ⟨rfl, rfl⟩)) starts (fun _ => rfl)
    fun cutoff => ?_
  refine wp_idle_bind issues_checks starts (fun _ => rfl) fun _ => ?_
  refine wp_idle_bind (issues_propagate (issues_callPort ⟨rfl, rfl⟩)) starts (fun _ => rfl)
    fun config => ?_
  refine wp_idle_bind issues_checks starts (fun _ => rfl) fun _ => ?_
  refine wp_idle_bind (issues_propagate (issues_callPort ⟨rfl, rfl⟩)) starts (fun _ => rfl)
    fun _ => ?_
  refine wp_idle_bind issues_checks starts (fun _ => rfl) fun _ => ?_
  refine wp_loadTemporaryBansFile starts ?_ fun bans loaded => ?_
  · exact fun _ => rfl
  change wp _ _ _ _ (setting.onFiles (if _ then _ else _)) _
  split_ifs
  · exact wp_idle_bind (issues_reports (reports_report _)) starts (fun _ => rfl)
      fun _ => ⟨rfl, loaded⟩
  · exact ⟨rfl, loaded⟩

theorem wp_savePruned {kept : Files → Prop} {path : String} {bans : TemporaryBans} {cutoff : ℕ}
    {files : Files} (starts : kept files)
    (saved : ∀ contents, contentsToSave setting.toml temporaryBansReadLimit
      (bans.pruneExpired cutoff).1 = .ok contents →
        kept (Function.update files path (some contents.toList))) :
    wp (fileStep paths) (fun _ _ _ after => kept after) (fun _ after => kept after)
      (fun _ after => kept after) (setting.onFiles (Sync.savePruned path bans cutoff)) files := by
  have reported (error : AppError) {after : Files} (still : kept after) :
      wp (fileStep paths) (fun _ _ _ after => kept after) (fun _ after => kept after)
        (fun _ after => kept after) (setting.onFiles (report (Sync.expiredCleanupNotice error)))
        after :=
    wp_idle (issues_reports (reports_report _)) still (fun _ => still) fun _ => still
  unfold Sync.savePruned
  dsimp only
  split_ifs
  · refine wp_onFiles_bind (wp_saveTemporaryBansFile starts ?_ ?_)
    · rintro (error | _)
      · exact reported error starts
      · exact starts
    · intro contents written
      refine ⟨saved contents written, ?_⟩
      rintro (error | _)
      · exact reported error (saved contents written)
      · exact saved contents written
  · exact starts

/-- Preparing the sources changes no file but the blocklist. -/
theorem wp_prepared {env : List (String × String)} {registry : SyncSourceRegistry}
    {inputs : Sync.LockedInputs} {spared : String} {kept : Files → Prop}
    {returns : Sync.LoadedSources → Files → Prop} {fails : AppError → Files → Prop}
    {files : Files} (separate : paths.blocklistFile ≠ spared)
    (keeps : ∀ after : Files, after spared = files spared → kept after)
    (failed : ∀ error (after : Files), after spared = files spared → fails error after)
    (returned : ∀ sources (after : Files), after spared = files spared → returns sources after) :
    wp (fileStep paths) (fun _ _ _ after => kept after) returns fails
      (setting.onFiles (Sync.prepareSources paths env registry inputs)) files := by
  have spares : (Sync.prepareSources paths env registry inputs).Issues fun op =>
      op.usesLock = false ∧ ∀ path, op.writes = some path → ¬ path = spared := by
    refine issues_prepareSources ?_ ?_
    · refine fun op idle => ⟨idle.1, fun path writes => ?_⟩
      cases idle.2.symm.trans writes
    · rintro provider context rfl
      refine ⟨rfl, ?_⟩
      rintro path writes rfl
      exact separate (Option.some.inj writes)
  refine wp_weaken (wp_mono (wp_spared spares files fun _ _ => rfl) ?_ ?_) ?_
  · exact fun sources after same => returned sources after (same spared rfl)
  · exact fun error after same => failed error after (same spared rfl)
  · exact fun _ _ _ after same => keeps after (same spared rfl)

theorem wp_executeLocked (env : List (String × String)) (registry : SyncSourceRegistry)
    (separate : paths.blocklistFile ≠ paths.temporaryBansFile) :
    wp (fileStep paths)
      (fun _ _ _ after => setting.PrunedOrKept (before paths.temporaryBansFile)
        (after paths.temporaryBansFile))
      (fun _ after => setting.PrunedOrKept (before paths.temporaryBansFile)
        (after paths.temporaryBansFile))
      (fun _ after => setting.PrunedOrKept (before paths.temporaryBansFile)
        (after paths.temporaryBansFile))
      (setting.onFiles (Sync.executeLocked paths env registry)) before := by
  -- until the pruned bans are saved, the file of the temporary bans is the one that was found
  have unchanged {after : Files}
      (same : after paths.temporaryBansFile = before paths.temporaryBansFile) :
      setting.PrunedOrKept (before paths.temporaryBansFile) (after paths.temporaryBansFile) :=
    Or.inl same
  refine wp_idle_bind (issues_reports (reports_completeStage _)) (unchanged rfl)
    (fun _ => unchanged rfl) fun _ => ?_
  refine wp_onFiles_bind (wp_mono (wp_readLockedInputs (unchanged rfl)) ?_ ?_)
  · rintro inputs _ ⟨rfl, loaded⟩
    refine wp_onFiles_bind (wp_prepared separate (fun _ => unchanged)
      (fun _ _ => unchanged) ?_)
    intro sources after same
    have still := unchanged same
    refine wp_idle_bind (issues_computeStage (fun _ => id) _ _) still (fun _ => still)
      fun computed => ?_
    refine wp_idle_bind (Program.issues_ofExcept _) still (fun _ => still) fun entries => ?_
    refine wp_idle_bind issues_checks still (fun _ => still) fun _ => ?_
    refine wp_idle_bind (issues_promotePendingCaches (fun _ => id) _) still (fun _ => still)
      fun _ => ?_
    refine wp_idle_bind issues_checks still (fun _ => still) fun _ => ?_
    refine wp_idle_bind (issues_applyEnforcement (fun _ => id) _ _ _) still (fun _ => still)
      fun _ => ?_
    refine wp_onFiles_bind (wp_mono (wp_savePruned still ?_) (fun _ _ => id) fun _ _ => id)
    intro contents written
    refine Or.inr ⟨inputs.temporaryBans, inputs.cutoff, contents, loaded, written, ?_⟩
    exact Function.update_self ..
  · rintro error after rfl
    exact unchanged rfl

/-- A synchronization writes the blocklist and the temporary bans only. -/
theorem wp_executeLocked_spares {env : List (String × String)} {registry : SyncSourceRegistry}
    {spared : String} (notBlocklist : paths.blocklistFile ≠ spared)
    (notBans : paths.temporaryBansFile ≠ spared) :
    wp (fileStep paths) (fun _ _ _ after => after spared = before spared)
      (fun _ after => after spared = before spared) (fun _ after => after spared = before spared)
      (setting.onFiles (Sync.executeLocked paths env registry)) before := by
  have spares : (Sync.executeLocked paths env registry).Issues fun op =>
      op.usesLock = false ∧ ∀ path, op.writes = some path → ¬ path = spared := by
    refine issues_executeLocked ?_ ?_ ?_
    · refine fun op idle => ⟨idle.1, fun path writes => ?_⟩
      cases idle.2.symm.trans writes
    · rintro provider context rfl
      refine ⟨rfl, ?_⟩
      rintro path writes rfl
      exact notBlocklist (Option.some.inj writes)
    · refine fun bans => ⟨rfl, ?_⟩
      rintro path writes rfl
      exact notBans (Option.some.inj writes)
  refine wp_weaken (wp_mono (wp_spared spares before fun _ _ => rfl) ?_ ?_) ?_
  · exact fun _ _ same => same spared rfl
  · exact fun _ _ same => same spared rfl
  · exact fun _ _ _ _ same => same spared rfl

/-- What holds at every step of a body holds after any run of it under the lock. -/
theorem kept_of_lockedRun {body : Workflow α} {kept : Files → Prop} {last : Files}
    {trace : List (Event FileCall FileCall.Result Files)} {ending : Ending AppError α}
    (runs : Runs (fileStep paths) (setting.onFiles (underLock body)) before trace last ending)
    (holds : wp (fileStep paths) (fun _ _ _ after => kept after) (fun _ after => kept after)
      (fun _ after => kept after) (setting.onFiles body) before) (starts : kept before) :
    kept last := by
  have locked : wp (fileStep paths) (fun _ _ _ after => kept after) (fun _ _ => True)
      (fun _ _ => True) (setting.onFiles (underLock body)) before :=
    wp_underLock (wp_mono holds (fun _ _ still => ⟨still, trivial⟩)
      fun _ _ still => ⟨still, trivial⟩)
  exact runs.keeps locked starts

/-- What a command did under the lock respects what it found. -/
theorem respects_of_runs {command : StoreCommand} (samePaths : command.OverPaths paths)
    {after : Files} {trace : List (Event FileCall FileCall.Result Files)}
    {ending : Ending AppError command.Outcome}
    (runs : Runs (fileStep paths) (command.lockedProgram setting paths) before trace after ending) :
    command.Respects setting paths before after := by
  cases command with
  | unban request preview decision =>
    exact kept_of_lockedRun runs (wp_applyUnbanLocked request preview decision) (Or.inl rfl)
  | configure preview decision =>
    exact kept_of_lockedRun runs (wp_applyConfigurationLocked samePaths) (Or.inl rfl)
  | sync request registry =>
    constructor
    · intro separate
      exact kept_of_lockedRun runs (wp_executeLocked request.env registry separate) (Or.inl rfl)
    · intro notBlocklist notBans
      exact kept_of_lockedRun runs (wp_executeLocked_spares notBlocklist notBans) rfl
  | _ => trivial

end Respects

/-! ### Sections replayed by whole commands -/

section Replay

variable {before last : Files} {ending : Ending AppError α}

/-- The rest of a workflow runs to this end. -/
def RunsTo (setting : FileSetting) (paths : ResolvedPaths) (workflow : Workflow α)
    (before last : Files) (ending : Ending AppError α) : Prop :=
  ∃ trace, Runs (fileStep paths) (setting.onFiles workflow) before trace last ending

theorem RunsTo.after_checks {next : Unit → Workflow α}
    (rest : RunsTo setting paths (next ()) before last ending) :
    RunsTo setting paths (checkCancelled >>= next) before last ending := by
  rw [RunsTo, onFiles_bind]
  exact exists_runs_bind ⟨false, before, rfl, rest⟩

theorem RunsTo.after_resolvePaths {input : PathResolutionInput} {next : ResolvedPaths → Workflow α}
    (rest : RunsTo setting paths (next paths) before last ending) :
    RunsTo setting paths (propagate (callPort (.resolvePaths input .required)) >>= next)
      before last ending := by
  rw [RunsTo, onFiles_bind]
  exact exists_runs_bind ⟨.ok paths, before, ⟨rfl, rfl⟩, rest⟩

theorem RunsTo.after_startStage {stage : SyncStage} {next : Unit → Workflow α}
    (rest : RunsTo setting paths (next ()) before last ending) :
    RunsTo setting paths (startStage stage >>= next) before last ending := by
  rw [RunsTo, onFiles_bind]
  exact exists_runs_bind ⟨(), before, rfl, rest⟩

theorem RunsTo.after_completeStage {stage : SyncStage} {next : Unit → Workflow α}
    (rest : RunsTo setting paths (next ()) before last ending) :
    RunsTo setting paths (completeStage stage >>= next) before last ending := by
  rw [RunsTo, onFiles_bind]
  exact exists_runs_bind ⟨(), before, rfl, (), before, rfl, rest⟩

theorem RunsTo.after_loadConfig {path : String} {saved : SavedConfig} {next : Config → Workflow α}
    (loads : loadConfigFromFile setting.format path (before path) = .ok saved)
    (rest : RunsTo setting paths (next saved.toConfig) before last ending) :
    RunsTo setting paths (propagate (callPort (.loadConfig path)) >>= next) before last ending := by
  rw [RunsTo, onFiles_bind]
  refine exists_runs_bind ⟨.ok (before path), before, ⟨rfl, rfl⟩, ?_⟩
  change CanReturn _ _ (setting.onFiles (Program.ofExcept ((loadConfigFromFile setting.format path
    (before path)).map SavedConfig.toConfig))) _
  rw [loads]
  exact rest

theorem RunsTo.withLock {body : Workflow α}
    (rest : RunsTo setting paths (underLock body) before last ending) :
    RunsTo setting paths (withLock paths.lockFile body) before last ending := by
  change RunsTo setting paths (propagate _ >>= fun _ => underLock body) before last ending
  rw [RunsTo, onFiles_bind]
  exact exists_runs_bind ⟨.ok (), before, rfl, rest⟩

/-- Where the saved configuration does not load, a synchronization under the lock
has no effect and does not return. -/
theorem wp_executeLocked_unconfigured {env : List (String × String)}
    {registry : SyncSourceRegistry}
    (unreadable : ∀ saved, loadConfigFromFile setting.format paths.configFile
      (before paths.configFile) ≠ .ok saved) :
    wp (fileStep paths) (fun _ _ _ after => after = before) (fun _ _ => False)
      (fun _ after => after = before)
      (setting.onFiles (Sync.executeLocked paths env registry)) before := by
  have still (error : AppError) : before = before := rfl
  refine wp_idle_bind (issues_reports (reports_completeStage _)) rfl still fun _ => ?_
  refine wp_onFiles_bind ?_
  refine wp_idle_bind (issues_propagate (issues_callPort ⟨rfl, rfl⟩)) rfl still fun cutoff => ?_
  refine wp_idle_bind issues_checks rfl still fun _ => ?_
  refine wp_loadConfigFile ?_ ?_ fun saved loads => (unreadable saved loads).elim
  · rfl
  · exact fun _ => rfl

/-- What a section did, the whole command can do, run alone. Only a
synchronization that cannot load the configuration is stopped before, where under
the lock it changed nothing and did not return. -/
theorem exists_runs_program {command : StoreCommand} (samePaths : command.OverPaths paths)
    (asks : command.AsksForLock) {ending : Ending AppError command.Outcome}
    (runs : ∃ trace, Runs (fileStep paths) (command.lockedProgram setting paths) before trace last
      ending) :
    ∃ alone, (∃ trace, Runs (fileStep paths) (command.program setting) before trace last alone) ∧
      (alone = ending ∨ alone = .stopped ∧ last = before ∧ ∀ value, ending ≠ .returned value) := by
  have resolved {input : PathResolutionInput} {next : ResolvedPaths → Workflow command.Outcome}
      (rest : RunsTo setting paths (next paths) before last ending) :
      RunsTo setting paths (checkCancelled >>= fun _ =>
        propagate (callPort (.resolvePaths input .required)) >>= next) before last ending :=
    .after_checks (.after_resolvePaths rest)
  cases command with
  | ban request => exact ⟨ending, resolved (.withLock runs), Or.inl rfl⟩
  | unban request preview decision => exact ⟨ending, resolved (.withLock runs), Or.inl rfl⟩
  | banAsn request =>
    refine ⟨ending, resolved ?_, Or.inl rfl⟩
    cases normalized : normalizeAsnTokens request.tokens with
    | error error =>
      rw [StoreCommand.AsksForLock, normalized] at asks
      cases asks
    | ok asns =>
      simp only [StoreCommand.lockedProgram, StoreCommand.locked, normalized,
        Program.ofExcept_ok_bind] at runs
      exact .withLock runs
  | unbanAsn request =>
    refine ⟨ending, resolved ?_, Or.inl rfl⟩
    cases normalized : normalizeAsnTokens request.tokens with
    | error error =>
      rw [StoreCommand.AsksForLock, normalized] at asks
      cases asks
    | ok asns =>
      simp only [StoreCommand.lockedProgram, StoreCommand.locked, normalized,
        Program.ofExcept_ok_bind] at runs
      exact .withLock runs
  | configure preview decision =>
    obtain rfl : preview.paths = paths := samePaths
    obtain ⟨approved, changed⟩ := asks
    refine ⟨ending, RunsTo.after_checks ?_, Or.inl rfl⟩
    rw [if_neg (Bool.eq_false_iff.mp approved), if_neg (by simp [changed])]
    exact .withLock runs
  | sync request registry =>
    -- a sync reads the configuration before the lock as well; without one the locked part fails too
    by_cases configured : ∃ saved, loadConfigFromFile setting.format paths.configFile
        (before paths.configFile) = .ok saved
    · obtain ⟨saved, loads⟩ := configured
      refine ⟨ending, RunsTo.after_checks (.after_startStage (.after_resolvePaths ?_)), Or.inl rfl⟩
      refine .after_completeStage (.after_checks (.after_startStage (.after_loadConfig loads ?_)))
      exact .after_completeStage (.after_checks (.after_startStage (.withLock runs)))
    · obtain ⟨trace, runs⟩ := runs
      have fruitless : wp (fileStep paths) (fun _ _ _ after => after = before) (fun _ _ => False)
          (fun _ after => after = before)
          (StoreCommand.lockedProgram setting paths (.sync request registry)) before :=
        wp_underLock (wp_mono (wp_executeLocked_unconfigured (not_exists.mp configured))
          (fun _ _ => False.elim) fun _ _ same => ⟨same, same⟩)
      obtain rfl : last = before := runs.keeps fruitless rfl
      refine ⟨.stopped, ⟨[], .stop _ _⟩, Or.inr ⟨rfl, rfl, ?_⟩⟩
      rintro value rfl
      exact (runs.sound fruitless).2

end Replay

/-! ### Any number of processes -/

section Processes

variable {ι : Type} [DecidableEq ι]

/-- One whole command of a serial execution, and how it ended. -/
structure CommandTurn (commands : ι → StoreCommand) where
  process : ι
  ending : Ending AppError (commands process).Outcome

/-- A command runs alone, from the first call to its end or until it is cut. -/
def RunsAlone (setting : FileSetting) (paths : ResolvedPaths) (commands : ι → StoreCommand)
    (before : Files) (turn : CommandTurn commands) (after : Files) : Prop :=
  ∃ trace, Runs (fileStep paths) ((commands turn.process).program setting) before trace after
    turn.ending

/-- Processes that have not started yet, with the lock free. -/
def startProcesses (setting : FileSetting) (commands : ι → StoreCommand) (files : Files) :
    Shared ι FileCall FileCall.Result AppError (fun i => (commands i).Outcome) Files where
  state := files
  owner := none
  entered := []
  thread i := (commands i).program setting

/-- However the calls of any number of commands interleave, the files are those of
a serial execution of the commands that took the lock, in the order in which they
took it. A command that ended has ended in it the same way, or it is a
synchronization that failed and changed nothing. In it a synchronization leaves the
temporary bans it finds or prunes them, and a reviewed change meets the files that
were reviewed or changes nothing. -/
theorem commands_serializable (setting : FileSetting) (paths : ResolvedPaths)
    (commands : ι → StoreCommand) (samePaths : ∀ i, (commands i).OverPaths paths) (files : Files)
    {sys : Shared ι FileCall FileCall.Result AppError (fun i => (commands i).Outcome) Files}
    (interleaves : Interleaves (fileLock paths) (fileStep paths)
      (startProcesses setting commands files) sys) :
    ∃ events : List (Transition Files (CommandTurn commands)),
      History (RunsAlone setting paths commands) files events sys.state ∧
      events.map (fun event => event.label.process) = sys.entered ∧ sys.entered.Nodup ∧
      (∀ event ∈ events, ∀ ending, HasEnded (sys.thread event.label.process) ending →
        event.label.ending = ending ∨ event.label.ending = .stopped ∧
          event.after = event.before ∧ ∀ value, ending ≠ .returned value) ∧
      ∀ event ∈ events,
        (commands event.label.process).Respects setting paths event.before event.after := by
  have outside : ∀ i, Outside (fileLock paths) (fileStep paths)
      ((commands i).IsSection setting paths) ((startProcesses setting commands files).thread i) :=
    fun i => outside_program (commands i) (samePaths i)
  obtain ⟨turns, history, order, nodup, ended⟩ := exists_serial interleaves rfl rfl outside
  -- every turn is replayed by its whole command
  have replayed (event : Transition Files (Turn ι FileCall FileCall.Result AppError
      fun i => (commands i).Outcome)) : ∃ alone, event ∈ turns →
        (∃ trace, Runs (fileStep paths) ((commands event.label.thread).program setting)
          event.before trace event.after alone) ∧
        (alone = event.label.ending ∨ alone = .stopped ∧ event.after = event.before ∧
          ∀ value, event.label.ending ≠ .returned value) := by
    by_cases member : event ∈ turns
    · obtain ⟨⟨asks, same⟩, runs⟩ := history.stepped event member
      rw [same] at runs
      obtain ⟨alone, whole⟩ := exists_runs_program (samePaths event.label.thread) asks runs
      exact ⟨alone, fun _ => whole⟩
    · exact ⟨.stopped, fun isMember => (member isMember).elim⟩
  choose alone whole using replayed
  have serial : History (RunsAlone setting paths commands) files (turns.map fun event =>
      ⟨event.before, ⟨event.label.thread, alone event⟩, event.after⟩) sys.state :=
    history.relabel (fun event => (⟨event.label.thread, alone event⟩ : CommandTurn commands))
      fun event member => (whole event member).1
  refine ⟨_, serial, ?_, nodup, ?_, ?_⟩
  · rw [List.map_map]
    exact order
  · refine List.forall_mem_map.mpr fun event member ending ends => ?_
    rw [← ended event member ending ends]
    exact (whole event member).2
  · refine List.forall_mem_map.mpr fun event member => ?_
    obtain ⟨⟨_, same⟩, trace, runs⟩ := history.stepped event member
    rw [same] at runs
    exact respects_of_runs (samePaths event.label.thread) runs

end Processes

/-! ### Two bans -/

/-- Files that are read and replaced without failure, and ports that agree to
everything. -/
def steadyFiles (setting : FileSetting) (paths : ResolvedPaths) (now : ℕ) :
    Handler FileCall FileCall.Result Files := fun files call =>
  match call with
  | .readFile path => (.ok (files path), files)
  | .tryExists path => (.ok (files path).isSome, files)
  | .matchesFastState _ => (false, files)
  | .recordFastState _ => ((), files)
  | .ensureParent _ => (.ok (), files)
  | .replaceFile path contents => (.ok (), Function.update files path (some contents))
  | .createFile path contents =>
    if files path = none then (.ok (), Function.update files path (some contents))
    else (.error .alreadyExists, files)
  | .port op => (calmAnswer ⟨setting.format, fun _ => none⟩ paths now ⟨none, .empty, none⟩ op, files)

theorem fileStep_steadyFiles (setting : FileSetting) (paths : ResolvedPaths) (now : ℕ)
    (files : Files) (call : FileCall) :
    fileStep paths files call (steadyFiles setting paths now files call).1
      (steadyFiles setting paths now files call).2 := by
  cases call with
  | createFile path contents =>
    by_cases missing : files path = none
    · simp only [steadyFiles, if_pos missing]
      exact ⟨missing, rfl⟩
    · simp only [steadyFiles, if_neg missing]
      exact Or.inl rfl
  | port op =>
    cases op with
    | resolvePaths input requirement => exact ⟨rfl, rfl⟩
    | _ => rfl
  | readFile path => exact ⟨rfl, rfl⟩
  | tryExists path => exact ⟨rfl, rfl⟩
  | _ => rfl

/-- The library that reads the minimal configuration. -/
def minimalSetting : FileSetting where
  format := minimalFormat []
  parseDocument _ := .ok ()
  toml := recordedLibrary
  quoted := id

/-- The minimal configuration and nothing else. -/
def configuredFiles : Files :=
  Function.update (fun _ => none) systemPaths.configFile (some minimalText)

/-- Two processes that ban one network each. -/
def twoBans (second : Bool) : StoreCommand :=
  .ban ⟨⟨none, "/tmp", []⟩, .single (if second then "203.0.113.7".toList else
    "198.51.100.0/24".toList), none⟩

/-- Both resolve their paths; then the first one runs to its end, then the other. -/
def twoBansEnd : Shared Bool FileCall FileCall.Result AppError (fun i => (twoBans i).Outcome) Files :=
  ([false, true, false, true] ++ List.replicate 8 false ++ List.replicate 8 true).foldl
    (Shared.schedule (fileLock systemPaths) (steadyFiles minimalSetting systemPaths 0))
    (startProcesses minimalSetting twoBans configuredFiles)

theorem commands_serializable_twoBans :
    ∃ events : List (Transition Files (CommandTurn twoBans)),
      History (RunsAlone minimalSetting systemPaths twoBans) configuredFiles events
        twoBansEnd.state ∧
      events.map (fun event => event.label.process) = [false, true] ∧
      twoBansEnd.state systemPaths.blocklistFile =
        some "198.51.100.0/24\n203.0.113.7/32\n".toList := by
  have interleaves : Interleaves (fileLock systemPaths) (fileStep systemPaths)
      (startProcesses minimalSetting twoBans configuredFiles) twoBansEnd :=
    interleaves_scheduled (fileStep_steadyFiles minimalSetting systemPaths 0) _ _
  obtain ⟨events, history, order, _⟩ :=
    commands_serializable minimalSetting systemPaths twoBans (fun _ => trivial) configuredFiles
      interleaves
  exact ⟨events, history, order.trans (by decide +kernel), by decide +kernel⟩

end Kidobo
