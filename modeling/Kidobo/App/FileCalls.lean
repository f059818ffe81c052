import Kidobo.App.Configuration
import Kidobo.App.Asn
import Kidobo.App.Sync
import Kidobo.App.Unban
import Kidobo.Foundation.Expand
import Kidobo.TemporaryBanState

/-!
# The file adapters

What the file adapters do when a workflow calls a port: they read files, replace
files atomically, and decide from what they read. A port call that reads and then
writes is several calls on files, between which other processes can run. All
other port calls leave the files alone.

## Main definitions

* `FileCall`, `Files`, `fileStep`: calls on files and what they can do
* `FileSetting.asFiles`: the file adapters
* `PortOp.usesLock`: the calls of the lock manager

## Main results

* `issues_asFiles`: only the lock manager uses the lock
* `fileStep_unlocked`: the calls of an adapter on one file keep the other files
-/

namespace Kidobo

open Foundation

/-! ### Calls on files -/

/-- Why a file was not created. -/
inductive CreateFault where
  | alreadyExists
  | failed (reason : String)

/-- One call of a file adapter. A replaced or created file is published with all
its contents. -/
inductive FileCall where
  | readFile (path : String)
  | tryExists (path : String)
  | matchesFastState (path : String)
  | recordFastState (path : String)
  | ensureParent (path : String)
  | replaceFile (path : String) (contents : List Char)
  | createFile (path : String) (contents : List Char)
  | port (op : PortOp)

/-- What each call answers: a missing file is read as none, and a parent that
could not be created is named. -/
@[reducible] def FileCall.Result : FileCall → Type
  | readFile _ => Except String (Option (List Char))
  | tryExists _ => Except String Bool
  | matchesFastState _ => Bool
  | recordFastState _ => Unit
  | ensureParent _ => Except (String × String) Unit
  | replaceFile _ _ => Except String Unit
  | createFile _ _ => Except CreateFault Unit
  | port op => op.Result

/-- The contents of the files. -/
abbrev Files := String → Option (List Char)

/-- What an adapter does. Its failures are among its results. -/
abbrev FileWork (α : Type) := Program FileCall FileCall.Result Empty α

/-- Issue a call on files. -/
def fileCall (op : FileCall) : FileWork op.Result := Program.perform op

/-- What a call can do over the same resolved paths. Reading tells the truth or
fails; a replacement that fails may still have taken place, but never in part. -/
def fileStep (paths : ResolvedPaths) : Step FileCall FileCall.Result Files :=
  fun before op result after =>
    match op, result with
    | .readFile path, .ok file => after = before ∧ file = before path
    | .tryExists path, .ok found => after = before ∧ found = (before path).isSome
    | .replaceFile path contents, .ok () => after = Function.update before path (some contents)
    | .replaceFile path contents, .error _ =>
      after = before ∨ after = Function.update before path (some contents)
    | .createFile path contents, .ok () =>
      before path = none ∧ after = Function.update before path (some contents)
    | .createFile path contents, .error _ =>
      after = before ∨ before path = none ∧ after = Function.update before path (some contents)
    | .port (.resolvePaths _ _), .ok resolved => after = before ∧ resolved = paths
    | _, _ => after = before

/-! ### Adapters -/

/-- What the adapters are given: the configuration format, the verdict of the
document parser, and the TOML library with its quoting. -/
structure FileSetting where
  format : ConfigFormat
  parseDocument : List Char → Except AppError Unit
  toml : TomlLibrary
  quoted : String → String

/-- `write_string_atomic_with_limit`. -/
def writeStringAtomicWithLimit (path : String) (contents : List Char) (limit : ℕ)
    (failure : String → AppError) : FileWork (Except AppError Unit) := do
  if limit < byteLength contents then return .error (failure (overLimit limit))
  else
    match ← fileCall (.replaceFile path contents) with
    | .error source => return .error (failure source)
    | .ok () => return .ok ()

/-- `load_blocklist_document`. -/
def loadBlocklistFile (path : String) : FileWork (Except AppError BlocklistDocument) := do
  match ← fileCall (.readFile path) with
  | .error source => return .error (.blocklistRead path source)
  | .ok file => return loadBlocklistDocument path file

/-- `append_entries_with_limit`. -/
def appendEntriesToFile (path : String) (entries : List String)
    (hasContent trailingNewline : Bool) : FileWork (Except AppError Unit) := do
  if entries.isEmpty then return .ok ()
  else
    match ← fileCall (.ensureParent path) with
    | .error (parent, source) => return .error (.blocklistWrite parent source)
    | .ok () =>
      match ← fileCall (.readFile path) with
      | .error source => return .error (.blocklistRead path source)
      | .ok file =>
        if blocklistReadLimit < byteLength (file.getD []) then
          return .error (.blocklistRead path (overLimit blocklistReadLimit))
        else
          writeStringAtomicWithLimit path
            (appendedContents (file.getD []) entries hasContent trailingNewline)
            blocklistReadLimit (.blocklistWrite path)

/-- `write_blocklist_lines`. -/
def writeBlocklistLines (path : String) (kept : List (List Char)) :
    FileWork (Except AppError Unit) :=
  writeStringAtomicWithLimit path (joinTerminated kept) blocklistReadLimit (.blocklistWrite path)

/-- `read_target_lines`. -/
def readTargetLinesFile (path : String) : FileWork (Except AppError (List (List Char))) := do
  match ← fileCall (.readFile path) with
  | .error source => return .error (.blocklistTargetFileRead path source)
  | .ok none => return .error (.blocklistTargetFileRead path "entity not found")
  | .ok (some contents) =>
    if blocklistTargetFileReadLimit < byteLength contents then
      return .error (.blocklistTargetFileRead path (overLimit blocklistTargetFileReadLimit))
    else return .ok (lines contents)

/-- The text of a failure to load or save the temporary bans. -/
def BanFileFault.reason (quoted : String → String) : BanFileFault → String
  | state error => error.message quoted
  | tooLarge limit => overLimit limit

namespace FileSetting

variable (setting : FileSetting)

/-- The temporary bans in a file. -/
def temporaryBansIn (file : Option (List Char)) : Except BanFileFault TemporaryBans :=
  loadState setting.toml temporaryBansReadLimit (file.map String.ofList)

/-- `FileTemporaryBanRepository::load`. -/
def loadTemporaryBansFile (path : String) : FileWork (Except AppError TemporaryBans) := do
  match ← fileCall (.readFile path) with
  | .error source => return .error (.temporaryBans path source)
  | .ok file =>
    match setting.temporaryBansIn file with
    | .error fault => return .error (.temporaryBans path (fault.reason setting.quoted))
    | .ok state => return .ok state

/-- `save_with_limit`. -/
def saveTemporaryBansFile (path : String) (state : TemporaryBans) :
    FileWork (Except AppError Unit) := do
  match contentsToSave setting.toml temporaryBansReadLimit state with
  | .error fault => return .error (.temporaryBans path (fault.reason setting.quoted))
  | .ok contents =>
    match ← fileCall (.ensureParent path) with
    | .error (_, source) => return .error (.temporaryBans path source)
    | .ok () =>
      writeStringAtomicWithLimit path contents.toList temporaryBansReadLimit (.temporaryBans path)

/-- `load_config_from_file`. -/
def loadConfigFile (path : String) : FileWork (Except AppError Config) := do
  match ← fileCall (.readFile path) with
  | .error source => return .error (.configRead path source)
  | .ok file => return (loadConfigFromFile setting.format path file).map SavedConfig.toConfig

/-- `update_asn_bans`. -/
def updateAsnBansFile (path : String) (add remove : List ℕ) :
    FileWork (Except AppError AsnConfigUpdate) := do
  match ← fileCall (.readFile path) with
  | .error source => return .error (.configRead path source)
  | .ok file =>
    match updateAsnBans setting.format path file add remove with
    | .error error => return .error error
    | .ok (contents, update) =>
      match ← fileCall (.replaceFile path contents) with
      | .error source => return .error (.configWrite path source)
      | .ok () => return .ok update

/-- `FileConfigurationManager::read`. -/
def readConfigurationFile (path : String) : FileWork (Except AppError (Option (List Char))) := do
  match ← fileCall (.readFile path) with
  | .error source => return .error (.configRead path source)
  | .ok none => return .ok none
  | .ok (some contents) =>
    if configReadLimit < byteLength contents then
      return .error (.configRead path (overLimit configReadLimit))
    else
      match setting.parseDocument contents with
      | .error error => return .error error
      | .ok () => return .ok (some contents)

/-- `publish_new`. -/
def publishNew (path : String) (contents : List Char) : FileWork (Except AppError Unit) := do
  match ← fileCall (.ensureParent path) with
  | .error (_, source) => return .error (.configWrite path source)
  | .ok () =>
    match ← fileCall (.createFile path contents) with
    | .error .alreadyExists => return .error .configurationChanged
    | .error (.failed source) => return .error (.configWrite path source)
    | .ok () => return .ok ()

/-- `FileConfigurationManager::write`. -/
def writeConfigurationFile (path : String) (contents : List Char) (mode : ConfigurationWriteMode) :
    FileWork (Except AppError Unit) := do
  match ensureSize contents with
  | .error error => return .error error
  | .ok () =>
    match setting.format.parse contents with
    | .error error => return .error error
    | .ok _ =>
      match mode with
      | .replaceExisting =>
        writeStringAtomicWithLimit path contents configReadLimit (.configWrite path)
      | .createNew => publishNew path contents

end FileSetting

/-- Result of checking or normalizing the local blocklist during sync. -/
inductive BlocklistNormalizeResult where
  | missingBlocklist
  | skippedUnchanged
  | checked
  deriving DecidableEq

/-- `normalize_local_blocklist`. -/
def normalizeLocalBlocklist (path : String) : FileWork (Except AppError Unit) := do
  match ← fileCall (.readFile path) with
  | .error source => return .error (.blocklistRead path source)
  | .ok file =>
    match normalizeLocalBlocklistWithLimit file blocklistReadLimit with
    | .error .read => return .error (.blocklistRead path (overLimit blocklistReadLimit))
    | .error (.invalid line) =>
      return .error (.blocklistParseLine path line.lineNumber (String.ofList line.content))
    | .error .write => return .error (.blocklistWrite path (overLimit blocklistReadLimit))
    | .ok none => return .ok ()
    | .ok (some normalized) =>
      match ← fileCall (.replaceFile path normalized) with
      | .error source => return .error (.blocklistWrite path source)
      | .ok () => return .ok ()

/-- `normalize_local_blocklist_with_fast_state`. The recorded metadata decide
whether an unchanged file is skipped. -/
def normalizeLocalBlocklistWithFastState (path : String) :
    FileWork (Except AppError BlocklistNormalizeResult) := do
  match ← fileCall (.tryExists path) with
  | .error source => return .error (.blocklistRead path source)
  | .ok false => return .ok .missingBlocklist
  | .ok true =>
    if ← fileCall (.matchesFastState path) then return .ok .skippedUnchanged
    else
      match ← normalizeLocalBlocklist path with
      | .error error => return .error error
      | .ok () =>
        fileCall (.recordFastState path)
        return .ok .checked

/-- The notice about a blocklist that was not normalized again. -/
def normalizationSkippedNotice (path : String) : Notice :=
  ⟨.info, s!"sync blocklist normalization skipped: unchanged path={path}"⟩

/-- `LocalBlocklistSyncProvider::load`. -/
def loadLocalBlocklist (context : SyncSourceContext) :
    FileWork (Except AppError SyncSourceLoad) := do
  if ← fileCall (.port .isCancelled) then return .error .interrupted
  else
    match ← normalizeLocalBlocklistWithFastState context.paths.blocklistFile with
    | .error error => return .error error
    | .ok normalization =>
      match ← loadBlocklistFile context.paths.blocklistFile with
      | .error error => return .error error
      | .ok document =>
        let notices := if normalization = .skippedUnchanged then
          [normalizationSkippedNotice context.paths.blocklistFile] else []
        return .ok ⟨⟨document.entries, notices⟩, none, [], none, []⟩

/-- The file adapters behind the ports. -/
def FileSetting.asFiles (setting : FileSetting) : (op : PortOp) → FileWork op.Result
  | .loadBlocklist path => loadBlocklistFile path
  | .appendEntries path entries hasContent trailingNewline =>
    appendEntriesToFile path entries hasContent trailingNewline
  | .writeLines path kept => writeBlocklistLines path kept
  | .readTargetLines path => readTargetLinesFile path
  | .loadTemporaryBans path => setting.loadTemporaryBansFile path
  | .saveTemporaryBans path state => setting.saveTemporaryBansFile path state
  | .loadConfig path => setting.loadConfigFile path
  | .updateConfig path add remove => setting.updateAsnBansFile path add remove
  | .readConfiguration path => setting.readConfigurationFile path
  | .writeConfiguration path contents mode => setting.writeConfigurationFile path contents mode
  | .loadSource provider context =>
    if provider.id = "local-blocklist" then loadLocalBlocklist context
    else fileCall (.port (.loadSource provider context))
  | op => fileCall (.port op)

/-- A workflow over the file adapters. -/
def FileSetting.onFiles {α : Type} (setting : FileSetting) (workflow : Workflow α) :
    Program FileCall FileCall.Result AppError α :=
  workflow.expand setting.asFiles

/-! ### What is written -/

/-- The calls of the lock manager. -/
def PortOp.usesLock : PortOp → Bool
  | acquireLock _ | acquireExistingLock _ | releaseLock => true
  | _ => false

/-- The file that a port call may change. -/
def PortOp.writes : PortOp → Option String
  | appendEntries path _ _ _ | writeLines path _ | saveTemporaryBans path _
  | updateConfig path _ _ | writeConfiguration path _ _ => some path
  | loadSource _ context => some context.paths.blocklistFile
  | _ => none

namespace FileCall

/-- The calls of the lock manager. -/
def usesLock : FileCall → Bool
  | port op => op.usesLock
  | _ => false

/-- The file that a call may change. -/
def writes : FileCall → Option String
  | replaceFile path _ | createFile path _ => some path
  | _ => none

end FileCall

/-- A call changes no other file. -/
theorem fileStep_frame {paths : ResolvedPaths} {before after : Files} {call : FileCall}
    {result : call.Result} (stepped : fileStep paths before call result after) {path : String}
    (other : call.writes ≠ some path) : after path = before path := by
  have replaced (target : String) (contents : List Char) (different : some target ≠ some path) :
      Function.update before target (some contents) path = before path :=
    Function.update_of_ne (fun same => different (congrArg some same.symm)) _ _
  cases call with
  | replaceFile target contents =>
    rcases result with _ | _
    · rcases stepped with rfl | rfl
      · rfl
      · exact replaced target contents other
    · obtain rfl := stepped
      exact replaced target contents other
  | createFile target contents =>
    rcases result with _ | _
    · rcases stepped with rfl | ⟨_, rfl⟩
      · rfl
      · exact replaced target contents other
    · obtain ⟨_, rfl⟩ := stepped
      exact replaced target contents other
  | readFile target => rcases result with _ | _ <;> simp_all [fileStep]
  | tryExists target => rcases result with _ | _ <;> simp_all [fileStep]
  | matchesFastState target => simp_all [fileStep]
  | recordFastState target => simp_all [fileStep]
  | ensureParent target => simp_all [fileStep]
  | port op =>
    cases op with
    | resolvePaths input requirement => rcases result with _ | _ <;> simp_all [fileStep]
    | _ => simp_all [fileStep]

/-- A call that changes no file has no effect. -/
theorem fileStep_idle {paths : ResolvedPaths} {before after : Files} {call : FileCall}
    {result : call.Result} (stepped : fileStep paths before call result after)
    (idle : call.writes = none) : after = before := by
  funext path
  apply fileStep_frame stepped
  rw [idle]
  exact nofun

/-- The calls that an adapter issues: none of the lock manager, and none on
another file than that of the port call. -/
def WithinPort (op : PortOp) (call : FileCall) : Prop :=
  call.usesLock = false ∧ ∀ path, call.writes = some path → op.writes = some path

section Issues

variable {op : PortOp}

theorem withinPort_of_idle {call : FileCall} (unlocked : call.usesLock = false)
    (idle : call.writes = none) : WithinPort op call := by
  refine ⟨unlocked, fun path writes => ?_⟩
  rw [idle] at writes
  cases writes

theorem issues_fileCall {call : FileCall} {allowed : FileCall → Prop} (isAllowed : allowed call) :
    (fileCall call).Issues allowed :=
  Program.issues_perform isAllowed

theorem issues_idle {call : FileCall} (unlocked : call.usesLock = false)
    (idle : call.writes = none) : (fileCall call).Issues (WithinPort op) :=
  issues_fileCall (withinPort_of_idle unlocked idle)

theorem issues_writeStringAtomicWithLimit {path : String} (target : op.writes = some path)
    (contents : List Char) (limit : ℕ) (failure : String → AppError) :
    (writeStringAtomicWithLimit path contents limit failure).Issues (WithinPort op) := by
  have within : WithinPort op (.replaceFile path contents) := ⟨rfl, fun _ same => target.trans same⟩
  unfold writeStringAtomicWithLimit
  split_ifs
  · trivial
  · refine (issues_fileCall within).bind ?_
    rintro (_ | _) <;> trivial

theorem issues_loadBlocklistFile (path : String) :
    (loadBlocklistFile path).Issues (WithinPort op) := by
  refine (issues_idle rfl rfl).bind ?_
  rintro (_ | _) <;> trivial

theorem issues_appendEntriesToFile (path : String) (entries : List String)
    (hasContent trailingNewline : Bool) :
    (appendEntriesToFile path entries hasContent trailingNewline).Issues
      (WithinPort (.appendEntries path entries hasContent trailingNewline)) := by
  unfold appendEntriesToFile
  split_ifs
  · trivial
  · refine (issues_idle rfl rfl).bind ?_
    rintro (_ | _)
    · trivial
    · refine (issues_idle rfl rfl).bind ?_
      rintro (_ | file)
      · trivial
      · dsimp only
        split_ifs
        · trivial
        · exact issues_writeStringAtomicWithLimit rfl _ _ _

theorem issues_readTargetLinesFile (path : String) :
    (readTargetLinesFile path).Issues (WithinPort op) := by
  refine (issues_idle rfl rfl).bind ?_
  rintro (_ | _ | contents)
  · trivial
  · trivial
  · dsimp only
    split_ifs <;> trivial

theorem issues_loadTemporaryBansFile (setting : FileSetting) (path : String) :
    (setting.loadTemporaryBansFile path).Issues (WithinPort op) := by
  refine (issues_idle rfl rfl).bind ?_
  rintro (_ | file)
  · trivial
  · dsimp only
    split <;> trivial

theorem issues_saveTemporaryBansFile (setting : FileSetting) (path : String)
    (state : TemporaryBans) :
    (setting.saveTemporaryBansFile path state).Issues
      (WithinPort (.saveTemporaryBans path state)) := by
  unfold FileSetting.saveTemporaryBansFile
  split
  · trivial
  · refine (issues_idle rfl rfl).bind ?_
    rintro (_ | _)
    · trivial
    · exact issues_writeStringAtomicWithLimit rfl _ _ _

theorem issues_loadConfigFile (setting : FileSetting) (path : String) :
    (setting.loadConfigFile path).Issues (WithinPort op) := by
  refine (issues_idle rfl rfl).bind ?_
  rintro (_ | _) <;> trivial

theorem issues_updateAsnBansFile (setting : FileSetting) (path : String) (add remove : List ℕ) :
    (setting.updateAsnBansFile path add remove).Issues
      (WithinPort (.updateConfig path add remove)) := by
  refine (issues_idle rfl rfl).bind ?_
  rintro (_ | file)
  · trivial
  · dsimp only
    split
    · trivial
    · refine (issues_fileCall ⟨rfl, fun _ same => same⟩).bind ?_
      rintro (_ | _) <;> trivial

theorem issues_readConfigurationFile (setting : FileSetting) (path : String) :
    (setting.readConfigurationFile path).Issues (WithinPort op) := by
  refine (issues_idle rfl rfl).bind ?_
  rintro (_ | _ | contents)
  · trivial
  · trivial
  · dsimp only
    split_ifs
    · trivial
    · split <;> trivial

theorem issues_publishNew {path : String} (target : op.writes = some path)
    (contents : List Char) : (FileSetting.publishNew path contents).Issues (WithinPort op) := by
  have within : WithinPort op (.createFile path contents) := ⟨rfl, fun _ same => target.trans same⟩
  refine (issues_idle rfl rfl).bind ?_
  rintro (_ | _)
  · trivial
  · refine (issues_fileCall within).bind ?_
    rintro ((_ | _) | _) <;> trivial

theorem issues_writeConfigurationFile (setting : FileSetting) (path : String)
    (contents : List Char) (mode : ConfigurationWriteMode) :
    (setting.writeConfigurationFile path contents mode).Issues
      (WithinPort (.writeConfiguration path contents mode)) := by
  unfold FileSetting.writeConfigurationFile
  split
  · trivial
  · split
    · trivial
    · cases mode with
      | replaceExisting => exact issues_writeStringAtomicWithLimit rfl _ _ _
      | createNew => exact issues_publishNew rfl _

theorem issues_normalizeLocalBlocklist {path : String} (target : op.writes = some path) :
    (normalizeLocalBlocklist path).Issues (WithinPort op) := by
  refine (issues_idle rfl rfl).bind ?_
  rintro (_ | file)
  · trivial
  · dsimp only
    split
    case h_5 normalized _ =>
      have within : WithinPort op (.replaceFile path normalized) :=
        ⟨rfl, fun _ same => target.trans same⟩
      refine (issues_fileCall within).bind ?_
      rintro (_ | _) <;> trivial
    all_goals trivial

theorem issues_loadLocalBlocklist (provider : SyncSourceDescriptor) (context : SyncSourceContext) :
    (loadLocalBlocklist context).Issues (WithinPort (.loadSource provider context)) := by
  refine (issues_idle rfl rfl).bind ?_
  rintro (_ | _)
  · refine Program.Issues.bind ?_ ?_
    · refine (issues_idle rfl rfl).bind ?_
      rintro (_ | _ | _)
      · trivial
      · trivial
      · refine (issues_idle rfl rfl).bind ?_
        rintro (_ | _)
        · refine (issues_normalizeLocalBlocklist rfl).bind ?_
          rintro (_ | _)
          · trivial
          · exact (issues_idle rfl rfl).bind fun _ => trivial
        · trivial
    · rintro (_ | normalization)
      · trivial
      · refine (issues_loadBlocklistFile _).bind ?_
        rintro (_ | _) <;> trivial
  · trivial

/-- An adapter leaves the lock and all other files alone. -/
theorem issues_asFiles (setting : FileSetting) (unlocked : op.usesLock = false) :
    (setting.asFiles op).Issues (WithinPort op) := by
  cases op with
  | loadBlocklist path => exact issues_loadBlocklistFile path
  | appendEntries path entries hasContent trailingNewline =>
    exact issues_appendEntriesToFile path entries hasContent trailingNewline
  | writeLines path kept => exact issues_writeStringAtomicWithLimit rfl _ _ _
  | readTargetLines path => exact issues_readTargetLinesFile path
  | loadTemporaryBans path => exact issues_loadTemporaryBansFile setting path
  | saveTemporaryBans path state => exact issues_saveTemporaryBansFile setting path state
  | loadConfig path => exact issues_loadConfigFile setting path
  | updateConfig path add remove => exact issues_updateAsnBansFile setting path add remove
  | readConfiguration path => exact issues_readConfigurationFile setting path
  | writeConfiguration path contents mode =>
    exact issues_writeConfigurationFile setting path contents mode
  | loadSource provider context =>
    change Program.Issues _ (if _ then _ else _)
    split_ifs
    · exact issues_loadLocalBlocklist provider context
    · exact issues_idle rfl rfl
  | _ => exact issues_idle unlocked rfl

end Issues

end Kidobo
