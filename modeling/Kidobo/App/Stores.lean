import Kidobo.App.BlocklistInput
import Kidobo.Canonicalize

/-!
# The saved stores

The blocklist file, the temporary bans and the configuration file, with what
the file adapters read from them and write to them. The TOML syntax is that of
a third-party library; a format stands for what is read with it and how an
edited ASN list is rendered with it.

In the faulty environment every port may refuse, and a refused save leaves its
store as it was. A port that answers tells the truth about the stores.

## Main definitions

* `Stores`, `ConfigFormat`, `SavedConfig`, `ValidatedConfig`
* `loadBlocklistDocument`, `appendedContents`, `updateAsnBans`
* `Requested`: the networks that an input asks for
* `storeStep`: truthful ports that may refuse
* `calmStores`: ports that refuse only what the files force them to

## Main results

* `wp_quiet`, `wp_save`, `wp_checkCancelled_stores`, `wp_withLock_stores`
* `storeStep_calmStores`: calm ports are truthful
-/

namespace Kidobo

open Foundation

/-! ### Files -/

/-- `BLOCKLIST_TARGET_FILE_READ_LIMIT`. -/
def blocklistTargetFileReadLimit : ℕ := 2 * 1024 * 1024

/-- `CONFIG_READ_LIMIT`. -/
def configReadLimit : ℕ := 64 * 1024

/-- The diagnostic of a file over its limit. -/
def overLimit (limit : ℕ) : String := s!"file exceeds {limit} byte limit"

/-- The configuration with the sections that only its management reads. -/
structure SavedConfig extends Config where
  safeIps : List CanonicalCidr
  includeGithubMeta : Bool
  remoteUrls : List String

/-- A validated configuration with all its sections. -/
structure ValidatedConfig extends SavedConfig where
  githubMetaUrl : String
  githubMetaCategories : Option (List String)
  timeoutSecs : ℕ

deriving instance DecidableEq for SavedConfig

deriving instance DecidableEq for ValidatedConfig

/-- What the TOML library contributes: reading and validating a configuration,
reading the banned ASNs of a document, and rendering the document with another
list of them. -/
structure ConfigFormat where
  fromTomlStr : List Char → Except ConfigError SavedConfig
  bannedAsns : List Char → Except ConfigError (List ℕ)
  renderBanned : List Char → List ℕ → List Char

/-- The saved stores. A missing temporary-ban file is the empty state. -/
structure Stores where
  blocklist : Option (List Char)
  temporary : TemporaryBans
  configuration : Option (List Char)

/-- `load_blocklist_document`: a missing file is an empty document. -/
def loadBlocklistDocument (path : String) (file : Option (List Char)) :
    Except AppError BlocklistDocument :=
  let contents := file.getD []
  if blocklistReadLimit < byteLength contents then
    .error (.blocklistRead path (overLimit blocklistReadLimit))
  else
    match BlocklistDocument.parse contents with
    | .ok document => .ok document
    | .error invalid =>
      .error (.blocklistParseLine path invalid.lineNumber (String.ofList invalid.content))

/-- A document is loaded from a bounded file with valid lines. -/
theorem loadBlocklistDocument_eq_ok {path : String} {file : Option (List Char)}
    {document : BlocklistDocument} :
    loadBlocklistDocument path file = .ok document ↔
      byteLength (file.getD []) ≤ blocklistReadLimit ∧
        BlocklistDocument.parse (file.getD []) = .ok document := by
  unfold loadBlocklistDocument
  dsimp only
  split_ifs with exceeds
  · simp [Nat.not_le_of_lt exceeds]
  · cases BlocklistDocument.parse (file.getD []) <;> simp [Nat.le_of_not_lt exceeds]

/-- The contents that `append_entries` writes. -/
def appendedContents (contents : List Char) (entries : List String)
    (hasContent trailingNewline : Bool) : List Char :=
  (if hasContent && !trailingNewline then contents ++ ['\n'] else contents) ++
    entries.flatMap fun entry => entry.toList ++ ['\n']

/-- `load_config_from_file`. -/
def loadConfigFromFile (format : ConfigFormat) (path : String) (file : Option (List Char)) :
    Except AppError SavedConfig :=
  match file with
  | none => .error (.missingConfigFile path)
  | some contents =>
    if configReadLimit < byteLength contents then
      .error (.configRead path (overLimit configReadLimit))
    else
      match format.fromTomlStr contents with
      | .ok config => .ok config
      | .error error => .error (.configParse error)

/-- A sorted list without repetition of these numbers. -/
def numberSet (numbers : List ℕ) : List ℕ := dedupAdjacent (sortUnstable numbers)

/-- `update_asn_bans`: the new contents and what changed. -/
def updateAsnBans (format : ConfigFormat) (path : String) (file : Option (List Char))
    (add remove : List ℕ) : Except AppError (List Char × AsnConfigUpdate) :=
  match file with
  | none => .error (.configRead path "entity not found")
  | some contents =>
    if configReadLimit < byteLength contents then
      .error (.configRead path (overLimit configReadLimit))
    else
      match format.bannedAsns contents with
      | .error error => .error (.configParse error)
      | .ok existing =>
        let before := numberSet existing
        let after := (numberSet (before ++ add)).filter fun asn => decide (asn ∉ remove)
        let rendered := format.renderBanned contents after
        if configReadLimit < byteLength rendered then
          .error (.configWrite path (overLimit configReadLimit))
        else
          .ok (rendered, ⟨after.filter fun asn => decide (asn ∉ before),
            before.filter fun asn => decide (asn ∉ after)⟩)

/-- What is fixed around the stores: the configuration format and the target
files of the operator. -/
structure StoreSetting where
  format : ConfigFormat
  targetFile : String → Option (List Char)

/-- The networks that an input asks for, in the order of the input. -/
def Requested (setting : StoreSetting) (input : BlocklistInput) (targets : List CanonicalCidr) :
    Prop :=
  match input with
  | .single value => ∃ target, parseBlocklistTarget value = some target ∧ targets = [target]
  | .file path => ∃ contents, setting.targetFile path = some contents ∧
      parseTargetLines (lines contents) = .ready targets

theorem Requested.unique {setting : StoreSetting} {input : BlocklistInput}
    {left right : List CanonicalCidr} (leftRequested : Requested setting input left)
    (rightRequested : Requested setting input right) : left = right := by
  cases input with
  | single value =>
    obtain ⟨leftTarget, leftParses, rfl⟩ := leftRequested
    obtain ⟨rightTarget, rightParses, rfl⟩ := rightRequested
    rw [Option.some.inj (leftParses.symm.trans rightParses)]
  | file path =>
    obtain ⟨leftContents, leftFile, leftReady⟩ := leftRequested
    obtain ⟨rightContents, rightFile, rightReady⟩ := rightRequested
    obtain rfl := Option.some.inj (leftFile.symm.trans rightFile)
    exact ParsedBlocklistInput.ready.inj (leftReady.symm.trans rightReady)

/-! ### The faulty environment -/

/-- A port call that was refused, or a cancellation that was noticed. -/
def PortOp.refusedBy : (op : PortOp) → op.Result → Bool
  | isCancelled, cancelled => cancelled
  | resolvePaths _ _, answer => !answer.isOk
  | loadConfig _, answer => !answer.isOk
  | acquireLock _, answer => !answer.isOk
  | acquireExistingLock _, answer => !answer.isOk
  | nowUnixSecs, answer => !answer.isOk
  | prepareRemoteCache _, answer => !answer.isOk
  | loadTemporaryBans _, answer => !answer.isOk
  | saveTemporaryBans _ _, answer => !answer.isOk
  | loadSource _ _, answer => !answer.isOk
  | loadPreviewSource _ _ _, answer => !answer.isOk
  | promote _, answer => !answer.isOk
  | ensureArtifacts _, answer => !answer.isOk
  | replaceSet _ _, answer => !answer.isOk
  | activate _, answer => !answer.isOk
  | loadBlocklist _, answer => !answer.isOk
  | appendEntries _ _ _ _, answer => !answer.isOk
  | writeLines _ _, answer => !answer.isOk
  | readTargetLines _, answer => !answer.isOk
  | loadPrefixes _ _ _, answer => !answer.isOk
  | updateConfig _ _ _, answer => !answer.isOk
  | deleteCache _ _, answer => !answer.isOk
  | readConfiguration _, answer => !answer.isOk
  | writeConfiguration _ _ _, answer => !answer.isOk
  | _, _ => false

/-- What an answer says about the stores. -/
def Truthful (setting : StoreSetting) (stores : Stores) : (op : PortOp) → op.Result → Prop
  | .loadBlocklist path, .ok document => loadBlocklistDocument path stores.blocklist = .ok document
  | .loadTemporaryBans _, .ok temporary => temporary = stores.temporary
  | .loadConfig path, .ok config =>
    ∃ saved, loadConfigFromFile setting.format path stores.configuration = .ok saved ∧
      saved.toConfig = config
  | .readTargetLines path, .ok found =>
    ∃ contents, setting.targetFile path = some contents ∧ found = lines contents
  | .writeLines _ kept, .ok _ => byteLength (joinTerminated kept) ≤ blocklistReadLimit
  | .writeLines path _, .error error => ∃ source, error = .blocklistWrite path source
  | .appendEntries _ entries hasContent trailingNewline, .ok _ =>
    entries ≠ [] →
      byteLength (appendedContents (stores.blocklist.getD []) entries hasContent trailingNewline) ≤
        blocklistReadLimit
  | .updateConfig path add remove, .ok update =>
    ∃ contents, updateAsnBans setting.format path stores.configuration add remove =
      .ok (contents, update)
  | .updateConfig path _ _, .error error =>
    (∃ source, error = .configRead path source) ∨ (∃ source, error = .configParse source) ∨
      ∃ source, error = .configWrite path source
  | .readConfiguration _, .ok contents => contents = stores.configuration
  | .writeConfiguration _ contents mode, .ok _ =>
    byteLength contents ≤ configReadLimit ∧ (setting.format.fromTomlStr contents).isOk = true ∧
      (mode = .createNew → stores.configuration = none)
  | _, _ => True

/-- The stores after a port call. Only a save that was not refused changes them. -/
def Stores.after (setting : StoreSetting) (stores : Stores) : (op : PortOp) → op.Result → Stores
  | .saveTemporaryBans _ temporary, .ok _ => { stores with temporary := temporary }
  | .writeLines _ kept, .ok _ => { stores with blocklist := some (joinTerminated kept) }
  | .appendEntries _ entries hasContent trailingNewline, .ok _ =>
    if entries = [] then stores
    else { stores with blocklist := some (appendedContents (stores.blocklist.getD []) entries
      hasContent trailingNewline) }
  | .updateConfig path add remove, .ok _ =>
    match updateAsnBans setting.format path stores.configuration add remove with
    | .ok (contents, _) => { stores with configuration := some contents }
    | .error _ => stores
  | .writeConfiguration _ contents _, .ok _ => { stores with configuration := some contents }
  | _, _ => stores

/-- The stores, and the calls that were refused so far. -/
structure StoreState extends Stores where
  refusals : List PortOp

namespace StoreState

/-- Remember a refused call. -/
def refuse (state : StoreState) (op : PortOp) : StoreState :=
  { state with refusals := state.refusals ++ [op] }

@[simp] theorem toStores_refuse (state : StoreState) (op : PortOp) :
    (state.refuse op).toStores = state.toStores := rfl

@[simp] theorem mem_refusals_refuse {state : StoreState} {op other : PortOp} :
    other ∈ (state.refuse op).refusals ↔ other ∈ state.refusals ∨ other = op := by
  simp [refuse]

theorem refusals_refuse_ne (state : StoreState) (op : PortOp) :
    (state.refuse op).refusals ≠ state.refusals := by
  simp [refuse]

/-- The state after a port call. -/
def after (setting : StoreSetting) (state : StoreState) (op : PortOp) (result : op.Result) :
    StoreState where
  toStores := state.toStores.after setting op result
  refusals := if op.refusedBy result then state.refusals ++ [op] else state.refusals

end StoreState

/-- Truthful ports that may refuse. -/
def storeStep (setting : StoreSetting) : Step PortOp PortOp.Result StoreState :=
  fun before op result after =>
    Truthful setting before.toStores op result ∧ after = before.after setting op result

/-! ### Contracts of port calls -/

/-- The calls that may change a store. -/
def PortOp.saves : PortOp → Bool
  | saveTemporaryBans _ _ => true
  | writeLines _ _ => true
  | appendEntries _ _ _ _ => true
  | updateConfig _ _ _ => true
  | writeConfiguration _ _ _ => true
  | _ => false

/-- A guarantee that holds of every call that saves nothing. -/
def Unmoved (guarantee : Step PortOp PortOp.Result StoreState) : Prop :=
  ∀ before op result after, op.saves = false → after.toStores = before.toStores →
    guarantee before op result after

/-- A failure contract that holds when a call that saves nothing is refused. -/
def Tolerates (fails : AppError → StoreState → Prop) (state : StoreState) : Prop :=
  ∀ error op, op.saves = false → fails error (state.refuse op)

section Rules

variable {setting : StoreSetting} {guarantee : Step PortOp PortOp.Result StoreState}
  {state : StoreState} {fails : AppError → StoreState → Prop} {α : Type}

theorem after_quiet {stores : Stores} {op : PortOp} {result : op.Result}
    (quiet : op.saves = false) : stores.after setting op result = stores := by
  cases op <;> first | rfl | cases quiet

/-- A refused call changes no store. -/
theorem after_refused {op : PortOp} {result : op.Result} (refused : op.refusedBy result = true) :
    state.after setting op result = state.refuse op := by
  have sameStores : state.toStores.after setting op result = state.toStores := by
    cases op <;> first
      | rfl
      | (rcases result with error | value
         · rfl
         · cases refused)
  simp only [StoreState.after, StoreState.refuse, refused, sameStores, if_true]

theorem after_answered {op : PortOp} {result : op.Result} (quiet : op.saves = false)
    (answered : op.refusedBy result = false) : state.after setting op result = state := by
  simp [StoreState.after, answered, after_quiet quiet]

/-- A call that saves nothing leaves the state or is refused. -/
theorem wp_quiet {op : PortOp} (unmoved : Unmoved guarantee) (quiet : op.saves = false)
    {returns : op.Result → StoreState → Prop}
    (answered : ∀ result, Truthful setting state.toStores op result →
      op.refusedBy result = false → returns result state)
    (refused : ∀ result, op.refusedBy result = true → returns result (state.refuse op)) :
    wp (storeStep setting) guarantee returns fails (callPort op) state := by
  rintro result after ⟨truthful, rfl⟩
  cases refusal : op.refusedBy result with
  | false =>
    rw [after_answered quiet refusal]
    exact ⟨unmoved _ _ _ _ quiet rfl, answered result truthful refusal⟩
  | true =>
    rw [after_refused refusal]
    exact ⟨unmoved _ _ _ _ quiet rfl, refused result refusal⟩

/-- A save takes effect or is refused. -/
theorem wp_save {op : PortOp} {returns : op.Result → StoreState → Prop}
    (kept : ∀ result, Truthful setting state.toStores op result →
      guarantee state op result (state.after setting op result))
    (answered : ∀ result, Truthful setting state.toStores op result →
      op.refusedBy result = false → returns result (state.after setting op result))
    (refused : ∀ result, Truthful setting state.toStores op result →
      op.refusedBy result = true → returns result (state.refuse op)) :
    wp (storeStep setting) guarantee returns fails (callPort op) state := by
  rintro result after ⟨truthful, rfl⟩
  refine ⟨kept result truthful, ?_⟩
  cases refusal : op.refusedBy result with
  | false => exact answered result truthful refusal
  | true =>
    rw [after_refused refusal]
    exact refused result truthful refusal

theorem wp_checkCancelled_stores (unmoved : Unmoved guarantee) (tolerates : Tolerates fails state)
    {returns : Unit → StoreState → Prop} (continues : returns () state) :
    wp (storeStep setting) guarantee returns fails checkCancelled state := by
  rw [checkCancelled, wp_bind]
  apply wp_quiet unmoved rfl
  · intro cancelled _ answered
    obtain rfl : cancelled = false := answered
    exact continues
  · intro cancelled refused
    obtain rfl : cancelled = true := refused
    exact tolerates _ _ rfl

theorem wp_resolvePaths (unmoved : Unmoved guarantee) (tolerates : Tolerates fails state)
    {input : PathResolutionInput} {requirement : ConfigRequirement}
    {returns : ResolvedPaths → StoreState → Prop} (continues : ∀ paths, returns paths state) :
    wp (storeStep setting) guarantee returns fails
      (propagate (callPort (.resolvePaths input requirement))) state := by
  refine wp_propagate.mpr (wp_quiet unmoved rfl ?_ ?_)
  · rintro (error | paths) _ answered
    · cases answered
    · exact continues paths
  · rintro (error | paths) refused
    · exact tolerates _ _ rfl
    · cases refused

theorem wp_loadConfig (unmoved : Unmoved guarantee) (tolerates : Tolerates fails state)
    {path : String} {returns : Config → StoreState → Prop}
    (continues : ∀ saved,
      loadConfigFromFile setting.format path state.configuration = .ok saved →
        returns saved.toConfig state) :
    wp (storeStep setting) guarantee returns fails
      (propagate (callPort (.loadConfig path))) state := by
  refine wp_propagate.mpr (wp_quiet unmoved rfl ?_ ?_)
  · rintro (error | config) truthful answered
    · cases answered
    · obtain ⟨saved, loaded, rfl⟩ := truthful
      exact continues saved loaded
  · rintro (error | config) refused
    · exact tolerates _ _ rfl
    · cases refused

theorem wp_loadBlocklist (unmoved : Unmoved guarantee) (tolerates : Tolerates fails state)
    {path : String} {returns : BlocklistDocument → StoreState → Prop}
    (continues : ∀ document, loadBlocklistDocument path state.blocklist = .ok document →
      returns document state) :
    wp (storeStep setting) guarantee returns fails
      (propagate (callPort (.loadBlocklist path))) state := by
  refine wp_propagate.mpr (wp_quiet unmoved rfl ?_ ?_)
  · rintro (error | document) truthful answered
    · cases answered
    · exact continues document truthful
  · rintro (error | document) refused
    · exact tolerates _ _ rfl
    · cases refused

theorem wp_loadTemporaryBans (unmoved : Unmoved guarantee) (tolerates : Tolerates fails state)
    {path : String} {returns : TemporaryBans → StoreState → Prop}
    (continues : returns state.temporary state) :
    wp (storeStep setting) guarantee returns fails
      (propagate (callPort (.loadTemporaryBans path))) state := by
  refine wp_propagate.mpr (wp_quiet unmoved rfl ?_ ?_)
  · rintro (error | temporary) truthful answered
    · cases answered
    · obtain rfl : temporary = state.temporary := truthful
      exact continues
  · rintro (error | temporary) refused
    · exact tolerates _ _ rfl
    · cases refused

theorem wp_readConfiguration (unmoved : Unmoved guarantee) (tolerates : Tolerates fails state)
    {path : String} {returns : Option (List Char) → StoreState → Prop}
    (continues : returns state.configuration state) :
    wp (storeStep setting) guarantee returns fails
      (propagate (callPort (.readConfiguration path))) state := by
  refine wp_propagate.mpr (wp_quiet unmoved rfl ?_ ?_)
  · rintro (error | contents) truthful answered
    · cases answered
    · obtain rfl : contents = state.configuration := truthful
      exact continues
  · rintro (error | contents) refused
    · exact tolerates _ _ rfl
    · cases refused

theorem wp_readTargetLines (unmoved : Unmoved guarantee) (tolerates : Tolerates fails state)
    {path : String} {returns : List (List Char) → StoreState → Prop}
    (continues : ∀ contents, setting.targetFile path = some contents →
      returns (lines contents) state) :
    wp (storeStep setting) guarantee returns fails
      (propagate (callPort (.readTargetLines path))) state := by
  refine wp_propagate.mpr (wp_quiet unmoved rfl ?_ ?_)
  · rintro (error | found) truthful answered
    · cases answered
    · obtain ⟨contents, file, rfl⟩ := truthful
      exact continues contents file
  · rintro (error | found) refused
    · exact tolerates _ _ rfl
    · cases refused

theorem wp_parseInput (unmoved : Unmoved guarantee) (tolerates : Tolerates fails state)
    {input : BlocklistInput}
    (rejects : (∀ targets, ¬ Requested setting input targets) → ∀ error, fails error state)
    {returns : ParsedBlocklistInput → StoreState → Prop}
    (continues : ∀ parsed,
      (∀ targets, Requested setting input targets ↔ parsed = .ready targets) →
        returns parsed state) :
    wp (storeStep setting) guarantee returns fails (parseInput input) state := by
  cases input with
  | single value =>
    rw [parseInput]
    split
    · rename_i target parses
      apply continues
      intro targets
      constructor
      · rintro ⟨other, otherParses, rfl⟩
        rw [Option.some.inj (otherParses.symm.trans parses)]
      · intro ready
        obtain rfl := ParsedBlocklistInput.ready.inj ready
        exact ⟨target, parses, rfl⟩
    · rename_i invalid
      apply rejects
      rintro targets ⟨target, parses, _⟩
      rw [invalid] at parses
      cases parses
  | file path =>
    rw [parseInput, wp_bind]
    apply wp_readTargetLines unmoved tolerates
    intro contents file
    apply continues
    intro targets
    constructor
    · rintro ⟨other, otherFile, ready⟩
      rw [← Option.some.inj (otherFile.symm.trans file), ready]
    · intro ready
      exact ⟨contents, file, ready⟩

/-- What holds of the part under the lock holds of the whole, also when less can happen. -/
theorem wp_withLock_narrow {narrower : Step PortOp PortOp.Result StoreState}
    (narrows : ∀ before op result after, narrower before op result after →
      storeStep setting before op result after)
    (unmoved : Unmoved guarantee) (tolerates : Tolerates fails state)
    {path : String} {body : Workflow α} {returns : α → StoreState → Prop}
    (holds : wp narrower guarantee returns fails body state) :
    wp narrower guarantee returns fails (withLock path body) state := by
  rw [withLock, withGuard, wp_bind]
  refine wp_propagate.mpr (wp_narrow (wp_quiet unmoved rfl ?_ ?_) narrows)
  · rintro (error | acquired) _ answered
    · cases answered
    · change wp _ _ _ _ (body.attempt >>= _) state
      rw [wp_bind, wp_attempt]
      apply wp_mono holds
      · intro value last returned
        rw [wp_bind]
        exact wp_narrow (wp_quiet unmoved rfl (fun _ _ _ => returned)
          (fun _ refused => nomatch refused)) narrows
      · intro error last failed
        rw [wp_bind]
        exact wp_narrow (wp_quiet unmoved rfl (fun _ _ _ => failed)
          (fun _ refused => nomatch refused)) narrows
  · rintro (error | acquired) refused
    · exact tolerates _ _ rfl
    · cases refused

/-- What holds of the part under the lock holds of the whole. -/
theorem wp_withLock_stores (unmoved : Unmoved guarantee) (tolerates : Tolerates fails state)
    {path : String} {body : Workflow α} {returns : α → StoreState → Prop}
    (holds : wp (storeStep setting) guarantee returns fails body state) :
    wp (storeStep setting) guarantee returns fails (withLock path body) state :=
  wp_withLock_narrow (fun _ _ _ _ stepped => stepped) unmoved tolerates holds

end Rules

/-- A run that saves nothing keeps the stores. -/
theorem toStores_eq_of_runs {setting : StoreSetting} {α : Type} {program : Workflow α}
    {state last : StoreState} {trace : List (Event PortOp PortOp.Result StoreState)}
    {ending : Ending AppError α}
    (runs : Runs (storeStep setting) program state trace last ending)
    (kept : ∀ event ∈ trace, event.op.saves = true →
      event.after.toStores = event.before.toStores) : last.toStores = state.toStores := by
  apply (runs.invariant (fun other => other.toStores = state.toStores) ?_ rfl).2
  intro event member same
  rw [← same]
  cases saves : event.op.saves with
  | true => exact kept event member saves
  | false =>
    rw [(runs.stepped event member).2]
    exact after_quiet saves

/-! ### The minimal configuration -/

/-- A configuration that names only the set. -/
def minimalText : List Char := "[ipset]\nset_name = 'kidobo'\n".toList

/-- The banned ASNs that are written behind the minimal configuration. -/
def bannedSection (banned : List ℕ) : List Char :=
  ("[asn]\nbanned = [" ++ ", ".intercalate (banned.map toString) ++ "]\n").toList

/-- The values of the minimal configuration, with these banned ASNs. -/
def minimalConfig (banned : List ℕ) : SavedConfig where
  ipset :=
    { setName := "kidobo", setNameV6 := "kidobo-v6", enableIpv6 := true, chainAction := .drop,
      setType := "hash:net", hashsize := 65536, maxelem := 500000, timeout := 0 }
  asn := { banned := banned, cacheStaleAfterSecs := 86400 }
  safeIps := []
  includeGithubMeta := true
  remoteUrls := []

/-- The minimal configuration alone or with one section of banned ASNs. -/
def readMinimal (known : List (List ℕ)) (contents : List Char) : Except ConfigError (List ℕ) :=
  if contents = minimalText then .ok []
  else
    match known.find? fun banned => decide (contents = minimalText ++ bannedSection banned) with
    | some banned => .ok banned
    | none => .error (.parse "unknown document")

/-- What the TOML library makes of the documents that `readMinimal` knows. -/
def minimalFormat (known : List (List ℕ)) : ConfigFormat where
  fromTomlStr contents := (readMinimal known contents).map minimalConfig
  bannedAsns := readMinimal known
  renderBanned _ banned := minimalText ++ bannedSection banned

/-- Paths below the system directories. -/
def systemPaths : ResolvedPaths where
  rootOverride := none
  configDir := "/etc/kidobo"
  configFile := "/etc/kidobo/config.toml"
  dataDir := "/var/lib/kidobo"
  blocklistFile := "/var/lib/kidobo/blocklist.txt"
  cacheDir := "/var/cache/kidobo"
  remoteCacheDir := "/var/cache/kidobo/remote"
  lockFile := "/run/kidobo.lock"

/-! ### Calm ports -/

/-- Ports that refuse only what the stores force them to. -/
def calmAnswer (setting : StoreSetting) (paths : ResolvedPaths) (now : ℕ) (stores : Stores) :
    (op : PortOp) → op.Result
  | .isCancelled => false
  | .resolvePaths _ _ => .ok paths
  | .loadConfig path =>
    (loadConfigFromFile setting.format path stores.configuration).map SavedConfig.toConfig
  | .acquireLock _ => .ok ()
  | .acquireExistingLock _ => .ok ()
  | .releaseLock => ()
  | .nowUnixSecs => .ok now
  | .prepareRemoteCache _ => .ok ()
  | .loadTemporaryBans _ => .ok stores.temporary
  | .saveTemporaryBans _ _ => .ok ()
  | .loadSource _ _ => .ok ⟨⟨[], []⟩, none, [], none, []⟩
  | .loadPreviewSource _ _ _ => .ok ⟨⟨[], []⟩, none, []⟩
  | .promote _ => .ok ()
  | .ensureArtifacts _ => .ok ()
  | .replaceSet _ _ => .ok ()
  | .activate _ => .ok ()
  | .cleanupDisabledIpv6 _ => []
  | .event _ => ()
  | .stageCompleted _ => ()
  | .notice _ => ()
  | .loadBlocklist path => loadBlocklistDocument path stores.blocklist
  | .appendEntries path entries hasContent trailingNewline =>
    if entries ≠ [] ∧ blocklistReadLimit < byteLength (appendedContents
        (stores.blocklist.getD []) entries hasContent trailingNewline) then
      .error (.blocklistWrite path (overLimit blocklistReadLimit))
    else .ok ()
  | .writeLines path kept =>
    if blocklistReadLimit < byteLength (joinTerminated kept) then
      .error (.blocklistWrite path (overLimit blocklistReadLimit))
    else .ok ()
  | .readTargetLines path =>
    match setting.targetFile path with
    | some contents => .ok (lines contents)
    | none => .error (.blocklistTargetFileRead path "entity not found")
  | .loadPrefixes _ _ _ => .ok ⟨[], false⟩
  | .updateConfig path add remove =>
    (updateAsnBans setting.format path stores.configuration add remove).map Prod.snd
  | .deleteCache _ _ => .ok false
  | .readConfiguration _ => .ok stores.configuration
  | .writeConfiguration path contents mode =>
    if byteLength contents ≤ configReadLimit ∧ (setting.format.fromTomlStr contents).isOk = true ∧
        (mode = .createNew → stores.configuration = none) then .ok ()
    else .error (.configWrite path "rejected")

/-- The deterministic environment of these ports. -/
def calmStores (setting : StoreSetting) (paths : ResolvedPaths) (now : ℕ) :
    Handler PortOp PortOp.Result StoreState := fun state op =>
  let answer := calmAnswer setting paths now state.toStores op
  (answer, state.after setting op answer)

theorem updateAsnBans_error {format : ConfigFormat} {path : String} {file : Option (List Char)}
    {add remove : List ℕ} {error : AppError}
    (failed : updateAsnBans format path file add remove = .error error) :
    (∃ source, error = .configRead path source) ∨ (∃ source, error = .configParse source) ∨
      ∃ source, error = .configWrite path source := by
  unfold updateAsnBans at failed
  cases file with
  | none => exact Or.inl ⟨_, (Except.error.inj failed).symm⟩
  | some contents =>
    dsimp only at failed
    split_ifs at failed with exceeds
    · exact Or.inl ⟨_, (Except.error.inj failed).symm⟩
    · cases found : format.bannedAsns contents with
      | error source =>
        rw [found] at failed
        exact Or.inr (Or.inl ⟨_, (Except.error.inj failed).symm⟩)
      | ok existing =>
        rw [found] at failed
        dsimp only at failed
        split_ifs at failed with tooLong
        exact Or.inr (Or.inr ⟨_, (Except.error.inj failed).symm⟩)

/-- Calm ports tell the truth. -/
theorem truthful_calmAnswer (setting : StoreSetting) (paths : ResolvedPaths) (now : ℕ)
    (stores : Stores) (op : PortOp) :
    Truthful setting stores op (calmAnswer setting paths now stores op) := by
  cases op with
  | loadConfig path =>
    cases loaded : loadConfigFromFile setting.format path stores.configuration with
    | error error => simp [calmAnswer, loaded, Truthful, Except.map]
    | ok saved => simp [calmAnswer, loaded, Truthful, Except.map]
  | loadBlocklist path =>
    cases loaded : loadBlocklistDocument path stores.blocklist with
    | error error => simp [calmAnswer, loaded, Truthful]
    | ok document => simp [calmAnswer, loaded, Truthful]
  | appendEntries path entries hasContent trailingNewline =>
    simp only [calmAnswer]
    split_ifs with exceeds
    · trivial
    · intro nonempty
      by_contra tooLong
      exact exceeds ⟨nonempty, Nat.lt_of_not_le tooLong⟩
  | writeLines path kept =>
    simp only [calmAnswer]
    split_ifs with exceeds
    · exact ⟨_, rfl⟩
    · exact Nat.le_of_not_lt exceeds
  | readTargetLines path =>
    cases file : setting.targetFile path with
    | none => simp [calmAnswer, file, Truthful]
    | some contents => simp [calmAnswer, file, Truthful]
  | updateConfig path add remove =>
    cases updated : updateAsnBans setting.format path stores.configuration add remove with
    | error error =>
      simpa [calmAnswer, updated, Truthful, Except.map] using updateAsnBans_error updated
    | ok update =>
      simp only [calmAnswer, updated, Truthful, Except.map, Except.ok.injEq]
      exact ⟨update.1, rfl⟩
  | writeConfiguration path contents mode =>
    simp only [calmAnswer]
    split_ifs with accepted
    · exact accepted
    · trivial
  | _ => trivial

theorem storeStep_calmStores (setting : StoreSetting) (paths : ResolvedPaths) (now : ℕ)
    (state : StoreState) (op : PortOp) :
    storeStep setting state op (calmStores setting paths now state op).1
      (calmStores setting paths now state op).2 :=
  ⟨truthful_calmAnswer setting paths now state.toStores op, rfl⟩

end Kidobo
