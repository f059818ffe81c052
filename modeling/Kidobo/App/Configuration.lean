import Kidobo.App.Stores
import Kidobo.Network.Effective

/-!
# Reviewed configuration edits

An edit is prepared without a lock: the candidate text is rendered, validated,
and compared with the configuration it was made from. The operator reviews the
preview, and applying it checks the consent, takes the lock, and writes the
candidate only when the file is still the reviewed revision.

## Main definitions

* `ConfigurationEditor.render`: the candidate of an edit
* `ConfigurationPreview`, `expandsExemption`
* `prepareConfiguration`, `applyConfiguration`
-/

namespace Kidobo

open Foundation

/-! ### Requests and previews -/

/-- Named edits authorized by the configuration-management commands. -/
inductive ConfigurationEdit where
  | addSource (url : String)
  | removeSource (url : String)
  | addAllow (target : String)
  | removeAllow (target : String)
  | setBasic (enableIpv6 includeGithubMeta : Bool) (remoteUrls safeIps : List String)

/-- One source or safelist edit or reviewed setup settings. -/
structure ConfigurationRequest where
  paths : PathResolutionInput
  edit : ConfigurationEdit
  allowMissing : Bool

/-- Explicit approval of a reviewed exemption expansion. -/
structure ConfigurationDecision where
  approveExemption : Bool

/-- Exact saved-state outcome. -/
structure ConfigurationOutcome where
  changed : Bool
  created : Bool
  changedFields : List String
  deriving DecidableEq

/-- A reviewed candidate with the revision it was made from. -/
structure ConfigurationPreview where
  paths : ResolvedPaths
  original : Option (List Char)
  candidate : List Char
  before : SavedConfig
  after : SavedConfig
  changedFields : List String
  expandsExemption : Bool

/-- `changed`: whether applying would create or change the file. -/
def ConfigurationPreview.changed (preview : ConfigurationPreview) : Bool :=
  decide (preview.original ≠ some preview.candidate)

/-- `creates_file`. -/
def ConfigurationPreview.createsFile (preview : ConfigurationPreview) : Bool :=
  preview.original.isNone

/-! ### Candidates -/

/-- The starter document of a missing configuration. -/
def defaultConfigTemplate : List Char :=
  ("[ipset]\nset_name = \"kidobo\"\nchain_action = \"DROP\"\n\n" ++
    "[safe]\nips = []\ninclude_github_meta = true\n" ++
    "github_meta_url = \"https://api.github.com/meta\"\n" ++
    "# github_meta_categories = [\"api\", \"git\", \"hooks\", \"packages\"]\n\n" ++
    "[remote]\ntimeout_secs = 30\nurls = []\n\n" ++
    "[asn]\nbanned = []\ncache_stale_after_secs = 86400\n").toList

/-- `document_or_starter`. -/
def documentOrStarter (document : Option (List Char)) (allowMissing : Bool) (path : String) :
    Except AppError (List Char) :=
  match document with
  | some contents => .ok contents
  | none => if allowMissing then .ok defaultConfigTemplate else .error (.missingConfigFile path)

/-- What the formatting-preserving library does to the text of a document. -/
structure ConfigurationEditor where
  edited : SavedConfig → List Char → ConfigurationEdit → Except AppError (List Char)

/-- Read and validate a configuration. -/
def ConfigFormat.parse (format : ConfigFormat) (contents : List Char) :
    Except AppError SavedConfig :=
  match format.fromTomlStr contents with
  | .ok config => .ok config
  | .error error => .error (.configParse error)

/-- `ensure_size`. -/
def ensureSize (contents : List Char) : Except AppError Unit :=
  if configReadLimit < byteLength contents then
    .error (.configurationEdit "proposed configuration exceeds the 65536-byte limit")
  else .ok ()

/-- `render`: the bounded and valid candidate of an edit. -/
def ConfigurationEditor.render (editor : ConfigurationEditor) (format : ConfigFormat)
    (original : List Char) (edit : ConfigurationEdit) : Except AppError (List Char) := do
  let config ← format.parse original
  let candidate ← editor.edited config original edit
  ensureSize candidate
  let _ ← format.parse candidate
  return candidate

/-- `changed_fields`. -/
def changedFields (before after : SavedConfig) : List String :=
  (if before.ipset.enableIpv6 ≠ after.ipset.enableIpv6 then ["ipset.enable_ipv6"] else []) ++
  (if before.includeGithubMeta ≠ after.includeGithubMeta then ["safe.include_github_meta"]
    else []) ++
  (if before.remoteUrls ≠ after.remoteUrls then ["remote.urls"] else []) ++
  if before.safeIps ≠ after.safeIps then ["safe.ips"] else []

/-- Whether the candidate exempts an address that the saved exemptions do not. -/
def expandsExemption (before after : SavedConfig) : Bool :=
  let additional := computeEffectiveBlocklists after.safeIps before.safeIps true
  !additional.ipv4.isEmpty || !additional.ipv6.isEmpty

/-! ### Workflows -/

/-- `prepare`. -/
def prepareConfiguration (format : ConfigFormat) (editor : ConfigurationEditor)
    (request : ConfigurationRequest) : Workflow ConfigurationPreview := do
  checkCancelled
  let paths ← propagate (callPort (.resolvePaths request.paths .optional))
  let revision ← propagate (callPort (.readConfiguration paths.configFile))
  let document ← Program.ofExcept
    (documentOrStarter revision request.allowMissing paths.configFile)
  let before ← Program.ofExcept (format.parse document)
  let candidate ← Program.ofExcept (editor.render format document request.edit)
  let after ← Program.ofExcept (format.parse candidate)
  checkCancelled
  return {
    paths := paths
    original := revision
    candidate := candidate
    before := before
    after := after
    changedFields := changedFields before after
    expandsExemption := expandsExemption before after }

/-- The part of `apply` that holds the lock. -/
def applyConfigurationLocked (format : ConfigFormat) (preview : ConfigurationPreview) :
    Workflow ConfigurationOutcome := do
  checkCancelled
  let current ← propagate (callPort (.readConfiguration preview.paths.configFile))
  if current ≠ preview.original then throw .configurationChanged
  else
    let _ ← Program.ofExcept (format.parse preview.candidate)
    checkCancelled
    let mode := if preview.createsFile then .createNew else .replaceExisting
    propagate (callPort (.writeConfiguration preview.paths.configFile preview.candidate mode))
    return ⟨true, preview.createsFile, preview.changedFields⟩

/-- `apply`. -/
def applyConfiguration (format : ConfigFormat) (preview : ConfigurationPreview)
    (decision : ConfigurationDecision) : Workflow ConfigurationOutcome := do
  checkCancelled
  if preview.expandsExemption && !decision.approveExemption then throw .confirmationRequired
  else if !preview.changed then return ⟨false, false, []⟩
  else withLock preview.paths.lockFile (applyConfigurationLocked format preview)

end Kidobo
