import Kidobo.Firewall.Cleanup
import Kidobo.Firewall.Ipset
import Kidobo.Foundation.Expand

/-!
# The enforcement backend

The enforcement port is carried out by commands: sets are inspected, created and
replaced through ipset, chains and jumps are wired through the firewall tools.
Every call reports its failure as a result, and the cleanup of a disabled family
turns its failures into notices.

What is random in the source, the suffixes of temporary names, is an argument.

## Main definitions

* `ensureIpsetExists`, `createIpset`, `inspectIpset`, `parseIpsetInfo`
* `HostCall`: a port call, a firewall command or a call of the ipset adapter
* `Backend.ensureArtifacts`, `Backend.replaceSet`, `Backend.activate`,
  `Backend.cleanupDisabledIpv6`: the operations of `CommandEnforcementBackend`
* `Backend.onCommands`: a workflow whose enforcement calls are carried out
-/

namespace Kidobo

open Foundation

/-! ### Preparing a set -/

/-- What inspection tells of a set. -/
structure IpsetSetInfo where
  setType : String
  family : IpsetFamily
  deriving DecidableEq

/-- Failure while inspecting or creating a set. -/
inductive IpsetPreparationError where
  | commandExecution (source : CommandRunnerError)
  | commandFailed (command : String) (status : ProcessStatus) (stderr : String)
  | malformedInspection (setName reason : String)
  | incompatibleSet (setName expectedType : String) (expectedFamily : IpsetFamily)
      (actualType : String) (actualFamily : IpsetFamily)
  deriving DecidableEq

/-- A program that prepares a set. -/
abbrev IpsetPreparation (T α : Type) :=
  Program (IpsetOp T) IpsetOp.Result IpsetPreparationError α

/-- `is_missing_set_result`. -/
def isMissingSetResult (result : CommandResult) : Bool :=
  result.status.code == some 1 &&
    containsText "does not exist".toList (result.stderr.toList.map Char.toLower)

/-- `is_unsupported_terse_option_result`. -/
def isUnsupportedTerseOptionResult (result : CommandResult) : Bool :=
  let stderr := result.stderr.toList.map Char.toLower
  containsText "terse".toList stderr &&
    ["unknown", "unrecognized", "invalid", "syntax"].any fun word => containsText word.toList stderr

/-- The trimmed rest of the first line with this label. -/
def labelledLine (label : String) (text : List Char) : Option (List Char) :=
  (lines text).findSome? fun line => (label.toList.isPrefixOf? line).map trim

/-- The word after the first `family` that has one. -/
def familyWord : List (List Char) → Option (List Char)
  | key :: value :: rest => if key = "family".toList then some value else familyWord (value :: rest)
  | _ => none

/-- `parse_ipset_info`. -/
def parseIpsetInfo (stdout : String) : Except String IpsetSetInfo :=
  match (labelledLine "Type:" stdout.toList).filter (!·.isEmpty) with
  | none => .error "missing `Type:` field"
  | some setType =>
    match labelledLine "Header:" stdout.toList with
    | none => .error "missing `Header:` field"
    | some header =>
      match familyWord (splitWhitespace header) with
      | none => .error "missing family in `Header:` field"
      | some word =>
        if word = "inet".toList then .ok ⟨String.ofList setType, .inet⟩
        else if word = "inet6".toList then .ok ⟨String.ofList setType, .inet6⟩
        else .error s!"unsupported family `{String.ofList word}`"

section Preparation

variable {T : Type}

/-- Run one command, failing when it cannot be executed. -/
def runIpset (args : List String) : IpsetPreparation T CommandResult :=
  .call (.run ⟨"ipset", args⟩) fun
    | .ok result => .ret result
    | .error source => .fail (.commandExecution source)

/-- The failure of an unsuccessful command. -/
def failedIpset (args : List String) (result : CommandResult) : IpsetPreparationError :=
  .commandFailed (displayCommand "ipset" args) result.status result.stderr

/-- The parsed output of an inspection. -/
def parsedInspection (setName : String) (result : CommandResult) :
    IpsetPreparation T (Option IpsetSetInfo) :=
  match parseIpsetInfo result.stdout with
  | .ok info => return some info
  | .error reason => throw (.malformedInspection setName reason)

/-- `inspect_ipset`. -/
def inspectIpset (setName : String) : IpsetPreparation T (Option IpsetSetInfo) := do
  let terseArgs := ["list", setName, "-terse"]
  let terseResult ← runIpset terseArgs
  if terseResult.status.success then parsedInspection setName terseResult
  else if isMissingSetResult terseResult then return none
  else if isUnsupportedTerseOptionResult terseResult then
    let listArgs := ["list", setName]
    let result ← runIpset listArgs
    if isMissingSetResult result then return none
    else if result.status.success then parsedInspection setName result
    else throw (failedIpset listArgs result)
  else throw (failedIpset terseArgs terseResult)

/-- The arguments that create a set unless it exists. -/
def createArgs (spec : IpsetSetSpec) : List String :=
  ["create", spec.setName, spec.setType, "family", spec.family.asStr, "hashsize",
    toString spec.hashsize, "maxelem", toString spec.maxelem, "timeout", toString spec.timeout,
    "-exist"]

/-- `create_ipset`. -/
def createIpset (spec : IpsetSetSpec) : IpsetPreparation T Unit := do
  let result ← runIpset (createArgs spec)
  if result.status.success then return ()
  else throw (failedIpset (createArgs spec) result)

/-- `ensure_ipset_exists`. -/
def ensureIpsetExists (spec : IpsetSetSpec) : IpsetPreparation T Unit := do
  match ← inspectIpset spec.setName with
  | some info =>
    if info.setType = spec.setType ∧ info.family = spec.family then return ()
    else throw (.incompatibleSet spec.setName spec.setType spec.family info.setType info.family)
  | none => createIpset spec

end Preparation

/-! ### Families -/

/-- `ensure_firewall_artifacts_for_families`. -/
def ensureFirewallArtifactsForFamilies (enableIpv6 : Bool) : FirewallProgram Unit := do
  ensureChainExists .ipv4 kidoboChainName
  if enableIpv6 then ensureChainExists .ipv6 kidoboChainName

/-- `ensure_firewall_wiring_for_families`. -/
def ensureFirewallWiringForFamilies (turns : ℕ) (setNameV4 setNameV6 : String) (enableIpv6 : Bool)
    (chainAction : ChainAction) : FirewallProgram Unit := do
  ensureFirewallWiring turns .ipv4 setNameV4 chainAction
  if enableIpv6 then ensureFirewallWiring turns .ipv6 setNameV6 chainAction

/-! ### Operator texts -/

/-- The name of a family as the error texts show it. -/
def FirewallFamily.debugText : FirewallFamily → String
  | ipv4 => "Ipv4"
  | ipv6 => "Ipv6"

/-- The operator text of a firewall error. -/
def FirewallError.display : FirewallError → String
  | commandExecution cause => s!"firewall command execution failed: {cause.display}"
  | commandFailed command status stderr =>
    s!"firewall command failed `{command}` with status {status.debugText}: {stderr}"
  | unexpectedInputWiring family stablePositions stagingPositions =>
    s!"firewall INPUT wiring validation failed for {family.debugText}: " ++
      s!"stable={stablePositions}, staging={stagingPositions}"

/-- The operator text of an error of the ipset adapter. -/
def IpsetError.display : IpsetError → String
  | commandExecution cause => s!"ipset command execution failed: {cause.display}"
  | commandFailed command status stderr =>
    s!"ipset command failed `{command}` with status {status.debugText}: {stderr}"
  | writeRestoreScript path cause =>
    s!"failed to write ipset restore script {path}: {cause.message}"
  | createRestoreScript path cause =>
    s!"failed to create ipset restore script {path}: {cause.message}"

/-- The operator text of a failed preparation. -/
def IpsetPreparationError.display : IpsetPreparationError → String
  | commandExecution cause => s!"ipset command execution failed: {cause.display}"
  | commandFailed command status stderr =>
    s!"ipset command failed `{command}` with status {status.debugText}: {stderr}"
  | malformedInspection setName reason => s!"failed to inspect existing ipset `{setName}`: {reason}"
  | incompatibleSet setName expectedType expectedFamily actualType actualFamily =>
    s!"existing ipset `{setName}` is incompatible: expected type `{expectedType}` family " ++
      s!"`{expectedFamily.asStr}`, found type `{actualType}` family `{actualFamily.asStr}`"

/-! ### The backend -/

/-- A call outside sync: another port, a firewall command or the ipset adapter. -/
inductive HostCall where
  | port (op : PortOp)
  | firewall (line : CommandLine)
  | ipset (op : IpsetOp CanonicalCidr)

/-- What each of these answers. -/
@[reducible] def HostCall.Result : HostCall → Type
  | port op => op.Result
  | firewall _ => CommandResponse
  | ipset op => op.Result

/-- A program of the backend. -/
abbrev BackendProgram (ε α : Type) := Program HostCall HostCall.Result ε α

/-- What the backend draws at random, and the turns of its loops. -/
structure Backend where
  turns : ℕ
  suffix : String → String
  restoreScriptPath : ℕ → String

/-- A firewall program of the backend. -/
def onFirewall {α : Type} (program : FirewallProgram α) : BackendProgram FirewallError α :=
  program.embed .firewall fun _ response => response

/-- A program of the ipset adapter, run by the backend. -/
def onIpset {ε α : Type} (program : Program (IpsetOp CanonicalCidr) IpsetOp.Result ε α) :
    BackendProgram ε α :=
  program.embed .ipset fun _ result => result

/-- `to_chain_action`. -/
def toChainAction : FirewallAction → ChainAction
  | .drop => .drop
  | .reject => .reject

/-- `map_firewall_error`. -/
def mapFirewallError (error : FirewallError) : AppError := .firewall error.display

namespace Backend

variable (backend : Backend)

/-- Prepare the set of one family. -/
def prepareSet (spec : ManagedSetSpec) : BackendProgram AppError Unit :=
  (onIpset (ensureIpsetExists (toIpsetSpec spec))).mapError fun error => .ipset error.display

/-- `CommandEnforcementBackend::ensure_artifacts`. -/
def ensureArtifacts (plan : EnforcementPlan) : BackendProgram AppError Unit := do
  prepareSet plan.ipv4
  if plan.enableIpv6 then prepareSet plan.ipv6
  (onFirewall (ensureFirewallArtifactsForFamilies plan.enableIpv6)).mapError mapFirewallError

/-- `CommandEnforcementBackend::replace_set`. -/
def replaceSet (spec : ManagedSetSpec) (entries : List CanonicalCidr) :
    BackendProgram AppError Unit :=
  (onIpset (atomicReplaceIpsetValues (backend.suffix spec.setName) backend.restoreScriptPath
    (toIpsetSpec spec) entries)).mapError fun error => .ipset error.display

/-- `CommandEnforcementBackend::activate`. -/
def activate (plan : EnforcementPlan) : BackendProgram AppError Unit :=
  (onFirewall (ensureFirewallWiringForFamilies backend.turns plan.ipv4.setName plan.ipv6.setName
    plan.enableIpv6 (toChainAction plan.chainAction))).mapError mapFirewallError

/-- The diagnostic of a failed command, or that there is none. -/
def diagnostic (stderr : String) : String :=
  let trimmed := String.ofList (trim stderr.toList)
  if trimmed.isEmpty then "no stderr" else trimmed

/-- What the attempt to destroy the set of the disabled family is reported as. -/
def destroyNotices (setName : String) : CommandResponse → List Notice
  | .ok result =>
    if result.status.success || isMissingSetResult result then []
    else [.ofWarning (s!"disabled IPv6 ipset cleanup failed softly for {setName}: status " ++
      s!"{result.status.debugText}: {diagnostic result.stderr}")]
  | .error error => [.ofWarning
      s!"disabled IPv6 ipset cleanup failed softly for {setName}: {error.display}"]

/-- What a failed removal of the disabled wiring is reported as. -/
def firewallNotices : Except FirewallError Unit → List Notice
  | .ok () => []
  | .error error => [.ofWarning s!"disabled IPv6 firewall cleanup failed softly: {error.display}"]

/-- `CommandEnforcementBackend::cleanup_disabled_ipv6`. -/
def cleanupDisabledIpv6 (plan : EnforcementPlan) : BackendProgram Empty (List Notice) := do
  let cleaned ← (onFirewall (cleanupFirewallWiring backend.turns .ipv6)).attempt
  let notices := firewallNotices cleaned
  -- Disabled IPv6 permits an overlong derived name, which cannot exist in ipset.
  if ipsetNameMaxLen < plan.ipv6.setName.utf8ByteSize then return notices
  else if plan.ipv6.setName = plan.ipv4.setName then
    return notices ++ [.ofWarning
      "disabled IPv6 ipset cleanup skipped because its name matches the IPv4 set"]
  else
    let response ← Program.perform (.ipset (.run ⟨"ipset", ["destroy", plan.ipv6.setName]⟩))
    return notices ++ destroyNotices plan.ipv6.setName response

/-- How the calls of the enforcement port are carried out. -/
def carryOut : (op : PortOp) → BackendProgram Empty op.Result
  | .ensureArtifacts plan => (ensureArtifacts plan).attempt
  | .replaceSet spec entries => (backend.replaceSet spec entries).attempt
  | .activate plan => (backend.activate plan).attempt
  | .cleanupDisabledIpv6 plan => backend.cleanupDisabledIpv6 plan
  | op => Program.perform (HostCall.port op)

/-- A workflow whose enforcement calls are carried out by commands. -/
def onCommands {α : Type} (workflow : Workflow α) : BackendProgram AppError α :=
  workflow.expand backend.carryOut

end Backend

end Kidobo
