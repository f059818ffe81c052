import Kidobo.App.Stores
import Kidobo.Firewall.Iptables
import Kidobo.Firewall.ExactReplacement
import Kidobo.Network.RoundTrip

/-!
# Live inspection of one address

A check reads the configuration, probes the kernel set, the rule listing and
the membership of the address twice, reads the configuration again, and draws
a verdict from what agreed. It never changes anything, and it never turns a
failed probe into an absence.

## Main definitions

* `parseSetHeader`, `parseWiring`, `recognizedNonmember`: reading the tools
* `inspectSet`, `inspectWiring`, `membership`, `inspectFamily`: the probes
* `classifyTarget`, `check`: the verdict
-/

namespace Kidobo

open Foundation

/-! ### Observations -/

/-- Whether evidence verifies an artifact, proves its absence, or is inconclusive. -/
inductive Verification where
  | verified
  | absent
  | unknown
  deriving DecidableEq, Repr

/-- Membership of the selected address in one validated managed set. -/
inductive Membership where
  | present
  | absent
  | unknown
  deriving DecidableEq, Repr

/-- Observations of one address family's managed firewall state. -/
structure FamilyInspection where
  family : String
  configuredEnabled : Option Bool
  setName : Option String
  setState : Verification
  wiring : Verification
  enforcement : Verification
  entries : Option ℕ
  membership : Option Membership
  stable : Bool
  detail : String
  evidence : List String
  deriving DecidableEq

/-- An inconclusive result. -/
def FamilyInspection.unknown (family : AddressFamily) (setName : Option String)
    (detail : String) : FamilyInspection where
  family := family.label
  configuredEnabled := none
  setName := setName
  setState := .unknown
  wiring := .unknown
  enforcement := .unknown
  entries := none
  membership := none
  stable := false
  detail := detail
  evidence := []

/-- What one round read of the managed set. -/
structure SetSnapshot where
  state : Verification
  entries : Option ℕ
  signature : Option (List Char × List Char × List Char × ℕ)
  detail : String
  deriving DecidableEq

/-- A managed set that could not be verified. -/
def SetSnapshot.unknown (detail : String) : SetSnapshot := ⟨.unknown, none, none, detail⟩

/-- What one round read of the filter rules. -/
structure WiringSnapshot where
  state : Verification
  signature : List (List Char)
  detail : String
  deriving DecidableEq

/-- Wiring that could not be verified. -/
def WiringSnapshot.unknown (detail : String) : WiringSnapshot := ⟨.unknown, [], detail⟩

/-! ### Programs of the inspection -/

/-- One call of an inspection. -/
inductive InspectionOp where
  | isCancelled
  | resolvePaths (input : PathResolutionInput) (requirement : ConfigRequirement)
  | loadConfig (path : String)
  | execute (command : CommandLine)

/-- What each call answers. -/
@[reducible] def InspectionOp.Result : InspectionOp → Type
  | isCancelled => Bool
  | resolvePaths _ _ => Except AppError ResolvedPaths
  | loadConfig _ => Except AppError ValidatedConfig
  | execute _ => CommandResponse

/-- A program that inspects. -/
abbrev Inspection (α : Type) := Program InspectionOp InspectionOp.Result AppError α

namespace Inspection

/-- Make a call and return what it answers. -/
def call (op : InspectionOp) : Inspection op.Result := Program.perform op

/-- `Cancellation::check`. -/
def checkCancelled : Inspection Unit := do
  let cancelled ← call .isCancelled
  if cancelled then throw .interrupted

/-- `run`: one bounded probe, its failure as a text. -/
def run (program : String) (args : List String) : Inspection (Except String CommandResult) := do
  let response ← call (.execute ⟨program, args⟩)
  return response.mapError CommandRunnerError.display

end Inspection

/-! ### Reading the tools -/

/-- `probe_failure`. -/
def probeFailure (operation : String) (result : CommandResult) : String :=
  let detail :=
    if (trim result.stderr.toList).isEmpty then trim result.stdout.toList
    else trim result.stderr.toList
  s!"Unable to verify {operation}: status {result.status.debugText}: {String.ofList detail}"

/-- `field`: the text behind the prefix, when exactly one line starts with it
and it is not blank. -/
def field (contents linePrefix : List Char) : Option (List Char) :=
  match (lines contents).filterMap fun line => (linePrefix.isPrefixOf? line).map trim with
  | [value] => if value.isEmpty then none else some value
  | _ => none

/-- The address family as the kernel set header names it. -/
def expectedFamily : AddressFamily → String
  | .ipv4 => "inet"
  | .ipv6 => "inet6"

/-- The tokens behind the word `family` in a set header. -/
def headerFamilies (header : List Char) : List (List Char) :=
  let tokens := splitWhitespace header
  (tokens.zip tokens.tail).filterMap fun (word, next) =>
    if word = "family".toList then some next else none

/-- The four fields of a set header. -/
def headerFields (contents : List Char) :
    Option (List Char × List Char × List Char × ℕ) := do
  let name ← field contents "Name:".toList
  let kind ← field contents "Type:".toList
  let header ← field contents "Header:".toList
  let entries ← (← field contents "Number of entries:".toList) |> parseUsize
  return (name, kind, header, entries)

/-- `parse_set_header`. -/
def parseSetHeader (spec : ManagedSetSpec) (contents : List Char) : SetSnapshot :=
  match headerFields contents with
  | none => .unknown "Managed set header is malformed or lacks an entry count"
  | some (name, kind, header, entries) =>
    if name ≠ spec.setName.toList ∨ kind ≠ "hash:net".toList ∨ kind ≠ spec.setType.toList ∨
        headerFamilies header ≠ [(expectedFamily spec.family).toList] then
      .unknown "Managed set name, type, or address family differs from the supported configuration"
    else
      { state := .verified
        entries := some entries
        signature := some (name, kind, header, entries)
        detail := s!"Verified {spec.setType} {expectedFamily spec.family} set " ++
          s!"{String.ofList name}: {entries} kernel entries" }

/-- `family_binary`. -/
def familyBinary : AddressFamily → String
  | .ipv4 => "iptables"
  | .ipv6 => "ip6tables"

/-- The options that name the target of a rule. -/
def targetOptions : List (List Char) :=
  ["-j".toList, "--jump".toList, "-g".toList, "--goto".toList]

/-- The chains that Kidobo owns. -/
def managedChains : List (List Char) := [kidoboChainName.toList, kidoboStagingChainName.toList]

/-- `refers_to_managed_chain`. -/
def refersToManagedChain (line : List Char) : Bool :=
  let tokens := splitWhitespace line
  (tokens.zip tokens.tail).any fun (option, chain) =>
    targetOptions.contains option && managedChains.contains chain

/-- The policies of INPUT that a readable listing shows. -/
def inputPolicies : List (List Char) := ["-P INPUT ACCEPT".toList, "-P INPUT DROP".toList]

/-- A line that a rule listing can have. -/
def listsRule (line : List Char) : Bool :=
  "-P ".toList.isPrefixOf line || "-N ".toList.isPrefixOf line || "-A ".toList.isPrefixOf line

/-- A line that the wiring depends on. -/
def concernsWiring (line : List Char) : Bool :=
  "-P INPUT ".toList.isPrefixOf line || "-A INPUT ".toList.isPrefixOf line ||
    "-A kidobo-input ".toList.isPrefixOf line || "-A kidobo-input-stage ".toList.isPrefixOf line ||
    refersToManagedChain line

/-- The one canonical jump. -/
def canonicalJump : List Char := "-A INPUT -j kidobo-input".toList

/-- The rule target of an action. -/
def FirewallAction.target : FirewallAction → String
  | drop => "DROP"
  | reject => "REJECT"

/-- The configured rule of the stable chain. -/
def expectedRule (spec : ManagedSetSpec) (action : FirewallAction) : List Char :=
  (s!"-A kidobo-input -m set --match-set {spec.setName} src -j {action.target}").toList

/-- What a listing may add to a REJECT rule. -/
def rejectSuffix : AddressFamily → List Char
  | .ipv4 => " --reject-with icmp-port-unreachable".toList
  | .ipv6 => " --reject-with icmp6-port-unreachable".toList

/-- Whether the rule of the stable chain is the configured one. -/
def validRule (spec : ManagedSetSpec) (action : FirewallAction) (rule : List Char) : Bool :=
  rule == expectedRule spec action ||
    (action == .reject &&
      (expectedRule spec action).isPrefixOf? rule == some (rejectSuffix spec.family))

/-- A line that declares or fills the staging chain. -/
def declaresStaging (line : List Char) : Bool :=
  line == "-N kidobo-input-stage".toList || "-A kidobo-input-stage ".toList.isPrefixOf line

/-- `parse_wiring`. -/
def parseWiring (spec : ManagedSetSpec) (action : FirewallAction) (contents : List Char) :
    WiringSnapshot :=
  let listed := (lines contents).filter fun line => !line.isEmpty
  if (listed.filter inputPolicies.contains).length ≠ 1 ∨ listed.any fun line => !listsRule line then
    .unknown "Firewall rule output is malformed or lacks an authoritative INPUT policy"
  else
    let references := listed.filter refersToManagedChain
    let signature := listed.filter concernsWiring
    if references.isEmpty then
      { state := .absent
        signature := signature
        detail := "Readable filter rules contain no reference to Kidobo's managed chains" }
    else
      let inputFirst := listed.find? ("-A INPUT ".toList.isPrefixOf ·)
      let managedRules := listed.filter ("-A kidobo-input ".toList.isPrefixOf ·)
      if references = [canonicalJump] ∧ inputFirst = some canonicalJump ∧
          managedRules.length = 1 ∧ managedRules.head?.any (validRule spec action) ∧
          ¬listed.any declaresStaging then
        { state := .verified
          signature := signature
          detail :=
            s!"Verified first INPUT jump and managed source-set {action.target} rule" }
      else
        .unknown ("Managed firewall wiring is noncanonical, indirect, duplicated, staged, " ++
          "or differs from configuration")

/-- `recognized_nonmember`. -/
def recognizedNonmember (line : List Char) (target : IpAddr) (setName : List Char) : Bool :=
  match splitOnceText " is NOT in set ".toList (trim line) with
  | none => false
  | some (address, name) =>
    parseIpAddr address == some target && (name == setName || name == setName ++ ['.'])

/-- The lines of both outputs that are not blank. -/
def diagnosticLines (result : CommandResult) : List (List Char) :=
  (lines result.stdout.toList ++ lines result.stderr.toList).filter fun line =>
    !(trim line).isEmpty

/-- Whether the answer is just the recognized nonmember line. -/
def negativeAnswer (spec : ManagedSetSpec) (target : IpAddr) (result : CommandResult) : Bool :=
  match diagnosticLines result with
  | [line] => recognizedNonmember line target spec.setName.toList
  | _ => false

/-! ### Probing one family -/

namespace Inspection

/-- `inspect_set`. -/
def inspectSet (spec : ManagedSetSpec) : Inspection SetSnapshot := do
  match ← run "ipset" ["list", "-name"] with
  | .error reason => return .unknown reason
  | .ok names =>
    if !names.status.success then return .unknown (probeFailure "ipset list -name" names)
    else if !(lines names.stdout.toList).contains spec.setName.toList then
      return {
        state := .absent
        entries := none
        signature := none
        detail := s!"Managed set {spec.setName} is absent from the readable live set listing" }
    else
      let cancelled ← call .isCancelled
      if cancelled then
        return .unknown "Inspection interrupted before managed-set header probe"
      else
        match ← run "ipset" ["list", spec.setName, "-terse"] with
        | .error reason => return .unknown reason
        | .ok header =>
          if header.status.success then return parseSetHeader spec header.stdout.toList
          else return .unknown (probeFailure "ipset header inspection" header)

/-- `inspect_wiring`. -/
def inspectWiring (spec : ManagedSetSpec) (action : FirewallAction) :
    Inspection WiringSnapshot := do
  let program := familyBinary spec.family
  match ← run program ["-S"] with
  | .error reason => return .unknown reason
  | .ok rules =>
    if rules.status.success then return parseWiring spec action rules.stdout.toList
    else return .unknown (probeFailure program rules)

/-- `membership`. -/
def membership (spec : ManagedSetSpec) (target : IpAddr) : Inspection (Membership × String) := do
  let targetText := String.ofList target.text
  match ← run "ipset" ["test", spec.setName, targetText] with
  | .error reason => return (.unknown, reason)
  | .ok result =>
    let negative := negativeAnswer spec target result
    if result.status.success && !negative then
      return (.present, s!"Live ipset test verified membership for {targetText}")
    else if result.status.code == some 1 && negative then
      return (.absent, s!"Live ipset test verified nonmembership for {targetText}")
    else return (.unknown, probeFailure "ipset test" result)

/-- The membership of the target, which needs a verified set. -/
def membershipOf (spec : ManagedSetSpec) (state : Verification) :
    Option IpAddr → Inspection (Option (Membership × String))
  | none => return none
  | some target => do
    if state = .verified then return some (← membership spec target)
    else return some (.unknown, "Membership is unavailable without a verified managed set")

end Inspection

/-- What one round of probes saw. -/
structure Round where
  set : SetSnapshot
  wiring : WiringSnapshot
  membership : Option (Membership × String)

/-- The evidence of a round. -/
def Round.evidence (round : Round) : List String :=
  [round.set.detail, round.wiring.detail] ++ round.membership.toList.map Prod.snd

/-- Whether two rounds saw the same. -/
def Round.agrees (before after : Round) : Bool :=
  before.set == after.set && before.wiring == after.wiring &&
    before.membership.map Prod.fst == after.membership.map Prod.fst

/-- The wiring and set states that amount to enforcement. -/
def enforcementOf : Verification → Verification → Verification
  | _, .absent => .absent
  | .verified, .verified => .verified
  | _, _ => .unknown

/-- The reason for an aggregate state. -/
def enforcementDetail : Verification → String
  | .verified => "Managed set and first INPUT blocking path verified"
  | .absent => "No effective Kidobo-managed INPUT path is present"
  | .unknown => "Managed set and firewall wiring are inconsistent"

namespace FamilyInspection

/-- The inspection after the first round. -/
def observed (spec : ManagedSetSpec) (before : Round) : FamilyInspection :=
  { unknown spec.family (some spec.setName)
      ("Unable to verify managed state; inspect evidence and retry with explicit privileges " ++
        "if needed") with
    setState := before.set.state
    entries := before.set.entries
    wiring := before.wiring.state
    membership := before.membership.map Prod.fst
    evidence := before.evidence }

/-- The inspection when the second round saw something else. -/
def changed (inspection : FamilyInspection) (target : Option IpAddr) (after : Round) :
    FamilyInspection :=
  { inspection with
    setState := .unknown
    wiring := .unknown
    entries := none
    membership := target.map fun _ => .unknown
    detail := "Managed state changed during inspection; retry the command"
    evidence := inspection.evidence ++ after.evidence }

/-- The inspection when both rounds agree. -/
def settled (inspection : FamilyInspection) (before : Round) : FamilyInspection :=
  let enforcement := enforcementOf before.set.state before.wiring.state
  let settled :=
    { inspection with
      stable := true
      enforcement := enforcement
      detail := enforcementDetail enforcement }
  if settled.membership = some .unknown ∧ settled.wiring ≠ .absent then
    { settled with
      stable := false
      detail := "Unable to verify selected-address membership" }
  else settled

end FamilyInspection

namespace Inspection

/-- One round of probes, with the cancellation points between them. -/
def probeRound (spec : ManagedSetSpec) (action : FirewallAction) (target : Option IpAddr) :
    Inspection Round := do
  let set ← inspectSet spec
  checkCancelled
  let wiring ← inspectWiring spec action
  checkCancelled
  let membership ← membershipOf spec set.state target
  return ⟨set, wiring, membership⟩

/-- The family of an address. -/
def targetFamily : IpAddr → AddressFamily
  | .v4 _ => .ipv4
  | .v6 _ => .ipv6

/-- `inspect_family`. -/
def inspectFamily (spec : ManagedSetSpec) (action : FirewallAction) (target : Option IpAddr) :
    Inspection FamilyInspection := do
  checkCancelled
  if target.any fun address => decide (targetFamily address ≠ spec.family) then
    return .unknown spec.family (some spec.setName)
      "Address and managed-set families do not match"
  else
    let before ← probeRound spec action target
    let inspection := FamilyInspection.observed spec before
    if before.set.state = .unknown ∨ before.wiring.state = .unknown then return inspection
    else
      checkCancelled
      let after ← probeRound spec action target
      checkCancelled
      if before.agrees after then return inspection.settled before
      else return inspection.changed target after

end Inspection

/-! ### The verdict -/

/-- The verdict about Kidobo's managed INPUT path. -/
inductive CheckVerdict where
  | blocked
  | notBlocked
  | unknown
  deriving DecidableEq, Repr

/-- A saved or cached entry that an offline lookup matched. -/
structure OfflineMatch where
  source : String
  entry : String
  deriving DecidableEq

/-- One live address assessment. -/
structure CheckReport where
  schemaVersion : ℕ
  target : String
  verdict : CheckVerdict
  family : FamilyInspection
  offlineMatches : List OfflineMatch
  offlineNotices : List String
  notices : List String
  deriving DecidableEq

/-- One address and the inputs of path resolution. -/
structure CheckRequest where
  paths : PathResolutionInput
  target : IpAddr

namespace FamilyInspection

/-- `apply_configuration`. -/
def applyConfiguration (inspection : FamilyInspection) (enabled : Bool) : FamilyInspection :=
  let configured := { inspection with configuredEnabled := some enabled }
  if !enabled && inspection.wiring == .verified then
    let detail := "IPv6 is disabled in configuration, but managed blocking wiring remains live; " ++
      "sync is needed to reconcile it"
    { configured with
      enforcement := .unknown
      detail := detail
      evidence := inspection.evidence ++ [detail] }
  else configured

/-- `invalidate_family`. -/
def invalidate (inspection : FamilyInspection) (detail : String) : FamilyInspection :=
  { inspection with
    setState := .unknown
    wiring := .unknown
    enforcement := .unknown
    entries := none
    membership := inspection.membership.map fun _ => .unknown
    stable := false
    detail := detail
    evidence := inspection.evidence ++ [detail] }

/-- `classify_target`. -/
def classifyTarget (inspection : FamilyInspection) : CheckVerdict :=
  if !inspection.stable || inspection.enforcement == .unknown then .unknown
  else
    match inspection.wiring, inspection.setState, inspection.membership with
    | .verified, .verified, some .present => .blocked
    | .absent, _, _ => .notBlocked
    | .verified, .verified, some .absent => .notBlocked
    | _, _, _ => .unknown

end FamilyInspection

namespace Inspection

/-- Read the configuration again and forget what was seen when it changed. -/
def confirmConfiguration (path : String) (config : ValidatedConfig)
    (inspection : FamilyInspection) : Inspection FamilyInspection := do
  let reloaded ← call (.loadConfig path)
  let changed := ({ inspection with configuredEnabled := none } : FamilyInspection).invalidate
    "Configuration changed or became unreadable during inspection; retry check"
  match reloaded with
  | .ok current => return if current = config then inspection else changed
  | .error .interrupted => throw .interrupted
  | .error _ => return changed

/-- `check`. -/
def check (request : CheckRequest) : Inspection CheckReport := do
  checkCancelled
  let resolved ← call (.resolvePaths request.paths .optional)
  let paths ← Program.ofExcept resolved
  let family := targetFamily request.target
  let report : CheckReport :=
    { schemaVersion := 1
      target := String.ofList request.target.text
      verdict := .unknown
      family := .unknown family none "Valid configuration is required to identify the managed set"
      offlineMatches := []
      offlineNotices := []
      notices := [] }
  let loaded ← call (.loadConfig paths.configFile)
  match loaded with
  | .error .interrupted => throw .interrupted
  | .error error =>
    return { report with
      family := { report.family with detail := error.display }
      notices := ["Run kidobo doctor to diagnose configuration and prerequisites"] }
  | .ok config =>
    let plan := EnforcementPlan.fromConfig config.toConfig
    let inspection ← inspectFamily (plan.specOf family) plan.chainAction (some request.target)
    let configured :=
      inspection.applyConfiguration (decide (family = .ipv4) || plan.enableIpv6)
    checkCancelled
    let confirmed ← confirmConfiguration paths.configFile config configured
    let verdict := confirmed.classifyTarget
    checkCancelled
    return { report with verdict := verdict, family := confirmed }

end Inspection

end Kidobo
