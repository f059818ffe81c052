import Kidobo.Command
import Kidobo.Foundation.Text

/-!
# The fail-closed iptables adapter

The wiring of one address family: make sure the stable chain exists, replace
its rule, and normalize the INPUT jump through a staging chain. Each function
is a program over the command boundary. The loop that removes INPUT jumps is
unbounded in the source; here it has a number of turns, and a run that uses
them up is still in the loop.

## Main definitions

* `ensureFirewallWiring`, with the helpers it calls
* `chainRuleCount`, `exactJumpPositions`: what is read off a rule listing
-/

namespace Kidobo

open Foundation

/-- Stable enforcement chain name. -/
def kidoboChainName : String := "kidobo-input"

/-- Transient staging chain name. -/
def kidoboStagingChainName : String := "kidobo-input-stage"

/-- `XTABLES_LOCK_WAIT_SECS`. -/
def xtablesLockWaitSecs : String := "5"

/-- Firewall verdict used by the stable chain. -/
inductive ChainAction where
  | drop
  | reject
  deriving DecidableEq, Repr

/-- The rule target of an action. -/
def ChainAction.asTarget : ChainAction → String
  | drop => "DROP"
  | reject => "REJECT"

/-- Firewall command family. -/
inductive FirewallFamily where
  | ipv4
  | ipv6
  deriving DecidableEq, Repr

/-- The command of a family. -/
def FirewallFamily.binary : FirewallFamily → String
  | ipv4 => "iptables"
  | ipv6 => "ip6tables"

/-- Failure while inspecting, activating or normalizing firewall wiring. -/
inductive FirewallError where
  | commandExecution (source : CommandRunnerError)
  | commandFailed (command : String) (status : ProcessStatus) (stderr : String)
  | unexpectedInputWiring (family : FirewallFamily) (stablePositions stagingPositions : List ℕ)
  deriving DecidableEq, Repr

/-- A program of the firewall adapter. -/
abbrev FirewallProgram (α : Type) := CommandProgram FirewallError α

/-! ### Running commands -/

/-- `with_lock_wait`. -/
def withLockWait (args : List String) : List String := "-w" :: xtablesLockWaitSecs :: args

/-- Run one command, failing when it cannot be executed. -/
def runFirewall (binary : String) (args : List String) : FirewallProgram CommandResult := do
  match ← Program.perform ⟨binary, args⟩ with
  | .ok result => return result
  | .error source => throw (.commandExecution source)

/-- `run_checked`. -/
def runChecked (binary : String) (args : List String) : FirewallProgram CommandResult := do
  let waitedArgs := withLockWait args
  let result ← runFirewall binary waitedArgs
  if result.status.success then return result
  else throw (.commandFailed (displayCommand binary waitedArgs) result.status result.stderr)

/-- `is_missing_chain_result`. -/
def isMissingChainResult (result : CommandResult) : Bool :=
  result.status.code == some 1 &&
    containsText "no chain/target/match by that name".toList
      (result.stderr.toList.map Char.toLower)

/-- `is_ambiguous_chain_result`. -/
def isAmbiguousChainResult (result : CommandResult) (binary chainName : String) : Bool :=
  let linePrefix := binary ++ " v"
  let lineSuffix := "(nf_tables): chain `" ++ chainName ++
    "' in table `filter' is incompatible, use 'nft' tool."
  result.status.code == some 1 &&
    (lines result.stderr.toList).any fun line =>
      linePrefix.toList.isPrefixOf line && lineSuffix.toList.isSuffixOf line

/-- `run_checked_allow_missing_chain`. -/
def runCheckedAllowMissingChain (binary : String) (args : List String) : FirewallProgram Unit := do
  let waitedArgs := withLockWait args
  let result ← runFirewall binary waitedArgs
  if result.status.success || isMissingChainResult result then return ()
  else throw (.commandFailed (displayCommand binary waitedArgs) result.status result.stderr)

/-! ### Reading rule listings -/

/-- `chain_rule_count`. -/
def chainRuleCount (stdout chainName : String) : ℕ :=
  let linePrefix := "-A " ++ chainName ++ " "
  ((lines stdout.toList).filter fun line => linePrefix.toList.isPrefixOf line).length

/-- `exact_jump_positions`, one-based. -/
def exactJumpPositions (stdout chainName : String) : List ℕ :=
  let expected := "-A INPUT -j " ++ chainName
  ((lines stdout.toList).filter fun line => "-A INPUT ".toList.isPrefixOf line).zipIdx.filterMap
    fun (line, idx) => if trim line = expected.toList then some (idx + 1) else none

/-- A line of a full listing that declares the chain. -/
def declaresChain (chainName : String) (line : List Char) : Bool :=
  match splitWhitespace line with
  | kind :: name :: _ =>
    (kind == "-N".toList || kind == "-P".toList) && name == chainName.toList
  | _ => false

/-! ### Wiring -/

/-- `chain_exists`. -/
def chainExists (family : FirewallFamily) (chainName : String) : FirewallProgram Bool := do
  let binary := family.binary
  let args := withLockWait ["-S", chainName]
  let result ← runFirewall binary args
  let failure := FirewallError.commandFailed (displayCommand binary args) result.status
    result.stderr
  if result.status.success then return true
  else if isMissingChainResult result then return false
  else if isAmbiguousChainResult result binary chainName then
    -- only a successful full listing can establish absence
    let listing ← runChecked binary ["-S"]
    if (lines listing.stdout.toList).any (declaresChain chainName) then throw failure
    else return false
  else throw failure

/-- `ensure_chain_exists`. -/
def ensureChainExists (family : FirewallFamily) (chainName : String) : FirewallProgram Unit := do
  if ← chainExists family chainName then return ()
  else
    let _ ← runChecked family.binary ["-N", chainName]
    return ()

/-- The loop `for _ in 0..old_rule_count`. -/
def deleteFirstRules (binary chainName : String) : ℕ → FirewallProgram Unit
  | 0 => return ()
  | oldRuleCount + 1 => do
    let _ ← runChecked binary ["-D", chainName, "1"]
    deleteFirstRules binary chainName oldRuleCount

/-- `replace_chain_jump_fail_closed`. -/
def replaceChainJumpFailClosed (family : FirewallFamily) (chainName targetChain : String) :
    FirewallProgram Unit := do
  let binary := family.binary
  let current ← runChecked binary ["-S", chainName]
  let oldRuleCount := chainRuleCount current.stdout chainName
  let _ ← runChecked binary ["-A", chainName, "-j", targetChain]
  deleteFirstRules binary chainName oldRuleCount

/-- `replace_chain_rule_fail_closed`. -/
def replaceChainRuleFailClosed (family : FirewallFamily) (chainName setName target : String) :
    FirewallProgram Unit := do
  let binary := family.binary
  let current ← runChecked binary ["-S", chainName]
  let oldRuleCount := chainRuleCount current.stdout chainName
  let _ ← runChecked binary
    ["-A", chainName, "-m", "set", "--match-set", setName, "src", "-j", target]
  deleteFirstRules binary chainName oldRuleCount

/-- `remove_all_input_jumps_for_chain`, for at most `turns` turns of its loop. -/
def removeAllInputJumpsForChain (family : FirewallFamily) (chainName : String) :
    ℕ → FirewallProgram Unit
  | 0 => .spin
  | turns + 1 => do
    let binary := family.binary
    let input ← runChecked binary ["-S", "INPUT"]
    -- the listing decides; an embedded line of another rule cannot be told from a jump
    if (exactJumpPositions input.stdout chainName).isEmpty then return ()
    else
      let args := withLockWait ["-D", "INPUT", "-j", chainName]
      let result ← runFirewall binary args
      if result.status.success then removeAllInputJumpsForChain family chainName turns
      else throw (.commandFailed (displayCommand binary args) result.status result.stderr)

/-- `normalize_input_jump_fail_closed`. -/
def normalizeInputJumpFailClosed (turns : ℕ) (family : FirewallFamily) (chainName : String) :
    FirewallProgram Unit := do
  let binary := family.binary
  ensureChainExists family kidoboStagingChainName
  replaceChainJumpFailClosed family kidoboStagingChainName chainName
  -- from here on a jump of INPUT reaches the rules, first by the staging chain
  let _ ← runChecked binary ["-I", "INPUT", "1", "-j", kidoboStagingChainName]
  removeAllInputJumpsForChain family chainName turns
  let _ ← runChecked binary ["-I", "INPUT", "1", "-j", chainName]
  removeAllInputJumpsForChain family kidoboStagingChainName turns
  runCheckedAllowMissingChain binary ["-F", kidoboStagingChainName]
  runCheckedAllowMissingChain binary ["-X", kidoboStagingChainName]
  let finalInput ← runChecked binary ["-S", "INPUT"]
  let stablePositions := exactJumpPositions finalInput.stdout chainName
  let stagingPositions := exactJumpPositions finalInput.stdout kidoboStagingChainName
  if stablePositions ≠ [1] ∨ ¬stagingPositions.isEmpty then
    throw (.unexpectedInputWiring family stablePositions stagingPositions)
  else return ()

/-- `ensure_firewall_wiring`. -/
def ensureFirewallWiring (turns : ℕ) (family : FirewallFamily) (setName : String)
    (chainAction : ChainAction) : FirewallProgram Unit := do
  ensureChainExists family kidoboChainName
  replaceChainRuleFailClosed family kidoboChainName setName chainAction.asTarget
  normalizeInputJumpFailClosed turns family kidoboChainName

end Kidobo
