import Kidobo.Firewall.Backend
import Kidobo.Firewall.Guarded

/-!
# What the backend leaves alone

The backend inspects, creates and replaces sets and rewires the managed chains.
Whatever workflow it serves, whatever plan it is given and whatever fails, the
rules and chains of others are the same after every command.

## Main definitions

* `KeepsForeign`: firewall commands are commands of the wiring
* `hostStep`: only firewall commands work on the tables

## Main results

* `Backend.onCommands_keepsForeign`
-/

namespace Kidobo

open Foundation

section Issued

open Program

variable {ε α : Type}

/-- A command of the wiring, whatever it appends. -/
def Wiring (line : CommandLine) : Prop := WiringCommand (fun _ => True) line.operation

/-- The firewall commands are commands of the wiring. -/
def KeepsForeign : HostCall → Prop
  | .firewall line => Wiring line
  | _ => True

theorem issues_onFirewall {program : FirewallProgram α} (issues : program.Issues Wiring) :
    (onFirewall program).Issues KeepsForeign :=
  Issues.embed issues

theorem issues_onIpset (program : Program (IpsetOp CanonicalCidr) IpsetOp.Result ε α) :
    (onIpset program).Issues KeepsForeign :=
  Issues.embed (issues_of_forall (fun _ => trivial) program)

theorem issues_wiring {binary : String} {program : FirewallProgram α}
    (issues : program.Issues (WiringLine (fun _ => True) binary)) : program.Issues Wiring :=
  issues.mono fun _ wiring => wiring.2

theorem issues_artifactsForFamilies (enableIpv6 : Bool) :
    (ensureFirewallArtifactsForFamilies enableIpv6).Issues Wiring := by
  have chain (family : FirewallFamily) : (ensureChainExists family kidoboChainName).Issues Wiring :=
    issues_wiring (issues_ensureChainExists (Or.inl rfl))
  refine (chain .ipv4).bind fun _ => ?_
  split_ifs
  · exact chain .ipv6
  · trivial

theorem issues_wiringForFamilies (turns : ℕ) (setNameV4 setNameV6 : String) (enableIpv6 : Bool)
    (action : ChainAction) :
    (ensureFirewallWiringForFamilies turns setNameV4 setNameV6 enableIpv6 action).Issues Wiring := by
  have wiring (family : FirewallFamily) (setName : String) :
      (ensureFirewallWiring turns family setName action).Issues Wiring :=
    issues_wiring (issues_ensureFirewallWiring turns trivial trivial)
  refine (wiring .ipv4 setNameV4).bind fun _ => ?_
  split_ifs
  · exact wiring .ipv6 setNameV6
  · trivial

end Issued

/-! ### The operations of the backend -/

namespace Backend

open Program

theorem issues_ensureArtifacts (plan : EnforcementPlan) :
    (ensureArtifacts plan).Issues KeepsForeign := by
  have prepared (spec : ManagedSetSpec) : (prepareSet spec).Issues KeepsForeign :=
    (issues_onIpset _).mapError
  have chains : ((onFirewall (ensureFirewallArtifactsForFamilies plan.enableIpv6)).mapError
      mapFirewallError).Issues KeepsForeign :=
    (issues_onFirewall (issues_artifactsForFamilies plan.enableIpv6)).mapError
  refine (prepared plan.ipv4).bind fun _ => ?_
  split_ifs
  · exact (prepared plan.ipv6).bind fun _ => chains
  · exact chains

variable (backend : Backend)

theorem issues_cleanupDisabledIpv6 (plan : EnforcementPlan) :
    (backend.cleanupDisabledIpv6 plan).Issues KeepsForeign := by
  have cleaned : (onFirewall (cleanupFirewallWiring backend.turns .ipv6)).Issues KeepsForeign :=
    issues_onFirewall (issues_wiring (issues_cleanupFirewallWiring backend.turns .ipv6))
  refine cleaned.attempt.bind fun outcome => ?_
  dsimp only
  -- an overlong name, the name of the other set, and a set to destroy
  split_ifs
  · trivial
  · trivial
  · exact (issues_perform trivial).bind fun _ => trivial

/-- No operation of the port is carried out with a firewall command that is none of
the wiring. -/
theorem issues_carryOut (op : PortOp) : (backend.carryOut op).Issues KeepsForeign := by
  -- the other calls stay calls of their own port
  cases op with
  | ensureArtifacts plan => exact (issues_ensureArtifacts plan).attempt
  | replaceSet spec entries => exact (issues_onIpset _).mapError.attempt
  | activate plan => exact (issues_onFirewall (issues_wiringForFamilies ..)).mapError.attempt
  | cleanupDisabledIpv6 plan => exact backend.issues_cleanupDisabledIpv6 plan
  | _ => exact issues_perform trivial

end Backend

/-! ### The tables -/

/-- Firewall commands work on the tables, and may fail; no other call touches them,
whatever it answers. -/
def hostStep : Step HostCall HostCall.Result Tables := fun before call result after =>
  match call, result with
  | .firewall line, response => statefulStep before line response after
  | _, _ => after = before

/-- The rules and chains of others are the same in every table. -/
def AllForeign (before after : Tables) : Prop :=
  ∀ binary, SameForeign (before binary) (after binary)

/-- Whatever a workflow does through the backend, and whatever fails, every command
leaves alone the rules and chains of others. -/
theorem Backend.onCommands_keepsForeign {α : Type} (backend : Backend) (workflow : Workflow α)
    (tables : Tables) :
    wp hostStep (fun before _ _ after => AllForeign before after)
      (fun _ last => AllForeign tables last) (fun _ last => AllForeign tables last)
      (backend.onCommands workflow) tables := by
  have reflexive (tables : Tables) : AllForeign tables tables := fun _ => .refl _
  have transitive {first second third : Tables} (front : AllForeign first second)
      (back : AllForeign second third) : AllForeign first third :=
    fun binary => (front binary).trans (back binary)
  have issues : (backend.onCommands workflow).Issues KeepsForeign :=
    (Program.issues_of_forall (fun _ => trivial) workflow).expand fun op _ =>
      backend.issues_carryOut op
  refine wp_related_of_issues reflexive transitive issues ?_ tables
  intro before call result after keeps stepped
  -- only a firewall command can touch a table, and it is one of the wiring
  cases call with
  | firewall line => exact sameForeign_step keeps stepped
  | port op =>
    obtain rfl : after = before := stepped
    exact reflexive after
  | ipset op =>
    obtain rfl : after = before := stepped
    exact reflexive after

end Kidobo
