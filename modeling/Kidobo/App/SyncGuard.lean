import Kidobo.App.SyncOrder
import Kidobo.Firewall.BackendContract
import Kidobo.Firewall.PacketFilter

/-!
# No gap while a sync runs

A sync is carried out by the command backend. While the configuration names the
IPv4 set that is enforced already, every command keeps it enforced: nothing that
prepares, replaces, activates or cleans up opens a gap, wherever the run stops.

## Main definitions

* `namedHost`: the tables, with configurations that name this set
* `KeepsGuard`: a program after whose every command the set is still guarded

## Main results

* `keepsGuard_carryOut`: every call of the enforcement port keeps the guard
* `sync_blocks`: a sync opens no gap
-/

namespace Kidobo

open Foundation

/-- Loaded configurations name this IPv4 set. -/
def NamedAnswer (setName : String) : (op : PortOp) → op.Result → Prop
  | .loadConfig _, .ok config => (EnforcementPlan.fromConfig config).ipv4.setName = setName
  | _, _ => True

/-- The ports, as far as their configurations name the set. -/
def namedPorts (setName : String) : Step PortOp PortOp.Result Progress :=
  fun before op result after => anyPorts before op result after ∧ NamedAnswer setName op result

/-- The tables behind the backend, with configurations that name the set. -/
def namedHost (setName : String) : Step HostCall HostCall.Result Tables :=
  fun before call result after =>
    match call, result with
    | .firewall line, response => statefulStep before line response after
    | .port op, result => after = before ∧ NamedAnswer setName op result
    | .ipset _, _ => after = before

/-- The IPv4 table. -/
def ipv4Table (tables : Tables) : FirewallTable := tables FirewallFamily.ipv4.binary

section Guard

variable {setName : String} {Op : Type} {Res : Op → Type} {ε ε' α β : Type}

/-- Every operation keeps the set guarded, and the listings stay plain. -/
def KeepsGuard (setName : String) (step : Step Op Res Tables) (program : Program Op Res ε α) :
    Prop :=
  ∀ tables, PlainListings (ipv4Table tables) →
    wp step (fun before _ _ after => Guarded setName (ipv4Table before) →
        Guarded setName (ipv4Table after))
      (fun _ last => PlainListings (ipv4Table last)) (fun _ last => PlainListings (ipv4Table last))
      program tables

variable {step : Step Op Res Tables}

theorem KeepsGuard.ret (value : α) :
    KeepsGuard setName step (.ret value : Program Op Res ε α) := fun _ plain => plain

theorem KeepsGuard.bind {program : Program Op Res ε β} {next : β → Program Op Res ε α}
    (first : KeepsGuard setName step program)
    (second : ∀ value, KeepsGuard setName step (next value)) :
    KeepsGuard setName step (program >>= next) := by
  intro tables plain
  rw [wp_bind]
  exact wp_mono (first tables plain) (fun value last still => second value last still)
    fun _ _ still => still

theorem KeepsGuard.attempt {program : Program Op Res ε α}
    (keeps : KeepsGuard setName step program) :
    KeepsGuard setName step (program.attempt : Program Op Res ε' (Except ε α)) := by
  intro tables plain
  rw [wp_attempt]
  exact keeps tables plain

theorem KeepsGuard.mapError {translate : ε → ε'} {program : Program Op Res ε α}
    (keeps : KeepsGuard setName step program) :
    KeepsGuard setName step (program.mapError translate) := by
  intro tables plain
  rw [wp_mapError]
  exact keeps tables plain

/-- A program that leaves the IPv4 table alone keeps the guard. -/
theorem keepsGuard_of_issues {allowed : Op → Prop} {program : Program Op Res ε α}
    (issues : program.Issues allowed)
    (leaves : ∀ before op result after, allowed op → step before op result after →
      ipv4Table after = ipv4Table before) : KeepsGuard setName step program := by
  intro tables plain
  let same : Tables → Tables → Prop := fun before after => ipv4Table after = ipv4Table before
  have reflexive : ∀ tables, same tables tables := fun _ => rfl
  have transitive : ∀ {first second third}, same first second → same second third →
      same first third := fun front back => back.trans front
  have framed := wp_related_of_issues reflexive transitive issues leaves tables
  refine wp_mono (wp_weaken framed ?_) ?_ ?_
  · intro before _ _ after unchanged guarded
    exact unchanged.symm ▸ guarded
  · intro _ last unchanged
    exact unchanged.symm ▸ plain
  · intro _ last unchanged
    exact unchanged.symm ▸ plain

/-! ### Firewall programs -/

/-- An IPv4 program of the wiring keeps the guard, once its contract says so. -/
theorem keepsGuard_ipv4 {returns : FirewallTable → α → FirewallTable → Prop}
    {program : FirewallProgram α}
    (keeps : ∀ table, PlainListings table →
      Keeping (Guarded setName) FirewallFamily.ipv4.binary (returns table) program table)
    (issues : program.Issues (WiringLine SingleRule FirewallFamily.ipv4.binary)) :
    KeepsGuard setName statefulStep program := by
  intro tables plain
  have wiring := issues.mono fun _ wiring => wiring.2
  have both := wp_and (keeps _ plain tables rfl) (wp_tablesFrame wiring tables)
  refine wp_mono (wp_weaken both fun _ _ _ _ kept => kept.1) ?_ ?_
  · exact fun _ last ended => ended.2.plain _ plain
  · exact fun _ last ended => ended.2.plain _ plain

/-- An IPv6 program works on the other table. -/
theorem keepsGuard_ipv6 {fits : List String → Prop} {program : FirewallProgram α}
    (issues : program.Issues (WiringLine fits FirewallFamily.ipv6.binary)) :
    KeepsGuard setName statefulStep program := by
  refine keepsGuard_of_issues issues ?_
  -- a command that works updates the table of its own binary only
  rintro before line response after ⟨command, -⟩ (⟨-, rfl⟩ | ⟨-, rfl⟩)
  · have other : FirewallFamily.ipv4.binary ≠ line.command := by
      rw [command]
      decide
    exact Function.update_of_ne other ..
  · rfl

theorem keepsGuard_artifactsForFamilies (enableIpv6 : Bool) :
    KeepsGuard setName statefulStep (ensureFirewallArtifactsForFamilies enableIpv6) := by
  have stable : Managed kidoboChainName := Or.inl rfl
  have created (table : FirewallTable) (_ : PlainListings table) :
      Keeping (Guarded setName) FirewallFamily.ipv4.binary
        (fun _ after => after = table.newChain kidoboChainName)
        (ensureChainExists .ipv4 kidoboChainName) table :=
    keeping_ensureChainExists kidoboChainName_ne_input Guarded.newChain
  refine (keepsGuard_ipv4 created (issues_ensureChainExists stable)).bind fun _ => ?_
  split_ifs
  · have issues : (ensureChainExists .ipv6 kidoboChainName).Issues
        (WiringLine SingleRule FirewallFamily.ipv6.binary) := issues_ensureChainExists stable
    exact keepsGuard_ipv6 issues
  · exact .ret ()

theorem keepsGuard_wiringForFamilies (turns : ℕ) (single : SingleLine setName) (setNameV6 : String)
    (enableIpv6 : Bool) (action : ChainAction) :
    KeepsGuard setName statefulStep
      (ensureFirewallWiringForFamilies turns setName setNameV6 enableIpv6 action) := by
  have singleJump : SingleLine (" ".intercalate ["-j", kidoboChainName]) := by decide
  have wired (table : FirewallTable) (plain : PlainListings table) :
      Keeping (Guarded setName) FirewallFamily.ipv4.binary
        (fun _ after => WiredWith (setMatchRule setName action) after)
        (ensureFirewallWiring turns .ipv4 setName action) table :=
    keeping_ensureFirewallWiring turns action (plain.managed _ (Or.inl rfl))
      (plain.managed _ (Or.inr rfl))
  have issued : (ensureFirewallWiring turns .ipv4 setName action).Issues
      (WiringLine SingleRule FirewallFamily.ipv4.binary) :=
    issues_ensureFirewallWiring turns (singleLine_setMatchRule single) singleJump
  refine (keepsGuard_ipv4 wired issued).bind fun _ => ?_
  split_ifs
  · have issues : (ensureFirewallWiring turns .ipv6 setNameV6 action).Issues
        (WiringLine (fun _ => True) FirewallFamily.ipv6.binary) :=
      issues_ensureFirewallWiring turns trivial trivial
    exact keepsGuard_ipv6 issues
  · exact .ret ()

/-! ### Calls of the enforcement port -/

theorem keepsGuard_onFirewall {program : FirewallProgram α}
    (keeps : KeepsGuard setName statefulStep program) :
    KeepsGuard setName (namedHost setName) (onFirewall program) := by
  intro tables plain
  -- the tables are all there is, and firewall commands step on them as before
  have stepped : ∀ (before : Tables) (line : CommandLine) (response : CommandResponse)
      (after : Tables), True → namedHost setName before (.firewall line) response after →
      statefulStep (id before) line response (id after) ∧ True :=
    fun _ _ _ _ _ stepped => ⟨stepped, trivial⟩
  have lifted := @wp_component _ _ _ HostCall.Result _ _ _ _ _ _ _ _ (namedHost setName)
    (fun before _ _ after => Guarded setName (ipv4Table before) →
      Guarded setName (ipv4Table after))
    .firewall (fun _ response => response) id (fun _ => True) stepped
    (fun _ _ _ _ _ _ kept => kept) _ _ trivial (keeps tables plain)
  exact wp_mono lifted (fun _ _ ended => ended.1) fun _ _ ended => ended.1

theorem keepsGuard_onIpset (program : Program (IpsetOp CanonicalCidr) IpsetOp.Result ε α) :
    KeepsGuard setName (namedHost setName) (onIpset program) := by
  have issues : (onIpset program).Issues fun call => ∃ op, call = .ipset op :=
    Program.Issues.embed (Program.issues_of_forall (fun op => ⟨op, rfl⟩) program)
  refine keepsGuard_of_issues issues ?_
  rintro before _ result after ⟨op, rfl⟩ unchanged
  exact congrArg ipv4Table unchanged

theorem keepsGuard_perform {call : HostCall}
    (leaves : ∀ before result after, namedHost setName before call result after →
      ipv4Table after = ipv4Table before) :
    KeepsGuard setName (namedHost setName)
      (Program.perform call : BackendProgram ε (HostCall.Result call)) := by
  have issues : (Program.perform call : BackendProgram ε (HostCall.Result call)).Issues (· = call) :=
    Program.issues_perform rfl
  refine keepsGuard_of_issues issues ?_
  rintro before _ result after rfl stepped
  exact leaves before result after stepped

namespace Backend

variable (backend : Backend)

theorem keepsGuard_ensureArtifacts (plan : EnforcementPlan) :
    KeepsGuard setName (namedHost setName) (ensureArtifacts plan) := by
  have prepared (spec : ManagedSetSpec) :
      KeepsGuard setName (namedHost setName) (prepareSet spec) :=
    (keepsGuard_onIpset _).mapError
  have chains : KeepsGuard setName (namedHost setName)
      ((onFirewall (ensureFirewallArtifactsForFamilies plan.enableIpv6)).mapError
        mapFirewallError) :=
    (keepsGuard_onFirewall (keepsGuard_artifactsForFamilies plan.enableIpv6)).mapError
  refine (prepared plan.ipv4).bind fun _ => ?_
  split_ifs
  · exact (prepared plan.ipv6).bind fun _ => chains
  · exact chains

theorem keepsGuard_cleanupDisabledIpv6 (plan : EnforcementPlan) :
    KeepsGuard setName (namedHost setName) (backend.cleanupDisabledIpv6 plan) := by
  have issues : (cleanupFirewallWiring backend.turns .ipv6).Issues
      (WiringLine SingleRule FirewallFamily.ipv6.binary) :=
    issues_cleanupFirewallWiring backend.turns .ipv6
  refine (keepsGuard_onFirewall (keepsGuard_ipv6 issues)).attempt.bind fun outcome => ?_
  dsimp only
  split_ifs
  · exact .ret _
  · exact .ret _
  · refine (keepsGuard_perform fun before _ after unchanged => ?_).bind fun _ => .ret _
    exact congrArg ipv4Table unchanged

/-- The wiring is activated for the set. -/
def NamedCall (setName : String) : PortOp → Prop
  | .activate plan => plan.ipv4.setName = setName
  | _ => True

/-- Every call of a port keeps the guard, as long as activations name the set. -/
theorem keepsGuard_carryOut (single : SingleLine setName) {op : PortOp}
    (named : NamedCall setName op) {tables : Tables} (plain : PlainListings (ipv4Table tables)) :
    wp (namedHost setName)
      (fun before _ _ after => Guarded setName (ipv4Table before) →
        Guarded setName (ipv4Table after))
      (fun result after => NamedAnswer setName op result ∧ PlainListings (ipv4Table after))
      (fun impossible _ => impossible.elim) (backend.carryOut op) tables := by
  cases op with
  | ensureArtifacts plan =>
    exact wp_mono ((keepsGuard_ensureArtifacts plan).attempt tables plain)
      (fun _ _ still => ⟨trivial, still⟩) fun impossible _ _ => impossible.elim
  | replaceSet spec entries =>
    exact wp_mono ((keepsGuard_onIpset _).mapError.attempt tables plain)
      (fun _ _ still => ⟨trivial, still⟩) fun impossible _ _ => impossible.elim
  | activate plan =>
    obtain rfl : plan.ipv4.setName = setName := named
    have wired := keepsGuard_wiringForFamilies backend.turns single plan.ipv6.setName
      plan.enableIpv6 (toChainAction plan.chainAction)
    exact wp_mono ((keepsGuard_onFirewall wired).mapError.attempt tables plain)
      (fun _ _ still => ⟨trivial, still⟩) fun impossible _ _ => impossible.elim
  | cleanupDisabledIpv6 plan =>
    exact wp_mono (backend.keepsGuard_cleanupDisabledIpv6 plan tables plain)
      (fun _ _ still => ⟨trivial, still⟩) fun impossible _ _ => impossible.elim
  | _ =>
    rintro response after ⟨rfl, answered⟩
    exact ⟨id, answered, plain⟩

end Backend

end Guard

/-! ### The workflow -/

section Workflow

variable {setName : String}

/-- Some answer of every port names the set or no configuration. -/
theorem responsive_namedPorts (setName : String) : Responsive (namedPorts setName) := by
  intro before op
  cases op with
  | loadConfig path => exact ⟨.error (.firewall ""), _, rfl, trivial⟩
  | _ => exact ⟨calmPorts before _, _, rfl, trivial⟩

/-- What a port answers keeps the configuration named. -/
theorem observe_named {progress : Progress} {op : PortOp} {result : op.Result}
    (answered : NamedAnswer setName op result)
    (named : ∀ config, progress.config = some config →
      (EnforcementPlan.fromConfig config).ipv4.setName = setName) :
    ∀ config, (progress.observe op result).config = some config →
      (EnforcementPlan.fromConfig config).ipv4.setName = setName := by
  cases op with
  | loadConfig path =>
    cases result with
    | ok loaded =>
      intro config same
      obtain rfl := Option.some.inj same
      exact answered
    | error error => exact named
  | isCancelled => cases result <;> exact named
  | event event => cases event <;> exact named
  | _ => exact named

/-- Sync activates the plan of the configuration that was read. -/
theorem wp_execute_named (request : PathResolutionInput) (registry : SyncSourceRegistry) :
    wp (namedPorts setName) (fun _ op _ _ => Backend.NamedCall setName op) (fun _ _ => True)
      (fun _ _ => True) (Sync.execute request registry) .start := by
  -- a permitted activation is for the plan of the configuration that was read
  let Named (progress : Progress) : Prop := ∀ config, progress.config = some config →
    (EnforcementPlan.fromConfig config).ipv4.setName = setName
  have ordered := wp_narrow (Sync.wp_execute request registry)
    fun _ _ _ _ (stepped : namedPorts setName _ _ _ _) => stepped.1
  have keeps : ∀ before op result after, namedPorts setName before op result after →
      Sync.permittedCalls registry before op result after → Named before → Named after := by
    rintro before op result _ ⟨rfl, answered⟩ _ named
    exact observe_named answered named
  have starts : Named .start := by
    intro config absent
    cases absent
  refine wp_mono (wp_weaken (wp_invariant ordered keeps starts) ?_) (fun _ _ _ => trivial)
    fun _ _ _ => trivial
  rintro before op result after ⟨permitted, named⟩
  cases op with
  | activate plan =>
    obtain ⟨-, effective, admitted, preflighted, -⟩ := permitted
    obtain ⟨config, present, rfl⟩ := Option.map_eq_some_iff.mp preflighted.configured
    exact named config present
  | _ => trivial

/-- Carried out by the backend, the workflow keeps the guard at every command. -/
theorem wp_onCommands_guarded (backend : Backend) (request : PathResolutionInput)
    (registry : SyncSourceRegistry) (single : SingleLine setName) {tables : Tables}
    (plain : PlainListings (ipv4Table tables)) :
    wp (namedHost setName)
      (fun before _ _ after => Guarded setName (ipv4Table before) →
        Guarded setName (ipv4Table after))
      (fun _ _ => True) (fun _ _ => True)
      (backend.onCommands (Sync.execute request registry)) tables := by
  have carried : ∀ (below : Tables) (above : Progress) (op : PortOp),
      PlainListings (ipv4Table below) → Backend.NamedCall setName op →
      wp (namedHost setName)
        (fun before _ _ after => Guarded setName (ipv4Table before) →
          Guarded setName (ipv4Table after))
        (fun result after => ∃ promised, namedPorts setName above op result promised ∧
          PlainListings (ipv4Table after))
        (fun impossible _ => impossible.elim) (backend.carryOut op) below := by
    intro below above op plain named
    refine wp_mono (backend.keepsGuard_carryOut single named plain) ?_
      fun impossible _ _ => impossible.elim
    rintro result after ⟨answered, still⟩
    exact ⟨above.observe op result, ⟨rfl, answered⟩, still⟩
  -- the progress of the workflow is what the tables below are seen with
  have expanded := wp_expand (responsive_namedPorts setName) carried plain
    (wp_execute_named request registry)
  exact wp_mono expanded (fun _ _ _ => trivial) fun _ _ _ => trivial

/-- A sync opens no gap. While the configuration names the guarded IPv4 set, its
sources are blocked after every command of every run, whatever fails and wherever
the run stops. -/
theorem sync_blocks {backend : Backend} {request : PathResolutionInput}
    {registry : SyncSourceRegistry} {tables last : Tables}
    {trace : List (Event HostCall HostCall.Result Tables)} {ending : Ending AppError Sync.SyncOutcome}
    (single : SingleLine setName) (plain : PlainListings (ipv4Table tables))
    (guarded : Guarded setName (ipv4Table tables))
    (runs : Runs (namedHost setName) (backend.onCommands (Sync.execute request registry)) tables
      trace last ending) :
    (∀ event ∈ trace, BlocksSet setName (ipv4Table event.after)) ∧
      BlocksSet setName (ipv4Table last) := by
  have kept := (runs.sound (wp_onCommands_guarded backend request registry single plain)).1
  -- a table stays guarded at every call, and a guarded table blocks the set
  obtain ⟨after, atEnd⟩ :=
    Runs.invariant (fun state : Tables => Guarded setName (ipv4Table state)) runs kept guarded
  have blocks {table : FirewallTable} (holds : Guarded setName table) : BlocksSet setName table :=
    fun _ _ _ _ inside => holds.blocks inside
  exact ⟨fun event member => blocks (after event member), blocks atEnd⟩

end Workflow

/-- A host on which everything works, with the sets in place. -/
def calmHost : Handler HostCall HostCall.Result Tables := fun tables call =>
  match call with
  | .firewall line => statefulHandler tables line
  | .port op => (calmPorts .start op, tables)
  | .ipset (.createNew _) => (.ok (), tables)
  | .ipset (.writeScript _ _) => (.ok (), tables)
  | .ipset (.removeFile _) => (.ok (), tables)
  -- every set exists with the type and family that are asked for
  | .ipset (.run line) =>
    (.ok ⟨.exited 0, if "kidobo-v6" ∈ line.args then "Type: hash:net\nHeader: family inet6\n"
      else "Type: hash:net\nHeader: family inet\n", ""⟩, tables)

theorem namedHost_calmHost (tables : Tables) (call : HostCall) :
    namedHost "kidobo" tables call (calmHost tables call).1 (calmHost tables call).2 := by
  cases call with
  | firewall line => exact statefulStep_handler tables line
  | port op =>
    refine ⟨rfl, ?_⟩
    cases op with
    | loadConfig path => exact rfl
    | _ => trivial
  | ipset op => cases op <;> exact rfl

/-- A sync of one source that activates the wiring: the set is rejected before and
dropped afterwards. -/
theorem sync_blocks_calm :
    ∃ trace last outcome,
      Runs (namedHost "kidobo")
        (Backend.onCommands ⟨4, id, fun attempt => toString attempt⟩
          (Sync.execute ⟨none, "/tmp", []⟩ Sync.oneSource))
        (enforcedTables .reject) trace last (.returned outcome) ∧
      (ipv4Table last).chains kidoboChainName = some [setMatchRule "kidobo" .drop] ∧
      (∀ event ∈ trace, BlocksSet "kidobo" (ipv4Table event.after)) ∧
      BlocksSet "kidobo" (ipv4Table last) := by
  have returned : returnsWith (fun _ last => decide ((ipv4Table last).chains kidoboChainName =
      some [setMatchRule "kidobo" .drop]))
      (exec calmHost (Backend.onCommands ⟨4, id, fun attempt => toString attempt⟩
        (Sync.execute ⟨none, "/tmp", []⟩ Sync.oneSource))
        (enforcedTables .reject)) = true := by decide +kernel
  obtain ⟨outcome, last, ended, activated⟩ := returnsWith_eq_true.mp returned
  obtain ⟨trace, runs⟩ := exists_runs_of_exec namedHost_calmHost ended
  have plain : PlainListings (ipv4Table (enforcedTables .reject)) :=
    plainListings_enforcedTables .reject
  exact ⟨trace, last, outcome, runs, of_decide_eq_true activated,
    sync_blocks (by decide) plain (guarded_enforcedTables .reject) runs⟩

end Kidobo
