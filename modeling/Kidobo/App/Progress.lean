import Kidobo.App.Ports

/-!
# Observing a workflow

A run of a workflow is summarised by what its port calls have done so far. Any
port may answer anything, so what is proved over this environment holds for
every behaviour of the ports.

## Main definitions

* `Progress`, `Progress.observe`, `anyPorts`: the summary and the environment
* `Reports`: a program that reports and then decides without asking any port

## Main results

* `wp_callPort`, `wp_propagate`, `ends_callPort`, `ends_propagate`, `ends_withGuard`
* `wp_of_reports`, `returned_of_reports`, `ends_of_reports`, `runs_of_reports`
-/

namespace Kidobo

open Foundation

/-! ### What has been done -/

/-- What the port calls of a run have done so far. -/
structure Progress where
  cancelled : Bool
  config : Option Config
  loads : List (SyncSourceDescriptor × Except AppError SyncSourceLoad)
  promotions : List (PendingCachePromotion × Bool)
  enforcementStarted : Bool
  replacements : List (ManagedSetSpec × List CanonicalCidr × Bool)
  activations : List Bool
  saved : Bool

namespace Progress

/-- Nothing done yet. -/
def start : Progress := ⟨false, none, [], [], false, [], [], false⟩

/-- Take note of one port call and its answer. The configuration is the last
one that was read. -/
def observe (progress : Progress) : (op : PortOp) → op.Result → Progress
  | .isCancelled, true => { progress with cancelled := true }
  | .loadConfig _, .ok config => { progress with config := some config }
  | .loadSource provider _, loaded =>
    { progress with loads := progress.loads ++ [(provider, loaded)] }
  | .promote promotion, outcome =>
    { progress with promotions := progress.promotions ++ [(promotion, outcome.isOk)] }
  | .event .enforcementStarted, _ => { progress with enforcementStarted := true }
  | .replaceSet spec entries, outcome =>
    { progress with replacements := progress.replacements ++ [(spec, entries, outcome.isOk)] }
  | .activate _, outcome =>
    { progress with activations := progress.activations ++ [outcome.isOk] }
  | .saveTemporaryBans _ _, _ => { progress with saved := true }
  | _, _ => progress

end Progress

/-- The environment in which every port may answer anything. -/
def anyPorts : Step PortOp PortOp.Result Progress :=
  fun before op result after => after = before.observe op result

/-- How the ports answer, as a function of what has been done. -/
abbrev Answers := Progress → (op : PortOp) → op.Result

/-- The environment of ports that answer in this way. -/
def answeringPorts (answer : Answers) : Handler PortOp PortOp.Result Progress :=
  fun progress op => (answer progress op, progress.observe op (answer progress op))

/-- Ports that all succeed, except that saving fails: every provider blocks
10.0.0.0/8, and one temporary ban has expired. -/
def calmPorts : Answers
  | _, .isCancelled => false
  | _, .resolvePaths _ _ => .ok ⟨none, "/etc/kidobo", "/etc/kidobo/config.toml", "/var/lib/kidobo",
      "/var/lib/kidobo/blocklist.txt", "/var/cache/kidobo", "/var/cache/kidobo/remote", "/run/lock"⟩
  | _, .loadConfig _ => .ok ⟨⟨"kidobo", "kidobo-v6", true, .drop, "hash:net", 1024, 10, 0⟩, ⟨[], 1⟩⟩
  | _, .acquireLock _ => .ok ()
  | _, .acquireExistingLock _ => .ok ()
  | _, .releaseLock => ()
  | _, .nowUnixSecs => .ok 100
  | _, .prepareRemoteCache _ => .ok ()
  | _, .loadTemporaryBans _ => .ok ⟨.empty, SortedMap.empty.insert 64500 50⟩
  | _, .saveTemporaryBans _ _ => .error (.temporaryBans "temporary-bans.toml" "disk full")
  | _, .loadSource _ _ =>
    .ok ⟨⟨[.v4 (Cidr.fromParts 0x0A000000#32 8 (by decide))], []⟩, none, [7], none, []⟩
  | _, .loadPreviewSource _ _ _ =>
    .ok ⟨⟨[.v4 (Cidr.fromParts 0x0A000000#32 8 (by decide))], []⟩, none, []⟩
  | _, .promote _ => .ok ()
  | _, .ensureArtifacts _ => .ok ()
  | _, .replaceSet _ _ => .ok ()
  | _, .activate _ => .ok ()
  | _, .cleanupDisabledIpv6 _ => []
  | _, .event _ => ()
  | _, .stageCompleted _ => ()
  | _, .notice _ => ()
  | _, .loadBlocklist _ => .ok ⟨[], false, false⟩
  | _, .appendEntries _ _ _ _ => .ok ()
  | _, .writeLines _ _ => .ok ()
  | _, .readTargetLines _ => .ok []
  | _, .loadPrefixes _ _ _ => .ok ⟨[], false⟩
  | _, .updateConfig _ _ _ => .ok ⟨[], []⟩
  | _, .deleteCache _ _ => .ok false
  | _, .readConfiguration _ => .ok none
  | _, .writeConfiguration _ _ _ => .ok ()

/-! ### Contracts of port calls -/

section Contracts

variable {α : Type} {guarantee : Step PortOp PortOp.Result Progress} {progress : Progress}
  {fails : AppError → Progress → Prop}

theorem wp_callPort {op : PortOp} {returns : op.Result → Progress → Prop} :
    wp anyPorts guarantee returns fails (callPort op) progress ↔
      ∀ result, guarantee progress op result (progress.observe op result) ∧
        returns result (progress.observe op result) := by
  constructor
  · exact fun holds result => holds result _ rfl
  · rintro holds result after rfl
    exact holds result

variable {answer : Answers}

theorem ends_callPort (op : PortOp) {returns : op.Result → Progress → Prop} :
    Ends (answeringPorts answer) returns fails (callPort op) progress ↔
      returns (answer progress op) (progress.observe op (answer progress op)) :=
  Iff.rfl

theorem ends_propagate {returns : α → Progress → Prop} {answered : Workflow (Except AppError α)} :
    Ends (answeringPorts answer) returns fails (propagate answered) progress ↔
      Ends (answeringPorts answer) (fun outcome => (Ending.ofExcept outcome).Meets returns fails)
        fails answered progress := by
  have decided : (fun outcome => Ends (answeringPorts answer) returns fails (.ofExcept outcome)) =
      fun outcome => (Ending.ofExcept outcome).Meets returns fails := by
    funext outcome last
    exact propext (ends_ofExcept outcome last)
  rw [propagate, ends_bind, decided]

/-- Without cancellation a check changes nothing. -/
theorem ends_checkCancelled {next : Unit → Workflow α} {returns : α → Progress → Prop}
    (uncancelled : answer progress .isCancelled = false)
    (continued : Ends (answeringPorts answer) returns fails (next ()) progress) :
    Ends (answeringPorts answer) returns fails (checkCancelled >>= next) progress := by
  rw [ends_bind, checkCancelled, ends_bind]
  refine (ends_callPort _).mpr ?_
  rw [uncancelled]
  exact continued

/-- The guard is dropped however the guarded part ends. -/
theorem ends_withGuard {acquire : Workflow Unit} {body : Workflow α}
    {returns : α → Progress → Prop}
    (guarded : Ends (answeringPorts answer)
      (fun _ => Ends (answeringPorts answer) returns fails body) fails acquire progress) :
    Ends (answeringPorts answer) returns fails (withGuard acquire body) progress := by
  rw [withGuard, ends_bind]
  refine guarded.mono ?_ fun _ _ => id
  intro _ held ended
  rw [ends_bind, ends_attempt]
  exact ended.mono (fun _ _ => id) (fun _ _ => id)

end Contracts

/-! ### Reporting programs -/

/-- The calls that only report: they ask for nothing and change nothing. -/
def PortOp.reports : PortOp → Bool
  | .event .enforcementStarted => false
  | .event _ => true
  | .stageCompleted _ => true
  | .notice _ => true
  | _ => false

theorem observe_of_reports {op : PortOp} (reports : op.reports = true) (result : op.Result)
    (progress : Progress) : progress.observe op result = progress := by
  cases op with
  | event event => cases event with
    | enforcementStarted => exact absurd reports (by decide)
    | _ => rfl
  | stageCompleted marker => rfl
  | notice notice => rfl
  | _ => exact absurd reports (by simp [PortOp.reports])

/-- The program issues reports only and ends with the given outcome. -/
def Reports {α : Type} (outcome : Except AppError α) : Workflow α → Prop
  | .ret value => outcome = .ok value
  | .fail error => outcome = .error error
  | .spin => False
  | .call op next => op.reports = true ∧ ∀ result, Reports outcome (next result)

section Reporting

variable {α β : Type}

theorem Reports.bind {outcome : Except AppError β} {value : α} {program : Workflow α}
    {next : α → Workflow β} (first : Reports (.ok value) program)
    (second : Reports outcome (next value)) : Reports outcome (program >>= next) := by
  induction program with
  | ret other =>
    obtain rfl : value = other := Except.ok.inj first
    exact second
  | fail error => cases first
  | spin => exact first
  | call op rest ih => exact ⟨first.1, fun result => ih result (first.2 result)⟩

theorem Reports.bind_error {error : AppError} {program : Workflow α} {next : α → Workflow β}
    (first : Reports (.error error) program) : Reports (.error error) (program >>= next) := by
  induction program with
  | ret other => cases first
  | fail other =>
    obtain rfl : error = other := Except.error.inj first
    rfl
  | spin => exact first
  | call op rest ih => exact ⟨first.1, fun result => ih result (first.2 result)⟩

/-- A reporting program keeps the state and ends with its outcome. -/
theorem wp_of_reports {outcome : Except AppError α} {program : Workflow α}
    (reports : Reports outcome program) {guarantee : Step PortOp PortOp.Result Progress}
    {returns : α → Progress → Prop} {fails : AppError → Progress → Prop} {progress : Progress}
    (allowed : ∀ op result, op.reports = true → guarantee progress op result progress)
    (ends : (Ending.ofExcept outcome).Meets returns fails progress) :
    wp anyPorts guarantee returns fails program progress := by
  induction program with
  | ret value =>
    obtain rfl : outcome = .ok value := reports
    exact ends
  | fail error =>
    obtain rfl : outcome = .error error := reports
    exact ends
  | spin => trivial
  | call op next ih =>
    intro result after stepped
    have same : after = progress := stepped.trans (observe_of_reports reports.1 result progress)
    rw [same]
    exact ⟨allowed op result reports.1, ih result (reports.2 result)⟩

/-- A reporting program that returns in whatever environment returns its outcome. -/
theorem returned_of_reports {State : Type} {step : Step PortOp PortOp.Result State}
    {outcome : Except AppError α} {program : Workflow α} (reports : Reports outcome program)
    {state last : State} {trace : List (Event PortOp PortOp.Result State)} {value : α}
    (runs : Runs step program state trace last (.returned value)) : outcome = .ok value := by
  induction program generalizing state trace with
  | ret other =>
    cases runs
    exact reports
  | fail error => cases runs
  | spin => cases runs
  | call op next ih =>
    cases runs with
    | call stepped rest => exact ih _ (reports.2 _) rest

/-- The one run of a reporting program keeps the state and ends with its outcome. -/
theorem ends_of_reports {outcome : Except AppError α} {program : Workflow α}
    (reports : Reports outcome program) {answer : Answers} {returns : α → Progress → Prop}
    {fails : AppError → Progress → Prop} {progress : Progress}
    (ends : (Ending.ofExcept outcome).Meets returns fails progress) :
    Ends (answeringPorts answer) returns fails program progress := by
  induction program with
  | ret value =>
    obtain rfl : outcome = .ok value := reports
    exact ends
  | fail error =>
    obtain rfl : outcome = .error error := reports
    exact ends
  | spin => exact reports.elim
  | call op next ih =>
    rw [Ends, answeringPorts, observe_of_reports reports.1]
    exact ih _ (reports.2 _)

theorem ends_reporting {value : α} {program : Workflow α} {answer : Answers}
    {returns : α → Progress → Prop} {fails : AppError → Progress → Prop} {progress : Progress}
    (reports : Reports (.ok value) program) (ended : returns value progress) :
    Ends (answeringPorts answer) returns fails program progress :=
  ends_of_reports reports ended

/-- Reporting first changes nothing for the rest. -/
theorem ends_reporting_bind {program : Workflow Unit} {next : Unit → Workflow α} {answer : Answers}
    {returns : α → Progress → Prop} {fails : AppError → Progress → Prop} {progress : Progress}
    (reports : Reports (.ok ()) program)
    (continued : Ends (answeringPorts answer) returns fails (next ()) progress) :
    Ends (answeringPorts answer) returns fails (program >>= next) progress :=
  (ends_bind _ _ _).mpr (ends_reporting reports continued)

/-- A reporting program has a run to its outcome. -/
theorem runs_of_reports {outcome : Except AppError α} {program : Workflow α}
    (reports : Reports outcome program) (progress : Progress) :
    ∃ trace, Runs anyPorts program progress trace progress (Ending.ofExcept outcome) := by
  induction program with
  | ret value =>
    obtain rfl : outcome = .ok value := reports
    exact ⟨[], Runs.ret value progress⟩
  | fail error =>
    obtain rfl : outcome = .error error := reports
    exact ⟨[], Runs.fail error progress⟩
  | spin => exact reports.elim
  | call op next ih =>
    obtain ⟨result⟩ : Nonempty op.Result := by
      cases op <;> first | exact ⟨()⟩ | exact absurd reports.1 (by simp [PortOp.reports])
    obtain ⟨trace, runs⟩ := ih result (reports.2 result)
    exact ⟨_, Runs.call (observe_of_reports reports.1 result progress).symm runs⟩

theorem reports_report (notice : Notice) : Reports (.ok ()) (report notice) := ⟨rfl, fun _ => rfl⟩

theorem reports_reportAll (notices : List Notice) : Reports (.ok ()) (reportAll notices) := by
  induction notices with
  | nil => rfl
  | cons notice rest ih => exact (reports_report notice).bind ih

theorem reports_event {event : SyncEvent} (quiet : (PortOp.event event).reports = true) :
    Reports (.ok ()) (callPort (.event event)) :=
  ⟨quiet, fun _ => rfl⟩

theorem reports_startStage (stage : SyncStage) : Reports (.ok ()) (startStage stage) :=
  reports_event rfl

theorem reports_completeStage (stage : SyncStage) : Reports (.ok ()) (completeStage stage) :=
  ⟨rfl, fun _ => ⟨rfl, fun _ => rfl⟩⟩

end Reporting

end Kidobo
