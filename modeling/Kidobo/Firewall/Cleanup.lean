import Kidobo.Firewall.Wiring
import Kidobo.Firewall.FailClosed

/-!
# Removing the firewall wiring

Cleanup removes the managed INPUT jumps and then flushes and deletes the
managed chains, staging before stable. Each of the six stages is attempted
whatever became of the stages before it, and the first failure is reported at
the end.

## Main definitions

* `cleanupFirewallWiring`, `cleanupStages`
* `JumpsTo`, `Leftover`, `Cleaned`: what cleanup starts from and what it leaves
* `Session`, `faultyHandler`: any set of commands may fail without effect
* `StagesRan`, `Refused`: how the stages ended and which answers failed them

## Main results

* `listable_of_exact`: when the managed chains are jumped to exactly, a listing
  shows the jumps, whatever the other rules are
* `cleanupFirewallWiring_completeAndFramed`
-/

namespace Kidobo

open Foundation

/-- `cleanup_firewall_wiring`. -/
def cleanupFirewallWiring (turns : ℕ) (family : FirewallFamily) : FirewallProgram Unit := do
  let stagingJumpResult ← (removeAllInputJumpsForChain family kidoboStagingChainName turns).attempt
  let stableJumpResult ← (removeAllInputJumpsForChain family kidoboChainName turns).attempt
  let stagingFlushResult ←
    (runCheckedAllowMissingChain family.binary ["-F", kidoboStagingChainName]).attempt
  let stagingDeleteResult ←
    (runCheckedAllowMissingChain family.binary ["-X", kidoboStagingChainName]).attempt
  let stableFlushResult ←
    (runCheckedAllowMissingChain family.binary ["-F", kidoboChainName]).attempt
  let stableDeleteResult ←
    (runCheckedAllowMissingChain family.binary ["-X", kidoboChainName]).attempt
  Program.ofExcept stagingJumpResult
  Program.ofExcept stableJumpResult
  Program.ofExcept stagingFlushResult
  Program.ofExcept stagingDeleteResult
  Program.ofExcept stableFlushResult
  Program.ofExcept stableDeleteResult

/-! ### What cleanup starts from -/

/-- A chain this adapter owns. -/
def Managed (chainName : String) : Prop :=
  chainName = kidoboChainName ∨ chainName = kidoboStagingChainName

instance (chainName : String) : Decidable (Managed chainName) := inferInstanceAs (Decidable (_ ∨ _))

/-- A rule that jumps or goes to a chain: the option and the name are words of it. -/
def JumpsTo (rule chainName : String) : Prop :=
  ∃ option ∈ ["-j", "--jump", "-g", "--goto"],
    [option.toList, chainName.toList] <:+: splitWhitespace rule.toList

instance (rule chainName : String) : Decidable (JumpsTo rule chainName) :=
  inferInstanceAs (Decidable (∃ option ∈ _, _))

/-- Every managed chain that INPUT jumps to exists, and the managed chains are
referenced by exact INPUT jumps and by jumps from the staging to the stable chain
only. -/
structure Leftover (table : FirewallTable) : Prop where
  targetsExist : ∀ rule ∈ table.inputRules, ∀ target, Managed target → JumpsTo rule target →
    (table.chains target).isSome
  exactJumps : ∀ rule ∈ table.inputRules, ∀ target, Managed target → JumpsTo rule target →
    rule = jumpTo target
  chainJumps : ∀ chainName rules, table.chains chainName = some rules → ∀ rule ∈ rules,
    ∀ target, Managed target → JumpsTo rule target →
      chainName = kidoboStagingChainName ∧ target = kidoboChainName

/-- The managed chains are gone with the jumps to them, and the rest is as before. -/
structure Cleaned (before after : FirewallTable) : Prop where
  noChain : ∀ chainName, Managed chainName → after.chains chainName = none
  noInputJump : ∀ rule ∈ after.inputRules, ∀ target, Managed target → ¬JumpsTo rule target
  noChainJump : ∀ chainName rules, after.chains chainName = some rules → ∀ rule ∈ rules,
    ∀ target, Managed target → ¬JumpsTo rule target
  inputRules : after.inputRules = before.inputRules.filter fun rule =>
    ¬(rule = jumpTo kidoboChainName ∨ rule = jumpTo kidoboStagingChainName)
  otherChains : ∀ chainName, ¬Managed chainName → after.chains chainName = before.chains chainName

/-! ### Listings of arbitrary rules -/

section Listings

variable {chainName : String} {rules : List String}

/-- No listed INPUT line is the jump exactly when no position is found. -/
theorem exactJumpPositions_isEmpty_iff (stdout : String) :
    (exactJumpPositions stdout chainName).isEmpty = true ↔
      ∀ line ∈ lines stdout.toList, "-A INPUT ".toList.isPrefixOf line = true →
        trim line ≠ ("-A INPUT -j " ++ chainName).toList := by
  rw [exactJumpPositions, List.isEmpty_iff, List.filterMap_eq_nil_iff]
  constructor
  · intro none line member isInput same
    obtain ⟨idx, bound, at_⟩ := List.getElem_of_mem (List.mem_filter.mpr ⟨member, isInput⟩)
    have located : (line, idx) ∈ ((lines stdout.toList).filter
        fun line => "-A INPUT ".toList.isPrefixOf line).zipIdx :=
      List.mk_mem_zipIdx_iff_getElem?.mpr (List.getElem?_eq_some_iff.mpr ⟨bound, at_⟩)
    simpa [same] using none _ located
  · rintro unequal ⟨line, idx⟩ member
    obtain ⟨listed, isInput⟩ := List.mem_filter.mp (List.fst_mem_of_mem_zipIdx member)
    exact if_neg (unequal line listed isInput)

/-- The words of a listing are those of its rules, each behind two words. -/
theorem exists_rule_of_mem_lines {line : List Char}
    (member : line ∈ lines (renderRules "INPUT" rules).toList) :
    ∃ rule ∈ rules, splitWhitespace line <:+: "-A".toList :: "INPUT".toList ::
      splitWhitespace rule.toList := by
  induction rules with
  | nil => simp [renderRules] at member
  | cons rule rules ih =>
    rw [toList_renderRules_cons, lines_append_lineFeed, List.mem_append] at member
    rcases member with ofRule | ofRest
    · refine ⟨rule, List.mem_cons_self, ?_⟩
      have words := splitWhitespace_infix_of_mem_lines ofRule
      rw [splitWhitespace_append_whitespace _ (by decide)] at words
      have split : splitWhitespace (ruleLine "INPUT" rule) =
          "-A".toList :: "INPUT".toList :: splitWhitespace rule.toList := by
        have behind := splitWhitespace_append_cons "-A INPUT".toList rule.toList
          (show isWhitespace ' ' = true by decide)
        rw [show splitWhitespace "-A INPUT".toList = ["-A".toList, "INPUT".toList] by decide]
          at behind
        exact behind
      rwa [split] at words
    · obtain ⟨other, inside, words⟩ := ih ofRest
      exact ⟨other, List.mem_cons_of_mem _ inside, words⟩

/-- A listed jump to a managed chain is a jump of some rule. -/
theorem exists_jumpsTo_of_listed (managed : Managed chainName) {line : List Char}
    (member : line ∈ lines (renderRules "INPUT" rules).toList)
    (isJump : trim line = ("-A INPUT -j " ++ chainName).toList) :
    ∃ rule ∈ rules, JumpsTo rule chainName := by
  obtain ⟨rule, inside, words⟩ := exists_rule_of_mem_lines member
  refine ⟨rule, inside, "-j", by simp, ?_⟩
  have lineWords : splitWhitespace line =
      ["-A".toList, "INPUT".toList, "-j".toList, chainName.toList] := by
    rw [← splitWhitespace_trim, isJump]
    rcases managed with rfl | rfl <;> decide
  have pair : ["-j".toList, chainName.toList] <:+: "-A".toList :: "INPUT".toList ::
      splitWhitespace rule.toList := by
    refine List.IsInfix.trans ?_ words
    rw [lineWords]
    exact ⟨["-A".toList, "INPUT".toList], [], rfl⟩
  rw [List.infix_cons_iff, List.infix_cons_iff] at pair
  rcases pair with first | second | later
  · exact absurd (List.cons_prefix_cons.mp first).1 (by decide)
  · exact absurd (List.cons_prefix_cons.mp second).1 (by decide)
  · exact later

/-- An exact jump is listed on a line of its own, whatever stands around it. -/
theorem jump_mem_lines (managed : Managed chainName) (inside : jumpTo chainName ∈ rules) :
    ("-A INPUT -j " ++ chainName).toList ∈ lines (renderRules "INPUT" rules).toList := by
  induction rules with
  | nil => cases inside
  | cons rule rules ih =>
    rw [toList_renderRules_cons, lines_append_lineFeed, List.mem_append]
    rcases List.mem_cons.mp inside with isFirst | later
    · left
      rw [← isFirst]
      rcases managed with rfl | rfl <;> decide
    · exact Or.inr (ih later)

theorem listable_of_exact (managed : Managed chainName)
    (exactly : ∀ rule ∈ rules, JumpsTo rule chainName → rule = jumpTo chainName) :
    Listable chainName rules := by
  intro left included
  rw [exactJumpPositions_isEmpty_iff]
  constructor
  · intro unequal inside
    refine unequal _ (jump_mem_lines managed inside) ?_ ?_
    · rcases managed with rfl | rfl <;> decide
    · rcases managed with rfl | rfl <;> decide
  · intro absent line member _ isJump
    obtain ⟨rule, inside, jumps⟩ := exists_jumpsTo_of_listed managed member isJump
    rw [exactly rule (included inside) jumps] at inside
    exact absent inside

end Listings

/-! ### Cleanup without failures -/

section Faultless

variable {binary : String} {table after : FirewallTable} {chainName : String}

theorem Leaves.attempt {program : FirewallProgram Unit} (leaves : Leaves binary program table () after) :
    Leaves binary (program.attempt : FirewallProgram (Except FirewallError Unit)) table (.ok ())
      after := by
  intro tables same
  have ran : exec statefulHandler program tables =
      (Ending.ofExcept (.ok ()), Function.update tables binary after) := leaves tables same
  exact exec_attempt ran

/-- A chain that is missing needs no flush and no deletion. -/
theorem leaves_allowMissing_of_missing {args : List String}
    (missing : applyStatefulOperation table args = (missingChain, table)) :
    Leaves binary (runCheckedAllowMissingChain binary args) table () table := by
  have ran := leaves_runFirewall binary table args
  rw [missing] at ran
  refine ran.bind ?_
  rw [if_pos (show (missingChain.status.success || isMissingChainResult missingChain) = true by
    decide)]
  exact Leaves.ret ()

/-- The rules of a chain are removed when it exists. -/
theorem leaves_flush (binary : String) (table : FirewallTable) (chainName : String) :
    Leaves binary (runCheckedAllowMissingChain binary ["-F", chainName]) table ()
      (table.setChain chainName ((table.chains chainName).map fun _ => [])) := by
  cases present : table.chains chainName with
  | none =>
    rw [FirewallTable.setChain_eq_self (by rw [present]; rfl)]
    exact leaves_allowMissing_of_missing (by simp [applyStatefulOperation, present])
  | some rules => exact leaves_runCheckedAllowMissingChain (apply_flush table chainName present)

/-- A flushed chain is deleted. -/
theorem leaves_delete (flushed : ∀ rules, table.chains chainName = some rules → rules = []) :
    Leaves binary (runCheckedAllowMissingChain binary ["-X", chainName]) table ()
      (table.setChain chainName none) := by
  cases present : table.chains chainName with
  | none =>
    rw [FirewallTable.setChain_eq_self present]
    exact leaves_allowMissing_of_missing (by simp [applyStatefulOperation, present])
  | some rules =>
    obtain rfl := flushed rules present
    exact leaves_runCheckedAllowMissingChain (apply_removeChain table chainName present)

/-- Flushing and deleting a chain removes it. -/
theorem leaves_removeChain {α : Type} {value : α}
    {next : Except FirewallError Unit → Except FirewallError Unit → FirewallProgram α}
    (rest : Leaves binary (next (.ok ()) (.ok ())) (table.setChain chainName none) value after) :
    Leaves binary
      (do
        let flushResult ← (runCheckedAllowMissingChain binary ["-F", chainName]).attempt
        let deleteResult ← (runCheckedAllowMissingChain binary ["-X", chainName]).attempt
        next flushResult deleteResult)
      table value after := by
  refine (leaves_flush binary table chainName).attempt.bind ?_
  have deleted := @leaves_delete binary
    (table.setChain chainName ((table.chains chainName).map fun _ => [])) chainName (by simp)
  rw [FirewallTable.setChain_setChain] at deleted
  exact deleted.attempt.bind rest

/-- The table cleanup leaves. -/
def cleanedTable (table : FirewallTable) : FirewallTable :=
  ((table.setInput (withoutJumps kidoboChainName
    (withoutJumps kidoboStagingChainName table.inputRules))).setChain
      kidoboStagingChainName none).setChain kidoboChainName none

theorem leaves_cleanupFirewallWiring {family : FirewallFamily} {turns : ℕ}
    (leftover : Leftover table) (enough : table.inputRules.length < turns) :
    Leaves family.binary (cleanupFirewallWiring turns family) table () (cleanedTable table) := by
  have targetPresent : ∀ target, Managed target → jumpTo target ∈ table.inputRules →
      (table.chains target).isSome := by
    intro target managed inside
    refine leftover.targetsExist _ inside target managed ?_
    rcases managed with rfl | rfl <;> decide
  have staging : Managed kidoboStagingChainName := Or.inr rfl
  have stable : Managed kidoboChainName := Or.inl rfl
  refine (leaves_removeAllInputJumpsForChain (targetPresent _ staging)
    (listable_of_exact staging fun rule inside => leftover.exactJumps rule inside _ staging)
    (Nat.lt_of_le_of_lt List.count_le_length enough)).attempt.bind ?_
  have fewer : (withoutJumps kidoboStagingChainName table.inputRules).count
      (jumpTo kidoboChainName) < turns :=
    Nat.lt_of_le_of_lt (Nat.le_trans List.count_le_length (List.length_filter_le _ _)) enough
  let unstaged := table.setInput (withoutJumps kidoboStagingChainName table.inputRules)
  have stableRemoved : Leaves family.binary
      (removeAllInputJumpsForChain family kidoboChainName turns) unstaged ()
      (unstaged.setInput (withoutJumps kidoboChainName unstaged.inputRules)) :=
    leaves_removeAllInputJumpsForChain
      (fun inside => targetPresent _ stable (mem_withoutJumps.mp inside).1)
      (listable_of_exact stable fun rule inside =>
        leftover.exactJumps rule (mem_withoutJumps.mp inside).1 _ stable) fewer
  refine stableRemoved.attempt.bind ?_
  exact leaves_removeChain (leaves_removeChain (Leaves.ret ()))

end Faultless

theorem cleaned_cleanedTable {table : FirewallTable} (leftover : Leftover table) :
    Cleaned table (cleanedTable table) := by
  have remaining : (cleanedTable table).inputRules = table.inputRules.filter fun rule =>
      ¬(rule = jumpTo kidoboChainName ∨ rule = jumpTo kidoboStagingChainName) := by
    change withoutJumps kidoboChainName (withoutJumps kidoboStagingChainName table.inputRules) = _
    rw [withoutJumps, withoutJumps, List.filter_filter]
    refine List.filter_congr fun rule _ => ?_
    simp [not_or]
  have untouched : ∀ chainName, ¬Managed chainName →
      (cleanedTable table).chains chainName = table.chains chainName := by
    intro chainName unmanaged
    obtain ⟨notStable, notStaging⟩ := not_or.mp unmanaged
    simp [cleanedTable, notStable, notStaging]
  have removed : ∀ chainName, Managed chainName → (cleanedTable table).chains chainName = none := by
    rintro chainName (rfl | rfl)
    · simp [cleanedTable]
    · simp [cleanedTable, kidoboStagingChainName_ne_kidoboChainName]
  refine ⟨removed, ?_, ?_, remaining, untouched⟩
  · intro rule inside target managed jumps
    rw [remaining, List.mem_filter, decide_eq_true_eq] at inside
    have same := leftover.exactJumps rule inside.1 target managed jumps
    rcases managed with rfl | rfl
    · exact inside.2 (Or.inl same)
    · exact inside.2 (Or.inr same)
  · intro chainName rules present rule inside target managed jumps
    by_cases isManaged : Managed chainName
    · rw [removed chainName isManaged] at present
      cases present
    · rw [untouched chainName isManaged] at present
      obtain ⟨isStaging, _⟩ :=
        leftover.chainJumps chainName rules present rule inside target managed jumps
      exact isManaged (Or.inr isStaging)

/-! ### Commands that fail -/

/-- A command and what was answered. -/
abbrev CommandAnswer := CommandLine × CommandResponse

/-- A failure that a command may be answered with instead of taking effect. -/
structure Fault where
  response : CommandResponse
  unsuccessful : Unsuccessful response

/-- Which commands fail, depending on all commands and answers before them. -/
abbrev Faults := List CommandAnswer → CommandLine → Option Fault

/-- The tables and the commands answered so far. -/
structure Session where
  tables : Tables
  answered : List CommandAnswer

/-- The commands chosen to fail do so without effect, the others work. -/
def faultyHandler (faults : Faults) : Handler CommandLine (fun _ => CommandResponse) Session :=
  fun session line =>
    match faults session.answered line with
    | some fault =>
      (fault.response, ⟨session.tables, session.answered ++ [(line, fault.response)]⟩)
    | none =>
      let (response, tables) := statefulHandler session.tables line
      (response, ⟨tables, session.answered ++ [(line, response)]⟩)

/-- An answer that makes its stage fail: no success, and no missing chain in
answer to a flush or a deletion of a chain. -/
def Refused (answer : CommandAnswer) : Prop :=
  Unsuccessful answer.2 ∧ ¬∃ result, answer.2 = .ok result ∧ isMissingChainResult result = true ∧
    answer.1.operation.head? ∈ [some "-F", some "-X"]

/-- Rules of INPUT are removed at most, and what concerns no managed chain is
as before. -/
structure Unrelated (before after : FirewallTable) : Prop where
  removed : after.inputRules.Sublist before.inputRules
  inputRules : (after.inputRules.filter fun rule =>
      ¬(rule = jumpTo kidoboChainName ∨ rule = jumpTo kidoboStagingChainName)) =
    before.inputRules.filter fun rule =>
      ¬(rule = jumpTo kidoboChainName ∨ rule = jumpTo kidoboStagingChainName)
  otherChains : ∀ chainName, ¬Managed chainName → after.chains chainName = before.chains chainName

/-- The same for the table of one binary, where the others are not touched. -/
structure KeepsUnrelated (binary : String) (before after : Tables) : Prop where
  table : Unrelated (before binary) (after binary)
  otherTables : ∀ other, other ≠ binary → after other = before other

theorem Unrelated.refl (table : FirewallTable) : Unrelated table table :=
  ⟨List.Sublist.refl _, rfl, fun _ _ => rfl⟩

theorem Unrelated.trans {first second third : FirewallTable} (front : Unrelated first second)
    (back : Unrelated second third) : Unrelated first third :=
  ⟨back.removed.trans front.removed, back.inputRules.trans front.inputRules,
    fun name other => (back.otherChains name other).trans (front.otherChains name other)⟩

theorem KeepsUnrelated.trans {binary : String} {first second third : Tables}
    (front : KeepsUnrelated binary first second) (back : KeepsUnrelated binary second third) :
    KeepsUnrelated binary first third :=
  ⟨front.table.trans back.table,
    fun other different => (back.otherTables other different).trans
      (front.otherTables other different)⟩

/-- The commands of cleanup. -/
inductive CleanupCommand : List String → Prop where
  | list : CleanupCommand ["-S", "INPUT"]
  | deleteJump {chainName : String} (managed : Managed chainName) :
      CleanupCommand ["-D", "INPUT", "-j", chainName]
  | flush {chainName : String} (managed : Managed chainName) : CleanupCommand ["-F", chainName]
  | deleteChain {chainName : String} (managed : Managed chainName) :
      CleanupCommand ["-X", chainName]

theorem unrelated_setChain (table : FirewallTable) {chainName : String}
    (managed : Managed chainName) (rules : Option (List String)) :
    Unrelated table (table.setChain chainName rules) := by
  refine ⟨List.Sublist.refl _, rfl, fun other unmanaged => ?_⟩
  refine FirewallTable.chains_setChain_of_ne table ?_ rules
  rintro rfl
  exact unmanaged managed

theorem unrelated_eraseJump (table : FirewallTable) {chainName : String}
    (managed : Managed chainName) :
    Unrelated table (table.setInput (table.inputRules.erase (jumpTo chainName))) := by
  refine ⟨List.erase_sublist, filter_erase_of_dropped ?_ _, fun _ _ => rfl⟩
  rcases managed with rfl | rfl <;> simp

/-- A command of cleanup does not touch what is unrelated. -/
theorem unrelated_apply (table : FirewallTable) {operation : List String}
    (command : CleanupCommand operation) :
    Unrelated table (applyStatefulOperation table operation).2 := by
  cases command with
  | list => exact .refl table
  | deleteJump managed =>
    rw [apply_deleteJump]
    split_ifs
    · exact .refl table
    · exact unrelated_eraseJump table managed
    · exact .refl table
  | @flush chainName managed =>
    cases present : table.chains chainName with
    | none => simpa [applyStatefulOperation, present] using Unrelated.refl table
    | some rules =>
      rw [apply_flush table chainName present]
      exact unrelated_setChain table managed _
  | @deleteChain chainName managed =>
    cases present : table.chains chainName with
    | none => simpa [applyStatefulOperation, present] using Unrelated.refl table
    | some rules =>
      cases rules with
      | nil =>
        rw [apply_removeChain table chainName present]
        exact unrelated_setChain table managed _
      | cons rule rules => simpa [applyStatefulOperation, present] using Unrelated.refl table

section Faulty

variable {faults : Faults} {session : Session} {binary : String} {operation : List String}

/-- The command line of an operation. -/
abbrev waited (binary : String) (operation : List String) : CommandLine :=
  ⟨binary, withLockWait operation⟩

/-- The answer is recorded. -/
theorem answered_faulty (line : CommandLine) :
    (faultyHandler faults session line).2.answered =
      session.answered ++ [(line, (faultyHandler faults session line).1)] := by
  unfold faultyHandler
  cases faults session.answered line <;> rfl

/-- A command that does not fail works on the table of its binary. -/
theorem faulty_eq_or :
    (Unsuccessful (faultyHandler faults session (waited binary operation)).1 ∧
      (faultyHandler faults session (waited binary operation)).2.tables = session.tables) ∨
    ((faultyHandler faults session (waited binary operation)).1 =
        .ok (applyStatefulOperation (session.tables binary) operation).1 ∧
      (faultyHandler faults session (waited binary operation)).2.tables =
        Function.update session.tables binary
          (applyStatefulOperation (session.tables binary) operation).2) := by
  unfold faultyHandler
  cases chosen : faults session.answered (waited binary operation) with
  | some fault => exact Or.inl ⟨fault.unsuccessful, rfl⟩
  | none => exact Or.inr ⟨rfl, rfl⟩

theorem keepsUnrelated_faulty (command : CleanupCommand operation) :
    KeepsUnrelated binary session.tables
      (faultyHandler faults session (waited binary operation)).2.tables := by
  rcases @faulty_eq_or faults session binary operation with ⟨_, same⟩ | ⟨_, changed⟩
  · rw [same]
    exact ⟨.refl _, fun _ _ => rfl⟩
  · rw [changed]
    refine ⟨?_, fun other different => Function.update_of_ne different ..⟩
    rw [Function.update_self]
    exact unrelated_apply _ command

/-- What a stage has done: it issued commands, touched nothing unrelated, and
failed exactly when one of its commands was refused. -/
structure StageDone (binary : String) (before : Session) (failed : Prop) (after : Session) : Prop where
  issued : ∃ answers, answers ≠ [] ∧ after.answered = before.answered ++ answers ∧
    (failed ↔ ∃ answer ∈ answers, Refused answer)
  unrelated : KeepsUnrelated binary before.tables after.tables

variable {response : CommandResponse} {after : Session}

/-- One command is the whole stage. -/
theorem stageDone_of_command {failed : Prop} (command : CleanupCommand operation)
    (answer : faultyHandler faults session (waited binary operation) = (response, after))
    (decides : failed ↔ Refused (waited binary operation, response)) :
    StageDone binary session failed after := by
  have recorded := @answered_faulty faults session (waited binary operation)
  have unrelated := @keepsUnrelated_faulty faults session binary operation command
  rw [answer] at recorded unrelated
  exact ⟨⟨[_], List.cons_ne_nil _ _, recorded, by simpa using decides⟩, unrelated⟩

/-- A command that was not refused before the rest of the stage. -/
theorem StageDone.after_command {failed : Prop} {last : Session} (command : CleanupCommand operation)
    (answer : faultyHandler faults session (waited binary operation) = (response, after))
    (accepted : ¬Refused (waited binary operation, response))
    (rest : StageDone binary after failed last) : StageDone binary session failed last := by
  have recorded := @answered_faulty faults session (waited binary operation)
  have unrelated := @keepsUnrelated_faulty faults session binary operation command
  rw [answer] at recorded unrelated
  obtain ⟨⟨answers, _, later, decides⟩, unrelatedLater⟩ := rest
  refine ⟨⟨(waited binary operation, response) :: answers, List.cons_ne_nil _ _, ?_, ?_⟩,
    unrelated.trans unrelatedLater⟩
  · rw [later, recorded, List.append_assoc]
    rfl
  · rw [decides, List.exists_mem_cons_iff, or_iff_right accepted]

/-- A run command goes on with its result, or fails when it cannot be executed. -/
theorem ends_runFirewall {returns : CommandResult → Session → Prop}
    {fails : FirewallError → Session → Prop}
    (answer : faultyHandler faults session (waited binary operation) = (response, after))
    (continued : match (motive := CommandResponse → Prop) response with
      | .ok result => returns result after
      | .error source => fails (.commandExecution source) after) :
    Ends (faultyHandler faults) returns fails (runFirewall binary (withLockWait operation))
      session := by
  rw [runFirewall, ends_bind, Program.perform, Ends, answer]
  cases response with
  | error source => exact continued
  | ok result => exact continued

/-- A checked command goes on with its result, or fails when it is refused. -/
theorem ends_runChecked {returns : CommandResult → Session → Prop}
    {fails : FirewallError → Session → Prop}
    (answer : faultyHandler faults session (waited binary operation) = (response, after))
    (onSuccess : ∀ result, response = .ok result → result.status.success = true →
      returns result after)
    (onRefusal : ∀ error, Unsuccessful response → fails error after) :
    Ends (faultyHandler faults) returns fails (runChecked binary operation) session := by
  rw [runChecked, ends_bind]
  refine ends_runFirewall answer ?_
  cases response with
  | error source => exact onRefusal _ trivial
  | ok result =>
    dsimp only
    split_ifs with success
    · exact onSuccess result rfl success
    · exact onRefusal _ (Bool.eq_false_iff.mpr success)

/-- Flushing or deleting a chain is a stage of one command. -/
theorem ends_allowMissing (command : CleanupCommand operation)
    (allows : operation.head? ∈ [some "-F", some "-X"]) :
    Ends (faultyHandler faults) (fun _ => StageDone binary session False)
      (fun _ => StageDone binary session True) (runCheckedAllowMissingChain binary operation)
      session := by
  rw [runCheckedAllowMissingChain, ends_bind]
  cases answer : faultyHandler faults session (waited binary operation) with
  | mk response after =>
    refine ends_runFirewall answer ?_
    cases response with
    | error source =>
      refine stageDone_of_command command answer (iff_of_true trivial ⟨trivial, ?_⟩)
      rintro ⟨result, impossible, _⟩
      cases impossible
    | ok result =>
      dsimp only
      split_ifs with accepted
      · refine stageDone_of_command command answer (iff_of_false not_false ?_)
        rintro ⟨unsuccessful, notMissing⟩
        rcases Bool.or_eq_true_iff.mp accepted with success | missing
        · exact absurd unsuccessful (by simp [Unsuccessful, success])
        · exact notMissing ⟨result, rfl, missing, allows⟩
      · rw [Bool.or_eq_true, not_or] at accepted
        refine stageDone_of_command command answer
          (iff_of_true trivial ⟨Bool.eq_false_iff.mpr accepted.1, ?_⟩)
        rintro ⟨_, same, missing, _⟩
        cases same
        exact accepted.2 missing

/-- An answer to a listing or to a deletion of a jump is refused when it is unsuccessful. -/
theorem refused_iff_unsuccessful (strict : operation.head? ∉ [some "-F", some "-X"]) :
    Refused (waited binary operation, response) ↔ Unsuccessful response := by
  refine ⟨And.left, fun unsuccessful => ⟨unsuccessful, ?_⟩⟩
  rintro ⟨_, _, _, allows⟩
  exact strict allows

/-- A successful command has worked on the table of its binary. -/
theorem tables_of_successful {result : CommandResult}
    (answer : faultyHandler faults session (waited binary operation) = (.ok result, after))
    (success : result.status.success = true) :
    result = (applyStatefulOperation (session.tables binary) operation).1 ∧
      after.tables binary = (applyStatefulOperation (session.tables binary) operation).2 := by
  have cases := @faulty_eq_or faults session binary operation
  rw [answer] at cases
  rcases cases with ⟨unsuccessful, _⟩ | ⟨same, changed⟩
  · exact absurd unsuccessful (by simp [Unsuccessful, success])
  · refine ⟨Except.ok.inj same, ?_⟩
    rw [changed, Function.update_self]

/-- A successful deletion of a jump leaves one jump less. -/
theorem count_of_deleted {result : CommandResult} {chainName : String}
    (answer : faultyHandler faults session (waited binary ["-D", "INPUT", "-j", chainName]) =
      (.ok result, after))
    (success : result.status.success = true) :
    (after.tables binary).inputRules.count (jumpTo chainName) <
      (session.tables binary).inputRules.count (jumpTo chainName) := by
  obtain ⟨rfl, same⟩ := tables_of_successful answer success
  rw [same]
  rw [apply_deleteJump] at success ⊢
  split_ifs at success ⊢ with absent inside
  · exact absurd success (by simp [missingTargetChain, ProcessStatus.success])
  · have positive := List.count_pos_iff.mpr inside
    change ((session.tables binary).inputRules.erase (jumpTo chainName)).count _ < _
    rw [List.count_erase_self]
    omega
  · exact absurd success (by simp [missingRule, ProcessStatus.success])

/-- The jump loop is a stage of its own: every turn that goes on has deleted a
jump, so it ends after as many turns as there are jumps, and one more. -/
theorem ends_removeAllInputJumps {family : FirewallFamily} {chainName : String}
    (managed : Managed chainName) (turns : ℕ)
    (enough : (session.tables family.binary).inputRules.count (jumpTo chainName) < turns) :
    Ends (faultyHandler faults) (fun _ => StageDone family.binary session False)
      (fun _ => StageDone family.binary session True)
      (removeAllInputJumpsForChain family chainName turns) session := by
  -- each round either ends the stage or deletes a jump, so the count bounds the rounds
  induction turns generalizing session with
  | zero => omega
  | succ turns ih =>
    rw [removeAllInputJumpsForChain, ends_bind]
    cases listing : faultyHandler faults session (waited family.binary ["-S", "INPUT"]) with
    | mk response listed =>
      refine ends_runChecked listing ?_ ?_
      · rintro input rfl success
        have shown : ¬Refused (waited family.binary ["-S", "INPUT"], .ok input) := by
          rw [refused_iff_unsuccessful (by decide)]
          simp [Unsuccessful, success]
        obtain ⟨-, unchanged⟩ := tables_of_successful listing success
        split_ifs
        · exact stageDone_of_command .list listing (iff_of_false not_false shown)
        · rw [ends_bind]
          cases deletion : faultyHandler faults listed
              (waited family.binary ["-D", "INPUT", "-j", chainName]) with
          | mk answer after =>
            have strict : ["-D", "INPUT", "-j", chainName].head? ∉ [some "-F", some "-X"] := by
              simp
            refine ends_runFirewall deletion ?_
            have refused : Unsuccessful answer → StageDone family.binary session True after :=
              fun unsuccessful => .after_command .list listing shown
                (stageDone_of_command (.deleteJump managed) deletion
                  (iff_of_true trivial ((refused_iff_unsuccessful strict).mpr unsuccessful)))
            cases answer with
            | error source => exact refused trivial
            | ok result =>
              dsimp only
              split_ifs with deleted
              · have accepted : ¬Refused
                    (waited family.binary ["-D", "INPUT", "-j", chainName], .ok result) := by
                  rw [refused_iff_unsuccessful strict]
                  simp [Unsuccessful, deleted]
                have fewer := count_of_deleted deletion deleted
                rw [unchanged] at fewer
                have rest := ih (Nat.lt_of_lt_of_le fewer (Nat.le_of_lt_succ enough))
                exact rest.mono
                  (fun _ _ done => .after_command .list listing shown
                    (.after_command (.deleteJump managed) deletion accepted done))
                  (fun _ _ done => .after_command .list listing shown
                    (.after_command (.deleteJump managed) deletion accepted done))
              · exact refused (Bool.eq_false_iff.mpr deleted)
      · intro error unsuccessful
        exact stageDone_of_command .list listing
          (iff_of_true trivial ((refused_iff_unsuccessful (by decide)).mpr unsuccessful))

end Faulty

/-! ### The six stages -/

/-- The stages of cleanup in the order they are attempted. -/
def cleanupStages (turns : ℕ) (family : FirewallFamily) : List (FirewallProgram Unit) :=
  [removeAllInputJumpsForChain family kidoboStagingChainName turns,
    removeAllInputJumpsForChain family kidoboChainName turns,
    runCheckedAllowMissingChain family.binary ["-F", kidoboStagingChainName],
    runCheckedAllowMissingChain family.binary ["-X", kidoboStagingChainName],
    runCheckedAllowMissingChain family.binary ["-F", kidoboChainName],
    runCheckedAllowMissingChain family.binary ["-X", kidoboChainName]]

/-- The outcome of all stages: the first failure, when there is one. -/
def firstFailure : List (Except FirewallError Unit) → Except FirewallError Unit
  | [] => .ok ()
  | .ok () :: rest => firstFailure rest
  | .error error :: _ => .error error

theorem firstFailure_isError_iff (outcomes : List (Except FirewallError Unit)) :
    (∃ error, firstFailure outcomes = .error error) ↔ ∃ error, .error error ∈ outcomes := by
  induction outcomes with
  | nil => simp [firstFailure]
  | cons outcome rest ih =>
    cases outcome with
    | ok _ => simpa [firstFailure] using ih
    | error error => simp [firstFailure]

/-- Stages that were run one after another, each from where the one before it
ended, with their outcomes. Each issued a command, and failed exactly when a
command of its own was refused. -/
inductive StagesRan (faults : Faults) (binary : String) :
    List (FirewallProgram Unit) → Session → List (Except FirewallError Unit) → Session → Prop where
  | nil (session : Session) : StagesRan faults binary [] session [] session
  | cons {program : FirewallProgram Unit} {programs : List (FirewallProgram Unit)}
      {session middle last : Session} {outcome : Except FirewallError Unit}
      {outcomes : List (Except FirewallError Unit)}
      (ran : exec (faultyHandler faults) program session = (Ending.ofExcept outcome, middle))
      (done : StageDone binary session (∃ error, outcome = .error error) middle)
      (rest : StagesRan faults binary programs middle outcomes last) :
      StagesRan faults binary (program :: programs) session (outcome :: outcomes) last

section Stages

variable {faults : Faults} {binary : String} {family : FirewallFamily}

/-- A program that ends as a stage has an outcome. -/
theorem exists_outcome {program : FirewallProgram Unit} {session : Session}
    (ends : Ends (faultyHandler faults) (fun _ => StageDone binary session False)
      (fun _ => StageDone binary session True) program session) :
    ∃ outcome middle, exec (faultyHandler faults) program session =
        (Ending.ofExcept outcome, middle) ∧
      StageDone binary session (∃ error, outcome = .error error) middle := by
  obtain ⟨ended, meets⟩ := ends.exec
  cases ran : exec (faultyHandler faults) program session with
  | mk ending middle =>
    rw [ran] at ended meets
    cases ending with
    | returned value =>
      have done : StageDone binary session False middle := meets
      exact ⟨.ok value, middle, rfl, by simpa using done⟩
    | failed error =>
      have done : StageDone binary session True middle := meets
      exact ⟨.error error, middle, rfl, by simpa using done⟩
    | stopped => exact absurd rfl ended

/-- What was recorded and kept over all stages. -/
theorem StagesRan.done {programs : List (FirewallProgram Unit)} {session last : Session}
    {outcomes : List (Except FirewallError Unit)}
    (ran : StagesRan faults binary programs session outcomes last) :
    KeepsUnrelated binary session.tables last.tables ∧
      ∃ answers, last.answered = session.answered ++ answers ∧
        ((∃ error, .error error ∈ outcomes) ↔ ∃ answer ∈ answers, Refused answer) := by
  induction ran with
  | nil session => exact ⟨⟨.refl _, fun _ _ => rfl⟩, [], by simp, by simp⟩
  | @cons program programs session middle last outcome outcomes _ done _ ih =>
    obtain ⟨⟨answers, _, recorded, decides⟩, unrelated⟩ := done
    obtain ⟨unrelatedLater, answersLater, recordedLater, decidesLater⟩ := ih
    refine ⟨unrelated.trans unrelatedLater, answers ++ answersLater, ?_, ?_⟩
    · rw [recordedLater, recorded, List.append_assoc]
    · have split : (∃ error, Except.error error ∈ outcome :: outcomes) ↔
          (∃ error, outcome = .error error) ∨ ∃ error, .error error ∈ outcomes := by
        simp only [List.mem_cons, exists_or]
        simp only [eq_comm]
      rw [split, decides, decidesLater]
      simp only [List.mem_append, or_and_right, exists_or]

/-- The first of the collected outcomes decides before the later ones. -/
theorem exec_firstFailure {outcome : Except FirewallError Unit}
    {outcomes : List (Except FirewallError Unit)} {rest : FirewallProgram Unit} {session : Session}
    (later : exec (faultyHandler faults) rest session =
      (Ending.ofExcept (firstFailure outcomes), session)) :
    exec (faultyHandler faults) (Program.ofExcept outcome >>= fun _ => rest) session =
      (Ending.ofExcept (firstFailure (outcome :: outcomes)), session) := by
  cases outcome with
  | ok _ => exact later
  | error error => rfl

/-- Every stage is run, and cleanup ends with their first failure. -/
theorem cleanupFirewallWiring_stages {turns : ℕ} (session : Session)
    (enough : (session.tables family.binary).inputRules.length < turns) :
    ∃ outcomes last,
      StagesRan faults family.binary (cleanupStages turns family) session outcomes last ∧
      exec (faultyHandler faults) (cleanupFirewallWiring turns family) session =
        (Ending.ofExcept (firstFailure outcomes), last) := by
  -- no stage adds a rule, so the jumps at the start bound every removal
  have few : ∀ {chainName : String} {rules : List String},
      rules.length ≤ (session.tables family.binary).inputRules.length →
        rules.count (jumpTo chainName) < turns :=
    fun short => Nat.lt_of_le_of_lt (Nat.le_trans List.count_le_length short) enough
  have staging : Managed kidoboStagingChainName := Or.inr rfl
  have stable : Managed kidoboChainName := Or.inl rfl
  obtain ⟨stagingJumps, first, ranFirst, doneFirst⟩ := exists_outcome
    (@ends_removeAllInputJumps faults session family _ staging turns (few (Nat.le_refl _)))
  obtain ⟨stableJumps, second, ranSecond, doneSecond⟩ := exists_outcome
    (@ends_removeAllInputJumps faults first family _ stable turns
      (few doneFirst.unrelated.table.removed.length_le))
  obtain ⟨stagingFlush, third, ranThird, doneThird⟩ := exists_outcome
    (@ends_allowMissing faults second family.binary _ (.flush staging) (by simp))
  obtain ⟨stagingDelete, fourth, ranFourth, doneFourth⟩ := exists_outcome
    (@ends_allowMissing faults third family.binary _ (.deleteChain staging) (by simp))
  obtain ⟨stableFlush, fifth, ranFifth, doneFifth⟩ := exists_outcome
    (@ends_allowMissing faults fourth family.binary _ (.flush stable) (by simp))
  obtain ⟨stableDelete, last, ranLast, doneLast⟩ := exists_outcome
    (@ends_allowMissing faults fifth family.binary _ (.deleteChain stable) (by simp))
  refine ⟨[stagingJumps, stableJumps, stagingFlush, stagingDelete, stableFlush, stableDelete], last,
    .cons ranFirst doneFirst (.cons ranSecond doneSecond (.cons ranThird doneThird
      (.cons ranFourth doneFourth (.cons ranFifth doneFifth
        (.cons ranLast doneLast (.nil last)))))), ?_⟩
  rw [cleanupFirewallWiring, exec_bind_of_returned (exec_attempt ranFirst),
    exec_bind_of_returned (exec_attempt ranSecond), exec_bind_of_returned (exec_attempt ranThird),
    exec_bind_of_returned (exec_attempt ranFourth), exec_bind_of_returned (exec_attempt ranFifth),
    exec_bind_of_returned (exec_attempt ranLast)]
  refine exec_firstFailure (exec_firstFailure (exec_firstFailure (exec_firstFailure
    (exec_firstFailure ?_))))
  rw [exec_ofExcept]
  cases stableDelete <;> rfl

end Stages

/-- Without failures cleanup ends successfully from every leftover table and
removes the managed chains and the jumps to them, and nothing else. Whatever set
of commands fails, from any tables, each of the six stages is run after the ones
before it, nothing unrelated is touched, and cleanup ends with an error exactly
when a stage failed, that is when one of the answers was a refusal. -/
theorem cleanupFirewallWiring_completeAndFramed :
    (∀ (family : FirewallFamily) (tables : Tables), Leftover (tables family.binary) →
      ∃ final : Tables,
        (∃ bound, ∀ turns, bound ≤ turns →
          exec statefulHandler (cleanupFirewallWiring turns family) tables =
            (.returned (), final)) ∧
        Cleaned (tables family.binary) (final family.binary) ∧
        ∀ binary, binary ≠ family.binary → final binary = tables binary) ∧
    ∀ (faults : Faults) (family : FirewallFamily) (tables : Tables),
      ∃ bound, ∀ turns, bound ≤ turns → ∃ outcomes last,
        StagesRan faults family.binary (cleanupStages turns family) ⟨tables, []⟩ outcomes last ∧
        exec (faultyHandler faults) (cleanupFirewallWiring turns family) ⟨tables, []⟩ =
          (Ending.ofExcept (firstFailure outcomes), last) ∧
        ((∃ error, firstFailure outcomes = .error error) ↔ ∃ error, .error error ∈ outcomes) ∧
        ((∃ error, .error error ∈ outcomes) ↔ ∃ answer ∈ last.answered, Refused answer) ∧
        KeepsUnrelated family.binary tables last.tables := by
  constructor
  · intro family tables leftover
    refine ⟨Function.update tables family.binary (cleanedTable (tables family.binary)),
      ⟨(tables family.binary).inputRules.length + 1, fun turns enough =>
        leaves_cleanupFirewallWiring leftover enough tables rfl⟩, ?_, ?_⟩
    · rw [Function.update_self]
      exact cleaned_cleanedTable leftover
    · intro binary different
      exact Function.update_of_ne different ..
  · intro faults family tables
    refine ⟨(tables family.binary).inputRules.length + 1, fun turns enough => ?_⟩
    obtain ⟨outcomes, last, ran, ended⟩ :=
      @cleanupFirewallWiring_stages faults family turns ⟨tables, []⟩ enough
    obtain ⟨unrelated, answers, recorded, decides⟩ := ran.done
    refine ⟨outcomes, last, ran, ended, firstFailure_isError_iff outcomes, ?_, unrelated⟩
    rw [recorded]
    exact decides

/-- What an interrupted update may leave: both managed chains with repeated jumps to
them, between a rule of others and beside a chain of others. -/
def leftoverTable : FirewallTable where
  chains chainName :=
    if chainName = kidoboChainName then some [setMatchRule "kidobo" .drop]
    else if chainName = kidoboStagingChainName then some [jumpTo kidoboChainName]
    else if chainName = "OTHER" then some ["-j RETURN"]
    else none
  inputRules := [jumpTo kidoboStagingChainName, "-i lo -j ACCEPT", jumpTo kidoboChainName,
    jumpTo kidoboChainName]

theorem leftover_leftoverTable : Leftover leftoverTable where
  targetsExist := by
    intro rule _ target managed _
    rcases managed with rfl | rfl
    · rfl
    · rfl
  exactJumps := by
    intro rule member target managed
    rcases managed with rfl | rfl
    all_goals
      revert rule
      decide
  chainJumps := by
    intro chainName rules present rule member target managed jumps
    have jumpless : ∀ rule ∈ [setMatchRule "kidobo" .drop, "-j RETURN"], ∀ target, Managed target →
        ¬JumpsTo rule target := by
      rintro rule member target (rfl | rfl)
      all_goals
        revert rule
        decide
    simp only [leftoverTable] at present
    split_ifs at present with isStable isStaging isOther
    · obtain rfl := Option.some.inj present
      obtain rfl := List.mem_singleton.mp member
      exact absurd jumps (jumpless _ List.mem_cons_self target managed)
    · -- the staging chain jumps to the stable one
      obtain rfl := Option.some.inj present
      obtain rfl := List.mem_singleton.mp member
      rcases managed with rfl | rfl
      · exact ⟨isStaging, rfl⟩
      · exact absurd jumps (by decide)
    · obtain rfl := Option.some.inj present
      obtain rfl := List.mem_singleton.mp member
      exact absurd jumps (jumpless _ (by simp) target managed)

/-- Cleaning up that table leaves the rule and the chain of others. -/
theorem cleanupFirewallWiring_completeAndFramed_leftover :
    ∃ final : Tables,
      (∃ bound, ∀ turns, bound ≤ turns →
        exec statefulHandler (cleanupFirewallWiring turns .ipv4) (fun _ => leftoverTable) =
          (.returned (), final)) ∧
      (final "iptables").inputRules = ["-i lo -j ACCEPT"] ∧
      (final "iptables").chains "OTHER" = some ["-j RETURN"] ∧
      (final "iptables").chains kidoboChainName = none ∧ final "ip6tables" = leftoverTable := by
  obtain ⟨final, ended, cleaned, elsewhere⟩ :=
    cleanupFirewallWiring_completeAndFramed.1 .ipv4 (fun _ => leftoverTable) leftover_leftoverTable
  refine ⟨final, ended, ?_, ?_, cleaned.noChain _ (Or.inl rfl), elsewhere _ (by decide)⟩
  · refine cleaned.inputRules.trans ?_
    decide
  · refine (cleaned.otherChains "OTHER" ?_).trans ?_
    · unfold Managed
      decide
    · rfl

end Kidobo
