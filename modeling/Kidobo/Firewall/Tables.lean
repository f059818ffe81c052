import Mathlib
import Kidobo.Firewall.Iptables

/-!
# Stateful firewall tables

The stateful runner of the adapter's tests: ordered rule lists per chain and
an ordered INPUT list for each command binary. A command answers with a status
and a listing and changes the tables of its own binary only. In the faulty
environment any command may instead fail and leave the tables as they are.

## Main definitions

* `FirewallTable`, `applyStatefulOperation`, `renderRules`
* `statefulStep`: every command either works or fails without effect
* `statefulHandler`: every command works
* `Reachable`: packets at INPUT reach a rule of the stable chain

## Main results

* `chainRuleCount_renderRules`, `exactJumpPositions_renderRules`: what the
  adapter reads off a listing of single-line rules
-/

namespace Kidobo

open Foundation

/-! ### Tables and commands -/

/-- The filter table of one binary. -/
structure FirewallTable where
  chains : String → Option (List String)
  inputRules : List String

/-- The tables of all binaries. -/
abbrev Tables := String → FirewallTable

namespace FirewallTable

@[ext] theorem ext {left right : FirewallTable} (chains : left.chains = right.chains)
    (inputRules : left.inputRules = right.inputRules) : left = right := by
  cases left
  cases right
  simp_all

/-- Give a chain its rules, or remove it. -/
def setChain (table : FirewallTable) (chainName : String) (rules : Option (List String)) :
    FirewallTable :=
  { table with chains := Function.update table.chains chainName rules }

/-- Replace the rules of INPUT. -/
def setInput (table : FirewallTable) (inputRules : List String) : FirewallTable :=
  { table with inputRules := inputRules }

@[simp] theorem inputRules_setChain (table : FirewallTable) (chainName : String)
    (rules : Option (List String)) : (table.setChain chainName rules).inputRules = table.inputRules :=
  rfl

@[simp] theorem chains_setChain_self (table : FirewallTable) (chainName : String)
    (rules : Option (List String)) : (table.setChain chainName rules).chains chainName = rules :=
  Function.update_self ..

@[simp] theorem chains_setChain_of_ne (table : FirewallTable) {chainName other : String}
    (different : other ≠ chainName) (rules : Option (List String)) :
    (table.setChain chainName rules).chains other = table.chains other :=
  Function.update_of_ne different ..

@[simp] theorem setChain_setChain (table : FirewallTable) (chainName : String)
    (first second : Option (List String)) :
    (table.setChain chainName first).setChain chainName second = table.setChain chainName second := by
  simp [setChain]

@[simp] theorem chains_setInput (table : FirewallTable) (inputRules : List String) :
    (table.setInput inputRules).chains = table.chains := rfl

@[simp] theorem inputRules_setInput (table : FirewallTable) (inputRules : List String) :
    (table.setInput inputRules).inputRules = inputRules := rfl

@[simp] theorem setInput_setInput (table : FirewallTable) (first second : List String) :
    (table.setInput first).setInput second = table.setInput second := rfl

theorem setChain_eq_self {table : FirewallTable} {chainName : String}
    {rules : Option (List String)} (same : table.chains chainName = rules) :
    table.setChain chainName rules = table := by
  subst same
  simp [setChain]

/-- Create a chain unless it exists. -/
def newChain (table : FirewallTable) (chainName : String) : FirewallTable :=
  table.setChain chainName (some ((table.chains chainName).getD []))

theorem chains_newChain_self (table : FirewallTable) (chainName : String) :
    (table.newChain chainName).chains chainName = some ((table.chains chainName).getD []) :=
  chains_setChain_self ..

@[simp] theorem inputRules_newChain (table : FirewallTable) (chainName : String) :
    (table.newChain chainName).inputRules = table.inputRules := rfl

theorem newChain_eq_self {table : FirewallTable} {chainName : String} {rules : List String}
    (present : table.chains chainName = some rules) : table.newChain chainName = table := by
  rw [newChain, present]
  exact setChain_eq_self present

end FirewallTable

/-- The rule that jumps to a chain. -/
def jumpTo (chainName : String) : String := "-j " ++ chainName

/-- `render_rules`. -/
def renderRules (chainName : String) : List String → String
  | [] => ""
  | rule :: rules => "-A " ++ chainName ++ " " ++ rule ++ "\n" ++ renderRules chainName rules

/-- A successful result with this output. -/
def succeeded (stdout : String) : CommandResult := ⟨.exited 0, stdout, ""⟩

/-- `command_failure`. -/
def commandFailure (stderr : String) : CommandResult := ⟨.exited 2, "", stderr⟩

/-- `missing_chain`. -/
def missingChain : CommandResult := ⟨.exited 1, "", "No chain/target/match by that name"⟩

/-- `missing_rule`. -/
def missingRule : CommandResult :=
  ⟨.exited 1, "", "Bad rule (does a matching rule exist in that chain?)."⟩

/-- `missing_target_chain`. -/
def missingTargetChain (chainName : String) : CommandResult :=
  ⟨.exited 2, "", "iptables v1.8.10 (nf_tables): Chain '" ++ chainName ++ "' does not exist"⟩

/-- `apply_stateful_operation`: the result of a command and the table after it. -/
def applyStatefulOperation (table : FirewallTable) : List String → CommandResult × FirewallTable
  | ["-S", "INPUT"] => (succeeded (renderRules "INPUT" table.inputRules), table)
  | ["-S", chainName] =>
    match table.chains chainName with
    | none => (missingChain, table)
    | some rules => (succeeded (renderRules chainName rules), table)
  | ["-N", chainName] => (succeeded "", table.newChain chainName)
  | "-A" :: chainName :: rule =>
    (succeeded "",
      table.setChain chainName
        (some ((table.chains chainName).getD [] ++ [" ".intercalate rule])))
  | ["-I", "INPUT", "1", "-j", chainName] =>
    (succeeded "", table.setInput (("-j " ++ chainName) :: table.inputRules))
  | ["-D", "INPUT", "-j", chainName] =>
    if (table.chains chainName).isNone then (missingTargetChain chainName, table)
    else if "-j " ++ chainName ∈ table.inputRules then
      (succeeded "", table.setInput (table.inputRules.erase ("-j " ++ chainName)))
    else (missingRule, table)
  | ["-D", chainName, "1"] =>
    match table.chains chainName with
    | some (_ :: rules) => (succeeded "", table.setChain chainName (some rules))
    | _ => (missingRule, table)
  | ["-F", chainName] =>
    match table.chains chainName with
    | none => (missingChain, table)
    | some _ => (succeeded "", table.setChain chainName (some []))
  | ["-X", chainName] =>
    match table.chains chainName with
    | some [] => (succeeded "", table.setChain chainName none)
    | _ => (missingChain, table)
  | _ => (commandFailure "unexpected test command", table)

section Operations

variable (table : FirewallTable) (chainName : String)

@[simp] theorem apply_listInput :
    applyStatefulOperation table ["-S", "INPUT"] =
      (succeeded (renderRules "INPUT" table.inputRules), table) := rfl

theorem apply_list_present {chainName : String} (notInput : chainName ≠ "INPUT")
    {rules : List String} (present : table.chains chainName = some rules) :
    applyStatefulOperation table ["-S", chainName] =
      (succeeded (renderRules chainName rules), table) := by
  simp [applyStatefulOperation, present]

theorem apply_list_absent {chainName : String} (notInput : chainName ≠ "INPUT")
    (absent : table.chains chainName = none) :
    applyStatefulOperation table ["-S", chainName] = (missingChain, table) := by
  simp [applyStatefulOperation, absent]

@[simp] theorem apply_new :
    applyStatefulOperation table ["-N", chainName] = (succeeded "", table.newChain chainName) := rfl

theorem apply_append {rules : List String} (rule : List String)
    (present : table.chains chainName = some rules) :
    applyStatefulOperation table ("-A" :: chainName :: rule) =
      (succeeded "", table.setChain chainName (some (rules ++ [" ".intercalate rule]))) := by
  simp [applyStatefulOperation, present]

@[simp] theorem apply_insertJump :
    applyStatefulOperation table ["-I", "INPUT", "1", "-j", chainName] =
      (succeeded "", table.setInput (jumpTo chainName :: table.inputRules)) := rfl

theorem apply_deleteJump :
    applyStatefulOperation table ["-D", "INPUT", "-j", chainName] =
      if (table.chains chainName).isNone then (missingTargetChain chainName, table)
      else if jumpTo chainName ∈ table.inputRules then
        (succeeded "", table.setInput (table.inputRules.erase (jumpTo chainName)))
      else (missingRule, table) := rfl

theorem apply_deleteFirst {rule : String} {rules : List String}
    (present : table.chains chainName = some (rule :: rules)) :
    applyStatefulOperation table ["-D", chainName, "1"] =
      (succeeded "", table.setChain chainName (some rules)) := by
  simp [applyStatefulOperation, present]

theorem apply_flush {rules : List String} (present : table.chains chainName = some rules) :
    applyStatefulOperation table ["-F", chainName] =
      (succeeded "", table.setChain chainName (some [])) := by
  simp [applyStatefulOperation, present]

theorem apply_removeChain (emptied : table.chains chainName = some []) :
    applyStatefulOperation table ["-X", chainName] =
      (succeeded "", table.setChain chainName none) := by
  simp [applyStatefulOperation, emptied]

end Operations

/-! ### Environments -/

/-- The operation of a command line, behind the lock-wait arguments. -/
def CommandLine.operation (line : CommandLine) : List String := line.args.drop 2

/-- Every command works on the table of its binary, or fails without effect. -/
def statefulStep : Step CommandLine (fun _ => CommandResponse) Tables :=
  fun before line response after =>
    (response = .ok (applyStatefulOperation (before line.command) line.operation).1 ∧
      after = Function.update before line.command
        (applyStatefulOperation (before line.command) line.operation).2) ∨
    (Unsuccessful response ∧ after = before)

/-- Every command works on the table of its binary. -/
def statefulHandler : Handler CommandLine (fun _ => CommandResponse) Tables :=
  fun tables line =>
    (.ok (applyStatefulOperation (tables line.command) line.operation).1,
      Function.update tables line.command
        (applyStatefulOperation (tables line.command) line.operation).2)

theorem statefulStep_handler (tables : Tables) (line : CommandLine) :
    statefulStep tables line (statefulHandler tables line).1 (statefulHandler tables line).2 :=
  Or.inl ⟨rfl, rfl⟩

/-! ### Reachable enforcement -/

/-- INPUT jumps to the nonempty stable chain, directly or through the staging chain. -/
def Reachable (table : FirewallTable) : Prop :=
  (∃ rules, table.chains kidoboChainName = some rules ∧ rules ≠ []) ∧
    (jumpTo kidoboChainName ∈ table.inputRules ∨
      (jumpTo kidoboStagingChainName ∈ table.inputRules ∧
        ∃ rules, table.chains kidoboStagingChainName = some rules ∧
          jumpTo kidoboChainName ∈ rules))

/-! ### Listings of single-line rules -/

/-- A rule text without a line feed, which a listing shows on one line. -/
def SingleLine (rule : String) : Prop := '\n' ∉ rule.toList

instance (rule : String) : Decidable (SingleLine rule) := inferInstanceAs (Decidable (_ ∉ _))

/-- The rules of a chain are listed on one line each. -/
def SingleLineRules (table : FirewallTable) (chainName : String) : Prop :=
  ∀ rules, table.chains chainName = some rules → ∀ rule ∈ rules, SingleLine rule

theorem SingleLineRules.getD {table : FirewallTable} {chainName : String}
    (singleLine : SingleLineRules table chainName) :
    ∀ rule ∈ (table.chains chainName).getD [], SingleLine rule := by
  cases present : table.chains chainName with
  | none => simp
  | some rules => exact singleLine rules present

/-- The line that lists a rule. -/
def ruleLine (chainName rule : String) : List Char :=
  ("-A " ++ chainName ++ " ").toList ++ rule.toList

theorem toList_renderRules_cons (chainName rule : String) (rules : List String) :
    (renderRules chainName (rule :: rules)).toList =
      ruleLine chainName rule ++ '\n' :: (renderRules chainName rules).toList := by
  simp [renderRules, ruleLine]

theorem lines_renderRules {chainName : String} (chainSingle : SingleLine chainName)
    {rules : List String} (singleLine : ∀ rule ∈ rules, SingleLine rule) :
    lines (renderRules chainName rules).toList =
      rules.map fun rule => stripCarriageReturn (ruleLine chainName rule) := by
  induction rules with
  | nil => simp [renderRules]
  | cons rule rules ih =>
    obtain ⟨ruleSingle, restSingle⟩ := List.forall_mem_cons.mp singleLine
    have lineSingle : '\n' ∉ ruleLine chainName rule := by
      simp only [SingleLine] at chainSingle ruleSingle
      simp [ruleLine, chainSingle, ruleSingle]
    rw [toList_renderRules_cons, lines_append lineSingle, ih restSingle, List.map_cons]

theorem isPrefixOf_stripCarriageReturn_ruleLine (chainName rule : String) :
    ("-A " ++ chainName ++ " ").toList.isPrefixOf
      (stripCarriageReturn (ruleLine chainName rule)) = true := by
  rw [List.isPrefixOf_iff_prefix, stripCarriageReturn, ruleLine]
  split_ifs with ends
  · -- the carriage return is the last character of the rule, not of the blank before it
    have nonempty : rule.toList ≠ [] := by
      rintro empty
      rw [empty, List.append_nil, String.toList_append, show " ".toList = [' '] from rfl,
        List.getLast?_concat] at ends
      exact absurd ends (by decide)
    rw [List.dropLast_append_of_ne_nil nonempty]
    exact List.prefix_append _ _
  · exact List.prefix_append _ _

/-- A listing of single-line rules shows as many rules as the chain has. -/
theorem chainRuleCount_renderRules {chainName : String} (chainSingle : SingleLine chainName)
    {rules : List String} (singleLine : ∀ rule ∈ rules, SingleLine rule) :
    chainRuleCount (renderRules chainName rules) chainName = rules.length := by
  rw [chainRuleCount, lines_renderRules chainSingle singleLine, List.filter_eq_self.mpr,
    List.length_map]
  intro line member
  obtain ⟨rule, -, rfl⟩ := List.mem_map.mp member
  exact isPrefixOf_stripCarriageReturn_ruleLine chainName rule

/-- A single-line rule text without white space at its ends. -/
def TrimmedLine (rule : String) : Prop := SingleLine rule ∧ trim rule.toList = rule.toList

instance (rule : String) : Decidable (TrimmedLine rule) := inferInstanceAs (Decidable (_ ∧ _))

/-- The listed line of a trimmed INPUT rule is an exact jump when the rule is. -/
theorem trim_ruleLine_input {rule : String} (trimmed : TrimmedLine rule) (chainName : String) :
    trim (stripCarriageReturn (ruleLine "INPUT" rule)) = ("-A INPUT -j " ++ chainName).toList ↔
      rule = jumpTo chainName := by
  have expected : ("-A INPUT -j " ++ chainName).toList =
      ("-A " ++ "INPUT" ++ " ").toList ++ (jumpTo chainName).toList := by
    simp [jumpTo]
  rcases List.eq_nil_or_concat rule.toList with empty | ⟨front, last, split⟩
  · have listed : trim (stripCarriageReturn (ruleLine "INPUT" rule)) = "-A INPUT".toList := by
      rw [ruleLine, empty]
      decide
    rw [listed]
    constructor
    · intro same
      rw [String.toList_append] at same
      exact absurd (congrArg List.length same) (by simp)
    · rintro rfl
      simp [jumpTo] at empty
  · -- the rule ends with a visible character, so neither trimming removes anything
    have ends : (ruleLine "INPUT" rule).getLast? = some last := by
      rw [ruleLine, split, List.concat_eq_append, ← List.append_assoc, List.getLast?_concat]
    have visible : isWhitespace last = false :=
      not_isWhitespace_getLast? trimmed.2
        (by rw [split, List.concat_eq_append, List.getLast?_concat])
    have notReturn : ¬(ruleLine "INPUT" rule).getLast? = some '\r' := by
      rw [ends, Option.some.injEq]
      rintro rfl
      exact absurd visible (by decide)
    have starts : (ruleLine "INPUT" rule).head? = some '-' := by simp [ruleLine]
    rw [stripCarriageReturn, if_neg notReturn, trim_eq_self, ruleLine, expected,
      List.append_cancel_left_eq, String.toList_inj]
    · intro char isFirst
      obtain rfl := Option.some.inj (starts.symm.trans isFirst)
      decide
    · intro char isLast
      obtain rfl := Option.some.inj (ends.symm.trans isLast)
      exact visible

/-- The positions of the jumps to a chain, read off the rules themselves. -/
theorem exactJumpPositions_renderRules {rules : List String}
    (trimmed : ∀ rule ∈ rules, TrimmedLine rule) (chainName : String) :
    exactJumpPositions (renderRules "INPUT" rules) chainName =
      rules.zipIdx.filterMap fun (rule, idx) =>
        if rule = jumpTo chainName then some (idx + 1) else none := by
  have shown : ((lines (renderRules "INPUT" rules).toList).filter
      fun line => "-A INPUT ".toList.isPrefixOf line) =
        rules.map fun rule => stripCarriageReturn (ruleLine "INPUT" rule) := by
    rw [lines_renderRules (by decide) fun rule member => (trimmed rule member).1,
      List.filter_eq_self]
    intro line member
    obtain ⟨rule, -, rfl⟩ := List.mem_map.mp member
    exact isPrefixOf_stripCarriageReturn_ruleLine "INPUT" rule
  rw [exactJumpPositions, shown, List.zipIdx_map, List.filterMap_map]
  refine List.filterMap_congr fun pair member => ?_
  have inRules : pair.1 ∈ rules := List.fst_mem_of_mem_zipIdx member
  simp only [Function.comp_apply, Prod.map, trim_ruleLine_input (trimmed _ inRules), id_eq]

end Kidobo
