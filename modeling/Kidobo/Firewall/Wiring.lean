import Kidobo.Firewall.Tables

/-!
# What the wiring establishes

When no command fails, the wiring ends: INPUT starts with one jump to the
stable chain and keeps every other rule in order, the stable chain holds the
one requested rule, the staging chain is gone, and nothing else has changed. A
second call finds this table and leaves it.

## Main results

* `ensureFirewallWiring_establishes`
* `unlistableRules_defeat_wiring`: a padded INPUT rule or an embedded listing
  line makes the call fail
-/

namespace Kidobo

open Foundation

/-- In the faultless environment the program returns `value` from tables whose
table of `binary` is `table`, having replaced that table by `after`. -/
def Leaves {α : Type} (binary : String) (program : FirewallProgram α) (table : FirewallTable)
    (value : α) (after : FirewallTable) : Prop :=
  ∀ tables : Tables, tables binary = table →
    exec statefulHandler program tables = (.returned value, Function.update tables binary after)

section Rules

variable {α β : Type} {binary : String} {table middle after : FirewallTable}

theorem Leaves.ret (value : α) : Leaves binary (.ret value) table value table := by
  rintro tables rfl
  rw [exec_ret, Function.update_eq_self]

theorem Leaves.bind {program : FirewallProgram β} {next : β → FirewallProgram α} {value : β}
    {result : α} (first : Leaves binary program table value middle)
    (second : Leaves binary (next value) middle result after) :
    Leaves binary (program >>= next) table result after := by
  intro tables same
  rw [exec_bind_of_returned (first tables same), second _ (Function.update_self ..),
    Function.update_idem]

theorem leaves_runFirewall (binary : String) (table : FirewallTable) (args : List String) :
    Leaves binary (runFirewall binary (withLockWait args)) table
      (applyStatefulOperation table args).1 (applyStatefulOperation table args).2 := by
  rintro tables rfl
  rfl

/-- A checked command that works. -/
theorem leaves_runChecked {args : List String} {stdout : String}
    (works : applyStatefulOperation table args = (succeeded stdout, after)) :
    Leaves binary (runChecked binary args) table (succeeded stdout) after := by
  have ran := leaves_runFirewall binary table args
  rw [works] at ran
  exact ran.bind (Leaves.ret _)

theorem leaves_runCheckedAllowMissingChain {args : List String} {stdout : String}
    (works : applyStatefulOperation table args = (succeeded stdout, after)) :
    Leaves binary (runCheckedAllowMissingChain binary args) table () after := by
  have ran := leaves_runFirewall binary table args
  rw [works] at ran
  exact ran.bind (Leaves.ret _)

end Rules

section Helpers

variable {family : FirewallFamily} {table : FirewallTable} {chainName : String}

theorem leaves_ensureChainExists (notInput : chainName ≠ "INPUT") :
    Leaves family.binary (ensureChainExists family chainName) table () (table.newChain chainName) := by
  cases present : table.chains chainName with
  | some rules =>
    have listed := leaves_runFirewall family.binary table ["-S", chainName]
    rw [apply_list_present table notInput present] at listed
    rw [FirewallTable.newChain_eq_self present]
    exact Leaves.bind (listed.bind (Leaves.ret true)) (Leaves.ret ())
  | none =>
    have listed := leaves_runFirewall family.binary table ["-S", chainName]
    rw [apply_list_absent table notInput present] at listed
    have missing : Leaves family.binary (chainExists family chainName) table false table := by
      refine listed.bind ?_
      rw [if_neg (show ¬missingChain.status.success = true by decide),
        if_pos (show isMissingChainResult missingChain = true by decide)]
      exact Leaves.ret false
    exact missing.bind ((leaves_runChecked (apply_new table chainName)).bind (Leaves.ret ()))

theorem leaves_deleteFirstRules (old kept : List String) :
    Leaves family.binary (deleteFirstRules family.binary chainName old.length)
      (table.setChain chainName (some (old ++ kept))) () (table.setChain chainName (some kept)) := by
  induction old with
  | nil => exact Leaves.ret ()
  | cons rule old ih =>
    have deleted := apply_deleteFirst (table.setChain chainName (some (rule :: old ++ kept)))
      chainName (FirewallTable.chains_setChain_self ..)
    rw [FirewallTable.setChain_setChain] at deleted
    exact (leaves_runChecked deleted).bind ih

/-- Appending and then deleting the counted rules leaves exactly the new rule. -/
theorem leaves_replace {rules : List String} (newRule : List String) (notInput : chainName ≠ "INPUT")
    (chainSingle : SingleLine chainName) (present : table.chains chainName = some rules)
    (singleLine : ∀ rule ∈ rules, SingleLine rule) :
    Leaves family.binary
      (do
        let current ← runChecked family.binary ["-S", chainName]
        let _ ← runChecked family.binary ("-A" :: chainName :: newRule)
        deleteFirstRules family.binary chainName (chainRuleCount current.stdout chainName))
      table () (table.setChain chainName (some [" ".intercalate newRule])) := by
  refine (leaves_runChecked (apply_list_present table notInput present)).bind ?_
  refine (leaves_runChecked (apply_append table chainName newRule present)).bind ?_
  rw [succeeded, chainRuleCount_renderRules chainSingle singleLine]
  exact leaves_deleteFirstRules rules [" ".intercalate newRule]

/-- The rules without the jumps to a chain. -/
def withoutJumps (chainName : String) (rules : List String) : List String :=
  rules.filter (· ≠ jumpTo chainName)

theorem withoutJumps_eq_self {rules : List String} (absent : jumpTo chainName ∉ rules) :
    withoutJumps chainName rules = rules := by
  refine List.filter_eq_self.mpr fun rule member => ?_
  rw [decide_eq_true_eq]
  rintro rfl
  exact absent member

theorem withoutJumps_cons_of_ne {rule : String} (different : rule ≠ jumpTo chainName)
    (rules : List String) :
    withoutJumps chainName (rule :: rules) = rule :: withoutJumps chainName rules :=
  List.filter_cons_of_pos (decide_eq_true different)

theorem withoutJumps_cons_self (rules : List String) :
    withoutJumps chainName (jumpTo chainName :: rules) = withoutJumps chainName rules :=
  List.filter_cons_of_neg (by simp)

theorem mem_withoutJumps {rule : String} {rules : List String} :
    rule ∈ withoutJumps chainName rules ↔ rule ∈ rules ∧ rule ≠ jumpTo chainName := by
  simp [withoutJumps]

/-- Erasing what a filter drops does not change what it keeps. -/
theorem filter_erase_of_dropped {keep : String → Bool} {rule : String} (dropped : keep rule = false)
    (rules : List String) : (rules.erase rule).filter keep = rules.filter keep := by
  induction rules with
  | nil => rfl
  | cons first rest ih =>
    by_cases same : first = rule
    · subst same
      rw [List.erase_cons_head, List.filter_cons_of_neg (by simp [dropped])]
    · rw [List.erase_cons_tail (by simpa using same), List.filter_cons, List.filter_cons, ih]

theorem withoutJumps_erase (rules : List String) :
    withoutJumps chainName (rules.erase (jumpTo chainName)) = withoutJumps chainName rules :=
  filter_erase_of_dropped (by simp) rules

/-- The jump loop inspects whether a jump is left. -/
theorem exactJumpPositions_isEmpty {rules : List String}
    (trimmed : ∀ rule ∈ rules, TrimmedLine rule) :
    (exactJumpPositions (renderRules "INPUT" rules) chainName).isEmpty = true ↔
      jumpTo chainName ∉ rules := by
  rw [exactJumpPositions_renderRules trimmed, List.isEmpty_iff, List.filterMap_eq_nil_iff]
  constructor
  · intro none inside
    obtain ⟨idx, bound, at_⟩ := List.getElem_of_mem inside
    have member : (jumpTo chainName, idx) ∈ rules.zipIdx :=
      List.mk_mem_zipIdx_iff_getElem?.mpr (List.getElem?_eq_some_iff.mpr ⟨bound, at_⟩)
    simpa using none _ member
  · rintro absent ⟨rule, idx⟩ member
    refine if_neg ?_
    rintro rfl
    exact absent (List.fst_mem_of_mem_zipIdx member)

/-- The listing of these INPUT rules, also when some are deleted, shows a jump
to the chain exactly when there is one. -/
def Listable (chainName : String) (rules : List String) : Prop :=
  ∀ left, left ⊆ rules →
    ((exactJumpPositions (renderRules "INPUT" left) chainName).isEmpty = true ↔
      jumpTo chainName ∉ left)

theorem listable_of_trimmed {rules : List String} (trimmed : ∀ rule ∈ rules, TrimmedLine rule) :
    Listable chainName rules :=
  fun _ included => exactJumpPositions_isEmpty fun rule member => trimmed rule (included member)

/-- The jump loop ends after as many turns as there are jumps, and one more,
having removed all of them and nothing else. -/
theorem leaves_removeAllInputJumpsForChain {turns : ℕ}
    (present : jumpTo chainName ∈ table.inputRules → (table.chains chainName).isSome)
    (listable : Listable chainName table.inputRules)
    (enough : table.inputRules.count (jumpTo chainName) < turns) :
    Leaves family.binary (removeAllInputJumpsForChain family chainName turns) table ()
      (table.setInput (withoutJumps chainName table.inputRules)) := by
  induction turns generalizing table with
  | zero => omega
  | succ turns ih =>
    refine (leaves_runChecked (apply_listInput table)).bind ?_
    have decides := listable table.inputRules (List.Subset.refl _)
    by_cases inside : jumpTo chainName ∈ table.inputRules
    · have deleted : applyStatefulOperation table ["-D", "INPUT", "-j", chainName] =
          (succeeded "", table.setInput (table.inputRules.erase (jumpTo chainName))) := by
        rw [apply_deleteJump, if_neg (by simpa [Option.isSome_iff_ne_none] using present inside),
          if_pos inside]
      have ran := leaves_runFirewall family.binary table
        ["-D", "INPUT", "-j", chainName]
      rw [deleted] at ran
      have fewer : (table.inputRules.erase (jumpTo chainName)).count (jumpTo chainName) < turns := by
        have positive := List.count_pos_iff.mpr inside
        rw [List.count_erase_self]
        omega
      rw [if_neg (by rw [succeeded, decides]; exact not_not.mpr inside)]
      refine ran.bind ?_
      rw [if_pos (by rfl), ← withoutJumps_erase]
      exact @ih (table.setInput (table.inputRules.erase (jumpTo chainName)))
        (fun _ => present inside)
        (fun left included => listable left
          (List.Subset.trans included List.erase_subset)) fewer
    · rw [if_pos (by rw [succeeded, decides]; exact inside), withoutJumps_eq_self inside]
      exact Leaves.ret ()

/-- With one jump in front and none behind, the jump is seen at position one. -/
theorem exactJumpPositions_jump_cons {rules : List String}
    (trimmed : ∀ rule ∈ jumpTo chainName :: rules, TrimmedLine rule)
    (absent : jumpTo chainName ∉ rules) :
    exactJumpPositions (renderRules "INPUT" (jumpTo chainName :: rules)) chainName = [1] := by
  rw [exactJumpPositions_renderRules trimmed, List.zipIdx_cons, List.filterMap_cons]
  simp only [if_true]
  refine congrArg (1 :: ·) (List.filterMap_eq_nil_iff.mpr ?_)
  rintro ⟨rule, idx⟩ member
  refine if_neg ?_
  rintro rfl
  exact absent (List.fst_mem_of_mem_zipIdx member)

end Helpers

/-! ### The wired table -/

/-- The rule that matches the set and takes the action. -/
def setMatchRule (setName : String) (chainAction : ChainAction) : String :=
  " ".intercalate ["-m", "set", "--match-set", setName, "src", "-j", chainAction.asTarget]

/-- The table the wiring leaves. -/
def wiredTable (table : FirewallTable) (rule : String) : FirewallTable :=
  ((table.setChain kidoboChainName (some [rule])).setChain kidoboStagingChainName none).setInput
    (jumpTo kidoboChainName ::
      withoutJumps kidoboStagingChainName (withoutJumps kidoboChainName table.inputRules))

/-- Normalizing from a table whose stable chain is ready. -/
theorem leaves_normalizeInputJumpFailClosed {family : FirewallFamily} {table : FirewallTable}
    {turns : ℕ} {rules : List String} (stable : table.chains kidoboChainName = some rules)
    (stagingSingle : ∀ rule ∈ (table.chains kidoboStagingChainName).getD [], SingleLine rule)
    (trimmed : ∀ rule ∈ table.inputRules, TrimmedLine rule)
    (enough : table.inputRules.length + 1 < turns) :
    Leaves family.binary (normalizeInputJumpFailClosed turns family kidoboChainName) table ()
      ((table.setChain kidoboStagingChainName none).setInput
        (jumpTo kidoboChainName ::
          withoutJumps kidoboStagingChainName (withoutJumps kidoboChainName table.inputRules))) := by
  have distinct : jumpTo kidoboStagingChainName ≠ jumpTo kidoboChainName := by decide
  have notStable : kidoboChainName ≠ kidoboStagingChainName := by decide
  have stableJumpTrimmed : TrimmedLine (jumpTo kidoboChainName) := by decide
  have stagingJumpTrimmed : TrimmedLine (jumpTo kidoboStagingChainName) := by decide
  have notInput : kidoboStagingChainName ≠ "INPUT" := by decide
  -- create the staging chain and let it hold the jump to the stable chain only
  refine (leaves_ensureChainExists notInput).bind ?_
  refine (leaves_replace ["-j", kidoboChainName] notInput (by decide)
    (FirewallTable.chains_newChain_self ..) stagingSingle).bind ?_
  rw [FirewallTable.newChain, FirewallTable.setChain_setChain]
  have readyStable : (table.setChain kidoboStagingChainName
      (some [" ".intercalate ["-j", kidoboChainName]])).chains kidoboChainName = some rules := by
    rwa [FirewallTable.chains_setChain_of_ne _ notStable]
  have readyStaging := FirewallTable.chains_setChain_self table kidoboStagingChainName
    (some [" ".intercalate ["-j", kidoboChainName]])
  have readyInput := FirewallTable.inputRules_setChain table kidoboStagingChainName
    (some [" ".intercalate ["-j", kidoboChainName]])
  have withoutStaging := FirewallTable.setChain_setChain table kidoboStagingChainName
    (some [" ".intercalate ["-j", kidoboChainName]]) none
  rw [← withoutStaging, ← readyInput]
  rw [← readyInput] at trimmed enough
  generalize table.setChain kidoboStagingChainName
    (some [" ".intercalate ["-j", kidoboChainName]]) = ready at *
  have stableIn : ∀ inputRules, (ready.setInput inputRules).chains kidoboChainName = some rules :=
    fun _ => readyStable
  have stagingIn : ∀ inputRules, (ready.setInput inputRules).chains kidoboStagingChainName =
      some [" ".intercalate ["-j", kidoboChainName]] :=
    fun _ => readyStaging
  have fewStable := @List.count_le_length _ _ (jumpTo kidoboChainName) ready.inputRules
  -- activate the staging jump, then remove the stable ones
  refine (leaves_runChecked (apply_insertJump _ _)).bind ?_
  refine (leaves_removeAllInputJumpsForChain (fun _ => Option.isSome_of_eq_some (stableIn _))
    (listable_of_trimmed (List.forall_mem_cons.mpr ⟨stagingJumpTrimmed, trimmed⟩)) ?_).bind ?_
  · rw [FirewallTable.inputRules_setInput, List.count_cons_of_ne distinct]
    omega
  -- put one stable jump in front, then remove the staging ones
  refine (leaves_runChecked (apply_insertJump _ _)).bind ?_
  have middleTrimmed : ∀ rule ∈ jumpTo kidoboChainName ::
      withoutJumps kidoboChainName (jumpTo kidoboStagingChainName :: ready.inputRules),
      TrimmedLine rule := by
    refine List.forall_mem_cons.mpr ⟨stableJumpTrimmed, fun rule member => ?_⟩
    exact List.forall_mem_cons.mpr ⟨stagingJumpTrimmed, trimmed⟩ rule (mem_withoutJumps.mp member).1
  refine (leaves_removeAllInputJumpsForChain (fun _ => Option.isSome_of_eq_some (stagingIn _))
    (listable_of_trimmed middleTrimmed) ?_).bind ?_
  · have shorter : (withoutJumps kidoboChainName ready.inputRules).length ≤
        ready.inputRules.length := List.length_filter_le _ _
    have few := @List.count_le_length _ _ (jumpTo kidoboStagingChainName)
      (withoutJumps kidoboChainName ready.inputRules)
    rw [FirewallTable.inputRules_setInput, List.count_cons_of_ne distinct.symm,
      withoutJumps_cons_of_ne distinct]
    simp only [List.count_cons_self]
    omega
  simp only [FirewallTable.setInput_setInput, FirewallTable.inputRules_setInput,
    withoutJumps_cons_of_ne distinct, withoutJumps_cons_of_ne distinct.symm,
    withoutJumps_cons_self]
  -- remove the staging chain and inspect the final INPUT
  refine (leaves_runCheckedAllowMissingChain (apply_flush _ _ (stagingIn _))).bind ?_
  refine (leaves_runCheckedAllowMissingChain
    (apply_removeChain _ _ (FirewallTable.chains_setChain_self ..))).bind ?_
  refine (leaves_runChecked (apply_listInput _)).bind ?_
  have finalTrimmed : ∀ rule ∈ jumpTo kidoboChainName ::
      withoutJumps kidoboStagingChainName (withoutJumps kidoboChainName ready.inputRules),
      TrimmedLine rule := by
    refine List.forall_mem_cons.mpr ⟨stableJumpTrimmed, fun rule member => ?_⟩
    exact trimmed rule (mem_withoutJumps.mp (mem_withoutJumps.mp member).1).1
  have oneStable := exactJumpPositions_jump_cons finalTrimmed fun member =>
    (mem_withoutJumps.mp (mem_withoutJumps.mp member).1).2 rfl
  have noStaging := (exactJumpPositions_isEmpty finalTrimmed).mpr fun member =>
    ((List.mem_cons.mp member).elim distinct fun later => (mem_withoutJumps.mp later).2 rfl)
  simp only [FirewallTable.setChain_setChain, FirewallTable.inputRules_setChain,
    FirewallTable.inputRules_setInput, succeeded]
  rw [if_neg (by simp [oneStable, noStaging])]
  exact Leaves.ret ()

/-- From any table of listable rules the wiring leaves the wired table. -/
theorem leaves_ensureFirewallWiring {family : FirewallFamily} {table : FirewallTable} {turns : ℕ}
    (setName : String) (chainAction : ChainAction)
    (stableSingle : SingleLineRules table kidoboChainName)
    (stagingSingle : SingleLineRules table kidoboStagingChainName)
    (trimmed : ∀ rule ∈ table.inputRules, TrimmedLine rule)
    (enough : table.inputRules.length + 1 < turns) :
    Leaves family.binary (ensureFirewallWiring turns family setName chainAction) table ()
      (wiredTable table (setMatchRule setName chainAction)) := by
  have notInput : kidoboChainName ≠ "INPUT" := by decide
  refine (leaves_ensureChainExists notInput).bind ?_
  refine (leaves_replace
    ["-m", "set", "--match-set", setName, "src", "-j", chainAction.asTarget] notInput (by decide)
    (FirewallTable.chains_newChain_self ..) stableSingle.getD).bind ?_
  rw [FirewallTable.newChain, FirewallTable.setChain_setChain]
  refine leaves_normalizeInputJumpFailClosed (FirewallTable.chains_setChain_self ..) ?_ trimmed
    enough
  rw [FirewallTable.chains_setChain_of_ne _ (by decide)]
  exact stagingSingle.getD

/-- Wiring a wired table again changes nothing. -/
theorem wiredTable_wiredTable (table : FirewallTable) (rule : String) :
    wiredTable (wiredTable table rule) rule = wiredTable table rule := by
  have distinct : jumpTo kidoboChainName ≠ jumpTo kidoboStagingChainName := by decide
  have notStaging : kidoboChainName ≠ kidoboStagingChainName := by decide
  refine FirewallTable.ext ?_ ?_
  · funext name
    by_cases isStaging : name = kidoboStagingChainName
    · simp [wiredTable, isStaging]
    · by_cases isStable : name = kidoboChainName
      · simp [wiredTable, isStable, notStaging]
      · simp [wiredTable, isStaging, isStable]
  · have clean : jumpTo kidoboChainName ∉ withoutJumps kidoboStagingChainName
        (withoutJumps kidoboChainName table.inputRules) := fun member =>
      (mem_withoutJumps.mp (mem_withoutJumps.mp member).1).2 rfl
    have stagingClean : jumpTo kidoboStagingChainName ∉ withoutJumps kidoboStagingChainName
        (withoutJumps kidoboChainName table.inputRules) := fun member =>
      (mem_withoutJumps.mp member).2 rfl
    simp only [wiredTable, FirewallTable.inputRules_setInput, withoutJumps_cons_self,
      withoutJumps_eq_self clean, withoutJumps_eq_self stagingClean]

theorem singleLine_setMatchRule {setName : String} {chainAction : ChainAction}
    (setNameSingle : SingleLine setName) : SingleLine (setMatchRule setName chainAction) := by
  simp only [SingleLine] at setNameSingle
  cases chainAction <;>
    simp [SingleLine, setMatchRule, String.intercalate_cons_cons, ChainAction.asTarget,
      setNameSingle]

theorem wiredTable_stableSingle (table : FirewallTable) {rule : String}
    (ruleSingle : SingleLine rule) : SingleLineRules (wiredTable table rule) kidoboChainName := by
  intro rules present
  have holds : (wiredTable table rule).chains kidoboChainName = some [rule] := by
    simp [wiredTable, show kidoboChainName ≠ kidoboStagingChainName by decide]
  obtain rfl := Option.some.inj (holds.symm.trans present)
  simpa using ruleSingle

theorem wiredTable_stagingSingle (table : FirewallTable) (rule : String) :
    SingleLineRules (wiredTable table rule) kidoboStagingChainName := by
  intro rules present
  simp [wiredTable] at present

theorem wiredTable_trimmed {table : FirewallTable} (rule : String)
    (trimmed : ∀ other ∈ table.inputRules, TrimmedLine other) :
    ∀ other ∈ (wiredTable table rule).inputRules, TrimmedLine other := by
  refine List.forall_mem_cons.mpr ⟨by decide, fun other member => ?_⟩
  exact trimmed other (mem_withoutJumps.mp (mem_withoutJumps.mp member).1).1

/-- When no command fails, the wiring ends successfully from any table whose
INPUT rules are trimmed lines and whose owned chains hold single-line rules:
one stable jump in front of the other INPUT rules in their order, exactly the
requested rule in the stable chain, no staging chain, and everything else as
before. A second call with a single-line set name changes nothing. -/
theorem ensureFirewallWiring_establishes (family : FirewallFamily) (tables : Tables)
    (setName : String) (chainAction : ChainAction)
    (stableSingle : SingleLineRules (tables family.binary) kidoboChainName)
    (stagingSingle : SingleLineRules (tables family.binary) kidoboStagingChainName)
    (trimmed : ∀ rule ∈ (tables family.binary).inputRules, TrimmedLine rule) :
    ∃ final : Tables,
      (∃ bound, ∀ turns, bound ≤ turns →
        exec statefulHandler (ensureFirewallWiring turns family setName chainAction) tables =
          (.returned (), final)) ∧
      (final family.binary).inputRules = jumpTo kidoboChainName ::
        (tables family.binary).inputRules.filter (fun rule =>
          rule ≠ jumpTo kidoboChainName ∧ rule ≠ jumpTo kidoboStagingChainName) ∧
      (final family.binary).chains kidoboChainName = some [setMatchRule setName chainAction] ∧
      (final family.binary).chains kidoboStagingChainName = none ∧
      (∀ chainName, chainName ≠ kidoboChainName → chainName ≠ kidoboStagingChainName →
        (final family.binary).chains chainName = (tables family.binary).chains chainName) ∧
      (∀ binary, binary ≠ family.binary → final binary = tables binary) ∧
      (SingleLine setName → ∃ bound, ∀ turns, bound ≤ turns →
        exec statefulHandler (ensureFirewallWiring turns family setName chainAction) final =
          (.returned (), final)) := by
  have notStaging : kidoboChainName ≠ kidoboStagingChainName := by decide
  let final := Function.update tables family.binary
    (wiredTable (tables family.binary) (setMatchRule setName chainAction))
  have same : final family.binary =
      wiredTable (tables family.binary) (setMatchRule setName chainAction) :=
    Function.update_self ..
  refine ⟨final, ⟨(tables family.binary).inputRules.length + 2, fun turns enough => ?_⟩, ?_, ?_, ?_,
    ?_, ?_, fun setNameSingle =>
      ⟨(final family.binary).inputRules.length + 2, fun turns enough => ?_⟩⟩
  · exact leaves_ensureFirewallWiring setName chainAction stableSingle stagingSingle trimmed
      enough tables rfl
  · rw [same]
    simp only [wiredTable, FirewallTable.inputRules_setInput, withoutJumps, List.filter_filter,
      List.cons.injEq, true_and]
    refine List.filter_congr fun rule _ => ?_
    rw [Bool.eq_iff_iff]
    simp [and_comm]
  · rw [same]
    simp [wiredTable, notStaging]
  · rw [same]
    simp [wiredTable]
  · intro chainName notStable notStage
    rw [same]
    simp [wiredTable, notStable, notStage]
  · intro binary different
    exact Function.update_of_ne different ..
  -- the tables that are left meet the hypotheses, and wiring them changes nothing
  · have again := leaves_ensureFirewallWiring setName chainAction
      (wiredTable_stableSingle (tables family.binary) (singleLine_setMatchRule setNameSingle))
      (wiredTable_stagingSingle (tables family.binary) (setMatchRule setName chainAction))
      (wiredTable_trimmed (setMatchRule setName chainAction) trimmed) (same ▸ enough) final same
    rwa [wiredTable_wiredTable, ← same, Function.update_eq_self] at again

/-- Tables with one rule in the stable chain and these INPUT rules. -/
def tablesWithInput (stableRule : String) (inputRules : List String) : Tables := fun _ =>
  { chains := fun name => if name = kidoboChainName then some [stableRule] else none
    inputRules := inputRules }

/-- A foreign rule between two stable jumps keeps its place behind the one jump. -/
theorem ensureFirewallWiring_establishes_between_jumps :
    ∃ final : Tables,
      (final "iptables").inputRules = ["-j kidobo-input", "-p tcp --dport 22 -j ACCEPT"] ∧
      (final "iptables").chains kidoboChainName =
        some ["-m set --match-set kidobo src -j DROP"] := by
  have single : ∀ chainName, SingleLineRules (tablesWithInput "-m set --match-set old src -j DROP"
      ["-j kidobo-input", "-p tcp --dport 22 -j ACCEPT", "-j kidobo-input"]
      FirewallFamily.ipv4.binary) chainName := by
    intro chainName rules present
    simp only [tablesWithInput, Option.ite_none_right_eq_some, Option.some.injEq] at present
    obtain ⟨-, rfl⟩ := present
    decide
  obtain ⟨final, -, input, stable, -⟩ := ensureFirewallWiring_establishes .ipv4
    (tablesWithInput "-m set --match-set old src -j DROP"
      ["-j kidobo-input", "-p tcp --dport 22 -j ACCEPT", "-j kidobo-input"])
    "kidobo" .drop (single _) (single _) (by decide)
  exact ⟨final, input.trans (by decide), stable.trans (by decide)⟩

/-- An INPUT rule padded with a blank lists as an exact jump that cannot be
deleted, and a stable rule that lists as three is counted three times: on both tables
the call never succeeds. -/
theorem unlistableRules_defeat_wiring :
    (∀ turns final, exec statefulHandler (ensureFirewallWiring turns .ipv4 "kidobo" .drop)
      (tablesWithInput "-m set --match-set old src -j DROP" ["-j kidobo-input "]) ≠
        (.returned (), final)) ∧
    (∀ turns final, exec statefulHandler (ensureFirewallWiring turns .ipv4 "kidobo" .drop)
      (tablesWithInput "x\n-A kidobo-input y\n-A kidobo-input z" []) ≠ (.returned (), final)) := by
  constructor
  · rintro (_ | turns) final returned
    · nomatch congrArg Prod.fst returned
    · have ended : (exec statefulHandler (ensureFirewallWiring (turns + 1) .ipv4 "kidobo" .drop)
          (tablesWithInput "-m set --match-set old src -j DROP" ["-j kidobo-input "])).1 =
            .failed (.commandFailed "iptables -w 5 -D INPUT -j kidobo-input" (.exited 1)
              missingRule.stderr) := by rfl
      rw [returned] at ended
      nomatch ended
  · intro turns final returned
    have ended : (exec statefulHandler (ensureFirewallWiring turns .ipv4 "kidobo" .drop)
        (tablesWithInput "x\n-A kidobo-input y\n-A kidobo-input z" [])).1 =
          .failed (.commandFailed "iptables -w 5 -D kidobo-input 1" (.exited 1)
            missingRule.stderr) := by rfl
    rw [returned] at ended
    nomatch ended

end Kidobo
