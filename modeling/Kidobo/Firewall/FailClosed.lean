import Kidobo.Firewall.Tables

/-!
# Fail-closed wiring

Every command that the wiring issues keeps enforcement reachable, whichever
commands fail and wherever the run stops. Each helper of the adapter has one
lemma in the faulty environment: which commands it may issue from a table, and
the table it leaves when it returns.

## Main results

* `ensureFirewallWiring_keeps_reachable`
* `embeddedListingLine_loses_reachable`: a rule text that contains a line feed
  and a listing line of its own makes the wiring empty the stable chain
-/

namespace Kidobo

open Foundation

/-- A step keeps the enforcement of one binary reachable. -/
def KeepsReachable (binary : String) : Step CommandLine (fun _ => CommandResponse) Tables :=
  fun before _ _ after => Reachable (before binary) → Reachable (after binary)

/-- The contract of a program on the table of one binary: every command keeps
enforcement reachable, and the program returns with `returns`. -/
def FailClosed {α : Type} (binary : String) (returns : α → FirewallTable → Prop)
    (program : FirewallProgram α) (table : FirewallTable) : Prop :=
  ∀ tables : Tables, tables binary = table →
    wp statefulStep (KeepsReachable binary) (fun value after => returns value (after binary))
      (fun _ _ => True) program tables

section Rules

variable {α β : Type} {binary : String} {table : FirewallTable}

theorem FailClosed.ret {returns : α → FirewallTable → Prop} {value : α}
    (holds : returns value table) : FailClosed binary returns (.ret value) table := by
  rintro tables rfl
  exact holds

theorem FailClosed.fail {returns : α → FirewallTable → Prop} (error : FirewallError) :
    FailClosed binary returns (.fail error) table :=
  fun _ _ => trivial

theorem FailClosed.spin {returns : α → FirewallTable → Prop} :
    FailClosed binary returns .spin table :=
  fun _ _ => trivial

theorem FailClosed.bind (middle : β → FirewallTable → Prop) {returns : α → FirewallTable → Prop}
    {program : FirewallProgram β} {next : β → FirewallProgram α}
    (first : FailClosed binary middle program table)
    (second : ∀ value after, middle value after → FailClosed binary returns (next value) after) :
    FailClosed binary returns (program >>= next) table := by
  intro tables same
  rw [wp_bind]
  exact wp_mono (first tables same)
    (fun value after holds => second value (after binary) holds after rfl) (fun _ _ _ => trivial)

/-- A command either works on the table or fails and leaves it. -/
theorem failClosed_runFirewall {args : List String}
    {returns : CommandResult → FirewallTable → Prop}
    (safe : Reachable table → Reachable (applyStatefulOperation table args).2)
    (works : returns (applyStatefulOperation table args).1 (applyStatefulOperation table args).2)
    (fails : ∀ result : CommandResult, result.status.success = false → returns result table) :
    FailClosed binary returns (runFirewall binary (withLockWait args)) table := by
  rintro tables rfl response after (⟨rfl, rfl⟩ | ⟨unsuccessful, rfl⟩)
  · refine ⟨fun reachable => ?_, ?_⟩
    · simpa [CommandLine.operation, withLockWait] using safe reachable
    · change returns (applyStatefulOperation (tables binary) args).1
        (Function.update tables binary (applyStatefulOperation (tables binary) args).2 binary)
      rwa [Function.update_self]
  · refine ⟨id, ?_⟩
    cases response with
    | ok result => exact fails result unsuccessful
    | error source => trivial

/-- A checked command returns only when it worked. -/
theorem failClosed_runChecked {args : List String}
    {returns : CommandResult → FirewallTable → Prop}
    (safe : Reachable table → Reachable (applyStatefulOperation table args).2)
    (works : (applyStatefulOperation table args).1.status.success = true →
      returns (applyStatefulOperation table args).1 (applyStatefulOperation table args).2) :
    FailClosed binary returns (runChecked binary args) table := by
  refine FailClosed.bind (fun result after => result.status.success = true →
    returns result after) (failClosed_runFirewall safe works ?_) ?_
  · intro result failed success
    rw [failed] at success
    exact absurd success (by decide)
  · intro result after holds
    split_ifs with success
    · exact FailClosed.ret (holds success)
    · exact FailClosed.fail _

/-- The soft variant returns when the command worked or failed as for a missing chain. -/
theorem failClosed_runCheckedAllowMissingChain {args : List String}
    {returns : FirewallTable → Prop}
    (safe : Reachable table → Reachable (applyStatefulOperation table args).2)
    (works : returns (applyStatefulOperation table args).2) (unchanged : returns table) :
    FailClosed binary (fun _ => returns) (runCheckedAllowMissingChain binary args) table := by
  refine FailClosed.bind (fun _ => returns)
    (failClosed_runFirewall safe works fun _ _ => unchanged) ?_
  intro result after holds
  split_ifs with accepted
  · exact FailClosed.ret holds
  · exact FailClosed.fail _

end Rules

/-! ### Commands that only add enforcement -/

theorem reachable_newChain {table : FirewallTable} (chainName : String)
    (reachable : Reachable table) : Reachable (table.newChain chainName) := by
  cases present : table.chains chainName with
  | some rules => rwa [FirewallTable.newChain_eq_self present]
  | none =>
    obtain ⟨⟨stable, stablePresent, nonempty⟩, jumps⟩ := reachable
    have notStable : kidoboChainName ≠ chainName := by
      rintro rfl
      simp [present] at stablePresent
    refine ⟨⟨stable, ?_, nonempty⟩, jumps.imp_right fun ⟨jump, staging, stagingPresent, inside⟩ => ?_⟩
    · rwa [FirewallTable.newChain, FirewallTable.chains_setChain_of_ne _ notStable]
    · have notStaging : kidoboStagingChainName ≠ chainName := by
        rintro rfl
        simp [present] at stagingPresent
      refine ⟨jump, staging, ?_, inside⟩
      rwa [FirewallTable.newChain, FirewallTable.chains_setChain_of_ne _ notStaging]

/-- Rules may be added to any chain. -/
theorem reachable_setChain_of_subset {table : FirewallTable} {chainName : String}
    {rules more : List String} (present : table.chains chainName = some rules)
    (subset : rules ⊆ more) (reachable : Reachable table) :
    Reachable (table.setChain chainName (some more)) := by
  obtain ⟨⟨stable, stablePresent, nonempty⟩, jumps⟩ := reachable
  have grown : ∀ name old, table.chains name = some old →
      ∃ new, (table.setChain chainName (some more)).chains name = some new ∧ old ⊆ new := by
    intro name old oldPresent
    by_cases same : name = chainName
    · subst same
      obtain rfl : rules = old := Option.some.inj (present.symm.trans oldPresent)
      exact ⟨more, FirewallTable.chains_setChain_self .., subset⟩
    · exact ⟨old, by rwa [FirewallTable.chains_setChain_of_ne _ same], List.Subset.refl _⟩
  constructor
  · obtain ⟨new, newPresent, kept⟩ := grown _ _ stablePresent
    refine ⟨new, newPresent, ?_⟩
    rintro rfl
    exact nonempty (List.subset_nil.mp kept)
  · refine jumps.imp_right fun ⟨jump, staging, stagingPresent, inside⟩ => ⟨jump, ?_⟩
    obtain ⟨new, newPresent, kept⟩ := grown _ _ stagingPresent
    exact ⟨new, newPresent, kept inside⟩

/-- Jumps may be added to INPUT. -/
theorem reachable_setInput_of_subset {table : FirewallTable} {inputRules : List String}
    (subset : table.inputRules ⊆ inputRules) (reachable : Reachable table) :
    Reachable (table.setInput inputRules) := by
  obtain ⟨stable, jumps⟩ := reachable
  exact ⟨stable, jumps.imp (fun jump => subset jump) fun ⟨jump, staging⟩ => ⟨subset jump, staging⟩⟩

/-! ### The helpers -/

section Helpers

variable {family : FirewallFamily} {table : FirewallTable} {chainName : String}

theorem failClosed_chainExists (notInput : chainName ≠ "INPUT") :
    FailClosed family.binary
      (fun present after => after = table ∧
        (present = true → ∃ rules, table.chains chainName = some rules))
      (chainExists family chainName) table := by
  have listed : (applyStatefulOperation table ["-S", chainName]).2 = table ∧
      ((applyStatefulOperation table ["-S", chainName]).1.status.success = true →
        ∃ rules, table.chains chainName = some rules) := by
    cases present : table.chains chainName with
    | none =>
      rw [apply_list_absent table notInput present]
      exact ⟨rfl, fun success => nomatch success⟩
    | some rules =>
      rw [apply_list_present table notInput present]
      exact ⟨rfl, fun _ => ⟨rules, rfl⟩⟩
  refine FailClosed.bind
    (fun result after => after = table ∧
      (result.status.success = true → ∃ rules, table.chains chainName = some rules))
    (failClosed_runFirewall (fun reachable => by rwa [listed.1]) listed ?_) ?_
  · intro result failed
    exact ⟨rfl, fun success => absurd (failed.symm.trans success) (by decide)⟩
  · rintro result after ⟨rfl, known⟩
    dsimp only
    split_ifs with success missing ambiguous
    · exact FailClosed.ret ⟨rfl, fun _ => known success⟩
    · exact FailClosed.ret ⟨rfl, fun impossible => absurd impossible (by decide)⟩
    · refine FailClosed.bind (fun _ later => later = after)
        (failClosed_runChecked (fun reachable => reachable) fun _ => rfl) ?_
      rintro listing later rfl
      split_ifs
      · exact FailClosed.fail _
      · exact FailClosed.ret ⟨rfl, fun impossible => absurd impossible (by decide)⟩
    · exact FailClosed.fail _

/-- After this step the chain exists and nothing else has changed, even when a
failing inspection made an existing chain look missing. -/
theorem failClosed_ensureChainExists (notInput : chainName ≠ "INPUT") :
    FailClosed family.binary (fun _ after => after = table.newChain chainName)
      (ensureChainExists family chainName) table := by
  refine FailClosed.bind _ (failClosed_chainExists notInput) ?_
  rintro present after ⟨rfl, exists_⟩
  cases present with
  | true =>
    obtain ⟨rules, isPresent⟩ := exists_ rfl
    exact FailClosed.ret (FirewallTable.newChain_eq_self isPresent).symm
  | false =>
    refine FailClosed.bind (fun _ later => later = after.newChain chainName)
      (failClosed_runChecked (reachable_newChain chainName) fun _ => rfl) ?_
    rintro _ later rfl
    exact FailClosed.ret rfl

/-- Deleting the counted rules one by one leaves the rules behind them, and is
safe when one more deletion in front of those never loses enforcement. -/
theorem failClosed_deleteFirstRules {kept : List String} (old : List String)
    (safe : ∀ rule dropped, Reachable (table.setChain chainName (some (rule :: dropped ++ kept))) →
      Reachable (table.setChain chainName (some (dropped ++ kept)))) :
    FailClosed family.binary (fun _ after => after = table.setChain chainName (some kept))
      (deleteFirstRules family.binary chainName old.length)
      (table.setChain chainName (some (old ++ kept))) := by
  induction old with
  | nil => exact FailClosed.ret rfl
  | cons rule old ih =>
    have deleted := apply_deleteFirst (table.setChain chainName (some (rule :: old ++ kept)))
      chainName (FirewallTable.chains_setChain_self ..)
    rw [FirewallTable.setChain_setChain] at deleted
    refine FailClosed.bind
      (fun _ after => after = table.setChain chainName (some (old ++ kept)))
      (failClosed_runChecked (fun reachable => ?_) fun _ => ?_) ?_
    · rw [deleted]
      exact safe rule old reachable
    · rw [deleted]
      rfl
    · rintro _ after rfl
      exact ih

/-- Appending the new rule before deleting the counted old ones leaves exactly
the new rule. -/
theorem failClosed_replace {rules : List String} (newRule : List String) (notInput : chainName ≠ "INPUT")
    (chainSingle : SingleLine chainName) (present : table.chains chainName = some rules)
    (singleLine : ∀ rule ∈ rules, SingleLine rule)
    (safe : ∀ rule dropped,
      Reachable (table.setChain chainName (some (rule :: dropped ++ [" ".intercalate newRule]))) →
      Reachable (table.setChain chainName (some (dropped ++ [" ".intercalate newRule])))) :
    FailClosed family.binary
      (fun _ after => after = table.setChain chainName (some [" ".intercalate newRule]))
      (do
        let current ← runChecked family.binary ["-S", chainName]
        let _ ← runChecked family.binary ("-A" :: chainName :: newRule)
        deleteFirstRules family.binary chainName (chainRuleCount current.stdout chainName))
      table := by
  have listed := apply_list_present table notInput present
  have appended := apply_append table chainName newRule present
  refine FailClosed.bind
    (fun current after => after = table ∧ current.stdout = renderRules chainName rules)
    (failClosed_runChecked (fun reachable => by rwa [listed]) fun _ => by simp [listed, succeeded])
    ?_
  rintro current after ⟨rfl, listing⟩
  refine FailClosed.bind
    (fun _ later =>
      later = after.setChain chainName (some (rules ++ [" ".intercalate newRule])))
    (failClosed_runChecked (fun reachable => ?_) fun _ => by rw [appended]) ?_
  · rw [appended]
    exact reachable_setChain_of_subset present (List.subset_append_left _ _) reachable
  · rintro _ later rfl
    rw [listing, chainRuleCount_renderRules chainSingle singleLine]
    exact failClosed_deleteFirstRules rules safe

/-- Removing the jumps to one chain is safe while another jump keeps
enforcement reachable; it leaves the chains and every other INPUT rule. -/
theorem failClosed_removeAllInputJumpsForChain {other : String} (turns : ℕ)
    (different : other ≠ jumpTo chainName) (inside : other ∈ table.inputRules)
    (reachable : ∀ inputRules, other ∈ inputRules → Reachable (table.setInput inputRules)) :
    FailClosed family.binary
      (fun _ after => ∃ inputRules, other ∈ inputRules ∧ after = table.setInput inputRules)
      (removeAllInputJumpsForChain family chainName turns) table := by
  induction turns generalizing table with
  | zero => exact FailClosed.spin
  | succ turns ih =>
    have done : ∃ inputRules, other ∈ inputRules ∧ table = table.setInput inputRules :=
      ⟨table.inputRules, inside, rfl⟩
    have deleted : ∃ inputRules, other ∈ inputRules ∧
        (applyStatefulOperation table ["-D", "INPUT", "-j", chainName]).2 =
          table.setInput inputRules := by
      rw [apply_deleteJump]
      split_ifs
      · exact done
      · exact ⟨_, (List.mem_erase_of_ne different).mpr inside, rfl⟩
      · exact done
    refine FailClosed.bind (fun _ after => after = table)
      (failClosed_runChecked (fun stays => stays) fun _ => rfl) ?_
    rintro input after rfl
    split_ifs with none
    · exact FailClosed.ret done
    · refine FailClosed.bind
        (fun _ later => ∃ inputRules, other ∈ inputRules ∧
          later = after.setInput inputRules)
        (failClosed_runFirewall (fun _ => ?_) deleted fun _ _ => done) ?_
      · obtain ⟨inputRules, stays, same⟩ := deleted
        rw [same]
        exact reachable inputRules stays
      · rintro result later ⟨inputRules, stays, rfl⟩
        split_ifs with success
        · exact ih stays fun inputRules member => reachable inputRules member
        · exact FailClosed.fail _

end Helpers

/-! ### The wiring -/

theorem singleLine_kidoboChainName : SingleLine kidoboChainName := by decide

theorem singleLine_kidoboStagingChainName : SingleLine kidoboStagingChainName := by decide

theorem kidoboChainName_ne_input : kidoboChainName ≠ "INPUT" := by decide

theorem kidoboStagingChainName_ne_input : kidoboStagingChainName ≠ "INPUT" := by decide

theorem kidoboStagingChainName_ne_kidoboChainName : kidoboStagingChainName ≠ kidoboChainName := by
  decide

theorem jumpTo_staging_ne_jumpTo_stable :
    jumpTo kidoboStagingChainName ≠ jumpTo kidoboChainName := by
  decide

/-- INPUT jumps to the stable chain, which has a rule. -/
def DirectlyWired (table : FirewallTable) : Prop :=
  (∃ rules, table.chains kidoboChainName = some rules ∧ rules ≠ []) ∧
    jumpTo kidoboChainName ∈ table.inputRules

theorem DirectlyWired.reachable {table : FirewallTable} (wired : DirectlyWired table) :
    Reachable table :=
  ⟨wired.1, Or.inl wired.2⟩

theorem DirectlyWired.setStaging {table : FirewallTable} (wired : DirectlyWired table)
    (rules : Option (List String)) :
    DirectlyWired (table.setChain kidoboStagingChainName rules) := by
  refine ⟨?_, wired.2⟩
  rw [FirewallTable.chains_setChain_of_ne _ kidoboStagingChainName_ne_kidoboChainName.symm]
  exact wired.1

/-- The stable chain may lose a rule while another one stays. -/
theorem reachable_setStable {table : FirewallTable} {more rules : List String} (nonempty : rules ≠ [])
    (reachable : Reachable (table.setChain kidoboChainName (some more))) :
    Reachable (table.setChain kidoboChainName (some rules)) := by
  refine ⟨⟨rules, FirewallTable.chains_setChain_self .., nonempty⟩, ?_⟩
  simpa only [FirewallTable.inputRules_setChain,
    FirewallTable.chains_setChain_of_ne _ kidoboStagingChainName_ne_kidoboChainName]
    using reachable.2

/-- The staging chain may lose a rule while its jump to the stable chain stays. -/
theorem reachable_setStaging {table : FirewallTable} {more rules : List String}
    (inside : jumpTo kidoboChainName ∈ rules)
    (reachable : Reachable (table.setChain kidoboStagingChainName (some more))) :
    Reachable (table.setChain kidoboStagingChainName (some rules)) := by
  have notStable := kidoboStagingChainName_ne_kidoboChainName.symm
  obtain ⟨stable, jumps⟩ := reachable
  refine ⟨?_, jumps.imp_right fun ⟨jump, _⟩ =>
    ⟨jump, rules, FirewallTable.chains_setChain_self .., inside⟩⟩
  simpa only [FirewallTable.chains_setChain_of_ne _ notStable] using stable

/-- Flushing the staging chain leaves a direct jump alone. -/
theorem DirectlyWired.flush {table : FirewallTable} (wired : DirectlyWired table) :
    DirectlyWired (applyStatefulOperation table ["-F", kidoboStagingChainName]).2 := by
  cases present : table.chains kidoboStagingChainName with
  | none => simpa [applyStatefulOperation, present] using wired
  | some rules =>
    rw [apply_flush table _ present]
    exact wired.setStaging _

/-- Deleting the staging chain leaves a direct jump alone. -/
theorem DirectlyWired.remove {table : FirewallTable} (wired : DirectlyWired table) :
    DirectlyWired (applyStatefulOperation table ["-X", kidoboStagingChainName]).2 := by
  rcases present : table.chains kidoboStagingChainName with _ | (_ | ⟨rule, rules⟩)
  · simpa [applyStatefulOperation, present] using wired
  · rw [apply_removeChain table _ present]
    exact wired.setStaging _
  · simpa [applyStatefulOperation, present] using wired

/-- From a table whose stable chain has a rule, the jump is moved through the
staging chain without losing enforcement. -/
theorem failClosed_normalizeInputJumpFailClosed {family : FirewallFamily} {table : FirewallTable}
    (turns : ℕ) (stable : ∃ rules, table.chains kidoboChainName = some rules ∧ rules ≠ [])
    (stagingSingle : SingleLineRules table kidoboStagingChainName) :
    FailClosed family.binary (fun _ after => DirectlyWired after)
      (normalizeInputJumpFailClosed turns family kidoboChainName) table := by
  have notStaging := kidoboStagingChainName_ne_kidoboChainName.symm
  refine FailClosed.bind _ (failClosed_ensureChainExists kidoboStagingChainName_ne_input) ?_
  rintro _ created rfl
  refine FailClosed.bind _
    (failClosed_replace ["-j", kidoboChainName] kidoboStagingChainName_ne_input
      singleLine_kidoboStagingChainName (FirewallTable.chains_newChain_self ..) stagingSingle.getD
      fun _ _ => reachable_setStaging (List.mem_append_right _ List.mem_cons_self)) ?_
  rintro _ staged rfl
  have stableStays : ∃ rules,
      ((table.newChain kidoboStagingChainName).setChain kidoboStagingChainName
        (some [" ".intercalate ["-j", kidoboChainName]])).chains kidoboChainName = some rules ∧
      rules ≠ [] := by
    simpa only [FirewallTable.newChain, FirewallTable.chains_setChain_of_ne _ notStaging]
      using stable
  have staged : ∃ rules,
      ((table.newChain kidoboStagingChainName).setChain kidoboStagingChainName
        (some [" ".intercalate ["-j", kidoboChainName]])).chains kidoboStagingChainName =
          some rules ∧ jumpTo kidoboChainName ∈ rules :=
    ⟨_, FirewallTable.chains_setChain_self .., List.mem_cons_self⟩
  generalize (table.newChain kidoboStagingChainName).setChain kidoboStagingChainName
    (some [" ".intercalate ["-j", kidoboChainName]]) = ready at stableStays staged
  -- activate the staging jump; from here on it carries enforcement
  refine FailClosed.bind
    (fun _ after =>
      after = ready.setInput (jumpTo kidoboStagingChainName :: ready.inputRules))
    (failClosed_runChecked (reachable_setInput_of_subset (List.subset_cons_self _ _)) fun _ => rfl)
    ?_
  rintro _ _ rfl
  refine FailClosed.bind _
    (failClosed_removeAllInputJumpsForChain turns jumpTo_staging_ne_jumpTo_stable
      List.mem_cons_self fun _ jump => ⟨stableStays, Or.inr ⟨jump, staged⟩⟩) ?_
  rintro _ _ ⟨staging, -, rfl⟩
  -- put the stable jump in front; from here on it carries enforcement
  refine FailClosed.bind
    (fun _ after =>
      after = ready.setInput (jumpTo kidoboChainName :: staging))
    (failClosed_runChecked (reachable_setInput_of_subset (List.subset_cons_self _ _)) fun _ => rfl)
    ?_
  rintro _ _ rfl
  refine FailClosed.bind _
    (failClosed_removeAllInputJumpsForChain turns jumpTo_staging_ne_jumpTo_stable.symm
      List.mem_cons_self fun _ jump => ⟨stableStays, Or.inl jump⟩) ?_
  rintro _ _ ⟨direct, jump, rfl⟩
  have wired : DirectlyWired (ready.setInput direct) := ⟨stableStays, jump⟩
  refine FailClosed.bind _
    (failClosed_runCheckedAllowMissingChain (fun _ => wired.flush.reachable) wired.flush wired) ?_
  intro _ flushed flushedWired
  refine FailClosed.bind _
    (failClosed_runCheckedAllowMissingChain (fun _ => flushedWired.remove.reachable)
      flushedWired.remove flushedWired) ?_
  intro _ removed removedWired
  refine FailClosed.bind (fun _ after => after = removed)
    (failClosed_runChecked (fun stays => stays) fun _ => rfl) ?_
  rintro finalInput _ rfl
  dsimp only
  split_ifs
  · exact FailClosed.fail _
  · exact FailClosed.ret removedWired

/-- The whole wiring keeps enforcement reachable at every command. -/
theorem failClosed_ensureFirewallWiring {family : FirewallFamily} {table : FirewallTable}
    (turns : ℕ) (setName : String) (chainAction : ChainAction)
    (stableSingle : SingleLineRules table kidoboChainName)
    (stagingSingle : SingleLineRules table kidoboStagingChainName) :
    FailClosed family.binary (fun _ after => DirectlyWired after)
      (ensureFirewallWiring turns family setName chainAction) table := by
  have notStable := kidoboStagingChainName_ne_kidoboChainName
  refine FailClosed.bind _ (failClosed_ensureChainExists kidoboChainName_ne_input) ?_
  rintro _ _ rfl
  refine FailClosed.bind _
    (failClosed_replace
      ["-m", "set", "--match-set", setName, "src", "-j", chainAction.asTarget]
      kidoboChainName_ne_input singleLine_kidoboChainName (FirewallTable.chains_newChain_self ..)
      stableSingle.getD
      fun _ _ => reachable_setStable (List.append_ne_nil_of_right_ne_nil _ (List.cons_ne_nil _ _)))
    ?_
  rintro _ _ rfl
  refine failClosed_normalizeInputJumpFailClosed turns
    ⟨_, FirewallTable.chains_setChain_self .., List.cons_ne_nil _ _⟩ ?_
  intro rules present
  rw [FirewallTable.newChain, FirewallTable.setChain_setChain,
    FirewallTable.chains_setChain_of_ne _ notStable] at present
  exact stagingSingle rules present

/-- Whichever commands fail and wherever the run stops, every command that the
wiring issues keeps enforcement reachable, so a run that starts protected is
protected at every point. The rules of the two owned chains are single lines of
a listing; INPUT is arbitrary. -/
theorem ensureFirewallWiring_keeps_reachable {family : FirewallFamily} {tables last : Tables}
    {trace : List (Event CommandLine (fun _ => CommandResponse) Tables)}
    {ending : Ending FirewallError Unit} (turns : ℕ) (setName : String) (chainAction : ChainAction)
    (stableSingle : SingleLineRules (tables family.binary) kidoboChainName)
    (stagingSingle : SingleLineRules (tables family.binary) kidoboStagingChainName)
    (runs : Runs statefulStep (ensureFirewallWiring turns family setName chainAction) tables trace
      last ending) :
    (∀ event ∈ trace,
      Reachable (event.before family.binary) → Reachable (event.after family.binary)) ∧
    (Reachable (tables family.binary) →
      (∀ event ∈ trace, Reachable (event.after family.binary)) ∧
        Reachable (last family.binary)) := by
  have kept := (runs.sound (failClosed_ensureFirewallWiring turns setName chainAction stableSingle
    stagingSingle tables rfl)).1
  exact ⟨kept, Runs.invariant (fun state : Tables => Reachable (state family.binary)) runs kept⟩

/-- Tables with one stable jump and a given list of stable rules. -/
def tablesWithStableRules (rules : List String) : Tables := fun _ =>
  { chains := fun name => if name = kidoboChainName then some rules else none
    inputRules := [jumpTo kidoboChainName] }

/-- Every command works, except that deletions time out. -/
def withoutDeletions : Handler CommandLine (fun _ => CommandResponse) Tables := fun tables line =>
  if line.operation.head? = some "-D" then (.error (.timeout line.command 5000), tables)
  else statefulHandler tables line

theorem statefulStep_withoutDeletions (tables : Tables) (line : CommandLine) :
    statefulStep tables line (withoutDeletions tables line).1 (withoutDeletions tables line).2 := by
  unfold withoutDeletions
  split_ifs
  · exact Or.inr ⟨trivial, rfl⟩
  · exact statefulStep_handler tables line

/-- A protected run that fails between the appended rule and the deletion of the old
one. -/
theorem ensureFirewallWiring_keeps_reachable_interrupted :
    ∃ trace last,
      Runs statefulStep (ensureFirewallWiring 4 .ipv4 "kidobo" .drop)
        (tablesWithStableRules ["-m set --match-set old src -j DROP"]) trace last
        (.failed (.commandExecution (.timeout "iptables" 5000))) ∧
      (last "iptables").chains kidoboChainName =
        some ["-m set --match-set old src -j DROP", "-m set --match-set kidobo src -j DROP"] ∧
      (∀ event ∈ trace, Reachable (event.after "iptables")) ∧ Reachable (last "iptables") := by
  have single : ∀ chainName, SingleLineRules
      (tablesWithStableRules ["-m set --match-set old src -j DROP"] "iptables") chainName := by
    intro chainName rules present
    simp only [tablesWithStableRules, Option.ite_none_right_eq_some, Option.some.injEq] at present
    obtain ⟨-, rfl⟩ := present
    decide
  have initially : Reachable
      (tablesWithStableRules ["-m set --match-set old src -j DROP"] "iptables") :=
    ⟨⟨_, rfl, List.cons_ne_nil _ _⟩, Or.inl List.mem_cons_self⟩
  obtain ⟨trace, runs⟩ := exists_runs_exec statefulStep_withoutDeletions
    (ensureFirewallWiring 4 .ipv4 "kidobo" .drop)
    (tablesWithStableRules ["-m set --match-set old src -j DROP"])
  have failed : (exec withoutDeletions (ensureFirewallWiring 4 .ipv4 "kidobo" .drop)
      (tablesWithStableRules ["-m set --match-set old src -j DROP"])).1 =
        .failed (.commandExecution (.timeout "iptables" 5000)) := by rfl
  rw [failed] at runs
  exact ⟨trace, _, runs, by decide,
    (ensureFirewallWiring_keeps_reachable 4 "kidobo" .drop (single _) (single _) runs).2
      initially⟩

/-- A rule text with a line feed may list as two rules of the chain. The count
read off the listing is then too large, and the deletions empty the chain. -/
theorem embeddedListingLine_loses_reachable :
    ¬∀ (tables last : Tables)
      (trace : List (Event CommandLine (fun _ => CommandResponse) Tables))
      (ending : Ending FirewallError Unit),
      (∀ chainName rules, (tables "iptables").chains chainName = some rules →
        ∀ rule ∈ rules, trim rule.toList ≠ []) →
      Runs statefulStep (ensureFirewallWiring 1 .ipv4 "kidobo" .drop) tables trace last ending →
      ∀ event ∈ trace, Reachable (event.before "iptables") → Reachable (event.after "iptables") := by
  intro claimed
  let tables := tablesWithStableRules ["x\n-A kidobo-input y"]
  have runs := runs_execSteps statefulStep_handler 5
    (ensureFirewallWiring 1 .ipv4 "kidobo" .drop) tables
  have nonblank : ∀ chainName rules, (tables "iptables").chains chainName = some rules →
      ∀ rule ∈ rules, trim rule.toList ≠ [] := by
    intro chainName rules present
    simp only [tables, tablesWithStableRules, Option.ite_none_right_eq_some,
      Option.some.injEq] at present
    obtain ⟨-, rfl⟩ := present
    decide
  have initially : Reachable (tables "iptables") :=
    ⟨⟨_, rfl, List.cons_ne_nil _ _⟩, Or.inl List.mem_cons_self⟩
  obtain ⟨⟨rules, present, nonempty⟩, -⟩ :=
    (Runs.invariant (fun state : Tables => Reachable (state "iptables")) runs
      (claimed _ _ _ _ nonblank runs) initially).2
  have emptied : ((execSteps statefulHandler 5 (ensureFirewallWiring 1 .ipv4 "kidobo" .drop)
      tables).2 "iptables").chains kidoboChainName = some [] := by decide
  exact nonempty (Option.some.inj (present.symm.trans emptied))

end Kidobo
