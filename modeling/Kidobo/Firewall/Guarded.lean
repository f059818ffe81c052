import Kidobo.Firewall.Cleanup
import Kidobo.Firewall.Wiring
import Kidobo.Foundation.Expand

/-!
# Wiring without a gap

Enforcement of a set is in place when the first rule of INPUT leads to the
stable chain, directly or through the staging chain, and the stable chain holds
nothing but matches of the set. The wiring keeps this at every command, also
while it replaces the rule and moves the jump. When it returns, the requested
rule is alone in the stable chain and its jump comes first. Rules and chains of
others are never touched.

## Main definitions

* `Guarded`: enforcement of a set is in place
* `Keeping`: every command keeps a property of the table
* `WiredWith`: what the last inspection of the wiring saw
* `WiringCommand`, `TablesFrame`: what the wiring issues, and what it leaves alone

## Main results

* `keeping_ensureFirewallWiring`: the contract of the wiring
* `wp_tablesFrame`: the frame of the wiring
* `WiredWith.inputRules_eq`: the INPUT rules behind the jump
-/

namespace Kidobo

open Foundation

/-! ### Enforcement in place -/

/-- Nothing but matches of the set. -/
def MatchesOnly (setName : String) (rules : List String) : Prop :=
  rules ≠ [] ∧ ∀ rule ∈ rules, ∃ action, rule = setMatchRule setName action

/-- The first rule of INPUT leads to matches of the set. -/
structure Guarded (setName : String) (table : FirewallTable) : Prop where
  stable : ∃ rules, table.chains kidoboChainName = some rules ∧ MatchesOnly setName rules
  entered : table.inputRules.head? = some (jumpTo kidoboChainName) ∨
    (table.inputRules.head? = some (jumpTo kidoboStagingChainName) ∧
      ∃ rules, table.chains kidoboStagingChainName = some rules ∧ rules ≠ [] ∧
        ∀ rule ∈ rules, rule = jumpTo kidoboChainName)

theorem MatchesOnly.concat {setName : String} {rules : List String} (action : ChainAction)
    (only : ∀ rule ∈ rules, ∃ action, rule = setMatchRule setName action) :
    MatchesOnly setName (rules ++ [setMatchRule setName action]) := by
  refine ⟨List.append_ne_nil_of_right_ne_nil _ (List.cons_ne_nil _ _), fun rule member => ?_⟩
  rcases List.mem_append.mp member with old | new
  · exact only rule old
  · exact ⟨action, List.mem_singleton.mp new⟩

theorem matchesOnly_singleton (setName : String) (action : ChainAction) :
    MatchesOnly setName [setMatchRule setName action] :=
  @MatchesOnly.concat setName [] action (by simp)

/-! ### Contracts that keep a property of a table -/

/-- A step keeps a property of the table of one binary. -/
def KeepsTable (kept : FirewallTable → Prop) (binary : String) :
    Step CommandLine (fun _ => CommandResponse) Tables :=
  fun before _ _ after => kept (before binary) → kept (after binary)

/-- Every command keeps the property, and the program returns with `returns`. -/
def Keeping {α : Type} (kept : FirewallTable → Prop) (binary : String)
    (returns : α → FirewallTable → Prop) (program : FirewallProgram α) (table : FirewallTable) :
    Prop :=
  ∀ tables : Tables, tables binary = table →
    wp statefulStep (KeepsTable kept binary) (fun value after => returns value (after binary))
      (fun _ _ => True) program tables

section Rules

variable {α β : Type} {kept : FirewallTable → Prop} {binary : String} {table : FirewallTable}

theorem Keeping.ret {returns : α → FirewallTable → Prop} {value : α} (holds : returns value table) :
    Keeping kept binary returns (.ret value) table := by
  rintro tables rfl
  exact holds

theorem Keeping.fail {returns : α → FirewallTable → Prop} (error : FirewallError) :
    Keeping kept binary returns (.fail error) table :=
  fun _ _ => trivial

theorem Keeping.spin {returns : α → FirewallTable → Prop} :
    Keeping kept binary returns .spin table :=
  fun _ _ => trivial

theorem Keeping.bind (middle : β → FirewallTable → Prop) {returns : α → FirewallTable → Prop}
    {program : FirewallProgram β} {next : β → FirewallProgram α}
    (first : Keeping kept binary middle program table)
    (second : ∀ value after, middle value after → Keeping kept binary returns (next value) after) :
    Keeping kept binary returns (program >>= next) table := by
  intro tables same
  rw [wp_bind]
  exact wp_mono (first tables same)
    (fun value after holds => second value (after binary) holds after rfl) (fun _ _ _ => trivial)

/-- A command either works on the table or fails and leaves it. -/
theorem keeping_runFirewall {args : List String} {returns : CommandResult → FirewallTable → Prop}
    (safe : kept table → kept (applyStatefulOperation table args).2)
    (works : returns (applyStatefulOperation table args).1 (applyStatefulOperation table args).2)
    (fails : ∀ result : CommandResult, result.status.success = false → returns result table) :
    Keeping kept binary returns (runFirewall binary (withLockWait args)) table := by
  -- a command either works on the table or fails without touching it
  rintro tables rfl response after (⟨rfl, rfl⟩ | ⟨unsuccessful, rfl⟩)
  · refine ⟨fun holds => ?_, ?_⟩
    · simpa [CommandLine.operation, withLockWait] using safe holds
    · change returns (applyStatefulOperation (tables binary) args).1
        (Function.update tables binary (applyStatefulOperation (tables binary) args).2 binary)
      rwa [Function.update_self]
  · refine ⟨id, ?_⟩
    cases response with
    | ok result => exact fails result unsuccessful
    | error source => trivial

/-- A checked command returns only when it worked. -/
theorem keeping_runChecked {args : List String} {returns : CommandResult → FirewallTable → Prop}
    (safe : kept table → kept (applyStatefulOperation table args).2)
    (works : (applyStatefulOperation table args).1.status.success = true →
      returns (applyStatefulOperation table args).1 (applyStatefulOperation table args).2) :
    Keeping kept binary returns (runChecked binary args) table := by
  refine Keeping.bind (fun result after => result.status.success = true → returns result after)
    (keeping_runFirewall safe works ?_) ?_
  · intro result failed success
    rw [failed] at success
    exact absurd success (by decide)
  · intro result after holds
    split_ifs with success
    · exact Keeping.ret (holds success)
    · exact Keeping.fail _

/-- The soft variant also returns when the command failed as for a missing chain. -/
theorem keeping_runCheckedAllowMissingChain {args : List String} {returns : FirewallTable → Prop}
    (safe : kept table → kept (applyStatefulOperation table args).2)
    (works : returns (applyStatefulOperation table args).2) (unchanged : returns table) :
    Keeping kept binary (fun _ => returns) (runCheckedAllowMissingChain binary args) table := by
  refine Keeping.bind (fun _ => returns) (keeping_runFirewall safe works fun _ _ => unchanged) ?_
  intro result after holds
  split_ifs
  · exact Keeping.ret holds
  · exact Keeping.fail _

end Rules

/-! ### The helpers -/

section Helpers

variable {kept : FirewallTable → Prop} {family : FirewallFamily} {table : FirewallTable}
  {chainName : String}

/-- An inspection changes nothing, and it does not invent a chain. -/
theorem keeping_chainExists (notInput : chainName ≠ "INPUT") :
    Keeping kept family.binary
      (fun present after => after = table ∧
        (present = true → ∃ rules, table.chains chainName = some rules))
      (chainExists family chainName) table := by
  have listed : (applyStatefulOperation table ["-S", chainName]).2 = table ∧
      ((applyStatefulOperation table ["-S", chainName]).1.status.success = true →
        ∃ rules, table.chains chainName = some rules) := by
    cases present : table.chains chainName with
    | none =>
      rw [apply_list_absent table notInput present]
      exact ⟨rfl, fun success => nomatch success⟩
    | some rules =>
      rw [apply_list_present table notInput present]
      exact ⟨rfl, fun _ => ⟨rules, rfl⟩⟩
  refine Keeping.bind
    (fun result after => after = table ∧
      (result.status.success = true → ∃ rules, table.chains chainName = some rules))
    (keeping_runFirewall (fun holds => by rwa [listed.1]) listed ?_) ?_
  · intro result failed
    exact ⟨rfl, fun success => absurd (failed.symm.trans success) (by decide)⟩
  · rintro result after ⟨rfl, known⟩
    dsimp only
    split_ifs with success missing ambiguous
    · exact Keeping.ret ⟨rfl, fun _ => known success⟩
    · exact Keeping.ret ⟨rfl, fun impossible => absurd impossible (by decide)⟩
    -- only the listing of everything tells a missing chain from a broken one
    · refine Keeping.bind (fun _ later => later = after)
        (keeping_runChecked (fun holds => holds) fun _ => rfl) ?_
      rintro listing later rfl
      split_ifs
      · exact Keeping.fail _
      · exact Keeping.ret ⟨rfl, fun impossible => absurd impossible (by decide)⟩
    · exact Keeping.fail _

/-- After this step the chain exists and nothing else has changed. -/
theorem keeping_ensureChainExists (notInput : chainName ≠ "INPUT")
    (safe : table.chains chainName = none → kept table → kept (table.newChain chainName)) :
    Keeping kept family.binary (fun _ after => after = table.newChain chainName)
      (ensureChainExists family chainName) table := by
  have newSafe : kept table → kept (table.newChain chainName) := by
    intro holds
    cases present : table.chains chainName with
    | none => exact safe present holds
    | some rules => rwa [FirewallTable.newChain_eq_self present]
  refine Keeping.bind _ (keeping_chainExists notInput) ?_
  rintro present after ⟨rfl, exists_⟩
  cases present with
  | true =>
    obtain ⟨rules, isPresent⟩ := exists_ rfl
    exact Keeping.ret (FirewallTable.newChain_eq_self isPresent).symm
  | false =>
    refine Keeping.bind (fun _ later => later = after.newChain chainName)
      (keeping_runChecked newSafe fun _ => rfl) ?_
    rintro _ later rfl
    exact Keeping.ret rfl

/-- Deleting the counted rules one by one leaves the rules behind them. -/
theorem keeping_deleteFirstRules {left : List String} (old : List String)
    (safe : ∀ rule dropped, rule :: dropped <:+ old →
      kept (table.setChain chainName (some (rule :: dropped ++ left))) →
      kept (table.setChain chainName (some (dropped ++ left)))) :
    Keeping kept family.binary (fun _ after => after = table.setChain chainName (some left))
      (deleteFirstRules family.binary chainName old.length)
      (table.setChain chainName (some (old ++ left))) := by
  -- on the rules still to be deleted; the first one goes in every turn
  induction old with
  | nil => exact Keeping.ret rfl
  | cons rule old ih =>
    have deleted := apply_deleteFirst (table.setChain chainName (some (rule :: old ++ left)))
      chainName (FirewallTable.chains_setChain_self ..)
    rw [FirewallTable.setChain_setChain] at deleted
    refine Keeping.bind (fun _ after => after = table.setChain chainName (some (old ++ left)))
      (keeping_runChecked (fun holds => ?_) fun _ => ?_) ?_
    · rw [deleted]
      exact safe rule old (List.suffix_refl _) holds
    · rw [deleted]
      rfl
    · rintro _ after rfl
      exact ih fun first dropped inside => safe first dropped (inside.trans (List.suffix_cons _ _))

/-- Appending the new rule before deleting the counted old ones leaves exactly
the new rule. -/
theorem keeping_replace {rules : List String} (newRule : List String)
    (notInput : chainName ≠ "INPUT") (chainSingle : SingleLine chainName)
    (present : table.chains chainName = some rules) (singleLine : ∀ rule ∈ rules, SingleLine rule)
    (append : kept table →
      kept (table.setChain chainName (some (rules ++ [" ".intercalate newRule]))))
    (delete : ∀ rule dropped, rule :: dropped <:+ rules →
      kept (table.setChain chainName (some (rule :: dropped ++ [" ".intercalate newRule]))) →
      kept (table.setChain chainName (some (dropped ++ [" ".intercalate newRule])))) :
    Keeping kept family.binary
      (fun _ after => after = table.setChain chainName (some [" ".intercalate newRule]))
      (do
        let current ← runChecked family.binary ["-S", chainName]
        let _ ← runChecked family.binary ("-A" :: chainName :: newRule)
        deleteFirstRules family.binary chainName (chainRuleCount current.stdout chainName))
      table := by
  have listed := apply_list_present table notInput present
  have appended := apply_append table chainName newRule present
  refine Keeping.bind
    (fun current after => after = table ∧ current.stdout = renderRules chainName rules)
    (keeping_runChecked (fun holds => by rwa [listed]) fun _ => by simp [listed, succeeded]) ?_
  rintro current after ⟨rfl, listing⟩
  refine Keeping.bind
    (fun _ later => later = after.setChain chainName (some (rules ++ [" ".intercalate newRule])))
    (keeping_runChecked (fun holds => ?_) fun _ => by rw [appended]) ?_
  · rw [appended]
    exact append holds
  -- the listing was taken before the rule was appended, so it counts the old rules
  · rintro _ later rfl
    rw [listing, chainRuleCount_renderRules chainSingle singleLine]
    exact keeping_deleteFirstRules rules delete

/-- Removing the jumps to one chain only erases rules of INPUT, and ends when
the listing shows none. -/
theorem keeping_removeAllInputJumpsForChain (possible : List String → Prop) (turns : ℕ)
    (starts : possible table.inputRules)
    (erase : ∀ rules, possible rules → possible (rules.erase (jumpTo chainName)))
    (safe : ∀ rules, possible rules → kept (table.setInput rules)) :
    Keeping kept family.binary
      (fun _ after => ∃ rules, possible rules ∧ after = table.setInput rules ∧
        (exactJumpPositions (renderRules "INPUT" rules) chainName).isEmpty = true)
      (removeAllInputJumpsForChain family chainName turns) table := by
  -- on the turns; what INPUT may look like is kept by every deletion
  induction turns generalizing table with
  | zero => exact Keeping.spin
  | succ turns ih =>
    have unchanged : ∃ rules, possible rules ∧ table = table.setInput rules :=
      ⟨table.inputRules, starts, rfl⟩
    have deleted : ∃ rules, possible rules ∧
        (applyStatefulOperation table ["-D", "INPUT", "-j", chainName]).2 =
          table.setInput rules := by
      rw [apply_deleteJump]
      split_ifs
      · exact unchanged
      · exact ⟨_, erase _ starts, rfl⟩
      · exact unchanged
    refine Keeping.bind
      (fun input after => after = table ∧ input.stdout = renderRules "INPUT" table.inputRules)
      (keeping_runChecked (fun stays => stays) fun _ => ⟨rfl, rfl⟩) ?_
    rintro input after ⟨rfl, listing⟩
    rw [listing]
    dsimp only
    split_ifs with none
    · exact Keeping.ret ⟨_, starts, rfl, none⟩
    · refine Keeping.bind
        (fun _ later => ∃ rules, possible rules ∧ later = after.setInput rules)
        (keeping_runFirewall (fun _ => ?_) deleted fun _ _ => unchanged) ?_
      · obtain ⟨rules, stays, same⟩ := deleted
        rw [same]
        exact safe rules stays
      · rintro result later ⟨rules, stays, rfl⟩
        split_ifs
        · exact ih stays fun inputRules member => safe inputRules member
        · exact Keeping.fail _

end Helpers

/-! ### The wiring -/

/-- What the last inspection of the wiring saw. -/
structure WiredWith (rule : String) (table : FirewallTable) : Prop where
  stable : table.chains kidoboChainName = some [rule]
  first : exactJumpPositions (renderRules "INPUT" table.inputRules) kidoboChainName = [1]
  unstaged : (exactJumpPositions (renderRules "INPUT" table.inputRules)
    kidoboStagingChainName).isEmpty = true

section Wiring

variable {setName : String} {family : FirewallFamily} {table : FirewallTable}

/-- With its jump in front, a stable chain of matches guards. -/
theorem guarded_of_stable {rules : List String} (stable : table.chains kidoboChainName = some rules)
    (only : MatchesOnly setName rules)
    (entered : table.inputRules.head? = some (jumpTo kidoboChainName)) : Guarded setName table :=
  ⟨⟨rules, stable, only⟩, Or.inl entered⟩

/-- The rules of the stable chain may be replaced by others of their kind. -/
theorem Guarded.setStable {rules more : List String}
    (guarded : Guarded setName (table.setChain kidoboChainName (some more)))
    (only : (∀ rule ∈ more, ∃ action, rule = setMatchRule setName action) →
      MatchesOnly setName rules) :
    Guarded setName (table.setChain kidoboChainName (some rules)) := by
  have notStable := kidoboStagingChainName_ne_kidoboChainName
  obtain ⟨⟨old, present, -, matching⟩, entered⟩ := guarded
  rw [FirewallTable.chains_setChain_self] at present
  obtain rfl := Option.some.inj present
  refine ⟨⟨rules, FirewallTable.chains_setChain_self .., only matching⟩, ?_⟩
  rw [FirewallTable.chains_setChain_of_ne _ notStable] at entered ⊢
  exact entered

/-- The staging chain may hold fewer or more jumps to the stable chain. -/
theorem Guarded.setStaging {rules more : List String}
    (guarded : Guarded setName (table.setChain kidoboStagingChainName (some more)))
    (nonempty : rules ≠ [])
    (jumps : ∀ rule ∈ rules, rule ∈ more ∨ rule = jumpTo kidoboChainName) :
    Guarded setName (table.setChain kidoboStagingChainName (some rules)) := by
  have notStaging := kidoboStagingChainName_ne_kidoboChainName.symm
  obtain ⟨⟨stable, present, only⟩, entered⟩ := guarded
  rw [FirewallTable.chains_setChain_of_ne _ notStaging] at present
  refine ⟨⟨stable, by rwa [FirewallTable.chains_setChain_of_ne _ notStaging], only⟩, ?_⟩
  refine entered.imp_right ?_
  rintro ⟨entered, old, oldPresent, _, allJump⟩
  refine ⟨entered, rules, FirewallTable.chains_setChain_self .., nonempty, fun rule member => ?_⟩
  rw [FirewallTable.chains_setChain_self] at oldPresent
  obtain rfl := Option.some.inj oldPresent
  rcases jumps rule member with old | jump
  · exact allJump rule old
  · exact jump

/-- Creating a missing chain gives way to nothing. -/
theorem Guarded.newChain {chainName : String} (absent : table.chains chainName = none)
    (guarded : Guarded setName table) : Guarded setName (table.newChain chainName) := by
  -- the new chain was missing, so every chain that the guard needs is another one
  have other : ∀ {name rules}, table.chains name = some rules →
      (table.newChain chainName).chains name = some rules := by
    intro name rules present
    have different : name ≠ chainName := by
      rintro rfl
      rw [absent] at present
      cases present
    rwa [FirewallTable.newChain, FirewallTable.chains_setChain_of_ne _ different]
  obtain ⟨⟨stable, present, only⟩, entered⟩ := guarded
  refine ⟨⟨stable, other present, only⟩, ?_⟩
  refine entered.imp_right ?_
  rintro ⟨entered, staging, stagingPresent, jumps⟩
  exact ⟨entered, staging, other stagingPresent, jumps⟩

/-- The jump moves through the staging chain and ends up in front. -/
theorem keeping_normalizeInputJumpFailClosed (turns : ℕ) {action : ChainAction}
    (stable : table.chains kidoboChainName = some [setMatchRule setName action])
    (stagingSingle : SingleLineRules table kidoboStagingChainName) :
    Keeping (Guarded setName) family.binary
      (fun _ after => WiredWith (setMatchRule setName action) after)
      (normalizeInputJumpFailClosed turns family kidoboChainName) table := by
  have notStaging := kidoboStagingChainName_ne_kidoboChainName.symm
  have only := matchesOnly_singleton setName action
  have jumpRule : " ".intercalate ["-j", kidoboChainName] = jumpTo kidoboChainName := by decide
  -- the staging chain becomes one jump to the stable chain
  refine Keeping.bind _ (keeping_ensureChainExists kidoboStagingChainName_ne_input
    Guarded.newChain) ?_
  rintro _ created rfl
  refine Keeping.bind _ (keeping_replace ["-j", kidoboChainName] kidoboStagingChainName_ne_input
    singleLine_kidoboStagingChainName (FirewallTable.chains_newChain_self ..)
    stagingSingle.getD ?_ ?_) ?_
  · intro guarded
    rw [← FirewallTable.setChain_eq_self (FirewallTable.chains_newChain_self table _)] at guarded
    refine guarded.setStaging (List.append_ne_nil_of_right_ne_nil _ (List.cons_ne_nil _ _)) ?_
    intro rule member
    rw [jumpRule] at member
    simpa using member
  · intro rule dropped _ guarded
    refine guarded.setStaging (List.append_ne_nil_of_right_ne_nil _ (List.cons_ne_nil _ _)) ?_
    intro other member
    exact Or.inl (List.mem_cons_of_mem _ member)
  rintro _ staged rfl
  rw [jumpRule, FirewallTable.newChain, FirewallTable.setChain_setChain]
  have stableStays : (table.setChain kidoboStagingChainName
      (some [jumpTo kidoboChainName])).chains kidoboChainName =
        some [setMatchRule setName action] := by
    rwa [FirewallTable.chains_setChain_of_ne _ notStaging]
  have staging := FirewallTable.chains_setChain_self table kidoboStagingChainName
    (some [jumpTo kidoboChainName])
  generalize table.setChain kidoboStagingChainName (some [jumpTo kidoboChainName]) = ready at *
  -- while the staging jump is in front, it leads to the matches
  have throughStaging : ∀ inputRules,
      inputRules.head? = some (jumpTo kidoboStagingChainName) →
      Guarded setName (ready.setInput inputRules) := fun inputRules front =>
    ⟨⟨_, stableStays, only⟩, Or.inr ⟨front, _, staging, List.cons_ne_nil _ _, by simp⟩⟩
  have direct : ∀ inputRules, inputRules.head? = some (jumpTo kidoboChainName) →
      Guarded setName (ready.setInput inputRules) := fun inputRules front =>
    guarded_of_stable stableStays only front
  have erase : ∀ {front gone : String} (rules : List String), front ≠ gone →
      rules.head? = some front → (rules.erase gone).head? = some front := by
    rintro front gone (_ | ⟨first, rest⟩) different isFirst
    · cases isFirst
    · obtain rfl := Option.some.inj isFirst
      rw [List.erase_cons_tail (by simpa using different)]
      rfl
  -- the staging jump goes in front before the stable jumps are removed
  refine Keeping.bind
    (fun _ after => after = ready.setInput (jumpTo kidoboStagingChainName :: ready.inputRules))
    (keeping_runChecked (fun _ => throughStaging _ rfl) fun _ => rfl) ?_
  rintro _ _ rfl
  refine Keeping.bind _ (keeping_removeAllInputJumpsForChain
    (fun rules => rules.head? = some (jumpTo kidoboStagingChainName)) turns rfl
    (fun rules => erase rules jumpTo_staging_ne_jumpTo_stable) throughStaging) ?_
  rintro _ _ ⟨afterStable, -, rfl, -⟩
  -- and the stable jump before the staging jumps are
  refine Keeping.bind
    (fun _ after => after = ready.setInput (jumpTo kidoboChainName :: afterStable))
    (keeping_runChecked (fun _ => direct _ rfl) fun _ => rfl) ?_
  rintro _ _ rfl
  refine Keeping.bind _ (keeping_removeAllInputJumpsForChain
    (fun rules => rules.head? = some (jumpTo kidoboChainName)) turns rfl
    (fun rules => erase rules jumpTo_staging_ne_jumpTo_stable.symm) direct) ?_
  rintro _ _ ⟨final, front, rfl, -⟩
  -- what is left of the staging chain no longer matters
  let Settled (after : FirewallTable) : Prop :=
    after.chains kidoboChainName = some [setMatchRule setName action] ∧ after.inputRules = final
  have guards : ∀ {after}, Settled after → Guarded setName after := by
    rintro after ⟨present, input⟩
    exact guarded_of_stable present only (by rw [input, front])
  have settledFlush : ∀ {after}, Settled after →
      Settled (applyStatefulOperation after ["-F", kidoboStagingChainName]).2 := by
    intro after settled
    cases present : after.chains kidoboStagingChainName with
    | none => simpa [applyStatefulOperation, present] using settled
    | some rules =>
      rw [apply_flush after _ present]
      exact ⟨by rw [FirewallTable.chains_setChain_of_ne _ notStaging, settled.1], settled.2⟩
  have settledRemove : ∀ {after}, Settled after →
      Settled (applyStatefulOperation after ["-X", kidoboStagingChainName]).2 := by
    intro after settled
    rcases present : after.chains kidoboStagingChainName with _ | (_ | ⟨rule, rules⟩)
    · simpa [applyStatefulOperation, present] using settled
    · rw [apply_removeChain after _ present]
      exact ⟨by rw [FirewallTable.chains_setChain_of_ne _ notStaging, settled.1], settled.2⟩
    · simpa [applyStatefulOperation, present] using settled
  have settled : Settled (ready.setInput final) := ⟨stableStays, rfl⟩
  refine Keeping.bind (fun _ after => Settled after)
    (keeping_runCheckedAllowMissingChain (fun _ => guards (settledFlush settled))
      (settledFlush settled) settled) ?_
  intro _ flushed flushedSettled
  refine Keeping.bind (fun _ after => Settled after)
    (keeping_runCheckedAllowMissingChain (fun _ => guards (settledRemove flushedSettled))
      (settledRemove flushedSettled) flushedSettled) ?_
  intro _ removed removedSettled
  -- the last inspection changes nothing and is believed
  refine Keeping.bind
    (fun listing after => after = removed ∧
      listing.stdout = renderRules "INPUT" removed.inputRules)
    (keeping_runChecked (fun stays => stays) fun _ => ⟨rfl, rfl⟩) ?_
  rintro finalInput _ ⟨rfl, listing⟩
  rw [listing]
  dsimp only
  split_ifs with unexpected
  · exact Keeping.fail _
  · rw [not_or, not_not, not_not] at unexpected
    exact Keeping.ret ⟨removedSettled.1, unexpected.1, unexpected.2⟩

/-- Whichever commands fail, the wiring keeps the set enforced at every command,
and when it returns, the last inspection saw what was asked for. -/
theorem keeping_ensureFirewallWiring (turns : ℕ) (action : ChainAction)
    (stableSingle : SingleLineRules table kidoboChainName)
    (stagingSingle : SingleLineRules table kidoboStagingChainName) :
    Keeping (Guarded setName) family.binary
      (fun _ after => WiredWith (setMatchRule setName action) after)
      (ensureFirewallWiring turns family setName action) table := by
  have notStable := kidoboStagingChainName_ne_kidoboChainName
  refine Keeping.bind _ (keeping_ensureChainExists kidoboChainName_ne_input Guarded.newChain) ?_
  rintro _ created rfl
  refine Keeping.bind _ (keeping_replace
    ["-m", "set", "--match-set", setName, "src", "-j", action.asTarget]
    kidoboChainName_ne_input singleLine_kidoboChainName (FirewallTable.chains_newChain_self ..)
    stableSingle.getD ?_ ?_) ?_
  · intro guarded
    rw [← FirewallTable.setChain_eq_self (FirewallTable.chains_newChain_self table _)] at guarded
    exact guarded.setStable (MatchesOnly.concat action)
  -- old matches go one by one, and the new one stays behind them
  · intro rule dropped _ guarded
    refine guarded.setStable fun matching => MatchesOnly.concat action fun other member => ?_
    exact matching other (List.mem_cons_of_mem _ (List.mem_append_left _ member))
  rintro _ _ rfl
  refine keeping_normalizeInputJumpFailClosed turns (FirewallTable.chains_setChain_self ..) ?_
  intro rules present
  rw [FirewallTable.newChain, FirewallTable.setChain_setChain,
    FirewallTable.chains_setChain_of_ne _ notStable] at present
  exact stagingSingle rules present

end Wiring

/-! ### What the wiring leaves alone -/

/-- A rule of INPUT that is no jump to a managed chain. -/
def isForeign (rule : String) : Bool :=
  !(rule == jumpTo kidoboChainName || rule == jumpTo kidoboStagingChainName)

/-- The rules of INPUT that others put there, in their order. -/
def foreignRules (table : FirewallTable) : List String := table.inputRules.filter isForeign

/-- The rules and chains of others are the same. -/
structure SameForeign (before after : FirewallTable) : Prop where
  rules : foreignRules after = foreignRules before
  chains : ∀ chainName, ¬Managed chainName → after.chains chainName = before.chains chainName

theorem SameForeign.refl (table : FirewallTable) : SameForeign table table :=
  ⟨rfl, fun _ _ => rfl⟩

theorem SameForeign.trans {first second third : FirewallTable} (front : SameForeign first second)
    (back : SameForeign second third) : SameForeign first third :=
  ⟨back.rules.trans front.rules,
    fun name other => (back.chains name other).trans (front.chains name other)⟩

/-- The commands of the wiring, which appends only rules that fit. -/
inductive WiringCommand (fits : List String → Prop) : List String → Prop where
  | listAll : WiringCommand fits ["-S"]
  | list (chainName : String) : WiringCommand fits ["-S", chainName]
  | newChain {chainName : String} (managed : Managed chainName) :
      WiringCommand fits ["-N", chainName]
  | append {chainName : String} (managed : Managed chainName) (rule : List String)
      (fit : fits rule) : WiringCommand fits ("-A" :: chainName :: rule)
  | insertJump {chainName : String} (managed : Managed chainName) :
      WiringCommand fits ["-I", "INPUT", "1", "-j", chainName]
  | deleteJump {chainName : String} (managed : Managed chainName) :
      WiringCommand fits ["-D", "INPUT", "-j", chainName]
  | deleteFirst {chainName : String} (managed : Managed chainName) :
      WiringCommand fits ["-D", chainName, "1"]
  | flush {chainName : String} (managed : Managed chainName) : WiringCommand fits ["-F", chainName]
  | deleteChain {chainName : String} (managed : Managed chainName) :
      WiringCommand fits ["-X", chainName]

/-- A rule that is one line of a listing. -/
def SingleRule (rule : List String) : Prop := SingleLine (" ".intercalate rule)

theorem sameForeign_setChain (table : FirewallTable) {chainName : String}
    (managed : Managed chainName) (rules : Option (List String)) :
    SameForeign table (table.setChain chainName rules) := by
  refine ⟨rfl, fun other unmanaged => FirewallTable.chains_setChain_of_ne table ?_ rules⟩
  rintro rfl
  exact unmanaged managed

theorem isForeign_jumpTo {chainName : String} (managed : Managed chainName) :
    isForeign (jumpTo chainName) = false := by
  rcases managed with rfl | rfl <;> simp [isForeign]

theorem sameForeign_insertJump (table : FirewallTable) {chainName : String}
    (managed : Managed chainName) :
    SameForeign table (table.setInput (jumpTo chainName :: table.inputRules)) :=
  ⟨List.filter_cons_of_neg (by simp [isForeign_jumpTo managed]), fun _ _ => rfl⟩

theorem sameForeign_eraseJump (table : FirewallTable) {chainName : String}
    (managed : Managed chainName) :
    SameForeign table (table.setInput (table.inputRules.erase (jumpTo chainName))) :=
  ⟨filter_erase_of_dropped (isForeign_jumpTo managed) _, fun _ _ => rfl⟩

/-- A command of the wiring does not touch what is foreign. -/
theorem sameForeign_apply {fits : List String → Prop} (table : FirewallTable)
    {operation : List String} (command : WiringCommand fits operation) :
    SameForeign table (applyStatefulOperation table operation).2 := by
  cases command with
  | listAll => exact .refl table
  | list chainName =>
    by_cases isInput : chainName = "INPUT"
    · subst isInput
      exact .refl table
    · cases present : table.chains chainName with
      | none =>
        rw [apply_list_absent table isInput present]
        exact .refl table
      | some rules =>
        rw [apply_list_present table isInput present]
        exact .refl table
  | newChain managed => exact sameForeign_setChain table managed _
  | append managed rule fit => exact sameForeign_setChain table managed _
  | insertJump managed => exact sameForeign_insertJump table managed
  | deleteJump managed =>
    rw [apply_deleteJump]
    split_ifs
    · exact .refl table
    · exact sameForeign_eraseJump table managed
    · exact .refl table
  | @deleteFirst chainName managed =>
    rcases present : table.chains chainName with _ | (_ | ⟨rule, rules⟩)
    · simpa [applyStatefulOperation, present] using SameForeign.refl table
    · simpa [applyStatefulOperation, present] using SameForeign.refl table
    · rw [apply_deleteFirst table chainName present]
      exact sameForeign_setChain table managed _
  | @flush chainName managed =>
    cases present : table.chains chainName with
    | none => simpa [applyStatefulOperation, present] using SameForeign.refl table
    | some rules =>
      rw [apply_flush table chainName present]
      exact sameForeign_setChain table managed _
  | @deleteChain chainName managed =>
    rcases present : table.chains chainName with _ | (_ | ⟨rule, rules⟩)
    · simpa [applyStatefulOperation, present] using SameForeign.refl table
    · rw [apply_removeChain table chainName present]
      exact sameForeign_setChain table managed _
    · simpa [applyStatefulOperation, present] using SameForeign.refl table

/-- A command line of the wiring of one binary. -/
def WiringLine (fits : List String → Prop) (binary : String) (line : CommandLine) : Prop :=
  line.command = binary ∧ WiringCommand fits line.operation

section Issued

open Program

variable {fits : List String → Prop} {family : FirewallFamily} {binary chainName : String}

theorem issues_runFirewall {args : List String} (command : WiringCommand fits args) :
    (runFirewall binary (withLockWait args)).Issues (WiringLine fits binary) := by
  refine Issues.bind (issues_perform ⟨rfl, command⟩) fun response => ?_
  cases response <;> trivial

theorem issues_runChecked {args : List String} (command : WiringCommand fits args) :
    (runChecked binary args).Issues (WiringLine fits binary) := by
  refine (issues_runFirewall command).bind fun result => ?_
  split_ifs <;> trivial

theorem issues_runCheckedAllowMissingChain {args : List String} (command : WiringCommand fits args) :
    (runCheckedAllowMissingChain binary args).Issues (WiringLine fits binary) := by
  refine (issues_runFirewall command).bind fun result => ?_
  split_ifs <;> trivial

theorem issues_ensureChainExists (managed : Managed chainName) :
    (ensureChainExists family chainName).Issues (WiringLine fits family.binary) := by
  have inspected : (chainExists family chainName).Issues (WiringLine fits family.binary) := by
    refine (issues_runFirewall (.list chainName)).bind fun result => ?_
    dsimp only
    split_ifs
    · trivial
    · trivial
    · refine (issues_runChecked .listAll).bind fun listing => ?_
      split_ifs <;> trivial
    · trivial
  refine inspected.bind fun present => ?_
  split_ifs
  · trivial
  · exact (issues_runChecked (.newChain managed)).bind fun _ => trivial

theorem issues_deleteFirstRules (managed : Managed chainName) (count : ℕ) :
    (deleteFirstRules binary chainName count).Issues (WiringLine fits binary) := by
  induction count with
  | zero => trivial
  | succ count ih => exact (issues_runChecked (.deleteFirst managed)).bind fun _ => ih

theorem issues_replace (managed : Managed chainName) {newRule : List String} (fit : fits newRule) :
    (do
      let current ← runChecked binary ["-S", chainName]
      let _ ← runChecked binary ("-A" :: chainName :: newRule)
      deleteFirstRules binary chainName (chainRuleCount current.stdout chainName) :
        FirewallProgram Unit).Issues (WiringLine fits binary) := by
  refine (issues_runChecked (.list chainName)).bind fun current => ?_
  refine (issues_runChecked (.append managed newRule fit)).bind fun _ => ?_
  exact issues_deleteFirstRules managed _

theorem issues_removeAllInputJumpsForChain (managed : Managed chainName) (turns : ℕ) :
    (removeAllInputJumpsForChain family chainName turns).Issues (WiringLine fits family.binary) := by
  induction turns with
  | zero => trivial
  | succ turns ih =>
    refine (issues_runChecked (.list "INPUT")).bind fun input => ?_
    split_ifs
    · trivial
    · refine (issues_runFirewall (.deleteJump managed)).bind fun result => ?_
      split_ifs
      · exact ih
      · trivial

theorem issues_ensureFirewallWiring (turns : ℕ) {setName : String} {action : ChainAction}
    (matchFits : fits ["-m", "set", "--match-set", setName, "src", "-j", action.asTarget])
    (jumpFits : fits ["-j", kidoboChainName]) :
    (ensureFirewallWiring turns family setName action).Issues (WiringLine fits family.binary) := by
  have stable : Managed kidoboChainName := Or.inl rfl
  have staging : Managed kidoboStagingChainName := Or.inr rfl
  refine (issues_ensureChainExists stable).bind fun _ => ?_
  refine (issues_replace stable matchFits).bind fun _ => ?_
  refine (issues_ensureChainExists staging).bind fun _ => ?_
  refine (issues_replace staging jumpFits).bind fun _ => ?_
  refine (issues_runChecked (.insertJump staging)).bind fun _ => ?_
  refine (issues_removeAllInputJumpsForChain stable turns).bind fun _ => ?_
  refine (issues_runChecked (.insertJump stable)).bind fun _ => ?_
  refine (issues_removeAllInputJumpsForChain staging turns).bind fun _ => ?_
  refine (issues_runCheckedAllowMissingChain (.flush staging)).bind fun _ => ?_
  refine (issues_runCheckedAllowMissingChain (.deleteChain staging)).bind fun _ => ?_
  refine (issues_runChecked (.list "INPUT")).bind fun _ => ?_
  dsimp only
  split_ifs <;> trivial

theorem issues_cleanupFirewallWiring (turns : ℕ) (family : FirewallFamily) :
    (cleanupFirewallWiring turns family).Issues (WiringLine fits family.binary) := by
  have stable : Managed kidoboChainName := Or.inl rfl
  have staging : Managed kidoboStagingChainName := Or.inr rfl
  refine (issues_removeAllInputJumpsForChain staging turns).attempt.bind fun _ => ?_
  refine (issues_removeAllInputJumpsForChain stable turns).attempt.bind fun _ => ?_
  refine (issues_runCheckedAllowMissingChain (.flush staging)).attempt.bind fun _ => ?_
  refine (issues_runCheckedAllowMissingChain (.deleteChain staging)).attempt.bind fun _ => ?_
  refine (issues_runCheckedAllowMissingChain (.flush stable)).attempt.bind fun _ => ?_
  refine (issues_runCheckedAllowMissingChain (.deleteChain stable)).attempt.bind fun _ => ?_
  refine (issues_ofExcept _).bind fun _ => ?_
  refine (issues_ofExcept _).bind fun _ => ?_
  refine (issues_ofExcept _).bind fun _ => ?_
  refine (issues_ofExcept _).bind fun _ => ?_
  exact (issues_ofExcept _).bind fun _ => issues_ofExcept _

end Issued

/-! ### Plain listings -/

/-- A listing shows every rule of INPUT and of the managed chains on a line of
its own. -/
structure PlainListings (table : FirewallTable) : Prop where
  managed : ∀ chainName, Managed chainName → SingleLineRules table chainName
  input : ∀ rule ∈ table.inputRules, TrimmedLine rule

theorem PlainListings.setChain {table : FirewallTable} (plain : PlainListings table)
    (chainName : String) {rules : Option (List String)}
    (single : ∀ kept, rules = some kept → ∀ rule ∈ kept, SingleLine rule) :
    PlainListings (table.setChain chainName rules) := by
  refine ⟨fun other managed kept present => ?_, plain.input⟩
  by_cases same : other = chainName
  · rw [same, FirewallTable.chains_setChain_self] at present
    exact single kept present
  · rw [FirewallTable.chains_setChain_of_ne _ same] at present
    exact plain.managed other managed kept present

/-- A command of the wiring keeps listings plain. -/
theorem plainListings_apply {table : FirewallTable} {operation : List String}
    (command : WiringCommand SingleRule operation) (plain : PlainListings table) :
    PlainListings (applyStatefulOperation table operation).2 := by
  have jump {chainName : String} (managed : Managed chainName) : TrimmedLine (jumpTo chainName) := by
    rcases managed with rfl | rfl <;> decide
  have old {chainName : String} (managed : Managed chainName) :
      ∀ rule ∈ (table.chains chainName).getD [], SingleLine rule :=
    (plain.managed chainName managed).getD
  -- each command puts into a listing only lines that are already plain, or a jump
  cases command with
  | listAll => exact plain
  | list chainName =>
    by_cases isInput : chainName = "INPUT"
    · subst isInput
      exact plain
    · cases present : table.chains chainName with
      | none =>
        rw [apply_list_absent table isInput present]
        exact plain
      | some rules =>
        rw [apply_list_present table isInput present]
        exact plain
  | newChain managed =>
    refine plain.setChain _ fun kept same => ?_
    obtain rfl := Option.some.inj same
    exact old managed
  | append managed rule single =>
    refine plain.setChain _ fun kept same => ?_
    obtain rfl := Option.some.inj same
    intro other member
    rcases List.mem_append.mp member with present | new
    · exact old managed other present
    · rwa [List.mem_singleton.mp new]
  | insertJump managed =>
    exact ⟨plain.managed, List.forall_mem_cons.mpr ⟨jump managed, plain.input⟩⟩
  | deleteJump managed =>
    rw [apply_deleteJump]
    split_ifs
    · exact plain
    · exact ⟨plain.managed, fun rule member => plain.input rule (List.mem_of_mem_erase member)⟩
    · exact plain
  | @deleteFirst chainName managed =>
    rcases present : table.chains chainName with _ | (_ | ⟨rule, rules⟩)
    · simpa [applyStatefulOperation, present] using plain
    · simpa [applyStatefulOperation, present] using plain
    · rw [apply_deleteFirst table chainName present]
      refine plain.setChain _ fun kept same => ?_
      obtain rfl := Option.some.inj same
      exact (List.forall_mem_cons.mp (plain.managed chainName managed _ present)).2
  | @flush chainName managed =>
    cases present : table.chains chainName with
    | none => simpa [applyStatefulOperation, present] using plain
    | some rules =>
      rw [apply_flush table chainName present]
      exact plain.setChain _ (by simp)
  | @deleteChain chainName managed =>
    rcases present : table.chains chainName with _ | (_ | ⟨rule, rules⟩)
    · simpa [applyStatefulOperation, present] using plain
    · rw [apply_removeChain table chainName present]
      exact plain.setChain _ (by simp)
    · simpa [applyStatefulOperation, present] using plain

/-! ### Every command line -/

/-- What is foreign in every table is the same, and plain listings stay plain. -/
structure TablesFrame (before after : Tables) : Prop where
  foreign : ∀ binary, SameForeign (before binary) (after binary)
  plain : ∀ binary, PlainListings (before binary) → PlainListings (after binary)

theorem TablesFrame.refl (tables : Tables) : TablesFrame tables tables :=
  ⟨fun _ => .refl _, fun _ => id⟩

theorem TablesFrame.trans {first second third : Tables} (front : TablesFrame first second)
    (back : TablesFrame second third) : TablesFrame first third :=
  ⟨fun binary => (front.foreign binary).trans (back.foreign binary),
    fun binary plain => back.plain binary (front.plain binary plain)⟩

/-- Whatever is answered, a command of the wiring does not touch what is foreign. -/
theorem sameForeign_step {fits : List String → Prop} {before after : Tables} {line : CommandLine}
    {response : CommandResponse} (command : WiringCommand fits line.operation)
    (stepped : statefulStep before line response after) (binary : String) :
    SameForeign (before binary) (after binary) := by
  rcases stepped with ⟨-, rfl⟩ | ⟨-, rfl⟩
  · by_cases same : binary = line.command
    · rw [same, Function.update_self]
      exact sameForeign_apply _ command
    · rw [Function.update_of_ne same]
      exact .refl _
  · exact .refl _

theorem tablesFrame_step {before after : Tables} {line : CommandLine} {response : CommandResponse}
    (command : WiringCommand SingleRule line.operation)
    (stepped : statefulStep before line response after) : TablesFrame before after := by
  refine ⟨sameForeign_step command stepped, fun binary plain => ?_⟩
  rcases stepped with ⟨-, rfl⟩ | ⟨-, rfl⟩
  · by_cases same : binary = line.command
    · rw [same] at plain ⊢
      rw [Function.update_self]
      exact plainListings_apply command plain
    · rwa [Function.update_of_ne same]
  · exact plain

/-- Whatever fails, a wiring program leaves alone what is foreign. -/
theorem wp_tablesFrame {α : Type} {program : FirewallProgram α}
    (issues : program.Issues fun line => WiringCommand SingleRule line.operation) (tables : Tables) :
    wp statefulStep (fun before _ _ after => TablesFrame before after)
      (fun _ last => TablesFrame tables last) (fun _ last => TablesFrame tables last) program
      tables :=
  wp_related_of_issues TablesFrame.refl TablesFrame.trans issues
    (fun _ _ _ _ => tablesFrame_step) tables

/-- The position of a rule that jumps to the chain. -/
def jumpPosition (chainName : String) : String × ℕ → Option ℕ := fun (rule, idx) =>
  if rule = jumpTo chainName then some (idx + 1) else none

/-- A jump that is seen at position one only is the first rule, and the only jump. -/
theorem eq_jump_cons_of_positions {chainName : String} {rules : List String}
    (trimmed : ∀ rule ∈ rules, TrimmedLine rule)
    (positions : exactJumpPositions (renderRules "INPUT" rules) chainName = [1]) :
    ∃ rest, rules = jumpTo chainName :: rest ∧ jumpTo chainName ∉ rest := by
  rw [exactJumpPositions_renderRules trimmed] at positions
  change rules.zipIdx.filterMap (jumpPosition chainName) = [1] at positions
  cases rules with
  | nil => cases positions
  | cons front rest =>
    have later : ∀ found ∈ (rest.zipIdx 1).filterMap (jumpPosition chainName), 1 < found := by
      intro found member
      obtain ⟨⟨rule, idx⟩, inside, same⟩ := List.mem_filterMap.mp member
      have bound := List.le_snd_of_mem_zipIdx inside
      dsimp only [jumpPosition] at same
      split_ifs at same
      cases same
      exact Nat.lt_succ_of_le bound
    have split : (jumpPosition chainName (front, 0)).toList ++
        (rest.zipIdx 1).filterMap (jumpPosition chainName) = [1] := by
      rw [List.zipIdx_cons, List.filterMap_cons] at positions
      cases found : jumpPosition chainName (front, 0) <;> simpa [found] using positions
    by_cases isJump : front = jumpTo chainName
    · subst isJump
      have none : (rest.zipIdx 1).filterMap (jumpPosition chainName) = [] := by
        simpa [jumpPosition] using split
      -- a second jump would show at a position of its own
      refine ⟨rest, rfl, fun member => ?_⟩
      obtain ⟨idx, bound, found⟩ := List.getElem_of_mem member
      have inside : (jumpTo chainName, 1 + idx) ∈ rest.zipIdx 1 := by
        rw [List.mk_add_mem_zipIdx_iff_getElem?]
        exact List.getElem?_eq_some_iff.mpr ⟨bound, found⟩
      simpa [jumpPosition] using List.filterMap_eq_nil_iff.mp none _ inside
    -- position one would be found behind the first rule
    · have found : 1 ∈ (rest.zipIdx 1).filterMap (jumpPosition chainName) := by
        rw [show jumpPosition chainName (front, 0) = none from if_neg isJump, Option.toList_none,
          List.nil_append] at split
        rw [split]
        exact List.mem_cons_self
      exact absurd (later 1 found) (Nat.lt_irrefl 1)

/-- Behind the one jump stand the foreign rules. -/
theorem WiredWith.inputRules_eq {rule : String} {table : FirewallTable} (wired : WiredWith rule table)
    (trimmed : ∀ rule ∈ table.inputRules, TrimmedLine rule) :
    table.inputRules = jumpTo kidoboChainName :: foreignRules table := by
  have unstaged := (exactJumpPositions_isEmpty trimmed).mp wired.unstaged
  obtain ⟨rest, input, once⟩ := eq_jump_cons_of_positions trimmed wired.first
  have foreign : ∀ rule ∈ rest, isForeign rule = true := by
    intro rule member
    have notStaging : rule ≠ jumpTo kidoboStagingChainName := by
      rintro rfl
      exact unstaged (by rw [input]; exact List.mem_cons_of_mem _ member)
    have notStable : rule ≠ jumpTo kidoboChainName := by
      rintro rfl
      exact once member
    simp [isForeign, notStaging, notStable]
  rw [foreignRules, input, List.filter_cons_of_neg (by simp [isForeign]),
    List.filter_eq_self.mpr foreign]

end Kidobo
