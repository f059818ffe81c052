import Kidobo.Firewall.Guarded
import Kidobo.Firewall.ExactReplacement
import Kidobo.Foundation.RuleChains

/-!
# What happens to a packet

A packet is judged by the rules of INPUT from its source address. Jumps to the
managed chains and set matches mean what the tools document; every other rule may
mean anything, be it a built-in target or a jump to a chain of others. Where
a set is guarded its addresses are blocked, and where the wiring has returned
the packets of all other sources are judged by the rules of others alone.

## Main definitions

* `Verdict`, `Matches`, `RuleMeaning`: what a rule does with a packet
* `Judged`: what becomes of the packet
* `BlocksSet`, `EnforcesSet`: what becomes of the packets from a set, and of all others

## Main results

* `Guarded.blocks`: a guarded set is blocked
* `WiredWith.judged_iff`: what the wiring changes for a packet
* `ensureFirewallWiring_blocks`: both, over every run of the wiring
* `RuleMeaning.ofForeign`: any meaning of the other rules can be extended
-/

namespace Kidobo

open Foundation

/-- What becomes of a packet that a rule decides on. -/
inductive Verdict where
  | accept
  | drop
  | reject
  /-- Handed to another target that ends the run. -/
  | other (target : String)
  deriving DecidableEq, Repr

/-- The verdict of the rule target of an action. -/
def ChainAction.verdict : ChainAction → Verdict
  | drop => .drop
  | reject => .reject

/-- The source address is in the set of this name. -/
def Matches (family : AddressFamily) (sets : KernelSets CanonicalCidr) (setName : String)
    (source : ℕ) : Prop :=
  ∃ set, sets setName = some set ∧ source ∈ familyAddresses family set.entries

/-- What every rule does with a packet from a source: a jump to a managed chain
jumps, a set match takes its action when the source is in the set, and the others
do anything. -/
structure RuleMeaning (family : AddressFamily) (sets : KernelSets CanonicalCidr) (source : ℕ) where
  target : String → Target String Verdict
  jump : ∀ chainName, Managed chainName → target (jumpTo chainName) = .jump chainName
  matched : ∀ setName action, Matches family sets setName source →
    target (setMatchRule setName action) = .decide action.verdict
  unmatched : ∀ setName action, ¬Matches family sets setName source →
    target (setMatchRule setName action) = .pass

section Judgement

variable {family : AddressFamily} {sets : KernelSets CanonicalCidr} {source : ℕ}
  {meaning : RuleMeaning family sets source} {table : FirewallTable} {setName : String}

/-- The rules of INPUT judge the packet so, or leave it to the policy. -/
def Judged (meaning : RuleMeaning family sets source) (table : FirewallTable)
    (outcome : Option Verdict) : Prop :=
  Traverses meaning.target table.chains table.inputRules outcome

/-- The packet is dropped or rejected. -/
def Blocked (meaning : RuleMeaning family sets source) (table : FirewallTable) : Prop :=
  ∃ action : ChainAction, Judged meaning table (some action.verdict)

/-- Matches of the set decide on a packet from an address of the set. -/
theorem MatchesOnly.decides {rules : List String} (only : MatchesOnly setName rules)
    (inside : Matches family sets setName source) :
    ∃ action : ChainAction,
      Traverses meaning.target table.chains rules (some action.verdict) := by
  obtain ⟨nonempty, matching⟩ := only
  obtain ⟨first, rest, rfl⟩ := List.exists_cons_of_ne_nil nonempty
  obtain ⟨action, rfl⟩ := matching first List.mem_cons_self
  exact ⟨action, .decide rest (meaning.matched setName action inside)⟩

/-- Where a set is guarded, its addresses are blocked. -/
theorem Guarded.blocks (guarded : Guarded setName table)
    (inside : Matches family sets setName source) : Blocked meaning table := by
  obtain ⟨⟨stable, present, only⟩, entered⟩ := guarded
  have managed : Managed kidoboChainName := Or.inl rfl
  have stagingManaged : Managed kidoboStagingChainName := Or.inr rfl
  obtain ⟨action, decided⟩ :=
    @MatchesOnly.decides family sets source meaning table setName stable only inside
  refine ⟨action, ?_⟩
  rw [Judged]
  -- directly through the stable jump, or through the staging chain
  rcases entered with front | ⟨front, staging, stagingPresent, nonempty, jumps⟩
  · obtain ⟨rest, input⟩ := List.head?_eq_some_iff.mp front
    rw [input]
    exact .stay rest (meaning.jump _ managed) present decided
  · obtain ⟨rest, input⟩ := List.head?_eq_some_iff.mp front
    obtain ⟨first, others, rfl⟩ := List.exists_cons_of_ne_nil nonempty
    obtain rfl := jumps first List.mem_cons_self
    rw [input]
    exact .stay rest (meaning.jump _ stagingManaged) stagingPresent
      (.stay others (meaning.jump _ managed) present decided)

/-- After the wiring has returned, a packet from the set gets the verdict of the
action, and any other one is judged by the rules of others alone. -/
theorem WiredWith.judged_iff {action : ChainAction} {outcome : Option Verdict}
    (wired : WiredWith (setMatchRule setName action) table)
    (trimmed : ∀ rule ∈ table.inputRules, TrimmedLine rule) :
    (Matches family sets setName source →
      (Judged meaning table outcome ↔ outcome = some action.verdict)) ∧
    (¬Matches family sets setName source →
      (Judged meaning table outcome ↔
        Traverses meaning.target table.chains (foreignRules table) outcome)) := by
  have managed : Managed kidoboChainName := Or.inl rfl
  rw [Judged, wired.inputRules_eq trimmed]
  constructor
  · intro inside
    have decided : Traverses meaning.target table.chains [setMatchRule setName action]
        (some action.verdict) := .decide [] (meaning.matched setName action inside)
    constructor
    · exact fun runs => runs.unique (.stay _ (meaning.jump _ managed) wired.stable decided)
    · rintro rfl
      exact .stay _ (meaning.jump _ managed) wired.stable decided
  · intro outside
    exact traverses_jump_of_returns (meaning.jump _ managed) wired.stable
      (.pass (meaning.unmatched setName action outside) .nil)

end Judgement

/-! ### While the wiring runs -/

/-- Every source in the set is blocked. -/
def BlocksSet (setName : String) (table : FirewallTable) : Prop :=
  ∀ (family : AddressFamily) (sets : KernelSets CanonicalCidr) (source : ℕ)
    (meaning : RuleMeaning family sets source),
    Matches family sets setName source → Blocked meaning table

/-- A source in the set gets the verdict of the action, and any other one is
judged by the rules that others had put into INPUT before. -/
structure EnforcesSet (setName : String) (action : ChainAction) (before after : FirewallTable) :
    Prop where
  inside : ∀ {family : AddressFamily} {sets : KernelSets CanonicalCidr} {source : ℕ}
    (meaning : RuleMeaning family sets source) (outcome : Option Verdict),
    Matches family sets setName source →
      (Judged meaning after outcome ↔ outcome = some action.verdict)
  outside : ∀ {family : AddressFamily} {sets : KernelSets CanonicalCidr} {source : ℕ}
    (meaning : RuleMeaning family sets source) (outcome : Option Verdict),
    ¬Matches family sets setName source →
      (Judged meaning after outcome ↔
        Traverses meaning.target after.chains (foreignRules before) outcome)

theorem WiredWith.enforcesSet {setName : String} {action : ChainAction} {before after : FirewallTable}
    (wired : WiredWith (setMatchRule setName action) after) (plain : PlainListings after)
    (foreign : SameForeign before after) : EnforcesSet setName action before after := by
  constructor
  · intro family sets source meaning outcome inside
    exact (wired.judged_iff plain.input).1 inside
  · intro family sets source meaning outcome outside
    rw [← foreign.rules]
    exact (wired.judged_iff plain.input).2 outside

/-- The wiring keeps a guarded set guarded, and on returning it enforces the action. -/
theorem wp_ensureFirewallWiring_guarded {family : FirewallFamily} {setName : String}
    {tables : Tables} (turns : ℕ) (action : ChainAction)
    (plain : PlainListings (tables family.binary)) (single : SingleLine setName) :
    wp statefulStep (KeepsTable (Guarded setName) family.binary)
      (fun _ last => EnforcesSet setName action (tables family.binary) (last family.binary))
      (fun _ _ => True) (ensureFirewallWiring turns family setName action) tables := by
  have keeps : Keeping (Guarded setName) family.binary
      (fun _ after => WiredWith (setMatchRule setName action) after)
      (ensureFirewallWiring turns family setName action) (tables family.binary) :=
    keeping_ensureFirewallWiring turns action (plain.managed kidoboChainName (Or.inl rfl))
      (plain.managed kidoboStagingChainName (Or.inr rfl))
  have singleJump : SingleLine (" ".intercalate ["-j", kidoboChainName]) := by decide
  have issues : (ensureFirewallWiring turns family setName action).Issues fun line =>
      WiringCommand SingleRule line.operation :=
    (issues_ensureFirewallWiring turns (singleLine_setMatchRule single) singleJump).mono
      fun _ wiring => wiring.2
  -- the guard is the invariant, and the frame tells what the other rules still are
  have both := wp_weaken (wp_and (keeps tables rfl) (wp_tablesFrame issues tables))
    fun _ _ _ _ kept => kept.1
  refine wp_mono both ?_ fun _ _ _ => trivial
  rintro _ last ⟨wired, frame⟩
  exact wired.enforcesSet (frame.plain _ plain) (frame.foreign _)

/-- Whichever commands of the wiring fail and wherever it stops, the sources of a
guarded set are blocked after every command. A wiring that returns lets the action
decide on the sources of the set and leaves all others to the rules of others. -/
theorem ensureFirewallWiring_blocks {family : FirewallFamily} {setName : String}
    {tables last : Tables} {trace : List (Event CommandLine (fun _ => CommandResponse) Tables)}
    {ending : Ending FirewallError Unit} (turns : ℕ) (action : ChainAction)
    (plain : PlainListings (tables family.binary)) (single : SingleLine setName)
    (runs : Runs statefulStep (ensureFirewallWiring turns family setName action) tables trace
      last ending) :
    (Guarded setName (tables family.binary) →
      (∀ event ∈ trace, BlocksSet setName (event.after family.binary)) ∧
        BlocksSet setName (last family.binary)) ∧
    (ending = .returned () →
      EnforcesSet setName action (tables family.binary) (last family.binary)) := by
  have sound := runs.sound (wp_ensureFirewallWiring_guarded turns action plain single)
  have blocks {table : FirewallTable} (guarded : Guarded setName table) :
      BlocksSet setName table := fun _ _ _ _ inside => guarded.blocks inside
  constructor
  · intro guarded
    obtain ⟨after, atEnd⟩ := Runs.invariant (fun state : Tables => Guarded setName (state family.binary))
      runs sound.1 guarded
    exact ⟨fun event member => blocks (after event member), blocks atEnd⟩
  -- only a wiring that returns has seen the last inspection
  · rintro rfl
    exact sound.2

/-- Tables that enforce the set with this action. -/
def enforcedTables (action : ChainAction) : Tables :=
  tablesWithStableRules [setMatchRule "kidobo" action]

theorem plainListings_enforcedTables (action : ChainAction) :
    PlainListings (enforcedTables action "iptables") := by
  refine ⟨fun chainName _ rules present => ?_, by cases action <;> decide⟩
  simp only [enforcedTables, tablesWithStableRules, Option.ite_none_right_eq_some,
    Option.some.injEq] at present
  obtain ⟨-, rfl⟩ := present
  cases action <;> decide

theorem guarded_enforcedTables (action : ChainAction) :
    Guarded "kidobo" (enforcedTables action "iptables") :=
  ⟨⟨_, rfl, matchesOnly_singleton "kidobo" action⟩, Or.inl rfl⟩

/-- From a set that is dropped to one that is rejected: a run that fails between the
appended rule and the deletion of the old one, and a run that returns. -/
theorem ensureFirewallWiring_blocks_rejecting :
    (∃ trace last,
      Runs statefulStep (ensureFirewallWiring 4 .ipv4 "kidobo" .reject) (enforcedTables .drop)
        trace last (.failed (.commandExecution (.timeout "iptables" 5000))) ∧
      (last "iptables").chains kidoboChainName =
        some [setMatchRule "kidobo" .drop, setMatchRule "kidobo" .reject] ∧
      (∀ event ∈ trace, BlocksSet "kidobo" (event.after "iptables")) ∧
      BlocksSet "kidobo" (last "iptables")) ∧
    ∃ trace last,
      Runs statefulStep (ensureFirewallWiring 4 .ipv4 "kidobo" .reject) (enforcedTables .drop)
        trace last (.returned ()) ∧
      (∀ event ∈ trace, BlocksSet "kidobo" (event.after "iptables")) ∧
      EnforcesSet "kidobo" .reject (enforcedTables .drop "iptables") (last "iptables") := by
  have plain := plainListings_enforcedTables .drop
  have guarded := guarded_enforcedTables .drop
  constructor
  -- both rules stand in the chain when the deletion of the old one times out
  · have failed : failsWith (fun error last =>
        decide (error = .commandExecution (.timeout "iptables" 5000) ∧
          (last "iptables").chains kidoboChainName =
            some [setMatchRule "kidobo" .drop, setMatchRule "kidobo" .reject]))
        (exec withoutDeletions (ensureFirewallWiring 4 .ipv4 "kidobo" .reject)
          (enforcedTables .drop)) = true := by decide
    obtain ⟨error, last, ended, shown⟩ := failsWith_eq_true.mp failed
    obtain ⟨rfl, both⟩ := of_decide_eq_true shown
    obtain ⟨trace, runs⟩ := exists_runs_of_exec statefulStep_withoutDeletions ended
    exact ⟨trace, last, runs, both,
      (ensureFirewallWiring_blocks 4 .reject plain (by decide) runs).1 guarded⟩
  · have returned : returnsWith (fun _ _ => true)
        (exec statefulHandler (ensureFirewallWiring 4 .ipv4 "kidobo" .reject)
          (enforcedTables .drop)) = true := by decide
    obtain ⟨_, last, ended, -⟩ := returnsWith_eq_true.mp returned
    obtain ⟨trace, runs⟩ := exists_runs_of_exec statefulStep_handler ended
    have holds := ensureFirewallWiring_blocks 4 .reject plain (by decide) runs
    exact ⟨trace, last, runs, (holds.1 guarded).1, holds.2 rfl⟩

/-! ### Meanings exist -/

/-- The set name and the action of a set match. -/
def setMatchParts (rule : String) : Option (String × ChainAction) :=
  match "-m set --match-set ".toList.isPrefixOf? rule.toList with
  | none => none
  | some rest =>
    match " src -j DROP".toList.isSuffixOf? rest, " src -j REJECT".toList.isSuffixOf? rest with
    | some setName, _ => some (String.ofList setName, .drop)
    | none, some setName => some (String.ofList setName, .reject)
    | none, none => none

theorem isPrefixOf?_append {T : Type} [BEq T] [LawfulBEq T] (front back : List T) :
    front.isPrefixOf? (front ++ back) = some back := by
  induction front with
  | nil => rfl
  | cons first rest ih => simp [List.isPrefixOf?, ih]

theorem isSuffixOf?_append {T : Type} [BEq T] [LawfulBEq T] (front back : List T) :
    back.isSuffixOf? (front ++ back) = some front := by
  simp [List.isSuffixOf?, isPrefixOf?_append]

theorem toList_setMatchRule (setName : String) (action : ChainAction) :
    (setMatchRule setName action).toList =
      "-m set --match-set ".toList ++ (setName.toList ++ (" src -j " ++ action.asTarget).toList) := by
  simp [setMatchRule, String.intercalate_cons_cons]

theorem setMatchRule_ne_jumpTo (setName : String) (action : ChainAction) (chainName : String) :
    setMatchRule setName action ≠ jumpTo chainName := by
  intro same
  have second := congrArg (fun rule : String => rule.toList[1]?) same
  simp [toList_setMatchRule, jumpTo] at second

theorem setMatchParts_setMatchRule (setName : String) (action : ChainAction) :
    setMatchParts (setMatchRule setName action) = some (setName, action) := by
  rw [setMatchParts, toList_setMatchRule, isPrefixOf?_append]
  cases action with
  | drop =>
    have shown : (" src -j " ++ ChainAction.drop.asTarget).toList = " src -j DROP".toList := by
      decide
    rw [shown]
    simp only [isSuffixOf?_append, String.ofList_toList]
  | reject =>
    have shown : (" src -j " ++ ChainAction.reject.asTarget).toList = " src -j REJECT".toList := by
      decide
    have notDrop : " src -j DROP".toList.isSuffixOf?
        (setName.toList ++ " src -j REJECT".toList) = none := by
      simp [List.isSuffixOf?, List.isPrefixOf?]
    rw [shown]
    simp only [notDrop, isSuffixOf?_append, String.ofList_toList]

open Classical in
/-- Whatever the other rules mean, there is a meaning for all rules. -/
noncomputable def RuleMeaning.ofForeign (family : AddressFamily) (sets : KernelSets CanonicalCidr)
    (source : ℕ) (foreign : String → Target String Verdict) : RuleMeaning family sets source where
  target rule :=
    if rule = jumpTo kidoboChainName then .jump kidoboChainName
    else if rule = jumpTo kidoboStagingChainName then .jump kidoboStagingChainName
    else
      match setMatchParts rule with
      | some (setName, action) =>
        if Matches family sets setName source then .decide action.verdict else .pass
      | none => foreign rule
  jump chainName managed := by
    rcases managed with rfl | rfl
    · exact if_pos rfl
    · rw [if_neg jumpTo_staging_ne_jumpTo_stable, if_pos rfl]
  matched setName action inside := by
    simp only [setMatchRule_ne_jumpTo, if_false, setMatchParts_setMatchRule]
    exact if_pos inside
  unmatched setName action outside := by
    simp only [setMatchRule_ne_jumpTo, if_false, setMatchParts_setMatchRule]
    exact if_neg outside

/-- The rules of others keep the meaning they are given. -/
theorem RuleMeaning.ofForeign_target {family : AddressFamily} {sets : KernelSets CanonicalCidr}
    {source : ℕ} {foreign : String → Target String Verdict} {rule : String}
    (isOther : isForeign rule = true) (noMatch : setMatchParts rule = none) :
    (ofForeign family sets source foreign).target rule = foreign rule := by
  simp only [isForeign, Bool.not_eq_true', Bool.or_eq_false_iff, beq_eq_false_iff_ne] at isOther
  simp only [ofForeign, if_neg isOther.1, if_neg isOther.2, noMatch]

-- A built-in target is a rule of others, and may decide.
example : isForeign "-j ACCEPT" = true ∧ setMatchParts "-j ACCEPT" = none := by decide

end Kidobo
