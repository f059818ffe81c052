import Mathlib

/-!
# Chains of rules

A packet runs through a list of rules. A rule decides, lets the packet pass, ends
the list, or sends the packet through another chain. From a jump the packet comes
back when no rule there decides, and from a goto it does not. A run through a list
ends with a verdict or without one.

## Main definitions

* `Target`: what a rule does with the packet
* `Traverses`: the run of the packet through a list of rules

## Main results

* `Traverses.unique`: a packet meets at most one fate
* `traverses_jump_iff`, `traverses_jump_of_returns`: a jump in front
-/

namespace Foundation

/-- What a rule does with a packet. -/
inductive Target (Chain Verdict : Type) where
  | jump (chain : Chain)
  | goto (chain : Chain)
  | decide (verdict : Verdict)
  | leave
  | pass

section Traversal

variable {Chain Rule Verdict : Type} {meaning : Rule → Target Chain Verdict}
  {chains : Chain → Option (List Rule)} {rule : Rule} {rest : List Rule}
  {outcome : Option Verdict}

/-- The packet runs through the rules to this outcome. -/
inductive Traverses (meaning : Rule → Target Chain Verdict) (chains : Chain → Option (List Rule)) :
    List Rule → Option Verdict → Prop
  | nil : Traverses meaning chains [] none
  | decide {rule : Rule} {verdict : Verdict} (rest : List Rule)
      (decides : meaning rule = .decide verdict) :
      Traverses meaning chains (rule :: rest) (some verdict)
  | leave {rule : Rule} (rest : List Rule) (leaves : meaning rule = .leave) :
      Traverses meaning chains (rule :: rest) none
  | goto {rule : Rule} {chain : Chain} {inner : List Rule} {outcome : Option Verdict}
      (rest : List Rule) (goes : meaning rule = .goto chain) (present : chains chain = some inner)
      (elsewhere : Traverses meaning chains inner outcome) :
      Traverses meaning chains (rule :: rest) outcome
  | pass {rule : Rule} {rest : List Rule} {outcome : Option Verdict}
      (passes : meaning rule = .pass) (later : Traverses meaning chains rest outcome) :
      Traverses meaning chains (rule :: rest) outcome
  | stay {rule : Rule} {chain : Chain} {inner : List Rule} {verdict : Verdict} (rest : List Rule)
      (jumps : meaning rule = .jump chain) (present : chains chain = some inner)
      (decided : Traverses meaning chains inner (some verdict)) :
      Traverses meaning chains (rule :: rest) (some verdict)
  | comeBack {rule : Rule} {chain : Chain} {inner rest : List Rule} {outcome : Option Verdict}
      (jumps : meaning rule = .jump chain) (present : chains chain = some inner)
      (returned : Traverses meaning chains inner none)
      (later : Traverses meaning chains rest outcome) :
      Traverses meaning chains (rule :: rest) outcome

/-- A packet meets at most one fate. -/
theorem Traverses.unique {rules : List Rule} {other : Option Verdict}
    (first : Traverses meaning chains rules outcome)
    (second : Traverses meaning chains rules other) : outcome = other := by
  -- on the first run; the rule in front tells how the second one goes on
  induction first generalizing other with
  | nil =>
    cases second
    rfl
  | decide rest decides =>
    cases second <;> simp_all
  | leave rest leaves =>
    cases second <;> simp_all
  | goto rest goes present elsewhere ih =>
    cases second with
    | goto _ goes' present' elsewhere' =>
      obtain rfl := Target.goto.inj (goes.symm.trans goes')
      obtain rfl := Option.some.inj (present.symm.trans present')
      exact ih elsewhere'
    | _ => simp_all
  | pass passes later ih =>
    cases second with
    | pass _ later' => exact ih later'
    | _ => simp_all
  | stay rest jumps present decided ih =>
    cases second with
    | stay _ jumps' present' decided' =>
      obtain rfl := Target.jump.inj (jumps.symm.trans jumps')
      obtain rfl := Option.some.inj (present.symm.trans present')
      exact ih decided'
    | comeBack jumps' present' returned =>
      obtain rfl := Target.jump.inj (jumps.symm.trans jumps')
      obtain rfl := Option.some.inj (present.symm.trans present')
      exact absurd (ih returned) (by simp)
    | _ => simp_all
  | comeBack jumps present returned later innerIh restIh =>
    cases second with
    | stay _ jumps' present' decided =>
      obtain rfl := Target.jump.inj (jumps.symm.trans jumps')
      obtain rfl := Option.some.inj (present.symm.trans present')
      exact absurd (innerIh decided) (by simp)
    | comeBack _ _ _ later' => exact restIh later'
    | _ => simp_all

/-- A jump goes through the chain, and on when nothing there decides. -/
theorem traverses_jump_iff {chain : Chain} {inner : List Rule} (jumps : meaning rule = .jump chain)
    (present : chains chain = some inner) :
    Traverses meaning chains (rule :: rest) outcome ↔
      (∃ verdict, outcome = some verdict ∧ Traverses meaning chains inner (some verdict)) ∨
        (Traverses meaning chains inner none ∧ Traverses meaning chains rest outcome) := by
  constructor
  · intro runs
    cases runs with
    | stay _ jumps' present' decided =>
      obtain rfl := Target.jump.inj (jumps.symm.trans jumps')
      obtain rfl := Option.some.inj (present.symm.trans present')
      exact Or.inl ⟨_, rfl, decided⟩
    | comeBack jumps' present' returned later =>
      obtain rfl := Target.jump.inj (jumps.symm.trans jumps')
      obtain rfl := Option.some.inj (present.symm.trans present')
      exact Or.inr ⟨returned, later⟩
    | _ => simp_all
  · rintro (⟨verdict, rfl, decided⟩ | ⟨returned, later⟩)
    · exact .stay rest jumps present decided
    · exact .comeBack jumps present returned later

/-- A jump whose chain never decides does not matter. -/
theorem traverses_jump_of_returns {chain : Chain} {inner : List Rule}
    (jumps : meaning rule = .jump chain) (present : chains chain = some inner)
    (returned : Traverses meaning chains inner none) :
    Traverses meaning chains (rule :: rest) outcome ↔ Traverses meaning chains rest outcome := by
  rw [traverses_jump_iff jumps present]
  constructor
  · rintro (⟨verdict, rfl, decided⟩ | ⟨-, later⟩)
    · exact absurd (returned.unique decided) (by simp)
    · exact later
  · exact fun later => Or.inr ⟨returned, later⟩

end Traversal

end Foundation
