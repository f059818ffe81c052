import Mathlib

/-!
# Fallible maps and what they return

A fallible map succeeds exactly when it succeeds on every item, and its results
stand in the order of the items.

## Main results

* `mapM_eq_some_iff`, `mapM_eq_ok_iff`: results item by item
* `mapM_some`: a map that never fails
* `mapM_eq_ok_iff_of_item`: maps that check their items
* `findSome?_eq_of_not_reached`: first results that do not depend on some items
-/

namespace Foundation

variable {α β γ ε : Type}

/-- Every item on the right of a pairing has its partner. -/
theorem exists_of_forall₂_right {related : α → β → Prop} {left : List α} {right : List β}
    (paired : List.Forall₂ related left right) {item : β} (member : item ∈ right) :
    ∃ partner ∈ left, related partner item := by
  obtain ⟨position, inside, rfl⟩ := List.mem_iff_getElem.mp member
  obtain ⟨sameLength, relates⟩ := List.forall₂_iff_get.mp paired
  exact ⟨left[position], List.getElem_mem _, relates position (by omega) inside⟩

/-- Lists that are related in two stages have a list between them. -/
theorem forall₂_comp_iff {first : α → β → Prop} {second : β → γ → Prop} {left : List α}
    {right : List γ} :
    List.Forall₂ (fun item other => ∃ between, first item between ∧ second between other)
        left right ↔
      ∃ middle, List.Forall₂ first left middle ∧ List.Forall₂ second middle right := by
  constructor
  · intro paired
    induction paired with
    | nil => exact ⟨[], .nil, .nil⟩
    | cons head _ ih =>
      obtain ⟨between, before, after⟩ := head
      obtain ⟨middle, allBefore, allAfter⟩ := ih
      exact ⟨between :: middle, .cons before allBefore, .cons after allAfter⟩
  · rintro ⟨middle, allBefore, allAfter⟩
    induction allBefore generalizing right with
    | nil =>
      cases allAfter
      exact .nil
    | cons before _ ih =>
      cases allAfter with
      | cons after later => exact .cons ⟨_, before, after⟩ (ih later)

/-- Paired items that pick the same values pick the same list. -/
theorem filterMap_eq_of_forall₂ {first : α → Option γ} {second : β → Option γ} {left : List α}
    {right : List β} (paired : List.Forall₂ (fun item other => first item = second other) left right) :
    left.filterMap first = right.filterMap second := by
  induction paired with
  | nil => rfl
  | cons same _ ih => rw [List.filterMap_cons, List.filterMap_cons, same, ih]

/-- An optional map has results when every item has one. -/
theorem mapM_eq_some_iff {read : α → Option β} {items : List α} {results : List β} :
    items.mapM read = some results ↔
      List.Forall₂ (fun item result => read item = some result) items results := by
  induction items generalizing results with
  | nil =>
    rw [List.mapM_nil, List.forall₂_nil_left_iff, Option.pure_def, Option.some.injEq]
    exact eq_comm
  | cons item rest ih =>
    rw [List.mapM_cons, List.forall₂_cons_left_iff]
    simp only [Option.bind_eq_bind, Option.bind_eq_some_iff, Option.pure_def, Option.some.injEq, ih]
    constructor
    · rintro ⟨first, firstRead, others, othersRead, rfl⟩
      exact ⟨first, others, firstRead, othersRead, rfl⟩
    · rintro ⟨first, others, firstRead, othersRead, rfl⟩
      exact ⟨first, firstRead, others, othersRead, rfl⟩

theorem bind_eq_ok_iff {step : Except ε α} {next : α → Except ε β} {result : β} :
    step >>= next = .ok result ↔ ∃ value, step = .ok value ∧ next value = .ok result := by
  cases step with
  | error error =>
    constructor
    · intro failed
      cases failed
    · rintro ⟨_, failed, _⟩
      cases failed
  | ok value =>
    constructor
    · intro done
      exact ⟨value, rfl, done⟩
    · rintro ⟨other, same, done⟩
      obtain rfl := Except.ok.inj same
      exact done

/-- A failing map has results when it does not fail on any item. -/
theorem mapM_eq_ok_iff {read : α → Except ε β} {items : List α} {results : List β} :
    items.mapM read = .ok results ↔
      List.Forall₂ (fun item result => read item = .ok result) items results := by
  induction items generalizing results with
  | nil =>
    rw [List.mapM_nil, List.forall₂_nil_left_iff]
    constructor
    · intro same
      exact (Except.ok.inj same).symm
    · rintro rfl
      rfl
  | cons item rest ih =>
    rw [List.mapM_cons, List.forall₂_cons_left_iff]
    simp only [bind_eq_ok_iff, ih]
    constructor
    · rintro ⟨first, firstRead, others, othersRead, same⟩
      exact ⟨first, others, firstRead, othersRead, (Except.ok.inj same).symm⟩
    · rintro ⟨first, others, firstRead, othersRead, rfl⟩
      exact ⟨first, firstRead, others, othersRead, rfl⟩

/-- A map that checks every item and returns its value. -/
theorem mapM_eq_ok_iff_of_item {read : α → Except ε β} {passes : α → Prop} {value : α → β}
    (itemSpec : ∀ item result, read item = .ok result ↔ passes item ∧ result = value item)
    {items : List α} {results : List β} :
    items.mapM read = .ok results ↔ (∀ item ∈ items, passes item) ∧ results = items.map value := by
  rw [mapM_eq_ok_iff]
  simp only [itemSpec]
  induction items generalizing results with
  | nil => simp [List.forall₂_nil_left_iff]
  | cons item rest ih =>
    rw [List.forall₂_cons_left_iff, List.forall_mem_cons, List.map_cons]
    simp only [ih]
    constructor
    · rintro ⟨_, _, ⟨first, rfl⟩, ⟨others, rfl⟩, rfl⟩
      exact ⟨⟨first, others⟩, rfl⟩
    · rintro ⟨⟨first, others⟩, rfl⟩
      exact ⟨_, _, ⟨first, rfl⟩, ⟨others, rfl⟩, rfl⟩

theorem mapM_some {read : α → Option β} {value : α → β} {items : List α}
    (succeeds : ∀ item ∈ items, read item = some (value item)) :
    items.mapM read = some (items.map value) := by
  rw [mapM_eq_some_iff, List.forall₂_map_right_iff]
  exact List.forall₂_same.mpr succeeds

/-! ### First results -/

/-- The search for a first result gets to an item of this kind. -/
def Reaches (find : α → Option β) (kind : α → Prop) (items : List α) : Prop :=
  ∃ front item back, items = front ++ item :: back ∧ kind item ∧
    ∀ earlier ∈ front, find earlier = none

theorem not_reaches_nil {find : α → Option β} {kind : α → Prop} : ¬Reaches find kind [] := by
  rintro ⟨front, _, _, isNil, _⟩
  simp at isNil

theorem reaches_cons_iff {find : α → Option β} {kind : α → Prop} {first : α} {rest : List α} :
    Reaches find kind (first :: rest) ↔ kind first ∨ find first = none ∧ Reaches find kind rest := by
  constructor
  · rintro ⟨front, item, back, split, isKind, before⟩
    cases front with
    | nil =>
      rw [List.nil_append, List.cons.injEq] at split
      exact Or.inl (split.1 ▸ isKind)
    | cons head front =>
      rw [List.cons_append, List.cons.injEq] at split
      obtain ⟨nothing, later⟩ := List.forall_mem_cons.mp before
      exact Or.inr ⟨split.1 ▸ nothing, front, item, back, split.2, isKind, later⟩
  · rintro (isKind | ⟨nothing, front, item, back, rfl, isKind, before⟩)
    · exact ⟨[], first, rest, rfl, isKind, List.forall_mem_nil _⟩
    · exact ⟨first :: front, item, back, rfl, isKind, List.forall_mem_cons.mpr ⟨nothing, before⟩⟩

/-- Whether the search gets to items of a kind depends on the others only. -/
theorem reaches_congr {find other : α → Option β} {kind : α → Prop} {items : List α}
    (agree : ∀ item ∈ items, ¬kind item → other item = find item) :
    Reaches other kind items ↔ Reaches find kind items := by
  induction items with
  | nil => simp only [not_reaches_nil]
  | cons first rest ih =>
    obtain ⟨same, later⟩ := List.forall_mem_cons.mp agree
    rw [reaches_cons_iff, reaches_cons_iff, ih later]
    by_cases isKind : kind first
    · simp only [isKind, true_or]
    · rw [same isKind]

/-- Items that the search does not get to do not matter. -/
theorem findSome?_eq_of_not_reached {find other : α → Option β} {kind : α → Prop} {items : List α}
    (agree : ∀ item ∈ items, ¬kind item → other item = find item)
    (notReached : ¬Reaches find kind items) : items.findSome? other = items.findSome? find := by
  induction items with
  | nil => rfl
  | cons first rest ih =>
    obtain ⟨same, later⟩ := List.forall_mem_cons.mp agree
    rw [reaches_cons_iff, not_or, not_and] at notReached
    rw [List.findSome?_cons, List.findSome?_cons, same notReached.1]
    cases found : find first with
    | some _ => rfl
    | none => exact ih later (notReached.2 found)

theorem findSome?_congr {find other : α → Option β} {items : List α}
    (same : ∀ item ∈ items, other item = find item) :
    items.findSome? other = items.findSome? find :=
  @findSome?_eq_of_not_reached _ _ find other (fun _ => False) items
    (fun item member _ => same item member) fun ⟨_, _, _, _, never, _⟩ => never

/-- When items of one kind keep their result or get one, so does the search. -/
theorem findSome?_eq_or_of_agree {find other : α → Option β} {kind : α → Prop} {items : List α}
    {result : β} (agree : ∀ item ∈ items, ¬kind item → other item = find item)
    (gains : ∀ item ∈ items, kind item → other item = find item ∨ other item = some result) :
    items.findSome? other = items.findSome? find ∨ items.findSome? other = some result := by
  induction items with
  | nil => exact Or.inl rfl
  | cons first rest ih =>
    obtain ⟨same, laterSame⟩ := List.forall_mem_cons.mp agree
    obtain ⟨gain, laterGains⟩ := List.forall_mem_cons.mp gains
    rw [List.findSome?_cons, List.findSome?_cons]
    have kept : other first = find first ∨ other first = some result := by
      by_cases isKind : kind first
      · exact gain isKind
      · exact Or.inl (same isKind)
    rcases kept with unchanged | gained
    · rw [unchanged]
      cases find first with
      | some _ => exact Or.inl rfl
      | none => exact ih laterSame laterGains
    · rw [gained]
      exact Or.inr rfl

end Foundation
