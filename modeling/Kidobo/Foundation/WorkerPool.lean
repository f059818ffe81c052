import Mathlib

/-!
# Workers that share a counter

A fixed list of work items is done by workers that take the next index from a
shared counter, run the item they hold, and append what comes of it to a shared
list of results, in whatever order they get to it. A worker that finds the
counter behind the last item leaves. Whatever the interleaving, each item is
taken once, and the results sorted by index are those of running the items one
after another.

## Main definitions

* `Worker`, `Pool`, `Pool.Step`: the workers and what they do next
* `Pool.Consistent`: what holds at every point
* `sortByIndex`: the results in the order of their items

## Main results

* `Pool.Step.consistent`, `Pool.consistent_of_reachable`
* `Pool.Consistent.sortByIndex_eq`: when all workers have left, the results are
  those of the items in order, each taken once
* `Pool.exists_complete`: from every consistent pool all workers can leave
-/

namespace Foundation

/-- What a worker is doing. -/
inductive Worker where
  | ready
  | holding (index : ℕ)
  | finished
  deriving DecidableEq

/-- The index a worker holds. -/
def Worker.held : Worker → Option ℕ
  | holding index => some index
  | ready | finished => none

/-- How many steps a worker has before it, apart from those of further items. -/
def Worker.weight : Worker → ℕ
  | ready => 1
  | holding _ => 2
  | finished => 0

/-- The shared counter and results, the workers, and the items taken so far. -/
structure Pool (α β : Type) where
  next : ℕ
  workers : List Worker
  taken : List α
  results : List (ℕ × β)

namespace Pool

variable {α β : Type}

/-- So many workers before the first step. -/
def start (count : ℕ) : Pool α β := ⟨0, List.replicate count .ready, [], []⟩

/-- One worker does something. -/
inductive Step (work : List α) (run : α → β) : Pool α β → Pool α β → Prop where
  | take {next : ℕ} {front back : List Worker} {taken : List α} {results : List (ℕ × β)} {item : α}
      (found : work[next]? = some item) :
      Step work run ⟨next, front ++ .ready :: back, taken, results⟩
        ⟨next + 1, front ++ .holding next :: back, taken ++ [item], results⟩
  | leave {next : ℕ} {front back : List Worker} {taken : List α} {results : List (ℕ × β)}
      (exhausted : work[next]? = none) :
      Step work run ⟨next, front ++ .ready :: back, taken, results⟩
        ⟨next + 1, front ++ .finished :: back, taken, results⟩
  | finish {next index : ℕ} {front back : List Worker} {taken : List α} {results : List (ℕ × β)}
      {item : α} (found : work[index]? = some item) :
      Step work run ⟨next, front ++ .holding index :: back, taken, results⟩
        ⟨next, front ++ .ready :: back, taken, results ++ [(index, run item)]⟩

/-- All workers have left. -/
def Complete (pool : Pool α β) : Prop := ∀ worker ∈ pool.workers, worker = .finished

variable {work : List α} {run : α → β} {pool after : Pool α β}

/-- Every index handed out is held by a worker or answered, once; the answers are
those of the items; and a worker has left only behind the last item. -/
structure Consistent (work : List α) (run : α → β) (pool : Pool α β) : Prop where
  taken : pool.taken = work.take pool.next
  indexes : (pool.results.map Prod.fst ++ pool.workers.filterMap Worker.held).Perm
    (List.range (min pool.next work.length))
  answered : ∀ result ∈ pool.results, ∃ item,
    work[result.1]? = some item ∧ result.2 = run item
  exhausted : .finished ∈ pool.workers → work.length ≤ pool.next

theorem consistent_start (work : List α) (run : α → β) (count : ℕ) :
    Consistent work run (start count) where
  taken := rfl
  indexes := by
    have unheld : (List.replicate count Worker.ready).filterMap Worker.held = [] := by
      refine List.filterMap_eq_nil_iff.mpr fun worker member => ?_
      rw [List.eq_of_mem_replicate member]
      rfl
    simp [start, unheld]
  answered := by simp [start]
  exhausted := by simp [start, List.mem_replicate]

/-- No step breaks the consistency. -/
theorem Step.consistent (step : Step work run pool after) (consistent : Consistent work run pool) :
    Consistent work run after := by
  obtain ⟨taken, indexes, answered, exhausted⟩ := consistent
  cases step with
  | @take next front back _ results item found =>
    have inside : next < work.length := (List.getElem?_eq_some_iff.mp found).1
    refine ⟨?_, ?_, answered, ?_⟩
    · simp only at taken
      rw [taken, List.take_add_one, found]
      rfl
    · have before : (results.map Prod.fst ++ (front ++ .ready :: back).filterMap Worker.held).Perm
          (List.range next) := by
        simpa only [Nat.min_eq_left inside.le] using indexes
      simp only [List.filterMap_append, List.filterMap_cons, Worker.held] at before ⊢
      rw [Nat.min_eq_left (Nat.succ_le_of_lt inside), List.range_succ]
      rw [← List.append_assoc] at before ⊢
      exact List.perm_middle.trans
        ((List.Perm.cons next before).trans (List.perm_append_singleton next _).symm)
    · intro left
      have leftBefore : Worker.finished ∈ front ++ .ready :: back := by simpa using left
      exact absurd (exhausted leftBefore) (Nat.not_le.mpr inside)
  | @leave next front back _ results none =>
    have outside : work.length ≤ next := List.getElem?_eq_none_iff.mp none
    refine ⟨?_, ?_, answered, fun _ => Nat.le_succ_of_le outside⟩
    · simp only at taken
      rw [taken, List.take_of_length_le outside, List.take_of_length_le (Nat.le_succ_of_le outside)]
    · simp only [Nat.min_eq_right outside, List.filterMap_append, List.filterMap_cons,
        Worker.held] at indexes
      simpa only [Nat.min_eq_right (Nat.le_succ_of_le outside), List.filterMap_append,
        List.filterMap_cons, Worker.held] using indexes
  | @finish next index front back _ results item found =>
    refine ⟨taken, ?_, ?_, ?_⟩
    · simp only [List.filterMap_append, List.filterMap_cons, Worker.held, List.map_append,
        List.map_cons, List.map_nil] at indexes ⊢
      refine List.Perm.trans ?_ indexes
      rw [List.append_assoc, List.singleton_append]
      exact List.Perm.append_left _ List.perm_middle.symm
    · exact List.forall_mem_append.mpr ⟨answered, List.forall_mem_singleton.mpr ⟨item, found, rfl⟩⟩
    · intro left
      exact exhausted (by simpa using left)

theorem consistent_of_reachable {count : ℕ}
    (reached : Relation.ReflTransGen (Step work run) (start count) pool) :
    Consistent work run pool := by
  induction reached with
  | refl => exact consistent_start work run count
  | tail _ step ih => exact step.consistent ih

/-! ### When all workers have left -/

/-- Some worker can do something, unless all have left. -/
theorem Consistent.exists_step (consistent : Consistent work run pool)
    (incomplete : ¬pool.Complete) : ∃ after, Step work run pool after := by
  unfold Complete at incomplete
  push Not at incomplete
  obtain ⟨worker, inside, busy⟩ := incomplete
  obtain ⟨next, workers, taken, results⟩ := pool
  obtain ⟨front, back, rfl⟩ := List.append_of_mem inside
  cases worker with
  | ready =>
    cases found : work[next]? with
    | some item => exact ⟨_, .take found⟩
    | none => exact ⟨_, .leave found⟩
  | holding index =>
    have handedOut : index ∈ List.range (min next work.length) := by
      refine consistent.indexes.subset (List.mem_append_right _ ?_)
      exact List.mem_filterMap.mpr ⟨_, inside, rfl⟩
    have bounded : index < work.length :=
      Nat.lt_of_lt_of_le (List.mem_range.mp handedOut) (Nat.min_le_right _ _)
    exact ⟨_, .finish (List.getElem?_eq_getElem bounded)⟩
  | finished => exact absurd rfl busy

/-- How many steps are left at most. -/
def stepsLeft (work : List α) (pool : Pool α β) : ℕ :=
  2 * (work.length - pool.next) + (pool.workers.map Worker.weight).sum

theorem Step.stepsLeft_lt (step : Step work run pool after) :
    after.stepsLeft work < pool.stepsLeft work := by
  cases step with
  | take found =>
    have inside := (List.getElem?_eq_some_iff.mp found).1
    simp only [stepsLeft, List.map_append, List.map_cons, List.sum_append, List.sum_cons,
      Worker.weight]
    omega
  | leave exhausted =>
    have outside := List.getElem?_eq_none_iff.mp exhausted
    simp only [stepsLeft, List.map_append, List.map_cons, List.sum_append, List.sum_cons,
      Worker.weight]
    omega
  | finish found =>
    simp only [stepsLeft, List.map_append, List.map_cons, List.sum_append, List.sum_cons,
      Worker.weight]
    omega

/-- Whatever has happened so far, all workers can leave. -/
theorem exists_complete (consistent : Consistent work run pool) :
    ∃ last, Relation.ReflTransGen (Step work run) pool last ∧ last.Complete := by
  induction remaining : pool.stepsLeft work using Nat.strong_induction_on generalizing pool with
  | h count ih =>
    by_cases complete : pool.Complete
    · exact ⟨pool, .refl, complete⟩
    · obtain ⟨after, step⟩ := consistent.exists_step complete
      obtain ⟨last, reached, complete⟩ :=
        ih _ (remaining ▸ step.stepsLeft_lt) (step.consistent consistent) rfl
      exact ⟨last, .head step reached, complete⟩

/-- Steps neither add nor remove workers. -/
theorem length_workers_of_reachable {count : ℕ}
    (reached : Relation.ReflTransGen (Step work run) (start count) pool) :
    pool.workers.length = count := by
  induction reached with
  | refl => exact List.length_replicate
  | tail _ step ih => cases step <;> simpa using ih

/-- The results in the order of their items. -/
def sortByIndex (results : List (ℕ × β)) : List (ℕ × β) :=
  results.mergeSort fun first second => first.1 ≤ second.1

/-- The results of running the items one after another. -/
def inOrder (work : List α) (run : α → β) : List (ℕ × β) :=
  work.zipIdx.map fun (item, index) => (index, run item)

theorem mem_inOrder {result : ℕ × β} :
    result ∈ inOrder work run ↔ ∃ item, work[result.1]? = some item ∧ result.2 = run item := by
  constructor
  · intro member
    obtain ⟨⟨item, index⟩, located, rfl⟩ := List.mem_map.mp member
    exact ⟨item, List.mk_mem_zipIdx_iff_getElem?.mp located, rfl⟩
  · rintro ⟨item, located, same⟩
    exact List.mem_map.mpr ⟨(item, result.1), List.mk_mem_zipIdx_iff_getElem?.mpr located,
      Prod.ext rfl same.symm⟩

theorem map_fst_inOrder (work : List α) (run : α → β) :
    (inOrder work run).map Prod.fst = List.range work.length := by
  rw [inOrder, List.map_map, List.range_eq_range', ← List.zipIdx_map_snd]
  rfl

/-- When all workers have left, the results in order are those of the items one
after another, and every item was taken once, in order. -/
theorem Consistent.sortByIndex_eq (consistent : Consistent work run pool)
    (present : pool.workers ≠ []) (complete : pool.Complete) :
    sortByIndex pool.results = inOrder work run ∧ pool.taken = work := by
  obtain ⟨worker, inside⟩ := List.exists_mem_of_ne_nil _ present
  have outside := consistent.exhausted (complete worker inside ▸ inside)
  have unheld : pool.workers.filterMap Worker.held = [] := by
    refine List.filterMap_eq_nil_iff.mpr fun other member => ?_
    rw [complete other member]
    rfl
  have indexes := consistent.indexes
  rw [unheld, List.append_nil, Nat.min_eq_right outside] at indexes
  have resultsNodup : pool.results.Nodup :=
    List.Nodup.of_map Prod.fst (indexes.nodup_iff.mpr List.nodup_range)
  have orderNodup : (inOrder work run).Nodup := by
    refine List.Nodup.of_map Prod.fst ?_
    rw [map_fst_inOrder]
    exact List.nodup_range
  -- indexes are unique, so results and items can be compared as sets
  have sameResults : pool.results.Perm (inOrder work run) := by
    rw [List.perm_ext_iff_of_nodup resultsNodup orderNodup]
    intro result
    rw [mem_inOrder]
    constructor
    · exact consistent.answered result
    · rintro ⟨item, located, same⟩
      have answeredIndex : result.1 ∈ pool.results.map Prod.fst :=
        indexes.mem_iff.mpr (List.mem_range.mpr (List.getElem?_eq_some_iff.mp located).1)
      obtain ⟨other, member, sameIndex⟩ := List.mem_map.mp answeredIndex
      obtain ⟨otherItem, otherLocated, otherSame⟩ := consistent.answered other member
      rw [sameIndex, located, Option.some.injEq] at otherLocated
      have sameResult : other = result :=
        Prod.ext sameIndex (otherSame.trans ((congrArg run otherLocated.symm).trans same.symm))
      exact sameResult ▸ member
  -- both lists are sorted by index, and equal indexes carry equal results
  have sameIndex : ∀ first second : ℕ × β, first ∈ sortByIndex pool.results →
      second ∈ inOrder work run → first.1 ≤ second.1 → second.1 ≤ first.1 → first = second := by
    intro first second inResults inItems below above
    obtain ⟨item, located, same⟩ := consistent.answered first (List.mem_mergeSort.mp inResults)
    obtain ⟨other, otherLocated, otherSame⟩ := mem_inOrder.mp inItems
    have equal := Nat.le_antisymm below above
    rw [equal, otherLocated, Option.some.injEq] at located
    exact Prod.ext equal (same.trans ((congrArg run located.symm).trans otherSame.symm))
  have resultsSorted : (sortByIndex pool.results).Pairwise
      fun first second => first.1 ≤ second.1 := by
    have sorted := @List.pairwise_mergeSort (ℕ × β) (fun first second => first.1 ≤ second.1)
      (fun _ _ _ below above => by
        simp only [decide_eq_true_eq] at below above ⊢
        exact Nat.le_trans below above)
      (fun first second => by simpa using Nat.le_total first.1 second.1) pool.results
    simpa [sortByIndex] using sorted
  have itemsSorted : (inOrder work run).Pairwise (fun first second => first.1 ≤ second.1) := by
    rw [← List.pairwise_map (f := Prod.fst) (R := (· ≤ ·)), map_fst_inOrder]
    exact List.pairwise_le_range
  constructor
  · exact List.Perm.eq_of_pairwise sameIndex resultsSorted itemsSorted
      ((List.mergeSort_perm _ _).trans sameResults)
  · rw [consistent.taken, List.take_of_length_le outside]

end Pool

end Foundation
