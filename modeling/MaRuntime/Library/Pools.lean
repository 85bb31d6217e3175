import Mathlib

/-!
# Pools of tasks

The tasks of a pool run beside each other, and each step of an interleaving changes one of them. A
pool is the list of the states of its tasks, in the order in which they were started; a task is
named by its place, which it keeps.

`advance` replaces the state of one task. What is counted in a pool changes by what is counted in
that task (`countP_advance`, `sum_advance`), which is how a step keeps a balance between the tasks
that are about to do something and what was done; `sum_eraseIdx` is for a task that leaves, and
`forall_mem_advance` is the invariant of the tasks.
-/

set_option autoImplicit false
set_option relaxedAutoImplicit false

namespace MaRuntime.Pools

variable {Task : Type*}

/-- The pool after a step of one of its tasks. -/
def advance (pool : List Task) (i : ℕ) (after : Task) : List Task := pool.set i after

variable {pool : List Task} {i : ℕ} {before after : Task}

theorem countP_advance (counted : Task → Bool) (after : Task) (h : pool[i]? = some before) :
    (advance pool i after).countP counted + [before].countP counted =
      pool.countP counted + [after].countP counted := by
  obtain ⟨hi, rfl⟩ := List.getElem?_eq_some_iff.mp h
  have hle : (if counted pool[i] then 1 else 0) ≤ pool.countP counted := by
    split_ifs with hcounted
    · exact List.countP_pos_iff.mpr ⟨pool[i], List.getElem_mem hi, hcounted⟩
    · exact Nat.zero_le _
  rw [advance, List.countP_set hi, List.countP_singleton, List.countP_singleton]
  omega

theorem sum_advance (weight : Task → ℕ) (after : Task) (h : pool[i]? = some before) :
    ((advance pool i after).map weight).sum + weight before =
      (pool.map weight).sum + weight after := by
  induction pool generalizing i with
  | nil => cases h
  | cons task rest ih =>
    cases i with
    | zero =>
      obtain rfl := Option.some.inj h
      simp only [advance, List.set_cons_zero, List.map_cons, List.sum_cons]
      omega
    | succ i =>
      have hrest := ih h
      simp only [advance, List.set_cons_succ, List.map_cons, List.sum_cons] at hrest ⊢
      omega

/-- What is counted in a pool without one of its tasks, and in that task. -/
theorem sum_eraseIdx (weight : Task → ℕ) (h : pool[i]? = some before) :
    ((pool.eraseIdx i).map weight).sum + weight before = (pool.map weight).sum := by
  induction pool generalizing i with
  | nil => cases h
  | cons task rest ih =>
    cases i with
    | zero =>
      obtain rfl := Option.some.inj h
      simp [Nat.add_comm]
    | succ i =>
      have hrest : ((rest.eraseIdx i).map weight).sum + weight before = (rest.map weight).sum :=
        ih h
      simp only [List.eraseIdx_cons_succ, List.map_cons, List.sum_cons]
      omega

theorem forall_mem_advance {property : Task → Prop} (hpool : ∀ task ∈ pool, property task)
    (hafter : property after) : ∀ task ∈ advance pool i after, property task := by
  intro task htask
  rcases List.mem_or_eq_of_mem_set htask with hmem | rfl
  · exact hpool task hmem
  · exact hafter

theorem mem_advance (h : pool[i]? = some before) : after ∈ advance pool i after := by
  obtain ⟨hi, -⟩ := List.getElem?_eq_some_iff.mp h
  exact List.mem_set hi after

theorem exists_mem_advance {property : Task → Prop} (h : pool[i]? = some before)
    (hafter : property before → property after) (hpool : ∃ task ∈ pool, property task) :
    ∃ task ∈ advance pool i after, property task := by
  obtain ⟨task, hmem, htask⟩ := hpool
  obtain ⟨j, hj⟩ := List.mem_iff_getElem?.mp hmem
  by_cases hij : i = j
  · subst hij
    obtain rfl := Option.some.inj (h.symm.trans hj)
    exact ⟨after, mem_advance h, hafter htask⟩
  · refine ⟨task, List.mem_iff_getElem?.mpr ⟨j, ?_⟩, htask⟩
    rw [advance, List.getElem?_set_ne hij, hj]

theorem exists_mem_advance_iff {property : Task → Prop} (h : pool[i]? = some before)
    (hsame : property after ↔ property before) :
    (∃ task ∈ advance pool i after, property task) ↔ ∃ task ∈ pool, property task := by
  refine ⟨fun ⟨task, hmem, htask⟩ ↦ ?_, exists_mem_advance h hsame.mpr⟩
  rcases List.mem_or_eq_of_mem_set hmem with hpool | rfl
  · exact ⟨task, hpool, htask⟩
  · exact ⟨before, List.mem_of_getElem? h, hsame.mp htask⟩

theorem getElem?_advance (h : pool[i]? = some before) (j : ℕ) :
    (advance pool i after)[j]? = if i = j then some after else pool[j]? := by
  obtain ⟨hi, -⟩ := List.getElem?_eq_some_iff.mp h
  rw [advance, List.getElem?_set]
  split_ifs with hij
  · rfl
  · rfl

end MaRuntime.Pools
