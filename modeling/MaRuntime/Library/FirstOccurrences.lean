import Mathlib.Data.List.Basic

/-!
# First occurrences

A list without the elements that an earlier one stands for. `keepFirst` drops an element when a
relation holds between some earlier element and it; `dropSeen` drops an element whose key was seen.

Main result: two relations leave the same elements of a list exactly when they agree on which
elements have an earlier one that stands for them (`keepFirst_eq_iff`). Nothing is asked of the
relations: what was dropped once is dropped wherever it comes again, because the earlier elements
only become more (`not_mem_keepFirstFrom`). `dropSeen_eq_keepFirst` makes keys an instance.
-/

set_option autoImplicit false
set_option relaxedAutoImplicit false

namespace MaRuntime

variable {α κ : Type*}

/-- The elements of a list for which no element before them, and none of `earlier`, stands. -/
def keepFirstFrom (stands : α → α → Bool) : List α → List α → List α
  | _, [] => []
  | earlier, x :: rest =>
    if earlier.any fun y ↦ stands y x then keepFirstFrom stands (x :: earlier) rest
    else x :: keepFirstFrom stands (x :: earlier) rest

/-- The elements of a list for which no element before them stands. -/
def keepFirst (stands : α → α → Bool) (values : List α) : List α :=
  keepFirstFrom stands [] values

/-- The elements of a list whose key was not seen, where the key of each of them is then seen. -/
def dropSeen [DecidableEq κ] (key : α → κ) : List κ → List α → List α
  | _, [] => []
  | seen, x :: rest =>
    if key x ∈ seen then dropSeen key seen rest else x :: dropSeen key (key x :: seen) rest

/-- Two relations agree on the elements of a list: an element has an earlier one, or one of
`earlier`, that stands for it by the first relation when it has one by the second. -/
def AgreeFrom (first second : α → α → Bool) (earlier values : List α) : Prop :=
  ∀ before x after, values = before ++ x :: after →
    ((∃ y ∈ before ++ earlier, first y x) ↔ ∃ y ∈ before ++ earlier, second y x)

section Relations

variable {stands first second : α → α → Bool} {earlier values : List α} {x : α}

/-- An element that an earlier one stands for occurs in what is kept of no later part. -/
theorem not_mem_keepFirstFrom (h : ∃ y ∈ earlier, stands y x) :
    x ∉ keepFirstFrom stands earlier values := by
  induction values generalizing earlier with
  | nil => simp [keepFirstFrom]
  | cons head rest ih =>
    have hrest : x ∉ keepFirstFrom stands (head :: earlier) rest := by
      obtain ⟨y, hy, hyx⟩ := h
      exact ih ⟨y, List.mem_cons_of_mem _ hy, hyx⟩
    rw [keepFirstFrom]
    by_cases hhead : earlier.any fun y ↦ stands y head
    · rwa [if_pos hhead]
    · rw [if_neg hhead, List.mem_cons, not_or]
      refine ⟨?_, hrest⟩
      rintro rfl
      exact hhead (List.any_eq_true.mpr h)

/-- Agreement on a list is agreement on its head and on its rest. -/
theorem agreeFrom_cons {rest : List α} :
    AgreeFrom first second earlier (x :: rest) ↔
      ((∃ y ∈ earlier, first y x) ↔ ∃ y ∈ earlier, second y x) ∧
        AgreeFrom first second (x :: earlier) rest := by
  constructor
  · intro h
    refine ⟨by simpa using h [] x rest rfl, fun before y after hsplit ↦ ?_⟩
    have hy := h (x :: before) y after (by rw [hsplit]; rfl)
    simpa only [List.cons_append, List.mem_append, List.mem_cons, or_left_comm] using hy
  · rintro ⟨hhead, hrest⟩ before y after hsplit
    cases before with
    | nil =>
      obtain ⟨rfl, rfl⟩ := List.cons.inj hsplit
      simpa using hhead
    | cons head before =>
      obtain ⟨rfl, htail⟩ := List.cons.inj hsplit
      have hy := hrest before y after htail
      simpa only [List.cons_append, List.mem_append, List.mem_cons, or_left_comm] using hy

theorem keepFirstFrom_eq_iff :
    keepFirstFrom first earlier values = keepFirstFrom second earlier values ↔
      AgreeFrom first second earlier values := by
  induction values generalizing earlier with
  | nil => simp [keepFirstFrom, AgreeFrom]
  | cons x rest ih =>
    rw [agreeFrom_cons, ← ih, keepFirstFrom, keepFirstFrom]
    by_cases hfirst : earlier.any fun y ↦ first y x <;>
      by_cases hsecond : earlier.any fun y ↦ second y x <;>
      rw [List.any_eq_true] at hfirst hsecond <;>
      simp only [List.any_eq_true, hfirst, hsecond, if_true, if_false, true_and, iff_true,
        iff_false, not_true, false_and, List.cons.injEq, iff_self]
    · intro h
      exact not_mem_keepFirstFrom
        (hfirst.imp fun y hy ↦ ⟨List.mem_cons_of_mem _ hy.1, hy.2⟩) (h ▸ List.mem_cons_self)
    · intro h
      exact not_mem_keepFirstFrom
        (hsecond.imp fun y hy ↦ ⟨List.mem_cons_of_mem _ hy.1, hy.2⟩) (h ▸ List.mem_cons_self)

/-- Two relations leave the same elements exactly when they agree on which have an earlier one that
stands for them. -/
theorem keepFirst_eq_iff :
    keepFirst first values = keepFirst second values ↔ AgreeFrom first second [] values :=
  keepFirstFrom_eq_iff

end Relations

section Keys

variable [DecidableEq κ] {key : α → κ}

theorem dropSeen_eq_keepFirstFrom {seen : List κ} {earlier values : List α}
    (h : ∀ k, k ∈ seen ↔ ∃ y ∈ earlier, key y = k) :
    dropSeen key seen values = keepFirstFrom (fun y x ↦ key y = key x) earlier values := by
  induction values generalizing seen earlier with
  | nil => rfl
  | cons x rest ih =>
    have hany : (earlier.any fun y ↦ decide (key y = key x)) ↔ key x ∈ seen := by
      simp [h]
    rw [dropSeen, keepFirstFrom]
    by_cases hseen : key x ∈ seen
    · rw [if_pos hseen, if_pos (hany.mpr hseen)]
      refine ih fun k ↦ ?_
      rw [List.exists_mem_cons_iff, ← h]
      exact ⟨Or.inr, fun hk ↦ hk.elim (fun hx ↦ hx ▸ hseen) id⟩
    · rw [if_neg hseen, if_neg fun hx ↦ hseen (hany.mp hx)]
      refine congrArg (x :: ·) (ih fun k ↦ ?_)
      rw [List.exists_mem_cons_iff, ← h, List.mem_cons, eq_comm]

/-- Dropping the seen keys keeps the first element of each key. -/
theorem dropSeen_eq_keepFirst (values : List α) :
    dropSeen key [] values = keepFirst (fun y x ↦ key y = key x) values :=
  dropSeen_eq_keepFirstFrom (by simp)

end Keys

end MaRuntime
