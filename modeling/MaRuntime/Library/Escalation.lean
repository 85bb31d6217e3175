import Mathlib.Data.List.Basic
import Mathlib.Data.List.Induction

/-!
# Levels that are raised one step at a time

A level is raised by one step at a time, as far as the limit of the moment allows: a raise under a
limit that is reached already leaves it as it is. The keys that have a level come in groups, and a
reset of a group takes the level of each of its keys away.

`levelAfter` is the level after raises under some limits, and `limitsSince` reads from a history the
limits under which a key was raised since the last reset of its group. Under one limit the level is
the number of the raises or the limit, whichever is less (`levelAfter_of_forall_eq`).
-/

set_option autoImplicit false
set_option relaxedAutoImplicit false

namespace MaRuntime.Escalation

/-- The level after one more raise under a limit. -/
def raise (limit : Nat) : Option Nat → Nat
  | none => 1
  | some level => if limit ≤ level then level else level + 1

/-- The level after raises under some limits, the earliest first. -/
def levelAfter (limits : List Nat) : Option Nat :=
  limits.foldl (fun level limit ↦ some (raise limit level)) none

/-- What happens to keys and their groups. -/
inductive Event (Key Group : Type*)
  | raised (key : Key) (limit : Nat)
  | reset (group : Group)

variable {Key Group : Type*} [DecidableEq Key] [DecidableEq Group]

/-- The limits of the raises of a key since its group was reset, after one more event. -/
def note (group : Key → Group) (key : Key) (limits : List Nat) : Event Key Group → List Nat
  | .raised other limit => if other = key then limits ++ [limit] else limits
  | .reset g => if g = group key then [] else limits

/-- The limits of the raises of a key since the last reset of its group, the earliest first. -/
def limitsSince (group : Key → Group) (key : Key) (events : List (Event Key Group)) : List Nat :=
  events.foldl (note group key) []

theorem limitsSince_append (group : Key → Group) (key : Key)
    (first second : List (Event Key Group)) :
    limitsSince group key (first ++ second) =
      second.foldl (note group key) (limitsSince group key first) :=
  List.foldl_append

@[simp] theorem levelAfter_nil : levelAfter [] = none := rfl

@[simp] theorem levelAfter_append_singleton (limits : List Nat) (limit : Nat) :
    levelAfter (limits ++ [limit]) = some (raise limit (levelAfter limits)) :=
  List.foldl_concat _ _ _ _

theorem raise_pos {level : Option Nat} (limit : Nat) (h : ∀ k, level = some k → 0 < k) :
    0 < raise limit level := by
  cases level with
  | none => exact Nat.one_pos
  | some k =>
    have := h k rfl
    simp only [raise]
    split_ifs <;> omega

theorem pos_of_levelAfter {limits : List Nat} {level : Nat} (h : levelAfter limits = some level) :
    0 < level := by
  induction limits using List.reverseRecOn generalizing level with
  | nil => cases h
  | append_singleton limits limit ih =>
    rw [levelAfter_append_singleton, Option.some.injEq] at h
    exact h ▸ raise_pos limit fun k hk ↦ ih hk

/-- Under one limit, the level is the number of raises as far as the limit allows. -/
theorem levelAfter_of_forall_eq {limits : List Nat} {limit : Nat} (hlimit : 0 < limit)
    (hne : limits ≠ []) (h : ∀ l ∈ limits, l = limit) :
    levelAfter limits = some (min limits.length limit) := by
  induction limits using List.reverseRecOn with
  | nil => exact absurd rfl hne
  | append_singleton limits last ih =>
    obtain rfl : last = limit := h last (by simp)
    rw [levelAfter_append_singleton, Option.some.injEq]
    rcases eq_or_ne limits [] with rfl | hbefore
    · simp only [levelAfter_nil, raise, List.nil_append, List.length_singleton]
      omega
    · rw [ih hbefore fun l hl ↦ h l (List.mem_append_left _ hl)]
      simp only [raise, List.length_append, List.length_singleton]
      split_ifs <;> omega

/-- A level is at most the number of its raises. -/
theorem le_length_of_levelAfter {limits : List Nat} {level : Nat}
    (h : levelAfter limits = some level) : level ≤ limits.length := by
  induction limits using List.reverseRecOn generalizing level with
  | nil => cases h
  | append_singleton limits limit ih =>
    rw [levelAfter_append_singleton, Option.some.injEq] at h
    rw [← h, List.length_append, List.length_singleton]
    cases hbefore : levelAfter limits with
    | none => exact Nat.succ_le_succ (Nat.zero_le _)
    | some k =>
      have hk := ih hbefore
      simp only [raise]
      split_ifs <;> omega

/-- A level is at most the greatest limit it was raised under. -/
theorem exists_le_of_levelAfter {limits : List Nat} {level : Nat}
    (h : levelAfter limits = some level) : level = 1 ∨ ∃ l ∈ limits, level ≤ l := by
  induction limits using List.reverseRecOn generalizing level with
  | nil => cases h
  | append_singleton limits limit ih =>
    rw [levelAfter_append_singleton, Option.some.injEq] at h
    subst h
    cases hbefore : levelAfter limits with
    | none => exact .inl rfl
    | some k =>
      simp only [raise]
      split_ifs with hreached
      · rcases ih hbefore with rfl | ⟨l, hl, hle⟩
        · exact .inl rfl
        · exact .inr ⟨l, List.mem_append_left _ hl, hle⟩
      · exact .inr ⟨limit, by simp, by omega⟩

end MaRuntime.Escalation
