import Mathlib.Data.List.Basic
import Mathlib.Tactic.SplitIfs

/-!
# Runs of a deterministic machine

A machine is a function `step : State → Action → Option State`: an action taken in a state is either
not enabled or leads to one next state, so every choice of a scheduler, an environment or a caller
is part of the action. `GuardedRun step guard` is a run every step of which meets `guard`, a
condition on the state before the step and on the action; `Run step` is a run without a condition.

`GuardedRun.invariant` is the induction on a run, and `GuardedRun.relates` its form for a reflexive
and transitive relation between the states of a run. `guardedRun_congr_of_invariant` replaces a
guard by one that agrees with it under an invariant. `GuardedRun.append` and `guardedRun_append` cut
a run in two, `GuardedRun.cut` in a state that is known, and `guardedRun_iff_forall_split` says that
a run is guarded when the guard holds wherever the run is cut, and `exists_run_iff_forall_split`
that there is a run when every action is enabled there; `guardedRun_iff_forall_prefix` has a
guard that is exactly what a step needs to keep a property, and `guardedRun_iff_forall_step` one
that is exactly what a step needs to keep a property and to have an effect. For an induction from
the end of a list, `forall_split_append_singleton` says where a longer list is cut. `execute`
computes the end of a run, and `guardedRun_of_execute` that of one whose guard is checked.
`exists_run_of_decreases` has a run to an end wherever a step that lowers a measure is enabled.
`GuardedRun.exists_turn` is the step of a run in which something comes about, and
`GuardedRun.exists_filter` leaves out the actions that make no difference.
-/

set_option autoImplicit false
set_option relaxedAutoImplicit false

namespace MaRuntime.Runs

variable {State Action : Type*} {step : State → Action → Option State}
  {guard weaker : State → Action → Prop}

/-- A run of the machine from one state to another, along which every action meets the guard in the
state it is taken in. -/
inductive GuardedRun (step : State → Action → Option State) (guard : State → Action → Prop) :
    State → List Action → State → Prop
  | nil (s : State) : GuardedRun step guard s [] s
  | cons {s t u : State} {a : Action} {rest : List Action} (hguard : guard s a)
      (hstep : step s a = some t) (hrest : GuardedRun step guard t rest u) :
      GuardedRun step guard s (a :: rest) u

/-- A run of the machine, without a condition on its steps. -/
abbrev Run (step : State → Action → Option State) : State → List Action → State → Prop :=
  GuardedRun step fun _ _ ↦ True

/-- The state after a list of actions, when every one of them is enabled. -/
def execute (step : State → Action → Option State) (s : State) : List Action → Option State
  | [] => some s
  | a :: rest => (step s a).bind fun t ↦ execute step t rest

theorem run_of_execute {s u : State} {actions : List Action}
    (h : execute step s actions = some u) : Run step s actions u := by
  induction actions generalizing s with
  | nil =>
    obtain rfl : s = u := Option.some.inj h
    exact .nil s
  | cons a rest ih =>
    obtain ⟨t, hstep, hrest⟩ := Option.bind_eq_some_iff.mp h
    exact .cons trivial hstep (ih hrest)

/-- A guard that is checked where a run is computed. -/
theorem guardedRun_of_execute {check : State → Action → Bool}
    (hcheck : ∀ s a, check s a = true → guard s a) {s u : State} {actions : List Action}
    (h : execute (fun s a ↦ if check s a then step s a else none) s actions = some u) :
    GuardedRun step guard s actions u := by
  induction actions generalizing s with
  | nil =>
    obtain rfl : s = u := Option.some.inj h
    exact .nil s
  | cons a rest ih =>
    obtain ⟨t, hstep, hrest⟩ := Option.bind_eq_some_iff.mp h
    dsimp only at hstep
    split_ifs at hstep with hguard
    exact .cons (hcheck s a hguard) hstep (ih hrest)

theorem GuardedRun.mono {s u : State} {actions : List Action}
    (hweaker : ∀ s a, guard s a → weaker s a) (h : GuardedRun step guard s actions u) :
    GuardedRun step weaker s actions u := by
  induction h with
  | nil s => exact .nil s
  | cons hguard hstep _ ih => exact .cons (hweaker _ _ hguard) hstep ih

theorem GuardedRun.run {s u : State} {actions : List Action}
    (h : GuardedRun step guard s actions u) : Run step s actions u :=
  h.mono fun _ _ _ ↦ trivial

/-- A run is guarded when its actions meet the guard in every state. -/
theorem Run.guardedRun {s u : State} {actions : List Action} (h : Run step s actions u)
    (hguard : ∀ a ∈ actions, ∀ s, guard s a) : GuardedRun step guard s actions u := by
  induction h with
  | nil s => exact .nil s
  | cons _ hstep _ ih =>
    exact .cons (hguard _ List.mem_cons_self _) hstep
      (ih fun a ha ↦ hguard a (List.mem_cons_of_mem _ ha))

/-- What every guarded step preserves holds at the end of a guarded run. -/
theorem GuardedRun.invariant {s u : State} {actions : List Action} (property : State → Prop)
    (h : GuardedRun step guard s actions u)
    (hstep : ∀ s a t, property s → guard s a → step s a = some t → property t)
    (hs : property s) : property u := by
  induction h with
  | nil s => exact hs
  | cons hguard hnext _ ih => exact ih (hstep _ _ _ hs hguard hnext)

/-- A guard may be replaced by one that follows from it where a property holds that the guarded
steps preserve. -/
theorem GuardedRun.mono_of_invariant {s u : State} {actions : List Action} (property : State → Prop)
    (h : GuardedRun step guard s actions u) (hs : property s)
    (hstep : ∀ s a t, property s → guard s a → step s a = some t → property t)
    (hweaker : ∀ s a, property s → guard s a → weaker s a) :
    GuardedRun step weaker s actions u := by
  induction h with
  | nil s => exact .nil s
  | cons hguard hnext _ ih =>
    exact .cons (hweaker _ _ hs hguard) hnext (ih (hstep _ _ _ hs hguard hnext))

/-- Two guards that agree where a property holds which guarded steps preserve guard the
same runs. -/
theorem guardedRun_congr_of_invariant {s u : State} {actions : List Action}
    (property : State → Prop) (hs : property s)
    (hagree : ∀ s a, property s → (guard s a ↔ weaker s a))
    (hstep : ∀ s a t, property s → guard s a → step s a = some t → property t) :
    GuardedRun step guard s actions u ↔ GuardedRun step weaker s actions u := by
  constructor
  · intro h
    exact h.mono_of_invariant property hs hstep fun s a hs ↦ (hagree s a hs).mp
  · intro h
    refine h.mono_of_invariant property hs ?_ fun s a hs ↦ (hagree s a hs).mpr
    intro s a t hs hweaker hnext
    exact hstep s a t hs ((hagree s a hs).mpr hweaker) hnext

/-- A reflexive and transitive relation that every guarded step respects relates the two ends of a
guarded run. -/
theorem GuardedRun.relates {s u : State} {actions : List Action} (relation : State → State → Prop)
    (h : GuardedRun step guard s actions u) (hrefl : ∀ s, relation s s)
    (htrans : ∀ s t u, relation s t → relation t u → relation s u)
    (hstep : ∀ s a t, guard s a → step s a = some t → relation s t) : relation s u := by
  induction h with
  | nil s => exact hrefl s
  | cons hguard hnext _ ih => exact htrans _ _ _ (hstep _ _ _ hguard hnext) ih

theorem GuardedRun.append {s t u : State} {first second : List Action}
    (hfirst : GuardedRun step guard s first t) (hsecond : GuardedRun step guard t second u) :
    GuardedRun step guard s (first ++ second) u := by
  induction hfirst with
  | nil s => exact hsecond
  | cons hguard hstep _ ih => exact .cons hguard hstep (ih hsecond)

/-- A run of two lists of actions passes through a state between them. -/
theorem guardedRun_append {s u : State} {first second : List Action} :
    GuardedRun step guard s (first ++ second) u ↔
      ∃ t, GuardedRun step guard s first t ∧ GuardedRun step guard t second u := by
  refine ⟨fun h ↦ ?_, fun ⟨t, hfirst, hsecond⟩ ↦ hfirst.append hsecond⟩
  induction first generalizing s with
  | nil => exact ⟨s, .nil s, h⟩
  | cons a rest ih =>
    cases h with
    | cons hguard hstep hrest =>
      obtain ⟨t, hfirst, hsecond⟩ := ih hrest
      exact ⟨t, .cons hguard hstep hfirst, hsecond⟩

/-- Where there is an allowed action that leads on as long as the end is not reached, and each one
takes something away from a measure, a run of allowed actions leads to the end. -/
theorem exists_run_of_decreases {s : State} (property ends : State → Prop) (allowed : Action → Prop)
    (measure : State → ℕ) (hs : property s)
    (hstep : ∀ s, property s → ¬ends s →
      ∃ a t, allowed a ∧ step s a = some t ∧ property t ∧ measure t < measure s) :
    ∃ actions t, Run step s actions t ∧ (∀ a ∈ actions, allowed a) ∧ property t ∧ ends t := by
  induction hleft : measure s using Nat.strongRecOn generalizing s with
  | ind left ih =>
    subst hleft
    by_cases hends : ends s
    · exact ⟨[], s, .nil s, fun a ha ↦ (nomatch ha), hs, hends⟩
    · obtain ⟨a, middle, hallowed, hnext, hmiddle, hless⟩ := hstep s hs hends
      obtain ⟨rest, t, hrun, hrest, ht, hended⟩ := ih (measure middle) hless hmiddle rfl
      exact ⟨a :: rest, t, .cons trivial hnext hrun, List.forall_mem_cons.mpr ⟨hallowed, hrest⟩,
        ht, hended⟩

/-- The actions of a run determine its end. -/
theorem Run.unique {s u v : State} {actions : List Action} (hu : Run step s actions u)
    (hv : Run step s actions v) : u = v := by
  induction hu with
  | nil s => cases hv with | nil => rfl
  | cons _ hstep _ ih =>
    cases hv with
    | cons _ hstep' hrest =>
      obtain rfl := Option.some.inj (hstep.symm.trans hstep')
      exact ih hrest

/-- A guarded run is cut in the state that its first actions lead to. -/
theorem GuardedRun.cut {s t u : State} {before after : List Action}
    (h : GuardedRun step guard s (before ++ after) u) (ht : Run step s before t) :
    GuardedRun step guard s before t ∧ GuardedRun step guard t after u := by
  obtain ⟨t', hbefore, hafter⟩ := guardedRun_append.mp h
  obtain rfl := Run.unique ht hbefore.run
  exact ⟨hbefore, hafter⟩

/-- An action of a guarded run meets the guard and is enabled in the state that the actions before
it lead to. -/
theorem GuardedRun.cut_cons {s t u : State} {before after : List Action} {a : Action}
    (h : GuardedRun step guard s (before ++ a :: after) u) (ht : Run step s before t) :
    GuardedRun step guard s before t ∧ guard t a ∧
      ∃ v, step t a = some v ∧ GuardedRun step guard v after u := by
  obtain ⟨hbefore, hrest⟩ := h.cut ht
  cases hrest with
  | cons hguard hstep hafter => exact ⟨hbefore, hguard, _, hstep, hafter⟩

/-- A run is guarded exactly when the guard holds of each of its actions, in the state that the
actions before it lead to. -/
theorem guardedRun_iff_forall_split {s u : State} {actions : List Action}
    (h : Run step s actions u) :
    GuardedRun step guard s actions u ↔
      ∀ before a after t, actions = before ++ a :: after → Run step s before t → guard t a := by
  constructor
  · rintro hguarded before a after t rfl ht
    exact (hguarded.cut_cons ht).2.1
  · intro hsplit
    induction h with
    | nil s => exact .nil s
    | cons _ hstep _ ih =>
      refine .cons (hsplit [] _ _ _ rfl (.nil _)) hstep (ih fun before b after t hrest ht ↦ ?_)
      exact hsplit (_ :: before) b after t (by rw [hrest]; rfl) (.cons trivial hstep ht)

/-- Some actions can all be taken exactly when each of them is enabled in the state that the actions
before it lead to. -/
theorem exists_run_iff_forall_split {s : State} {actions : List Action} :
    (∃ u, Run step s actions u) ↔
      ∀ before a after t, actions = before ++ a :: after → Run step s before t →
        (step t a).isSome = true := by
  constructor
  · rintro ⟨u, h⟩ before a after t rfl ht
    obtain ⟨-, -, v, hnext, -⟩ := GuardedRun.cut_cons h ht
    exact Option.isSome_of_eq_some hnext
  · intro hsplit
    induction actions generalizing s with
    | nil => exact ⟨s, .nil s⟩
    | cons a rest ih =>
      obtain ⟨t, hnext⟩ := Option.isSome_iff_exists.mp (hsplit [] a rest s rfl (.nil s))
      have hfirst : Run step s [a] t := .cons trivial hnext (.nil t)
      obtain ⟨u, hrest⟩ := ih fun before b after v heq hv ↦
        hsplit (a :: before) b after v (congrArg (a :: ·) heq) (hfirst.append hv)
      exact ⟨u, hfirst.append hrest⟩

/-- What holds at the end of a run and not at its start has come about in one of its steps. -/
theorem GuardedRun.exists_turn {s u : State} {actions : List Action} (property : State → Prop)
    (h : GuardedRun step guard s actions u) (hs : ¬property s) (hu : property u) :
    ∃ before a after t v, actions = before ++ a :: after ∧ GuardedRun step guard s before t ∧
      step t a = some v ∧ GuardedRun step guard v after u ∧ ¬property t ∧ property v := by
  induction h with
  | nil s => exact absurd hu hs
  | @cons s middle u a rest hguard hnext hrest ih =>
    by_cases hmiddle : property middle
    · exact ⟨[], a, rest, s, middle, rfl, .nil s, hnext, hrest, hs, hmiddle⟩
    · obtain ⟨before, b, after, t, v, rfl, hbefore, hturn, hafter, ht, hv⟩ := ih hmiddle hu
      exact ⟨a :: before, b, after, t, v, rfl, .cons hguard hnext hbefore, hturn, hafter, ht, hv⟩

/-- Actions that make no difference to what two states have in common can be left out. -/
theorem GuardedRun.exists_filter {s s' u : State} {actions : List Action}
    (related : State → State → Prop) (keeps : Action → Bool)
    (h : GuardedRun step guard s actions u) (hs : related s s')
    (hkept : ∀ s s' a t, related s s' → guard s a → keeps a = true → step s a = some t →
      ∃ t', step s' a = some t' ∧ related t t')
    (hleft : ∀ s s' a t, related s s' → guard s a → keeps a = false → step s a = some t →
      related t s') :
    ∃ u', Run step s' (actions.filter keeps) u' ∧ related u u' := by
  induction h generalizing s' with
  | nil s => exact ⟨s', .nil s', hs⟩
  | @cons s middle u a rest hguard hnext _ ih =>
    cases hkeeps : keeps a with
    | true =>
      obtain ⟨t', hstep, hrelated⟩ := hkept s s' a middle hs hguard hkeeps hnext
      obtain ⟨u', hrun, hu⟩ := ih hrelated
      rw [List.filter_cons_of_pos hkeeps]
      exact ⟨u', .cons trivial hstep hrun, hu⟩
    | false =>
      rw [List.filter_cons_of_neg (by rw [hkeeps]; exact Bool.false_ne_true)]
      exact ih (hleft s s' a middle hs hguard hkeeps hnext)

/-- A list with one more item at its end is cut before that item, or where the list is. -/
theorem forall_split_append_singleton {α : Type*} {property : List α → α → Prop} {xs : List α}
    {x : α} :
    (∀ before a after, xs ++ [x] = before ++ a :: after → property before a) ↔
      (∀ before a after, xs = before ++ a :: after → property before a) ∧ property xs x := by
  constructor
  · intro h
    refine ⟨fun before a after hsplit ↦ h before a (after ++ [x]) (by simp [hsplit]), ?_⟩
    exact h xs x [] rfl
  · rintro ⟨hinit, hlast⟩ before a after hsplit
    rcases List.eq_nil_or_concat after with rfl | ⟨init, last, rfl⟩
    · obtain ⟨rfl, hx⟩ := List.append_inj' hsplit rfl
      obtain rfl := List.head_eq_of_cons_eq hx
      exact hlast
    · rw [List.concat_eq_append, ← List.cons_append, ← List.append_assoc] at hsplit
      exact hinit before a init (List.append_inj' hsplit rfl).1

/-- Where a step keeps a property exactly when it meets the guard, the property holds after every
step of a run if and only if the run is guarded. -/
theorem guardedRun_iff_forall_prefix {s u : State} {actions : List Action} (property : State → Prop)
    (h : Run step s actions u) (hs : property s)
    (hstep : ∀ s a t, property s → guard s a → step s a = some t → property t)
    (hguard : ∀ s a t, property s → step s a = some t → property t → guard s a) :
    (∀ before after t, actions = before ++ after → Run step s before t → property t) ↔
      GuardedRun step guard s actions u := by
  constructor
  · intro hreached
    refine (guardedRun_iff_forall_split h).mpr fun before a after t hsplit ht ↦ ?_
    obtain ⟨-, -, v, hnext, -⟩ := GuardedRun.cut_cons (hsplit ▸ h) ht
    refine hguard t a v (hreached before (a :: after) t hsplit ht) hnext ?_
    exact hreached (before ++ [a]) after v (by simp [hsplit])
      (ht.append (.cons trivial hnext (.nil v)))
  · intro hguarded before after t hsplit ht
    obtain ⟨hbefore, -⟩ := GuardedRun.cut (hsplit ▸ hguarded) ht
    exact hbefore.invariant property hstep hs

/-- Where a step keeps a property and has an effect exactly when it meets the guard, all steps of a
run do so if and only if the run is guarded. -/
theorem guardedRun_iff_forall_step {s u : State} {actions : List Action} (property : State → Prop)
    (effect : State → Action → State → Prop) (h : Run step s actions u) (hs : property s)
    (hguard : ∀ s a t, property s → step s a = some t →
      (guard s a ↔ property t ∧ effect s a t)) :
    (∀ before a after t v, actions = before ++ a :: after → Run step s before t →
        step t a = some v → property v ∧ effect t a v) ↔
      GuardedRun step guard s actions u := by
  have hstep (s : State) (a : Action) (t : State) (hs : property s) (ha : guard s a)
      (hnext : step s a = some t) : property t := ((hguard s a t hs hnext).mp ha).1
  constructor
  · intro heach
    induction h with
    | nil s => exact .nil s
    | cons _ hnext _ ih =>
      have hhead := heach [] _ _ _ _ rfl (.nil _) hnext
      refine .cons ((hguard _ _ _ hs hnext).mpr hhead) hnext (ih hhead.1 ?_)
      intro before a after t v hrest ht
      exact heach (_ :: before) a after t v (by rw [hrest]; rfl) (.cons trivial hnext ht)
  · rintro hguarded before a after t v rfl ht hnext
    obtain ⟨hbefore, ha, -⟩ := hguarded.cut_cons ht
    exact (hguard t a v (hbefore.invariant property hstep hs) hnext).mp ha

end MaRuntime.Runs
