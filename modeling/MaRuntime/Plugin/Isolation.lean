import Mathlib.Data.List.Basic
import MaRuntime.Library.Runs

/-!
# Isolated dispatches

The runtime tells how much memory a dispatch has taken only where no other dispatch ran beside it.
It counts the dispatches that are active and those that have begun. A dispatch begins with an
increment of the second counter (`generation`) and then one of the first (`active`), and it takes
itself for isolated if it found `active` at zero, and finds it at one and `generation` as it left it
afterwards (`DispatchActivity.isIsolated`).

Two increments are not one step. A dispatch that has made its first increment before another one
begins may make its second one beside it, and end before the other one looks. `isolated_iff` says
that this, or a counter that comes round, is the only way in which a dispatch takes itself for
isolated and is not. In `overlapped_begin_isolated` it comes to that.

Main definitions: `DispatchActivity`, `activityStep`, `Isolated`, `BeginsApart`.
Main results: `isolated_iff`, `overlapped_begin_isolated`.

Scope. Of a dispatch only its accesses to the counters are modelled. A `usize` has 64 bits.
-/

set_option autoImplicit false
set_option relaxedAutoImplicit false

namespace MaRuntime.Plugin

open Runs

/-! ### The counters and their accesses -/

/-- What a dispatch keeps of its begin. -/
structure DispatchActivity where
  startedAlone : Bool
  generationAtStart : UInt64

/-- `is_isolated`, with what it loads from the counters. -/
def DispatchActivity.isIsolated (activity : DispatchActivity) (active generation : UInt64) : Bool :=
  activity.startedAlone && active == 1 && generation == activity.generationAtStart

/-- Where a dispatch stands: between the two steps of its begin, running, between the two loads of
an `is_isolated` with what the first one found, or dropped. -/
inductive DispatchPhase
  | begins (generationAtStart : UInt64)
  | running (activity : DispatchActivity)
  | loaded (activity : DispatchActivity) (active : UInt64)
  | dropped

/-- Whether a dispatch is counted in `active`. -/
def DispatchPhase.isActive : DispatchPhase → Bool
  | .running _ | .loaded _ _ => true
  | .begins _ | .dropped => false

/-- The two counters, and the dispatches in the order of their first increments. -/
structure Dispatches where
  active : UInt64
  generation : UInt64
  phases : List DispatchPhase

def Dispatches.new : Dispatches := ⟨0, 0, []⟩

/-- The accesses of a dispatch that has made its first increment. -/
inductive CounterAccess
  | incrementActive
  | loadActive
  | loadGeneration
  | decrementActive
deriving DecidableEq

inductive DispatchStep
  | incrementGeneration (dispatch : ℕ)
  | access (dispatch : ℕ) (access : CounterAccess)
deriving DecidableEq

/-- The dispatch that takes a step. -/
def DispatchStep.dispatch : DispatchStep → ℕ
  | .incrementGeneration d | .access d _ => d

/-- A dispatch after an access, and the counter `active`: the second step of `begin`, the loads of
`is_isolated`, and `drop`. -/
def phaseStep (active : UInt64) : DispatchPhase → CounterAccess → Option (DispatchPhase × UInt64)
  | .begins generationAtStart, .incrementActive =>
    some (.running ⟨active == 0, generationAtStart⟩, active + 1)
  | .running activity, .loadActive => some (.loaded activity active, active)
  | .loaded activity _, .loadGeneration => some (.running activity, active)
  | .running _, .decrementActive => some (.dropped, active - 1)
  | _, _ => none

/-- One step of an interleaving of dispatches. They are numbered by their first increments. -/
def activityStep (s : Dispatches) : DispatchStep → Option Dispatches
  | .incrementGeneration d =>
    if d = s.phases.length then
      some { s with
        generation := s.generation + 1
        phases := s.phases ++ [.begins (s.generation + 1)] }
    else none
  | .access d access =>
    (s.phases[d]?).bind fun phase ↦ (phaseStep s.active phase access).map fun next ↦
      { s with active := next.2, phases := s.phases.set d next.1 }

/-- What `is_isolated` of a dispatch answers when it loads `generation` now. -/
def Dispatches.answer (s : Dispatches) (d : ℕ) : Option Bool :=
  match s.phases[d]? with
  | some (.loaded activity active) => some (activity.isIsolated active s.generation)
  | _ => none

/-! ### The property and the condition -/

/-- When a dispatch came to the end of its begin no other one was active, and none has taken a step
since. -/
structure Isolated (begun : Dispatches) (d : ℕ) (window : List DispatchStep) : Prop where
  alone : ∀ e (phase : DispatchPhase), e ≠ d → begun.phases[e]? = some phase →
    phase.isActive = false
  window : ∀ step ∈ window, step.dispatch = d

/-- No other dispatch that had made its first increment when a dispatch came to the end of its begin
has made its second one since; and no counter came round: fewer than 2^64 dispatches were active,
and no more have made their first increment after its own, unless none of them since it began. -/
structure BeginsApart (begun s : Dispatches) (d : ℕ) (window : List DispatchStep) : Prop where
  apart : ∀ e, e ≠ d → e < begun.phases.length → .access e .incrementActive ∉ window
  active : begun.phases.countP DispatchPhase.isActive < UInt64.size
  generation : s.phases.length ≤ d + UInt64.size ∨ s.phases.length = begun.phases.length

/-! ### Steps -/

section Steps

variable {s t : Dispatches} {taken : DispatchStep} {d e : ℕ}

/-- A step makes a first increment, or it is an access of one dispatch. -/
theorem activityStep_cases (h : activityStep s taken = some t) :
    (taken = .incrementGeneration s.phases.length ∧
      t = ⟨s.active, s.generation + 1, s.phases ++ [.begins (s.generation + 1)]⟩) ∨
    ∃ d access phase next, taken = .access d access ∧ s.phases[d]? = some phase ∧
      phaseStep s.active phase access = some next ∧
      t = ⟨next.2, s.generation, s.phases.set d next.1⟩ := by
  cases taken with
  | incrementGeneration d =>
    simp only [activityStep] at h
    split_ifs at h with hd
    exact .inl ⟨by rw [hd], (Option.some.inj h).symm⟩
  | access d access =>
    obtain ⟨phase, hphase, h⟩ := Option.bind_eq_some_iff.mp h
    obtain ⟨next, hnext, rfl⟩ := Option.map_eq_some_iff.mp h
    exact .inr ⟨d, access, phase, next, rfl, hphase, hnext, rfl⟩

/-- What an access does to the dispatch. -/
theorem phaseStep_cases {active : UInt64} {phase : DispatchPhase} {access : CounterAccess}
    {next : DispatchPhase × UInt64} (h : phaseStep active phase access = some next) :
    (∃ generation, access = .incrementActive ∧ phase = .begins generation ∧
      next = (.running ⟨active == 0, generation⟩, active + 1)) ∨
    (∃ activity, access = .loadActive ∧ phase = .running activity ∧
      next = (.loaded activity active, active)) ∨
    (∃ activity loaded, access = .loadGeneration ∧ phase = .loaded activity loaded ∧
      next = (.running activity, active)) ∨
    (∃ activity, access = .decrementActive ∧ phase = .running activity ∧
      next = (.dropped, active - 1)) := by
  cases phase with
  | begins generation =>
    cases access with
    | incrementActive => exact .inl ⟨generation, rfl, rfl, (Option.some.inj h).symm⟩
    | loadActive | loadGeneration | decrementActive => cases h
  | running activity =>
    cases access with
    | loadActive => exact .inr (.inl ⟨activity, rfl, rfl, (Option.some.inj h).symm⟩)
    | decrementActive => exact .inr (.inr (.inr ⟨activity, rfl, rfl, (Option.some.inj h).symm⟩))
    | incrementActive | loadGeneration => cases h
  | loaded activity loaded =>
    cases access with
    | loadGeneration =>
      exact .inr (.inr (.inl ⟨activity, loaded, rfl, rfl, (Option.some.inj h).symm⟩))
    | incrementActive | loadActive | decrementActive => cases h
  | dropped => cases access <;> cases h

theorem lt_length_of_getElem? {phase : DispatchPhase} (h : s.phases[d]? = some phase) :
    d < s.phases.length := (List.getElem?_eq_some_iff.mp h).1

end Steps

/-! ### The counters along a run -/

/-- A dispatch has this value of `generation` from its begin. -/
def DispatchPhase.BegunAt (generation : UInt64) : DispatchPhase → Prop
  | .begins generationAtStart => generationAtStart = generation
  | .running activity | .loaded activity _ => activity.generationAtStart = generation
  | .dropped => True

/-- The counters count, modulo 2^64, the active dispatches and the first increments. -/
structure Counted (s : Dispatches) : Prop where
  active : s.active = UInt64.ofNat (s.phases.countP DispatchPhase.isActive)
  generation : s.generation = UInt64.ofNat s.phases.length
  begunAt : ∀ d (phase : DispatchPhase), s.phases[d]? = some phase →
    phase.BegunAt (UInt64.ofNat (d + 1))

theorem counted_new : Counted .new where
  active := rfl
  generation := rfl
  begunAt d phase h := by cases h

/-- The number of active dispatches when one of them takes another phase. -/
theorem countP_set_add {phases : List DispatchPhase} {d : ℕ} {phase : DispatchPhase}
    (h : phases[d]? = some phase) (next : DispatchPhase) :
    (phases.set d next).countP DispatchPhase.isActive + (if phase.isActive then 1 else 0) =
      phases.countP DispatchPhase.isActive + (if next.isActive then 1 else 0) := by
  obtain ⟨hd, hphase⟩ := List.getElem?_eq_some_iff.mp h
  rw [List.countP_set hd, hphase]
  by_cases hactive : phase.isActive = true
  · have hpos : 0 < phases.countP DispatchPhase.isActive :=
      List.countP_pos_iff.mpr ⟨phase, List.mem_of_getElem? h, hactive⟩
    simp only [hactive, if_true]
    omega
  · simp only [hactive, Bool.false_eq_true, if_false]
    omega

section Runs

variable {s t : Dispatches} {taken : DispatchStep} {steps : List DispatchStep} {d : ℕ}

theorem Counted.step (h : Counted s) (hstep : activityStep s taken = some t) : Counted t := by
  obtain ⟨-, rfl⟩ | ⟨d, access, phase, next, -, hphase, hnext, rfl⟩ := activityStep_cases hstep
  · refine ⟨?_, ?_, fun e phase he ↦ ?_⟩
    · rw [List.countP_append]
      exact h.active
    · rw [List.length_append, UInt64.ofNat_add, h.generation]
      rfl
    · rcases Nat.lt_trichotomy e s.phases.length with hlt | rfl | hgt
      · rw [List.getElem?_append_left hlt] at he
        exact h.begunAt e phase he
      · rw [List.getElem?_concat_length] at he
        obtain rfl := Option.some.inj he
        change s.generation + 1 = _
        rw [h.generation, UInt64.ofNat_add]
        rfl
      · rw [List.getElem?_eq_none (by rw [List.length_append]; exact hgt)] at he
        cases he
  · have hcount := countP_set_add hphase next.1
    have hbegun := h.begunAt d phase hphase
    have hothers (e : ℕ) (hne : d ≠ e) (other : DispatchPhase)
        (he : (s.phases.set d next.1)[e]? = some other) :
        other.BegunAt (UInt64.ofNat (e + 1)) := by
      rw [List.getElem?_set_ne hne] at he
      exact h.begunAt e other he
    have hown (hkept : next.1.BegunAt (UInt64.ofNat (d + 1))) (e : ℕ) (other : DispatchPhase)
        (he : (s.phases.set d next.1)[e]? = some other) :
        other.BegunAt (UInt64.ofNat (e + 1)) := by
      by_cases hde : d = e
      · subst hde
        rw [List.getElem?_set_self (List.getElem?_eq_some_iff.mp hphase).1] at he
        obtain rfl := Option.some.inj he
        exact hkept
      · exact hothers e hde other he
    have hlength : s.generation = UInt64.ofNat (s.phases.set d next.1).length := by
      rw [List.length_set]
      exact h.generation
    obtain ⟨generation, -, rfl, rfl⟩ | ⟨activity, -, rfl, rfl⟩ | ⟨activity, loaded, -, rfl, rfl⟩ |
      ⟨activity, -, rfl, rfl⟩ := phaseStep_cases hnext
    · refine ⟨?_, hlength, hown hbegun⟩
      simp only [DispatchPhase.isActive, Bool.false_eq_true, if_false, if_true,
        Nat.add_zero] at hcount
      rw [hcount, UInt64.ofNat_add, h.active]
      rfl
    · refine ⟨?_, hlength, hown hbegun⟩
      simp only [DispatchPhase.isActive, if_true, Nat.add_right_cancel_iff] at hcount
      rw [hcount]
      exact h.active
    · refine ⟨?_, hlength, hown hbegun⟩
      simp only [DispatchPhase.isActive, if_true, Nat.add_right_cancel_iff] at hcount
      rw [hcount]
      exact h.active
    · refine ⟨?_, hlength, hown trivial⟩
      simp only [DispatchPhase.isActive, Bool.false_eq_true, if_false, if_true,
        Nat.add_zero] at hcount
      change s.active - 1 = _
      rw [h.active, ← hcount, UInt64.ofNat_add]
      exact UInt64.add_sub_cancel _ _

theorem counted_of_run (h : Run activityStep .new steps s) : Counted s :=
  h.invariant Counted (fun _ _ _ hs _ hstep ↦ hs.step hstep) counted_new

theorem length_le_of_step (hstep : activityStep s taken = some t) :
    s.phases.length ≤ t.phases.length := by
  obtain ⟨-, rfl⟩ | ⟨d, access, phase, next, -, -, -, rfl⟩ := activityStep_cases hstep
  · rw [List.length_append]
    exact Nat.le_add_right _ _
  · exact Nat.le_of_eq List.length_set.symm

theorem length_le_of_run (h : Run activityStep s steps t) : s.phases.length ≤ t.phases.length :=
  h.relates (fun s t ↦ s.phases.length ≤ t.phases.length) (fun _ ↦ Nat.le_refl _)
    (fun _ _ _ ↦ Nat.le_trans) fun _ _ _ _ ↦ length_le_of_step

/-- The steps of one dispatch leave the others as they are, and make no first increment of
another one. -/
theorem phase_of_own_step (hd : d < s.phases.length) (hstep : activityStep s taken = some t)
    (hown : taken.dispatch = d) :
    t.phases.length = s.phases.length ∧ ∀ e, e ≠ d → t.phases[e]? = s.phases[e]? := by
  obtain ⟨rfl, -⟩ | ⟨d, access, phase, next, rfl, -, -, rfl⟩ := activityStep_cases hstep
  · exact absurd hown (Nat.ne_of_gt hd)
  · obtain rfl : d = _ := hown
    exact ⟨List.length_set, fun e hne ↦ List.getElem?_set_ne hne.symm⟩

/-- What is kept of a begin is kept until the dispatch is dropped. -/
def Keeps (d : ℕ) (activity : DispatchActivity) (s : Dispatches) : Prop :=
  s.phases[d]? = some (.running activity) ∨
    (∃ active, s.phases[d]? = some (.loaded activity active)) ∨ s.phases[d]? = some .dropped

theorem Keeps.step {activity : DispatchActivity} (h : Keeps d activity s)
    (hstep : activityStep s taken = some t) : Keeps d activity t := by
  have hd : d < s.phases.length := by
    obtain hphase | ⟨_, hphase⟩ | hphase := h <;> exact lt_length_of_getElem? hphase
  obtain ⟨-, rfl⟩ | ⟨e, access, phase, next, -, hphase, hnext, rfl⟩ := activityStep_cases hstep
  · unfold Keeps
    rw [List.getElem?_append_left hd]
    exact h
  · by_cases hde : e = d
    · subst hde
      unfold Keeps at h ⊢
      rw [List.getElem?_set_self hd]
      rw [hphase] at h
      obtain ⟨generation, -, rfl, rfl⟩ | ⟨other, -, rfl, rfl⟩ | ⟨other, loaded, -, rfl, rfl⟩ |
        ⟨other, -, rfl, rfl⟩ := phaseStep_cases hnext
      · simp at h
      · simpa using h
      · simpa using h
      · simp
    · unfold Keeps
      rw [List.getElem?_set_ne hde]
      exact h

/-- Where no dispatch but one is active, none makes a first increment, and none of the others makes
its second one, only that one takes steps. -/
theorem own_of_quiet (h : Run activityStep s steps t) (hd : d < s.phases.length)
    (hlength : t.phases.length = s.phases.length)
    (hquiet : ∀ e (phase : DispatchPhase), e ≠ d → s.phases[e]? = some phase →
      phase.isActive = false)
    (happart : ∀ e, e ≠ d → e < s.phases.length → .access e .incrementActive ∉ steps) :
    ∀ taken ∈ steps, taken.dispatch = d := by
  induction h with
  | nil s => exact fun _ hmem ↦ absurd hmem List.not_mem_nil
  | @cons s t u taken rest _ hstep hrest ih =>
    have hsame : t.phases.length = s.phases.length := by
      have hfirst := length_le_of_step hstep
      have hlast := length_le_of_run hrest
      omega
    have hown : taken.dispatch = d := by
      obtain ⟨-, rfl⟩ | ⟨e, access, phase, next, rfl, hphase, hnext, -⟩ := activityStep_cases hstep
      · rw [List.length_append] at hsame
        exact absurd hsame (Nat.succ_ne_self _)
      · by_contra hne
        have hinactive := hquiet e phase hne hphase
        obtain ⟨_, rfl, -, -⟩ | ⟨_, -, rfl, -⟩ | ⟨_, _, -, rfl, -⟩ | ⟨_, -, rfl, -⟩ :=
          phaseStep_cases hnext
        · exact happart e hne (lt_length_of_getElem? hphase) (List.mem_cons_self ..)
        · cases hinactive
        · cases hinactive
        · cases hinactive
    obtain ⟨-, hothers⟩ := phase_of_own_step hd hstep hown
    intro other hmem
    rcases List.mem_cons.mp hmem with rfl | hmem
    · exact hown
    · refine ih (hsame ▸ hd) (hlength.trans hsame.symm) ?_ ?_ other hmem
      · intro e phase hne hphase
        exact hquiet e phase hne (hothers e hne ▸ hphase)
      · intro e hne hlt hin
        exact happart e hne (hsame ▸ hlt) (List.mem_cons_of_mem _ hin)

theorem length_of_own (h : Run activityStep s steps t) (hd : d < s.phases.length)
    (hown : ∀ taken ∈ steps, taken.dispatch = d) : t.phases.length = s.phases.length := by
  induction h with
  | nil s => rfl
  | cons _ hstep _ ih =>
    obtain ⟨hlength, -⟩ := phase_of_own_step hd hstep (hown _ (List.mem_cons_self ..))
    exact (ih (hlength ▸ hd) fun taken hmem ↦ hown taken (List.mem_cons_of_mem _ hmem)).trans
      hlength

/-- The end of a begin: the dispatch was between its two increments, and it runs then. -/
theorem begin_cases (h : activityStep s (.access d .incrementActive) = some t) :
    ∃ generation, s.phases[d]? = some (.begins generation) ∧
      t = ⟨s.active + 1, s.generation, s.phases.set d (.running ⟨s.active == 0, generation⟩)⟩ := by
  obtain ⟨hfirst, -⟩ | ⟨e, access, phase, next, haccess, hphase, hnext, rfl⟩ :=
    activityStep_cases h
  · cases hfirst
  · obtain ⟨rfl, rfl⟩ := DispatchStep.access.inj haccess
    obtain ⟨generation, -, rfl, rfl⟩ | ⟨_, hload, -⟩ | ⟨_, _, hload, -⟩ | ⟨_, hload, -⟩ :=
      phaseStep_cases hnext
    · exact ⟨generation, hphase, rfl⟩
    · cases hload
    · cases hload
    · cases hload

/-- A dispatch that takes itself for isolated started alone, and nothing was counted since its first
increment. -/
theorem found_of_answer {activity : DispatchActivity}
    (hbegun : s.phases[d]? = some (.running activity)) (h : Run activityStep s steps t)
    (hanswer : t.answer d = some true) :
    activity.startedAlone = true ∧ t.generation = activity.generationAtStart := by
  have hkeeps : Keeps d activity t :=
    h.invariant (Keeps d activity) (fun _ _ _ hs _ hstep ↦ hs.step hstep) (.inl hbegun)
  unfold Dispatches.answer at hanswer
  split at hanswer
  · rename_i found active hloaded
    obtain rfl : found = activity := by
      rcases hkeeps with hkept | ⟨other, hkept⟩ | hkept
      · cases hloaded.symm.trans hkept
      · cases hloaded.symm.trans hkept
        rfl
      · cases hloaded.symm.trans hkept
    have hisolated := Option.some.inj hanswer
    simp only [DispatchActivity.isIsolated, Bool.and_eq_true, beq_iff_eq] at hisolated
    exact ⟨hisolated.1.1, hisolated.2⟩
  · cases hanswer

/-- While a dispatch is in its begin, none is active if none of the others is. -/
theorem countP_isActive_eq_zero_iff {generation : UInt64}
    (hphase : s.phases[d]? = some (.begins generation)) :
    s.phases.countP DispatchPhase.isActive = 0 ↔
      ∀ e (phase : DispatchPhase), e ≠ d → s.phases[e]? = some phase → phase.isActive = false := by
  rw [List.countP_eq_zero]
  constructor
  · intro h e phase _ he
    exact Bool.eq_false_iff.mpr (h phase (List.mem_of_getElem? he))
  · intro h phase hmem hactive
    obtain ⟨e, he⟩ := List.getElem?_of_mem hmem
    by_cases hne : e = d
    · subst hne
      rw [hphase] at he
      obtain rfl := Option.some.inj he
      cases hactive
    · rw [h e phase hne he] at hactive
      cases hactive

end Runs

/-! ### The result -/

/-- Two numbers that agree modulo 2^64 are equal if they are less than that apart. -/
theorem eq_of_ofNat_eq {m n : ℕ} (hle : m ≤ n) (hlt : n < m + UInt64.size)
    (h : UInt64.ofNat n = UInt64.ofNat m) : n = m := by
  have hmod : n % UInt64.size = m % UInt64.size := congrArg UInt64.toNat h
  simp only [UInt64.size] at hlt hmod
  omega

/-- A dispatch that takes itself for isolated is so if and only if no other begin overlapped its
own, and no counter came round. -/
theorem isolated_iff {before window : List DispatchStep} {begun s : Dispatches} {d : ℕ}
    (hbefore : Run activityStep .new before begun)
    (hwindow : Run activityStep begun (.access d .incrementActive :: window) s)
    (hanswer : s.answer d = some true) :
    Isolated begun d window ↔ BeginsApart begun s d window := by
  have hbegun := counted_of_run hbefore
  have hend := counted_of_run (hbefore.append hwindow)
  cases hwindow with
  | cons _ hbegin hrest =>
    obtain ⟨generation, hphase, rfl⟩ := begin_cases hbegin
    have hd := lt_length_of_getElem? hphase
    have hrunning : (begun.phases.set d (.running ⟨begun.active == 0, generation⟩)).length =
        begun.phases.length := List.length_set
    have hgeneration : generation = UInt64.ofNat (d + 1) := hbegun.begunAt d _ hphase
    obtain ⟨halone, hsame⟩ := found_of_answer (List.getElem?_set_self hd) hrest hanswer
    have hlength := length_le_of_run hrest
    rw [hrunning] at hlength
    constructor
    · intro h
      have hunchanged := length_of_own hrest (hrunning ▸ hd) h.window
      rw [hrunning] at hunchanged
      refine ⟨?_, ?_, .inr hunchanged⟩
      · intro e hne _ hmem
        exact hne (h.window _ hmem)
      · rw [(countP_isActive_eq_zero_iff hphase).mpr h.alone]
        decide
    · intro h
      have hquiet := (countP_isActive_eq_zero_iff hphase).mp <| by
        have hfound : begun.active = 0 := by simpa using halone
        rw [hbegun.active] at hfound
        exact eq_of_ofNat_eq (Nat.zero_le _) (by rw [Nat.zero_add]; exact h.active) hfound
      have hunchanged : s.phases.length = begun.phases.length := by
        rcases h.generation with hbound | heq
        · rw [hend.generation, hgeneration] at hsame
          have hlast := eq_of_ofNat_eq (by omega) (by omega) hsame
          omega
        · exact heq
      refine ⟨hquiet, own_of_quiet hrest (hrunning ▸ hd) (hunchanged.trans hrunning.symm) ?_ ?_⟩
      · intro e phase hne he
        rw [List.getElem?_set_ne hne.symm] at he
        exact hquiet e phase hne he
      · intro e hne hlt
        rw [hrunning] at hlt
        exact h.apart e hne hlt

/-- A dispatch after another one that was dropped. -/
theorem isolated_iff_after :
    ∃ begun s, Run activityStep .new [.incrementGeneration 0, .access 0 .incrementActive,
        .access 0 .decrementActive, .incrementGeneration 1] begun ∧
      Run activityStep begun [.access 1 .incrementActive, .access 1 .loadActive] s ∧
      s.answer 1 = some true ∧
      (Isolated begun 1 [.access 1 .loadActive] ↔
        BeginsApart begun s 1 [.access 1 .loadActive]) := by
  have hbefore : Run activityStep .new [.incrementGeneration 0, .access 0 .incrementActive,
      .access 0 .decrementActive, .incrementGeneration 1] _ := run_of_execute rfl
  refine ⟨_, _, hbefore, run_of_execute rfl, rfl, ?_⟩
  exact isolated_iff hbefore (run_of_execute rfl) rfl

/-- A dispatch makes its first increment, a second one begins, and the first makes its second
increment and is dropped before the second asks whether it is isolated. -/
theorem overlapped_begin_isolated :
    ¬∀ before window begun s d, Run activityStep .new before begun →
      Run activityStep begun (.access d .incrementActive :: window) s → s.answer d = some true →
        Isolated begun d window := by
  intro h
  have hisolated := h [.incrementGeneration 0, .incrementGeneration 1]
    [.access 0 .incrementActive, .access 0 .decrementActive, .access 1 .loadActive] _ _ 1
    (run_of_execute rfl) (run_of_execute rfl) rfl
  exact absurd (hisolated.window (.access 0 .decrementActive) (by decide)) (by decide)

end MaRuntime.Plugin
