import MaRuntime.Library.Runs
import MaRuntime.Plugin.Worker

/-!
# The last state of a state context

A state context holds a queued state until a saver acknowledges it (`mark_saved`), while further
states may be queued. What it holds is the pending state, or the persisted one when none is pending
(`StateCtx.held`), and it should be the last state that was queued.

`queue_state` takes no state that is the persisted one. When another state is still pending, the
context goes on holding that one: the condition `Takes` excludes this step, and
`held_eq_last_iff` says that the last state is held along a run exactly when all its steps meet the
condition. `returned_state_lost` returns to the persisted state.

Main definitions: `StateCtx.held`, `queueStep`, `Takes`.
Main results: `held_eq_last_iff`.
-/

set_option autoImplicit false
set_option relaxedAutoImplicit false

namespace MaRuntime.Plugin

open Runs

/-- The state that a context holds. -/
def StateCtx.held (ctx : StateCtx) : Option Bytes := ctx.pending.or ctx.persisted

/-- A state context with its saver: the snapshot that the saver has taken and not yet acknowledged,
and the last state that was queued, or the one the context began with. -/
structure QueueState where
  ctx : StateCtx
  snapshot : Option Bytes
  last : Bytes

def QueueState.start (persisted : Bytes) : QueueState := ⟨.new persisted, none, persisted⟩

inductive QueueAction
  | queueState (bytes : Bytes)
  | takeSnapshot
  | markSaved

/-- A step. The saver takes a snapshot of what is pending when it has none, and acknowledges the one
it has. -/
def queueStep (s : QueueState) : QueueAction → Option QueueState
  | .queueState bytes => some { s with ctx := s.ctx.queueState bytes, last := bytes }
  | .takeSnapshot =>
    match s.snapshot, s.ctx.pending with
    | none, some bytes => some { s with snapshot := some bytes }
    | _, _ => none
  | .markSaved => s.snapshot.map fun bytes ↦
      { s with ctx := s.ctx.markSaved bytes, snapshot := none }

/-- The condition on a step: the persisted state is not queued while another one is pending. -/
def Takes (s : QueueState) : QueueAction → Prop
  | .queueState bytes =>
    s.ctx.persisted = some bytes → ∀ pending, s.ctx.pending = some pending → pending = bytes
  | _ => True

/-- The context holds the last state. -/
def HoldsLast (s : QueueState) : Prop := s.ctx.held = some s.last

/-- A snapshot is of a state that is pending, or was replaced by one that is. -/
def Pends (s : QueueState) : Prop := s.snapshot.isSome → s.ctx.pending.isSome

section Steps

variable {s t u : QueueState} {action : QueueAction} {bytes : Bytes}

/-- A state that is queued is held, unless it is the persisted one and another one is pending. -/
theorem held_queueState_iff :
    (s.ctx.queueState bytes).held = some bytes ↔ Takes s (.queueState bytes) := by
  unfold Takes StateCtx.held StateCtx.queueState StateCtx.accepts
  by_cases hpersisted : s.ctx.persisted = some bytes
  · cases hpending : s.ctx.pending with
    | none => simp [hpersisted, hpending]
    | some pending => simp [hpersisted, hpending]
  · by_cases hpending : s.ctx.pending = some bytes
    · simp [hpending]
    · simp [hpersisted, hpending]

theorem isSome_pending_queueState (h : s.ctx.pending.isSome) :
    (s.ctx.queueState bytes).pending.isSome := by
  unfold StateCtx.queueState
  split_ifs
  · rfl
  · exact h

/-- An acknowledgment leaves what is held, when something was pending. -/
theorem held_markSaved (h : s.ctx.pending.isSome) :
    (s.ctx.markSaved bytes).held = s.ctx.held := by
  obtain ⟨pending, hpending⟩ := Option.isSome_iff_exists.mp h
  unfold StateCtx.held
  rw [StateCtx.pending_markSaved, StateCtx.persisted_markSaved]
  split_ifs with hsame
  · rw [hsame]
    rfl
  · rw [hpending]
    rfl

theorem takeSnapshot_eq_some (h : queueStep s .takeSnapshot = some t) :
    ∃ bytes, s.ctx.pending = some bytes ∧ t = { s with snapshot := some bytes } := by
  simp only [queueStep] at h
  split at h
  · rename_i bytes _ hpending
    exact ⟨bytes, hpending, (Option.some.inj h).symm⟩
  · cases h

/-- While the saver has a snapshot, a state is pending. -/
theorem Pends.step (h : Pends s) (hstep : queueStep s action = some t) : Pends t := by
  cases action with
  | queueState bytes =>
    obtain rfl := Option.some.inj hstep
    exact fun hsnapshot ↦ isSome_pending_queueState (h hsnapshot)
  | takeSnapshot =>
    obtain ⟨bytes, hpending, rfl⟩ := takeSnapshot_eq_some hstep
    exact fun _ ↦ Option.isSome_of_eq_some hpending
  | markSaved =>
    obtain ⟨bytes, -, rfl⟩ := Option.map_eq_some_iff.mp hstep
    intro hsnapshot
    cases hsnapshot

/-- After a step the last state is held exactly when the step meets the condition. -/
theorem HoldsLast.step_iff (h : HoldsLast s) (hpends : Pends s)
    (hstep : queueStep s action = some t) : HoldsLast t ↔ Takes s action := by
  cases action with
  | queueState bytes =>
    obtain rfl := Option.some.inj hstep
    exact held_queueState_iff
  | takeSnapshot =>
    obtain ⟨bytes, -, rfl⟩ := takeSnapshot_eq_some hstep
    exact iff_of_true h trivial
  | markSaved =>
    obtain ⟨bytes, hsnapshot, rfl⟩ := Option.map_eq_some_iff.mp hstep
    have hpending := hpends (Option.isSome_of_eq_some hsnapshot)
    exact iff_of_true ((held_markSaved hpending).trans h) trivial

/-- A state that is saved while no other one is queued is stored, and is the last one. -/
theorem HoldsLast.stored (h : HoldsLast s) (htake : queueStep s .takeSnapshot = some t)
    (hmark : queueStep t .markSaved = some u) :
    u.ctx.persisted = some s.last ∧ u.ctx.pending = none := by
  obtain ⟨bytes, hpending, rfl⟩ := takeSnapshot_eq_some htake
  obtain rfl := Option.some.inj hmark
  unfold HoldsLast StateCtx.held at h
  rw [hpending] at h
  constructor
  · exact (StateCtx.persisted_markSaved s.ctx bytes).trans h
  · exact (StateCtx.pending_markSaved s.ctx bytes).trans (if_pos hpending)

end Steps

/-- The last state is held after every step of a run, if and only if no step queues the persisted
state while another one is pending; and then a pending state that is saved is the last one. -/
theorem held_eq_last_iff {persisted : Bytes} {actions : List QueueAction} {s : QueueState}
    (h : Run queueStep (.start persisted) actions s) :
    ((∀ before after t, actions = before ++ after → Run queueStep (.start persisted) before t →
      HoldsLast t) ↔ GuardedRun queueStep Takes (.start persisted) actions s) ∧
    (GuardedRun queueStep Takes (.start persisted) actions s →
      ∀ t u, queueStep s .takeSnapshot = some t → queueStep t .markSaved = some u →
        u.ctx.persisted = some s.last ∧ u.ctx.pending = none) := by
  have hstart : HoldsLast (.start persisted) ∧ Pends (.start persisted) :=
    ⟨rfl, fun hsnapshot ↦ by cases hsnapshot⟩
  have hpends {before : List QueueAction} {t : QueueState}
      (ht : Run queueStep (.start persisted) before t) : Pends t :=
    ht.invariant Pends (fun _ _ _ hs _ hstep ↦ hs.step hstep) hstart.2
  have hiff := guardedRun_iff_forall_prefix (fun s ↦ HoldsLast s ∧ Pends s) h hstart
    (fun _ _ _ hs hguard hstep ↦ ⟨(hs.1.step_iff hs.2 hstep).mpr hguard, hs.2.step hstep⟩)
    fun _ _ _ hs hstep ht ↦ (hs.1.step_iff hs.2 hstep).mp ht.1
  have hholds : (∀ before after t, actions = before ++ after →
      Run queueStep (.start persisted) before t → HoldsLast t) ↔
      GuardedRun queueStep Takes (.start persisted) actions s := by
    rw [← hiff]
    constructor
    · intro hlast before after t hsplit ht
      exact ⟨hlast before after t hsplit ht, hpends ht⟩
    · intro hboth before after t hsplit ht
      exact (hboth before after t hsplit ht).1
  refine ⟨hholds, fun hguarded t u htake hmark ↦ ?_⟩
  exact (hholds.mpr hguarded actions [] s (List.append_nil actions).symm h).stored htake hmark

/-- A state is queued and saved. -/
theorem held_eq_last_saved :
    ∃ s, ((∀ before after t,
        [.queueState [1], .takeSnapshot, .markSaved] = before ++ after →
        Run queueStep (.start [0]) before t → HoldsLast t) ↔
      GuardedRun queueStep Takes (.start [0]) [.queueState [1], .takeSnapshot, .markSaved] s) ∧
    (GuardedRun queueStep Takes (.start [0]) [.queueState [1], .takeSnapshot, .markSaved] s →
      ∀ t u, queueStep s .takeSnapshot = some t → queueStep t .markSaved = some u →
        u.ctx.persisted = some s.last ∧ u.ctx.pending = none) :=
  ⟨_, held_eq_last_iff (run_of_execute rfl)⟩

/-- A plugin goes back to the state it began with before the one it went to is saved. That one is
stored then, and nothing is pending. -/
theorem returned_state_lost :
    ∃ s, Run queueStep (.start [0])
        [.queueState [1], .queueState [0], .takeSnapshot, .markSaved] s ∧
      s.last = [0] ∧ s.ctx.persisted = some [1] ∧ s.ctx.pending = none ∧ ¬HoldsLast s := by
  refine ⟨_, run_of_execute rfl, rfl, rfl, rfl, ?_⟩
  intro h
  exact absurd (Option.some.inj h) (by decide)

end MaRuntime.Plugin
