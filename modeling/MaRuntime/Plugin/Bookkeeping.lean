import MaRuntime.Library.Runs
import MaRuntime.Plugin.Worker

/-!
# The books of a state context

A state context keeps three things that tell of each other: the pending state next to the persisted
one, whether there is one that differs (`dirty`), and how often it has changed (`saveGeneration`).
They agree after any sequence of queued and acknowledged states (`StateCtx.Consistent`,
`saveGeneration_foldl`), and so along every run of a worker (`consistent_of_run`).

A dispatch compares the counter before and after its call of the guest, and so reports a pending
state exactly when the guest returns and has changed it, as long as it changes it less often than
the counter can count (`stateCtx_bookkeeping`). A guest that traps after it has changed its state
has nothing reported (`trapped_change_unreported`); the change stays pending.

Main definitions: `StateOp`, `StateCtx.changes`, `stateOps`, `StateCtx.Consistent`.
Main results: `stateCtx_bookkeeping`, `consistent_of_run`.
-/

set_option autoImplicit false
set_option relaxedAutoImplicit false

namespace MaRuntime.Plugin

open Runs

/-! ### Operations on a state context -/

inductive StateOp
  | queueState (bytes : Bytes)
  | markSaved (bytes : Bytes)

namespace StateCtx

def apply (ctx : StateCtx) : StateOp → StateCtx
  | .queueState bytes => ctx.queueState bytes
  | .markSaved bytes => ctx.markSaved bytes

/-- How many of some operations are a `queue_state` that changed the pending state. -/
def changes (ctx : StateCtx) : List StateOp → ℕ
  | [] => 0
  | .queueState bytes :: rest =>
    (if (ctx.queueState bytes).pending = ctx.pending then 0 else 1) +
      (ctx.queueState bytes).changes rest
  | .markSaved bytes :: rest => (ctx.markSaved bytes).changes rest

/-- `dirty` tells whether a state is pending, and that is never the persisted one. -/
structure Consistent (ctx : StateCtx) : Prop where
  dirty : ctx.dirty = true ↔ ctx.pending.isSome
  pending_ne : ∀ bytes, ctx.pending = some bytes → ctx.persisted ≠ some bytes

variable {ctx : StateCtx} {bytes : Bytes} {op : StateOp}

theorem accepts_iff :
    ctx.accepts bytes = true ↔ ctx.persisted ≠ some bytes ∧ ctx.pending ≠ some bytes := by
  simp [accepts]

/-- A state that is taken is pending, marked and counted; another one changes nothing. -/
theorem queueState_cases (ctx : StateCtx) (bytes : Bytes) :
    (ctx.persisted ≠ some bytes ∧ ctx.pending ≠ some bytes ∧
      ctx.queueState bytes =
        { ctx with pending := some bytes, dirty := true,
                   saveGeneration := ctx.saveGeneration + 1 }) ∨
    ((ctx.persisted = some bytes ∨ ctx.pending = some bytes) ∧ ctx.queueState bytes = ctx) := by
  unfold queueState
  split_ifs with haccepts
  · obtain ⟨hpersisted, hpending⟩ := accepts_iff.mp haccepts
    exact .inl ⟨hpersisted, hpending, rfl⟩
  · rw [accepts_iff, not_and_or, not_not, not_not] at haccepts
    exact .inr ⟨haccepts, rfl⟩

theorem consistent_new (persisted : Bytes) : (new persisted).Consistent where
  dirty := by simp [new]
  pending_ne bytes h := by cases h

theorem Consistent.apply (h : ctx.Consistent) (op : StateOp) : (ctx.apply op).Consistent := by
  cases op with
  | queueState bytes =>
    change (ctx.queueState bytes).Consistent
    obtain ⟨hpersisted, -, hqueue⟩ | ⟨-, hqueue⟩ := queueState_cases ctx bytes
    · rw [hqueue]
      refine ⟨iff_of_true rfl rfl, fun other hother ↦ ?_⟩
      obtain rfl := Option.some.inj hother
      exact hpersisted
    · rw [hqueue]
      exact h
  | markSaved bytes =>
    change (ctx.markSaved bytes).Consistent
    unfold markSaved
    split_ifs with hsame
    · exact ⟨by simp, fun other hother ↦ by cases hother⟩
    · constructor
      · cases hpending : ctx.pending with
        | none => simp
        | some pending =>
          have hne : pending ≠ bytes := fun heq ↦ hsame (heq ▸ hpending)
          simp [hne]
      · intro other hother heq
        obtain rfl := Option.some.inj heq
        exact hsame hother

theorem Consistent.foldl (h : ctx.Consistent) (ops : List StateOp) :
    (ops.foldl StateCtx.apply ctx).Consistent := by
  induction ops generalizing ctx with
  | nil => exact h
  | cons op rest ih => exact ih (h.apply op)

theorem changes_cons (ctx : StateCtx) (op : StateOp) (rest : List StateOp) :
    ctx.changes (op :: rest) = ctx.changes [op] + (ctx.apply op).changes rest := by
  cases op with
  | queueState bytes => rfl
  | markSaved bytes => exact (Nat.zero_add _).symm

theorem changes_append (ctx : StateCtx) (first second : List StateOp) :
    ctx.changes (first ++ second) =
      ctx.changes first + (first.foldl StateCtx.apply ctx).changes second := by
  induction first generalizing ctx with
  | nil => exact (Nat.zero_add _).symm
  | cons op rest ih =>
    rw [List.cons_append, changes_cons, ih, ← Nat.add_assoc, ← changes_cons]
    rfl

theorem saveGeneration_apply (ctx : StateCtx) (op : StateOp) :
    (ctx.apply op).saveGeneration = ctx.saveGeneration + UInt64.ofNat (ctx.changes [op]) := by
  cases op with
  | queueState bytes =>
    change (ctx.queueState bytes).saveGeneration = _
    obtain ⟨-, hpending, hqueue⟩ | ⟨-, hqueue⟩ := queueState_cases ctx bytes
    · simp [changes, hqueue, hpending.symm]
    · simp [changes, hqueue]
  | markSaved bytes =>
    change (ctx.markSaved bytes).saveGeneration = _
    unfold markSaved
    split_ifs
    · simp [changes]
    · simp [changes]

/-- The counter advances by the number of changes. -/
theorem saveGeneration_foldl (ctx : StateCtx) (ops : List StateOp) :
    (ops.foldl StateCtx.apply ctx).saveGeneration =
      ctx.saveGeneration + UInt64.ofNat (ctx.changes ops) := by
  induction ops generalizing ctx with
  | nil => exact (UInt64.add_zero _).symm
  | cons op rest ih =>
    rw [List.foldl_cons, ih, saveGeneration_apply, changes_cons ctx op rest, UInt64.ofNat_add,
      UInt64.add_assoc]

end StateCtx

/-! ### Calls of a guest -/

def HostCall.stateOps : HostCall → List StateOp
  | .maSetState input => [.queueState input]
  | _ => []

/-- What some calls of host functions do to the state, up to the first one that fails. -/
def stateOps (ts : WasmThreadState) : List HostCall → List StateOp
  | [] => []
  | call :: rest =>
    match call.run ts with
    | .ok after => call.stateOps ++ stateOps after rest
    | .error _ => []

/-- From one context to another `count` states were queued. -/
structure Queues (before after : WasmThreadState) (count : Nat) : Prop where
  queued : after.queued.length = before.queued.length + count
  saveGeneration :
    after.state.saveGeneration = before.state.saveGeneration + UInt64.ofNat count
  state : (count = 0 ∧ after.state = before.state) ∨
    (count ≠ 0 ∧ after.state.dirty = true ∧ after.state.pending ≠ none)

namespace Queues

theorem of_state_eq {before after : WasmThreadState} (hstate : after.state = before.state)
    (hqueued : after.queued = before.queued) : Queues before after 0 where
  queued := by rw [hqueued, Nat.add_zero]
  saveGeneration := by
    rw [hstate]
    exact (UInt64.add_zero _).symm
  state := .inl ⟨rfl, hstate⟩

theorem trans {first second third : WasmThreadState} {m n : Nat} (h : Queues first second m)
    (h' : Queues second third n) : Queues first third (m + n) where
  queued := by rw [h'.queued, h.queued, Nat.add_assoc]
  saveGeneration := by
    rw [h'.saveGeneration, h.saveGeneration, UInt64.add_assoc, UInt64.ofNat_add]
  state := by
    rcases h'.state with ⟨rfl, hsame⟩ | ⟨hn, hlast⟩
    · rw [hsame]
      exact h.state
    · exact .inr ⟨by omega, hlast⟩

/-- What a dispatch reads off the counter: the pending state, if one was queued. -/
theorem pendingState_eq {before after : WasmThreadState} {count : Nat}
    (h : Queues before after count) (hlt : count < UInt64.size) :
    (if after.state.dirty && after.state.saveGeneration != before.state.saveGeneration then
      after.state.pending else none) = if count = 0 then none else after.state.pending := by
  obtain ⟨rfl, hsame⟩ | ⟨hcount, hdirty, -⟩ := h.state
  · simp [hsame]
  · have hgeneration : after.state.saveGeneration ≠ before.state.saveGeneration := by
      rw [h.saveGeneration]
      intro heq
      have hzero := congrArg UInt64.toNat (UInt64.add_eq_left.mp heq)
      rw [UInt64.toNat_ofNat_of_lt' hlt] at hzero
      exact hcount hzero
    rw [hdirty, Bool.true_and, if_pos (bne_iff_ne.mpr hgeneration), if_neg hcount]

end Queues

section Calls

variable {ts after : WasmThreadState} {call : HostCall} {guest : GuestCall}

/-- A host function does to the state what its operations do, and queues as many states as they
are changes. -/
theorem queues_run (h : call.run ts = .ok after) :
    after.state = call.stateOps.foldl StateCtx.apply ts.state ∧
      Queues ts after (ts.state.changes call.stateOps) := by
  obtain ⟨-, ⟨input, rfl, hstate, hqueued⟩ | ⟨hne, hstate, hqueued⟩⟩ := run_cases h
  · refine ⟨hstate, ?_⟩
    cases haccepts : ts.state.accepts input with
    | true =>
      obtain ⟨-, hne⟩ := StateCtx.accepts_iff.mp haccepts
      simp only [StateCtx.queueState, haccepts, if_true] at hstate hqueued
      have hcount : ts.state.changes [.queueState input] = 1 := by
        simp [StateCtx.changes, StateCtx.queueState, haccepts, hne.symm]
      change Queues ts after (ts.state.changes [.queueState input])
      rw [hcount]
      refine ⟨?_, ?_, .inr ⟨Nat.one_ne_zero, ?_, ?_⟩⟩
      · rw [hqueued, List.length_append]
        rfl
      · rw [hstate]
        rfl
      · rw [hstate]
      · rw [hstate]
        exact Option.some_ne_none input
    | false =>
      simp only [StateCtx.queueState, haccepts, Bool.false_eq_true, if_false] at hstate hqueued
      have hcount : ts.state.changes [.queueState input] = 0 := by
        simp [StateCtx.changes, StateCtx.queueState, haccepts]
      change Queues ts after (ts.state.changes [.queueState input])
      rw [hcount]
      exact .of_state_eq hstate hqueued
  · have hops : call.stateOps = [] := by
      unfold HostCall.stateOps
      split
      · exact absurd rfl (hne _)
      · rfl
    rw [hops]
    exact ⟨hstate, .of_state_eq hstate hqueued⟩

theorem queues_callHost (ts : WasmThreadState) (hostCalls : List HostCall) :
    (callHost ts hostCalls).1.state = (stateOps ts hostCalls).foldl StateCtx.apply ts.state ∧
      Queues ts (callHost ts hostCalls).1 (ts.state.changes (stateOps ts hostCalls)) := by
  induction hostCalls generalizing ts with
  | nil => exact ⟨rfl, .of_state_eq rfl rfl⟩
  | cons call rest ih =>
    cases hcall : call.run ts with
    | ok after =>
      obtain ⟨hstate, hfirst⟩ := queues_run hcall
      obtain ⟨hend, hrest⟩ := ih after
      simp only [callHost, stateOps, hcall]
      constructor
      · rw [List.foldl_append, ← hstate]
        exact hend
      · rw [StateCtx.changes_append, ← hstate]
        exact hfirst.trans hrest
    | error reason =>
      simp only [callHost, stateOps, hcall]
      exact ⟨rfl, .of_state_eq rfl rfl⟩

theorem call_fst (ts : WasmThreadState) (guest : GuestCall) :
    (ts.call guest).1 = (callHost ts guest.hostCalls).1 := by
  unfold WasmThreadState.call
  split <;> simp_all only

theorem queues_call (ts : WasmThreadState) (guest : GuestCall) :
    Queues ts (ts.call guest).1 (ts.state.changes (stateOps ts guest.hostCalls)) := by
  rw [call_fst]
  exact (queues_callHost ts guest.hostCalls).2

theorem state_call (ts : WasmThreadState) (guest : GuestCall) :
    (ts.call guest).1.state = (stateOps ts guest.hostCalls).foldl StateCtx.apply ts.state := by
  rw [call_fst]
  exact (queues_callHost ts guest.hostCalls).1

theorem executeDispatch_of_call {output : Bytes}
    (h : ts.call guest = (after, some output)) :
    (executeDispatch ts guest).1.state = after.state ∧
      (executeDispatch ts guest).1.queued = after.queued ∧
      ∃ result, (executeDispatch ts guest).2 = some result ∧ result.pendingState =
        if after.state.dirty && after.state.saveGeneration != ts.state.saveGeneration then
          after.state.pending
        else none := by
  unfold executeDispatch
  rw [h]
  exact ⟨rfl, rfl, _, rfl, rfl⟩

theorem executeDispatch_of_trap (h : ts.call guest = (after, none)) :
    executeDispatch ts guest = (after, none) := by
  unfold executeDispatch
  rw [h]

theorem state_executeDispatch (ts : WasmThreadState) (guest : GuestCall) :
    (executeDispatch ts guest).1.state = (ts.call guest).1.state := by
  cases hcall : ts.call guest with
  | mk after output =>
    cases output with
    | none => rw [executeDispatch_of_trap hcall]
    | some output => exact (executeDispatch_of_call hcall).1

end Calls

/-! ### Runs of a worker -/

/-- What serving a message does to the state. -/
def serveOps (ts : WasmThreadState) (guest : GuestCall) : EntityMsg → List StateOp
  | .dispatch | .shutdown _ _ => stateOps ts guest.hostCalls
  | .markSaved bytes => [.markSaved bytes]
  | .takePending _ | .terminate => []

theorem state_serve (ts : WasmThreadState) (guest : GuestCall) (message : EntityMsg) :
    (serve ts guest message).1.state =
      (serveOps ts guest message).foldl StateCtx.apply ts.state := by
  cases message with
  | dispatch => exact (state_executeDispatch ts guest).trans (state_call ts guest)
  | takePending reply => rfl
  | markSaved bytes => rfl
  | shutdown requireSignalSuccess reply =>
    rw [serveOps, ← state_call]
    unfold serve
    cases ts.call guest with
    | mk after output =>
      cases output with
      | some output => rfl
      | none =>
        dsimp only
        split_ifs
        · rfl
        · rfl
  | terminate => rfl

/-- A worker serves a message, with what its guest does. -/
def workerStep (ts : WasmThreadState) (action : EntityMsg × GuestCall) : Option WasmThreadState :=
  some (serve ts action.2 action.1).1

/-- The books are consistent along every run of a worker. -/
theorem consistent_of_run {fragment : String} {initState : Bytes}
    {actions : List (EntityMsg × GuestCall)} {ts : WasmThreadState}
    (h : Run workerStep (buildWasmPlugin fragment initState) actions ts) : ts.state.Consistent := by
  refine h.invariant (fun ts ↦ ts.state.Consistent) ?_ (StateCtx.consistent_new initState)
  intro ts action after hts _ hstep
  obtain rfl := Option.some.inj hstep
  rw [state_serve]
  exact hts.foldl _

/-! ### What a dispatch reports -/

/-- A dispatch reports these bytes as the state that is pending. -/
def Reports (ts : WasmThreadState) (guest : GuestCall) (bytes : Bytes) : Prop :=
  ∃ result, (executeDispatch ts guest).2 = some result ∧ result.pendingState = some bytes

theorem reports_iff {ts : WasmThreadState} {guest : GuestCall} {bytes : Bytes}
    (hlt : ts.state.changes (stateOps ts guest.hostCalls) < UInt64.size) :
    Reports ts guest bytes ↔ (ts.call guest).2.isSome ∧
      0 < ts.state.changes (stateOps ts guest.hostCalls) ∧
      (executeDispatch ts guest).1.state.pending = some bytes := by
  have hqueues := queues_call ts guest
  unfold Reports
  cases hcall : ts.call guest with
  | mk after output =>
    rw [hcall] at hqueues
    cases output with
    | none =>
      rw [executeDispatch_of_trap hcall]
      simp
    | some output =>
      obtain ⟨hstate, -, result, hresult, hpendingState⟩ := executeDispatch_of_call hcall
      rw [hqueues.pendingState_eq hlt] at hpendingState
      rw [hresult, hstate]
      have hreport : (∃ found, some result = some found ∧ found.pendingState = some bytes) ↔
          result.pendingState = some bytes := by simp
      rw [hreport, hpendingState]
      split_ifs with hcount
      · simp [hcount]
      · simp [Nat.pos_of_ne_zero hcount]

/-- The books of a state context agree after any operations on it. A dispatch that changes the
pending state less often than the counter can count reports the pending state if and only if its
call returns and has changed it. -/
theorem stateCtx_bookkeeping (persisted : Bytes) (ops : List StateOp) :
    let ctx := ops.foldl StateCtx.apply (.new persisted)
    (ctx.dirty = true ↔ ctx.pending.isSome) ∧
      (∀ bytes, ctx.pending = some bytes → ctx.persisted ≠ some bytes) ∧
      ctx.saveGeneration = UInt64.ofNat ((StateCtx.new persisted).changes ops) ∧
      ∀ ts guest, ts.state = ctx → ctx.changes (stateOps ts guest.hostCalls) < UInt64.size →
        ∀ bytes, Reports ts guest bytes ↔ (ts.call guest).2.isSome ∧
          0 < ctx.changes (stateOps ts guest.hostCalls) ∧
          (executeDispatch ts guest).1.state.pending = some bytes := by
  intro ctx
  have hconsistent : ctx.Consistent := (StateCtx.consistent_new persisted).foldl ops
  refine ⟨hconsistent.dirty, hconsistent.pending_ne, ?_, ?_⟩
  · exact (StateCtx.saveGeneration_foldl _ ops).trans (UInt64.zero_add _)
  · intro ts guest hts hlt bytes
    rw [← hts] at hlt ⊢
    exact reports_iff hlt

/-- A guest that queues a state and returns, after another one was queued and saved. -/
theorem stateCtx_bookkeeping_saved :
    ∃ ts guest, ts.state = [.queueState [1], .markSaved [1]].foldl StateCtx.apply (.new [0]) ∧
      Reports ts guest [2] := by
  let ts : WasmThreadState :=
    { buildWasmPlugin "room" [0] with
      state := [.queueState [1], .markSaved [1]].foldl StateCtx.apply (.new [0]) }
  let guest : GuestCall := ⟨[.maSetState [2]], some []⟩
  have hdispatch := (stateCtx_bookkeeping [0] [.queueState [1], .markSaved [1]]).2.2.2 ts guest rfl
    (by decide) [2]
  exact ⟨ts, guest, rfl, hdispatch.mpr ⟨rfl, by decide, rfl⟩⟩

/-- A guest that queues a state and traps: the pending state has changed, and nothing is
reported. -/
theorem trapped_change_unreported :
    ¬∀ ts guest, ts.state = StateCtx.new [0] →
      ts.state.changes (stateOps ts guest.hostCalls) < UInt64.size →
        ∀ bytes, Reports ts guest bytes ↔
          0 < ts.state.changes (stateOps ts guest.hostCalls) ∧
            (executeDispatch ts guest).1.state.pending = some bytes := by
  intro h
  obtain ⟨result, hresult, -⟩ := (h (buildWasmPlugin "room" [0]) ⟨[.maSetState [1]], none⟩ rfl
    (by decide) [1]).mpr ⟨by decide, rfl⟩
  cases hresult

end MaRuntime.Plugin
