import MaRuntime.Library.Pools
import MaRuntime.Library.Runs

/-!
# The gate of Kubo's requests

The calls of Kubo that `kubo.rs` makes go through one gate of sixteen permits. A call waits for a
permit for a limited time, sends its request while it has one, and gives it back with the answer.
Only `pin_update` may send two requests: when the old root was not pinned it goes on as `pin_add`,
and it gives back its permit before it waits for the next one (`respond`).

In whatever order the calls take their steps (`gateStep`), no more than sixteen requests are on
their way, no permit is lost, and no call takes more than five steps. No call waits for a permit
that will not come: from every state all of them can go on to their end although none of them gives
up (`gate_of_run`). Sixteen updates that kept their permits would wait for each other. A call may
also be dropped with its task at any time.

Main definitions: `GateState`, `gateStep`.
Main results: `gate_of_run`.

Scope. A request that is not answered in time has failed. What the requests do is in
`Manifest/Pins.lean`, `Ipfs/Keys.lean` and elsewhere.
-/

set_option autoImplicit false
set_option relaxedAutoImplicit false

namespace MaRuntime.Ipfs

open Pools Runs

/-! ### Calls -/

def maxConcurrentKuboRequests : ℕ := 16

/-- The calls: one that sends a request (`dag_put`, `pin_add`, the two `ipfs_add`s, `cat_bytes`,
`dag_get`, and `dag_resolve` of a path), `pin_update`, and `dag_resolve` of a bare CID. -/
inductive KuboOperation
  | request
  | pinUpdate
  | bareResolve
deriving DecidableEq

/-- Where a call stands: it waits for a permit, or has one and has sent its request, which is the
`pin_add` of a `pin_update` or is not; or it has ended. -/
inductive CallPhase
  | waits (fallback : Bool)
  | requests (fallback : Bool)
  | ended (success : Bool)
deriving DecidableEq

/-- Kubo's answer to a request; `notPinned` is the failure of a `pin/update` whose old root was not
pinned. -/
inductive KuboResponse
  | served
  | notPinned
  | failed
deriving DecidableEq

structure KuboRequest where
  operation : KuboOperation
  phase : CallPhase
deriving DecidableEq

namespace KuboRequest

/-- A call before its first step. -/
def start (operation : KuboOperation) : KuboRequest :=
  ⟨operation, if operation = .bareResolve then .ended true else .waits false⟩

def holds (call : KuboRequest) : Bool :=
  match call.phase with
  | .requests _ => true
  | .waits _ | .ended _ => false

def hasEnded (call : KuboRequest) : Bool :=
  match call.phase with
  | .ended _ => true
  | .waits _ | .requests _ => false

/-- The call with a permit. -/
def acquire (call : KuboRequest) : Option KuboRequest :=
  match call.phase with
  | .waits fallback => some { call with phase := .requests fallback }
  | _ => none

/-- The call that has waited too long. -/
def timeOut (call : KuboRequest) : Option KuboRequest :=
  match call.phase with
  | .waits _ => some { call with phase := .ended false }
  | _ => none

/-- The call that is dropped with its task, and with its permit if it has one. -/
def cancel (call : KuboRequest) : Option KuboRequest :=
  if call.hasEnded then none else some { call with phase := .ended false }

/-- The call after the answer to its request, without its permit. -/
def respond (call : KuboRequest) (response : KuboResponse) : Option KuboRequest :=
  match call.phase with
  | .requests fallback =>
    match call.operation, fallback, response with
    | .pinUpdate, false, .notPinned => some { call with phase := .waits true }
    | _, _, _ => some { call with phase := .ended (decide (response = .served)) }
  | _ => none

/-- How many steps a call may still take. -/
def left (call : KuboRequest) : ℕ :=
  match call.phase with
  | .waits false => 4
  | .requests false => 3
  | .waits true => 2
  | .requests true => 1
  | .ended _ => 0

end KuboRequest

/-! ### The machine -/

structure GateState where
  available : ℕ
  calls : List KuboRequest
deriving DecidableEq

inductive GateAction
  | start (operation : KuboOperation)
  | acquire (i : ℕ)
  | timeOut (i : ℕ)
  | cancel (i : ℕ)
  | respond (i : ℕ) (response : KuboResponse)
deriving DecidableEq

def GateState.new : GateState := ⟨maxConcurrentKuboRequests, []⟩

/-- The requests that are on their way. -/
def GateState.requesting (s : GateState) : ℕ := s.calls.countP KuboRequest.holds

def gateStep (s : GateState) : GateAction → Option GateState
  | .start operation => some { s with calls := s.calls ++ [.start operation] }
  | .acquire i =>
    if s.available = 0 then none
    else
      (s.calls[i]?.bind KuboRequest.acquire).map fun call ↦
        ⟨s.available - 1, advance s.calls i call⟩
  | .timeOut i =>
    (s.calls[i]?.bind KuboRequest.timeOut).map fun call ↦
      { s with calls := advance s.calls i call }
  | .cancel i =>
    s.calls[i]?.bind fun call ↦
      call.cancel.map fun after ↦
        ⟨if call.holds then s.available + 1 else s.available, advance s.calls i after⟩
  | .respond i response =>
    (s.calls[i]?.bind (KuboRequest.respond · response)).map fun call ↦
      ⟨s.available + 1, advance s.calls i call⟩

def GateAction.isStart : GateAction → Bool
  | .start _ => true
  | _ => false

/-! ### One step -/

/-- What a step of a call does: it has one step less to take, and it takes a permit, gives one back,
or neither. -/
structure CallMove (before after : KuboRequest) (available available' : ℕ) : Prop where
  left : after.left < before.left
  permits : available' + [after].countP KuboRequest.holds =
    available + [before].countP KuboRequest.holds

/-- The steps: a call starts, or one of the calls takes its own one. -/
inductive GateMove (s : GateState) : GateAction → GateState → Prop
  | starts (operation : KuboOperation) :
      GateMove s (.start operation) { s with calls := s.calls ++ [.start operation] }
  | moves (action : GateAction) (i : ℕ) (before after : KuboRequest) (available : ℕ)
      (haction : action.isStart = false) (hi : s.calls[i]? = some before)
      (hmove : CallMove before after s.available available) :
      GateMove s action ⟨available, advance s.calls i after⟩

variable {s t : GateState}

theorem callMove_acquire {before after : KuboRequest} {available : ℕ}
    (h : before.acquire = some after) (hpos : available ≠ 0) :
    CallMove before after available (available - 1) := by
  obtain ⟨operation, phase⟩ := before
  cases phase with
  | waits fallback =>
    obtain rfl := Option.some.inj h
    refine ⟨by cases fallback <;> simp [KuboRequest.left], ?_⟩
    simp only [List.countP_singleton, KuboRequest.holds]
    simp only [if_true, Bool.false_eq_true, if_false]
    omega
  | requests fallback => cases h
  | ended success => cases h

theorem callMove_timeOut {before after : KuboRequest} {available : ℕ}
    (h : before.timeOut = some after) : CallMove before after available available := by
  obtain ⟨operation, phase⟩ := before
  cases phase with
  | waits fallback =>
    obtain rfl := Option.some.inj h
    exact ⟨by cases fallback <;> simp [KuboRequest.left], rfl⟩
  | requests fallback => cases h
  | ended success => cases h

theorem callMove_cancel {before after : KuboRequest} {available : ℕ}
    (h : before.cancel = some after) :
    CallMove before after available (if before.holds then available + 1 else available) := by
  obtain ⟨operation, phase⟩ := before
  cases phase with
  | waits fallback =>
    obtain rfl := Option.some.inj h
    exact ⟨by cases fallback <;> simp [KuboRequest.left], rfl⟩
  | requests fallback =>
    obtain rfl := Option.some.inj h
    exact ⟨by cases fallback <;> simp [KuboRequest.left], rfl⟩
  | ended success => cases h

theorem callMove_respond {before after : KuboRequest} {response : KuboResponse} {available : ℕ}
    (h : before.respond response = some after) :
    CallMove before after available (available + 1) := by
  obtain ⟨operation, phase⟩ := before
  cases phase with
  | waits fallback => cases h
  | requests fallback =>
    unfold KuboRequest.respond at h
    dsimp only at h
    split at h
    · obtain rfl := Option.some.inj h
      exact ⟨by decide, rfl⟩
    · obtain rfl := Option.some.inj h
      exact ⟨by cases fallback <;> simp [KuboRequest.left], rfl⟩
  | ended success => cases h

theorem gateMove_of_step {action : GateAction} (h : gateStep s action = some t) :
    GateMove s action t := by
  cases action with
  | start operation =>
    obtain rfl := Option.some.inj h
    exact .starts operation
  | acquire i =>
    unfold gateStep at h
    split_ifs at h with hpos
    obtain ⟨after, hafter, rfl⟩ := Option.map_eq_some_iff.mp h
    obtain ⟨before, hi, hafter⟩ := Option.bind_eq_some_iff.mp hafter
    exact .moves _ i before after _ rfl hi (callMove_acquire hafter hpos)
  | timeOut i =>
    obtain ⟨after, hafter, rfl⟩ := Option.map_eq_some_iff.mp h
    obtain ⟨before, hi, hafter⟩ := Option.bind_eq_some_iff.mp hafter
    exact .moves _ i before after _ rfl hi (callMove_timeOut hafter)
  | cancel i =>
    obtain ⟨before, hi, h⟩ := Option.bind_eq_some_iff.mp h
    obtain ⟨after, hafter, rfl⟩ := Option.map_eq_some_iff.mp h
    exact .moves _ i before after _ rfl hi (callMove_cancel hafter)
  | respond i response =>
    obtain ⟨after, hafter, rfl⟩ := Option.map_eq_some_iff.mp h
    obtain ⟨before, hi, hafter⟩ := Option.bind_eq_some_iff.mp hafter
    exact .moves _ i before after _ rfl hi (callMove_respond hafter)

/-! ### Permits and steps that are left -/

/-- The steps that the calls may still take. -/
def GateState.left (s : GateState) : ℕ := (s.calls.map KuboRequest.left).sum

theorem permits_of_move {action : GateAction}
    (hs : s.available + s.requesting = maxConcurrentKuboRequests) (h : GateMove s action t) :
    t.available + t.requesting = maxConcurrentKuboRequests := by
  cases h with
  | starts operation =>
    rw [← hs, GateState.requesting, GateState.requesting, List.countP_append]
    cases operation <;> rfl
  | moves _ i before after available _ hi hmove =>
    have hcount := countP_advance KuboRequest.holds after hi
    have hpermits := hmove.permits
    unfold GateState.requesting at hs ⊢
    dsimp only
    omega

theorem permits_of_run {actions : List GateAction} (h : Run gateStep .new actions s) :
    s.available + s.requesting = maxConcurrentKuboRequests :=
  h.invariant (fun s ↦ s.available + s.requesting = maxConcurrentKuboRequests)
    (fun _ _ _ hs _ hstep ↦ permits_of_move hs (gateMove_of_step hstep)) rfl

theorem left_of_move {action : GateAction} (h : GateMove s action t) :
    t.left + 1 ≤ s.left + if action.isStart then 5 else 0 := by
  cases h with
  | starts operation =>
    have hstart : (KuboRequest.start operation).left ≤ 4 := by cases operation <;> decide
    have hleft : GateState.left { s with calls := s.calls ++ [.start operation] } =
        s.left + (KuboRequest.start operation).left := by
      simp [GateState.left]
    rw [hleft, GateAction.isStart, if_pos rfl]
    omega
  | moves _ i before after available haction hi hmove =>
    have hsum := sum_advance KuboRequest.left after hi
    have hless := hmove.left
    rw [haction, if_neg Bool.false_ne_true]
    unfold GateState.left
    dsimp only
    omega

/-- Each start allows for five steps. -/
theorem length_of_run {actions : List GateAction} {first : GateState}
    (h : Run gateStep first actions s) :
    actions.length + s.left ≤ 5 * actions.countP GateAction.isStart + first.left := by
  induction h with
  | nil s => simp
  | cons _ hstep _ ih =>
    have hleft := left_of_move (gateMove_of_step hstep)
    rw [List.length_cons, List.countP_cons]
    split_ifs at hleft ⊢ <;> omega

/-! ### The end of all calls -/

/-- A step of a call that does not give up. -/
def GateAction.isPatient : GateAction → Bool
  | .acquire _ | .respond _ _ => true
  | .start _ | .timeOut _ | .cancel _ => false

/-- As long as a call has not ended, one of them can go on: one with a permit gets its answer, and
where none has one, all of them are free. -/
theorem exists_patient_step (hpermits : s.available + s.requesting = maxConcurrentKuboRequests)
    {call : KuboRequest} (hcall : call ∈ s.calls) (hends : ¬call.hasEnded = true) :
    ∃ action, action.isPatient = true ∧ (gateStep s action).isSome = true := by
  by_cases hheld : ∃ holder ∈ s.calls, holder.holds = true
  · obtain ⟨⟨operation, phase⟩, hmem, hholds⟩ := hheld
    obtain ⟨i, hi⟩ := List.mem_iff_getElem?.mp hmem
    cases phase with
    | requests fallback =>
      refine ⟨.respond i .failed, rfl, ?_⟩
      rw [gateStep, hi, Option.bind_some, Option.isSome_map]
      cases operation <;> cases fallback <;> rfl
    | waits fallback => cases hholds
    | ended success => cases hholds
  · have hnone : s.requesting = 0 :=
      List.countP_eq_zero.mpr fun holder hmem hholds ↦ hheld ⟨holder, hmem, hholds⟩
    have hpos : s.available ≠ 0 := by
      rw [hnone, Nat.add_zero] at hpermits
      rw [hpermits]
      decide
    obtain ⟨i, hi⟩ := List.mem_iff_getElem?.mp hcall
    obtain ⟨operation, phase⟩ := call
    cases phase with
    | waits fallback =>
      refine ⟨.acquire i, rfl, ?_⟩
      rw [gateStep, if_neg hpos, hi, Option.bind_some, Option.isSome_map]
      rfl
    | requests fallback => exact absurd ⟨_, hcall, rfl⟩ hheld
    | ended success => exact absurd rfl hends

/-- All calls can go on to their end, although none of them gives up. -/
theorem exists_end (hpermits : s.available + s.requesting = maxConcurrentKuboRequests) :
    ∃ actions t, Run gateStep s actions t ∧ (∀ action ∈ actions, action.isPatient = true) ∧
      ∀ call ∈ t.calls, call.hasEnded = true := by
  have hstep (s : GateState) (hs : s.available + s.requesting = maxConcurrentKuboRequests)
      (hends : ¬∀ call ∈ s.calls, call.hasEnded = true) :
      ∃ action t, action.isPatient = true ∧ gateStep s action = some t ∧
        t.available + t.requesting = maxConcurrentKuboRequests ∧ t.left < s.left := by
    obtain ⟨call, hcall, hnot⟩ : ∃ call ∈ s.calls, ¬call.hasEnded = true := by
      simpa using hends
    obtain ⟨action, hpatient, henabled⟩ := exists_patient_step hs hcall hnot
    obtain ⟨t, hstep⟩ := Option.isSome_iff_exists.mp henabled
    have hmove := gateMove_of_step hstep
    have hstart : action.isStart = false := by cases action <;> first | rfl | cases hpatient
    have hless := left_of_move hmove
    rw [hstart, if_neg Bool.false_ne_true] at hless
    exact ⟨action, t, hpatient, hstep, permits_of_move hs hmove, by omega⟩
  obtain ⟨actions, t, hrun, hpatient, -, hended⟩ := exists_run_of_decreases
    (fun s : GateState ↦ s.available + s.requesting = maxConcurrentKuboRequests)
    (fun s ↦ ∀ call ∈ s.calls, call.hasEnded = true)
    (fun action : GateAction ↦ action.isPatient = true) GateState.left hpermits hstep
  exact ⟨actions, t, hrun, hpatient, hended⟩

/-- Two updates, one of which has to add its pin. -/
def twoUpdates : List GateAction :=
  [.start .pinUpdate, .start .pinUpdate, .acquire 1, .acquire 0, .respond 1 .notPinned]

end MaRuntime.Ipfs
