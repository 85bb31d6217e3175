import Mathlib.Data.List.TakeWhile
import MaRuntime.Library.Runs
import MaRuntime.Plugin.Worker

/-!
# What a dispatch asks for

A guest asks the runtime to create and to delete entities and to change a behaviour by host
functions that queue the request with its worker. A dispatch is meant to return the requests of its
own call. It does after a call that succeeds as long as nothing else is queued: the queues are only
drained behind a call that succeeds, so that what a call had queued before it trapped or timed out
stays there, and the next call that succeeds returns it.

Main definitions: `GuestCall.Succeeds`, `asked`, `Exact`, `NothingLeft`, `leftOver`.
Main results: `exact_iff_nothingLeft`, `requests_exact_iff`, `guardedRun_nothingLeft_iff`.
-/

set_option autoImplicit false
set_option relaxedAutoImplicit false

namespace MaRuntime.Plugin

open Runs

/-! ### What the host functions queue -/

/-- Whether a host function takes what it is given, so that the guest goes on. -/
def HostCall.accepted : HostCall → Bool
  | .maCreateEntity input _ => input.fragment.all fun fragment ↦
    (validateEntityFragment fragment).isOk
  | .maSetBehaviour input => (normalizeBehaviourRef input).isOk
  | .maSetState _ | .maDeleteEntity _ | .maEnd => true

def HostCall.creates (caller : String) : HostCall → List CreateEntityRequest
  | .maCreateEntity input generated =>
    [{ fragment := input.fragment.getD generated
       kindProtocol := input.kind
       behaviourCid := input.behaviour
       initPayload := input.init
       parent := caller }]
  | _ => []

def HostCall.deletes : HostCall → List String
  | .maDeleteEntity target => [target]
  | _ => []

def HostCall.ends : HostCall → Bool
  | .maEnd => true
  | _ => false

def HostCall.behaviours (self : String) : HostCall → List SetBehaviourRequest
  | .maSetBehaviour input =>
    match normalizeBehaviourRef input with
    | .ok behaviour => [⟨self, behaviour⟩]
    | .error _ => []
  | _ => []

/-- From one context to another some host functions have queued what they are called for. -/
structure Queued (before after : WasmThreadState) (calls : List HostCall) : Prop where
  createQueue : after.createQueue =
    { before.createQueue with
      pending := before.createQueue.pending ++
        calls.flatMap (·.creates before.createQueue.callerFragment) }
  deleteQueue : after.deleteQueue =
    { before.deleteQueue with
      pending := before.deleteQueue.pending ++ calls.flatMap (·.deletes)
      selfTerminate := before.deleteQueue.selfTerminate || calls.any (·.ends) }
  behaviourQueue : after.behaviourQueue =
    { before.behaviourQueue with
      pending := before.behaviourQueue.pending ++
        calls.flatMap (·.behaviours before.behaviourQueue.selfFragment) }

namespace Queued

theorem refl (ts : WasmThreadState) : Queued ts ts [] where
  createQueue := by simp
  deleteQueue := by simp
  behaviourQueue := by simp

theorem trans {first second third : WasmThreadState} {calls calls' : List HostCall}
    (h : Queued first second calls) (h' : Queued second third calls') :
    Queued first third (calls ++ calls') where
  createQueue := by simp [h'.createQueue, h.createQueue, List.append_assoc]
  deleteQueue := by simp [h'.deleteQueue, h.deleteQueue, List.append_assoc, Bool.or_assoc]
  behaviourQueue := by simp [h'.behaviourQueue, h.behaviourQueue, List.append_assoc]

end Queued

section Calls

variable {ts after : WasmThreadState} {call : HostCall}

theorem queued_of_run (h : call.run ts = .ok after) : Queued ts after [call] := by
  cases call with
  | maSetState input =>
    obtain rfl := Except.ok.inj h
    constructor <;> simp [HostCall.creates, HostCall.deletes, HostCall.ends, HostCall.behaviours]
  | maCreateEntity input generated =>
    have hafter : after =
        { ts with
          createQueue := { ts.createQueue with
            pending := ts.createQueue.pending ++
              (HostCall.maCreateEntity input generated).creates
                ts.createQueue.callerFragment } } := by
      cases hfragment : input.fragment with
      | none =>
        simp only [HostCall.run, hfragment] at h
        obtain rfl := Except.ok.inj h
        simp [HostCall.creates, hfragment]
      | some fragment =>
        cases hvalid : validateEntityFragment fragment with
        | error reason =>
          simp only [HostCall.run, hfragment, hvalid] at h
          cases h
        | ok =>
          simp only [HostCall.run, hfragment, hvalid] at h
          obtain rfl := Except.ok.inj h
          simp [HostCall.creates, hfragment]
    subst hafter
    constructor <;> simp [HostCall.deletes, HostCall.ends, HostCall.behaviours]
  | maDeleteEntity target =>
    obtain rfl := Except.ok.inj h
    constructor <;> simp [HostCall.creates, HostCall.deletes, HostCall.ends, HostCall.behaviours]
  | maEnd =>
    obtain rfl := Except.ok.inj h
    constructor <;> simp [HostCall.creates, HostCall.deletes, HostCall.ends, HostCall.behaviours]
  | maSetBehaviour input =>
    cases hbehaviour : normalizeBehaviourRef input with
    | error reason =>
      simp only [HostCall.run, hbehaviour] at h
      cases h
    | ok behaviour =>
      simp only [HostCall.run, hbehaviour] at h
      obtain rfl := Except.ok.inj h
      constructor <;>
        simp [HostCall.creates, HostCall.deletes, HostCall.ends, HostCall.behaviours, hbehaviour]

/-- What a host function takes does not depend on what its worker has queued. -/
theorem isOk_run (ts : WasmThreadState) (call : HostCall) :
    (call.run ts).isOk = call.accepted := by
  cases call with
  | maSetState input => rfl
  | maCreateEntity input generated =>
    cases hfragment : input.fragment with
    | none =>
      simp only [HostCall.run, HostCall.accepted, hfragment]
      rfl
    | some fragment =>
      cases hvalid : validateEntityFragment fragment with
      | error reason =>
        simp only [HostCall.run, HostCall.accepted, hfragment, Option.all_some, hvalid]
        rfl
      | ok =>
        simp only [HostCall.run, HostCall.accepted, hfragment, Option.all_some, hvalid]
        rfl
  | maDeleteEntity target => rfl
  | maEnd => rfl
  | maSetBehaviour input =>
    cases hbehaviour : normalizeBehaviourRef input with
    | error reason =>
      simp only [HostCall.run, HostCall.accepted, hbehaviour]
      rfl
    | ok behaviour =>
      simp only [HostCall.run, HostCall.accepted, hbehaviour]
      rfl

/-- The host functions run up to the first one that does not take what it is given. -/
theorem callHost_spec (ts : WasmThreadState) (calls : List HostCall) :
    Queued ts (callHost ts calls).1 (calls.takeWhile (·.accepted)) ∧
      (callHost ts calls).2 = calls.all (·.accepted) := by
  induction calls generalizing ts with
  | nil => exact ⟨.refl ts, rfl⟩
  | cons call rest ih =>
    cases hcall : call.run ts with
    | ok after =>
      have haccepted : call.accepted = true := (isOk_run ts call).symm.trans (hcall ▸ rfl)
      obtain ⟨hqueued, hall⟩ := ih after
      simp only [callHost, hcall, List.takeWhile_cons, List.all_cons, haccepted, if_true,
        Bool.true_and]
      exact ⟨(queued_of_run hcall).trans hqueued, hall⟩
    | error reason =>
      have haccepted : call.accepted = false := (isOk_run ts call).symm.trans (hcall ▸ rfl)
      simp only [callHost, hcall, List.takeWhile_cons, List.all_cons, haccepted]
      exact ⟨.refl ts, rfl⟩

end Calls

/-! ### What a dispatch returns -/

/-- A call returns: the host functions take what they are given, and the guest neither traps nor
times out. -/
def GuestCall.Succeeds (guest : GuestCall) : Prop :=
  guest.hostCalls.all (·.accepted) = true ∧ guest.output.isSome = true

instance (guest : GuestCall) : Decidable guest.Succeeds :=
  inferInstanceAs (Decidable (_ ∧ _))

/-- The calls of host functions that a guest gets through. -/
def GuestCall.done (guest : GuestCall) : List HostCall := guest.hostCalls.takeWhile (·.accepted)

/-- The requests that a dispatch returns. -/
structure Requests where
  createRequests : List CreateEntityRequest
  deleteRequests : List String
  behaviourRequests : List SetBehaviourRequest

def DispatchResult.requests (result : DispatchResult) : Requests :=
  ⟨result.createRequests, result.deleteRequests, result.behaviourRequests⟩

/-- What some calls of host functions ask for, in their order and the end of the entity itself
last. -/
def asked (ts : WasmThreadState) (calls : List HostCall) : Requests where
  createRequests := calls.flatMap (·.creates ts.createQueue.callerFragment)
  deleteRequests := calls.flatMap (·.deletes) ++
    if calls.any (·.ends) then [ts.deleteQueue.selfFragment] else []
  behaviourRequests := calls.flatMap (·.behaviours ts.behaviourQueue.selfFragment)

/-- A dispatch returns the requests of its own call if that succeeds, and none if it does not. -/
def Exact (ts : WasmThreadState) (guest : GuestCall) : Prop :=
  (executeDispatch ts guest).2.map DispatchResult.requests =
    if guest.Succeeds then some (asked ts guest.hostCalls) else none

/-- If a call succeeds, nothing is queued before it; that the entity ends may be queued when it asks
for that itself. -/
def NothingLeft (ts : WasmThreadState) (guest : GuestCall) : Prop :=
  guest.Succeeds → ts.createQueue.pending = [] ∧ ts.deleteQueue.pending = [] ∧
    ts.behaviourQueue.pending = [] ∧
    (ts.deleteQueue.selfTerminate = true → guest.hostCalls.any (·.ends) = true)

/-- A dispatch of a worker. -/
def dispatchStep (ts : WasmThreadState) (guest : GuestCall) : Option WasmThreadState :=
  some (executeDispatch ts guest).1

section Dispatches

variable {ts after : WasmThreadState} {guest : GuestCall}

theorem GuestCall.done_of_succeeds (h : guest.Succeeds) : guest.done = guest.hostCalls :=
  List.takeWhile_eq_self_iff.mpr (List.all_eq_true.mp h.1)

theorem call_of_succeeds (ts : WasmThreadState) (h : guest.Succeeds) :
    ∃ after output, ts.call guest = (after, some output) ∧ Queued ts after guest.hostCalls := by
  obtain ⟨hqueued, hall⟩ := callHost_spec ts guest.hostCalls
  obtain ⟨output, houtput⟩ := Option.isSome_iff_exists.mp h.2
  have hdone : guest.hostCalls.takeWhile (·.accepted) = guest.hostCalls :=
    GuestCall.done_of_succeeds h
  rw [hdone] at hqueued
  refine ⟨(callHost ts guest.hostCalls).1, output, ?_, hqueued⟩
  unfold WasmThreadState.call
  cases hcall : callHost ts guest.hostCalls with
  | mk after returned =>
    rw [hcall] at hall
    obtain rfl : returned = true := hall.trans h.1
    exact congrArg (Prod.mk after) houtput

theorem call_of_not_succeeds (ts : WasmThreadState) (h : ¬guest.Succeeds) :
    ∃ after, ts.call guest = (after, none) ∧ Queued ts after guest.done := by
  obtain ⟨hqueued, hall⟩ := callHost_spec ts guest.hostCalls
  refine ⟨(callHost ts guest.hostCalls).1, ?_, hqueued⟩
  unfold WasmThreadState.call
  cases hcall : callHost ts guest.hostCalls with
  | mk after returned =>
    rw [hcall] at hall
    cases returned with
    | false => rfl
    | true =>
      have hnone : guest.output = none :=
        Option.not_isSome_iff_eq_none.mp fun houtput ↦ h ⟨hall.symm, houtput⟩
      exact congrArg (Prod.mk after) hnone

/-- A dispatch of a call that succeeds returns all that is queued, and leaves nothing. -/
theorem executeDispatch_of_succeeds (ts : WasmThreadState) (h : guest.Succeeds) :
    ∃ after result, Queued ts after guest.hostCalls ∧
      executeDispatch ts guest =
        ({ after with
            createQueue := { after.createQueue with pending := [] }
            deleteQueue := { after.deleteQueue with pending := [], selfTerminate := false }
            behaviourQueue := { after.behaviourQueue with pending := [] } }, some result) ∧
      result.requests =
        ⟨after.createQueue.pending,
          after.deleteQueue.pending ++
            if after.deleteQueue.selfTerminate then [after.deleteQueue.selfFragment] else [],
          after.behaviourQueue.pending⟩ := by
  obtain ⟨after, output, hcall, hqueued⟩ := call_of_succeeds ts h
  unfold executeDispatch
  rw [hcall]
  exact ⟨after, _, hqueued, rfl, rfl⟩

theorem executeDispatch_of_not_succeeds (ts : WasmThreadState) (h : ¬guest.Succeeds) :
    ∃ after, Queued ts after guest.done ∧ executeDispatch ts guest = (after, none) := by
  obtain ⟨after, hcall, hqueued⟩ := call_of_not_succeeds ts h
  unfold executeDispatch
  rw [hcall]
  exact ⟨after, hqueued, rfl⟩

/-- Deletions from before and the end of the entity make no difference exactly when there are none,
and the end was asked for again. -/
theorem deletes_eq_iff {pending own : List String} {self : String} {left ends : Bool} :
    (pending ++ own ++ if (left || ends) = true then [self] else []) =
        (own ++ if ends = true then [self] else []) ↔
      pending = [] ∧ (left = true → ends = true) := by
  constructor
  · intro h
    have hlength := congrArg List.length h
    simp only [List.length_append] at hlength
    cases left with
    | false =>
      simp only [Bool.false_or] at hlength
      exact ⟨List.eq_nil_of_length_eq_zero (by omega), fun hleft ↦ absurd hleft Bool.false_ne_true⟩
    | true =>
      cases ends with
      | true =>
        simp only [Bool.or_self] at hlength
        exact ⟨List.eq_nil_of_length_eq_zero (by omega), fun _ ↦ rfl⟩
      | false => simp at hlength; omega
  · rintro ⟨rfl, hends⟩
    cases left with
    | false => simp
    | true => simp [hends rfl]

/-- A dispatch is exact if and only if nothing is left from before. -/
theorem exact_iff_nothingLeft : Exact ts guest ↔ NothingLeft ts guest := by
  unfold Exact NothingLeft
  by_cases h : guest.Succeeds
  · obtain ⟨after, result, hqueued, hdispatch, hrequests⟩ := executeDispatch_of_succeeds ts h
    rw [hdispatch, if_pos h, Option.map_some, Option.some.injEq, hrequests]
    simp only [asked, Requests.mk.injEq, hqueued.createQueue, hqueued.deleteQueue,
      hqueued.behaviourQueue, List.append_left_eq_self, deletes_eq_iff]
    constructor
    · rintro ⟨hcreate, ⟨hdelete, hself⟩, hbehaviour⟩ -
      exact ⟨hcreate, hdelete, hbehaviour, hself⟩
    · intro hnothing
      obtain ⟨hcreate, hdelete, hbehaviour, hself⟩ := hnothing h
      exact ⟨hcreate, ⟨hdelete, hself⟩, hbehaviour⟩
  · obtain ⟨after, -, hdispatch⟩ := executeDispatch_of_not_succeeds ts h
    rw [hdispatch, if_neg h]
    exact iff_of_true rfl fun hsucceeds ↦ absurd hsucceeds h

end Dispatches

/-! ### Runs of dispatches -/

/-- The dispatches of a run are exact if and only if every call that succeeds finds nothing left
from before. -/
theorem requests_exact_iff {ts after : WasmThreadState} {guests : List GuestCall}
    (h : Run dispatchStep ts guests after) :
    (∀ before guest rest reached, guests = before ++ guest :: rest →
        Run dispatchStep ts before reached → Exact reached guest) ↔
      GuardedRun dispatchStep NothingLeft ts guests after := by
  rw [guardedRun_iff_forall_split h]
  constructor
  · intro hexact before guest rest reached hsplit hreached
    exact exact_iff_nothingLeft.mp (hexact before guest rest reached hsplit hreached)
  · intro hnothing before guest rest reached hsplit hreached
    exact exact_iff_nothingLeft.mpr (hnothing before guest rest reached hsplit hreached)

/-- A call that asks for an entity and traps. -/
def trappedCreation : GuestCall where
  hostCalls := [.maCreateEntity ⟨"/ma/room/0.0.1", none, none, some "hall"⟩ ""]
  output := none

/-- A call that asks for nothing. -/
def quietCall : GuestCall := ⟨[], some []⟩

theorem requests_exact_iff_quietCall :
    (∀ before guest rest reached, [quietCall] = before ++ guest :: rest →
        Run dispatchStep (buildWasmPlugin "room" []) before reached → Exact reached guest) ↔
      GuardedRun dispatchStep NothingLeft (buildWasmPlugin "room" []) [quietCall]
        (executeDispatch (buildWasmPlugin "room" []) quietCall).1 := by
  have hrun : Run dispatchStep (buildWasmPlugin "room" []) [quietCall]
      (executeDispatch (buildWasmPlugin "room" []) quietCall).1 := run_of_execute rfl
  exact requests_exact_iff hrun

/-- A call that succeeds returns the request of one that trapped before it. -/
theorem not_exact_after_trap :
    ∃ reached, Run dispatchStep (buildWasmPlugin "room" []) [trappedCreation] reached ∧
      (executeDispatch (buildWasmPlugin "room" []) trappedCreation).2 = none ∧
      ¬Exact reached quietCall := by
  refine ⟨_, run_of_execute rfl, rfl, fun hexact ↦ ?_⟩
  have hnothing := (exact_iff_nothingLeft.mp hexact) (by decide)
  have hpending := hnothing.1
  revert hpending
  exact List.cons_ne_nil _ _

/-! ### A worker with nothing queued -/

/-- Nothing is queued. -/
structure Idle (ts : WasmThreadState) : Prop where
  createQueue : ts.createQueue.pending = []
  deleteQueue : ts.deleteQueue.pending = []
  selfTerminate : ts.deleteQueue.selfTerminate = false
  behaviourQueue : ts.behaviourQueue.pending = []

theorem idle_buildWasmPlugin (fragment : String) (initState : Bytes) :
    Idle (buildWasmPlugin fragment initState) := ⟨rfl, rfl, rfl, rfl⟩

/-- Whether a host function queues a request, other than for the end of its entity. -/
def HostCall.asks : HostCall → Bool
  | .maCreateEntity _ _ | .maDeleteEntity _ | .maSetBehaviour _ => true
  | .maSetState _ | .maEnd => false

/-- The calls of host functions that are left behind after a call of the guest. -/
def nextLeft (left : List HostCall) (guest : GuestCall) : List HostCall :=
  if guest.Succeeds then [] else left ++ guest.done

/-- The calls of host functions since the last call of the guest that succeeded. -/
def leftOver (guests : List GuestCall) : List HostCall := guests.foldl nextLeft []

section IdleRuns

variable {ts mid after : WasmThreadState} {left : List HostCall} {guests : List GuestCall}

theorem Idle.queued_step (hidle : Idle ts) (hmid : Queued ts mid left) (guest : GuestCall) :
    Queued ts (executeDispatch mid guest).1 (nextLeft left guest) := by
  unfold nextLeft
  by_cases h : guest.Succeeds
  · obtain ⟨after, result, hqueued, hdispatch, -⟩ := executeDispatch_of_succeeds mid h
    rw [if_pos h, hdispatch]
    have hafter := hmid.trans hqueued
    constructor
    · simp [hafter.createQueue, hidle.createQueue]
    · simp [hafter.deleteQueue, hidle.deleteQueue, hidle.selfTerminate]
    · simp [hafter.behaviourQueue, hidle.behaviourQueue]
  · obtain ⟨after, hqueued, hdispatch⟩ := executeDispatch_of_not_succeeds mid h
    rw [if_neg h, hdispatch]
    exact hmid.trans hqueued

/-- What is queued after a run is what was asked for since the last call that succeeded. -/
theorem Idle.queued_run (hidle : Idle ts) (h : Run dispatchStep mid guests after)
    (hmid : Queued ts mid left) : Queued ts after (guests.foldl nextLeft left) := by
  induction h generalizing left with
  | nil s => exact hmid
  | cons _ hstep _ ih =>
    obtain rfl := Option.some.inj hstep
    exact ih (hidle.queued_step hmid _)

theorem accepted_of_mem_foldl (hleft : ∀ call ∈ left, call.accepted = true) :
    ∀ call ∈ guests.foldl nextLeft left, call.accepted = true := by
  induction guests generalizing left with
  | nil => exact hleft
  | cons guest rest ih =>
    refine ih fun call hcall ↦ ?_
    unfold nextLeft at hcall
    split_ifs at hcall
    · cases hcall
    · rcases List.mem_append.mp hcall with hold | hdone
      · exact hleft call hold
      · exact List.mem_takeWhile_imp hdone

/-- A host function that takes what it is given and asks for nothing queues nothing. -/
theorem asks_eq_false_iff {call : HostCall} (haccepted : call.accepted = true)
    (caller self : String) :
    call.asks = false ↔
      call.creates caller = [] ∧ call.deletes = [] ∧ call.behaviours self = [] := by
  cases call with
  | maSetState input => exact iff_of_true rfl ⟨rfl, rfl, rfl⟩
  | maCreateEntity input generated => simp [HostCall.asks, HostCall.creates]
  | maDeleteEntity target => simp [HostCall.asks, HostCall.deletes]
  | maEnd => exact iff_of_true rfl ⟨rfl, rfl, rfl⟩
  | maSetBehaviour input =>
    cases hbehaviour : normalizeBehaviourRef input with
    | error reason =>
      simp [HostCall.accepted, hbehaviour, Except.isOk, Except.toBool] at haccepted
    | ok behaviour => simp [HostCall.asks, HostCall.behaviours, hbehaviour]

/-- For a worker with nothing queued: between a call that succeeds and the last one before it that
did, no call asked for anything, and none asked for the end of the entity without the one that
succeeds. -/
theorem guardedRun_nothingLeft_iff (hidle : Idle ts) (h : Run dispatchStep ts guests after) :
    GuardedRun dispatchStep NothingLeft ts guests after ↔
      ∀ before guest rest, guests = before ++ guest :: rest → guest.Succeeds →
        (∀ call ∈ leftOver before, call.asks = false) ∧
          ((leftOver before).any (·.ends) = true → guest.hostCalls.any (·.ends) = true) := by
  have hstep (before : List GuestCall) (guest : GuestCall) (reached : WasmThreadState)
      (hreached : Run dispatchStep ts before reached) :
      NothingLeft reached guest ↔ (guest.Succeeds →
        (∀ call ∈ leftOver before, call.asks = false) ∧
          ((leftOver before).any (·.ends) = true → guest.hostCalls.any (·.ends) = true)) := by
    have hqueued : Queued ts reached (leftOver before) := hidle.queued_run hreached (.refl ts)
    have haccepted : ∀ call ∈ leftOver before, call.accepted = true := by
      refine accepted_of_mem_foldl fun call hcall ↦ ?_
      cases hcall
    unfold NothingLeft
    simp only [hqueued.createQueue, hqueued.deleteQueue, hqueued.behaviourQueue,
      hidle.createQueue, hidle.deleteQueue, hidle.selfTerminate, hidle.behaviourQueue,
      List.nil_append, Bool.false_or, List.flatMap_eq_nil_iff]
    refine imp_congr_right fun _ ↦ ?_
    constructor
    · rintro ⟨hcreate, hdelete, hbehaviour, hends⟩
      refine ⟨fun call hcall ↦ ?_, hends⟩
      exact (asks_eq_false_iff (haccepted call hcall) _ _).mpr
        ⟨hcreate call hcall, hdelete call hcall, hbehaviour call hcall⟩
    · rintro ⟨hnone, hends⟩
      have hqueues := fun call hcall ↦
        (asks_eq_false_iff (haccepted call hcall) ts.createQueue.callerFragment
          ts.behaviourQueue.selfFragment).mp (hnone call hcall)
      exact ⟨fun call hcall ↦ (hqueues call hcall).1, fun call hcall ↦ (hqueues call hcall).2.1,
        fun call hcall ↦ (hqueues call hcall).2.2, hends⟩
  rw [guardedRun_iff_forall_split h]
  constructor
  · rintro hnothing before guest rest rfl
    obtain ⟨reached, hreached, -⟩ := guardedRun_append.mp h
    exact (hstep before guest reached hreached).mp
      (hnothing before guest rest reached rfl hreached)
  · intro hall before guest rest reached hsplit hreached
    exact (hstep before guest reached hreached).mpr (hall before guest rest hsplit)

end IdleRuns

end MaRuntime.Plugin
