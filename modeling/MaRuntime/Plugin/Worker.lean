import Mathlib.Data.List.Infix
import Mathlib.Tactic.SplitIfs
import MaRuntime.Library.Yaml

/-!
# The worker of an entity

An entity runs on a worker thread that owns its plugin and its `StateCtx`. The guest calls host
functions that queue states and requests (`HostCall`), and the worker drains them after a dispatch
(`executeDispatch`). `serve` is what the worker does with one message of its mailbox.

Whatever a guest does, it leaves the persisted state alone, and either leaves the pending state as
it was or leaves the last state it queued pending (`QueuesOnly`).

Main definitions: `StateCtx`, `executeDispatch`, `serve`.
Main results: `queuesOnly_executeDispatch`, `queuesOnly_call`.

Scope. What a guest does is a parameter, the calls it makes and its output (`GuestCall`). Of the
host functions, those that only send, or only answer the guest, are left out, as are the answers of
the others.
-/

set_option autoImplicit false
set_option relaxedAutoImplicit false

namespace MaRuntime.Plugin

abbrev Bytes := List UInt8

/-! ### The state context -/

/-- The state of an entity as its worker has it: the bytes queued and not yet saved, the bytes last
saved, whether they differ, and a counter of the states queued. -/
structure StateCtx where
  pending : Option Bytes
  persisted : Option Bytes
  dirty : Bool
  saveGeneration : UInt64
deriving DecidableEq

namespace StateCtx

def new (persisted : Bytes) : StateCtx := ⟨none, some persisted, false, 0⟩

def markSaved (ctx : StateCtx) (bytes : Bytes) : StateCtx :=
  if ctx.pending = some bytes then
    { ctx with persisted := some bytes, pending := none, dirty := false }
  else
    { ctx with persisted := some bytes, dirty := ctx.pending.any fun pending ↦ pending ≠ bytes }

/-- Whether queueing bytes changes the pending state. -/
def accepts (ctx : StateCtx) (bytes : Bytes) : Bool :=
  ctx.persisted ≠ some bytes && ctx.pending ≠ some bytes

def queueState (ctx : StateCtx) (bytes : Bytes) : StateCtx :=
  if ctx.accepts bytes then
    { ctx with pending := some bytes, dirty := true, saveGeneration := ctx.saveGeneration + 1 }
  else ctx

theorem pending_markSaved (ctx : StateCtx) (bytes : Bytes) :
    (ctx.markSaved bytes).pending = if ctx.pending = some bytes then none else ctx.pending := by
  unfold markSaved
  split_ifs
  · rfl
  · rfl

@[simp] theorem persisted_markSaved (ctx : StateCtx) (bytes : Bytes) :
    (ctx.markSaved bytes).persisted = some bytes := by
  unfold markSaved
  split_ifs
  · rfl
  · rfl

@[simp] theorem persisted_queueState (ctx : StateCtx) (bytes : Bytes) :
    (ctx.queueState bytes).persisted = ctx.persisted := by
  unfold queueState
  split_ifs
  · rfl
  · rfl

end StateCtx

/-! ### The host functions -/

def reservedEntityNames : List String := ["root", "acl", "scheduler", "runtime", "genesis"]

/-- The characters of Unicode's category of controls. -/
def isControl (c : Char) : Bool := c.toNat < 0x20 || (0x7f ≤ c.toNat && c.toNat ≤ 0x9f)

def validateEntityFragment (fragment : String) : Except String Unit :=
  if fragment.isEmpty || fragment.toList.any isControl then
    .error "entity fragment is invalid"
  else if fragment.toList.contains '#' then
    .error "entity fragment must not contain '#'"
  else if reservedEntityNames.contains fragment then
    .error ("entity fragment '" ++ fragment ++ "' is reserved")
  else .ok ()

/-- The name of a behaviour in IPFS, from the reference that a guest gives. -/
def normalizeBehaviourRef (value : String) : Except String (Option String) :=
  let trimmed := trim value
  if trimmed.isEmpty || trimmed == "#f" then .ok none
  else if "/ipfs/".toList.isPrefixOf trimmed.toList then
    let cid := String.ofList (trimmed.toList.drop 6)
    if cid.isEmpty then .error "/ipfs/ behaviour reference is missing a CID" else .ok (some cid)
  else if "/ipns/".toList.isPrefixOf trimmed.toList then
    .error "/ipns/ behaviour references are not supported here; publish the code to /ipfs/<cid> first"
  else .ok (some trimmed)

/-- What a guest asks of `ma_create_entity`. -/
structure CreateEntityInput where
  kind : String
  behaviour : Option String
  init : Option Bytes
  fragment : Option String

structure CreateEntityRequest where
  fragment : String
  kindProtocol : String
  behaviourCid : Option String
  initPayload : Option Bytes
  parent : String

structure SetBehaviourRequest where
  fragment : String
  behaviourCid : Option String

structure CreateEntityCtx where
  pending : List CreateEntityRequest
  callerFragment : String

structure DeleteEntityCtx where
  pending : List String
  selfTerminate : Bool
  selfFragment : String

structure SetBehaviourCtx where
  pending : List SetBehaviourRequest
  selfFragment : String

/-- What a worker keeps for its plugin. The histories are for the properties only: the states that
changed the pending one, in the order they were queued, and whether a state was marked saved. -/
structure WasmThreadState where
  state : StateCtx
  createQueue : CreateEntityCtx
  deleteQueue : DeleteEntityCtx
  behaviourQueue : SetBehaviourCtx
  queued : List Bytes
  acknowledged : Bool

/-- The context of a plugin that is just built. -/
def buildWasmPlugin (fragment : String) (initState : Bytes) : WasmThreadState where
  state := .new initState
  createQueue := ⟨[], fragment⟩
  deleteQueue := ⟨[], false, fragment⟩
  behaviourQueue := ⟨[], fragment⟩
  queued := []
  acknowledged := false

/-- The calls of host functions that leave something with the worker. The fragment that
`ma_create_entity` generates when the guest names none is a parameter. -/
inductive HostCall
  | maSetState (input : Bytes)
  | maCreateEntity (input : CreateEntityInput) (generated : String)
  | maDeleteEntity (target : String)
  | maEnd
  | maSetBehaviour (input : String)

/-- A host function; its error traps the guest. -/
def HostCall.run (ts : WasmThreadState) : HostCall → Except String WasmThreadState
  | .maSetState input =>
    .ok { ts with
      state := ts.state.queueState input
      queued := if ts.state.accepts input then ts.queued ++ [input] else ts.queued }
  | .maCreateEntity input generated => do
    let fragment ← match input.fragment with
      | some fragment => do
        validateEntityFragment fragment
        pure fragment
      | none => pure generated
    let request : CreateEntityRequest :=
      { fragment := fragment
        kindProtocol := input.kind
        behaviourCid := input.behaviour
        initPayload := input.init
        parent := ts.createQueue.callerFragment }
    pure { ts with
      createQueue := { ts.createQueue with pending := ts.createQueue.pending ++ [request] } }
  | .maDeleteEntity target =>
    .ok { ts with
      deleteQueue := { ts.deleteQueue with pending := ts.deleteQueue.pending ++ [target] } }
  | .maEnd => .ok { ts with deleteQueue := { ts.deleteQueue with selfTerminate := true } }
  | .maSetBehaviour input => do
    let behaviour ← normalizeBehaviourRef input
    let request : SetBehaviourRequest := ⟨ts.behaviourQueue.selfFragment, behaviour⟩
    pure { ts with
      behaviourQueue :=
        { ts.behaviourQueue with pending := ts.behaviourQueue.pending ++ [request] } }

/-! ### Calls of the guest -/

/-- What a guest does in a call of an export: its calls of host functions, and its output, which is
missing when it traps after them. -/
structure GuestCall where
  hostCalls : List HostCall
  output : Option Bytes

/-- The calls of host functions up to the first one that fails, and whether there is none. -/
def callHost (ts : WasmThreadState) : List HostCall → WasmThreadState × Bool
  | [] => (ts, true)
  | call :: rest =>
    match call.run ts with
    | .ok ts => callHost ts rest
    | .error _ => (ts, false)

/-- A call of an export, with its output unless it traps. -/
def WasmThreadState.call (ts : WasmThreadState) (guest : GuestCall) :
    WasmThreadState × Option Bytes :=
  match callHost ts guest.hostCalls with
  | (ts, true) => (ts, guest.output)
  | (ts, false) => (ts, none)

structure DispatchResult where
  output : Bytes
  pendingState : Option Bytes
  createRequests : List CreateEntityRequest
  deleteRequests : List String
  behaviourRequests : List SetBehaviourRequest

/-- A dispatch to the plugin, with what it left drained into the result. -/
def executeDispatch (ts : WasmThreadState) (guest : GuestCall) :
    WasmThreadState × Option DispatchResult :=
  let stateGenerationBefore := ts.state.saveGeneration
  match ts.call guest with
  | (ts, none) => (ts, none)
  | (ts, some output) =>
    let pendingState :=
      if ts.state.dirty && ts.state.saveGeneration != stateGenerationBefore then ts.state.pending
      else none
    let selfRequest :=
      if ts.deleteQueue.selfTerminate then [ts.deleteQueue.selfFragment] else []
    ({ ts with
        createQueue := { ts.createQueue with pending := [] }
        deleteQueue := { ts.deleteQueue with pending := [], selfTerminate := false }
        behaviourQueue := { ts.behaviourQueue with pending := [] } },
      some
        { output := output
          pendingState := pendingState
          createRequests := ts.createQueue.pending
          deleteRequests := ts.deleteQueue.pending ++ selfRequest
          behaviourRequests := ts.behaviourQueue.pending })

/-! ### Messages -/

/-- Where the answer to a question goes: the saver that asked, and the ticket of its question. -/
structure ReplyTo where
  saver : Nat
  ticket : Nat
deriving DecidableEq

/-- The messages of an entity's mailbox. -/
inductive EntityMsg
  | dispatch
  | takePending (reply : ReplyTo)
  | markSaved (bytes : Bytes)
  | shutdown (requireSignalSuccess : Bool) (reply : ReplyTo)
  | terminate

/-- What a worker sends back: the result of a dispatch, or the pending state, each
unless it failed. -/
inductive WorkerReply
  | dispatched (result : Option DispatchResult)
  | pending (reply : ReplyTo) (pending : Except Unit (Option Bytes))

/-- What the worker does with a message other than `terminate`, which ends its loop. -/
def serve (ts : WasmThreadState) (guest : GuestCall) :
    EntityMsg → WasmThreadState × Option WorkerReply
  | .dispatch =>
    let (ts, result) := executeDispatch ts guest
    (ts, some (.dispatched result))
  | .takePending reply => (ts, some (.pending reply (.ok ts.state.pending)))
  | .markSaved bytes =>
    ({ ts with state := ts.state.markSaved bytes, acknowledged := true }, none)
  | .shutdown requireSignalSuccess reply =>
    match ts.call guest with
    | (ts, some _) => (ts, some (.pending reply (.ok ts.state.pending)))
    | (ts, none) =>
      if requireSignalSuccess then (ts, some (.pending reply (.error ())))
      else (ts, some (.pending reply (.ok ts.state.pending)))
  | .terminate => (ts, none)

/-! ### What a guest changes -/

/-- From one context to another the guest has queued states at most: the last one it queued is
pending, and if it queued none, the pending state is as it was. -/
structure QueuesOnly (before after : WasmThreadState) : Prop where
  persisted : after.state.persisted = before.state.persisted
  acknowledged : after.acknowledged = before.acknowledged
  queued : before.queued <+: after.queued
  pending : (after.state.pending = before.state.pending ∧ after.queued = before.queued) ∨
    ∃ bytes, after.state.pending = some bytes ∧ after.queued.getLast? = some bytes

namespace QueuesOnly

theorem of_state_eq {before after : WasmThreadState} (hstate : after.state = before.state)
    (hqueued : after.queued = before.queued)
    (hacknowledged : after.acknowledged = before.acknowledged) :
    QueuesOnly before after where
  persisted := by rw [hstate]
  acknowledged := hacknowledged
  queued := by rw [hqueued]
  pending := .inl ⟨by rw [hstate], hqueued⟩

theorem refl (ts : WasmThreadState) : QueuesOnly ts ts := of_state_eq rfl rfl rfl

theorem trans {first second third : WasmThreadState} (h : QueuesOnly first second)
    (h' : QueuesOnly second third) : QueuesOnly first third where
  persisted := h'.persisted.trans h.persisted
  acknowledged := h'.acknowledged.trans h.acknowledged
  queued := h.queued.trans h'.queued
  pending := by
    rcases h'.pending with ⟨hpending, hqueued⟩ | hlast
    · rw [hpending, hqueued]
      exact h.pending
    · exact .inr hlast

end QueuesOnly

/-- Of the host functions only `ma_set_state` changes the state, and what was queued. -/
theorem run_cases {ts after : WasmThreadState} {call : HostCall} (h : call.run ts = .ok after) :
    after.acknowledged = ts.acknowledged ∧
      ((∃ input, call = .maSetState input ∧ after.state = ts.state.queueState input ∧
        after.queued = if ts.state.accepts input then ts.queued ++ [input] else ts.queued) ∨
      ((∀ input, call ≠ .maSetState input) ∧ after.state = ts.state ∧
        after.queued = ts.queued)) := by
  cases call with
  | maSetState input =>
    obtain rfl := Except.ok.inj h
    exact ⟨rfl, .inl ⟨input, rfl, rfl, rfl⟩⟩
  | maCreateEntity input generated =>
    cases hfragment : input.fragment with
    | none =>
      simp only [HostCall.run, hfragment] at h
      obtain rfl := Except.ok.inj h
      exact ⟨rfl, .inr ⟨fun _ ↦ HostCall.noConfusion, rfl, rfl⟩⟩
    | some fragment =>
      cases hvalid : validateEntityFragment fragment with
      | error reason =>
        simp only [HostCall.run, hfragment, hvalid] at h
        cases h
      | ok =>
        simp only [HostCall.run, hfragment, hvalid] at h
        obtain rfl := Except.ok.inj h
        exact ⟨rfl, .inr ⟨fun _ ↦ HostCall.noConfusion, rfl, rfl⟩⟩
  | maDeleteEntity target =>
    obtain rfl := Except.ok.inj h
    exact ⟨rfl, .inr ⟨fun _ ↦ HostCall.noConfusion, rfl, rfl⟩⟩
  | maEnd =>
    obtain rfl := Except.ok.inj h
    exact ⟨rfl, .inr ⟨fun _ ↦ HostCall.noConfusion, rfl, rfl⟩⟩
  | maSetBehaviour input =>
    cases hbehaviour : normalizeBehaviourRef input with
    | error reason =>
      simp only [HostCall.run, hbehaviour] at h
      cases h
    | ok behaviour =>
      simp only [HostCall.run, hbehaviour] at h
      obtain rfl := Except.ok.inj h
      exact ⟨rfl, .inr ⟨fun _ ↦ HostCall.noConfusion, rfl, rfl⟩⟩

theorem queuesOnly_run {ts after : WasmThreadState} {call : HostCall}
    (h : call.run ts = .ok after) : QueuesOnly ts after := by
  obtain ⟨hacknowledged, ⟨input, -, hstate, hqueued⟩ | ⟨-, hstate, hqueued⟩⟩ := run_cases h
  · have hpersisted : after.state.persisted = ts.state.persisted := by
      rw [hstate, StateCtx.persisted_queueState]
    cases haccepts : ts.state.accepts input with
    | true =>
      simp only [StateCtx.queueState, haccepts, if_true] at hstate hqueued
      refine ⟨hpersisted, hacknowledged, ?_, .inr ⟨input, ?_, ?_⟩⟩
      · rw [hqueued]
        exact List.prefix_append _ _
      · rw [hstate]
      · rw [hqueued, List.getLast?_concat]
    | false =>
      simp only [StateCtx.queueState, haccepts, Bool.false_eq_true, if_false] at hstate hqueued
      exact .of_state_eq hstate hqueued hacknowledged
  · exact .of_state_eq hstate hqueued hacknowledged

theorem queuesOnly_callHost (ts : WasmThreadState) (hostCalls : List HostCall) :
    QueuesOnly ts (callHost ts hostCalls).1 := by
  induction hostCalls generalizing ts with
  | nil => exact .refl ts
  | cons call rest ih =>
    cases hcall : call.run ts with
    | ok after =>
      simp only [callHost, hcall]
      exact (queuesOnly_run hcall).trans (ih after)
    | error reason =>
      simp only [callHost, hcall]
      exact .refl ts

/-- A call of the guest queues states at most. -/
theorem queuesOnly_call (ts : WasmThreadState) (guest : GuestCall) :
    QueuesOnly ts (ts.call guest).1 := by
  have h := queuesOnly_callHost ts guest.hostCalls
  unfold WasmThreadState.call
  split <;> simp_all only

/-- A dispatch queues states at most. -/
theorem queuesOnly_executeDispatch (ts : WasmThreadState) (guest : GuestCall) :
    QueuesOnly ts (executeDispatch ts guest).1 := by
  have h := queuesOnly_call ts guest
  unfold executeDispatch
  cases hcall : ts.call guest with
  | mk after output =>
    rw [hcall] at h
    cases output with
    | none => exact h
    | some output => exact ⟨h.persisted, h.acknowledged, h.queued, h.pending⟩

/-- Serving any message but `markSaved` queues states at most. -/
theorem queuesOnly_serve (ts : WasmThreadState) (guest : GuestCall) {message : EntityMsg}
    (h : ∀ bytes, message ≠ .markSaved bytes) : QueuesOnly ts (serve ts guest message).1 := by
  cases message with
  | dispatch => exact queuesOnly_executeDispatch ts guest
  | takePending reply => exact .refl ts
  | markSaved bytes => exact absurd rfl (h bytes)
  | shutdown requireSignalSuccess reply =>
    have hcalled := queuesOnly_call ts guest
    unfold serve
    cases hcall : ts.call guest with
    | mk after output =>
      rw [hcall] at hcalled
      cases output with
      | some output => exact hcalled
      | none =>
        dsimp only
        split_ifs
        · exact hcalled
        · exact hcalled
  | terminate => exact .refl ts

end MaRuntime.Plugin
