import Mathlib.Logic.Function.Basic
import MaRuntime.Library.Runs
import MaRuntime.Library.WriteBack
import MaRuntime.Manifest.Documents
import MaRuntime.Plugin.Worker

/-!
# The savers of an entity

An entity's states are saved by tasks that run beside its worker: the background loop that a
dispatch with a pending state starts (`run_state_persist_loop`), and the direct savers
`trigger_save`, `prepare_reload_save` and `graceful_shutdown_save`, whose callers link the saved
state afterwards. A saver is a task with a phase for each of its await points (`Saver`), and
`entityStep` takes the steps of the callers, the worker and the savers in any order.

The loop links a state before it acknowledges it to the worker, and the direct savers acknowledge it
before they link it. Both are steps of the write-back cell that an entity's states are
(`EntityState.cell`): `entityStep_effect` says which step of the cell each step is.

Main definitions: `Saver`, `EntityPlugin`, `entityStep`, `EntityState.cell`.
Main results: `entityStep_effect`.

Scope. `set_entity_state` is one step (`manifestWriter_serialisable`). The backoff of the loop is
left out, as is the identifier a direct saver returns, which its state's bytes determine.
-/

set_option autoImplicit false
set_option relaxedAutoImplicit false

namespace MaRuntime.Plugin

open Manifest WriteBack

variable {Cid : Type}

/-! ### Savers -/

/-- The direct savers. -/
inductive SaveRequest
  | triggerSave
  | prepareReloadSave
  | gracefulShutdownSave
deriving DecidableEq

/-- How a direct saver asks the worker for the pending state. -/
def SaveRequest.message (reply : ReplyTo) : SaveRequest → EntityMsg
  | .triggerSave => .takePending reply
  | .prepareReloadSave => .shutdown true reply
  | .gracefulShutdownSave => .shutdown false reply

/-- Where a saver stands: the background loop, from the upload of its bytes to its last look at the
pending state after it has cleared its flag; or a direct saver, from its question to the link. -/
inductive Saver
  | idle
  | loopAdd (bytes : Bytes)
  | loopLink (bytes : Bytes)
  | loopMark (bytes : Bytes)
  | loopAsk
  | loopAwait (ticket : Nat)
  | loopClear
  | finalAsk
  | finalAwait (ticket : Nat)
  | respawn (bytes : Bytes)
  | ask (request : SaveRequest)
  | await (ticket : Nat)
  | add (bytes : Bytes)
  | mark (bytes : Bytes)
  | link (bytes : Bytes)
  | ended (succeeded : Bool)
deriving DecidableEq

namespace Saver

/-- The bytes a saver is yet to link. -/
def hand : Saver → Option Bytes
  | .loopAdd bytes | .loopLink bytes | .add bytes | .mark bytes | .link bytes => some bytes
  | _ => none

/-- Whether a saver has begun and not ended. -/
def inProgress : Saver → Bool
  | .idle | .ended _ => false
  | _ => true

/-- What a saver does with the answer to its question; an answer to another question than the one it
waits for finds its channel closed. -/
def receive (ticket : Nat) (pending : Except Unit (Option Bytes)) : Saver → Saver
  | .loopAwait waiting =>
    if waiting = ticket then
      match pending with
      | .ok (some bytes) => .loopAdd bytes
      | .ok none | .error () => .loopClear
    else .loopAwait waiting
  | .finalAwait waiting =>
    if waiting = ticket then
      match pending with
      | .ok (some bytes) => .respawn bytes
      | .ok none | .error () => .ended true
    else .finalAwait waiting
  | .await waiting =>
    if waiting = ticket then
      match pending with
      | .ok (some bytes) => .add bytes
      | .ok none => .ended true
      | .error () => .ended false
    else .await waiting
  | saver => saver

theorem hand_receive {ticket : Nat} {pending : Except Unit (Option Bytes)} {saver : Saver}
    {bytes : Bytes} (h : saver.hand = some bytes) :
    (saver.receive ticket pending).hand = some bytes := by
  cases saver with
  | loopAdd | loopLink | add | mark | link => exact h
  | idle | loopMark | loopAsk | loopAwait | loopClear | finalAsk | finalAwait | respawn | ask | await
  | ended => cases h

/-- Whether a saver can be changed by another step than its own: it may begin, or it waits for an
answer. -/
def attentive : Saver → Bool
  | .idle | .loopAwait _ | .finalAwait _ | .await _ => true
  | _ => false

theorem receive_of_not_attentive {ticket : Nat} {pending : Except Unit (Option Bytes)}
    {saver : Saver}
    (h : saver.attentive = false) : saver.receive ticket pending = saver := by
  cases saver with
  | idle | loopAwait | finalAwait | await => cases h
  | loopAdd | loopLink | loopMark | loopAsk | loopClear | finalAsk | respawn | ask | add | mark | link
  | ended => rfl

theorem hand_of_not_inProgress {saver : Saver} (h : saver.inProgress = false) :
    saver.hand = none := by
  cases saver with
  | idle | ended => rfl
  | loopAdd | loopLink | loopMark | loopAsk | loopAwait | loopClear | finalAsk | finalAwait | respawn
  | ask | await | add | mark | link => cases h

end Saver

/-! ### The entity -/

def entityMailboxCapacity : Nat := 64

/-- An entity: its worker's context and mailbox, whether the worker runs, the flag of the background
loop, its savers, the pending states of the dispatch results that are with their callers, and the
number of questions asked. -/
structure EntityPlugin where
  thread : WasmThreadState
  alive : Bool
  mailbox : List EntityMsg
  statePersistInFlight : Bool
  savers : Nat → Saver
  results : List Bytes
  tickets : Nat

namespace EntityPlugin

/-- An entity that has gone through the lifecycle signals of its load. -/
def load (fragment : String) (initState : Bytes) (signals : List GuestCall) : EntityPlugin where
  thread := signals.foldl (fun ts guest ↦ (ts.call guest).1) (buildWasmPlugin fragment initState)
  alive := true
  mailbox := []
  statePersistInFlight := false
  savers _ := .idle
  results := []
  tickets := 0

/-- A message is taken unless the mailbox is full or closed. -/
def trySend (e : EntityPlugin) (message : EntityMsg) : Option EntityPlugin :=
  if e.alive && e.mailbox.length < entityMailboxCapacity then
    some { e with mailbox := e.mailbox ++ [message] }
  else none

/-- A message whose loss is not noticed. -/
def send (e : EntityPlugin) (message : EntityMsg) : EntityPlugin :=
  (e.trySend message).getD e

def markSaved (e : EntityPlugin) (bytes : Bytes) : EntityPlugin := e.send (.markSaved bytes)

def terminateWorker (e : EntityPlugin) : EntityPlugin := e.send .terminate

def setSaver (e : EntityPlugin) (id : Nat) (saver : Saver) : EntityPlugin :=
  { e with savers := Function.update e.savers id saver }

/-- A saver asks the worker, and waits with the ticket of its question, or goes on without an answer
when the mailbox does not take it. -/
def askWorker (e : EntityPlugin) (id : Nat) (message : ReplyTo → EntityMsg) (waiting : Nat → Saver)
    (refused : Saver) : EntityPlugin :=
  match e.trySend (message ⟨id, e.tickets⟩) with
  | some e => { e.setSaver id (waiting e.tickets) with tickets := e.tickets + 1 }
  | none => e.setSaver id refused

/-- The background loop is started unless one is in flight. -/
def spawnStatePersist (e : EntityPlugin) (id : Nat) (bytes : Bytes) (skipped : Saver) :
    EntityPlugin :=
  if e.statePersistInFlight then e.setSaver id skipped
  else { e.setSaver id (.loopAdd bytes) with statePersistInFlight := true }

/-- What comes of the worker's answer: the result of a dispatch is with its caller, and a saver has
the pending state it asked for. -/
def answer (e : EntityPlugin) : Option WorkerReply → EntityPlugin
  | some (.dispatched result) =>
    { e with results := e.results ++ (result.bind DispatchResult.pendingState).toList }
  | some (.pending reply pending) =>
    e.setSaver reply.saver ((e.savers reply.saver).receive reply.ticket pending)
  | none => e

/-- The worker takes a message; after `terminate` it takes no more. -/
def work (e : EntityPlugin) (guest : GuestCall) : Option EntityPlugin :=
  match e.alive, e.mailbox with
  | true, .terminate :: _ => some { e with alive := false, mailbox := [] }
  | true, message :: rest =>
    let served := serve e.thread guest message
    some ({ e with mailbox := rest, thread := served.1 }.answer served.2)
  | _, _ => none

end EntityPlugin

/-- An entity with the state link of its node in the manifest. -/
structure EntityState (Cid : Type) where
  plugin : EntityPlugin
  link : Option Cid

/-- The steps of an entity: a caller sends a dispatch, the worker takes a message, the caller of a
dispatch spawns the loop or drops the result, a direct saver begins, a saver takes its next step, a
saver no longer waits for its answer, and the worker is told to end. -/
inductive EntityAction
  | send
  | work (guest : GuestCall)
  | spawnStatePersist (result id : Nat)
  | forget (result : Nat)
  | save (request : SaveRequest) (id : Nat)
  | advance (id : Nat) (succeeds : Bool)
  | timeout (id : Nat)
  | terminate

section Machine

variable (store : Store Cid)

/-- The identifier of a state. -/
def stateCid (bytes : Bytes) : Cid := store.cidOf (.bytes bytes)

theorem stateCid_injective : Function.Injective (stateCid store) := by
  intro first second h
  exact Document.bytes.inj (store.cidOf_injective h)

def EntityState.setSaver (s : EntityState Cid) (id : Nat) (saver : Saver) : EntityState Cid :=
  { s with plugin := s.plugin.setSaver id saver }

/-- The next step of a saver; its calls of Kubo and of the manifest writer may fail. -/
def advance (s : EntityState Cid) (id : Nat) (succeeds : Bool) : Option (EntityState Cid) :=
  match s.plugin.savers id with
  | .loopAdd bytes =>
    if succeeds then some (s.setSaver id (.loopLink bytes)) else some (s.setSaver id .loopAsk)
  | .loopLink bytes =>
    if succeeds then
      some { s.setSaver id (.loopMark bytes) with link := some (stateCid store bytes) }
    else some (s.setSaver id .loopAsk)
  | .loopMark bytes => some { s with plugin := (s.plugin.markSaved bytes).setSaver id .loopAsk }
  | .loopAsk => some { s with plugin := s.plugin.askWorker id .takePending .loopAwait .loopClear }
  | .loopClear =>
    some { s with plugin := { s.plugin.setSaver id .finalAsk with statePersistInFlight := false } }
  | .finalAsk =>
    some { s with plugin := s.plugin.askWorker id .takePending .finalAwait (.ended true) }
  | .respawn bytes => some { s with plugin := s.plugin.spawnStatePersist id bytes (.ended true) }
  | .ask request =>
    some { s with
      plugin := s.plugin.askWorker id (fun reply ↦ request.message reply) .await (.ended false) }
  | .add bytes =>
    if succeeds then some (s.setSaver id (.mark bytes)) else some (s.setSaver id (.ended false))
  | .mark bytes => some { s with plugin := (s.plugin.markSaved bytes).setSaver id (.link bytes) }
  | .link bytes =>
    if succeeds then some { s.setSaver id (.ended true) with link := some (stateCid store bytes) }
    else some (s.setSaver id (.ended false))
  | .idle | .loopAwait _ | .finalAwait _ | .await _ | .ended _ => none

/-- A saver that waits for an answer goes on without it. -/
def timeout (s : EntityState Cid) (id : Nat) : Option (EntityState Cid) :=
  match s.plugin.savers id with
  | .loopAwait _ => some (s.setSaver id .loopClear)
  | .finalAwait _ => some (s.setSaver id (.ended true))
  | .await _ => some (s.setSaver id (.ended false))
  | _ => none

/-- One step of an interleaving of the callers, the worker and the savers of an entity. -/
def entityStep (s : EntityState Cid) : EntityAction → Option (EntityState Cid)
  | .send => (s.plugin.trySend .dispatch).map fun plugin ↦ { s with plugin := plugin }
  | .work guest => (s.plugin.work guest).map fun plugin ↦ { s with plugin := plugin }
  | .spawnStatePersist result id =>
    match s.plugin.results[result]?, s.plugin.savers id with
    | some bytes, .idle =>
      let plugin := { s.plugin with results := s.plugin.results.eraseIdx result }
      some { s with plugin := plugin.spawnStatePersist id bytes .idle }
    | _, _ => none
  | .forget result =>
    some { s with plugin := { s.plugin with results := s.plugin.results.eraseIdx result } }
  | .save request id =>
    match s.plugin.savers id with
    | .idle => some (s.setSaver id (.ask request))
    | _ => none
  | .advance id succeeds => advance store s id succeeds
  | .timeout id => timeout s id
  | .terminate => some { s with plugin := s.plugin.terminateWorker }

end Machine

/-! ### The cell of an entity -/

/-- The states of an entity as a write-back cell. -/
def EntityState.cell (s : EntityState Cid) : Cell Nat Bytes Cid where
  pending := s.plugin.thread.state.pending
  persisted := s.plugin.thread.state.persisted
  newest := s.plugin.thread.queued.getLast?
  acknowledged := s.plugin.thread.acknowledged
  held id := (s.plugin.savers id).hand
  link := s.link

/-- What a step of an entity does to its cell. -/
def entityEvent (s : EntityState Cid) : EntityAction → Event Nat Bytes
  | .work _ =>
    match s.plugin.alive, s.plugin.mailbox with
    | true, .markSaved bytes :: _ => .acknowledge bytes
    | _, _ => .work
  | .advance id succeeds =>
    match s.plugin.savers id, succeeds with
    | .loopLink bytes, true | .link bytes, true => .publish id bytes
    | .loopAdd bytes, false | .loopLink bytes, false | .add bytes, false | .link bytes, false =>
      .giveUp id bytes
    | _, _ => .work
  | _ => .work

variable {store : Store Cid} {s t : EntityState Cid}

theorem thread_trySend {e sent : EntityPlugin} {message : EntityMsg}
    (h : e.trySend message = some sent) : sent.thread = e.thread ∧ sent.savers = e.savers := by
  unfold EntityPlugin.trySend at h
  split_ifs at h
  obtain rfl := Option.some.inj h
  exact ⟨rfl, rfl⟩

theorem thread_send (e : EntityPlugin) (message : EntityMsg) :
    (e.send message).thread = e.thread ∧ (e.send message).savers = e.savers := by
  unfold EntityPlugin.send
  cases hsent : e.trySend message with
  | none => exact ⟨rfl, rfl⟩
  | some sent => exact thread_trySend hsent

/-- What holds of each saver holds of each after one of them changes its phase and keeps it. -/
theorem savers_update (property : Saver → Prop) {savers : Nat → Saver} {id : Nat} {saver : Saver}
    (h : property (savers id) → property saver) (other : Nat) (hother : property (savers other)) :
    property (Function.update savers id saver other) := by
  by_cases hsame : other = id
  · subst hsame
    rw [Function.update_self]
    exact h hother
  · rwa [Function.update_of_ne hsame]

/-- What a saver keeps in hand when only its own phase changes. -/
theorem hand_update {savers : Nat → Saver} {id : Nat} {saver : Saver}
    (h : ∀ bytes, (savers id).hand = some bytes → saver.hand = some bytes) (other : Nat)
    (bytes : Bytes) (hother : (savers other).hand = some bytes) :
    (Function.update savers id saver other).hand = some bytes :=
  savers_update (fun saver ↦ saver.hand = some bytes) (h bytes) other hother

/-- A step that leaves the worker and the link alone, and takes nothing from a saver, is work. -/
theorem effect_of_thread_eq (hthread : t.plugin.thread = s.plugin.thread) (hlink : t.link = s.link)
    (hheld : ∀ id bytes, (s.plugin.savers id).hand = some bytes →
      (t.plugin.savers id).hand = some bytes) :
    Effect (stateCid store) s.cell .work t.cell := by
  apply Effect.of_work
  · simp only [EntityState.cell, hthread]
  · simp only [EntityState.cell, hthread]
  · exact hlink
  · left
    simp only [EntityState.cell, hthread, and_self]
  · exact hheld

/-- A step that changes the phase of one saver, and takes nothing from it, is work. -/
theorem effect_of_savers_eq {id : Nat} {saver : Saver}
    (hthread : t.plugin.thread = s.plugin.thread) (hlink : t.link = s.link)
    (hsavers : t.plugin.savers = Function.update s.plugin.savers id saver)
    (hhand : ∀ bytes, (s.plugin.savers id).hand = some bytes → saver.hand = some bytes) :
    Effect (stateCid store) s.cell .work t.cell := by
  refine effect_of_thread_eq hthread hlink fun other bytes hother ↦ ?_
  rw [hsavers]
  exact hand_update hhand other bytes hother

/-- The effect of a saver's question. -/
theorem effect_askWorker (s : EntityState Cid) {id : Nat} {message : ReplyTo → EntityMsg}
    {waiting : Nat → Saver} {refused : Saver} (hhand : (s.plugin.savers id).hand = none) :
    Effect (stateCid store) s.cell .work
      { s with plugin := s.plugin.askWorker id message waiting refused : EntityState Cid }.cell := by
  have hnothing (saver : Saver) (bytes : Bytes) (h : (s.plugin.savers id).hand = some bytes) :
      saver.hand = some bytes := nomatch hhand.symm.trans h
  unfold EntityPlugin.askWorker
  cases hsent : s.plugin.trySend (message ⟨id, s.plugin.tickets⟩) with
  | none => exact effect_of_savers_eq rfl rfl rfl (hnothing refused)
  | some sent =>
    obtain ⟨hthread, hsavers⟩ := thread_trySend hsent
    refine effect_of_savers_eq hthread rfl ?_ (hnothing (waiting sent.tickets))
    simp only [EntityPlugin.setSaver, hsavers]

/-- The effect of spawning the loop. -/
theorem effect_spawnStatePersist (s : EntityState Cid) {id : Nat} {bytes : Bytes} (skipped : Saver)
    (hhand : (s.plugin.savers id).hand = none) :
    Effect (stateCid store) s.cell .work
      { s with plugin := s.plugin.spawnStatePersist id bytes skipped : EntityState Cid }.cell := by
  have hnothing (saver : Saver) (other : Bytes) (h : (s.plugin.savers id).hand = some other) :
      saver.hand = some other := nomatch hhand.symm.trans h
  unfold EntityPlugin.spawnStatePersist
  split_ifs
  · exact effect_of_savers_eq rfl rfl rfl (hnothing skipped)
  · exact effect_of_savers_eq rfl rfl rfl (hnothing (.loopAdd bytes))

/-- The effect of a saver that links what it holds. -/
theorem effect_publish {id : Nat} {bytes : Bytes} {saver : Saver}
    (hhand : (s.plugin.savers id).hand = some bytes) (hafter : saver.hand = none) :
    Effect (stateCid store) s.cell (.publish id bytes)
      { s.setSaver id saver with link := some (stateCid store bytes) }.cell := by
  refine .publish hhand (fun other hother ↦ ?_) ?_
  · simp only [EntityState.setSaver, EntityPlugin.setSaver, Function.update_of_ne hother]
    rfl
  · simpa only [EntityState.setSaver, EntityPlugin.setSaver, Function.update_self] using hafter

/-- The effect of a saver that gives up what it holds. -/
theorem effect_giveUp {id : Nat} {bytes : Bytes} {saver : Saver}
    (hhand : (s.plugin.savers id).hand = some bytes) (hafter : saver.hand = none) :
    Effect (stateCid store) s.cell (.giveUp id bytes) (s.setSaver id saver).cell := by
  refine .giveUp hhand (fun other hother ↦ ?_) ?_
  · simp only [EntityState.setSaver, EntityPlugin.setSaver, Function.update_of_ne hother]
    rfl
  · simpa only [EntityState.setSaver, EntityPlugin.setSaver, Function.update_self] using hafter

/-- The effect of a saver that sends `MarkSaved`. -/
theorem effect_markSaved (s : EntityState Cid) {id : Nat} {bytes : Bytes} {saver : Saver}
    (hhand : ∀ other, (s.plugin.savers id).hand = some other → saver.hand = some other) :
    Effect (stateCid store) s.cell .work
      { s with plugin := (s.plugin.markSaved bytes).setSaver id saver : EntityState Cid }.cell := by
  obtain ⟨hthread, hsavers⟩ := thread_send s.plugin (.markSaved bytes)
  refine effect_of_savers_eq hthread rfl ?_ hhand
  exact congrArg (fun savers ↦ Function.update savers id saver) hsavers

/-- The next step of a saver is the step of the cell that its event says. -/
theorem advance_effect {id : Nat} {succeeds : Bool} (h : advance store s id succeeds = some t) :
    Effect (stateCid store) s.cell (entityEvent s (.advance id succeeds)) t.cell := by
  unfold advance at h
  cases hsaver : s.plugin.savers id with
  | loopAdd bytes | add bytes =>
    have hhand : (s.plugin.savers id).hand = some bytes := by rw [hsaver]; rfl
    rw [hsaver] at h
    cases succeeds with
    | true =>
      obtain rfl := Option.some.inj h
      simp only [entityEvent, hsaver]
      exact effect_of_savers_eq rfl rfl rfl fun other hother ↦ hhand.symm.trans hother
    | false =>
      obtain rfl := Option.some.inj h
      simp only [entityEvent, hsaver]
      exact effect_giveUp hhand rfl
  | loopLink bytes | link bytes =>
    have hhand : (s.plugin.savers id).hand = some bytes := by rw [hsaver]; rfl
    rw [hsaver] at h
    cases succeeds with
    | true =>
      obtain rfl := Option.some.inj h
      simp only [entityEvent, hsaver]
      exact effect_publish hhand rfl
    | false =>
      obtain rfl := Option.some.inj h
      simp only [entityEvent, hsaver]
      exact effect_giveUp hhand rfl
  | loopMark bytes =>
    have hhand : (s.plugin.savers id).hand = none := by rw [hsaver]; rfl
    rw [hsaver] at h
    obtain rfl := Option.some.inj h
    simp only [entityEvent, hsaver]
    exact effect_markSaved s fun other hother ↦ nomatch hhand.symm.trans hother
  | mark bytes =>
    have hhand : (s.plugin.savers id).hand = some bytes := by rw [hsaver]; rfl
    rw [hsaver] at h
    obtain rfl := Option.some.inj h
    simp only [entityEvent, hsaver]
    exact effect_markSaved s fun other hother ↦ hhand.symm.trans hother
  | loopAsk | finalAsk | ask =>
    have hhand : (s.plugin.savers id).hand = none := by rw [hsaver]; rfl
    rw [hsaver] at h
    obtain rfl := Option.some.inj h
    simp only [entityEvent, hsaver]
    exact effect_askWorker s hhand
  | loopClear =>
    have hhand : (s.plugin.savers id).hand = none := by rw [hsaver]; rfl
    rw [hsaver] at h
    obtain rfl := Option.some.inj h
    simp only [entityEvent, hsaver]
    exact effect_of_savers_eq rfl rfl rfl fun other hother ↦ nomatch hhand.symm.trans hother
  | respawn bytes =>
    have hhand : (s.plugin.savers id).hand = none := by rw [hsaver]; rfl
    rw [hsaver] at h
    obtain rfl := Option.some.inj h
    simp only [entityEvent, hsaver]
    exact effect_spawnStatePersist s _ hhand
  | idle | loopAwait | finalAwait | await | ended =>
    rw [hsaver] at h
    cases h

/-- A saver that no longer waits changes nothing else. -/
theorem timeout_effect {id : Nat} (h : timeout s id = some t) :
    Effect (stateCid store) s.cell .work t.cell := by
  unfold timeout at h
  cases hsaver : s.plugin.savers id with
  | loopAwait | finalAwait | await =>
    have hhand : (s.plugin.savers id).hand = none := by rw [hsaver]; rfl
    rw [hsaver] at h
    obtain rfl := Option.some.inj h
    exact effect_of_savers_eq rfl rfl rfl fun other hother ↦ nomatch hhand.symm.trans hother
  | idle | loopAdd | loopLink | loopMark | loopAsk | loopClear | finalAsk | respawn | ask | add | mark
  | link | ended =>
    rw [hsaver] at h
    cases h

theorem thread_answer (e : EntityPlugin) (reply : Option WorkerReply) :
    (e.answer reply).thread = e.thread := by
  cases reply with
  | none => rfl
  | some reply =>
    cases reply with
    | dispatched => rfl
    | pending => rfl

/-- An answer takes nothing from a saver. -/
theorem hand_answer (e : EntityPlugin) (reply : Option WorkerReply) (id : Nat) (bytes : Bytes)
    (h : (e.savers id).hand = some bytes) : ((e.answer reply).savers id).hand = some bytes := by
  cases reply with
  | none => exact h
  | some reply =>
    cases reply with
    | dispatched => exact h
    | pending reply pending => exact hand_update (fun _ ↦ Saver.hand_receive) id bytes h

/-- A message that queues states at most is work. -/
theorem effect_serve (s : EntityState Cid) (guest : GuestCall) (mailbox : List EntityMsg)
    {message : EntityMsg} (h : ∀ bytes, message ≠ .markSaved bytes) :
    let served := serve s.plugin.thread guest message
    Effect (stateCid store) s.cell .work
      { s with
        plugin := { s.plugin with mailbox := mailbox, thread := served.1 }.answer served.2 :
          EntityState Cid }.cell := by
  intro served
  have hqueues := queuesOnly_serve s.plugin.thread guest h
  refine Effect.of_work ?_ ?_ rfl ?_ fun id bytes hheld ↦ ?_
  · simp only [EntityState.cell, thread_answer]
    exact hqueues.persisted
  · simp only [EntityState.cell, thread_answer]
    exact hqueues.acknowledged
  · simp only [EntityState.cell, thread_answer]
    rcases hqueues.pending with ⟨hpending, hqueued⟩ | hlast
    · exact .inl ⟨hpending, congrArg List.getLast? hqueued⟩
    · exact .inr hlast
  · exact hand_answer _ served.2 id bytes hheld

/-- What the worker does with `MarkSaved` is an acknowledgment. -/
theorem effect_acknowledge (s : EntityState Cid) (bytes : Bytes) (mailbox : List EntityMsg) :
    Effect (stateCid store) s.cell (.acknowledge bytes)
      { s with
        plugin := { s.plugin with
          mailbox := mailbox
          thread := { s.plugin.thread with
            state := s.plugin.thread.state.markSaved bytes
            acknowledged := true } } : EntityState Cid }.cell := by
  simp only [EntityState.cell, StateCtx.persisted_markSaved]
  refine Effect.acknowledge (s := s.cell) (fun hsame ↦ ?_) fun hother ↦ ?_
  · exact (StateCtx.pending_markSaved _ _).trans (if_pos hsame)
  · exact (StateCtx.pending_markSaved _ _).trans (if_neg hother)

/-- What the worker does with a message is the step of the cell that its event says. -/
theorem work_effect {guest : GuestCall} (h : entityStep store s (.work guest) = some t) :
    Effect (stateCid store) s.cell (entityEvent s (.work guest)) t.cell := by
  obtain ⟨plugin, hwork, rfl⟩ := Option.map_eq_some_iff.mp h
  unfold EntityPlugin.work at hwork
  split at hwork
  · rename_i rest halive hmailbox
    obtain rfl := Option.some.inj hwork
    simp only [entityEvent, halive, hmailbox]
    exact effect_of_thread_eq rfl rfl fun _ _ hheld ↦ hheld
  · rename_i message rest _ halive hmailbox
    obtain rfl := Option.some.inj hwork
    by_cases hmark : ∃ bytes, message = .markSaved bytes
    · obtain ⟨bytes, rfl⟩ := hmark
      have hevent : entityEvent s (.work guest) = .acknowledge bytes := by
        simp only [entityEvent, halive, hmailbox]
      rw [hevent]
      exact effect_acknowledge s bytes rest
    · have hnot (bytes : Bytes) : message ≠ .markSaved bytes := fun h ↦ hmark ⟨bytes, h⟩
      have hevent : entityEvent s (.work guest) = .work := by
        simp only [entityEvent, halive, hmailbox]
        split
        · rename_i bytes _ _ hcons
          exact absurd (List.cons.inj hcons).1 (hnot bytes)
        · rfl
      rw [hevent]
      exact effect_serve s guest rest hnot
  · cases hwork

/-- Every step of an entity is the step of its cell that its event says. -/
theorem entityStep_effect {action : EntityAction} (h : entityStep store s action = some t) :
    Effect (stateCid store) s.cell (entityEvent s action) t.cell := by
  cases action with
  | send =>
    obtain ⟨plugin, hsent, rfl⟩ := Option.map_eq_some_iff.mp h
    obtain ⟨hthread, hsavers⟩ := thread_trySend hsent
    refine effect_of_thread_eq hthread rfl fun id bytes hheld ↦ ?_
    simpa only [hsavers] using hheld
  | work guest => exact work_effect h
  | spawnStatePersist result id =>
    simp only [entityStep] at h
    split at h
    · rename_i bytes _ hidle
      obtain rfl := Option.some.inj h
      have hhand : (s.plugin.savers id).hand = none := by rw [hidle]; rfl
      let rest : EntityState Cid :=
        { s with plugin := { s.plugin with results := s.plugin.results.eraseIdx result } }
      exact effect_spawnStatePersist rest .idle hhand
    · cases h
  | forget result =>
    obtain rfl := Option.some.inj h
    exact effect_of_thread_eq rfl rfl fun _ _ hheld ↦ hheld
  | save request id =>
    simp only [entityStep] at h
    split at h
    · rename_i hidle
      have hhand : (s.plugin.savers id).hand = none := by rw [hidle]; rfl
      obtain rfl := Option.some.inj h
      exact effect_of_savers_eq rfl rfl rfl fun other hother ↦ nomatch hhand.symm.trans hother
    · cases h
  | advance id succeeds => exact advance_effect h
  | timeout id => exact timeout_effect h
  | terminate =>
    obtain rfl := Option.some.inj h
    obtain ⟨hthread, hsavers⟩ := thread_send s.plugin .terminate
    refine effect_of_thread_eq hthread rfl fun id bytes hheld ↦ ?_
    exact (congrArg (fun savers ↦ (savers id).hand) hsavers).trans hheld

/-! ### What a step leaves alone -/

theorem thread_askWorker (e : EntityPlugin) (id : Nat) (message : ReplyTo → EntityMsg)
    (waiting : Nat → Saver) (refused : Saver) :
    (e.askWorker id message waiting refused).thread = e.thread := by
  unfold EntityPlugin.askWorker
  cases hsent : e.trySend (message ⟨id, e.tickets⟩) with
  | none => rfl
  | some sent => exact (thread_trySend hsent).1

theorem thread_spawnStatePersist (e : EntityPlugin) (id : Nat) (bytes : Bytes) (skipped : Saver) :
    (e.spawnStatePersist id bytes skipped).thread = e.thread := by
  unfold EntityPlugin.spawnStatePersist
  split_ifs
  · rfl
  · rfl

theorem thread_advance {id : Nat} {succeeds : Bool} (h : advance store s id succeeds = some t) :
    t.plugin.thread = s.plugin.thread := by
  unfold advance at h
  split at h
  case h_1 | h_2 | h_9 | h_11 =>
    split_ifs at h
    · obtain rfl := Option.some.inj h
      rfl
    · obtain rfl := Option.some.inj h
      rfl
  case h_3 bytes _ | h_10 bytes _ =>
    obtain rfl := Option.some.inj h
    exact (thread_send s.plugin (.markSaved bytes)).1
  case h_4 | h_6 | h_8 =>
    obtain rfl := Option.some.inj h
    exact thread_askWorker _ _ _ _ _
  case h_5 =>
    obtain rfl := Option.some.inj h
    rfl
  case h_7 =>
    obtain rfl := Option.some.inj h
    exact thread_spawnStatePersist _ _ _ _
  all_goals cases h

/-- Only the worker changes its context. -/
theorem thread_entityStep {action : EntityAction} (h : entityStep store s action = some t)
    (haction : ∀ guest, action ≠ .work guest) : t.plugin.thread = s.plugin.thread := by
  cases action with
  | send =>
    obtain ⟨plugin, hsent, rfl⟩ := Option.map_eq_some_iff.mp h
    exact (thread_trySend hsent).1
  | work guest => exact absurd rfl (haction guest)
  | spawnStatePersist result id =>
    simp only [entityStep] at h
    split at h
    · obtain rfl := Option.some.inj h
      exact thread_spawnStatePersist _ _ _ _
    · cases h
  | forget result =>
    obtain rfl := Option.some.inj h
    rfl
  | save request id =>
    simp only [entityStep] at h
    split at h
    · obtain rfl := Option.some.inj h
      rfl
    · cases h
  | advance id succeeds => exact thread_advance h
  | timeout id =>
    simp only [entityStep, timeout] at h
    split at h
    case h_4 => cases h
    all_goals
      obtain rfl := Option.some.inj h
      rfl
  | terminate =>
    obtain rfl := Option.some.inj h
    exact (thread_send s.plugin .terminate).1

theorem savers_askWorker (e : EntityPlugin) (id : Nat) (message : ReplyTo → EntityMsg)
    (waiting : Nat → Saver) (refused : Saver) :
    ∃ saver, (e.askWorker id message waiting refused).savers = Function.update e.savers id saver := by
  unfold EntityPlugin.askWorker
  cases hsent : e.trySend (message ⟨id, e.tickets⟩) with
  | none => exact ⟨refused, rfl⟩
  | some sent =>
    refine ⟨waiting sent.tickets, ?_⟩
    simp only [EntityPlugin.setSaver, (thread_trySend hsent).2]

theorem savers_spawnStatePersist (e : EntityPlugin) (id : Nat) (bytes : Bytes) (skipped : Saver) :
    ∃ saver, (e.spawnStatePersist id bytes skipped).savers = Function.update e.savers id saver := by
  unfold EntityPlugin.spawnStatePersist
  split_ifs
  · exact ⟨skipped, rfl⟩
  · exact ⟨.loopAdd bytes, rfl⟩

theorem savers_advance {id : Nat} {succeeds : Bool} (h : advance store s id succeeds = some t) :
    ∃ saver, t.plugin.savers = Function.update s.plugin.savers id saver := by
  unfold advance at h
  split at h
  case h_1 | h_2 | h_9 | h_11 =>
    split_ifs at h
    · obtain rfl := Option.some.inj h
      exact ⟨_, rfl⟩
    · obtain rfl := Option.some.inj h
      exact ⟨_, rfl⟩
  case h_3 bytes _ | h_10 bytes _ =>
    obtain rfl := Option.some.inj h
    have hsavers := (thread_send s.plugin (.markSaved bytes)).2
    exact ⟨_, congrArg (fun savers ↦ Function.update savers id _) hsavers⟩
  case h_4 | h_6 | h_8 =>
    obtain rfl := Option.some.inj h
    exact savers_askWorker _ _ _ _ _
  case h_5 =>
    obtain rfl := Option.some.inj h
    exact ⟨_, rfl⟩
  case h_7 =>
    obtain rfl := Option.some.inj h
    exact savers_spawnStatePersist _ _ _ _
  all_goals cases h

/-- An answer changes no saver but the one that waits for it. -/
theorem savers_answer (e : EntityPlugin) (reply : Option WorkerReply) {id : Nat}
    (hsaver : (e.savers id).attentive = false) : (e.answer reply).savers id = e.savers id := by
  cases reply with
  | none => rfl
  | some reply =>
    cases reply with
    | dispatched result => rfl
    | pending reply pending =>
      by_cases hsame : id = reply.saver
      · subst hsame
        simp only [EntityPlugin.answer, EntityPlugin.setSaver, Function.update_self]
        exact Saver.receive_of_not_attentive hsaver
      · simp only [EntityPlugin.answer, EntityPlugin.setSaver, Function.update_of_ne hsame]

theorem savers_work {e worked : EntityPlugin} {guest : GuestCall} {id : Nat}
    (h : e.work guest = some worked) (hsaver : (e.savers id).attentive = false) :
    worked.savers id = e.savers id := by
  unfold EntityPlugin.work at h
  split at h
  · obtain rfl := Option.some.inj h
    rfl
  · rename_i message rest _ _ _
    obtain rfl := Option.some.inj h
    exact savers_answer
      { e with mailbox := rest, thread := (serve e.thread guest message).1 } _ hsaver
  · cases h

/-- Only its own step changes a saver that neither begins nor waits for an answer. -/
theorem savers_entityStep {action : EntityAction} {id : Nat}
    (h : entityStep store s action = some t) (hsaver : (s.plugin.savers id).attentive = false)
    (haction : ∀ succeeds, action ≠ .advance id succeeds) :
    t.plugin.savers id = s.plugin.savers id := by
  cases action with
  | send =>
    obtain ⟨plugin, hsent, rfl⟩ := Option.map_eq_some_iff.mp h
    exact congrFun (thread_trySend hsent).2 id
  | work guest =>
    obtain ⟨plugin, hwork, rfl⟩ := Option.map_eq_some_iff.mp h
    exact savers_work hwork hsaver
  | spawnStatePersist result other =>
    simp only [entityStep] at h
    split at h
    · rename_i bytes _ hidle
      obtain rfl := Option.some.inj h
      have hne : id ≠ other := by
        rintro rfl
        rw [hidle] at hsaver
        cases hsaver
      obtain ⟨saver, hsavers⟩ := savers_spawnStatePersist
        { s.plugin with results := s.plugin.results.eraseIdx result } other bytes .idle
      exact (congrFun hsavers id).trans (Function.update_of_ne hne _ _)
    · cases h
  | forget result =>
    obtain rfl := Option.some.inj h
    rfl
  | save request other =>
    simp only [entityStep] at h
    split at h
    · rename_i hidle
      obtain rfl := Option.some.inj h
      refine Function.update_of_ne ?_ _ _
      rintro rfl
      rw [hidle] at hsaver
      cases hsaver
    · cases h
  | advance other succeeds =>
    have hne : id ≠ other := by
      rintro rfl
      exact haction succeeds rfl
    obtain ⟨saver, hsavers⟩ := savers_advance h
    rw [hsavers, Function.update_of_ne hne]
  | timeout other =>
    simp only [entityStep, timeout] at h
    split at h
    case h_4 => cases h
    all_goals
      rename_i hwaiting
      obtain rfl := Option.some.inj h
      refine Function.update_of_ne ?_ _ _
      rintro rfl
      rw [hwaiting] at hsaver
      cases hsaver
  | terminate =>
    obtain rfl := Option.some.inj h
    exact congrFun (thread_send s.plugin .terminate).2 id

end MaRuntime.Plugin
