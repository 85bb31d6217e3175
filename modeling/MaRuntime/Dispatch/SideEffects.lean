import MaRuntime.Dispatch.Entities

/-!
# What is done after `on_message`

The result of an `on_message` carries a state and three lists of requests. The three paths on which
a message is delivered go on with it in different ways. The inbox carries out everything, up to the
first request that fails (`inboxSideEffects`). A message of another entity has the state persisted
and the entities created, and nothing deleted and no behaviour changed (`localSideEffects`). A
schedule has the state persisted, if the manifest writer is there (`scheduledSideEffects`).

`SameSideEffects` says that registry and manifest are the same after each of them and that none
leaves a request out. It holds exactly for results without requests (`sameSideEffects_iff`).

Main definitions: `inboxSideEffects`, `localSideEffects`, `scheduledSideEffects`, `SameSideEffects`.
Main results: `sameSideEffects_iff`, `delete_dropped`.

Scope. The requests of one result are carried out one after the other, each with what it spawns, and
nothing else happens meanwhile. The reply that reports a failed creation is left out.
-/

set_option autoImplicit false
set_option relaxedAutoImplicit false

namespace MaRuntime.Dispatch

open Manifest
open Plugin (CreateEntityRequest SetBehaviourRequest DispatchResult KindNode LoadAttempt LoadedPlugin
  loadWithFibonacciBackoff)

/-! ### Requests and answers -/

/-- What a result asks for. -/
inductive Request
  | state (bytes : Bytes)
  | create (req : CreateEntityRequest)
  | delete (target : String)
  | behaviour (req : SetBehaviourRequest)

/-- The requests of a result, in the order in which they are carried out. -/
def requestsOf (result : DispatchResult) : List Request :=
  result.pendingState.toList.map .state ++ result.createRequests.map .create ++
    result.deleteRequests.map .delete ++ result.behaviourRequests.map .behaviour

/-- What the calls made for a request answer: the attempts to load a plugin, whether its state was
added to IPFS, the state that a plugin to be replaced has saved, and why an update of the manifest
fails, if it does. -/
structure Answers (Cid : Type) where
  attempts : Nat → LoadAttempt
  stateAdded : Bool
  prepared : Except Unit (Option Cid)
  nodeFetched : Option String
  stateLinked : Option String
  nodeLinked : Option String

section Paths

variable {Cid : Type} [ToString Cid] (store : Store Cid) (cidOfText : String → Cid)

/-! ### The state -/

/-- `spawn_state_persist`, to the end of its loop. -/
def persistState (s : EntityStores Cid) (entity : EntityPlugin) (bytes : Bytes)
    (answers : Answers Cid) : EntityStores Cid :=
  { s with
    nodes := tryUpdate s.nodes entity.fragment answers.stateLinked fun node ↦
      node.withState (Plugin.stateCid store bytes) }

/-! ### Creations -/

/-- A plugin that was loaded enters the registry, and its node the manifest. -/
def finishCreatedEntity (s : EntityStores Cid) (req : CreateEntityRequest) (node : EntityNode Cid)
    (loaded : LoadedPlugin) (answers : Answers Cid) : EntityStores Cid :=
  { s with
    registry := s.registry.insert req.fragment (pluginOf req.fragment node)
    nodes :=
      if answers.nodeLinked.isNone then
        s.nodes.insert req.fragment (runningNode node (triggerSave store loaded answers.stateAdded))
      else s.nodes }

/-- A creation of `process_entity_create_requests`. -/
def createEntityFromRequest (s : EntityStores Cid) (req : CreateEntityRequest)
    (entity : EntityPlugin) (answers : Answers Cid) : Except String (EntityStores Cid) :=
  match s.kindRegistry.get req.kindProtocol with
  | none => .ok s
  | some kindNode =>
    match requestedBehaviour req.behaviourCid with
    | .error reason => .error reason
    | .ok behaviour =>
      let node := createdNode cidOfText req behaviour entity
      match Plugin.load store req.fragment node kindNode (answers.attempts 0) with
      | .error _ => .ok s
      | .ok loaded =>
        match loaded.lifecycle with
        | .running => .ok (finishCreatedEntity store s req node loaded answers)
        | .error => .ok s

/-- `handle_create_request`: a fragment that is taken is left alone. -/
def handleCreateRequest (s : EntityStores Cid) (req : CreateEntityRequest) (entity : EntityPlugin)
    (answers : Answers Cid) : EntityStores Cid :=
  if (s.registry.get req.fragment).isSome then s
  else
    match s.kindRegistry.get req.kindProtocol, requestedBehaviour req.behaviourCid with
    | some kindNode, .ok behaviour =>
      let node := createdNode cidOfText req behaviour entity
      match loadWithFibonacciBackoff store req.fragment node kindNode answers.attempts with
      | .error _ => s
      | .ok loaded =>
        match loaded.lifecycle with
        | .running => finishCreatedEntity store s req node loaded answers
        | .error => s
    | _, _ => s

/-! ### Behaviours -/

/-- The state that the current plugin has saved is linked before it is replaced. -/
def saveBeforeReload (s : EntityStores Cid) (fragment : String) (answers : Answers Cid) :
    Except String (EntityStores Cid) :=
  match s.registry.get fragment, answers.prepared with
  | some _, .ok (some cid) =>
    (updateEntityNode s.nodes fragment answers.stateLinked fun node ↦ node.withState cid).map
      fun nodes ↦ { s with nodes := nodes }
  | _, _ => .ok s

/-- `load_entity_node_for_update`. -/
def loadEntityNodeForUpdate (s : EntityStores Cid) (fragment : String) (behaviour : Option String)
    (answers : Answers Cid) : Except String (EntityNode Cid) :=
  match answers.nodeFetched, s.nodes.get fragment with
  | some reason, _ => .error reason
  | none, none => .error ("entity '" ++ fragment ++ "' is not in the manifest")
  | none, some node => .ok { node with behaviour := behaviour.map fun cid ↦ ⟨cidOfText cid⟩ }

/-- The replacement of a plugin, from the node that has the new behaviour. -/
def replacePlugin (s : EntityStores Cid) (fragment : String) (behaviour : Option String)
    (node : EntityNode Cid) (answers : Answers Cid) : Except String (EntityStores Cid) :=
  match s.kindRegistry.get node.kind with
  | none => .error ("kind '" ++ node.kind ++ "' is not in registry")
  | some kindNode => do
    let loaded ← loadWithFibonacciBackoff store fragment node kindNode answers.attempts
    let nodes ← updateEntityNode s.nodes fragment answers.nodeLinked fun node ↦
      node.withBehaviour (behaviour.map cidOfText)
    let nodes := match triggerSave store loaded answers.stateAdded with
      | some cid => tryUpdate nodes fragment answers.stateLinked fun node ↦ node.withState cid
      | none => nodes
    .ok { s with registry := s.registry.insert fragment (pluginOf fragment node), nodes := nodes }

/-- `apply_behaviour_request`, with the stores as it leaves them and the failure that it
ends with. -/
def applyBehaviourRequest (s : EntityStores Cid) (req : SetBehaviourRequest)
    (answers : Answers Cid) : EntityStores Cid × Except String Unit :=
  match requestedBehaviour req.behaviourCid with
  | .error reason => (s, .error reason)
  | .ok behaviour =>
    match saveBeforeReload s req.fragment answers with
    | .error reason => (s, .error reason)
    | .ok saved =>
      let replaced := do
        let node ← loadEntityNodeForUpdate cidOfText saved req.fragment behaviour answers
        let node :=
          if (saved.registry.get req.fragment).isSome then { node with initialised := true }
          else node
        replacePlugin store cidOfText saved req.fragment behaviour node answers
      match replaced with
      | .error reason => (saved, .error reason)
      | .ok replaced => (replaced, .ok ())

/-! ### The paths -/

/-- What the inbox does for a request. -/
def carryOut (s : EntityStores Cid) (entity : EntityPlugin) (answers : Answers Cid) :
    Request → EntityStores Cid × Except String Unit
  | .state bytes => (persistState store s entity bytes answers, .ok ())
  | .create req =>
    match createEntityFromRequest store cidOfText s req entity answers with
    | .ok s => (s, .ok ())
    | .error reason => (s, .error reason)
  | .delete target => ({ s with registry := deleteEntity s.registry entity target }, .ok ())
  | .behaviour req => applyBehaviourRequest store cidOfText s req answers

/-- What was made of the stores, and the requests that were taken up. -/
structure SideEffects (Cid : Type) where
  stores : EntityStores Cid
  taken : List Request

/-- `dispatch_entity_message` after the call: every request, up to the first that fails. -/
def inboxSideEffects (entity : EntityPlugin) :
    EntityStores Cid → List (Request × Answers Cid) → SideEffects Cid
  | s, [] => ⟨s, []⟩
  | s, (request, answers) :: rest =>
    match carryOut store cidOfText s entity answers request with
    | (s, .ok ()) =>
      let after := inboxSideEffects entity s rest
      ⟨after.stores, request :: after.taken⟩
    | (s, .error _) => ⟨s, [request]⟩

/-- `dispatch_local_plugin_envelope` after the call: the state and the creations, the latter if the
caller provides for them. -/
def localSideEffects (sideEffects : Bool) (entity : EntityPlugin) :
    EntityStores Cid → List (Request × Answers Cid) → SideEffects Cid
  | s, [] => ⟨s, []⟩
  | s, (.state bytes, answers) :: rest =>
    let after :=
      localSideEffects sideEffects entity (persistState store s entity bytes answers) rest
    ⟨after.stores, .state bytes :: after.taken⟩
  | s, (.create req, answers) :: rest =>
    if sideEffects then
      let after := localSideEffects sideEffects entity
        (handleCreateRequest store cidOfText s req entity answers) rest
      ⟨after.stores, .create req :: after.taken⟩
    else localSideEffects sideEffects entity s rest
  | s, (.delete _, _) :: rest => localSideEffects sideEffects entity s rest
  | s, (.behaviour _, _) :: rest => localSideEffects sideEffects entity s rest

/-- `dispatch_scheduled` after the call: the state, if there is a manifest writer. -/
def scheduledSideEffects (manifestWriter : Bool) (entity : EntityPlugin) :
    EntityStores Cid → List (Request × Answers Cid) → SideEffects Cid
  | s, [] => ⟨s, []⟩
  | s, (.state bytes, answers) :: rest =>
    if manifestWriter then
      let after :=
        scheduledSideEffects manifestWriter entity (persistState store s entity bytes answers) rest
      ⟨after.stores, .state bytes :: after.taken⟩
    else ⟨s, []⟩
  | s, (.create _, _) :: rest => scheduledSideEffects manifestWriter entity s rest
  | s, (.delete _, _) :: rest => scheduledSideEffects manifestWriter entity s rest
  | s, (.behaviour _, _) :: rest => scheduledSideEffects manifestWriter entity s rest

/-! ### The comparison -/

/-- The requests of a result, each with what its calls answer. -/
def answeredRequests (result : DispatchResult) (answers : Nat → Answers Cid) :
    List (Request × Answers Cid) :=
  (requestsOf result).mapIdx fun index request ↦ (request, answers index)

/-- After the same result, registry and manifest are the same on every path, and no path leaves a
request out. -/
structure SameSideEffects (s : EntityStores Cid) (entity : EntityPlugin) (manifestWriter : Bool)
    (result : DispatchResult) (answers : Nat → Answers Cid) : Prop where
  envelope :
    (localSideEffects store cidOfText true entity s (answeredRequests result answers)).stores =
      (inboxSideEffects store cidOfText entity s (answeredRequests result answers)).stores
  schedule :
    (scheduledSideEffects store manifestWriter entity s (answeredRequests result answers)).stores =
      (inboxSideEffects store cidOfText entity s (answeredRequests result answers)).stores
  inboxTakes : (inboxSideEffects store cidOfText entity s (answeredRequests result answers)).taken =
    requestsOf result
  envelopeTakes :
    (localSideEffects store cidOfText true entity s (answeredRequests result answers)).taken =
      requestsOf result
  scheduleTakes :
    (scheduledSideEffects store manifestWriter entity s (answeredRequests result answers)).taken =
      requestsOf result

variable {store cidOfText} {s : EntityStores Cid} {entity : EntityPlugin} {manifestWriter : Bool}
  {result : DispatchResult} {answers : Nat → Answers Cid}

omit [ToString Cid] in
/-- A schedule takes up states alone, and none without a manifest writer. -/
theorem taken_scheduledSideEffects {jobs : List (Request × Answers Cid)} {request : Request}
    (h : request ∈ (scheduledSideEffects store manifestWriter entity s jobs).taken) :
    manifestWriter = true ∧ ∃ bytes, request = .state bytes := by
  induction jobs generalizing s with
  | nil => cases h
  | cons job rest ih =>
    obtain ⟨head, headAnswers⟩ := job
    cases head with
    | state bytes =>
      unfold scheduledSideEffects at h
      split_ifs at h with hwriter
      · obtain rfl | htail := List.mem_cons.mp h
        · exact ⟨hwriter, bytes, rfl⟩
        · exact ih htail
      · cases h
    | create req => exact ih h
    | delete target => exact ih h
    | behaviour req => exact ih h

/-- The paths do the same with a result if and only if it asks for no entity to be created
or deleted and for no other behaviour, and there is a manifest writer for the state, if it
carries one. -/
theorem sameSideEffects_iff :
    SameSideEffects store cidOfText s entity manifestWriter result answers ↔
      result.createRequests = [] ∧ result.deleteRequests = [] ∧ result.behaviourRequests = [] ∧
        (result.pendingState.isSome = true → manifestWriter = true) := by
  constructor
  · intro h
    have hstate : ∀ request ∈ requestsOf result,
        manifestWriter = true ∧ ∃ bytes, request = .state bytes := by
      intro request hrequest
      rw [← h.scheduleTakes] at hrequest
      exact taken_scheduledSideEffects hrequest
    refine ⟨?_, ?_, ?_, ?_⟩
    · refine List.eq_nil_iff_forall_not_mem.mpr fun req hreq ↦ ?_
      obtain ⟨-, bytes, heq⟩ := hstate (.create req) (by simp [requestsOf, hreq])
      cases heq
    · refine List.eq_nil_iff_forall_not_mem.mpr fun target htarget ↦ ?_
      obtain ⟨-, bytes, heq⟩ := hstate (.delete target) (by simp [requestsOf, htarget])
      cases heq
    · refine List.eq_nil_iff_forall_not_mem.mpr fun req hreq ↦ ?_
      obtain ⟨-, bytes, heq⟩ := hstate (.behaviour req) (by simp [requestsOf, hreq])
      cases heq
    · intro hsome
      obtain ⟨bytes, hbytes⟩ := Option.isSome_iff_exists.mp hsome
      exact (hstate (.state bytes) (by simp [requestsOf, hbytes])).1
  · rintro ⟨hcreate, hdelete, hbehaviour, hwriter⟩
    have hrequests : requestsOf result = result.pendingState.toList.map .state := by
      simp [requestsOf, hcreate, hdelete, hbehaviour]
    have hjobs : answeredRequests result answers =
        (result.pendingState.toList.map .state).mapIdx fun index request ↦
          (request, answers index) := by
      rw [answeredRequests, hrequests]
    cases hpending : result.pendingState with
    | none =>
      rw [hpending] at hjobs hrequests
      constructor
      all_goals
        rw [hjobs]
        first | rfl | exact hrequests.symm
    | some bytes =>
      rw [hpending] at hjobs hrequests hwriter
      obtain rfl := hwriter rfl
      constructor
      all_goals
        rw [hjobs]
        first | rfl | exact hrequests.symm

end Paths

/-! ### An entity that ends itself -/

/-- A runtime with one entity, which is in the manifest as well. -/
def oneEntity : EntityStores ContentCid where
  registry := ⟨[("guest", ⟨"guest", "open", none, false⟩)]⟩
  nodes := ⟨[("guest", roomNode)]⟩
  kindRegistry := .empty

/-- The result of a call in which `guest` ends itself. -/
def endsItself : DispatchResult where
  output := []
  pendingState := none
  createRequests := []
  deleteRequests := ["guest"]
  behaviourRequests := []

/-- Answers of which none is needed. -/
def noAnswers : Answers ContentCid where
  attempts _ := Plugin.attemptWith true true
  stateAdded := true
  prepared := .ok none
  nodeFetched := none
  stateLinked := none
  nodeLinked := none

/-- An entity that ends itself is gone if the message was from the inbox, and is still there if
another entity or a schedule sent it. -/
theorem delete_dropped :
    (inboxSideEffects contentStore textCid ⟨"guest", "open", none, false⟩ oneEntity
        (answeredRequests endsItself fun _ ↦ noAnswers)).stores.registry.get "guest" = none ∧
      ((localSideEffects contentStore textCid true ⟨"guest", "open", none, false⟩ oneEntity
        (answeredRequests endsItself fun _ ↦ noAnswers)).stores.registry.get "guest").isSome = true ∧
      ¬SameSideEffects contentStore textCid oneEntity ⟨"guest", "open", none, false⟩ true
        endsItself fun _ ↦ noAnswers := by
  refine ⟨rfl, rfl, fun h ↦ ?_⟩
  have htaken := h.envelopeTakes
  cases htaken

end MaRuntime.Dispatch
