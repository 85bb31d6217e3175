import MaRuntime.Dispatch.SideEffects
import MaRuntime.Library.Runs

/-!
# Concurrent requests for entities

A request for an entity looks up its kind, loads the plugin, registers it and has a task of its own
put the node into the manifest. Requests come from messages of the inbox and from envelopes of other
entities (`CreatePath`), run concurrently, and may be given up before they register.

An envelope's request waits for the creation gate and ends if its fragment is taken; its plugin is
registered only if the fragment is still free (`insertIfAbsent`). A request of the inbox does
neither, so it replaces an entity that is live. `CreatesSafely` says that none is replaced and that
the manifest has the node of the one request that was registered. It holds along a run if and only
if each request of the inbox that registers a plugin finds its fragment free (`createsSafely_iff`).

A request that runs alone does what is done after an `on_message`
(`execute_createEntityFromRequest`, `execute_handleCreateRequest`), and the gate keeps the requests
of envelopes apart (`envelope_request_unique`).

Main definitions: `creationStep`, `CreatesSafely`, `FragmentIsFree`.
Main results: `createsSafely_iff`, `live_entity_replaced`, `envelope_request_unique`.

Scope. Kinds do not change, and what a load, a call of Kubo or the manifest writer answers is part
of the actions. The replies that report failures are left out.
-/

set_option autoImplicit false
set_option relaxedAutoImplicit false

namespace MaRuntime.Dispatch

open Runs Manifest
open Plugin (CreateEntityRequest KindNode LoadAttempt LoadedPlugin loadWithFibonacciBackoff)

/-! ### Requests in flight -/

/-- The paths on which a request for an entity arrives. -/
inductive CreatePath
  | inbox
  | envelope
deriving DecidableEq

/-- How far a request has come. -/
inductive CreatePhase (Cid : Type)
  | waiting (req : CreateEntityRequest) (caller : EntityPlugin)
  | loading (path : CreatePath) (req : CreateEntityRequest) (node : EntityNode Cid)
    (kindNode : KindNode Cid)
  | loaded (path : CreatePath) (req : CreateEntityRequest) (node : EntityNode Cid)
    (loaded : LoadedPlugin)

/-- The task that puts the node of a registered plugin into the manifest has not ended, or has done
so, or has failed. -/
inductive Insertion
  | pending
  | linked
  | failed
deriving DecidableEq

/-- A plugin that was registered at a request, with the node to be put into the manifest. -/
structure Registration (Cid : Type) where
  fragment : String
  node : EntityNode Cid
  insertion : Insertion

/-- A registration whose node was put into the manifest or failed to be. -/
def Registration.ended {Cid : Type} (registration : Registration Cid) (succeeds : Bool) :
    Registration Cid :=
  { registration with insertion := if succeeds then .linked else .failed }

/-- The stores, the request that holds the gate, the requests in flight, and every registration. -/
structure CreationState (Cid : Type) where
  stores : EntityStores Cid
  gate : Option Nat
  requests : KeyedMap Nat (CreatePhase Cid)
  registrations : KeyedMap Nat (Registration Cid)

/-- The steps of the requests: one arrives, passes the gate, loads its plugin, registers it under a
new number, or is given up; and a node is put into the manifest or fails to be. -/
inductive CreationAction
  | create (task : Nat) (path : CreatePath) (caller : EntityPlugin) (req : CreateEntityRequest)
  | enter (task : Nat)
  | load (task : Nat) (attempts : Nat → LoadAttempt)
  | register (task : Nat) (stateAdded : Bool) (number : Nat)
  | insertEntity (number : Nat) (succeeds : Bool)
  | giveUp (task : Nat)

section Machine

variable {Cid : Type}

/-- Whether a request holds the gate in a phase. -/
def CreatePhase.holdsGate : CreatePhase Cid → Bool
  | .waiting _ _ => false
  | .loading path _ _ _ => path = .envelope
  | .loaded path _ _ _ => path = .envelope

/-- A request comes to a phase. -/
def CreationState.advance (s : CreationState Cid) (task : Nat) (phase : CreatePhase Cid) :
    CreationState Cid :=
  { s with
    gate := if phase.holdsGate then some task else s.gate
    requests := s.requests.insert task phase }

/-- A request ends, and the gate is open again if it held it. -/
def CreationState.finish (s : CreationState Cid) (task : Nat) : CreationState Cid :=
  { s with
    gate := if s.gate = some task then none else s.gate
    requests := s.requests.remove task }

/-- `insert_if_absent`, with whether it inserted. -/
def insertIfAbsent (registry : KeyedMap String EntityPlugin) (fragment : String)
    (plugin : EntityPlugin) : KeyedMap String EntityPlugin × Bool :=
  match registry.get fragment with
  | none => (registry.insert fragment plugin, true)
  | some _ => (registry, false)

/-- How a path registers a plugin. -/
def registerPlugin (path : CreatePath) (registry : KeyedMap String EntityPlugin)
    (fragment : String) (plugin : EntityPlugin) : KeyedMap String EntityPlugin × Bool :=
  match path with
  | .inbox => (registry.insert fragment plugin, true)
  | .envelope => insertIfAbsent registry fragment plugin

/-- A registration, which ends the request, and whose node has still to be put into the manifest. -/
def CreationState.registered (s : CreationState Cid) (task number : Nat)
    (registry : KeyedMap String EntityPlugin) (fragment : String) (node : EntityNode Cid) :
    CreationState Cid :=
  { s.finish task with
    stores := { s.stores with registry := registry }
    registrations := s.registrations.insert number ⟨fragment, node, .pending⟩ }

variable [ToString Cid] (store : Store Cid) (cidOfText : String → Cid)

/-- A request that has passed the checks of its path looks up its kind and makes the node. -/
def CreationState.begin (s : CreationState Cid) (task : Nat) (path : CreatePath)
    (req : CreateEntityRequest) (caller : EntityPlugin) : CreationState Cid :=
  match s.stores.kindRegistry.get req.kindProtocol, requestedBehaviour req.behaviourCid with
  | some kindNode, .ok behaviour =>
    s.advance task (.loading path req (createdNode cidOfText req behaviour caller) kindNode)
  | _, _ => s.finish task

/-- How a path loads a plugin. -/
def loadFor (path : CreatePath) (req : CreateEntityRequest) (node : EntityNode Cid)
    (kindNode : KindNode Cid) (attempts : Nat → LoadAttempt) : Except String LoadedPlugin :=
  match path with
  | .inbox => Plugin.load store req.fragment node kindNode (attempts 0)
  | .envelope => loadWithFibonacciBackoff store req.fragment node kindNode attempts

/-- One step of the requests for entities. -/
def creationStep (s : CreationState Cid) : CreationAction → Option (CreationState Cid)
  | .create task path caller req =>
    if (s.requests.get task).isSome then none
    else
      match path with
      | .inbox => some (s.begin cidOfText task .inbox req caller)
      | .envelope => some (s.advance task (.waiting req caller))
  | .enter task =>
    match s.gate, s.requests.get task with
    | none, some (.waiting req caller) =>
      if (s.stores.registry.get req.fragment).isSome then some (s.finish task)
      else some (s.begin cidOfText task .envelope req caller)
    | _, _ => none
  | .load task attempts =>
    match s.requests.get task with
    | some (.loading path req node kindNode) =>
      match loadFor store path req node kindNode attempts with
      | .error _ => some (s.finish task)
      | .ok loaded =>
        match loaded.lifecycle with
        | .running => some (s.advance task (.loaded path req node loaded))
        | .error => some (s.finish task)
    | _ => none
  | .register task stateAdded number =>
    match s.requests.get task, s.registrations.get number with
    | some (.loaded path req node loaded), none =>
      let saved := triggerSave store loaded stateAdded
      match registerPlugin path s.stores.registry req.fragment (pluginOf req.fragment node) with
      | (registry, true) =>
        some (s.registered task number registry req.fragment (runningNode node saved))
      | (_, false) => some (s.finish task)
    | _, _ => none
  | .insertEntity number succeeds =>
    match s.registrations.get number with
    | some ⟨fragment, node, .pending⟩ =>
      if succeeds then
        some
          { s with
            stores := { s.stores with nodes := s.stores.nodes.insert fragment node }
            registrations := s.registrations.insert number ⟨fragment, node, .linked⟩ }
      else
        some
          { s with registrations := s.registrations.insert number ⟨fragment, node, .failed⟩ }
    | _ => none
  | .giveUp task => if (s.requests.get task).isSome then some (s.finish task) else none

/-- The state before the first request. -/
def CreationState.start (stores : EntityStores Cid) : CreationState Cid :=
  ⟨stores, none, .empty, .empty⟩

/-! ### A request alone -/

section Alone

variable {store cidOfText} {s : EntityStores Cid} {req : CreateEntityRequest}
  {entity : EntityPlugin}
  {answers : Answers Cid} {kindNode : KindNode Cid} {behaviour : Option String}
  {loaded : LoadedPlugin}

/-- The last two steps of a request whose plugin is loaded and is registered. -/
theorem execute_registration {t : CreationState Cid} {path : CreatePath} {node : EntityNode Cid}
    (hloaded : t.requests.get 0 = some (.loaded path req node loaded))
    (hnew : t.registrations.get 0 = none)
    (hregister : registerPlugin path t.stores.registry req.fragment (pluginOf req.fragment node) =
      (t.stores.registry.insert req.fragment (pluginOf req.fragment node), true)) :
    (execute (creationStep store cidOfText) t
        [.register 0 answers.stateAdded 0, .insertEntity 0 answers.nodeLinked.isNone]).map
        CreationState.stores =
      some (finishCreatedEntity store t.stores req node loaded answers) := by
  have hregistered : creationStep store cidOfText t (.register 0 answers.stateAdded 0) =
      some (t.registered 0 0 (t.stores.registry.insert req.fragment (pluginOf req.fragment node))
        req.fragment (runningNode node (triggerSave store loaded answers.stateAdded))) := by
    simp only [creationStep, hloaded, hnew, hregister]
  rw [execute, hregistered, Option.bind_some]
  cases hlinked : answers.nodeLinked with
  | none => simp [execute, creationStep, CreationState.registered, finishCreatedEntity, hlinked]
  | some reason =>
    simp [execute, creationStep, CreationState.registered, CreationState.finish, finishCreatedEntity,
      hlinked]

/-- A request of the inbox whose plugin runs, and which runs alone, does what
`createEntityFromRequest` does. -/
theorem execute_createEntityFromRequest
    (hkind : s.kindRegistry.get req.kindProtocol = some kindNode)
    (hbehaviour : requestedBehaviour req.behaviourCid = .ok behaviour)
    (hload : Plugin.load store req.fragment (createdNode cidOfText req behaviour entity) kindNode
      (answers.attempts 0) = .ok loaded)
    (hrunning : loaded.lifecycle = .running) :
    (execute (creationStep store cidOfText) (.start s)
        [.create 0 .inbox entity req, .load 0 answers.attempts, .register 0 answers.stateAdded 0,
          .insertEntity 0 answers.nodeLinked.isNone]).map CreationState.stores =
      (createEntityFromRequest store cidOfText s req entity answers).toOption := by
  let node := createdNode cidOfText req behaviour entity
  have hcreate : creationStep store cidOfText (.start s) (.create 0 .inbox entity req) =
      some ((CreationState.start s).advance 0 (.loading .inbox req node kindNode)) := by
    simp [creationStep, CreationState.start, CreationState.begin, hkind, hbehaviour, node]
  have hloaded : creationStep store cidOfText
      ((CreationState.start s).advance 0 (.loading .inbox req node kindNode))
        (.load 0 answers.attempts) =
      some (((CreationState.start s).advance 0 (.loading .inbox req node kindNode)).advance 0
        (.loaded .inbox req node loaded)) := by
    simp [creationStep, CreationState.advance, loadFor, hload, hrunning, node]
  have hcreated : createEntityFromRequest store cidOfText s req entity answers =
      .ok (finishCreatedEntity store s req node loaded answers) := by
    simp only [createEntityFromRequest, hkind, hbehaviour, hload, hrunning, node]
  rw [execute, hcreate, Option.bind_some, execute, hloaded, Option.bind_some, hcreated]
  exact execute_registration (KeyedMap.get_insert_self ..) rfl rfl

/-- A request of an envelope for a free fragment whose plugin runs, and which runs alone, does what
`handleCreateRequest` does. -/
theorem execute_handleCreateRequest (hfree : s.registry.get req.fragment = none)
    (hkind : s.kindRegistry.get req.kindProtocol = some kindNode)
    (hbehaviour : requestedBehaviour req.behaviourCid = .ok behaviour)
    (hload : loadWithFibonacciBackoff store req.fragment (createdNode cidOfText req behaviour entity)
      kindNode answers.attempts = .ok loaded)
    (hrunning : loaded.lifecycle = .running) :
    (execute (creationStep store cidOfText) (.start s)
        [.create 0 .envelope entity req, .enter 0, .load 0 answers.attempts,
          .register 0 answers.stateAdded 0, .insertEntity 0 answers.nodeLinked.isNone]).map
        CreationState.stores =
      some (handleCreateRequest store cidOfText s req entity answers) := by
  let node := createdNode cidOfText req behaviour entity
  let waiting := (CreationState.start s).advance 0 (.waiting req entity)
  have hcreate : creationStep store cidOfText (.start s) (.create 0 .envelope entity req) =
      some waiting := by
    simp [creationStep, CreationState.start, waiting]
  have henter : creationStep store cidOfText waiting (.enter 0) =
      some (waiting.advance 0 (.loading .envelope req node kindNode)) := by
    simp [creationStep, CreationState.start, CreationState.advance, CreatePhase.holdsGate,
      CreationState.begin, hfree, hkind, hbehaviour, waiting, node]
  have hloaded : creationStep store cidOfText
      (waiting.advance 0 (.loading .envelope req node kindNode)) (.load 0 answers.attempts) =
      some ((waiting.advance 0 (.loading .envelope req node kindNode)).advance 0
        (.loaded .envelope req node loaded)) := by
    simp [creationStep, CreationState.advance, loadFor, hload, hrunning, node]
  have hcreated : handleCreateRequest store cidOfText s req entity answers =
      finishCreatedEntity store s req node loaded answers := by
    simp [handleCreateRequest, hfree, hkind, hbehaviour, hload, hrunning, node]
  rw [execute, hcreate, Option.bind_some, execute, henter, Option.bind_some, execute, hloaded,
    Option.bind_some, hcreated]
  refine execute_registration (KeyedMap.get_insert_self ..) rfl ?_
  show insertIfAbsent s.registry req.fragment (pluginOf req.fragment node) = _
  rw [insertIfAbsent, hfree]
  rfl

end Alone

/-! ### The property and the condition -/

/-- Only free fragments were given plugins, each once; the plugin is live and its node, when it was
put into the manifest, is linked; every other fragment has what it had at the start. -/
structure CreatesSafely (start : EntityStores Cid) (s : CreationState Cid) : Prop where
  wasFree : ∀ number registration, s.registrations.get number = some registration →
    start.registry.get registration.fragment = none
  once : ∀ number registration other second, s.registrations.get number = some registration →
    s.registrations.get other = some second → registration.fragment = second.fragment →
      number = other
  live : ∀ number registration, s.registrations.get number = some registration →
    s.stores.registry.get registration.fragment =
      some (pluginOf registration.fragment registration.node)
  node : ∀ number registration, s.registrations.get number = some registration →
    s.stores.nodes.get registration.fragment =
      if registration.insertion = .linked then some registration.node
      else start.nodes.get registration.fragment
  others : ∀ fragment, (∀ number registration, s.registrations.get number = some registration →
      registration.fragment ≠ fragment) →
    s.stores.registry.get fragment = start.registry.get fragment ∧
      s.stores.nodes.get fragment = start.nodes.get fragment

/-- A request of the inbox registers a plugin under a free fragment only. -/
def FragmentIsFree (s : CreationState Cid) : CreationAction → Prop
  | .register task _ _ => ∀ req node loaded,
      s.requests.get task = some (.loaded .inbox req node loaded) →
        s.stores.registry.get req.fragment = none
  | _ => True

/-! ### Steps -/

variable {store : Store Cid} {cidOfText : String → Cid} {start : EntityStores Cid}
  {s t : CreationState Cid} {action : CreationAction}

/-- A step by which a request ends or comes to a phase. For a phase in which it holds the gate it
finds the gate open, or holds it already. -/
inductive Proceeds (s : CreationState Cid) : CreationState Cid → Prop
  | finish (task : Nat) : Proceeds s (s.finish task)
  | advance (task : Nat) (phase : CreatePhase Cid)
    (hgate : phase.holdsGate = true →
      s.gate = none ∨ ∃ before, s.requests.get task = some before ∧ before.holdsGate = true) :
    Proceeds s (s.advance task phase)

/-- A step registers a plugin that is loaded, of a request of an envelope under a free fragment. -/
structure Registers (s : CreationState Cid) (action : CreationAction) (t : CreationState Cid)
    (path : CreatePath) (number : Nat) (registration : Registration Cid) : Prop where
  isLoaded : ∃ task stateAdded req node loaded, action = .register task stateAdded number ∧
    s.requests.get task = some (.loaded path req node loaded) ∧
      req.fragment = registration.fragment
  isFree : path = .envelope → s.stores.registry.get registration.fragment = none
  isNew : s.registrations.get number = none
  isPending : registration.insertion = .pending
  registry : t.stores.registry = s.stores.registry.insert registration.fragment
    (pluginOf registration.fragment registration.node)
  nodes : t.stores.nodes = s.stores.nodes
  registrations : t.registrations = s.registrations.insert number registration
  finishes : ∃ task, t.gate = (s.finish task).gate ∧ t.requests = (s.finish task).requests

/-- A step puts the node of a registration into the manifest, or fails to. -/
structure Inserts (s : CreationState Cid) (action : CreationAction) (t : CreationState Cid)
    (number : Nat) (registration : Registration Cid) (succeeds : Bool) : Prop where
  isInsertion : action = .insertEntity number succeeds
  known : s.registrations.get number = some registration
  isPending : registration.insertion = .pending
  registry : t.stores.registry = s.stores.registry
  nodes : t.stores.nodes =
    if succeeds then s.stores.nodes.insert registration.fragment registration.node
    else s.stores.nodes
  registrations : t.registrations = s.registrations.insert number (registration.ended succeeds)
  gate : t.gate = s.gate
  requests : t.requests = s.requests

omit [ToString Cid] in
theorem Proceeds.stores (h : Proceeds s t) : t.stores = s.stores := by
  cases h with
  | finish task => rfl
  | advance task phase hgate => rfl

omit [ToString Cid] in
theorem Proceeds.registrations (h : Proceeds s t) : t.registrations = s.registrations := by
  cases h with
  | finish task => rfl
  | advance task phase hgate => rfl

omit [ToString Cid] in
/-- A request of an envelope begins where the gate is open. -/
theorem proceeds_begin {task : Nat} {path : CreatePath} {req : CreateEntityRequest}
    {caller : EntityPlugin} (hgate : path = .envelope → s.gate = none) :
    Proceeds s (s.begin cidOfText task path req caller) := by
  unfold CreationState.begin
  split
  · exact .advance task _ fun hholds ↦ .inl (hgate (of_decide_eq_true hholds))
  · exact .finish task

/-- What is registered for an envelope was not there. -/
theorem registerPlugin_true {path : CreatePath} {registry after : KeyedMap String EntityPlugin}
    {fragment : String} {plugin : EntityPlugin}
    (h : registerPlugin path registry fragment plugin = (after, true)) :
    after = registry.insert fragment plugin ∧
      (path = .envelope → registry.get fragment = none) := by
  cases path with
  | inbox => exact ⟨(congrArg Prod.fst h).symm, fun hpath ↦ by cases hpath⟩
  | envelope =>
    unfold registerPlugin insertIfAbsent at h
    cases hget : registry.get fragment with
    | none =>
      rw [hget] at h
      exact ⟨(congrArg Prod.fst h).symm, fun _ ↦ rfl⟩
    | some found =>
      rw [hget] at h
      cases congrArg Prod.snd h

omit [ToString Cid] in
/-- A registration whose path finds the fragment in order is one that `Registers` describes. -/
theorem registers_registered {task number : Nat} {stateAdded : Bool} {path : CreatePath}
    {req : CreateEntityRequest} {node : EntityNode Cid} {loaded : LoadedPlugin}
    {registry : KeyedMap String EntityPlugin}
    (hloaded : s.requests.get task = some (.loaded path req node loaded))
    (hnew : s.registrations.get number = none)
    (hregister : registerPlugin path s.stores.registry req.fragment (pluginOf req.fragment node) =
      (registry, true)) :
    Registers s (.register task stateAdded number)
      (s.registered task number registry req.fragment
        (runningNode node (triggerSave store loaded stateAdded)))
      path number
      ⟨req.fragment, runningNode node (triggerSave store loaded stateAdded), .pending⟩ := by
  obtain ⟨hregistry, hfree⟩ := registerPlugin_true hregister
  exact
    { isLoaded := ⟨task, stateAdded, req, node, loaded, rfl, hloaded, rfl⟩
      isFree := hfree
      isNew := hnew
      isPending := rfl
      registry := hregistry
      nodes := rfl
      registrations := rfl
      finishes := ⟨task, rfl, rfl⟩ }

/-- What a step does. -/
theorem creationStep_cases (h : creationStep store cidOfText s action = some t) :
    Proceeds s t ∨ (∃ path number registration, Registers s action t path number registration) ∨
      ∃ number registration succeeds, Inserts s action t number registration succeeds := by
  cases action with
  | create task path caller req =>
    left
    simp only [creationStep] at h
    split_ifs at h
    cases path with
    | inbox =>
      obtain rfl := Option.some.inj h
      exact proceeds_begin fun hpath ↦ by cases hpath
    | envelope =>
      obtain rfl := Option.some.inj h
      exact .advance task _ fun hholds ↦ by cases hholds
  | enter task =>
    left
    simp only [creationStep] at h
    split at h
    · rename_i hopen _
      split_ifs at h
      · obtain rfl := Option.some.inj h
        exact .finish task
      · obtain rfl := Option.some.inj h
        exact proceeds_begin fun _ ↦ hopen
    · cases h
  | load task attempts =>
    left
    simp only [creationStep] at h
    split at h
    · rename_i hloading
      split at h
      · obtain rfl := Option.some.inj h
        exact .finish task
      · split at h
        · obtain rfl := Option.some.inj h
          exact .advance task _ fun hholds ↦ .inr ⟨_, hloading, hholds⟩
        · obtain rfl := Option.some.inj h
          exact .finish task
    · cases h
  | register task stateAdded number =>
    simp only [creationStep] at h
    split at h
    · rename_i path req node loaded hloaded hnumber
      split at h
      · rename_i registry hregister
        obtain rfl := Option.some.inj h
        right
        left
        exact ⟨path, number, _, registers_registered hloaded hnumber hregister⟩
      · obtain rfl := Option.some.inj h
        exact .inl (.finish task)
    · cases h
  | insertEntity number succeeds =>
    right
    right
    simp only [creationStep] at h
    split at h
    · rename_i fragment node hknown
      refine ⟨number, ⟨fragment, node, .pending⟩, succeeds, ?_⟩
      cases succeeds with
      | true =>
        obtain rfl := Option.some.inj h
        exact ⟨rfl, hknown, rfl, rfl, rfl, rfl, rfl, rfl⟩
      | false =>
        obtain rfl := Option.some.inj h
        exact ⟨rfl, hknown, rfl, rfl, rfl, rfl, rfl, rfl⟩
    · cases h
  | giveUp task =>
    left
    simp only [creationStep] at h
    split_ifs at h
    obtain rfl := Option.some.inj h
    exact .finish task

/-! ### What a step keeps -/

omit [ToString Cid] in
theorem CreatesSafely.of_proceeds (hs : CreatesSafely start s) (h : Proceeds s t) :
    CreatesSafely start t := by
  obtain ⟨hwasFree, honce, hlive, hnode, hothers⟩ := hs
  rw [← h.registrations] at hwasFree honce hlive hnode hothers
  rw [← h.stores] at hlive hnode hothers
  exact ⟨hwasFree, honce, hlive, hnode, hothers⟩

omit [ToString Cid] in
/-- A fragment that is not live was never registered. -/
theorem CreatesSafely.ne_of_free (hs : CreatesSafely start s) {fragment : String}
    (h : s.stores.registry.get fragment = none) {number : Nat} {registration : Registration Cid}
    (hregistered : s.registrations.get number = some registration) :
    registration.fragment ≠ fragment := by
  rintro rfl
  have hlive := hs.live number registration hregistered
  rw [h] at hlive
  cases hlive

omit [ToString Cid] in
/-- The plugin of a free fragment may be registered. -/
theorem CreatesSafely.of_registers (hs : CreatesSafely start s) {path : CreatePath} {number : Nat}
    {registration : Registration Cid} (h : Registers s action t path number registration)
    (hfree : s.stores.registry.get registration.fragment = none) : CreatesSafely start t := by
  have hne : ∀ other found, s.registrations.get other = some found →
      found.fragment ≠ registration.fragment := fun _ _ hfound ↦ hs.ne_of_free hfree hfound
  have hbefore := hs.others registration.fragment hne
  -- A registration is the new one or one that there was, under another fragment.
  have hcases : ∀ other found, t.registrations.get other = some found →
      (other = number ∧ found = registration) ∨
        (s.registrations.get other = some found ∧ found.fragment ≠ registration.fragment) := by
    intro other found hfound
    rw [h.registrations] at hfound
    obtain hsame | ⟨-, hold⟩ := KeyedMap.get_insert_eq_some_iff.mp hfound
    · exact .inl hsame
    · exact .inr ⟨hold, hne other found hold⟩
  constructor
  · intro other found hfound
    obtain ⟨-, rfl⟩ | ⟨hold, -⟩ := hcases other found hfound
    · rw [← hbefore.1, hfree]
    · exact hs.wasFree other found hold
  · intro i first j second hi hj hsame
    obtain ⟨rfl, rfl⟩ | ⟨hfirst, hnefirst⟩ := hcases i first hi
    · obtain ⟨rfl, -⟩ | ⟨-, hnesecond⟩ := hcases j second hj
      · rfl
      · exact absurd hsame.symm hnesecond
    · obtain ⟨-, rfl⟩ | ⟨hsecond, -⟩ := hcases j second hj
      · exact absurd hsame hnefirst
      · exact hs.once i first j second hfirst hsecond hsame
  · intro other found hfound
    rw [h.registry]
    obtain ⟨-, rfl⟩ | ⟨hold, hfragment⟩ := hcases other found hfound
    · exact KeyedMap.get_insert_self ..
    · rw [KeyedMap.get_insert_of_ne _ _ hfragment]
      exact hs.live other found hold
  · intro other found hfound
    rw [h.nodes]
    obtain ⟨-, rfl⟩ | ⟨hold, -⟩ := hcases other found hfound
    · rw [h.isPending]
      exact hbefore.2
    · exact hs.node other found hold
  · intro fragment hnone
    have hfragment : registration.fragment ≠ fragment := by
      apply hnone number
      rw [h.registrations, KeyedMap.get_insert_self]
    rw [h.registry, h.nodes, KeyedMap.get_insert_of_ne _ _ hfragment.symm]
    refine hs.others fragment fun other found hfound ↦ hnone other found ?_
    have hother : other ≠ number := by
      rintro rfl
      rw [h.isNew] at hfound
      cases hfound
    rw [h.registrations, KeyedMap.get_insert_of_ne _ _ hother]
    exact hfound

omit [ToString Cid] in
/-- The node of a registration may be put into the manifest. -/
theorem CreatesSafely.of_inserts (hs : CreatesSafely start s) {number : Nat}
    {registration : Registration Cid} {succeeds : Bool}
    (h : Inserts s action t number registration succeeds) : CreatesSafely start t := by
  -- A registration has the fragment and the node that it had.
  have hcases : ∀ other found, t.registrations.get other = some found →
      (other = number ∧ found = registration.ended succeeds) ∨
        (other ≠ number ∧ s.registrations.get other = some found) := by
    intro other found hfound
    rw [h.registrations] at hfound
    exact KeyedMap.get_insert_eq_some_iff.mp hfound
  have hkept : ∀ other found, t.registrations.get other = some found →
      ∃ before, s.registrations.get other = some before ∧ before.fragment = found.fragment ∧
        before.node = found.node := by
    intro other found hfound
    obtain ⟨rfl, rfl⟩ | ⟨-, hold⟩ := hcases other found hfound
    · exact ⟨registration, h.known, rfl, rfl⟩
    · exact ⟨found, hold, rfl, rfl⟩
  have hnodes : ∀ fragment, fragment ≠ registration.fragment →
      t.stores.nodes.get fragment = s.stores.nodes.get fragment := by
    intro fragment hfragment
    rw [h.nodes]
    split_ifs
    · exact KeyedMap.get_insert_of_ne _ _ hfragment
    · rfl
  constructor
  · intro other found hfound
    obtain ⟨before, hbefore, hfragment, -⟩ := hkept other found hfound
    rw [← hfragment]
    exact hs.wasFree other before hbefore
  · intro i first j second hi hj hsame
    obtain ⟨before, hbefore, hfirst, -⟩ := hkept i first hi
    obtain ⟨after, hafter, hsecond, -⟩ := hkept j second hj
    apply hs.once i before j after hbefore hafter
    rw [hfirst, hsecond, hsame]
  · intro other found hfound
    obtain ⟨before, hbefore, hfragment, hnode⟩ := hkept other found hfound
    rw [h.registry, ← hfragment, ← hnode]
    exact hs.live other before hbefore
  · intro other found hfound
    obtain ⟨rfl, rfl⟩ | ⟨hother, hold⟩ := hcases other found hfound
    · have hbefore := hs.node other registration h.known
      rw [h.isPending, if_neg (by decide)] at hbefore
      rw [h.nodes]
      cases succeeds with
      | true => exact KeyedMap.get_insert_self ..
      | false => exact hbefore
    · rw [hnodes]
      · exact hs.node other found hold
      · intro hsame
        exact hother (hs.once other found number registration hold h.known hsame)
  · intro fragment hnone
    have hfragment : registration.fragment ≠ fragment := by
      apply hnone number (registration.ended succeeds)
      rw [h.registrations, KeyedMap.get_insert_self]
    rw [h.registry, hnodes fragment hfragment.symm]
    refine hs.others fragment fun other found hfound ↦ ?_
    by_cases hother : other = number
    · subst hother
      obtain rfl := Option.some.inj (h.known.symm.trans hfound)
      exact hfragment
    · apply hnone other found
      rw [h.registrations, KeyedMap.get_insert_of_ne _ _ hother]
      exact hfound

/-- A step keeps the property if it meets the condition. -/
theorem createsSafely_step (hs : CreatesSafely start s) (hfree : FragmentIsFree s action)
    (h : creationStep store cidOfText s action = some t) : CreatesSafely start t := by
  obtain hproceeds | ⟨path, number, registration, hregisters⟩ | ⟨_, _, _, hinserts⟩ :=
    creationStep_cases h
  · exact hs.of_proceeds hproceeds
  · apply hs.of_registers hregisters
    cases path with
    | inbox =>
      obtain ⟨task, stateAdded, req, node, loaded, rfl, hloaded, hfragment⟩ := hregisters.isLoaded
      rw [← hfragment]
      exact hfree req node loaded hloaded
    | envelope => exact hregisters.isFree rfl
  · exact hs.of_inserts hinserts

/-- A request of the inbox is registered whatever is live. -/
theorem registers_of_inbox {task number : Nat} {stateAdded : Bool} {req : CreateEntityRequest}
    {node : EntityNode Cid} {loaded : LoadedPlugin}
    (hloaded : s.requests.get task = some (.loaded .inbox req node loaded))
    (h : creationStep store cidOfText s (.register task stateAdded number) = some t) :
    Registers s (.register task stateAdded number) t .inbox number
      ⟨req.fragment, runningNode node (triggerSave store loaded stateAdded), .pending⟩ := by
  simp only [creationStep, hloaded] at h
  cases hnumber : s.registrations.get number with
  | some registration =>
    rw [hnumber] at h
    cases h
  | none =>
    rw [hnumber] at h
    obtain rfl := Option.some.inj h
    exact registers_registered hloaded hnumber rfl

/-- A step that keeps the property meets the condition. -/
theorem fragmentIsFree_of_createsSafely (hs : CreatesSafely start s)
    (h : creationStep store cidOfText s action = some t) (ht : CreatesSafely start t) :
    FragmentIsFree s action := by
  cases action with
  | register task stateAdded number =>
    intro req node loaded hloaded
    have hregisters := registers_of_inbox hloaded h
    have hnew := hregisters.registrations
    rw [(hs.others req.fragment fun other found hfound hsame ↦ ?_).1]
    · exact ht.wasFree number _ (by rw [hnew, KeyedMap.get_insert_self])
    · have hother : other ≠ number := by
        rintro rfl
        rw [hregisters.isNew] at hfound
        cases hfound
      apply hother
      have hkept : t.registrations.get other = some found := by
        rw [hnew, KeyedMap.get_insert_of_ne _ _ hother]
        exact hfound
      exact ht.once other found number _ hkept (by rw [hnew, KeyedMap.get_insert_self]) hsame
  | create task path caller req => trivial
  | enter task => trivial
  | load task attempts => trivial
  | insertEntity number succeeds => trivial
  | giveUp task => trivial

omit [ToString Cid] in
theorem createsSafely_start (start : EntityStores Cid) : CreatesSafely start (.start start) where
  wasFree _ _ h := nomatch h
  once _ _ _ _ h := nomatch h
  live _ _ h := nomatch h
  node _ _ h := nomatch h
  others _ _ := ⟨rfl, rfl⟩

/-- Requests for entities replace no live entity, and register at most one for a fragment, along a
run if and only if each request of the inbox that registers its plugin finds the fragment free. -/
theorem createsSafely_iff {actions : List CreationAction} {u : CreationState Cid}
    (h : Run (creationStep store cidOfText) (.start start) actions u) :
    (∀ before after t, actions = before ++ after →
        Run (creationStep store cidOfText) (.start start) before t → CreatesSafely start t) ↔
      GuardedRun (creationStep store cidOfText) FragmentIsFree (.start start) actions u :=
  guardedRun_iff_forall_prefix (CreatesSafely start) h (createsSafely_start start)
    (fun _ _ _ hs hfree hstep ↦ createsSafely_step hs hfree hstep)
    (fun _ _ _ hs hstep ht ↦ fragmentIsFree_of_createsSafely hs hstep ht)

/-! ### The gate -/

/-- A request that needs the gate holds it. -/
def GateHeld (s : CreationState Cid) : Prop :=
  ∀ task phase, s.requests.get task = some phase → phase.holdsGate = true → s.gate = some task

omit [ToString Cid] in
theorem GateHeld.finish (hs : GateHeld s) (task : Nat) : GateHeld (s.finish task) := by
  intro other phase hphase hholds
  obtain ⟨hother, hbefore⟩ := KeyedMap.get_remove_eq_some_iff.mp hphase
  have hgate := hs other phase hbefore hholds
  have hne : s.gate ≠ some task := by
    rw [hgate]
    exact fun heq ↦ hother (Option.some.inj heq)
  show (if s.gate = some task then none else s.gate) = some other
  rw [if_neg hne, hgate]

omit [ToString Cid] in
/-- Assumes: a request that comes to a phase which needs the gate finds it open, or holds it. -/
theorem GateHeld.advance (hs : GateHeld s) {task : Nat} {phase : CreatePhase Cid}
    (hgate : phase.holdsGate = true → s.gate = none ∨ s.gate = some task) :
    GateHeld (s.advance task phase) := by
  intro other found hfound hholds
  show (if phase.holdsGate then some task else s.gate) = some other
  obtain ⟨rfl, rfl⟩ | ⟨hother, hbefore⟩ := KeyedMap.get_insert_eq_some_iff.mp hfound
  · rw [if_pos hholds]
  · have hheld := hs other found hbefore hholds
    by_cases hphase : phase.holdsGate = true
    · rcases hgate hphase with hopen | hmine
      · rw [hopen] at hheld
        cases hheld
      · rw [hmine] at hheld
        exact absurd (Option.some.inj hheld).symm hother
    · rw [if_neg hphase, hheld]

theorem gateHeld_step (hs : GateHeld s) (h : creationStep store cidOfText s action = some t) :
    GateHeld t := by
  obtain hproceeds | ⟨_, _, _, hregisters⟩ | ⟨_, _, _, hinserts⟩ := creationStep_cases h
  · cases hproceeds with
    | finish task => exact hs.finish task
    | advance task phase hgate =>
      refine hs.advance fun hholds ↦ ?_
      rcases hgate hholds with hopen | ⟨before, hbefore, hheld⟩
      · exact .inl hopen
      · exact .inr (hs task before hbefore hheld)
  · obtain ⟨task, hgate, hrequests⟩ := hregisters.finishes
    intro other phase hphase hholds
    rw [hrequests] at hphase
    rw [hgate]
    exact hs.finish task other phase hphase hholds
  · intro other phase hphase hholds
    rw [hinserts.requests] at hphase
    rw [hinserts.gate]
    exact hs other phase hphase hholds

/-- At any time at most one request of an envelope is loading its plugin, or about to
register it. -/
theorem envelope_request_unique {actions : List CreationAction} {u : CreationState Cid}
    (h : Run (creationStep store cidOfText) (.start start) actions u) {task other : Nat}
    {phase second : CreatePhase Cid} (hphase : u.requests.get task = some phase)
    (hholds : phase.holdsGate = true) (hsecond : u.requests.get other = some second)
    (hholdsToo : second.holdsGate = true) : task = other := by
  have hheld : GateHeld u :=
    h.invariant GateHeld (fun _ _ _ hs _ hstep ↦ gateHeld_step hs hstep)
      fun _ _ hnone ↦ nomatch hnone
  exact Option.some.inj ((hheld task phase hphase hholds).symm.trans
    (hheld other second hsecond hholdsToo))

end Machine

/-! ### A fragment that is taken -/

/-- A runtime with one entity, which is in the manifest as well, and with one kind. -/
def oneRoom : EntityStores ContentCid where
  registry := ⟨[("guest", ⟨"guest", "open", none, false⟩)]⟩
  nodes := ⟨[("guest", roomNode)]⟩
  kindRegistry := ⟨[("/ma/room/0.0.1", Plugin.statefulKind)]⟩

/-- `guest` asks for an entity of its own kind. -/
def roomRequest (fragment : String) : CreateEntityRequest where
  fragment := fragment
  kindProtocol := "/ma/room/0.0.1"
  behaviourCid := none
  initPayload := none
  parent := "guest"

/-- A request that arrives, is loaded and registered, and whose node is put into the manifest. -/
def createRoom (fragment : String) : List CreationAction :=
  [.create 0 .inbox ⟨"guest", "open", none, false⟩ (roomRequest fragment),
    .load 0 fun _ ↦ Plugin.attemptWith true true, .register 0 true 0, .insertEntity 0 true]

/-- A request for an entity whose fragment is free. -/
theorem createsSafely_iff_free_fragment :
    ∃ u, Run (creationStep contentStore textCid) (.start oneRoom) (createRoom "hall") u ∧
      CreatesSafely oneRoom u := by
  have hrun : Run (creationStep contentStore textCid) (.start oneRoom) (createRoom "hall") _ :=
    run_of_execute rfl
  refine ⟨_, hrun, (createsSafely_iff hrun).mpr ?_ _ [] _ (List.append_nil _).symm hrun⟩
  refine .cons trivial rfl (.cons trivial rfl (.cons ?_ rfl (.cons trivial rfl (.nil _))))
  rintro req node loaded ⟨⟩
  rfl

/-- An entity asks for one under its own fragment: it is replaced by its child, in the registry and
in the manifest. -/
theorem live_entity_replaced :
    ∃ u, Run (creationStep contentStore textCid) (.start oneRoom) (createRoom "guest") u ∧
      u.stores.registry.get "guest" = some ⟨"guest", "open", some "guest", false⟩ ∧
      (u.stores.nodes.get "guest").map EntityNode.parent = some (some "guest") ∧
      ¬CreatesSafely oneRoom u := by
  refine ⟨_, run_of_execute rfl, rfl, rfl, fun hsafe ↦ ?_⟩
  have hfree := hsafe.wasFree 0 _ rfl
  cases hfree

end MaRuntime.Dispatch
