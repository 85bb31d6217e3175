import MaRuntime.Dispatch.SideEffects
import MaRuntime.Library.Parsing
import MaRuntime.Library.Runs

/-!
# Requests that fail beside others

A request of an `on_message` may fail. A creation of an unknown kind, or one whose plugin does not
load, is passed over. A creation with a rejected behaviour reference and a behaviour request that
fails end what the inbox does for the message: the requests behind them are not taken up, and
the dispatch fails although the plugin had answered.

So the requests of a result are independent of each other exactly when none of this kind is reached
(`independent_iff`).

Main definitions: `inboxReply`, `Fails`, `Aborts`, `Independent`.
Main results: `carryOut_ok_iff`, `independent_iff`.
-/

set_option autoImplicit false
set_option relaxedAutoImplicit false

namespace MaRuntime.Dispatch

open Manifest Runs
open Plugin (CreateEntityRequest SetBehaviourRequest DispatchResult KindNode LoadAttempt
  LoadedPlugin loadWithFibonacciBackoff)

section Independence

variable {Cid : Type} [ToString Cid] (store : Store Cid) (cidOfText : String → Cid)

/-! ### The answer of a dispatch -/

/-- Whether the requests are carried out to the end. -/
def carryOutAll (entity : EntityPlugin) :
    EntityStores Cid → List (Request × Answers Cid) → Except String Unit
  | _, [] => .ok ()
  | s, (request, answers) :: rest =>
    match carryOut store cidOfText s entity answers request with
    | (s, .ok ()) => carryOutAll entity s rest
    | (_, .error reason) => .error reason

/-- The output that a dispatch returns: that of a native entity, unless it is empty. -/
def replyOutput (entity : EntityPlugin) (output : Bytes) : Option Bytes :=
  if entity.native && !output.isEmpty then some output else none

/-- What `dispatch_entity_message` answers after the call. -/
def inboxReply (entity : EntityPlugin) (s : EntityStores Cid)
    (jobs : List (Request × Answers Cid)) (output : Bytes) : Except String (Option Bytes) :=
  (carryOutAll store cidOfText entity s jobs).map fun _ ↦ replyOutput entity output

/-- A request is carried out without a failure. -/
def carryStep (entity : EntityPlugin) (s : EntityStores Cid) (job : Request × Answers Cid) :
    Option (EntityStores Cid) :=
  match carryOut store cidOfText s entity job.2 job.1 with
  | (s, .ok ()) => some s
  | (_, .error _) => none

/-! ### Failures -/

/-- The node of an entity with the state that its plugin has saved. -/
def savedNode (s : EntityStores Cid) (fragment : String) (answers : Answers Cid)
    (node : EntityNode Cid) : EntityNode Cid :=
  match s.registry.get fragment, answers.prepared with
  | some _, .ok (some cid) => node.withState cid
  | _, _ => node

/-- The node that is loaded for a new behaviour. -/
def nodeForReload (s : EntityStores Cid) (fragment : String) (node : EntityNode Cid)
    (behaviour : Option String) (answers : Answers Cid) : EntityNode Cid :=
  let node := { savedNode s fragment answers node with
    behaviour := behaviour.map fun cid ↦ ⟨cidOfText cid⟩ }
  if (s.registry.get fragment).isSome then { node with initialised := true } else node

/-- A behaviour request goes through: the reference is valid, the entity has a node of a known kind
that loads with it, and the calls of Kubo for the node succeed. -/
structure Replaces (s : EntityStores Cid) (req : SetBehaviourRequest) (answers : Answers Cid) :
    Prop where
  loads : ∃ behaviour node kindNode loaded, requestedBehaviour req.behaviourCid = .ok behaviour ∧
    s.nodes.get req.fragment = some node ∧ s.kindRegistry.get node.kind = some kindNode ∧
    loadWithFibonacciBackoff store req.fragment
      (nodeForReload cidOfText s req.fragment node behaviour answers) kindNode answers.attempts =
        .ok loaded
  fetched : answers.nodeFetched = none
  linked : answers.nodeLinked = none
  saved : (s.registry.get req.fragment).isSome = true → ∀ cid, answers.prepared = .ok (some cid) →
    answers.stateLinked = none

/-- A request fails: a creation of an unknown kind, with an invalid behaviour reference or a failing
load, or a behaviour request that does not go through. -/
def Fails (s : EntityStores Cid) (entity : EntityPlugin) (answers : Answers Cid) : Request → Prop
  | .create req =>
    s.kindRegistry.get req.kindProtocol = none ∨
      (∃ reason, requestedBehaviour req.behaviourCid = .error reason) ∨
      ∃ kindNode behaviour reason, s.kindRegistry.get req.kindProtocol = some kindNode ∧
        requestedBehaviour req.behaviourCid = .ok behaviour ∧
        Plugin.load store req.fragment (createdNode cidOfText req behaviour entity) kindNode
          (answers.attempts 0) = .error reason
  | .behaviour req => ¬Replaces store cidOfText s req answers
  | .state _ | .delete _ => False

/-- A failure that ends the dispatch: a creation of a known kind with an invalid behaviour
reference, or a behaviour request that does not go through. -/
def Aborts (s : EntityStores Cid) (answers : Answers Cid) : Request → Prop
  | .create req => (s.kindRegistry.get req.kindProtocol).isSome = true ∧
      ∃ reason, requestedBehaviour req.behaviourCid = .error reason
  | .behaviour req => ¬Replaces store cidOfText s req answers
  | .state _ | .delete _ => False

/-- The dispatch answers with the output, and a request that fails leaves the stores as they are and
has the others carried out as without it. -/
structure Independent (entity : EntityPlugin) (s : EntityStores Cid)
    (jobs : List (Request × Answers Cid)) (output : Bytes) : Prop where
  reply : inboxReply store cidOfText entity s jobs output = .ok (replyOutput entity output)
  others : ∀ before request answers after reached,
    jobs = before ++ (request, answers) :: after →
    Run (carryStep store cidOfText entity) s before reached →
    Fails store cidOfText reached entity answers request →
    carryOut store cidOfText reached entity answers request = (reached, .ok ()) ∧
      ∃ rest : SideEffects Cid,
        inboxSideEffects store cidOfText entity s (before ++ after) =
          ⟨rest.stores, before.map Prod.fst ++ rest.taken⟩ ∧
        inboxSideEffects store cidOfText entity s jobs =
          ⟨rest.stores, before.map Prod.fst ++ request :: rest.taken⟩

variable {store cidOfText} {s reached : EntityStores Cid} {entity : EntityPlugin}
  {answers : Answers Cid} {request : Request} {jobs before after : List (Request × Answers Cid)}
  {output : Bytes}

/-! ### One request -/

omit [ToString Cid] in
theorem updateEntityNode_ok_iff {nodes nodes' : KeyedMap String (EntityNode Cid)}
    {fragment : String} {failure : Option String} {update : EntityNode Cid → EntityNode Cid} :
    updateEntityNode nodes fragment failure update = .ok nodes' ↔
      failure = none ∧ ∃ node, nodes.get fragment = some node ∧
        nodes' = nodes.insert fragment (update node) := by
  unfold updateEntityNode
  cases failure with
  | some reason => simp
  | none =>
    cases nodes.get fragment with
    | none => simp
    | some node => simp [eq_comm]

omit [ToString Cid] in
@[simp] theorem kind_savedNode (fragment : String) (node : EntityNode Cid) :
    (savedNode s fragment answers node).kind = node.kind := by
  unfold savedNode
  split <;> rfl

omit [ToString Cid] in
@[simp] theorem kind_nodeForReload (fragment : String) (node : EntityNode Cid)
    (behaviour : Option String) :
    (nodeForReload cidOfText s fragment node behaviour answers).kind = node.kind := by
  unfold nodeForReload
  split_ifs
  · exact kind_savedNode fragment node
  · exact kind_savedNode fragment node

omit [ToString Cid] in
/-- What is changed before a plugin is replaced is the node of its entity. -/
theorem of_saveBeforeReload_ok {fragment : String} {saved : EntityStores Cid}
    (h : saveBeforeReload s fragment answers = .ok saved) :
    saved.registry = s.registry ∧ saved.kindRegistry = s.kindRegistry ∧
      saved.nodes.get fragment = (s.nodes.get fragment).map (savedNode s fragment answers) ∧
      ((s.registry.get fragment).isSome = true → ∀ cid, answers.prepared = .ok (some cid) →
        answers.stateLinked = none) := by
  unfold saveBeforeReload at h
  split at h
  · rename_i live cid hlive hprepared
    obtain ⟨nodes, hnodes, rfl⟩ := map_eq_ok h
    obtain ⟨hlinked, node, hnode, rfl⟩ := updateEntityNode_ok_iff.mp hnodes
    refine ⟨rfl, rfl, ?_, fun _ _ _ ↦ hlinked⟩
    simp [hnode, savedNode, hlive, hprepared]
  · rename_i hneither
    obtain rfl := Except.ok.inj h
    have hnone : ∀ live, s.registry.get fragment = some live →
        ∀ cid, answers.prepared ≠ .ok (some cid) := fun live hlive cid hprepared ↦
      hneither live cid hlive hprepared
    have hsame : savedNode s fragment answers = id := by
      funext node
      unfold savedNode
      split
      · rename_i live cid hlive hprepared
        exact absurd hprepared (hnone live hlive cid)
      · rfl
    refine ⟨rfl, rfl, by rw [hsame, Option.map_id, id], fun hlive cid hprepared ↦ ?_⟩
    obtain ⟨live, hlive⟩ := Option.isSome_iff_exists.mp hlive
    exact absurd hprepared (hnone live hlive cid)

omit [ToString Cid] in
theorem exists_saveBeforeReload_ok {fragment : String} {node : EntityNode Cid}
    (hnode : s.nodes.get fragment = some node)
    (hlinked : (s.registry.get fragment).isSome = true → ∀ cid,
      answers.prepared = .ok (some cid) → answers.stateLinked = none) :
    ∃ saved, saveBeforeReload s fragment answers = .ok saved := by
  unfold saveBeforeReload
  split
  · rename_i live cid hlive hprepared
    have hupdate : updateEntityNode s.nodes fragment answers.stateLinked
        (fun node ↦ node.withState cid) = .ok (s.nodes.insert fragment (node.withState cid)) :=
      updateEntityNode_ok_iff.mpr
        ⟨hlinked (Option.isSome_of_eq_some hlive) cid hprepared, node, hnode, rfl⟩
    rw [hupdate]
    exact ⟨_, rfl⟩
  · exact ⟨s, rfl⟩

omit [ToString Cid] in
theorem loadEntityNodeForUpdate_ok_iff {fragment : String} {behaviour : Option String}
    {node : EntityNode Cid} :
    loadEntityNodeForUpdate cidOfText s fragment behaviour answers = .ok node ↔
      answers.nodeFetched = none ∧ ∃ found, s.nodes.get fragment = some found ∧
        node = { found with behaviour := behaviour.map fun cid ↦ ⟨cidOfText cid⟩ } := by
  unfold loadEntityNodeForUpdate
  cases answers.nodeFetched with
  | some reason => simp
  | none =>
    cases s.nodes.get fragment with
    | none => simp
    | some found => simp [eq_comm]

/-- A plugin is replaced when the kind of the node is known, the node loads and it can be linked. -/
theorem exists_replacePlugin_ok_iff {fragment : String} {behaviour : Option String}
    {node : EntityNode Cid} :
    (∃ after, replacePlugin store cidOfText s fragment behaviour node answers = .ok after) ↔
      (∃ kindNode loaded, s.kindRegistry.get node.kind = some kindNode ∧
        loadWithFibonacciBackoff store fragment node kindNode answers.attempts = .ok loaded) ∧
      answers.nodeLinked = none ∧ (s.nodes.get fragment).isSome = true := by
  unfold replacePlugin
  cases hkind : s.kindRegistry.get node.kind with
  | none => simp
  | some kindNode =>
    constructor
    · rintro ⟨after, h⟩
      obtain ⟨loaded, hloaded, h⟩ := bind_eq_ok h
      obtain ⟨nodes, hnodes, -⟩ := bind_eq_ok h
      obtain ⟨hlinked, found, hfound, -⟩ := updateEntityNode_ok_iff.mp hnodes
      exact ⟨⟨kindNode, loaded, rfl, hloaded⟩, hlinked, Option.isSome_of_eq_some hfound⟩
    · rintro ⟨⟨found, loaded, hfoundKind, hloaded⟩, hlinked, hfound⟩
      obtain rfl := Option.some.inj hfoundKind
      obtain ⟨found, hfound⟩ := Option.isSome_iff_exists.mp hfound
      have hnodes : updateEntityNode s.nodes fragment answers.nodeLinked
          (fun node ↦ node.withBehaviour (behaviour.map cidOfText)) =
            .ok (s.nodes.insert fragment (found.withBehaviour (behaviour.map cidOfText))) :=
        updateEntityNode_ok_iff.mpr ⟨hlinked, found, hfound, rfl⟩
      simp only [hloaded, hnodes]
      exact ⟨_, rfl⟩

/-- When a behaviour request goes through. -/
theorem exists_applyBehaviourRequest_ok_iff {req : SetBehaviourRequest} :
    (∃ after, applyBehaviourRequest store cidOfText s req answers = (after, .ok ())) ↔
      Replaces store cidOfText s req answers := by
  unfold applyBehaviourRequest
  constructor
  · rintro ⟨after, h⟩
    cases hbehaviour : requestedBehaviour req.behaviourCid with
    | error reason => simp [hbehaviour] at h
    | ok behaviour =>
      cases hsaved : saveBeforeReload s req.fragment answers with
      | error reason => simp [hbehaviour, hsaved] at h
      | ok saved =>
        simp only [hbehaviour, hsaved] at h
        split at h
        · simp at h
        · rename_i replaced hreplaced
          obtain ⟨hregistry, hkinds, hnodes, hlinked⟩ := of_saveBeforeReload_ok hsaved
          obtain ⟨node, hnode, hreplaced⟩ := bind_eq_ok hreplaced
          obtain ⟨hfetched, found, hfound, rfl⟩ := loadEntityNodeForUpdate_ok_iff.mp hnode
          obtain ⟨⟨kindNode, loaded, hkind, hloaded⟩, hnodeLinked, -⟩ :=
            exists_replacePlugin_ok_iff.mp ⟨replaced, hreplaced⟩
          obtain ⟨original, horiginal, rfl⟩ :=
            Option.map_eq_some_iff.mp (hnodes.symm.trans hfound)
          rw [hregistry] at hloaded hkind
          have hkindNode : s.kindRegistry.get original.kind = some kindNode := by
            rw [← kind_nodeForReload, ← hkinds]
            exact hkind
          exact ⟨⟨behaviour, original, kindNode, loaded, hbehaviour, horiginal, hkindNode, hloaded⟩,
            hfetched, hnodeLinked, hlinked⟩
  · rintro ⟨⟨behaviour, node, kindNode, loaded, hbehaviour, hnode, hkind, hloaded⟩, hfetched,
      hnodeLinked, hlinked⟩
    obtain ⟨saved, hsaved⟩ := exists_saveBeforeReload_ok hnode hlinked
    obtain ⟨hregistry, hkinds, hnodes, -⟩ := of_saveBeforeReload_ok hsaved
    rw [hnode, Option.map_some] at hnodes
    have hupdate : loadEntityNodeForUpdate cidOfText saved req.fragment behaviour answers = .ok
        { savedNode s req.fragment answers node with
          behaviour := behaviour.map fun cid ↦ ⟨cidOfText cid⟩ } :=
      loadEntityNodeForUpdate_ok_iff.mpr ⟨hfetched, _, hnodes, rfl⟩
    have hkindSaved : saved.kindRegistry.get
        (nodeForReload cidOfText s req.fragment node behaviour answers).kind = some kindNode := by
      rw [hkinds, kind_nodeForReload, hkind]
    obtain ⟨replaced, hreplaced⟩ := exists_replacePlugin_ok_iff.mpr
      ⟨⟨kindNode, loaded, hkindSaved, hloaded⟩, hnodeLinked, Option.isSome_of_eq_some hnodes⟩
    refine ⟨replaced, ?_⟩
    simp only [hbehaviour, hsaved, hupdate, hregistry]
    split
    · rename_i reason herror
      cases hreplaced.symm.trans herror
    · rename_i other hother
      cases hreplaced.symm.trans hother
      rfl

/-- A creation ends the dispatch exactly when its kind is known and its reference is not valid. -/
theorem exists_createEntityFromRequest_ok_iff {req : CreateEntityRequest} :
    (∃ after, createEntityFromRequest store cidOfText s req entity answers = .ok after) ↔
      ((s.kindRegistry.get req.kindProtocol).isSome = true →
        ∃ behaviour, requestedBehaviour req.behaviourCid = .ok behaviour) := by
  unfold createEntityFromRequest
  cases hkind : s.kindRegistry.get req.kindProtocol with
  | none => simp
  | some kindNode =>
    cases hbehaviour : requestedBehaviour req.behaviourCid with
    | error reason => simp
    | ok behaviour =>
      refine iff_of_true ?_ fun _ ↦ ⟨behaviour, rfl⟩
      dsimp only
      split
      · exact ⟨s, rfl⟩
      · split
        · exact ⟨_, rfl⟩
        · exact ⟨s, rfl⟩

/-- A request is carried out without a failure exactly when it does not end the dispatch. -/
theorem isSome_carryStep_iff :
    (carryStep store cidOfText entity s (request, answers)).isSome = true ↔
      ¬Aborts store cidOfText s answers request := by
  have hok : (carryStep store cidOfText entity s (request, answers)).isSome = true ↔
      ∃ after, carryOut store cidOfText s entity answers request = (after, .ok ()) := by
    unfold carryStep
    cases hcarry : carryOut store cidOfText s entity answers request with
    | mk after outcome =>
      cases outcome with
      | ok => simp
      | error reason => simp
  rw [hok]
  cases request with
  | state bytes => exact iff_of_true ⟨_, rfl⟩ fun h ↦ h
  | delete target => exact iff_of_true ⟨_, rfl⟩ fun h ↦ h
  | behaviour req => exact exists_applyBehaviourRequest_ok_iff.trans not_not.symm
  | create req =>
    have hcreate : (∃ after, carryOut store cidOfText s entity answers (.create req) =
        (after, .ok ())) ↔
        ∃ after, createEntityFromRequest store cidOfText s req entity answers = .ok after := by
      unfold carryOut
      cases hcreated : createEntityFromRequest store cidOfText s req entity answers with
      | ok after => simp [hcreated]
      | error reason => simp [hcreated]
    rw [hcreate, exists_createEntityFromRequest_ok_iff]
    unfold Aborts
    cases hbehaviour : requestedBehaviour req.behaviourCid with
    | ok behaviour => simp [hbehaviour]
    | error reason => simp [hbehaviour]

/-- A request that fails and does not end the dispatch leaves the stores as they are. -/
theorem carryOut_of_fails (hfails : Fails store cidOfText s entity answers request)
    (haborts : ¬Aborts store cidOfText s answers request) :
    carryOut store cidOfText s entity answers request = (s, .ok ()) := by
  cases request with
  | state bytes => exact absurd hfails id
  | delete target => exact absurd hfails id
  | behaviour req => exact absurd hfails haborts
  | create req =>
    unfold carryOut createEntityFromRequest
    rcases hfails with hnone | ⟨reason, hreason⟩ | ⟨kindNode, behaviour, reason, hkind, hok, hload⟩
    · simp [hnone]
    · cases hkind : s.kindRegistry.get req.kindProtocol with
      | none => simp [hkind]
      | some kindNode => exact absurd ⟨Option.isSome_of_eq_some hkind, reason, hreason⟩ haborts
    · simp [hkind, hok, hload]

/-! ### All requests -/

theorem carryOutAll_ok_iff :
    carryOutAll store cidOfText entity s jobs = .ok () ↔
      ∃ after, Run (carryStep store cidOfText entity) s jobs after := by
  induction jobs generalizing s with
  | nil => exact iff_of_true rfl ⟨s, .nil s⟩
  | cons job rest ih =>
    obtain ⟨request, answers⟩ := job
    unfold carryOutAll
    cases hcarry : carryOut store cidOfText s entity answers request with
    | mk next outcome =>
      cases outcome with
      | ok =>
        have hstep : carryStep store cidOfText entity s (request, answers) = some next := by
          simp only [carryStep, hcarry]
        refine ih.trans ?_
        constructor
        · rintro ⟨after, hrest⟩
          exact ⟨after, .cons trivial hstep hrest⟩
        · rintro ⟨after, hrun⟩
          cases hrun with
          | cons _ hnext hrest =>
            obtain rfl := Option.some.inj (hstep.symm.trans hnext)
            exact ⟨after, hrest⟩
      | error reason =>
        have hstep : carryStep store cidOfText entity s (request, answers) = none := by
          simp only [carryStep, hcarry]
        refine iff_of_false (by simp) ?_
        rintro ⟨after, hrun⟩
        cases hrun with
        | cons _ hnext _ => cases hstep.symm.trans hnext

/-- What is carried out behind requests none of which ends the dispatch. -/
theorem inboxSideEffects_append (h : Run (carryStep store cidOfText entity) s before reached) :
    inboxSideEffects store cidOfText entity s (before ++ after) =
      ⟨(inboxSideEffects store cidOfText entity reached after).stores,
        before.map Prod.fst ++ (inboxSideEffects store cidOfText entity reached after).taken⟩ := by
  induction h with
  | nil s => rfl
  | cons _ hstep _ ih =>
    rename_i s next reached job rest
    obtain ⟨request, answers⟩ := job
    unfold carryStep at hstep
    split at hstep
    · rename_i hcarry
      obtain rfl := Option.some.inj hstep
      simp only [List.cons_append, inboxSideEffects, hcarry, ih, List.map_cons]
    · cases hstep

end Independence

/-! ### A creation beside a deletion -/

/-- A runtime with one entity and one kind. -/
def oneKind : EntityStores ContentCid :=
  { oneEntity with kindRegistry := ⟨[("/ma/room/0.0.1", Plugin.statefulKind)]⟩ }

/-- The result of a call in which `guest` asks for an entity with an invalid behaviour reference
and ends itself. -/
def createsAndEnds : DispatchResult where
  output := []
  pendingState := none
  createRequests := [⟨"hall", "/ma/room/0.0.1", some "/ipns/hall", none, "guest"⟩]
  deleteRequests := ["guest"]
  behaviourRequests := []

end MaRuntime.Dispatch
