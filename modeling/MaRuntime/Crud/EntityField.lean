import MaRuntime.Library.Runs
import MaRuntime.Manifest.Serialisable

/-!
# Updates of one entity node

The node of an entity is written by the manifest writer's calls for it, each atomic under the
writer's lock, and by the CRUD handler of its field `acl`. The handler reads the node through the
root in the statistics, changes the field, and inserts the whole node later (`aclFieldStep` of its
phases), so what the writer has written in between is written back as it was read.

`WrittenLast` says that every field of the linked node has the value of the last operation that
writes that field. It holds after every step of a run if and only if each insert of the handler
finds the linked node with the fields of its copy, but for `acl` (`writtenLast_iff`).

Main definitions: `EntityOperation`, `nodeStep`, `WrittenLast`, `CopyIsCurrent`.
Main results: `writtenLast_iff`, `acl_set_reverts_state`.

Scope. All calls of Kubo succeed. A writer's call is one step with the effect of its mutation, as it
is in every interleaving of the writer's tasks (`manifestWriter_serialisable`); the statistics take
the writer's root in a step of their own. The entity is not deleted meanwhile.
-/

set_option autoImplicit false
set_option relaxedAutoImplicit false

namespace MaRuntime.Crud

open Runs Manifest

variable {Cid : Type}

/-! ### The operations on a node -/

/-- The operations that write fields of an entity's node: the calls of the writer, and the SETs and
DELETEs of the field `acl`, of which a DELETE writes the empty name. -/
inductive EntityOperation (Cid : Type)
  | setEntityState (stateCid : Cid)
  | completeEntityReload (stateCid : Option Cid)
  | setEntityBehaviour (behaviourCid : Option Cid)
  | setEntityReloadError (reason : Option String)
  | setAcl (aclName : String)

namespace EntityOperation

/-- The value an operation writes to the field `acl`, if it writes it. -/
def acl : EntityOperation Cid → Option String
  | .setAcl aclName => some aclName
  | _ => none

/-- The value an operation writes to the field `state`, if it writes it. -/
def state : EntityOperation Cid → Option (Option (IpldLink Cid))
  | .setEntityState stateCid | .completeEntityReload (some stateCid) => some (some ⟨stateCid⟩)
  | _ => none

/-- The value an operation writes to the field `behaviour`, if it writes it. -/
def behaviour : EntityOperation Cid → Option (Option (IpldLink Cid))
  | .setEntityBehaviour behaviourCid => some (behaviourCid.map IpldLink.mk)
  | _ => none

/-- The value an operation writes to the field `initialised`, if it writes it. -/
def initialised : EntityOperation Cid → Option Bool
  | .completeEntityReload _ | .setEntityBehaviour _ => some true
  | _ => none

/-- The value an operation writes to the field `reload_error`, if it writes it. -/
def reloadError : EntityOperation Cid → Option (Option String)
  | .completeEntityReload _ => some none
  | .setEntityReloadError reason => some reason
  | _ => none

end EntityOperation

/-- The value that the last of the completed operations that write a field wrote to it. -/
def lastWritten {Value : Type} (written : EntityOperation Cid → Option Value) (initial : Value)
    (completed : List (EntityOperation Cid)) : Value :=
  completed.foldl (fun value operation ↦ (written operation).getD value) initial

theorem lastWritten_append {Value : Type} (written : EntityOperation Cid → Option Value)
    (initial : Value) (completed : List (EntityOperation Cid)) (operation : EntityOperation Cid) :
    lastWritten written initial (completed ++ [operation]) =
      (written operation).getD (lastWritten written initial completed) := by
  simp only [lastWritten, List.foldl_append, List.foldl_cons, List.foldl_nil]

/-! ### The machine -/

/-- A SET or a DELETE of the field `acl` under way: a SET has its name looked up first; then the
node is read, and the copy is inserted. -/
inductive AclRequest (Cid : Type)
  | checkName (aclName : String)
  | readNode (aclName : String)
  | insertNode (aclName : String) (copy : EntityNode Cid)
  | answered

/-- The manifest at the writer's root, the manifest at the root in the statistics, the requests, and
the operations that have completed. -/
structure NodeState (Cid : Type) where
  manifest : RuntimeManifest Cid
  statsManifest : RuntimeManifest Cid
  requests : Nat → Option (AclRequest Cid)
  completed : List (EntityOperation Cid)

/-- The state before any operation. -/
def NodeState.new (manifest : RuntimeManifest Cid) : NodeState Cid :=
  ⟨manifest, manifest, fun _ ↦ none, []⟩

/-- The steps: a call of the writer, the statistics taking the writer's root, a request with a name
or without one, and the next step of a request. -/
inductive NodeAction (Cid : Type)
  | setEntityState (stateCid : Cid)
  | completeEntityReload (stateCid : Option Cid)
  | setEntityBehaviour (behaviourCid : Option Cid)
  | setEntityReloadError (reason : Option String)
  | writeStats
  | request (id : Nat) (aclName : Option String)
  | advance (id : Nat)

section Machine

variable (store : Store Cid) (name : String)

/-- A call of the writer for the entity. -/
def writerCall (s : NodeState Cid) (operation : EntityOperation Cid)
    (mutation : Mutation Cid Unit) : Option (NodeState Cid) :=
  (mutation.effect store s.manifest).map fun manifest ↦
    { s with manifest := manifest, completed := s.completed ++ [operation] }

def NodeState.setRequest (s : NodeState Cid) (id : Nat) (request : AclRequest Cid) :
    NodeState Cid :=
  { s with requests := Function.update s.requests id (some request) }

/-- The next step of a request: the name is looked up among the ACLs of the manifest,
`fetch_entity_node` reads the node, and `update_entity_node` inserts the copy with the new field. -/
def aclFieldStep (s : NodeState Cid) (id : Nat) : AclRequest Cid → Option (NodeState Cid)
  | .checkName aclName =>
    match s.statsManifest.acls.get aclName with
    | some _ => some (s.setRequest id (.readNode aclName))
    | none => some (s.setRequest id .answered)
  | .readNode aclName =>
    match s.statsManifest.entityNodeAt store name with
    | some copy => some (s.setRequest id (.insertNode aclName copy))
    | none => some (s.setRequest id .answered)
  | .insertNode aclName copy =>
    some { s.setRequest id .answered with
      manifest := s.manifest.setEntityNode store name { copy with acl := aclName }
      completed := s.completed ++ [.setAcl aclName] }
  | .answered => none

/-- One step of an interleaving of the operations on one entity. -/
def nodeStep (s : NodeState Cid) : NodeAction Cid → Option (NodeState Cid)
  | .setEntityState stateCid =>
    writerCall store s (.setEntityState stateCid) (Manifest.setEntityState name stateCid)
  | .completeEntityReload stateCid =>
    writerCall store s (.completeEntityReload stateCid)
      (Manifest.completeEntityReload name stateCid)
  | .setEntityBehaviour behaviourCid =>
    writerCall store s (.setEntityBehaviour behaviourCid)
      (Manifest.setEntityBehaviour name behaviourCid)
  | .setEntityReloadError reason =>
    writerCall store s (.setEntityReloadError reason) (Manifest.setEntityReloadError name reason)
  | .writeStats => some { s with statsManifest := s.manifest }
  | .request id aclName =>
    match s.requests id, aclName with
    | none, some aclName => some (s.setRequest id (.checkName aclName))
    | none, none => some (s.setRequest id (.readNode ""))
    | some _, _ => none
  | .advance id => (s.requests id).bind (aclFieldStep store name s id)

/-! ### The property and the condition -/

/-- Every field of a node has the value that the last of the completed operations wrote to it. -/
structure FieldsWritten (initial : EntityNode Cid) (completed : List (EntityOperation Cid))
    (node : EntityNode Cid) : Prop where
  acl : node.acl = lastWritten EntityOperation.acl initial.acl completed
  state : node.state = lastWritten EntityOperation.state initial.state completed
  behaviour : node.behaviour = lastWritten EntityOperation.behaviour initial.behaviour completed
  initialised :
    node.initialised = lastWritten EntityOperation.initialised initial.initialised completed
  reloadError :
    node.reloadError = lastWritten EntityOperation.reloadError initial.reloadError completed

/-- Every field of the linked node has the value that was last written to it. -/
def WrittenLast (initial : EntityNode Cid) (s : NodeState Cid) : Prop :=
  ∃ node, s.manifest.entityNodeAt store name = some node ∧ FieldsWritten initial s.completed node

/-- Two nodes agree on the fields that the field `acl` is not. -/
def AgreeButAcl (copy linked : EntityNode Cid) : Prop :=
  copy.state = linked.state ∧ copy.behaviour = linked.behaviour ∧
    copy.initialised = linked.initialised ∧ copy.reloadError = linked.reloadError

/-- An insert of a request finds the linked node with the fields of the request's copy, but for the
one it sets. -/
def CopyIsCurrent (s : NodeState Cid) : NodeAction Cid → Prop
  | .advance id => ∀ aclName copy linked, s.requests id = some (.insertNode aclName copy) →
      s.manifest.entityNodeAt store name = some linked → AgreeButAcl copy linked
  | _ => True

end Machine

/-! ### Steps -/

variable {store : Store Cid} {name : String} {initial : EntityNode Cid}

/-- An operation that changes the fields it writes keeps the fields as they were last written. -/
theorem FieldsWritten.append {completed : List (EntityOperation Cid)}
    {node changed : EntityNode Cid}
    (h : FieldsWritten initial completed node) (operation : EntityOperation Cid)
    (hacl : changed.acl = operation.acl.getD node.acl)
    (hstate : changed.state = operation.state.getD node.state)
    (hbehaviour : changed.behaviour = operation.behaviour.getD node.behaviour)
    (hinitialised : changed.initialised = operation.initialised.getD node.initialised)
    (hreloadError : changed.reloadError = operation.reloadError.getD node.reloadError) :
    FieldsWritten initial (completed ++ [operation]) changed where
  acl := by rw [lastWritten_append, ← h.acl, hacl]
  state := by rw [lastWritten_append, ← h.state, hstate]
  behaviour := by rw [lastWritten_append, ← h.behaviour, hbehaviour]
  initialised := by rw [lastWritten_append, ← h.initialised, hinitialised]
  reloadError := by rw [lastWritten_append, ← h.reloadError, hreloadError]

/-- A call of the writer keeps the fields as they were last written, when its update does. -/
theorem writtenLast_writerCall {s t : NodeState Cid} {operation : EntityOperation Cid}
    {update : EntityNode Cid → Option (EntityNode Cid)} (hs : WrittenLast store name initial s)
    (hupdate : ∀ node, FieldsWritten initial s.completed node →
      FieldsWritten initial (s.completed ++ [operation]) ((update node).getD node))
    (h : writerCall store s operation (.updateEntityNode name update) = some t) :
    WrittenLast store name initial t := by
  obtain ⟨node, hlinked, hfields⟩ := hs
  obtain ⟨manifest, hmanifest, rfl⟩ := Option.map_eq_some_iff.mp h
  simp only [Mutation.effect, hlinked, Option.map_some, Option.some.injEq] at hmanifest
  have hnode := hupdate node hfields
  cases hchanged : update node with
  | some changed =>
    rw [hchanged] at hmanifest hnode
    subst hmanifest
    exact ⟨changed, entityNodeAt_setEntityNode_self store _ _ _, hnode⟩
  | none =>
    rw [hchanged] at hmanifest hnode
    subst hmanifest
    exact ⟨node, hlinked, hnode⟩

/-- A step that does not insert a stale copy keeps the fields as they were last written. -/
theorem WrittenLast.step {s t : NodeState Cid} {action : NodeAction Cid}
    (hs : WrittenLast store name initial s) (hcurrent : CopyIsCurrent store name s action)
    (h : nodeStep store name s action = some t) : WrittenLast store name initial t := by
  cases action with
  | setEntityState stateCid =>
    exact writtenLast_writerCall hs (fun _ hnode ↦ hnode.append _ rfl rfl rfl rfl rfl) h
  | completeEntityReload stateCid =>
    refine writtenLast_writerCall hs (fun _ hnode ↦ hnode.append _ rfl ?_ rfl rfl rfl) h
    cases stateCid with
    | none => rfl
    | some stateCid => rfl
  | setEntityBehaviour behaviourCid =>
    exact writtenLast_writerCall hs (fun _ hnode ↦ hnode.append _ rfl rfl rfl rfl rfl) h
  | setEntityReloadError reason =>
    refine writtenLast_writerCall hs (fun node hnode ↦ ?_) h
    split_ifs with hsame
    · exact hnode.append _ rfl rfl rfl rfl hsame
    · exact hnode.append _ rfl rfl rfl rfl rfl
  | writeStats =>
    obtain rfl := Option.some.inj h
    exact hs
  | request id aclName =>
    simp only [nodeStep] at h
    split at h
    · obtain rfl := Option.some.inj h
      exact hs
    · obtain rfl := Option.some.inj h
      exact hs
    · cases h
  | advance id =>
    obtain ⟨request, hrequest, hstep⟩ := Option.bind_eq_some_iff.mp h
    cases request with
    | checkName aclName =>
      simp only [aclFieldStep] at hstep
      split at hstep
      · obtain rfl := Option.some.inj hstep
        exact hs
      · obtain rfl := Option.some.inj hstep
        exact hs
    | readNode aclName =>
      simp only [aclFieldStep] at hstep
      split at hstep
      · obtain rfl := Option.some.inj hstep
        exact hs
      · obtain rfl := Option.some.inj hstep
        exact hs
    | insertNode aclName copy =>
      obtain rfl := Option.some.inj hstep
      obtain ⟨node, hlinked, hfields⟩ := hs
      obtain ⟨hstate, hbehaviour, hinitialised, hreloadError⟩ :=
        hcurrent aclName copy node hrequest hlinked
      exact ⟨_, entityNodeAt_setEntityNode_self store _ _ _,
        hfields.append _ rfl hstate hbehaviour hinitialised hreloadError⟩
    | answered => cases hstep

/-- An insert after which the fields are as they were last written found the fields of its copy. -/
theorem copyIsCurrent_of_writtenLast {s t : NodeState Cid} {action : NodeAction Cid}
    (hs : WrittenLast store name initial s) (h : nodeStep store name s action = some t)
    (ht : WrittenLast store name initial t) : CopyIsCurrent store name s action := by
  cases action with
  | advance id =>
    intro aclName copy linked hrequest hlinked
    simp only [nodeStep, hrequest, Option.bind_some, aclFieldStep, Option.some.injEq] at h
    subst h
    obtain ⟨node, hnode, hfields⟩ := hs
    obtain rfl := Option.some.inj (hnode.symm.trans hlinked)
    obtain ⟨changed, hchanged, hafter⟩ := ht
    rw [entityNodeAt_setEntityNode_self] at hchanged
    obtain rfl := Option.some.inj hchanged
    refine ⟨?_, ?_, ?_, ?_⟩
    · exact (hafter.state.trans (lastWritten_append _ _ _ _)).trans hfields.state.symm
    · exact (hafter.behaviour.trans (lastWritten_append _ _ _ _)).trans hfields.behaviour.symm
    · exact (hafter.initialised.trans (lastWritten_append _ _ _ _)).trans hfields.initialised.symm
    · exact (hafter.reloadError.trans (lastWritten_append _ _ _ _)).trans hfields.reloadError.symm
  | setEntityState | completeEntityReload | setEntityBehaviour | setEntityReloadError | writeStats
  | request => trivial

/-! ### Runs -/

/-- Assumes: a manifest that links the entity. After every step of a run the fields of the linked
node are as they were last written, if and only if no insert of the run is of a stale copy. -/
theorem writtenLast_iff {manifest : RuntimeManifest Cid} {actions : List (NodeAction Cid)}
    {u : NodeState Cid} (hlinked : manifest.entityNodeAt store name = some initial)
    (h : Run (nodeStep store name) (.new manifest) actions u) :
    (∀ before after s, actions = before ++ after →
      Run (nodeStep store name) (.new manifest) before s → WrittenLast store name initial s) ↔
    GuardedRun (nodeStep store name) (CopyIsCurrent store name) (.new manifest) actions u := by
  have hnew : WrittenLast store name initial (.new manifest) :=
    ⟨initial, hlinked, rfl, rfl, rfl, rfl, rfl⟩
  exact guardedRun_iff_forall_prefix _ h hnew (fun _ _ _ hs hcurrent hstep ↦ hs.step hcurrent hstep)
    fun _ _ _ hs hstep ht ↦ copyIsCurrent_of_writtenLast hs hstep ht

/-- A manifest with one entity and one ACL. -/
def roomManifest : RuntimeManifest ContentCid :=
  { RuntimeManifest.default.setEntityNode contentStore "room" roomNode with
    acls := KeyedMap.empty.insert "fortune" ⟨contentStore.cidOf (.bytes [])⟩ }

/-- A SET of the field `acl` that reads after a state was set, and inserts before anything else is
written. -/
theorem writtenLast_iff_undisturbed :
    ∃ u, Run (nodeStep contentStore "room") (.new roomManifest)
        [.setEntityState (contentStore.cidOf (.bytes [1])), .writeStats,
          .request 0 (some "fortune"),
          .advance 0, .advance 0, .advance 0] u ∧
      WrittenLast contentStore "room" roomNode u := by
  have hrun : Run (nodeStep contentStore "room") (.new roomManifest)
      [.setEntityState (contentStore.cidOf (.bytes [1])), .writeStats, .request 0 (some "fortune"),
        .advance 0, .advance 0, .advance 0] _ := run_of_execute rfl
  refine ⟨_, hrun, (writtenLast_iff rfl hrun).mpr ?_ _ [] _ (List.append_nil _).symm hrun⟩
  refine .cons trivial rfl (.cons trivial rfl (.cons trivial rfl (.cons ?_ rfl (.cons ?_ rfl
    (.cons ?_ rfl (.nil _))))))
  · rintro aclName copy linked hrequest -
    cases hrequest
  · rintro aclName copy linked hrequest -
    cases hrequest
  · rintro aclName copy linked hrequest hlinked
    cases hrequest
    cases hlinked
    exact ⟨rfl, rfl, rfl, rfl⟩

/-- A SET of the field `acl` that read the node before a state was set: the state is gone. -/
theorem acl_set_reverts_state :
    ∃ u, Run (nodeStep contentStore "room") (.new roomManifest)
        [.request 0 (some "fortune"), .advance 0, .advance 0,
          .setEntityState (contentStore.cidOf (.bytes [1])), .writeStats, .advance 0] u ∧
      u.requests 0 = some .answered ∧ ¬WrittenLast contentStore "room" roomNode u := by
  refine ⟨_, run_of_execute rfl, rfl, ?_⟩
  rintro ⟨node, hlinked, hfields⟩
  cases hlinked
  have hstate := hfields.state
  cases hstate

end MaRuntime.Crud
