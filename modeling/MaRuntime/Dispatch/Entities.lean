import MaRuntime.Dispatch.Delivery
import MaRuntime.Manifest.Writer
import MaRuntime.Plugin.Load

/-!
# The entities of a runtime and what a request makes of them

The registry of live entities, the nodes that the manifest links for its entities, and the kinds
that can be loaded (`EntityStores`). A plugin asks for an entity to be created or deleted, or for
another behaviour; what it asked for is carried out after its `on_message`.

Here is what does not depend on how the message was delivered: the node of an entity that is created
(`createdNode`), the entity that runs and the node that is kept for it (`pluginOf`, `runningNode`),
and who may delete what (`mayDelete`).

Scope. The manifest's links are given by the nodes they lead to, and what a load, a call of Kubo or
the manifest writer answers is a parameter. `IpldLink::new` makes an identifier of a text,
`cidOfText`.
-/

set_option autoImplicit false
set_option relaxedAutoImplicit false

namespace MaRuntime.Dispatch

open Manifest
open Plugin (CreateEntityRequest SetBehaviourRequest DispatchResult KindNode LoadAttempt
  LoadedPlugin)

/-- The live entities, the nodes of the manifest's entities, and the kinds. -/
structure EntityStores (Cid : Type) where
  registry : KeyedMap String EntityPlugin
  nodes : KeyedMap String (EntityNode Cid)
  kindRegistry : KeyedMap String (KindNode Cid)

section Entities

variable {Cid : Type}

/-! ### Nodes -/

def normalizeBehaviourCid (value : String) : Except String String :=
  let trimmed := trim value
  if trimmed.isEmpty then .error "behaviour reference is empty"
  else
    match stripPrefix "/ipfs/" trimmed with
    | some cid =>
      if cid.isEmpty then .error "/ipfs/ behaviour reference is missing a CID" else .ok cid
    | none =>
      if (stripPrefix "/ipns/" trimmed).isSome then
        .error
          "/ipns/ behaviour references are not supported here; publish the code to /ipfs/<cid> first"
      else .ok trimmed

/-- The behaviour of a request, if it has one. -/
def requestedBehaviour : Option String → Except String (Option String)
  | none => .ok none
  | some value => (normalizeBehaviourCid value).map some

/-- The node of an entity that is created at the request of another. -/
def createdNode (cidOfText : String → Cid) (req : CreateEntityRequest) (behaviour : Option String)
    (caller : EntityPlugin) : EntityNode Cid where
  kind := req.kindProtocol
  behaviour := behaviour.map fun cid ↦ ⟨cidOfText cid⟩
  acl := caller.acl
  state := none
  parent := some caller.fragment
  label := none
  attributes := .empty
  init := none
  initialised := false
  reloadError := none

/-- The node of an entity that runs, with the state that was saved after its load. -/
def runningNode (node : EntityNode Cid) (saved : Option Cid) : EntityNode Cid :=
  { node with
    initialised := true
    state := match saved with
      | some cid => some ⟨cid⟩
      | none => node.state }

/-- The live entity of a node. -/
def pluginOf (fragment : String) (node : EntityNode Cid) : EntityPlugin :=
  ⟨fragment, node.acl, node.parent, false⟩

/-- `trigger_save` of a plugin that was just loaded. -/
def triggerSave (store : Store Cid) (loaded : LoadedPlugin) (added : Bool) : Option Cid :=
  if added then loaded.plugin.thread.state.pending.map (Plugin.stateCid store) else none

/-- `update_entity_node`, which fails for a reason of Kubo's or for want of the entity. -/
def updateEntityNode (nodes : KeyedMap String (EntityNode Cid)) (fragment : String)
    (failure : Option String) (update : EntityNode Cid → EntityNode Cid) :
    Except String (KeyedMap String (EntityNode Cid)) :=
  match failure, nodes.get fragment with
  | some reason, _ => .error reason
  | none, none => .error ("entity '" ++ fragment ++ "' is not in the manifest")
  | none, some node => .ok (nodes.insert fragment (update node))

/-- The nodes after an update that may fail. -/
def tryUpdate (nodes : KeyedMap String (EntityNode Cid)) (fragment : String)
    (failure : Option String) (update : EntityNode Cid → EntityNode Cid) :
    KeyedMap String (EntityNode Cid) :=
  match updateEntityNode nodes fragment failure update with
  | .ok nodes => nodes
  | .error _ => nodes

/-- An update links no entity that was not linked. -/
theorem get_tryUpdate_eq_none {nodes : KeyedMap String (EntityNode Cid)} {fragment other : String}
    {failure : Option String} {update : EntityNode Cid → EntityNode Cid} :
    (tryUpdate nodes fragment failure update).get other = none ↔ nodes.get other = none := by
  unfold tryUpdate updateEntityNode
  cases failure with
  | some reason => rfl
  | none =>
    cases hnode : nodes.get fragment with
    | none => rfl
    | some node =>
      dsimp only
      rw [KeyedMap.get_insert]
      by_cases hother : other = fragment
      · rw [if_pos hother, hother, hnode]
        simp
      · rw [if_neg hother]

/-! ### Deletions -/

/-- The caller may delete an entity that is its child or itself, and that has no children. -/
def mayDelete (registry : KeyedMap String EntityPlugin) (caller : EntityPlugin) (target : String) :
    Bool :=
  match registry.get target with
  | none => false
  | some found =>
    (found.parent = some caller.fragment || target = caller.fragment) &&
      !registry.entries.any fun entry ↦
        (registry.get entry.1).any fun child ↦ child.parent = some target

theorem isSome_of_mayDelete {registry : KeyedMap String EntityPlugin} {caller : EntityPlugin}
    {target : String} (h : mayDelete registry caller target = true) :
    (registry.get target).isSome = true := by
  unfold mayDelete at h
  cases hfound : registry.get target with
  | none =>
    rw [hfound] at h
    cases h
  | some found => rfl

/-- One deletion of `process_entity_delete_requests`. -/
def deleteEntity (registry : KeyedMap String EntityPlugin) (caller : EntityPlugin)
    (target : String) : KeyedMap String EntityPlugin :=
  if mayDelete registry caller target then registry.remove target else registry

end Entities

/-- The identifier of a text, in the store of documents. -/
def textCid (text : String) : ContentCid := .of (.bytes text.toUTF8.toList)

end MaRuntime.Dispatch
