import MaRuntime.Library.ContentStore
import MaRuntime.Library.KeyedMap
import MaRuntime.Library.Yaml

/-!
# The documents of a runtime

The documents that a runtime keeps in IPFS and reaches from its root: the manifest, the nodes of its
entities, and byte contents such as an entity's persisted state. A manifest links each entity by
name; an entity's node links its state and its behaviour.

`entityNodeAt` follows the manifest's link of an entity to its node, and `setEntityNode` links
another node in its place.

Scope. The type of identifiers is a parameter, and the documents are identified through a
`ContentStore`. A JSON value is given as the YAML value it also is. The documents that ACLs, groups
and kinds link to are not read here.
-/

set_option autoImplicit false
set_option relaxedAutoImplicit false

namespace MaRuntime.Manifest

/-- A link to a document. -/
structure IpldLink (Cid : Type) where
  cid : Cid
deriving DecidableEq

/-- A node of the tree of kinds: a link to a kind, or a further level of the tree. -/
inductive KindTreeNode (Cid : Type)
  | leaf (link : IpldLink Cid)
  | branch (children : KeyedMap String (KindTreeNode Cid))

/-- The kinds of a runtime, by the segments of their protocol identifiers. -/
structure KindTree (Cid : Type) where
  children : KeyedMap String (KindTreeNode Cid)

/-- The persisted description of an entity. -/
structure EntityNode (Cid : Type) where
  kind : String
  behaviour : Option (IpldLink Cid)
  acl : String
  state : Option (IpldLink Cid)
  parent : Option String
  label : Option String
  attributes : KeyedMap String YamlValue
  init : Option String
  initialised : Bool
  reloadError : Option String

/-- The identifier of the state that a node links. -/
def EntityNode.stateLink {Cid : Type} (node : EntityNode Cid) : Option Cid :=
  node.state.map IpldLink.cid

/-- The root document of a runtime. -/
structure RuntimeManifest (Cid : Type) where
  acl : Option (IpldLink Cid)
  acls : KeyedMap String (IpldLink Cid)
  protocol : String
  kinds : KindTree Cid
  entities : KeyedMap String (IpldLink Cid)
  i18n : KeyedMap String (IpldLink Cid)
  grp : KeyedMap String (IpldLink Cid)
  config : KeyedMap String YamlValue

/-- What is put into IPFS. -/
inductive Document (Cid : Type)
  | manifest (manifest : RuntimeManifest Cid)
  | entityNode (node : EntityNode Cid)
  | bytes (content : List UInt8)

/-- A store of the runtime's documents. -/
abbrev Store (Cid : Type) := ContentStore (Document Cid) Cid

/-- `RuntimeManifest::default`. -/
def RuntimeManifest.default {Cid : Type} : RuntimeManifest Cid where
  acl := none
  acls := .empty
  protocol := ""
  kinds := ⟨.empty⟩
  entities := .empty
  i18n := .empty
  grp := .empty
  config := .empty

section Reading

variable {Cid : Type} (store : Store Cid)

/-- What `dag_get` reads as a manifest. -/
def manifestAt (cid : Cid) : Option (RuntimeManifest Cid) :=
  match store.document cid with
  | some (.manifest manifest) => some manifest
  | _ => none

/-- What `dag_get` reads as an entity's node. -/
def nodeAt (cid : Cid) : Option (EntityNode Cid) :=
  match store.document cid with
  | some (.entityNode node) => some node
  | _ => none

/-- What `cat_bytes` reads. -/
def bytesAt (cid : Cid) : Option (List UInt8) :=
  match store.document cid with
  | some (.bytes content) => some content
  | _ => none

@[simp] theorem manifestAt_cidOf (manifest : RuntimeManifest Cid) :
    manifestAt store (store.cidOf (.manifest manifest)) = some manifest := by
  simp [manifestAt]

@[simp] theorem nodeAt_cidOf (node : EntityNode Cid) :
    nodeAt store (store.cidOf (.entityNode node)) = some node := by
  simp [nodeAt]

@[simp] theorem bytesAt_cidOf (content : List UInt8) :
    bytesAt store (store.cidOf (.bytes content)) = some content := by
  simp [bytesAt]

/-- The node that a manifest links for an entity. -/
def RuntimeManifest.entityNodeAt (manifest : RuntimeManifest Cid) (fragment : String) :
    Option (EntityNode Cid) :=
  (manifest.entities.get fragment).bind fun link ↦ nodeAt store link.cid

/-- The manifest with another node for an entity. -/
def RuntimeManifest.setEntityNode (manifest : RuntimeManifest Cid) (fragment : String)
    (node : EntityNode Cid) : RuntimeManifest Cid :=
  { manifest with
    entities := manifest.entities.insert fragment ⟨store.cidOf (.entityNode node)⟩ }

@[simp] theorem entityNodeAt_setEntityNode_self (manifest : RuntimeManifest Cid)
    (fragment : String) (node : EntityNode Cid) :
    (manifest.setEntityNode store fragment node).entityNodeAt store fragment = some node := by
  simp [RuntimeManifest.entityNodeAt, RuntimeManifest.setEntityNode]

theorem entityNodeAt_setEntityNode_of_ne (manifest : RuntimeManifest Cid) {fragment other : String}
    (node : EntityNode Cid) (h : other ≠ fragment) :
    (manifest.setEntityNode store fragment node).entityNodeAt store other =
      manifest.entityNodeAt store other := by
  simp only [RuntimeManifest.entityNodeAt, RuntimeManifest.setEntityNode,
    KeyedMap.get_insert_of_ne _ _ h]

end Reading

/-! ### Documents that are their own identifiers -/

/-- Identifiers that are the documents they identify. -/
inductive ContentCid
  | of (document : Document ContentCid)

/-- The store in which every document is its own identifier. -/
def contentStore : Store ContentCid where
  cidOf := .of
  document | .of document => some document
  document_cidOf _ := rfl

/-- An entity without state. -/
def roomNode : EntityNode ContentCid where
  kind := "/ma/room/0.0.1"
  behaviour := none
  acl := "open"
  state := none
  parent := none
  label := none
  attributes := .empty
  init := none
  initialised := false
  reloadError := none

end MaRuntime.Manifest
