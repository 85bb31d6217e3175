import MaRuntime.Acl.Grants
import MaRuntime.Kinds.Extends
import MaRuntime.Kinds.FiniteMap

/-!
# Descriptors of runtimes

A runtime is built from a YAML descriptor, of which every part is published and linked in a manifest
(`buildManifest`), and `export_bootstrap_yaml` makes a descriptor of a manifest again, so that it
can be edited and built from. Both go through the kinds, the entities, the named ACLs, the groups
and the root ACL field by field.

Main definitions: `BootstrapRuntime`, `buildManifest`, `exportBootstrap`, `exportBootstrapYaml`.
Main results: `exists_exportBootstrap`.

Scope. The publications and pins of a build succeed. The reader and the writer of YAML come with
another crate and are parameters, and so are the bundled translations.
-/

set_option autoImplicit false
set_option relaxedAutoImplicit false

namespace MaRuntime.Bootstrap

open Acl Manifest Kinds

variable {Cid : Type}

/-! ### Documents -/

/-- What a manifest leads to, and the manifest itself. -/
inductive RuntimeDocument (Cid : Type)
  | manifest (manifest : RuntimeManifest Cid)
  | kind (node : KindNode Cid)
  | entity (node : EntityNode Cid)
  | acl (map : AclMap)
  | group (members : List String)

abbrev RuntimeStore (Cid : Type) := ContentStore (RuntimeDocument Cid) Cid

section Reading

variable (store : RuntimeStore Cid)

/-- What `dag_get` reads as a manifest. -/
def rootAt (cid : Cid) : Option (RuntimeManifest Cid) :=
  match store.document cid with
  | some (.manifest manifest) => some manifest
  | _ => none

/-- What `dag_get` reads as a kind, whose chain of behaviours is not stored. -/
def kindAt (cid : Cid) : Option (KindNode Cid) :=
  match store.document cid with
  | some (.kind node) => some { node with behaviourChain := [] }
  | _ => none

/-- What `dag_get` reads as the node of an entity. -/
def entityAt (cid : Cid) : Option (EntityNode Cid) :=
  match store.document cid with
  | some (.entity node) => some node
  | _ => none

/-- What `dag_get` reads as an ACL. -/
def aclAt (cid : Cid) : Option AclMap :=
  match store.document cid with
  | some (.acl map) => some map
  | _ => none

/-- What `dag_get` reads as a group. -/
def groupAt (cid : Cid) : Option (List String) :=
  match store.document cid with
  | some (.group members) => some members
  | _ => none

@[simp] theorem rootAt_cidOf (manifest : RuntimeManifest Cid) :
    rootAt store (store.cidOf (.manifest manifest)) = some manifest := by
  simp [rootAt]

/-- A chain of behaviours is not stored. -/
theorem kindAt_behaviourChain {store : RuntimeStore Cid} {cid : Cid} {node : KindNode Cid}
    (h : kindAt store cid = some node) : node.behaviourChain = [] := by
  unfold kindAt at h
  split at h
  · obtain rfl := Option.some.inj h
    rfl
  · cases h

@[simp] theorem kindAt_cidOf (node : KindNode Cid) :
    kindAt store (store.cidOf (.kind node)) = some { node with behaviourChain := [] } := by
  simp [kindAt]

@[simp] theorem entityAt_cidOf (node : EntityNode Cid) :
    entityAt store (store.cidOf (.entity node)) = some node := by
  simp [entityAt]

@[simp] theorem aclAt_cidOf (map : AclMap) :
    aclAt store (store.cidOf (.acl map)) = some map := by
  simp [aclAt]

@[simp] theorem groupAt_cidOf (members : List String) :
    groupAt store (store.cidOf (.group members)) = some members := by
  simp [groupAt]

end Reading

/-! ### Descriptors -/

structure BootstrapKind (Cid : Type) where
  cid : Option (IpldLink Cid)
  kindType : Plugin.Evaluator
  behaviour : Option (IpldLink Cid)
  hostFunctions : List String
  attributes : KeyedMap String YamlValue
  extendsProtocol : Option String

/-- An entity of a descriptor: a node that is published already, or what a node is made from. -/
inductive BootstrapEntity (Cid : Type)
  | cid (cid : Cid)
  | inline (kind : String) (behaviour : Option (IpldLink Cid)) (acl : String)
      (state : Option (IpldLink Cid)) (attributes : KeyedMap String YamlValue)
      (init : Option String)

structure BootstrapRuntime (Cid : Type) where
  kinds : KeyedMap String (BootstrapKind Cid)
  acl : Option AclMap
  entities : KeyedMap String (BootstrapEntity Cid)
  acls : KeyedMap String AclMap
  grp : KeyedMap String (List String)

structure BootstrapYaml (Cid : Type) where
  runtime : BootstrapRuntime Cid

/-- A writer and a reader of descriptors. -/
structure YamlCodec (Cid : Type) where
  toText : BootstrapYaml Cid → Except String String
  fromText : String → Except String (BootstrapYaml Cid)

/-! ### Builds -/

section Builds

variable (store : RuntimeStore Cid)

/-- The node of a kind of a descriptor. -/
def kindNodeOf (protocol : String) (bk : BootstrapKind Cid) : KindNode Cid where
  protocol := protocol
  cid := bk.cid
  kindType := bk.kindType
  behaviour := bk.behaviour
  behaviourChain := []
  hostFunctions := bk.hostFunctions
  attributes := bk.attributes
  extendsProtocol := bk.extendsProtocol

/-- The kinds of a descriptor with their published nodes, in the order of their identifiers. -/
def publishedKinds (kinds : KeyedMap String (BootstrapKind Cid)) :
    List (String × IpldLink Cid) :=
  ((kinds.entries.map Prod.fst).mergeSort fun first second ↦ decide (first ≤ second)).filterMap
    fun protocol ↦ (kinds.get protocol).map fun bk ↦
      (protocol, ⟨store.cidOf (.kind (kindNodeOf protocol bk))⟩)

/-- `publish_kinds` -/
def publishKinds (kinds : KeyedMap String (BootstrapKind Cid)) : KindTree Cid :=
  KindTree.insertAll ⟨.empty⟩ (publishedKinds store kinds)

/-- The loop body of `publish_entities`, for a descriptor with these named ACLs. -/
def publishEntity (acls : KeyedMap String AclMap) (name : String) :
    BootstrapEntity Cid → Except String (IpldLink Cid)
  | .cid cid => .ok ⟨cid⟩
  | .inline kind behaviour acl state attributes init =>
    if acl ≠ "" ∧ (acls.get acl).isNone then
      .error <| s!"entity '{name}' references unknown ACL '{acl}' (available: " ++
        ", ".intercalate (acls.entries.map Prod.fst) ++ ")"
    else
      let node : EntityNode Cid := {
        kind := kind
        behaviour := behaviour
        acl := acl
        state := state
        parent := none
        label := none
        attributes := attributes
        init := init
        initialised := false
        reloadError := none }
      .ok ⟨store.cidOf (.entity node)⟩

/-- `publish_entities` -/
def publishEntities (cfg : BootstrapRuntime Cid) :
    Except String (KeyedMap String (IpldLink Cid)) :=
  cfg.entities.traverse (publishEntity store cfg.acls)

/-- `publish_named_acls` -/
def publishNamedAcls (cfg : BootstrapRuntime Cid) : KeyedMap String (IpldLink Cid) :=
  cfg.acls.filterMap fun _ acl ↦ some ⟨store.cidOf (.acl acl)⟩

/-- `publish_groups` -/
def publishGroups (cfg : BootstrapRuntime Cid) : KeyedMap String (IpldLink Cid) :=
  cfg.grp.filterMap fun _ members ↦ some ⟨store.cidOf (.group members)⟩

/-- `publish_root_acl`: the owners are granted everything. -/
def publishRootAcl (cfg : BootstrapRuntime Cid) : IpldLink Cid :=
  ⟨store.cidOf (.acl (grantOwners (cfg.acl.getD .empty) ((cfg.grp.get "owners").getD [])))⟩

/-- The manifest of a build, with the published entities. -/
def manifestOf (cfg : BootstrapRuntime Cid) (runtimeConfig : KeyedMap String YamlValue)
    (bundled : KeyedMap String (IpldLink Cid)) (activeLang : String)
    (entities : KeyedMap String (IpldLink Cid)) : RuntimeManifest Cid where
  acl := some (publishRootAcl store cfg)
  acls := publishNamedAcls store cfg
  protocol := "/ma/runtime/0.1.0"
  kinds := publishKinds store cfg.kinds
  entities := entities
  i18n := bundled
  grp := publishGroups store cfg
  config :=
    if (bundled.get activeLang).isSome then runtimeConfig.insert "i18n" (.string activeLang)
    else runtimeConfig

/-- `build_manifest`: the identifier of the new root. -/
def buildManifest (cfg : BootstrapRuntime Cid) (runtimeConfig : KeyedMap String YamlValue)
    (bundled : KeyedMap String (IpldLink Cid)) (activeLang : String) : Except String Cid := do
  let entities ← publishEntities store cfg
  return store.cidOf (.manifest (manifestOf store cfg runtimeConfig bundled activeLang entities))

end Builds

/-! ### Exports -/

section Exports

variable (store : RuntimeStore Cid)

/-- What is made of the document that each link leads to. The failure names the first link whose
document cannot be fetched. -/
def fetchEach {Content Result : Type} (context : String → String) (read : Cid → Option Content)
    (f : Content → Result) (links : KeyedMap String (IpldLink Cid)) :
    Except String (KeyedMap String Result) :=
  links.traverse fun name link ↦
    match read link.cid with
    | some content => .ok (f content)
    | none => .error (context name)

/-- The links of a tree of kinds, by their identifiers. -/
def kindLinks (m : RuntimeManifest Cid) : KeyedMap String (IpldLink Cid) := ⟨m.kinds.iterProtocols⟩

def exportKind (node : KindNode Cid) : BootstrapKind Cid where
  cid := node.cid
  kindType := node.kindType
  behaviour := node.behaviour
  hostFunctions := node.hostFunctions
  attributes := node.attributes
  extendsProtocol := node.extendsProtocol

def exportEntity (node : EntityNode Cid) : BootstrapEntity Cid :=
  .inline node.kind node.behaviour node.acl node.state node.attributes node.init

/-- The root ACL of an export. -/
def exportRootAcl (m : RuntimeManifest Cid) : Except String (Option AclMap) :=
  match m.acl with
  | none => .ok none
  | some link =>
    match aclAt store link.cid with
    | some acl => .ok (some acl)
    | none => .error "fetching root acl"

/-- The descriptor of a manifest. -/
def exportBootstrap (m : RuntimeManifest Cid) : Except String (BootstrapRuntime Cid) := do
  let kinds ← fetchEach ("fetching kind " ++ ·) (kindAt store) exportKind (kindLinks m)
  let entities ← fetchEach ("fetching entity " ++ ·) (entityAt store) exportEntity m.entities
  let acls ← fetchEach ("fetching acl " ++ ·) (aclAt store) id m.acls
  let grp ← fetchEach ("fetching group " ++ ·) (groupAt store) id m.grp
  let acl ← exportRootAcl store m
  return ⟨kinds, acl, entities, acls, grp⟩

/-- `export_bootstrap_yaml` -/
def exportBootstrapYaml (codec : YamlCodec Cid) (rootCid : Cid) : Except String String :=
  match rootAt store rootCid with
  | none => .error "fetching root manifest"
  | some m => do
    let runtime ← exportBootstrap store m
    withContext "serializing bootstrap YAML" (codec.toText ⟨runtime⟩)

/-! ### What an export has -/

/-- Every link of a manifest leads to a document that can be fetched. -/
structure Fetchable (m : RuntimeManifest Cid) : Prop where
  kinds : ∀ protocol link, m.kinds.getProtocol protocol = some link →
    (kindAt store link.cid).isSome
  entities : ∀ name link, m.entities.get name = some link → (entityAt store link.cid).isSome
  acls : ∀ name link, m.acls.get name = some link → (aclAt store link.cid).isSome
  grp : ∀ name link, m.grp.get name = some link → (groupAt store link.cid).isSome
  acl : ∀ link, m.acl = some link → (aclAt store link.cid).isSome

/-- A descriptor has what the links of a manifest lead to. -/
structure Describes (m : RuntimeManifest Cid) (runtime : BootstrapRuntime Cid) : Prop where
  kinds : ∀ protocol, runtime.kinds.get protocol =
    (((kindLinks m).get protocol).bind fun link ↦ kindAt store link.cid).map exportKind
  entities : ∀ name, runtime.entities.get name =
    ((m.entities.get name).bind fun link ↦ entityAt store link.cid).map exportEntity
  acls : ∀ name, runtime.acls.get name = (m.acls.get name).bind fun link ↦ aclAt store link.cid
  grp : ∀ name, runtime.grp.get name = (m.grp.get name).bind fun link ↦ groupAt store link.cid
  acl : runtime.acl = m.acl.bind fun link ↦ aclAt store link.cid

variable {store} {m : RuntimeManifest Cid}

theorem exists_fetchEach {Content Result : Type} {read : Cid → Option Content}
    {links : KeyedMap String (IpldLink Cid)}
    (h : ∀ name link, links.get name = some link → (read link.cid).isSome)
    (context : String → String) (f : Content → Result) :
    ∃ made, fetchEach context read f links = .ok made ∧
      ∀ name, made.get name = ((links.get name).bind fun link ↦ read link.cid).map f := by
  have hread : ∀ name link, links.get name = some link → ∃ result : Result,
      (match read link.cid with
        | some content => .ok (f content)
        | none => .error (context name) : Except String Result) = .ok result := by
    intro name link hlink
    obtain ⟨content, hcontent⟩ := Option.isSome_iff_exists.mp (h name link hlink)
    exact ⟨f content, by rw [hcontent]⟩
  obtain ⟨made, hmade⟩ := KeyedMap.exists_traverse_iff.mpr hread
  refine ⟨made, hmade, fun name ↦ ?_⟩
  have hget := KeyedMap.get_traverse hmade name
  cases hlink : links.get name with
  | none =>
    rw [hlink] at hget
    exact Option.map_eq_none_iff.mp hget
  | some link =>
    obtain ⟨content, hcontent⟩ := Option.isSome_iff_exists.mp (h name link hlink)
    rw [hlink, Option.map_some, hcontent] at hget
    obtain ⟨result, hresult, heq⟩ := Option.map_eq_some_iff.mp hget
    rw [hresult, Except.ok.inj heq]
    simp [hcontent]

/-- The links by identifier are those of the tree, for the identifiers that the tree lists. -/
theorem get_kindLinks {protocol : String} {link : IpldLink Cid} :
    (kindLinks m).get protocol = some link ↔
      protocol ∈ m.kinds.protocolIds ∧ m.kinds.getProtocol protocol = some link := by
  constructor
  · intro h
    exact KindTree.mem_iterProtocols.mp (KeyedMap.mem_of_get h)
  · intro h
    obtain ⟨found, hfound⟩ := KeyedMap.mem_keys_iff.mp
      (List.mem_map_of_mem (KindTree.mem_iterProtocols.mpr h))
    have hlisted := KindTree.mem_iterProtocols.mp (KeyedMap.mem_of_get hfound)
    exact hfound.trans (hlisted.2.symm.trans h.2)

/-- A manifest all of whose links can be fetched is exported. -/
theorem exists_exportBootstrap (h : Fetchable store m) :
    ∃ runtime, exportBootstrap store m = .ok runtime ∧ Describes store m runtime := by
  have hlisted : ∀ protocol link, (kindLinks m).get protocol = some link →
      (kindAt store link.cid).isSome := fun protocol link hlink ↦
    h.kinds protocol link (get_kindLinks.mp hlink).2
  obtain ⟨kinds, hkinds, hgetKinds⟩ := exists_fetchEach hlisted ("fetching kind " ++ ·) exportKind
  obtain ⟨entities, hentities, hgetEntities⟩ := exists_fetchEach h.entities
    ("fetching entity " ++ ·) exportEntity
  obtain ⟨acls, hacls, hgetAcls⟩ := exists_fetchEach h.acls ("fetching acl " ++ ·) id
  obtain ⟨grp, hgrp, hgetGrp⟩ := exists_fetchEach h.grp ("fetching group " ++ ·) id
  have hacl : exportRootAcl store m = .ok (m.acl.bind fun link ↦ aclAt store link.cid) := by
    unfold exportRootAcl
    cases hlink : m.acl with
    | none => rfl
    | some link =>
      obtain ⟨acl, hfound⟩ := Option.isSome_iff_exists.mp (h.acl link hlink)
      simp [hfound]
  refine ⟨⟨kinds, m.acl.bind fun link ↦ aclAt store link.cid, entities, acls, grp⟩, ?_,
    hgetKinds, hgetEntities, ?_, ?_, rfl⟩
  · simp only [exportBootstrap, hkinds, hentities, hacls, hgrp, hacl]
    rfl
  · intro name
    simpa using hgetAcls name
  · intro name
    simpa using hgetGrp name

end Exports

end MaRuntime.Bootstrap
