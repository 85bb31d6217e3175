import MaRuntime.Bootstrap.Export

/-!
# Exports that lose nothing

A manifest is exported, the descriptor is read again, and a manifest is built from it. `Lossless`
says that all of this succeeds and that the two manifests have the same kinds, entities, named ACLs,
groups and root ACL, as far as documents go.

Groups and named ACLs always come back. A descriptor has no place for the parent, the label and the
flag `initialised` of an entity, names a kind by where it stands in the tree, and is built with
grants to the owners in the root ACL; and a build refuses an entity whose ACL it does not find among
the named ones. `lossless_iff` says of which manifests an export loses nothing.

Main definitions: `SameRuntime`, `Lossless`, `Exportable`.
Main results: `lossless_iff`, `initialised_lost`.

Scope. That of `MaRuntime.Bootstrap.Export`. The tree of kinds is one that insertions and removals
lead to, and every link of the manifest can be fetched.
-/

set_option autoImplicit false
set_option relaxedAutoImplicit false

namespace MaRuntime.Bootstrap

open Acl Manifest Kinds Runs

variable {Cid : Type} (store : RuntimeStore Cid)

/-! ### The property and the condition -/

/-- A node without the reason why its entity was not reloaded, which no descriptor has. -/
def withoutReloadError (node : EntityNode Cid) : EntityNode Cid := { node with reloadError := none }

/-- Two manifests link the same documents, under the same names. -/
structure SameRuntime (m other : RuntimeManifest Cid) : Prop where
  kinds : ∀ protocol, (other.kinds.getProtocol protocol).map (fun link ↦ kindAt store link.cid) =
    (m.kinds.getProtocol protocol).map fun link ↦ kindAt store link.cid
  entities : ∀ name,
    (other.entities.get name).map (fun link ↦ (entityAt store link.cid).map withoutReloadError) =
      (m.entities.get name).map fun link ↦ (entityAt store link.cid).map withoutReloadError
  acls : ∀ name, (other.acls.get name).map (fun link ↦ aclAt store link.cid) =
    (m.acls.get name).map fun link ↦ aclAt store link.cid
  grp : ∀ name, (other.grp.get name).map (fun link ↦ groupAt store link.cid) =
    (m.grp.get name).map fun link ↦ groupAt store link.cid
  acl : other.acl.map (fun link ↦ (aclAt store link.cid).map AclMap.get) =
    m.acl.map fun link ↦ (aclAt store link.cid).map AclMap.get

/-- A manifest is exported and built again, and comes back as it was. -/
def Lossless (codec : YamlCodec Cid) (runtimeConfig : KeyedMap String YamlValue)
    (bundled : KeyedMap String (IpldLink Cid)) (activeLang : String) (rootCid : Cid)
    (m : RuntimeManifest Cid) : Prop :=
  ∃ text yaml newRoot other, exportBootstrapYaml store codec rootCid = .ok text ∧
    codec.fromText text = .ok yaml ∧
    buildManifest store yaml.runtime runtimeConfig bundled activeLang = .ok newRoot ∧
    rootAt store newRoot = some other ∧ SameRuntime store m other

/-- The members of the owners' group. -/
def ownersOf (m : RuntimeManifest Cid) : List String :=
  ((m.grp.get "owners").bind fun link ↦ groupAt store link.cid).getD []

/-- A descriptor has room for all that a manifest links, and a build takes it. -/
structure Exportable (m : RuntimeManifest Cid) : Prop where
  kinds : ∀ protocol link node, IsId protocol → m.kinds.getProtocol protocol = some link →
    kindAt store link.cid = some node → node.protocol = protocol
  entities : ∀ name link node, m.entities.get name = some link →
    entityAt store link.cid = some node →
      node.parent = none ∧ node.label = none ∧ node.initialised = false
  named : ∀ name link node, m.entities.get name = some link →
    entityAt store link.cid = some node → node.acl = "" ∨ (m.acls.get node.acl).isSome
  acl : ∃ link acl, m.acl = some link ∧ aclAt store link.cid = some acl ∧
    ∀ owner ∈ ownersOf store m, acl.get owner = some .everything

/-! ### What is published again -/

variable {store} {m : RuntimeManifest Cid} {runtime : BootstrapRuntime Cid}

/-- What links lead to when the documents that they led to are published again in another form. -/
theorem map_read_of_republished {Content : Type} {read : Cid → Option Content}
    {publish : Content → IpldLink Cid} {remade : Content → Content}
    (hread : ∀ content, read (publish content).cid = some (remade content))
    {before after : Option (IpldLink Cid)}
    (hafter : after = (before.bind fun link ↦ read link.cid).map publish)
    (hfetch : ∀ link, before = some link → (read link.cid).isSome) :
    after.map (fun link ↦ read link.cid) = before.map fun link ↦ (read link.cid).map remade := by
  rw [hafter]
  cases hbefore : before with
  | none => rfl
  | some link =>
    obtain ⟨content, hcontent⟩ := Option.isSome_iff_exists.mp (hfetch link hbefore)
    simp [hcontent, hread]

/-- What a build makes of the node of an exported entity. -/
def rebuilt (node : EntityNode Cid) : EntityNode Cid :=
  { node with parent := none, label := none, initialised := false, reloadError := none }

theorem withoutReloadError_rebuilt_iff {node : EntityNode Cid} :
    withoutReloadError (rebuilt node) = withoutReloadError node ↔
      node.parent = none ∧ node.label = none ∧ node.initialised = false := by
  constructor
  · intro h
    refine ⟨?_, ?_, ?_⟩
    · exact (congrArg EntityNode.parent h).symm
    · exact (congrArg EntityNode.label h).symm
    · exact (congrArg EntityNode.initialised h).symm
  · rintro ⟨hparent, hlabel, hinitialised⟩
    simp only [withoutReloadError, rebuilt, hparent, hlabel, hinitialised]

/-- An exported entity is published if and only if its ACL is found. -/
theorem publishEntity_exportEntity {acls : KeyedMap String AclMap} {name : String}
    {node : EntityNode Cid} {link : IpldLink Cid} :
    publishEntity store acls name (exportEntity node) = .ok link ↔
      (node.acl = "" ∨ (acls.get node.acl).isSome) ∧
        link = ⟨store.cidOf (.entity (rebuilt node))⟩ := by
  unfold publishEntity exportEntity
  dsimp only
  split_ifs with hunknown
  · refine iff_of_false ?_ ?_
    · intro h
      cases h
    · rintro ⟨hempty | hfound, -⟩
      · exact hunknown.1 hempty
      · rw [Option.isNone_iff_eq_none] at hunknown
        rw [hunknown.2] at hfound
        cases hfound
  · rw [not_and_or, not_not, Option.isNone_iff_eq_none, ← ne_eq, ← Option.isSome_iff_ne_none]
      at hunknown
    rw [Except.ok.injEq]
    exact ⟨fun h ↦ ⟨hunknown, h.symm⟩, fun h ↦ h.2.symm⟩

theorem Describes.isSome_acls (h : Describes store m runtime) (hlinks : Fetchable store m)
    (name : String) : (runtime.acls.get name).isSome ↔ (m.acls.get name).isSome := by
  rw [h.acls]
  cases hlink : m.acls.get name with
  | none => rfl
  | some link => simpa using hlinks.acls name link hlink

/-- The entities of a descriptor are published if and only if their ACLs are found. -/
theorem exists_publishEntities_iff (h : Describes store m runtime) (hlinks : Fetchable store m) :
    (∃ entities, publishEntities store runtime = .ok entities) ↔
      ∀ name link node, m.entities.get name = some link → entityAt store link.cid = some node →
        node.acl = "" ∨ (m.acls.get node.acl).isSome := by
  unfold publishEntities
  rw [KeyedMap.exists_traverse_iff]
  constructor
  · intro hpublished name link node hlink hnode
    have hentity : runtime.entities.get name = some (exportEntity node) := by
      rw [h.entities, hlink, Option.bind_some, hnode, Option.map_some]
    obtain ⟨result, hresult⟩ := hpublished name (exportEntity node) hentity
    rw [← h.isSome_acls hlinks]
    exact (publishEntity_exportEntity.mp hresult).1
  · intro hnamed name entity hentity
    rw [h.entities] at hentity
    obtain ⟨node, hnode, rfl⟩ := Option.map_eq_some_iff.mp hentity
    obtain ⟨link, hlink, hread⟩ := Option.bind_eq_some_iff.mp hnode
    refine ⟨_, publishEntity_exportEntity.mpr ⟨?_, rfl⟩⟩
    rw [h.isSome_acls hlinks]
    exact hnamed name link node hlink hread

theorem get_publishEntities (h : Describes store m runtime)
    {entities : KeyedMap String (IpldLink Cid)}
    (hentities : publishEntities store runtime = .ok entities) (name : String) :
    entities.get name = ((m.entities.get name).bind fun link ↦ entityAt store link.cid).map
      fun node ↦ ⟨store.cidOf (.entity (rebuilt node))⟩ := by
  have hget := KeyedMap.get_traverse hentities name
  rw [h.entities] at hget
  cases hnode : (m.entities.get name).bind fun link ↦ entityAt store link.cid with
  | none =>
    rw [hnode] at hget
    exact Option.map_eq_none_iff.mp hget
  | some node =>
    rw [hnode, Option.map_some, Option.map_some] at hget
    obtain ⟨link, hlink, hpublished⟩ := Option.map_eq_some_iff.mp hget
    rw [hlink, (publishEntity_exportEntity.mp hpublished.symm).2]
    rfl

/-! ### Kinds -/

section KindTrees

variable {ops : List (KindTreeOp Cid)}

/-- The kinds that are published again are those that the tree lists. -/
theorem mem_publishedKinds (h : Describes store m runtime) {protocol : String}
    {published : IpldLink Cid} :
    (protocol, published) ∈ publishedKinds store runtime.kinds ↔
      ∃ link node, (kindLinks m).get protocol = some link ∧ kindAt store link.cid = some node ∧
        published = ⟨store.cidOf (.kind (kindNodeOf protocol (exportKind node)))⟩ := by
  unfold publishedKinds
  rw [List.mem_filterMap]
  constructor
  · rintro ⟨key, -, hkey⟩
    obtain ⟨bk, hbk, heq⟩ := Option.map_eq_some_iff.mp hkey
    obtain ⟨rfl, rfl⟩ := Prod.mk.inj heq
    rw [h.kinds] at hbk
    obtain ⟨node, hnode, rfl⟩ := Option.map_eq_some_iff.mp hbk
    obtain ⟨link, hlink, hread⟩ := Option.bind_eq_some_iff.mp hnode
    exact ⟨link, node, hlink, hread, rfl⟩
  · rintro ⟨link, node, hlink, hnode, rfl⟩
    have hbk : runtime.kinds.get protocol = some (exportKind node) := by
      rw [h.kinds, hlink, Option.bind_some, hnode, Option.map_some]
    refine ⟨protocol, List.mem_mergeSort.mpr (KeyedMap.mem_keys_iff.mpr ⟨_, hbk⟩), ?_⟩
    rw [hbk, Option.map_some]

/-- What a text leads to is listed under the identifier that it is read as. -/
theorem get_kindLinks_protocolId {protocol : String} {link : IpldLink Cid}
    (h : m.kinds.getProtocol protocol = some link) :
    (kindLinks m).get (protocolId (segments protocol)) = some link := by
  have hcanonical := segments_protocolId_segments protocol
  have hget : m.kinds.getProtocol (protocolId (segments protocol)) = some link :=
    (KindTree.getProtocol_congr hcanonical).trans h
  have hid : IsId (protocolId (segments protocol)) := congrArg protocolId hcanonical
  exact get_kindLinks.mpr ⟨KindTree.mem_protocolIds hid hget, hget⟩

theorem beside_publishedKinds (h : Describes store m runtime)
    (hkinds : Run kindTreeStep ⟨.empty⟩ ops m.kinds) :
    KindTree.Beside (publishedKinds store runtime.kinds) := by
  rintro ⟨first, published⟩ hfirst ⟨second, published'⟩ hsecond hunder
  obtain ⟨link, node, hlink, hnode, rfl⟩ := (mem_publishedKinds h).mp hfirst
  obtain ⟨link', node', hlink', hnode', rfl⟩ := (mem_publishedKinds h).mp hsecond
  have hlisted := get_kindLinks.mp hlink
  have hlisted' := get_kindLinks.mp hlink'
  have hsegments : segments first = segments second :=
    (KindTree.beside_iterProtocols m.kinds _ (KindTree.mem_iterProtocols.mpr hlisted) _
      (KindTree.mem_iterProtocols.mpr hlisted') hunder).1
  obtain rfl := (isId_of_run hkinds hlisted.1).eq (isId_of_run hkinds hlisted'.1) hsegments
  obtain rfl := Option.some.inj (hlink.symm.trans hlink')
  obtain rfl := Option.some.inj (hnode.symm.trans hnode')
  exact ⟨rfl, rfl⟩

/-- What is found in the tree that is built again, under the identifier that a text is read as. -/
theorem getProtocol_publishKinds (h : Describes store m runtime) (hlinks : Fetchable store m)
    (hkinds : Run kindTreeStep ⟨.empty⟩ ops m.kinds) (protocol : String) :
    (publishKinds store runtime.kinds).getProtocol protocol =
      ((m.kinds.getProtocol protocol).bind fun link ↦ kindAt store link.cid).map fun node ↦
        ⟨store.cidOf (.kind (kindNodeOf (protocolId (segments protocol)) (exportKind node)))⟩ := by
  have hbeside := beside_publishedKinds h hkinds
  have hopen (id : String) : KindTree.IsOpenFor (⟨.empty⟩ : KindTree Cid) id :=
    fun above _ _ ↦ kindTreeGet_empty above
  cases hlink : m.kinds.getProtocol protocol with
  | some link =>
    obtain ⟨node, hnode⟩ := Option.isSome_iff_exists.mp (hlinks.kinds protocol link hlink)
    have hentry := (mem_publishedKinds h).mpr
      ⟨link, node, get_kindLinks_protocolId hlink, hnode, rfl⟩
    have hcanonical := (segments_protocolId_segments protocol).symm
    refine (KindTree.getProtocol_insertAll_self hbeside hentry (hopen _) hcanonical).trans ?_
    rw [Option.bind_some, hnode, Option.map_some]
  | none =>
    by_cases hunder : ∃ entry ∈ publishedKinds store runtime.kinds,
        segments entry.1 <+: segments protocol
    · obtain ⟨⟨above, published⟩, hentry, habove⟩ := hunder
      have hne : segments above ≠ segments protocol := by
        intro heq
        obtain ⟨link, node, habove, -⟩ := (mem_publishedKinds h).mp hentry
        have hfound := (get_kindLinks.mp habove).2
        rw [KindTree.getProtocol_congr heq, hlink] at hfound
        cases hfound
      exact KindTree.getProtocol_insertAll_below hbeside hentry (hopen _) habove hne
    · refine (KindTree.getProtocol_insertAll_of_not_under fun entry hentry habove ↦
        hunder ⟨entry, hentry, habove⟩).trans ?_
      exact kindTreeGet_empty _

/-- The kinds come back if and only if each of them names itself by its identifier. -/
theorem sameKinds_iff (h : Describes store m runtime) (hlinks : Fetchable store m)
    (hkinds : Run kindTreeStep ⟨.empty⟩ ops m.kinds) :
    (∀ protocol,
        ((publishKinds store runtime.kinds).getProtocol protocol).map
          (fun link ↦ kindAt store link.cid) =
        (m.kinds.getProtocol protocol).map fun link ↦ kindAt store link.cid) ↔
      ∀ protocol link node, IsId protocol → m.kinds.getProtocol protocol = some link →
        kindAt store link.cid = some node → node.protocol = protocol := by
  have hremade (protocol : String) :
      ((publishKinds store runtime.kinds).getProtocol protocol).map
          (fun link ↦ kindAt store link.cid) =
        (m.kinds.getProtocol protocol).map fun link ↦ (kindAt store link.cid).map fun node ↦
          kindNodeOf (protocolId (segments protocol)) (exportKind node) :=
    map_read_of_republished (fun node ↦ kindAt_cidOf store _)
      (getProtocol_publishKinds h hlinks hkinds protocol) (hlinks.kinds protocol)
  constructor
  · intro hsame protocol link node hid hlink hnode
    have heq := (hremade protocol).symm.trans (hsame protocol)
    rw [hlink, Option.map_some, Option.map_some, hnode, Option.map_some, hid] at heq
    exact congrArg (fun node ↦ node.protocol) (Option.some.inj (Option.some.inj heq)).symm
  · intro hnamed protocol
    rw [hremade]
    cases hlink : m.kinds.getProtocol protocol with
    | none => rfl
    | some link =>
      obtain ⟨node, hnode⟩ := Option.isSome_iff_exists.mp (hlinks.kinds protocol link hlink)
      have hcanonical := segments_protocolId_segments protocol
      have hid := (get_kindLinks.mp (get_kindLinks_protocolId hlink)).2
      have hprotocol := hnamed _ link node (congrArg protocolId hcanonical) hid hnode
      have hchain : node.behaviourChain = [] := kindAt_behaviourChain hnode
      rw [Option.map_some, Option.map_some, hnode, Option.map_some, ← hprotocol, kindNodeOf,
        exportKind]
      simp only [← hchain]

end KindTrees

/-! ### The root ACL -/

/-- Grants to owners change nothing if and only if each of them has everything already. -/
theorem get_grantOwners_eq_iff {acl : AclMap} {owners : List String} :
    (grantOwners acl owners).get = acl.get ↔ ∀ owner ∈ owners, acl.get owner = some .everything := by
  constructor
  · intro h owner howner
    rw [← h, get_grantOwners, if_pos howner]
  · intro h
    ext1 key
    rw [get_grantOwners]
    split_ifs with hkey
    · exact (h key hkey).symm
    · rfl

/-- The root ACL comes back if and only if there is one that gives every owner everything. -/
theorem sameRootAcl_iff (h : Describes store m runtime) (hlinks : Fetchable store m) :
    (some (publishRootAcl store runtime)).map
        (fun link ↦ (aclAt store link.cid).map AclMap.get) =
      m.acl.map (fun link ↦ (aclAt store link.cid).map AclMap.get) ↔
      ∃ link acl, m.acl = some link ∧ aclAt store link.cid = some acl ∧
        ∀ owner ∈ ownersOf store m, acl.get owner = some .everything := by
  have howners : (runtime.grp.get "owners").getD [] = ownersOf store m := by
    rw [h.grp]
    rfl
  rw [publishRootAcl, Option.map_some, aclAt_cidOf, Option.map_some, howners, h.acl]
  cases hacl : m.acl with
  | none =>
    refine iff_of_false nofun ?_
    rintro ⟨link, acl, hlink, -⟩
    cases hlink
  | some link =>
    obtain ⟨acl, hfound⟩ := Option.isSome_iff_exists.mp (hlinks.acl link hacl)
    rw [Option.bind_some, Option.map_some, hfound, Option.getD_some, Option.map_some,
      Option.some.injEq, Option.some.injEq, get_grantOwners_eq_iff]
    constructor
    · intro hall
      exact ⟨link, acl, rfl, hfound, hall⟩
    · rintro ⟨link', acl', hlink', hacl', hall⟩
      obtain rfl := Option.some.inj hlink'
      obtain rfl := Option.some.inj (hfound.symm.trans hacl')
      exact hall

/-! ### The round trip -/

section RoundTrip

variable {ops : List (KindTreeOp Cid)} {entities : KeyedMap String (IpldLink Cid)}
  {codec : YamlCodec Cid} {runtimeConfig : KeyedMap String YamlValue}
  {bundled : KeyedMap String (IpldLink Cid)} {activeLang : String} {rootCid : Cid}

theorem sameEntities_iff (h : Describes store m runtime) (hlinks : Fetchable store m)
    (hentities : publishEntities store runtime = .ok entities) :
    (∀ name,
        (entities.get name).map (fun link ↦ (entityAt store link.cid).map withoutReloadError) =
          (m.entities.get name).map
            fun link ↦ (entityAt store link.cid).map withoutReloadError) ↔
      ∀ name link node, m.entities.get name = some link → entityAt store link.cid = some node →
        node.parent = none ∧ node.label = none ∧ node.initialised = false := by
  have hremade (name : String) :
      (entities.get name).map (fun link ↦ entityAt store link.cid) =
        (m.entities.get name).map fun link ↦ (entityAt store link.cid).map rebuilt :=
    map_read_of_republished (fun node ↦ entityAt_cidOf store _)
      (get_publishEntities h hentities name) (hlinks.entities name)
  have hread (name : String) :
      (entities.get name).map (fun link ↦ (entityAt store link.cid).map withoutReloadError) =
        (m.entities.get name).map
          fun link ↦ (entityAt store link.cid).map fun node ↦ withoutReloadError (rebuilt node) := by
    have hmapped := congrArg (Option.map (Option.map withoutReloadError)) (hremade name)
    simpa only [Option.map_map, Function.comp_def] using hmapped
  constructor
  · intro hsame name link node hlink hnode
    have heq := (hread name).symm.trans (hsame name)
    rw [hlink, Option.map_some, Option.map_some, hnode, Option.map_some, Option.map_some] at heq
    exact withoutReloadError_rebuilt_iff.mp (Option.some.inj (Option.some.inj heq))
  · intro hplain name
    rw [hread]
    cases hlink : m.entities.get name with
    | none => rfl
    | some link =>
      obtain ⟨node, hnode⟩ := Option.isSome_iff_exists.mp (hlinks.entities name link hlink)
      rw [Option.map_some, Option.map_some, hnode, Option.map_some, Option.map_some,
        withoutReloadError_rebuilt_iff.mpr (hplain name link node hlink hnode)]

/-- Documents that are published as they were fetched come back. -/
theorem map_read_filterMap {Content : Type} {read : Cid → Option Content} {publish : Content → Cid}
    (hread : ∀ content, read (publish content) = some content)
    {links : KeyedMap String (IpldLink Cid)} {contents : KeyedMap String Content}
    (hcontents : ∀ name, contents.get name = (links.get name).bind fun link ↦ read link.cid)
    (hfetch : ∀ name link, links.get name = some link → (read link.cid).isSome) (name : String) :
    ((contents.filterMap fun _ content ↦ some (⟨publish content⟩ : IpldLink Cid)).get name).map
        (fun link ↦ read link.cid) =
      (links.get name).map fun link ↦ read link.cid := by
  have hafter : (contents.filterMap fun _ content ↦
      some (⟨publish content⟩ : IpldLink Cid)).get name =
        ((links.get name).bind fun link ↦ read link.cid).map fun content ↦ ⟨publish content⟩ := by
    rw [KeyedMap.get_filterMap, hcontents, Option.map_eq_bind]
    rfl
  have hremade : ((contents.filterMap fun _ content ↦
      some (⟨publish content⟩ : IpldLink Cid)).get name).map (fun link ↦ read link.cid) =
        (links.get name).map fun link ↦ (read link.cid).map id :=
    map_read_of_republished hread hafter (hfetch name)
  simpa using hremade

/-- The round trip of a manifest is the build from a descriptor that describes it. -/
theorem lossless_iff_of_export (hroot : rootAt store rootCid = some m)
    (hruntime : exportBootstrap store m = .ok runtime)
    (hcodec : ∃ text, codec.toText ⟨runtime⟩ = .ok text ∧ codec.fromText text = .ok ⟨runtime⟩) :
    Lossless store codec runtimeConfig bundled activeLang rootCid m ↔
      ∃ entities, publishEntities store runtime = .ok entities ∧
        SameRuntime store m
          (manifestOf store runtime runtimeConfig bundled activeLang entities) := by
  obtain ⟨text, htext, hparsed⟩ := hcodec
  have hexport : exportBootstrapYaml store codec rootCid = .ok text := by
    unfold exportBootstrapYaml
    rw [hroot]
    simp only [hruntime]
    exact congrArg (withContext "serializing bootstrap YAML") htext
  constructor
  · rintro ⟨text', yaml, newRoot, other, hexport', hyaml, hbuild, hother, hsame⟩
    obtain rfl := Except.ok.inj (hexport.symm.trans hexport')
    obtain rfl := Except.ok.inj (hparsed.symm.trans hyaml)
    obtain ⟨entities, hentities, hnewRoot⟩ := bind_eq_ok hbuild
    obtain rfl := Except.ok.inj hnewRoot
    obtain rfl := Option.some.inj ((rootAt_cidOf store _).symm.trans hother)
    exact ⟨entities, hentities, hsame⟩
  · rintro ⟨entities, hentities, hsame⟩
    refine ⟨text, ⟨runtime⟩, _, _, hexport, hparsed, ?_, rootAt_cidOf store _, hsame⟩
    unfold buildManifest
    rw [hentities]
    rfl

/-- An export loses nothing if and only if no entity has a parent or a label or is initialised, the
ACL of every entity is a named one or empty, every kind names itself by its identifier, and the root
ACL gives every owner everything. -/
theorem lossless_iff (hroot : rootAt store rootCid = some m)
    (hkinds : Run kindTreeStep ⟨.empty⟩ ops m.kinds) (hlinks : Fetchable store m)
    (hcodec : ∀ runtime, exportBootstrap store m = .ok runtime →
      ∃ text, codec.toText ⟨runtime⟩ = .ok text ∧ codec.fromText text = .ok ⟨runtime⟩) :
    Lossless store codec runtimeConfig bundled activeLang rootCid m ↔ Exportable store m := by
  obtain ⟨runtime, hruntime, hdescribes⟩ := exists_exportBootstrap hlinks
  refine (lossless_iff_of_export hroot hruntime (hcodec runtime hruntime)).trans ?_
  constructor
  · rintro ⟨entities, hentities, hsame⟩
    have hnamed := (exists_publishEntities_iff hdescribes hlinks).mp ⟨entities, hentities⟩
    exact ⟨(sameKinds_iff hdescribes hlinks hkinds).mp hsame.kinds,
      (sameEntities_iff hdescribes hlinks hentities).mp hsame.entities, hnamed,
      (sameRootAcl_iff hdescribes hlinks).mp hsame.acl⟩
  · intro h
    obtain ⟨entities, hentities⟩ := (exists_publishEntities_iff hdescribes hlinks).mpr h.named
    exact ⟨entities, hentities, (sameKinds_iff hdescribes hlinks hkinds).mpr h.kinds,
      (sameEntities_iff hdescribes hlinks hentities).mpr h.entities,
      map_read_filterMap (aclAt_cidOf store) hdescribes.acls hlinks.acls,
      map_read_filterMap (groupAt_cidOf store) hdescribes.grp hlinks.grp,
      (sameRootAcl_iff hdescribes hlinks).mpr h.acl⟩

end RoundTrip

/-! ### A runtime with one entity -/

/-- Identifiers that are the documents they identify. -/
inductive DocumentCid
  | of (document : RuntimeDocument DocumentCid)

/-- The store in which every document is its own identifier. -/
def documentStore : RuntimeStore DocumentCid where
  cidOf := .of
  document | .of document => some document
  document_cidOf _ := rfl

/-- A node that was initialised or was not. -/
def roomWith (initialised : Bool) : EntityNode DocumentCid where
  kind := "/ma/room/0.0.1"
  behaviour := none
  acl := ""
  state := none
  parent := none
  label := none
  attributes := .empty
  init := none
  initialised := initialised
  reloadError := none

/-- A manifest with one entity and an empty root ACL. -/
def manifestWith (initialised : Bool) : RuntimeManifest DocumentCid :=
  { RuntimeManifest.default with
    acl := some ⟨.of (.acl .empty)⟩
    entities := ⟨[("room", ⟨.of (.entity (roomWith initialised))⟩)]⟩ }

/-- The descriptor of the manifest, whether the entity was initialised or was not. -/
def roomDescriptor : BootstrapRuntime DocumentCid where
  kinds := .empty
  acl := some .empty
  entities := ⟨[("room", .inline "/ma/room/0.0.1" none "" none .empty none)]⟩
  acls := .empty
  grp := .empty

/-- The codec of this one descriptor. -/
def roomCodec : YamlCodec DocumentCid where
  toText _ := .ok <| "runtime:\n  kinds: \x7b\x7d\n  acl: \x7b\x7d\n  entities:\n    room:\n" ++
    "      kind: /ma/room/0.0.1\n      acl: ''\n      state: null\n      attributes: \x7b\x7d\n" ++
    "  acls: \x7b\x7d\n  grp: \x7b\x7d\n"
  fromText _ := .ok ⟨roomDescriptor⟩

theorem exportBootstrap_manifestWith (initialised : Bool) :
    exportBootstrap documentStore (manifestWith initialised) = .ok roomDescriptor := rfl

theorem fetchable_manifestWith (initialised : Bool) :
    Fetchable documentStore (manifestWith initialised) := by
  refine ⟨?_, ?_, ?_, ?_, ?_⟩
  · intro protocol link hlink
    cases (kindTreeGet_empty _).symm.trans hlink
  · intro name link hlink
    have hmem := KeyedMap.mem_of_get hlink
    obtain ⟨-, rfl⟩ := Prod.mk.inj (List.mem_singleton.mp hmem)
    rfl
  · intro name link hlink
    cases hlink
  · intro name link hlink
    cases hlink
  · intro link hlink
    obtain rfl := Option.some.inj hlink
    rfl

theorem lossless_iff_room :
    Lossless documentStore roomCodec .empty .empty "en" (.of (.manifest (manifestWith false)))
        (manifestWith false) ↔
      Exportable documentStore (manifestWith false) := by
  refine lossless_iff rfl (.nil _) (fetchable_manifestWith false) fun runtime hruntime ↦ ?_
  obtain rfl := Except.ok.inj ((exportBootstrap_manifestWith false).symm.trans hruntime)
  exact ⟨_, rfl, rfl⟩

/-- An entity that was initialised comes back as one that was not. -/
theorem initialised_lost :
    ¬Lossless documentStore roomCodec .empty .empty "en" (.of (.manifest (manifestWith true)))
      (manifestWith true) := by
  intro h
  obtain ⟨entities, hentities, hsame⟩ :=
    (lossless_iff_of_export rfl (exportBootstrap_manifestWith true) ⟨_, rfl, rfl⟩).mp h
  obtain rfl := Except.ok.inj hentities
  have hnode := Option.some.inj (Option.some.inj (hsame.entities "room"))
  exact Bool.noConfusion (congrArg EntityNode.initialised hnode)

end MaRuntime.Bootstrap
