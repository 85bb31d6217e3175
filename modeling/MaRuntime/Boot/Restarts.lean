import MaRuntime.Crud.Management
import MaRuntime.Daemon.OwnerList
import MaRuntime.Daemon.Protected
import MaRuntime.Dispatch.Deletion
import MaRuntime.Kinds.Registry

/-!
# Restarts

A start of the runtime takes the manifest it finds through a series of phases, of which each may
publish another one: a minimal manifest if there is none, the kinds that `--kinds-cid` lays over it,
the capacity of the queue of envelopes, the entities that are loaded, the owners, and the root and
start entities of its configuration (`boot`). What a phase does not achieve is either left for the
next start or the end of this one.

However many starts and shutdowns there are, and whatever fails in them, the manifest keeps what it
has (`manifest_kept_of_run`): the root ACL and the library of ACLs, the groups other than the
owners, each entity with all that it was given, each value of the configuration, and the kinds that
no overlay touches. A start does its work once: after one that was served, no further one that has
nothing new to bring publishes another manifest (`settled_of_run`).

Main definitions: `boot`, `restartStep`, `Kept`, `Quiet`.
Main results: `manifest_kept_of_run`, `settled_of_run`.

Scope. A start finds the manifest as the last one left it, and one that fails leaves none. The
language, the publication of the runtime's own document and the pins are left out.
-/

set_option autoImplicit false
set_option relaxedAutoImplicit false

namespace MaRuntime.Boot

open Daemon Dispatch Kinds Manifest Runs
open Crud (pluginEnvelopeQueueCapacity)
open Plugin (Lifecycle loadNativeEntity loadWithFibonacciBackoff)

/-! ### The phases -/

def capacityKey : String := "plugin_envelope_queue_capacity"

/-- What is given on the command line: the owners, and the tree at `--kinds-cid`. -/
structure BootArgs (Cid : Type) where
  owners : List String
  kinds : Option (KindTree Cid)

/-- What the requests of a start come to: whether the overlay is fetched and published, whether the
manifest is fetched for the capacity and published with it, what the loads of the entities meet,
what the phase of the owners meets, and whether the manifest is fetched for the default
configuration and published with it. -/
structure BootOutcome (Cid : Type) where
  overlayFetched : Bool
  overlayPut : Bool
  capacityFetched : Bool
  capacityPut : Bool
  loads : EntityLoads Cid
  access : StartupOutcome
  defaultsFetched : Bool
  defaultsPublished : Bool

variable {Cid : Type} [ToString Cid] [DecidableEq Cid]

section Phases

variable (store : Manifest.Store Cid) (fetch : Cid → Except String (Kinds.KindNode Cid))

omit [ToString Cid] in
/-- `apply_kinds_overlay`; without a manifest the start has failed. -/
def applyKindsOverlay (m : RuntimeManifest Cid) (kinds : KindTree Cid) (fetched put : Bool) :
    Option (RuntimeManifest Cid) :=
  match fetched, applyKindsTreeOverlay fetch m kinds with
  | true, .ok (overlaid, changedProtocols) =>
    if changedProtocols = [] then some m else if put then some overlaid else none
  | _, _ => none

/-- The capacity that a manifest asks for. -/
def queueCapacity (m : RuntimeManifest Cid) : Except String Nat :=
  match m.config.get capacityKey with
  | none => .ok defaultPluginEnvelopeQueueCapacity
  | some value => pluginEnvelopeQueueCapacity value

/-- `materialise_plugin_envelope_queue_capacity`; without a manifest the start has failed. -/
def materialisePluginEnvelopeQueueCapacity (m : RuntimeManifest Cid) (fetched put : Bool) :
    Option (RuntimeManifest Cid) :=
  match fetched, queueCapacity m with
  | true, .ok capacity =>
    if (m.config.get capacityKey).isSome then some m
    else if put then some { m with config := m.config.insert capacityKey (.number capacity) }
    else none
  | _, _ => none

/-- `load_entity_and_kind`. -/
def loadEntityAndKind (m : RuntimeManifest Cid) (link : IpldLink Cid) (fetched : Bool)
    (kindFetched : String → Bool) : Option (EntityNode Cid × Plugin.KindNode Cid) := do
  let node ← (if fetched then nodeAt store link.cid else none)
  let kindLink ← m.kinds.getProtocol node.kind
  let rawKind ← (if kindFetched node.kind then (fetch kindLink.cid).toOption else none)
  let kindNode ← (resolveKind fetch m.kinds rawKind).toOption
  return (node, kindNode.toKindNode)

/-- `load_wasm_entity` and `load_native_entity`, up to the save of the state. -/
def loadEntity (name : String) (node : EntityNode Cid) (kindNode : Plugin.KindNode Cid)
    (start : EntityStart Cid) : Option (Lifecycle × Option Cid) :=
  match kindNode.kindType with
  | .native =>
    match start.hasFactory, loadNativeEntity store name node kindNode start.native with
    | true, .ok _ => some (.running, start.nativeSaved)
    | _, _ => none
  | _ =>
    match loadWithFibonacciBackoff store name node kindNode start.attempts with
    | .ok loaded => some (loaded.lifecycle, triggerSave store loaded start.stateAdded)
    | .error _ => none

/-- A loaded entity was initialised before, and the state it has saved is the one it had. -/
def IsUnchanged (node : EntityNode Cid) (saved : Option Cid) : Prop :=
  node.initialised = true ∧ (runningNode node saved).stateLink = node.stateLink

instance (node : EntityNode Cid) (saved : Option Cid) : Decidable (IsUnchanged node saved) :=
  inferInstanceAs (Decidable (_ ∧ _))

/-- `persist_initialised_transition`. -/
def persistInitialisedTransition (node : EntityNode Cid) (lifecycle : Lifecycle)
    (saved : Option Cid) (published : Bool) : Option (IpldLink Cid) :=
  match lifecycle with
  | .error => none
  | .running =>
    if IsUnchanged node saved then none
    else if published then some ⟨store.cidOf (.entityNode (runningNode node saved))⟩
    else none

/-- The entity of a link, when it is loaded, with the link to its changed node. -/
def loadLinked (m : RuntimeManifest Cid) (loads : EntityLoads Cid) (name : String)
    (link : IpldLink Cid) : Option (Option (IpldLink Cid)) :=
  let start := loads.entity name
  (loadEntityAndKind store fetch m link start.fetched loads.kindFetched).bind
    fun (node, kindNode) ↦
      (loadEntity store name node kindNode start).map fun (lifecycle, saved) ↦
        persistInitialisedTransition store node lifecycle saved start.nodePublished

/-- The link to an entity's changed node. -/
def initialisedLink (m : RuntimeManifest Cid) (loads : EntityLoads Cid) (name : String)
    (link : IpldLink Cid) : Option (IpldLink Cid) :=
  (loadLinked store fetch m loads name link).join

/-- `load_entities`. -/
def loadEntities (m : RuntimeManifest Cid) (loads : EntityLoads Cid) : RuntimeManifest Cid :=
  let updated := m.entities.entries.any fun (name, link) ↦
    (initialisedLink store fetch m loads name link).isSome
  if loads.manifestFetched && updated && loads.published then
    { m with
      entities := m.entities.filterMap fun name link ↦
        some ((initialisedLink store fetch m loads name link).getD link) }
  else m

/-- Whether the root entity is in the registry. -/
def rootLoaded (m : RuntimeManifest Cid) (loads : EntityLoads Cid) : Bool :=
  loads.manifestFetched &&
    ((m.entities.get "root").bind (loadLinked store fetch m loads "root")).isSome

end Phases

/-- A value for a key that has none. -/
def orInsert (config : KeyedMap String YamlValue) (key : String) (value : YamlValue) :
    KeyedMap String YamlValue :=
  match config.get key with
  | some _ => config
  | none => config.insert key value

/-- `populate_default_config_root`. -/
def populateDefaultConfigRoot (ourDid : String) (m : RuntimeManifest Cid)
    (rootLoaded fetched published : Bool) : RuntimeManifest Cid :=
  if rootLoaded && fetched && !((m.config.get "root").isSome && (m.config.get "start").isSome) &&
      published then
    { m with
      config := orInsert (orInsert m.config "root" (.string (ourDid ++ "#root"))) "start"
        (.string (ourDid ++ "#concourse")) }
  else m

/-! ### Starts and shutdowns -/

/-- What a start depends on besides its state. -/
structure BootServices (Cid : Type) where
  store : Manifest.Store Cid
  access : AccessStore Cid
  fetch : Cid → Except String (Kinds.KindNode Cid)
  defaults : Daemon.Config
  ourDid : String

/-- The starts of the runtime, and the shutdowns, in which the live entities save their states: for
each entity, whether its node is fetched, and the state that was saved. -/
inductive RestartAction (Cid : Type)
  | boot (args : BootArgs Cid) (outcome : BootOutcome Cid)
  | saveAllEntityStates (fetched : String → Bool) (saved : String → Option Cid) (published : Bool)

section Machine

variable (services : BootServices Cid)

/-- The manifest after the overlay, if there is one. -/
def overlay (m : RuntimeManifest Cid) (args : BootArgs Cid) (outcome : BootOutcome Cid) :
    Option (RuntimeManifest Cid) :=
  match args.kinds with
  | none => some m
  | some kinds =>
    applyKindsOverlay services.fetch m kinds outcome.overlayFetched outcome.overlayPut

/-- The manifest with which a start goes on to load the entities. -/
def prepare (m : RuntimeManifest Cid) (args : BootArgs Cid) (outcome : BootOutcome Cid) :
    Option (RuntimeManifest Cid) :=
  (overlay services m args outcome).bind fun overlaid ↦
    materialisePluginEnvelopeQueueCapacity overlaid outcome.capacityFetched outcome.capacityPut

/-- The state with a manifest. -/
def withManifest (s : AccessState Cid) (m : RuntimeManifest Cid) : AccessState Cid :=
  { s with manifest := some m }

/-- A start that has a manifest, from the load of the entities on. -/
def finish (s : AccessState Cid) (m : RuntimeManifest Cid) (args : BootArgs Cid)
    (outcome : BootOutcome Cid) : AccessState Cid :=
  let loaded := loadEntities services.store services.fetch m outcome.loads
  let started := startup services.access services.defaults (withManifest s loaded) args.owners
    outcome.access
  { started with
    manifest := started.manifest.map fun reconciled ↦
      populateDefaultConfigRoot services.ourDid reconciled
        (rootLoaded services.store services.fetch m outcome.loads) outcome.defaultsFetched
        outcome.defaultsPublished }

/-- A start, which may fail. An overlay asks for a manifest that is there. -/
def boot (s : AccessState Cid) (args : BootArgs Cid) (outcome : BootOutcome Cid) :
    Option (AccessState Cid) :=
  if args.kinds.isSome && s.manifest.isNone then none
  else
    match startupManifest services.access s outcome.access with
    | none => some (startup services.access services.defaults s args.owners outcome.access)
    | some m =>
      (prepare services m args outcome).map fun prepared ↦ finish services s prepared args outcome

/-- The link to the node of an entity with the state that it has saved. -/
def savedLink (fetched : String → Bool) (saved : String → Option Cid) (name : String)
    (link : IpldLink Cid) : IpldLink Cid :=
  match fetched name, nodeAt services.store link.cid, saved name with
  | true, some node, some state =>
    ⟨services.store.cidOf (.entityNode { node with state := some ⟨state⟩ })⟩
  | _, _, _ => link

/-- `save_all_entity_states`. -/
def saveAllEntityStates (m : RuntimeManifest Cid) (fetched : String → Bool)
    (saved : String → Option Cid) (published : Bool) : RuntimeManifest Cid :=
  if published then
    { m with
      entities := m.entities.filterMap fun name link ↦
        some (savedLink services fetched saved name link) }
  else m

/-- A start that fails changes nothing. -/
def restartStep (s : AccessState Cid) : RestartAction Cid → Option (AccessState Cid)
  | .boot args outcome => some ((boot services s args outcome).getD s)
  | .saveAllEntityStates fetched saved published =>
    some { s with
      manifest := s.manifest.map fun m ↦ saveAllEntityStates services m fetched saved published }

end Machine

/-! ### What is kept -/

/-- An entity is what it was, but for its state, which it does not lose, and its initialisation,
which is not taken back. -/
structure KeptNode (before after : EntityNode Cid) : Prop where
  kind : after.kind = before.kind
  behaviour : after.behaviour = before.behaviour
  acl : after.acl = before.acl
  parent : after.parent = before.parent
  label : after.label = before.label
  attributes : after.attributes = before.attributes
  init : after.init = before.init
  reloadError : after.reloadError = before.reloadError
  state : before.state.isSome = true → after.state.isSome = true
  initialised : before.initialised = true → after.initialised = true

/-- A manifest has what another one has: the ACLs, the groups other than the owners, the entities,
the values of the configuration, and the kinds at which, and above which, no overlay has one. Its
configuration has three further values at most. -/
structure Kept (store : Manifest.Store Cid) (overlays : List (KindTree Cid))
    (before after : RuntimeManifest Cid) : Prop where
  acl : after.acl = before.acl
  acls : after.acls = before.acls
  protocol : after.protocol = before.protocol
  i18n : after.i18n = before.i18n
  grp : ∀ name, name ≠ "owners" → after.grp.get name = before.grp.get name
  linked : ∀ name, after.entities.get name = none ↔ before.entities.get name = none
  node : ∀ name node, before.entityNodeAt store name = some node →
    ∃ node', after.entityNodeAt store name = some node' ∧ KeptNode node node'
  config : ∀ key value, before.config.get key = some value → after.config.get key = some value
  added : ∀ key, key ∉ [capacityKey, "root", "start"] →
    after.config.get key = before.config.get key
  kinds : ∀ protocol, (∀ tree ∈ overlays, ∀ entry ∈ tree.iterProtocols,
      ¬segments entry.1 <+: segments protocol) →
    after.kinds.getProtocol protocol = before.kinds.getProtocol protocol

section Kept

variable {store : Manifest.Store Cid} {overlays more : List (KindTree Cid)}
  {m m' m'' : RuntimeManifest Cid}

omit [ToString Cid] [DecidableEq Cid]

theorem KeptNode.refl (node : EntityNode Cid) : KeptNode node node :=
  ⟨rfl, rfl, rfl, rfl, rfl, rfl, rfl, rfl, id, id⟩

theorem KeptNode.trans {first second third : EntityNode Cid} (h : KeptNode first second)
    (h' : KeptNode second third) : KeptNode first third where
  kind := h'.kind.trans h.kind
  behaviour := h'.behaviour.trans h.behaviour
  acl := h'.acl.trans h.acl
  parent := h'.parent.trans h.parent
  label := h'.label.trans h.label
  attributes := h'.attributes.trans h.attributes
  init := h'.init.trans h.init
  reloadError := h'.reloadError.trans h.reloadError
  state hstate := h'.state (h.state hstate)
  initialised hinitialised := h'.initialised (h.initialised hinitialised)

theorem keptNode_runningNode (node : EntityNode Cid) (saved : Option Cid) :
    KeptNode node (runningNode node saved) := by
  refine ⟨rfl, rfl, rfl, rfl, rfl, rfl, rfl, rfl, fun hstate ↦ ?_, fun _ ↦ rfl⟩
  cases saved with
  | none => exact hstate
  | some cid => rfl

variable (store overlays m) in
theorem Kept.refl : Kept store overlays m m where
  acl := rfl
  acls := rfl
  protocol := rfl
  i18n := rfl
  grp _ _ := rfl
  linked _ := Iff.rfl
  node _ node hnode := ⟨node, hnode, .refl node⟩
  config _ _ hvalue := hvalue
  added _ _ := rfl
  kinds _ _ := rfl

theorem Kept.trans (h : Kept store overlays m m') (h' : Kept store overlays m' m'') :
    Kept store overlays m m'' where
  acl := h'.acl.trans h.acl
  acls := h'.acls.trans h.acls
  protocol := h'.protocol.trans h.protocol
  i18n := h'.i18n.trans h.i18n
  grp name hname := (h'.grp name hname).trans (h.grp name hname)
  linked name := (h'.linked name).trans (h.linked name)
  node name node hnode := by
    obtain ⟨node', hnode', hkept⟩ := h.node name node hnode
    obtain ⟨node'', hnode'', hkept'⟩ := h'.node name node' hnode'
    exact ⟨node'', hnode'', hkept.trans hkept'⟩
  config key value hvalue := h'.config key value (h.config key value hvalue)
  added key hkey := (h'.added key hkey).trans (h.added key hkey)
  kinds protocol hprotocol := (h'.kinds protocol hprotocol).trans (h.kinds protocol hprotocol)

theorem Kept.mono (hsubset : overlays ⊆ more) (h : Kept store overlays m m') :
    Kept store more m m' :=
  { h with
    kinds := fun protocol hprotocol ↦
      h.kinds protocol fun tree htree ↦ hprotocol tree (hsubset htree) }

/-! ### The phases -/

theorem kept_insertKinds {kinds : KindTree Cid} (hkinds : kinds ∈ overlays) :
    Kept store overlays m (insertKinds m kinds.iterProtocols) :=
  { Kept.refl store overlays m with
    kinds := fun _ hprotocol ↦
      KindTree.getProtocol_insertAll_of_not_under (hprotocol kinds hkinds) }

theorem kept_setGroupLink (cid : Cid) : Kept store overlays m (setGroupLink m "owners" cid) :=
  { Kept.refl store overlays m with grp := fun _ hname ↦ KeyedMap.get_insert_of_ne _ _ hname }

/-- A configuration that has the values of another one, and further ones for three keys at most. -/
theorem kept_config {config : KeyedMap String YamlValue}
    (hconfig : ∀ key value, m.config.get key = some value → config.get key = some value)
    (hadded : ∀ key, key ∉ [capacityKey, "root", "start"] → config.get key = m.config.get key) :
    Kept store overlays m { m with config := config } :=
  { Kept.refl store overlays m with config := hconfig, added := hadded }

/-- New links for the entities, whose nodes are kept. -/
theorem kept_entities {relink : String → IpldLink Cid → IpldLink Cid}
    (hrelink : ∀ name link node, nodeAt store link.cid = some node →
      ∃ node', nodeAt store (relink name link).cid = some node' ∧ KeptNode node node') :
    Kept store overlays m
      { m with entities := m.entities.filterMap fun name link ↦ some (relink name link) } :=
  { Kept.refl store overlays m with
    linked := fun name ↦ by
      rw [KeyedMap.get_filterMap]
      cases m.entities.get name with
      | none => rfl
      | some link => simp
    node := fun name node hnode ↦ by
      obtain ⟨link, hlink, hnode⟩ := Option.bind_eq_some_iff.mp hnode
      obtain ⟨node', hnode', hkept⟩ := hrelink name link node hnode
      refine ⟨node', ?_, hkept⟩
      rw [RuntimeManifest.entityNodeAt, KeyedMap.get_filterMap, hlink]
      exact hnode' }

theorem get_orInsert_of_ne (config : KeyedMap String YamlValue) {key other : String}
    (value : YamlValue) (h : other ≠ key) :
    (orInsert config key value).get other = config.get other := by
  unfold orInsert
  split
  · rfl
  · exact KeyedMap.get_insert_of_ne _ _ h

theorem get_orInsert_of_some {config : KeyedMap String YamlValue} {key other : String}
    {value found : YamlValue} (h : config.get other = some found) :
    (orInsert config key value).get other = some found := by
  by_cases hkey : other = key
  · subst hkey
    rw [orInsert, h]
    exact h
  · rw [get_orInsert_of_ne config value hkey, h]

theorem isSome_get_orInsert_self (config : KeyedMap String YamlValue) (key : String)
    (value : YamlValue) : ((orInsert config key value).get key).isSome = true := by
  unfold orInsert
  split
  · rename_i hfound
    rw [hfound]
    rfl
  · simp

theorem kept_populateDefaultConfigRoot {ourDid : String} {rootLoaded fetched published : Bool} :
    Kept store overlays m (populateDefaultConfigRoot ourDid m rootLoaded fetched published) := by
  unfold populateDefaultConfigRoot
  split_ifs
  · refine kept_config (fun key value hvalue ↦ ?_) fun key hkey ↦ ?_
    · exact get_orInsert_of_some (get_orInsert_of_some hvalue)
    · simp only [List.mem_cons, List.not_mem_nil, or_false, not_or] at hkey
      rw [get_orInsert_of_ne _ _ hkey.2.2, get_orInsert_of_ne _ _ hkey.2.1]
  · exact .refl _ _ m

theorem kept_materialise {prepared : RuntimeManifest Cid} {fetched put : Bool}
    (h : materialisePluginEnvelopeQueueCapacity m fetched put = some prepared) :
    Kept store overlays m prepared ∧ (prepared.config.get capacityKey).isSome = true := by
  unfold materialisePluginEnvelopeQueueCapacity at h
  split at h
  · rename_i capacity _
    split_ifs at h with hset
    · obtain rfl := Option.some.inj h
      exact ⟨.refl _ _ m, hset⟩
    · obtain rfl := Option.some.inj h
      refine ⟨kept_config (fun key value hvalue ↦ ?_) fun key hkey ↦ ?_, by simp⟩
      · refine (KeyedMap.get_insert_of_ne _ _ ?_).trans hvalue
        rintro rfl
        exact hset (by rw [hvalue]; rfl)
      · exact KeyedMap.get_insert_of_ne _ _ fun heq ↦ hkey (heq ▸ List.mem_cons_self)
  · cases h

end Kept

section Steps

variable {services : BootServices Cid} {s t : AccessState Cid} {m : RuntimeManifest Cid}
  {args : BootArgs Cid} {outcome : BootOutcome Cid} {overlays : List (KindTree Cid)}

omit [ToString Cid] in
theorem kept_applyKindsOverlay {store : Manifest.Store Cid}
    {fetch : Cid → Except String (Kinds.KindNode Cid)} {kinds : KindTree Cid}
    {overlaid : RuntimeManifest Cid} {fetched put : Bool} (hkinds : kinds ∈ overlays)
    (h : applyKindsOverlay fetch m kinds fetched put = some overlaid) :
    Kept store overlays m overlaid := by
  unfold applyKindsOverlay at h
  split at h
  · rename_i hoverlay
    split_ifs at h
    · obtain rfl := Option.some.inj h
      exact .refl _ _ m
    · obtain rfl := Option.some.inj h
      rw [(applyKindsTreeOverlay_eq_ok hoverlay).1]
      exact kept_insertKinds hkinds
  · cases h

omit [DecidableEq Cid] in
/-- The link to the changed node of an entity is that of its node as a running one. -/
theorem exists_of_initialisedLink {store : Manifest.Store Cid}
    {fetch : Cid → Except String (Kinds.KindNode Cid)} [DecidableEq Cid] {loads : EntityLoads Cid}
    {name : String} {link changed : IpldLink Cid}
    (h : initialisedLink store fetch m loads name link = some changed) :
    ∃ node saved, nodeAt store link.cid = some node ∧
      changed = ⟨store.cidOf (.entityNode (runningNode node saved))⟩ := by
  obtain hloaded := Option.join_eq_some_iff.mp h
  obtain ⟨⟨node, kindNode⟩, hnode, hloaded⟩ := Option.bind_eq_some_iff.mp hloaded
  obtain ⟨⟨lifecycle, saved⟩, -, hchanged⟩ := Option.map_eq_some_iff.mp hloaded
  refine ⟨node, saved, ?_, ?_⟩
  · unfold loadEntityAndKind at hnode
    obtain ⟨node', hnode', hrest⟩ := Option.bind_eq_some_iff.mp hnode
    obtain ⟨kindLink, -, hrest⟩ := Option.bind_eq_some_iff.mp hrest
    obtain ⟨rawKind, -, hrest⟩ := Option.bind_eq_some_iff.mp hrest
    obtain ⟨kind, -, hrest⟩ := Option.bind_eq_some_iff.mp hrest
    obtain ⟨rfl, -⟩ := Prod.mk.inj (Option.some.inj hrest)
    split_ifs at hnode' with hfetched
    exact hnode'
  · dsimp only at hchanged
    unfold persistInitialisedTransition at hchanged
    cases lifecycle with
    | error => cases hchanged
    | running =>
      dsimp only at hchanged
      split_ifs at hchanged
      exact (Option.some.inj hchanged).symm

theorem kept_loadEntities {store : Manifest.Store Cid}
    {fetch : Cid → Except String (Kinds.KindNode Cid)} {loads : EntityLoads Cid} :
    Kept store overlays m (loadEntities store fetch m loads) := by
  unfold loadEntities
  dsimp only
  split_ifs
  · refine kept_entities fun name link node hnode ↦ ?_
    cases hlink : initialisedLink store fetch m loads name link with
    | none => exact ⟨node, hnode, .refl node⟩
    | some changed =>
      obtain ⟨node', saved, hnode', rfl⟩ := exists_of_initialisedLink hlink
      obtain rfl := Option.some.inj (hnode.symm.trans hnode')
      exact ⟨_, nodeAt_cidOf store _, keptNode_runningNode node saved⟩
  · exact .refl _ _ m

omit [ToString Cid] [DecidableEq Cid] in
theorem kept_saveAllEntityStates {fetched : String → Bool} {saved : String → Option Cid}
    {published : Bool} :
    Kept services.store overlays m (saveAllEntityStates services m fetched saved published) := by
  unfold saveAllEntityStates
  split_ifs
  · refine kept_entities fun name link node hnode ↦ ?_
    unfold savedLink
    split
    · rename_i node' state _ hnode' _
      obtain rfl := Option.some.inj (hnode.symm.trans hnode')
      exact ⟨_, nodeAt_cidOf services.store _, rfl, rfl, rfl, rfl, rfl, rfl, rfl, rfl,
        fun _ ↦ rfl, id⟩
    · exact ⟨node, hnode, .refl node⟩
  · exact .refl _ _ m

omit [ToString Cid] [DecidableEq Cid] in
variable (services s m) in
/-- The phase of the owners links their group at most. -/
theorem manifest_startup (cliOwners : List String) (access : StartupOutcome) :
    ∃ started, (startup services.access services.defaults (withManifest s m) cliOwners
        access).manifest = some started ∧
      (started = m ∨ ∃ cid, started = setGroupLink m "owners" cid) := by
  have hseeded : (resolveAndSeedOwners services.access services.defaults (withManifest s m)
      cliOwners access).manifest = some m := rfl
  obtain ⟨-, hstarted⟩ | ⟨m', hm', -, -, hstarted⟩ :=
    startup_cases services.access services.defaults (withManifest s m) cliOwners access rfl
  · exact ⟨m, by rw [hstarted, hseeded], .inl rfl⟩
  · obtain rfl := Option.some.inj (hseeded.symm.trans hm')
    exact ⟨_, by rw [hstarted], .inr ⟨_, rfl⟩⟩

omit [ToString Cid] in
theorem kept_prepare {prepared : RuntimeManifest Cid}
    (hkinds : ∀ kinds ∈ args.kinds, kinds ∈ overlays)
    (h : prepare services m args outcome = some prepared) :
    Kept services.store overlays m prepared ∧ (prepared.config.get capacityKey).isSome = true := by
  obtain ⟨overlaid, hoverlaid, h⟩ := Option.bind_eq_some_iff.mp h
  obtain ⟨hprepared, hcapacity⟩ :
      Kept services.store overlays overlaid prepared ∧ _ := kept_materialise h
  refine ⟨Kept.trans ?_ hprepared, hcapacity⟩
  unfold overlay at hoverlaid
  split at hoverlaid
  · obtain rfl := Option.some.inj hoverlaid
    exact .refl _ _ m
  · rename_i kinds hargs
    exact kept_applyKindsOverlay (hkinds kinds hargs) hoverlaid

variable (services s m args outcome) in
/-- What a start makes of the manifest that it loads the entities of. -/
theorem manifest_finish :
    ∃ reconciled, Kept services.store overlays m reconciled ∧
      (finish services s m args outcome).manifest =
        some (populateDefaultConfigRoot services.ourDid reconciled
          (rootLoaded services.store services.fetch m outcome.loads) outcome.defaultsFetched
          outcome.defaultsPublished) := by
  obtain ⟨reconciled, hstarted, hcases⟩ := manifest_startup services s
    (loadEntities services.store services.fetch m outcome.loads) args.owners outcome.access
  refine ⟨reconciled, ?_, ?_⟩
  · obtain rfl | ⟨cid, rfl⟩ := hcases
    · exact kept_loadEntities
    · exact kept_loadEntities.trans (kept_setGroupLink cid)
  · unfold finish
    dsimp only
    rw [hstarted]
    rfl

variable (services s m args outcome) in
theorem kept_finish :
    ∃ finished, (finish services s m args outcome).manifest = some finished ∧
      Kept services.store overlays m finished := by
  obtain ⟨reconciled, hreconciled, hfinished⟩ := manifest_finish services s m args outcome
  exact ⟨_, hfinished, hreconciled.trans kept_populateDefaultConfigRoot⟩

/-- A start that has a manifest prepares it and loads the entities of what it has prepared. -/
theorem exists_of_boot (hmanifest : s.manifest = some m)
    (h : boot services s args outcome = some t) :
    ∃ prepared, prepare services m args outcome = some prepared ∧
      t = finish services s prepared args outcome := by
  unfold boot at h
  split_ifs at h
  rw [startupManifest, hmanifest] at h
  obtain ⟨prepared, hprepared, ht⟩ := Option.map_eq_some_iff.mp h
  exact ⟨prepared, hprepared, ht.symm⟩

/-- The trees that starts are given. -/
def overlaysOf (actions : List (RestartAction Cid)) : List (KindTree Cid) :=
  actions.filterMap fun action ↦
    match action with
    | .boot args _ => args.kinds
    | .saveAllEntityStates .. => none

theorem kept_of_step {action : RestartAction Cid} (hmanifest : s.manifest = some m)
    (h : restartStep services s action = some t) :
    ∃ m', t.manifest = some m' ∧ Kept services.store (overlaysOf [action]) m m' := by
  cases action with
  | boot args outcome =>
    obtain rfl := Option.some.inj h
    cases hboot : boot services s args outcome with
    | none => exact ⟨m, hmanifest, .refl _ _ m⟩
    | some t =>
      obtain ⟨prepared, hprepared, rfl⟩ := exists_of_boot hmanifest hboot
      obtain ⟨finished, hfinished, hkept⟩ := kept_finish services s prepared args outcome
      refine ⟨finished, hfinished, Kept.trans (kept_prepare ?_ hprepared).1 hkept⟩
      intro kinds hkinds
      exact List.mem_filterMap.mpr ⟨_, List.mem_singleton_self _, hkinds⟩
  | saveAllEntityStates fetched saved published =>
    obtain rfl := Option.some.inj h
    exact ⟨_, by rw [hmanifest]; rfl, kept_saveAllEntityStates⟩

/-- A manifest that a start has nothing to do for: it has a capacity, a root and a start entity or
no root to set them for, and its owners are those of the file. -/
structure Settled (services : BootServices Cid) (s : AccessState Cid) (m : RuntimeManifest Cid) :
    Prop where
  manifest : s.manifest = some m
  capacity : (m.config.get capacityKey).isSome = true
  defaults : ((m.config.get "root").isSome = true ∧ (m.config.get "start").isSome = true) ∨
    m.entities.get "root" = none
  owners : fileOwners services.defaults s ⊆ linkedOwners services.access s

/-- A start whose requests are served as far as they leave something to do for the next one. -/
structure Served (services : BootServices Cid) (s : AccessState Cid) (args : BootArgs Cid)
    (outcome : BootOutcome Cid) : Prop where
  bootstrapped : outcome.access.bootstrapped = true
  owners : outcome.access.ownersPublished = true
  defaultsFetched : outcome.defaultsFetched = true
  defaultsPublished : outcome.defaultsPublished = true
  root : ∀ m prepared, startupManifest services.access s outcome.access = some m →
    prepare services m args outcome = some prepared → prepared.entities.get "root" ≠ none →
    rootLoaded services.store services.fetch prepared outcome.loads = true

/-- A start that publishes the owners, when it has to. -/
def PublishesOwners : RestartAction Cid → Prop
  | .boot _ outcome => outcome.access.ownersPublished = true
  | .saveAllEntityStates .. => True

/-- A start that brings nothing new: no overlay, no owner that is not linked, and no state of an
entity but the one it had. It fetches the owners. -/
structure Quiet (services : BootServices Cid) (s : AccessState Cid) (args : BootArgs Cid)
    (outcome : BootOutcome Cid) : Prop where
  kinds : args.kinds = none
  owners : args.owners ⊆ linkedOwners services.access s
  fetched : outcome.access.ownersFetched = true
  unchanged : ∀ m, s.manifest = some m → ∀ entry ∈ m.entities.entries, ∀ node kindNode saved,
    loadEntityAndKind services.store services.fetch m entry.2
      (outcome.loads.entity entry.1).fetched outcome.loads.kindFetched = some (node, kindNode) →
    loadEntity services.store entry.1 node kindNode (outcome.loads.entity entry.1) =
      some (.running, saved) →
    IsUnchanged node saved

/-! ### The owners -/

omit [ToString Cid] [DecidableEq Cid] in
theorem owners_seeded (cliOwners : List String) (access : StartupOutcome) :
    (resolveAndSeedOwners services.access services.defaults s cliOwners access).owners =
      resolveOwners (s.config.disk.getD services.defaults) cliOwners
        (((resolveAndSeedOwners services.access services.defaults s cliOwners access).groupCache.get
          "owners").getD []) := rfl

omit [ToString Cid] [DecidableEq Cid] in
theorem read_seeded (cliOwners : List String) (access : StartupOutcome) :
    ((resolveAndSeedOwners services.access services.defaults s cliOwners access).groupCache.get
      "owners").getD [] =
      if access.ownersFetched = true then linkedOwners services.access s else [] :=
  owners_populated services.access s access

omit [ToString Cid] [DecidableEq Cid] in
/-- The file has the owners that a start has resolved. -/
theorem fileOwners_startup (cliOwners : List String) (access : StartupOutcome) :
    fileOwners services.defaults
        (startup services.access services.defaults s cliOwners access) =
      (resolveAndSeedOwners services.access services.defaults s cliOwners access).owners := by
  have hconfig : (startup services.access services.defaults s cliOwners access).config =
      (resolveAndSeedOwners services.access services.defaults s cliOwners access).config := by
    obtain ⟨-, heq⟩ | ⟨m, -, -, -, heq⟩ :=
      startup_cases services.access services.defaults s cliOwners access rfl
    · rw [heq]
    · rw [heq]
  rw [fileOwners, hconfig]
  unfold resolveAndSeedOwners AccessState.owners finalizeStartup
  dsimp only
  split_ifs with hsame
  · exact hsame.symm
  · exact Config.ownersFromConfig_setExtra_owners _ _

omit [ToString Cid] [DecidableEq Cid] in
theorem linkedOwners_congr {t : AccessState Cid} {m' : RuntimeManifest Cid}
    (hmanifest : s.manifest = some m) (hmanifest' : t.manifest = some m')
    (hgrp : m'.grp = m.grp) :
    linkedOwners services.access t = linkedOwners services.access s := by
  rw [linkedOwners, linkedOwners, hmanifest, hmanifest', Option.bind_some, Option.bind_some, hgrp]

omit [ToString Cid] [DecidableEq Cid] in
variable (services s m) in
/-- The owners of a start that can publish them are linked. -/
theorem owners_startup_subset (cliOwners : List String) {access : StartupOutcome}
    (hpublished : access.ownersPublished = true) :
    fileOwners services.defaults
        (startup services.access services.defaults (withManifest s m) cliOwners access) ⊆
      linkedOwners services.access
        (startup services.access services.defaults (withManifest s m) cliOwners access) := by
  rw [fileOwners_startup]
  obtain ⟨hsync, heq⟩ | ⟨m', -, -, -, heq⟩ :=
    startup_cases services.access services.defaults (withManifest s m) cliOwners access rfl
  · rw [heq, linkedOwners_resolveAndSeedOwners]
    intro o ho
    by_contra hnot
    refine absurd (hsync (needsManifestSync_iff.mpr ⟨o, ho, fun hread ↦ ?_⟩) hpublished)
      (Option.some_ne_none m)
    rw [read_seeded] at hread
    split_ifs at hread
    · exact hnot hread
    · exact List.not_mem_nil hread
  · rw [heq]
    simp [linkedOwners, setGroupLink]

omit [ToString Cid] [DecidableEq Cid] in
/-- Where a start has no owners but the linked ones, and can fetch them, it links no others. -/
theorem manifest_startup_of_linked (hmanifest : s.manifest = some m) {cliOwners : List String}
    {access : StartupOutcome} (hfetched : access.ownersFetched = true)
    (hfile : fileOwners services.defaults s ⊆ linkedOwners services.access s)
    (hcli : cliOwners ⊆ linkedOwners services.access s) :
    (startup services.access services.defaults s cliOwners access).manifest = some m := by
  have hseeded : (resolveAndSeedOwners services.access services.defaults s cliOwners
      access).manifest = some m := by
    rw [resolveAndSeedOwners, startupManifest, hmanifest]
  obtain ⟨-, heq⟩ | ⟨m', -, -, hsync, -⟩ :=
    startup_cases services.access services.defaults s cliOwners access rfl
  · rw [heq, hseeded]
  · obtain ⟨o, ho, hnot⟩ := needsManifestSync_iff.mp hsync
    rw [owners_seeded, mem_resolveOwners] at ho
    rw [read_seeded, if_pos hfetched] at ho hnot
    rcases ho with ho | ho | ho
    · exact absurd (hfile ho) hnot
    · exact absurd (hcli ho) hnot
    · exact absurd ho hnot

variable (services s m args) in
theorem owners_finish (hpublished : outcome.access.ownersPublished = true) :
    fileOwners services.defaults (finish services s m args outcome) ⊆
      linkedOwners services.access (finish services s m args outcome) := by
  have hstarted := owners_startup_subset services s
    (loadEntities services.store services.fetch m outcome.loads) args.owners hpublished
  obtain ⟨started, hmanifest, -⟩ := manifest_startup services s
    (loadEntities services.store services.fetch m outcome.loads) args.owners outcome.access
  have hfinished : (finish services s m args outcome).manifest =
      some (populateDefaultConfigRoot services.ourDid started
        (rootLoaded services.store services.fetch m outcome.loads) outcome.defaultsFetched
        outcome.defaultsPublished) := by
    unfold finish
    dsimp only
    rw [hmanifest]
    rfl
  rw [linkedOwners_congr hmanifest hfinished]
  · exact hstarted
  · unfold populateDefaultConfigRoot
    split_ifs
    · rfl
    · rfl

/-! ### Settled manifests -/

omit [ToString Cid] [DecidableEq Cid] in
/-- A root that is loaded has its settings after a start that can publish them. -/
theorem defaults_populateDefaultConfigRoot {ourDid : String} :
    ((populateDefaultConfigRoot ourDid m true true true).config.get "root").isSome = true ∧
      ((populateDefaultConfigRoot ourDid m true true true).config.get "start").isSome = true := by
  unfold populateDefaultConfigRoot
  split_ifs with hmissing
  · refine ⟨?_, isSome_get_orInsert_self _ _ _⟩
    rw [get_orInsert_of_ne _ _ (by decide)]
    exact isSome_get_orInsert_self _ _ _
  · simpa [Option.isSome_iff_ne_none] using hmissing

omit [ToString Cid] [DecidableEq Cid] in
theorem isSome_config_of_kept {m' : RuntimeManifest Cid} {store : Manifest.Store Cid}
    (hkept : Kept store overlays m m') {key : String} (h : (m.config.get key).isSome = true) :
    (m'.config.get key).isSome = true := by
  obtain ⟨value, hvalue⟩ := Option.isSome_iff_exists.mp h
  rw [hkept.config key value hvalue]
  rfl

theorem settled_of_boot (hserved : Served services s args outcome)
    (h : boot services s args outcome = some t) : ∃ m, Settled services t m := by
  unfold boot at h
  split_ifs at h
  cases hstart : startupManifest services.access s outcome.access with
  | none =>
    unfold startupManifest at hstart
    split at hstart
    · cases hstart
    · rw [if_pos hserved.bootstrapped] at hstart
      cases hstart
  | some start =>
    rw [hstart] at h
    obtain ⟨prepared, hprepared, rfl⟩ := Option.map_eq_some_iff.mp h
    obtain ⟨reconciled, hreconciled, hfinished⟩ :
        ∃ reconciled, Kept services.store [] prepared reconciled ∧ _ :=
      manifest_finish services s prepared args outcome
    obtain ⟨finished, hfinished', hkept⟩ :
        ∃ finished, _ ∧ Kept services.store [] prepared finished :=
      kept_finish services s prepared args outcome
    refine ⟨finished, hfinished', ?_, ?_, owners_finish services s prepared args hserved.owners⟩
    · have hcapacity : Kept services.store args.kinds.toList start prepared ∧ _ :=
        kept_prepare (fun kinds hkinds ↦ Option.mem_toList.mpr hkinds) hprepared
      exact isSome_config_of_kept hkept hcapacity.2
    · by_cases hroot : prepared.entities.get "root" = none
      · exact .inr ((hkept.linked "root").mpr hroot)
      · rw [hserved.root start prepared hstart hprepared hroot, hserved.defaultsFetched,
          hserved.defaultsPublished] at hfinished
        obtain rfl := Option.some.inj (hfinished.symm.trans hfinished')
        exact .inl defaults_populateDefaultConfigRoot

theorem settled_of_step {action : RestartAction Cid} (hs : Settled services s m)
    (hpublishes : PublishesOwners action) (h : restartStep services s action = some t) :
    ∃ m', Settled services t m' := by
  obtain ⟨m', hm', hkept⟩ := kept_of_step hs.manifest h
  have howners : fileOwners services.defaults t ⊆ linkedOwners services.access t := by
    cases action with
    | boot args outcome =>
      obtain rfl := Option.some.inj h
      cases hboot : boot services s args outcome with
      | none => exact hs.owners
      | some t =>
        obtain ⟨prepared, -, rfl⟩ := exists_of_boot hs.manifest hboot
        exact owners_finish services s prepared args hpublishes
    | saveAllEntityStates fetched saved published =>
      obtain rfl := Option.some.inj h
      have hgrp : (saveAllEntityStates services m fetched saved published).grp = m.grp := by
        unfold saveAllEntityStates
        split_ifs
        · rfl
        · rfl
      rw [linkedOwners_congr hs.manifest (by dsimp only; rw [hs.manifest]; rfl) hgrp]
      exact hs.owners
  refine ⟨m', hm', isSome_config_of_kept hkept hs.capacity, ?_, howners⟩
  exact hs.defaults.imp
    (fun hset ↦ ⟨isSome_config_of_kept hkept hset.1, isSome_config_of_kept hkept hset.2⟩)
    (hkept.linked "root").mpr

/-! ### Quiet starts -/

theorem loadEntities_of_quiet (hmanifest : s.manifest = some m)
    (hquiet : Quiet services s args outcome) :
    loadEntities services.store services.fetch m outcome.loads = m := by
  have hnone : m.entities.entries.any (fun entry ↦
      (initialisedLink services.store services.fetch m outcome.loads entry.1 entry.2).isSome) =
        false := by
    refine List.any_eq_false.mpr fun entry hentry hsome ↦ ?_
    obtain ⟨changed, hchanged⟩ := Option.isSome_iff_exists.mp hsome
    obtain ⟨⟨node, kindNode⟩, hnode, hloaded⟩ :=
      Option.bind_eq_some_iff.mp (Option.join_eq_some_iff.mp hchanged)
    obtain ⟨⟨lifecycle, saved⟩, hloaded, hpersisted⟩ := Option.map_eq_some_iff.mp hloaded
    dsimp only at hloaded hpersisted
    unfold persistInitialisedTransition at hpersisted
    cases lifecycle with
    | error => cases hpersisted
    | running =>
      have hunchanged := hquiet.unchanged m hmanifest entry hentry node kindNode saved hnode hloaded
      dsimp only at hpersisted
      rw [if_pos hunchanged] at hpersisted
      cases hpersisted
  unfold loadEntities
  dsimp only
  rw [hnone, Bool.and_false, Bool.false_and]
  rfl

/-- A quiet start leaves a settled manifest as it is. -/
theorem manifest_finish_of_quiet (hs : Settled services s m)
    (hquiet : Quiet services s args outcome) :
    (finish services s m args outcome).manifest = some m := by
  have hsame : withManifest s m = s := by
    rw [withManifest, ← hs.manifest]
  unfold finish
  dsimp only
  rw [loadEntities_of_quiet hs.manifest hquiet, hsame,
    manifest_startup_of_linked hs.manifest hquiet.fetched hs.owners hquiet.owners, Option.map_some]
  congr 1
  unfold populateDefaultConfigRoot
  rcases hs.defaults with ⟨hroot, hstart⟩ | hroot
  · rw [hroot, hstart]
    simp
  · rw [rootLoaded, hroot]
    simp

end Steps

/-! ### A runtime with a root entity -/

/-- Identifiers that are the documents they identify. -/
inductive BootCid
  | document (document : Document BootCid)
  | access (document : AccessDocument)

instance : ToString BootCid := ⟨fun _ ↦ "cid"⟩

/-- A native kind without state. -/
def rootKind : Kinds.KindNode BootCid where
  protocol := "/ma/root"
  cid := none
  kindType := .native
  behaviour := none
  behaviourChain := []
  attributes := .empty
  hostFunctions := []
  extendsProtocol := none

/-- An identifier of the one kind. -/
def rootKindCid : BootCid := .access (.group [])

def rootServices : BootServices BootCid where
  store :=
    { cidOf := .document
      document
        | .document document => some document
        | .access _ => none
      document_cidOf _ := rfl }
  access :=
    { cidOf := .access
      document
        | .access document => some document
        | .document _ => none
      document_cidOf _ := rfl }
  fetch _ := .ok rootKind
  defaults := freshConfig
  ourDid := "did:ma:garden"

def rootNode : EntityNode BootCid where
  kind := "/ma/root"
  behaviour := none
  acl := "open"
  state := none
  parent := none
  label := none
  attributes := .empty
  init := none
  initialised := false
  reloadError := none

/-- A manifest with a root entity of the kind, and a name. -/
def rootManifest : RuntimeManifest BootCid :=
  { RuntimeManifest.default with
    kinds := ⟨⟨[("ma", .branch ⟨[("root", .leaf ⟨rootKindCid⟩)]⟩)]⟩⟩
    entities := ⟨[("root", ⟨.document (.entityNode rootNode)⟩)]⟩
    config := ⟨[("name", .string "garden")]⟩ }

def gardenerStarts : BootArgs BootCid := ⟨["did:ma:gardener"], none⟩

/-- A start whose requests are all served. -/
def allServed : BootOutcome BootCid where
  overlayFetched := true
  overlayPut := true
  capacityFetched := true
  capacityPut := true
  loads :=
    { manifestFetched := true
      kindFetched _ := true
      entity _ :=
        { fetched := true
          attempts _ := Plugin.attemptWith true true
          hasFactory := true
          native := ⟨true, true, true, true⟩
          nativeSaved := none
          stateAdded := true
          nodePublished := true }
      published := true }
  access := everythingSucceeds
  defaultsFetched := true
  defaultsPublished := true

/-- A start, one that fails to fetch the manifest, and a shutdown that saves a state of the root. -/
def startAndStop : List (RestartAction BootCid) :=
  [.boot gardenerStarts allServed, .boot gardenerStarts { allServed with capacityFetched := false },
    .saveAllEntityStates (fun _ ↦ true) (fun _ ↦ some rootKindCid) true]

end MaRuntime.Boot
