import MaRuntime.Crud.Agreement
import MaRuntime.Dispatch.Deletion

/-!
# The parents of genesis entities

A genesis entity has no parent. An upsert clears the parent in its copy of the node, from which the
first plugin is loaded, and links the node as it was published. A reload of a live entity and a
restart load from the node that is linked.

`Parentless` says that a genesis entity has no parent, neither in the node that the manifest links
for it nor in its live plugin. From any state, it holds of every entity whose upsert was accepted,
at every moment of a run, if and only if each node that is linked for such an entity comes without a
parent, and finds no live plugin with one, and each plugin that a reload installs has none
(`parentless_iff`). A restart adds no condition: it keeps what is linked.

Main definitions: `parentStep`, `Parentless`, `KeepsParentless`.
Main results: `parentless_iff`, `genesis_parent_returns`.

Scope. The steps are those of `crudStep`, and restarts from the writer's manifest, in which an
entity is loaded or is not. The kinds are resolved, and do not change.
-/

set_option autoImplicit false
set_option relaxedAutoImplicit false

namespace MaRuntime.Crud

open Runs Manifest Plugin

variable {Cid : Type}

/-! ### Restarts -/

/-- What the calls of a startup answer: whether each entity is loaded, with its lifecycle and the
state that is saved, whether its changed node is published, and whether the manifest is. -/
structure Startup (Cid : Type) where
  outcome : String → Outcome Cid
  nodePublished : String → Bool
  published : Bool

/-- The requests and their reloads, with the names whose upsert was accepted as a history for the
property. -/
structure ParentState (Cid : Type) where
  crud : CrudState Cid
  accepted : List String

/-- The steps: one of a request or a reload, and a restart. -/
inductive ParentAction (Cid : Type)
  | crud (action : CrudAction Cid)
  | restart (startup : Startup Cid)

section Machine

variable (store : Store Cid) (kinds : String → Option (KindNode Cid))

/-- The plugin and the node that a startup makes of a node, if it loads the entity. -/
def startNode (startup : Startup Cid) (name : String) (node : EntityNode Cid) :
    Option (RegisteredPlugin × EntityNode Cid) :=
  let outcome := startup.outcome name
  match outcome.succeeds, kinds node.kind with
  | true, some _ =>
    some (.of node,
      Dispatch.startedNode node outcome.lifecycle outcome.stateCid (startup.nodePublished name))
  | _, _ => none

/-- `load_entities`: the live plugins are those of the linked nodes, and the changed nodes
are linked. -/
def CrudState.restart (s : CrudState Cid) (startup : Startup Cid) : CrudState Cid :=
  let manifest :=
    if startup.published then
      { s.manifest with
        entities := s.manifest.entities.filterMap fun name link ↦
          some (match (nodeAt store link.cid).bind (startNode kinds startup name) with
            | some (_, node) => ⟨store.cidOf (.entityNode node)⟩
            | none => link) }
    else s.manifest
  { manifest := manifest
    statsManifest := manifest
    registry := fun name ↦ ((s.manifest.entityNodeAt store name).bind
      (startNode kinds startup name)).map Prod.fst
    tasks := fun _ ↦ none }

/-- The name whose upsert a step accepts. -/
def acceptedBy (s : CrudState Cid) : CrudAction Cid → List String
  | .advance id outcome =>
    match s.tasks id with
    | some (.upsertLink name _ _) => if outcome.succeeds then [name] else []
    | _ => []
  | _ => []

/-- One step of the requests, the reloads and the restarts. -/
def parentStep (s : ParentState Cid) : ParentAction Cid → Option (ParentState Cid)
  | .crud action =>
    (crudStep store kinds s.crud action).map fun crud ↦
      ⟨crud, acceptedBy s.crud action ++ s.accepted⟩
  | .restart startup => some { s with crud := s.crud.restart store kinds startup }

/-- A runtime in which no upsert was accepted yet. -/
def ParentState.start (s : CrudState Cid) : ParentState Cid := ⟨s, []⟩

/-! ### The property and the condition -/

/-- Whether a node is that of a genesis entity under its resolved kind. -/
def isGenesisNode (node : EntityNode Cid) : Bool :=
  (kinds node.kind).any fun kind ↦ isGenesisEntity kind node

/-- No live plugin of a name has a parent. -/
def PluginParentless (s : CrudState Cid) (name : String) : Prop :=
  ∀ plugin, s.registry name = some plugin → plugin.parent = none

/-- The node that is linked for a genesis entity has no parent, and its live plugin has none. -/
def Parentless (s : CrudState Cid) (name : String) : Prop :=
  ∀ node, s.manifest.entityNodeAt store name = some node → isGenesisNode kinds node = true →
    node.parent = none ∧ PluginParentless s name

/-- A step links a node for an entity, as it was published or with another ACL. -/
def Links (s : CrudState Cid) (action : CrudAction Cid) (name : String) (node : EntityNode Cid) :
    Prop :=
  ∃ id outcome, action = .advance id outcome ∧ outcome.succeeds = true ∧
    ((∃ cid copy, s.tasks id = some (.upsertLink name cid copy) ∧ nodeAt store cid = some node) ∨
      s.tasks id = some (.aclLink name node))

/-- A step installs a plugin for an entity. -/
def Installs (s : CrudState Cid) (action : CrudAction Cid) (name : String)
    (plugin : RegisteredPlugin) : Prop :=
  ∃ id outcome lifecycle, action = .advance id outcome ∧
    s.tasks id = some (.install name plugin lifecycle)

/-- The node that a step links for a genesis entity has no parent, while no live plugin of the
entity has one, and the plugin that a step installs for a genesis entity has none. -/
structure KeepsParentless (s : ParentState Cid) (action : ParentAction Cid) : Prop where
  linking : ∀ step name node, action = .crud step → Links store s.crud step name node →
    name ∈ acceptedBy s.crud step ++ s.accepted → isGenesisNode kinds node = true →
      node.parent = none ∧ PluginParentless s.crud name
  installing : ∀ step name plugin, action = .crud step → Installs s.crud step name plugin →
    name ∈ s.accepted → ∀ node, s.crud.manifest.entityNodeAt store name = some node →
      isGenesisNode kinds node = true → plugin.parent = none

end Machine

/-! ### Steps -/

section Steps

variable {store : Store Cid} {kinds : String → Option (KindNode Cid)} {s t : CrudState Cid}
  {action : CrudAction Cid} {name : String}

/-- What makes a node that of a genesis entity, and its parent. -/
def genesisView (kinds : String → Option (KindNode Cid)) (node : EntityNode Cid) :
    Bool × Option String :=
  (isGenesisNode kinds node, node.parent)

theorem ignoresLoads_genesisView : IgnoresLoads (genesisView kinds) := fun _ _ _ _ ↦ rfl

/-- A step after which a name has no other plugin, and a node of the same kind and parent or none.
-/
def QuietFor (store : Store Cid) (kinds : String → Option (KindNode Cid)) (s t : CrudState Cid)
    (name : String) : Prop :=
  (∀ node, t.manifest.entityNodeAt store name = some node →
      (s.manifest.entityNodeAt store name).map (genesisView kinds) =
        some (genesisView kinds node)) ∧
    ∀ plugin, t.registry name = some plugin → s.registry name = some plugin

theorem Parentless.of_quiet (hs : Parentless store kinds s name)
    (hquiet : QuietFor store kinds s t name) : Parentless store kinds t name := by
  intro node hnode hgenesis
  obtain ⟨before, hbefore, hview⟩ := Option.map_eq_some_iff.mp (hquiet.1 node hnode)
  obtain ⟨hkind, hparent⟩ := Prod.mk.inj hview
  obtain ⟨hnone, hplugin⟩ := hs before hbefore (hkind.trans hgenesis)
  exact ⟨hparent.symm.trans hnone, fun plugin hfound ↦ hplugin plugin (hquiet.2 plugin hfound)⟩

theorem quietFor_of_eq
    (hview : (t.manifest.entityNodeAt store name).map (genesisView kinds) =
      (s.manifest.entityNodeAt store name).map (genesisView kinds))
    (hplugin : ∀ plugin, t.registry name = some plugin → s.registry name = some plugin) :
    QuietFor store kinds s t name := by
  refine ⟨fun node hnode ↦ ?_, hplugin⟩
  rw [← hview, hnode, Option.map_some]

/-- A step that links a node links it, and leaves the registry. -/
theorem links_step {node : EntityNode Cid} (h : crudStep store kinds s action = some t)
    (hlinks : Links store s action name node) :
    t.manifest.entityNodeAt store name = some node ∧ t.registry = s.registry := by
  obtain ⟨id, outcome, rfl, hsucceeds, ⟨cid, copy, htask, hnode⟩ | htask⟩ := hlinks
  · simp only [crudStep, htask, Option.bind_some, taskStep, hsucceeds, if_true] at h
    obtain rfl := Option.some.inj h
    refine ⟨?_, rfl⟩
    simp only [RuntimeManifest.entityNodeAt, KeyedMap.get_insert_self, Option.bind_some, hnode]
  · simp only [crudStep, htask, Option.bind_some, taskStep, hsucceeds, if_true] at h
    obtain rfl := Option.some.inj h
    exact ⟨entityNodeAt_setEntityNode_self .., rfl⟩

/-- A step that installs a plugin installs it, and leaves the manifest. -/
theorem installs_step {plugin : RegisteredPlugin} (h : crudStep store kinds s action = some t)
    (hinstalls : Installs s action name plugin) :
    t.registry name = some plugin ∧ t.manifest = s.manifest := by
  obtain ⟨id, outcome, lifecycle, rfl, htask⟩ := hinstalls
  simp only [crudStep, htask, Option.bind_some, taskStep] at h
  obtain rfl := Option.some.inj h
  exact ⟨Function.update_self .., rfl⟩

/-- A step that removes a plugin is quiet for every name. -/
theorem quietFor_setPlugin_none (s : CrudState Cid) (id : Nat) (task : CrudTask Cid)
    (removed name : String) :
    QuietFor store kinds s ((s.setPlugin removed none).setTask id task) name := by
  refine quietFor_of_eq rfl fun plugin hplugin ↦ ?_
  simp only [CrudState.setTask, CrudState.setPlugin, Function.update_apply] at hplugin
  split_ifs at hplugin
  exact hplugin

/-- The next step of a task links a node for a name, installs a plugin for it, or is quiet for it.
-/
theorem taskStep_cases {id : Nat} {task : CrudTask Cid} {outcome : Outcome Cid}
    (htask : s.tasks id = some task) (h : taskStep store kinds s id outcome task = some t)
    (name : String) :
    (∃ node, Links store s (.advance id outcome) name node) ∨
      (∃ plugin, Installs s (.advance id outcome) name plugin) ∨
      QuietFor store kinds s t name := by
  have hquiet {next : CrudTask Cid} : QuietFor store kinds s (s.setTask id next) name :=
    quietFor_of_eq rfl fun _ hplugin ↦ hplugin
  cases task with
  | upsertLink linked cid copy =>
    simp only [taskStep] at h
    split_ifs at h with hsucceeds
    · obtain rfl := Option.some.inj h
      by_cases hname : name = linked
      · subst hname
        cases hnode : nodeAt store cid with
        | some node => exact .inl ⟨node, id, outcome, rfl, hsucceeds, .inl ⟨cid, copy, htask, hnode⟩⟩
        | none =>
          right; right
          refine ⟨fun node hfound ↦ ?_, fun _ hplugin ↦ hplugin⟩
          simp only [RuntimeManifest.entityNodeAt, KeyedMap.get_insert_self, Option.bind_some,
            hnode] at hfound
          cases hfound
      · right; right
        refine quietFor_of_eq ?_ fun _ hplugin ↦ hplugin
        simp only [RuntimeManifest.entityNodeAt, KeyedMap.get_insert_of_ne _ _ hname]
    · obtain rfl := Option.some.inj h
      exact .inr (.inr hquiet)
  | aclLink linked node =>
    simp only [taskStep] at h
    split_ifs at h with hsucceeds
    · obtain rfl := Option.some.inj h
      by_cases hname : name = linked
      · subst hname
        exact .inl ⟨node, id, outcome, rfl, hsucceeds, .inr htask⟩
      · right; right
        refine quietFor_of_eq ?_ fun _ hplugin ↦ hplugin
        simp only [entityNodeAt_setEntityNode_of_ne store _ _ hname]
    · obtain rfl := Option.some.inj h
      exact .inr (.inr hquiet)
  | install installed plugin lifecycle =>
    obtain rfl := Option.some.inj h
    by_cases hname : name = installed
    · subst hname
      exact .inr (.inl ⟨plugin, id, outcome, lifecycle, rfl, htask⟩)
    · right; right
      refine quietFor_of_eq rfl fun found hfound ↦ ?_
      simp only [CrudState.setTask, CrudState.setPlugin, Function.update_of_ne hname] at hfound
      exact hfound
  | deletePlugin removed =>
    right; right
    simp only [taskStep] at h
    split_ifs at h
    · obtain rfl := Option.some.inj h
      exact quietFor_setPlugin_none ..
    · obtain rfl := Option.some.inj h
      exact hquiet
  | uninstall removed reason =>
    obtain rfl := Option.some.inj h
    exact .inr (.inr (quietFor_setPlugin_none ..))
  | deleteLink removed =>
    right; right
    simp only [taskStep] at h
    split_ifs at h
    · obtain rfl := Option.some.inj h
      refine ⟨fun node hnode ↦ ?_, fun _ hplugin ↦ hplugin⟩
      obtain ⟨link, hlink, hfound⟩ := Option.bind_eq_some_iff.mp hnode
      have hbefore : s.manifest.entityNodeAt store name = some node := by
        rw [RuntimeManifest.entityNodeAt, (KeyedMap.get_remove_eq_some_iff.mp hlink).2]
        exact hfound
      rw [hbefore, Option.map_some]
    · obtain rfl := Option.some.inj h
      exact hquiet
  | publishState entity stateCid =>
    right; right
    simp only [taskStep] at h
    split_ifs at h
    · obtain rfl := Option.some.inj h
      exact quietFor_of_eq
        (map_entityNodeAt_setEntityState ignoresLoads_genesisView s entity stateCid name)
        fun _ hplugin ↦ hplugin
    · obtain rfl := Option.some.inj h
      exact hquiet
  | complete entity =>
    right; right
    simp only [taskStep] at h
    split_ifs at h
    · obtain rfl := Option.some.inj h
      exact quietFor_of_eq
        (map_entityNodeAt_completeEntityReload ignoresLoads_genesisView s entity outcome.stateCid
          name) fun _ hplugin ↦ hplugin
    · obtain rfl := Option.some.inj h
      exact hquiet
  | markFailed entity reason =>
    right; right
    simp only [taskStep] at h
    split_ifs at h
    · obtain rfl := Option.some.inj h
      exact quietFor_of_eq
        (map_entityNodeAt_setEntityReloadError ignoresLoads_genesisView s entity (some reason) name)
        fun _ hplugin ↦ hplugin
    · obtain rfl := Option.some.inj h
      exact hquiet
  | deleteCheck | upsertFetch | aclCheck | aclFetch | spawnReload | resolveKind | findCurrent
  | refreshState | refreshNode | loading =>
    right; right
    simp only [taskStep] at h
    repeat' split at h
    all_goals
      obtain rfl := Option.some.inj h
      exact hquiet
  | answered => cases h

theorem crudStep_cases (h : crudStep store kinds s action = some t) (name : String) :
    (∃ node, Links store s action name node) ∨ (∃ plugin, Installs s action name plugin) ∨
      QuietFor store kinds s t name := by
  have hbegin {id : Nat} {task : CrudTask Cid} (hstep : s.begin id task = some t) :
      QuietFor store kinds s t name := by
    unfold CrudState.begin at hstep
    split at hstep
    · obtain rfl := Option.some.inj hstep
      exact quietFor_of_eq rfl fun _ hplugin ↦ hplugin
    · cases hstep
  cases action with
  | delete | setAcl | clearAcl => exact .inr (.inr (hbegin h))
  | upsert id upserted cid isOwner =>
    right; right
    simp only [crudStep] at h
    split_ifs at h
    · exact hbegin h
    · exact hbegin h
  | advance id outcome =>
    obtain ⟨task, htask, hstep⟩ := Option.bind_eq_some_iff.mp h
    exact taskStep_cases htask hstep name
  | writeStats =>
    obtain rfl := Option.some.inj h
    exact .inr (.inr (quietFor_of_eq rfl fun _ hplugin ↦ hplugin))
  | setEntityState entity stateCid =>
    obtain rfl := Option.some.inj h
    exact .inr (.inr (quietFor_of_eq
      (map_entityNodeAt_setEntityState ignoresLoads_genesisView s entity stateCid name)
      fun _ hplugin ↦ hplugin))

/-- A startup loads a plugin from a node, and keeps what makes it that of a genesis entity. -/
theorem startNode_eq_some {startup : Startup Cid} {node started : EntityNode Cid}
    {plugin : RegisteredPlugin} (h : startNode kinds startup name node = some (plugin, started)) :
    plugin = .of node ∧ genesisView kinds started = genesisView kinds node := by
  simp only [startNode] at h
  split at h
  · obtain ⟨rfl, rfl⟩ := Prod.mk.inj (Option.some.inj h)
    refine ⟨rfl, ?_⟩
    unfold Dispatch.startedNode
    split
    · split_ifs
      · rfl
      · rfl
    · rfl
  · cases h

/-- A restart keeps what makes the linked nodes those of genesis entities, and their parents. -/
theorem genesisView_restart {startup : Startup Cid} {node : EntityNode Cid}
    (h : (s.restart store kinds startup).manifest.entityNodeAt store name = some node) :
    (s.manifest.entityNodeAt store name).map (genesisView kinds) =
      some (genesisView kinds node) := by
  simp only [CrudState.restart] at h
  split_ifs at h
  · obtain ⟨link, hlink, hnode⟩ := Option.bind_eq_some_iff.mp h
    rw [KeyedMap.get_filterMap] at hlink
    obtain ⟨before, hbefore, hmade⟩ := Option.bind_eq_some_iff.mp hlink
    have hfound : s.manifest.entityNodeAt store name = nodeAt store before.cid := by
      rw [RuntimeManifest.entityNodeAt, hbefore, Option.bind_some]
    rw [hfound]
    split at hmade
    · rename_i plugin started hstarted
      obtain rfl := Option.some.inj hmade
      obtain ⟨read, hread, hstart⟩ := Option.bind_eq_some_iff.mp hstarted
      obtain rfl := Option.some.inj ((nodeAt_cidOf store started).symm.trans hnode)
      rw [hread, Option.map_some, (startNode_eq_some hstart).2]
    · obtain rfl := Option.some.inj hmade
      rw [hnode, Option.map_some]
  · rw [h, Option.map_some]

/-- A restart keeps genesis entities without a parent. -/
theorem Parentless.restart (hs : Parentless store kinds s name) (startup : Startup Cid) :
    Parentless store kinds (s.restart store kinds startup) name := by
  intro node hnode hgenesis
  obtain ⟨before, hbefore, hview⟩ := Option.map_eq_some_iff.mp (genesisView_restart hnode)
  obtain ⟨hkind, hparent⟩ := Prod.mk.inj hview
  obtain ⟨hnone, -⟩ := hs before hbefore (hkind.trans hgenesis)
  refine ⟨hparent.symm.trans hnone, fun plugin hplugin ↦ ?_⟩
  obtain ⟨⟨started, after⟩, hstarted, rfl⟩ := Option.map_eq_some_iff.mp hplugin
  obtain ⟨read, hread, hstart⟩ := Option.bind_eq_some_iff.mp hstarted
  obtain rfl := Option.some.inj (hbefore.symm.trans hread)
  rw [(startNode_eq_some hstart).1]
  exact hnone

end Steps

/-! ### Runs -/

section Runs

variable {store : Store Cid} {kinds : String → Option (KindNode Cid)} {s t : ParentState Cid}
  {action : ParentAction Cid}

/-- The entities whose upsert was accepted have no parent if they are genesis entities. -/
def AcceptedParentless (store : Store Cid) (kinds : String → Option (KindNode Cid))
    (s : ParentState Cid) : Prop :=
  ∀ name ∈ s.accepted, Parentless store kinds s.crud name

/-- A step that accepts the upsert of an entity links a node for it, or a link without a node. -/
theorem links_of_acceptedBy {s t : CrudState Cid} {action : CrudAction Cid} {name : String}
    (h : crudStep store kinds s action = some t) (haccepted : name ∈ acceptedBy s action) :
    (∃ node, Links store s action name node) ∨ t.manifest.entityNodeAt store name = none := by
  unfold acceptedBy at haccepted
  split at haccepted
  · rename_i id outcome
    split at haccepted
    · rename_i linked cid copy htask
      split_ifs at haccepted with hsucceeds
      · obtain rfl := List.mem_singleton.mp haccepted
        cases hnode : nodeAt store cid with
        | some node => exact .inl ⟨node, id, outcome, rfl, hsucceeds, .inl ⟨cid, copy, htask, hnode⟩⟩
        | none =>
          right
          simp only [crudStep, htask, Option.bind_some, taskStep, hsucceeds, if_true] at h
          obtain rfl := Option.some.inj h
          simp only [RuntimeManifest.entityNodeAt, KeyedMap.get_insert_self, Option.bind_some, hnode]
      · cases haccepted
    · cases haccepted
  · cases haccepted

theorem acceptedParentless_step (hs : AcceptedParentless store kinds s)
    (hkeeps : KeepsParentless store kinds s action) (h : parentStep store kinds s action = some t) :
    AcceptedParentless store kinds t := by
  intro name hname
  cases action with
  | crud step =>
    obtain ⟨crud, hstep, rfl⟩ := Option.map_eq_some_iff.mp h
    have hlinking (node : EntityNode Cid) (hlinks : Links store s.crud step name node) :
        Parentless store kinds crud name := by
      obtain ⟨hlinked, hregistry⟩ := links_step hstep hlinks
      intro found hfound hgenesis
      obtain rfl := Option.some.inj (hlinked.symm.trans hfound)
      obtain ⟨hparent, hplugin⟩ := hkeeps.linking step name node rfl hlinks hname hgenesis
      refine ⟨hparent, fun plugin hlive ↦ hplugin plugin ?_⟩
      rw [← hregistry]
      exact hlive
    rcases List.mem_append.mp hname with haccepted | hbefore
    · rcases links_of_acceptedBy hstep haccepted with ⟨node, hlinks⟩ | hnone
      · exact hlinking node hlinks
      · intro node hnode
        cases hnone.symm.trans hnode
    · rcases crudStep_cases hstep name with ⟨node, hlinks⟩ | ⟨plugin, hinstalls⟩ | hquiet
      · exact hlinking node hlinks
      · obtain ⟨hplugin, hmanifest⟩ := installs_step hstep hinstalls
        intro node hnode hgenesis
        have hlinked : s.crud.manifest.entityNodeAt store name = some node := hmanifest ▸ hnode
        refine ⟨(hs name hbefore node hlinked hgenesis).1, fun found hfound ↦ ?_⟩
        obtain rfl := Option.some.inj (hplugin.symm.trans hfound)
        exact hkeeps.installing step name plugin rfl hinstalls hbefore node hlinked hgenesis
      · exact (hs name hbefore).of_quiet hquiet
  | restart startup =>
    obtain rfl := Option.some.inj h
    exact (hs name hname).restart startup

/-- A step after which no accepted genesis entity has a parent meets the condition. -/
theorem keepsParentless_of_acceptedParentless (h : parentStep store kinds s action = some t)
    (ht : AcceptedParentless store kinds t) : KeepsParentless store kinds s action where
  linking step name node haction hlinks hname hgenesis := by
    subst haction
    obtain ⟨crud, hstep, rfl⟩ := Option.map_eq_some_iff.mp h
    obtain ⟨hlinked, hregistry⟩ := links_step hstep hlinks
    obtain ⟨hparent, hplugin⟩ := ht name hname node hlinked hgenesis
    refine ⟨hparent, fun plugin hlive ↦ hplugin plugin ?_⟩
    show crud.registry name = some plugin
    rw [hregistry]
    exact hlive
  installing step name plugin haction hinstalls hname node hnode hgenesis := by
    subst haction
    obtain ⟨crud, hstep, rfl⟩ := Option.map_eq_some_iff.mp h
    obtain ⟨hplugin, hmanifest⟩ := installs_step hstep hinstalls
    have hlinked : crud.manifest.entityNodeAt store name = some node := hmanifest ▸ hnode
    exact (ht name (List.mem_append_right _ hname) node hlinked hgenesis).2 plugin hplugin

/-- A step of a task that neither links a node nor installs a plugin meets the condition. -/
theorem keepsParentless_of_task {id : Nat} {outcome : Outcome Cid} {task : CrudTask Cid}
    (htask : s.crud.tasks id = some task)
    (hlink : ∀ name cid copy, task ≠ .upsertLink name cid copy)
    (hacl : ∀ name node, task ≠ .aclLink name node)
    (hinstall : ∀ name plugin lifecycle, task ≠ .install name plugin lifecycle) :
    KeepsParentless store kinds s (.crud (.advance id outcome)) where
  linking := by
    rintro _ name node ⟨⟩ ⟨_, _, ⟨⟩, -, ⟨cid, copy, hother, -⟩ | hother⟩
    · exact absurd (Option.some.inj (htask.symm.trans hother)) (hlink name cid copy)
    · exact absurd (Option.some.inj (htask.symm.trans hother)) (hacl name node)
  installing := by
    rintro _ name plugin ⟨⟩ ⟨_, _, lifecycle, ⟨⟩, hother⟩
    exact absurd (Option.some.inj (htask.symm.trans hother)) (hinstall name plugin lifecycle)

/-- From any state, the genesis entities whose upsert was accepted have no parent at any moment of a
run, if and only if its steps meet the condition. -/
theorem parentless_iff {start : CrudState Cid} {actions : List (ParentAction Cid)}
    {u : ParentState Cid} (h : Run (parentStep store kinds) (.start start) actions u) :
    (∀ before after t, actions = before ++ after →
        Run (parentStep store kinds) (.start start) before t →
          ∀ name ∈ t.accepted, Parentless store kinds t.crud name) ↔
      GuardedRun (parentStep store kinds) (KeepsParentless store kinds) (.start start) actions u :=
  guardedRun_iff_forall_prefix (AcceptedParentless store kinds) h
    (fun _ hnone ↦ nomatch hnone)
    (fun _ _ _ hs hkeeps hstep ↦ acceptedParentless_step hs hkeeps hstep)
    (fun _ _ _ _ hstep ht ↦ keepsParentless_of_acceptedParentless hstep ht)

end Runs

/-! ### A genesis entity that is published with a parent -/

/-- The node of a genesis entity. -/
def rootNode (parent : Option String) : EntityNode ContentCid :=
  { roomNode with
    parent := parent
    attributes := KeyedMap.empty.insert "genesis" (.bool true) }

/-- A startup at which every call is answered. -/
def everythingStarts : Startup ContentCid where
  outcome _ := ⟨true, "", none, .running⟩
  nodePublished _ := true
  published := true

/-- An upsert by an owner, its reload, and a restart. -/
def upsertsAndRestarts (parent : Option String) : List (ParentAction ContentCid) :=
  .crud (.upsert 0 "room" (contentStore.cidOf (.entityNode (rootNode parent))) true) ::
    (List.replicate 8 (answer 0)).map .crud ++ [.restart everythingStarts]

/-- A genesis entity that is published without a parent has none, and has none after a restart. -/
theorem parentless_iff_published_without :
    ∃ u, Run (parentStep contentStore fun _ ↦ some statefulKind)
        (.start (.start .default fun _ ↦ none)) (upsertsAndRestarts none) u ∧
      u.accepted = ["room"] ∧ Parentless contentStore (fun _ ↦ some statefulKind) u.crud "room" := by
  have hrun : Run (parentStep contentStore fun _ ↦ some statefulKind)
      (.start (.start .default fun _ ↦ none)) (upsertsAndRestarts none) _ := run_of_execute rfl
  refine ⟨_, hrun, rfl, (parentless_iff hrun).mpr ?_ _ [] _ (List.append_nil _).symm hrun "room"
    List.mem_cons_self⟩
  refine .cons ⟨?_, ?_⟩ rfl <| .cons ?_ rfl <| .cons ⟨?_, ?_⟩ rfl <| .cons ?_ rfl <|
    .cons ?_ rfl <| .cons ?_ rfl <| .cons ?_ rfl <| .cons ⟨?_, ?_⟩ rfl <| .cons ?_ rfl <|
    .cons ⟨?_, ?_⟩ rfl (.nil _)
  · rintro _ name node ⟨⟩ ⟨_, _, ⟨⟩, -⟩
  · rintro _ name plugin ⟨⟩ ⟨_, _, _, ⟨⟩, -⟩
  · exact keepsParentless_of_task rfl (by simp) (by simp) (by simp)
  · rintro _ name node ⟨⟩ ⟨_, _, ⟨⟩, -, ⟨_, _, ⟨⟩, ⟨⟩⟩ | hacl⟩ - -
    · exact ⟨rfl, fun plugin hnone ↦ nomatch hnone⟩
    · cases hacl
  · rintro _ name plugin ⟨⟩ ⟨_, _, _, ⟨⟩, ⟨⟩⟩
  · exact keepsParentless_of_task rfl (by simp) (by simp) (by simp)
  · exact keepsParentless_of_task rfl (by simp) (by simp) (by simp)
  · exact keepsParentless_of_task rfl (by simp) (by simp) (by simp)
  · exact keepsParentless_of_task rfl (by simp) (by simp) (by simp)
  · rintro _ name node ⟨⟩ ⟨_, _, ⟨⟩, -, ⟨_, _, hupsert, -⟩ | hacl⟩
    · cases hupsert
    · cases hacl
  · rintro _ name plugin ⟨⟩ ⟨_, _, _, ⟨⟩, ⟨⟩⟩ - node - -
    rfl
  · exact keepsParentless_of_task rfl (by simp) (by simp) (by simp)
  · rintro _ name node ⟨⟩
  · rintro _ name plugin ⟨⟩

/-- A genesis entity that is published with a parent: the node that is linked keeps it, and after a
restart the live plugin has it. -/
theorem genesis_parent_returns :
    ∃ u, Run (parentStep contentStore fun _ ↦ some statefulKind)
        (.start (.start .default fun _ ↦ none)) (upsertsAndRestarts (some "hall")) u ∧
      u.accepted = ["room"] ∧ u.crud.registry "room" = some ⟨"open", some "hall"⟩ ∧
        ¬Parentless contentStore (fun _ ↦ some statefulKind) u.crud "room" := by
  refine ⟨_, run_of_execute rfl, rfl, rfl, fun hparentless ↦ ?_⟩
  cases (hparentless _ rfl rfl).1

end MaRuntime.Crud
