import MaRuntime.Library.Reconcile
import MaRuntime.Library.Runs
import MaRuntime.Manifest.Serialisable
import MaRuntime.Plugin.Load

/-!
# The registry and the manifest

CRUD requests change the manifest's links of entities and the registry of live plugins: an upsert
links a node and spawns a reload, a SET or DELETE of the field `acl` links the node with another ACL
and spawns a reload, and a delete removes the plugin and then the link. A reload has the current
plugin save its state, reads the node again, loads a plugin and puts it into the registry, and a
load that fails removes the plugin. The tasks take their steps in any order (`crudStep`).

A plugin in the registry agrees with the manifest when the manifest links a node with its ACL and
its parent. Registry, manifest and tasks are installed, linked and owed values
(`CrudState.reconciliation`), and each step is one of `Reconcile` (`crudStep_effect`). Where every
task has ended, all plugins agree after every run whose steps meet `KeepsAgreement`
(`registry_agrees`): a plugin is installed, an entity is unlinked, and a reload is given up, only
while they leave the name in agreement or another task is still to reload it. A step that does not
meet it leaves a name in disagreement that nothing is to reload (`settled_iff_guardedRun`).

The code does not see to that. A reload installs what it loaded although the entity was deleted
meanwhile (`deleted_entity_installed`), and the first plugin of a genesis entity has no parent,
while the manifest links the node as it was published, with one (`genesis_parent_disagrees`).

Main definitions: `CrudTask`, `crudStep`, `CrudState.reconciliation`, `KeepsAgreement`.
Main results: `registry_agrees`, `settled_iff_guardedRun`, `deleted_entity_installed`,
`genesis_parent_disagrees`.

Scope. A request is taken up when the caller's capabilities were checked, and an upsert when its
text is a CID. The loads are those of `Plugin.load`; here they end in a lifecycle or fail. The
errors of calls are parameters, and so is the whole reason for which a kind is not resolved. Answers
to callers are left out.
-/

set_option autoImplicit false
set_option relaxedAutoImplicit false

namespace MaRuntime.Crud

open Runs Reconcile Manifest Plugin

variable {Cid : Type}

/-! ### Plugins and nodes -/

/-- What the registry keeps of a plugin for its callers. -/
structure RegisteredPlugin where
  acl : String
  parent : Option String
deriving DecidableEq

/-- A plugin that is loaded from a node. -/
def RegisteredPlugin.of (node : EntityNode Cid) : RegisteredPlugin := ⟨node.acl, node.parent⟩

/-- Whether an entity is a genesis entity; its own attribute goes before its kind's. -/
def isGenesisEntity (kind : KindNode Cid) (node : EntityNode Cid) : Bool :=
  (((node.attributes.get "genesis").or (kind.attributes.get "genesis")).bind
    YamlValue.asBool).getD false

/-! ### The machine -/

/-- Where a request or a reload stands. -/
inductive CrudTask (Cid : Type)
  | deleteCheck (name : String)
  | deletePlugin (name : String)
  | deleteLink (name : String)
  | upsertFetch (name : String) (cid : Cid) (isOwner : Bool)
  | upsertLink (name : String) (cid : Cid) (node : EntityNode Cid)
  | aclCheck (name aclName : String)
  | aclFetch (name aclName : String)
  | aclLink (name : String) (node : EntityNode Cid)
  | spawnReload (name : String) (node : EntityNode Cid)
  | resolveKind (name : String) (node : EntityNode Cid)
  | findCurrent (name : String) (node : EntityNode Cid)
  | refreshState (name : String)
  | publishState (name : String) (stateCid : Cid)
  | refreshNode (name : String)
  | loading (name : String) (node : EntityNode Cid) (hasCurrent : Bool)
  | install (name : String) (plugin : RegisteredPlugin) (lifecycle : Lifecycle)
  | complete (name : String)
  | uninstall (name reason : String)
  | markFailed (name reason : String)
  | answered

/-- The entity that a task is still to reload. -/
def CrudTask.reloads : CrudTask Cid → Option String
  | .spawnReload name _ | .resolveKind name _ | .findCurrent name _ | .refreshState name
  | .publishState name _ | .refreshNode name | .loading name _ _ | .install name _ _
  | .uninstall name _ => some name
  | _ => none

/-- What a step's calls answer: whether they succeed, in time for a request, the text of their
error, the state that a plugin saved, and the lifecycle that a load ended in. -/
structure Outcome (Cid : Type) where
  succeeds : Bool
  error : String
  stateCid : Option Cid
  lifecycle : Lifecycle

/-- The manifest at the writer's root and the one at the root in the statistics, the registry, and
the tasks. -/
structure CrudState (Cid : Type) where
  manifest : RuntimeManifest Cid
  statsManifest : RuntimeManifest Cid
  registry : String → Option RegisteredPlugin
  tasks : Nat → Option (CrudTask Cid)

/-- The state before any request. -/
def CrudState.start (manifest : RuntimeManifest Cid) (registry : String → Option RegisteredPlugin) :
    CrudState Cid :=
  ⟨manifest, manifest, registry, fun _ ↦ none⟩

/-- The steps: a request is taken up, a task takes its next step, the statistics take the writer's
root, and a saver has a state linked. -/
inductive CrudAction (Cid : Type)
  | delete (id : Nat) (name : String)
  | upsert (id : Nat) (name : String) (cid : Cid) (isOwner : Bool)
  | setAcl (id : Nat) (name aclName : String)
  | clearAcl (id : Nat) (name : String)
  | advance (id : Nat) (outcome : Outcome Cid)
  | writeStats
  | setEntityState (name : String) (stateCid : Cid)

section Machine

variable (store : Store Cid) (kinds : String → Option (KindNode Cid))

def CrudState.setTask (s : CrudState Cid) (id : Nat) (task : CrudTask Cid) : CrudState Cid :=
  { s with tasks := Function.update s.tasks id (some task) }

def CrudState.setPlugin (s : CrudState Cid) (name : String) (plugin : Option RegisteredPlugin) :
    CrudState Cid :=
  { s with registry := Function.update s.registry name plugin }

/-- A call of the writer, without effect if the entity is not in the manifest. -/
def CrudState.write (s : CrudState Cid) (mutation : Mutation Cid Unit) : CrudState Cid :=
  { s with manifest := (mutation.effect store s.manifest).getD s.manifest }

/-- The node of an upsert: a genesis entity is for owners, and has no parent. -/
def upsertNode (node : EntityNode Cid) (isOwner : Bool) : Option (EntityNode Cid) :=
  match kinds node.kind with
  | some kind =>
    if isGenesisEntity kind node then
      if isOwner then some { node with parent := none } else none
    else some node
  | none => some node

/-- The next step of a task. -/
def taskStep (s : CrudState Cid) (id : Nat) (outcome : Outcome Cid) :
    CrudTask Cid → Option (CrudState Cid)
  | .deleteCheck name =>
    if outcome.succeeds && (s.statsManifest.entities.get name).isSome then
      some (s.setTask id (.deletePlugin name))
    else some (s.setTask id .answered)
  | .deletePlugin name =>
    if outcome.succeeds then some ((s.setPlugin name none).setTask id (.deleteLink name))
    else some (s.setTask id .answered)
  | .deleteLink name =>
    if outcome.succeeds then
      some { s.setTask id .answered with
        manifest := { s.manifest with entities := s.manifest.entities.remove name } }
    else some (s.setTask id .answered)
  | .upsertFetch name cid isOwner =>
    match (nodeAt store cid).bind fun node ↦ upsertNode kinds node isOwner with
    | some node =>
      if outcome.succeeds then some (s.setTask id (.upsertLink name cid node))
      else some (s.setTask id .answered)
    | none => some (s.setTask id .answered)
  | .upsertLink name cid node =>
    if outcome.succeeds then
      some { s.setTask id (.spawnReload name node) with
        manifest := { s.manifest with entities := s.manifest.entities.insert name ⟨cid⟩ } }
    else some (s.setTask id .answered)
  | .aclCheck name aclName =>
    if outcome.succeeds && (s.statsManifest.acls.get aclName).isSome then
      some (s.setTask id (.aclFetch name aclName))
    else some (s.setTask id .answered)
  | .aclFetch name aclName =>
    match s.statsManifest.entityNodeAt store name with
    | some node =>
      if outcome.succeeds then some (s.setTask id (.aclLink name { node with acl := aclName }))
      else some (s.setTask id .answered)
    | none => some (s.setTask id .answered)
  | .aclLink name node =>
    if outcome.succeeds then
      some { s.setTask id (.spawnReload name node) with
        manifest := s.manifest.setEntityNode store name node }
    else some (s.setTask id .answered)
  | .spawnReload name node =>
    if outcome.succeeds then some (s.setTask id (.resolveKind name node))
    else some (s.setTask id .answered)
  | .resolveKind name node =>
    if outcome.succeeds then some (s.setTask id (.findCurrent name node))
    else some (s.setTask id (.markFailed name outcome.error))
  | .findCurrent name node =>
    match s.registry name with
    | some _ => some (s.setTask id (.refreshState name))
    | none => some (s.setTask id (.loading name node false))
  | .refreshState name =>
    if outcome.succeeds then
      match outcome.stateCid with
      | none => some (s.setTask id (.refreshNode name))
      | some stateCid => some (s.setTask id (.publishState name stateCid))
    else
      some (s.setTask id
        (.markFailed name ("failed to persist current state before reload: " ++ outcome.error)))
  | .publishState name stateCid =>
    if outcome.succeeds && (s.manifest.entityNodeAt store name).isSome then
      some ((s.write store (Manifest.setEntityState name stateCid)).setTask id (.refreshNode name))
    else
      some (s.setTask id
        (.markFailed name ("failed to publish current state before reload: " ++ outcome.error)))
  | .refreshNode name =>
    match outcome.succeeds, s.manifest.entityNodeAt store name with
    | true, some node => some (s.setTask id (.loading name node true))
    | _, _ =>
      some (s.setTask id (.markFailed name
        ("failed to reload current entity node after saving state: " ++ outcome.error)))
  | .loading name node hasCurrent =>
    if outcome.succeeds then
      if outcome.lifecycle = .error && hasCurrent then
        some (s.setTask id
          (.uninstall name "plugin lifecycle returned error during reload"))
      else some (s.setTask id (.install name (.of node) outcome.lifecycle))
    else
      some (s.setTask id (.uninstall name ("failed to load entity plugin: " ++ outcome.error)))
  | .install name plugin lifecycle =>
    let next := if lifecycle = .running then .complete name else .answered
    some ((s.setPlugin name (some plugin)).setTask id next)
  | .complete name =>
    if outcome.succeeds then
      some
        ((s.write store (Manifest.completeEntityReload name outcome.stateCid)).setTask id .answered)
    else some (s.setTask id .answered)
  | .uninstall name reason => some ((s.setPlugin name none).setTask id (.markFailed name reason))
  | .markFailed name reason =>
    if outcome.succeeds then
      some ((s.write store (Manifest.setEntityReloadError name (some reason))).setTask id .answered)
    else some (s.setTask id .answered)
  | .answered => none

/-- A request is taken up as a task that has not begun. -/
def CrudState.begin (s : CrudState Cid) (id : Nat) (task : CrudTask Cid) : Option (CrudState Cid) :=
  match s.tasks id with
  | none => some (s.setTask id task)
  | some _ => none

/-- One step of an interleaving of the requests and their reloads. -/
def crudStep (s : CrudState Cid) : CrudAction Cid → Option (CrudState Cid)
  | .delete id name => s.begin id (.deleteCheck name)
  | .upsert id name cid isOwner =>
    if name.toList.any isControl || reservedEntityNames.contains name then s.begin id .answered
    else s.begin id (.upsertFetch name cid isOwner)
  | .setAcl id name aclName => s.begin id (.aclCheck name aclName)
  | .clearAcl id name => s.begin id (.aclFetch name "")
  | .advance id outcome => (s.tasks id).bind (taskStep store kinds s id outcome)
  | .writeStats => some { s with statsManifest := s.manifest }
  | .setEntityState name stateCid => some (s.write store (Manifest.setEntityState name stateCid))

/-! ### The property and the condition -/

/-- The plugin that the node linked for a name gives. -/
def linkedPlugin (manifest : RuntimeManifest Cid) (name : String) : Option RegisteredPlugin :=
  (manifest.entityNodeAt store name).map .of

/-- The registry's plugins as installed values, those of the manifest's nodes as linked ones, and
the entities that the tasks are still to reload as owed. -/
def CrudState.reconciliation (s : CrudState Cid) : State Nat String RegisteredPlugin where
  installed := s.registry
  linked := linkedPlugin store s.manifest
  owed id := (s.tasks id).bind CrudTask.reloads

/-- What the next step of a task does. A reload is given up where it ends before its load. -/
def taskEvent (s : CrudState Cid) (id : Nat) (outcome : Outcome Cid) :
    CrudTask Cid → Event Nat String RegisteredPlugin
  | .install name plugin _ => .install id name (some plugin)
  | .uninstall name _ => .install id name none
  | .deletePlugin name => if outcome.succeeds then .install id name none else .work
  | .deleteLink name => if outcome.succeeds then .unlink name else .work
  | .upsertLink name _ _ | .aclLink name _ => if outcome.succeeds then .link id name else .work
  | .spawnReload name _ | .resolveKind name _ | .refreshState name =>
    if outcome.succeeds then .work else .giveUp id name
  | .publishState name _ =>
    if outcome.succeeds && (s.manifest.entityNodeAt store name).isSome then .work
    else .giveUp id name
  | .refreshNode name =>
    match outcome.succeeds, s.manifest.entityNodeAt store name with
    | true, some _ => .work
    | _, _ => .giveUp id name
  | _ => .work

/-- What a step does. -/
def crudEvent (s : CrudState Cid) : CrudAction Cid → Event Nat String RegisteredPlugin
  | .advance id outcome =>
    match s.tasks id with
    | some task => taskEvent store s id outcome task
    | none => .work
  | _ => .work

/-- The steps that keep the registry in agreement: a plugin is installed while the manifest links a
node with its ACL and parent, an entity is unlinked while the registry has no plugin of its name,
and a reload is given up while the name agrees; or else another task is still to reload the name. -/
def KeepsAgreement (s : CrudState Cid) (action : CrudAction Cid) : Prop :=
  (s.reconciliation store).Keeps (crudEvent store s action)

/-- Every request and every reload has ended. -/
def Finished (s : CrudState Cid) : Prop := ∀ id task, s.tasks id = some task → task = .answered

end Machine

/-! ### Steps -/

variable {store : Store Cid} {kinds : String → Option (KindNode Cid)} {s t : CrudState Cid}
  {id : Nat}
  {task next : CrudTask Cid} {outcome : Outcome Cid}

theorem owed_of_tasks_eq (htasks : t.tasks = Function.update s.tasks id (some next)) :
    (t.reconciliation store).owed id = next.reloads := by
  simp only [CrudState.reconciliation, htasks, Function.update_self, Option.bind_some]

theorem owed_of_tasks_eq_of_ne (htasks : t.tasks = Function.update s.tasks id (some next))
    {other : Nat} (h : other ≠ id) :
    (t.reconciliation store).owed other = (s.reconciliation store).owed other := by
  simp only [CrudState.reconciliation, htasks, Function.update_of_ne h]

theorem owed_of_task (htask : s.tasks id = some task) :
    (s.reconciliation store).owed id = task.reloads := by
  simp only [CrudState.reconciliation, htask, Option.bind_some]

/-- A task goes on with what it is to reload, and changes neither the registry nor what any node
gives. -/
theorem effect_work (htask : s.tasks id = some task)
    (htasks : t.tasks = Function.update s.tasks id (some next))
    (hregistry : t.registry = s.registry)
    (hlinked : linkedPlugin store t.manifest = linkedPlugin store s.manifest)
    (hreloads : ∀ name, task.reloads = some name → next.reloads = some name) :
    Effect (s.reconciliation store) (t.reconciliation store) .work := by
  refine .work hregistry hlinked fun other name howed ↦ ?_
  by_cases hsame : other = id
  · subst hsame
    rw [owed_of_task htask] at howed
    rw [owed_of_tasks_eq htasks]
    exact hreloads name howed
  · rwa [owed_of_tasks_eq_of_ne htasks hsame]

/-- A task gives up what it is to reload. -/
theorem effect_giveUp {name : String} (htask : s.tasks id = some task)
    (hreloads : task.reloads = some name) (hnext : next.reloads = none) :
    Effect (s.reconciliation store) ((s.setTask id next).reconciliation store) (.giveUp id name) :=
  .giveUp rfl rfl (fun _ hother ↦ owed_of_tasks_eq_of_ne rfl hother)
    ((owed_of_task htask).trans hreloads) ((owed_of_tasks_eq rfl).trans hnext)

/-- A task puts a plugin, or none, into the registry for the name it is to reload. -/
theorem effect_setPlugin {name : String} {plugin : Option RegisteredPlugin}
    (htask : s.tasks id = some task) (hreloads : ∀ owed, task.reloads = some owed → owed = name)
    (hnext : next.reloads = none) :
    Effect (s.reconciliation store)
      (((s.setPlugin name plugin).setTask id next).reconciliation store)
      (.install id name plugin) := by
  refine .install rfl rfl (fun _ hother ↦ owed_of_tasks_eq_of_ne rfl hother)
    (fun owed howed ↦ ?_) ?_
  · rw [owed_of_task htask] at howed
    exact hreloads owed howed
  · exact (owed_of_tasks_eq rfl).trans hnext

/-- What the nodes give, when a link is put in. -/
theorem linkedPlugin_insert (manifest : RuntimeManifest Cid) {name other : String} (cid : Cid)
    (h : other ≠ name) :
    linkedPlugin store { manifest with entities := manifest.entities.insert name ⟨cid⟩ } other =
      linkedPlugin store manifest other := by
  simp only [linkedPlugin, RuntimeManifest.entityNodeAt, KeyedMap.get_insert_of_ne _ _ h]

/-- A task links a node, and is to reload the entity from then on. -/
theorem effect_insert {name : String} {cid : Cid} (htask : s.tasks id = some task)
    (hreloads : task.reloads = none) (hnext : next.reloads = some name) :
    Effect (s.reconciliation store)
      ({ s.setTask id next with
        manifest := { s.manifest with entities := s.manifest.entities.insert name ⟨cid⟩ } :
          CrudState Cid }.reconciliation store) (.link id name) :=
  .link rfl (fun _ hother ↦ linkedPlugin_insert _ cid hother)
    (fun _ hother ↦ owed_of_tasks_eq_of_ne rfl hother) ((owed_of_task htask).trans hreloads)
    ((owed_of_tasks_eq rfl).trans hnext)

/-- What the nodes give, when a link is removed. -/
theorem linkedPlugin_remove (manifest : RuntimeManifest Cid) (name : String) :
    linkedPlugin store { manifest with entities := manifest.entities.remove name } =
      Function.update (linkedPlugin store manifest) name none := by
  ext1 other
  by_cases hsame : other = name
  · subst hsame
    simp only [linkedPlugin, RuntimeManifest.entityNodeAt, KeyedMap.get_remove_self,
      Option.bind_none, Option.map_none, Function.update_self]
  · simp only [linkedPlugin, RuntimeManifest.entityNodeAt, KeyedMap.get_remove_of_ne _ hsame,
      Function.update_of_ne hsame]

/-- A task that owes nothing, before and after, unlinks an entity. -/
theorem effect_remove {name : String} (htask : s.tasks id = some task)
    (hreloads : task.reloads = none) (hnext : next.reloads = none) :
    Effect (s.reconciliation store)
      ({ s.setTask id next with
        manifest := { s.manifest with entities := s.manifest.entities.remove name } :
          CrudState Cid }.reconciliation store) (.unlink name) := by
  refine .unlink rfl (linkedPlugin_remove s.manifest name) (funext fun other ↦ ?_)
  by_cases hsame : other = id
  · subst hsame
    rw [owed_of_task htask, hreloads]
    exact (owed_of_tasks_eq rfl).trans hnext
  · exact owed_of_tasks_eq_of_ne rfl hsame

/-- What is read of a node does not depend on what a load and a saver change of it. -/
def IgnoresLoads {View : Type} (view : EntityNode Cid → View) : Prop :=
  ∀ node state initialised reloadError,
    view { node with state := state, initialised := initialised, reloadError := reloadError } =
      view node

section Views

variable {View : Type} {view : EntityNode Cid → View}

/-- A writer's call for an entity that keeps what is read of its node keeps what is read of
every node. -/
theorem map_entityNodeAt_write (s : CrudState Cid) {name : String}
    {update : EntityNode Cid → Option (EntityNode Cid)}
    (hupdate : ∀ node changed, update node = some changed → view changed = view node)
    (other : String) :
    ((s.write store (.updateEntityNode name update)).manifest.entityNodeAt store other).map view =
      (s.manifest.entityNodeAt store other).map view := by
  simp only [CrudState.write, Mutation.effect]
  cases hnode : s.manifest.entityNodeAt store name with
  | none => rfl
  | some node =>
    simp only [Option.map_some, Option.getD_some]
    cases hchanged : update node with
    | none => rfl
    | some changed =>
      by_cases hsame : other = name
      · subst hsame
        simp only [entityNodeAt_setEntityNode_self, hnode, Option.map_some,
          hupdate node changed hchanged]
      · simp only [entityNodeAt_setEntityNode_of_ne store _ _ hsame]

theorem map_entityNodeAt_setEntityState (hview : IgnoresLoads view) (s : CrudState Cid)
    (name : String) (stateCid : Cid) (other : String) :
    ((s.write store (Manifest.setEntityState name stateCid)).manifest.entityNodeAt store other).map
        view = (s.manifest.entityNodeAt store other).map view := by
  refine map_entityNodeAt_write s (fun node changed hchanged ↦ ?_) other
  obtain rfl := Option.some.inj hchanged
  exact hview node ..

theorem map_entityNodeAt_completeEntityReload (hview : IgnoresLoads view) (s : CrudState Cid)
    (name : String) (stateCid : Option Cid) (other : String) :
    ((s.write store (Manifest.completeEntityReload name stateCid)).manifest.entityNodeAt store
        other).map view = (s.manifest.entityNodeAt store other).map view := by
  refine map_entityNodeAt_write s (fun node changed hchanged ↦ ?_) other
  obtain rfl := Option.some.inj hchanged
  exact hview node ..

theorem map_entityNodeAt_setEntityReloadError (hview : IgnoresLoads view) (s : CrudState Cid)
    (name : String) (reason : Option String) (other : String) :
    ((s.write store (Manifest.setEntityReloadError name reason)).manifest.entityNodeAt store
        other).map view = (s.manifest.entityNodeAt store other).map view := by
  refine map_entityNodeAt_write s (fun node changed hchanged ↦ ?_) other
  split_ifs at hchanged
  obtain rfl := Option.some.inj hchanged
  exact hview node ..

end Views

/-- A plugin is the same for a node that was loaded or saved. -/
theorem ignoresLoads_of : IgnoresLoads (@RegisteredPlugin.of Cid) := fun _ _ _ _ ↦ rfl

/-- The next step of a task does what its event says. -/
theorem taskStep_effect (htask : s.tasks id = some task)
    (h : taskStep store kinds s id outcome task = some t) :
    Effect (s.reconciliation store) (t.reconciliation store)
      (taskEvent store s id outcome task) := by
  have hquiet {next : CrudTask Cid}
      (hreloads : ∀ name, task.reloads = some name → next.reloads = some name) :
      Effect (s.reconciliation store) ((s.setTask id next).reconciliation store) .work :=
    effect_work htask rfl rfl rfl hreloads
  have hunowed {next : CrudTask Cid} (hreloads : task.reloads = none) :
      Effect (s.reconciliation store) ((s.setTask id next).reconciliation store) .work := by
    refine hquiet fun name howed ↦ ?_
    rw [hreloads] at howed
    cases howed
  cases task with
  | deleteCheck | aclCheck =>
    simp only [taskStep] at h
    split_ifs at h
    all_goals
      obtain rfl := Option.some.inj h
      exact hunowed rfl
  | upsertFetch | aclFetch =>
    simp only [taskStep] at h
    split at h
    · split_ifs at h
      all_goals
        obtain rfl := Option.some.inj h
        exact hunowed rfl
    · obtain rfl := Option.some.inj h
      exact hunowed rfl
  | deletePlugin name =>
    simp only [taskStep, taskEvent] at h ⊢
    split_ifs at h ⊢
    · obtain rfl := Option.some.inj h
      refine effect_setPlugin htask ?_ rfl
      rintro _ ⟨⟩
    · obtain rfl := Option.some.inj h
      exact hunowed rfl
  | deleteLink name =>
    simp only [taskStep, taskEvent] at h ⊢
    split_ifs at h ⊢
    · obtain rfl := Option.some.inj h
      exact effect_remove htask rfl rfl
    · obtain rfl := Option.some.inj h
      exact hunowed rfl
  | upsertLink | aclLink =>
    simp only [taskStep, taskEvent] at h ⊢
    split_ifs at h ⊢
    · obtain rfl := Option.some.inj h
      exact effect_insert htask rfl rfl
    · obtain rfl := Option.some.inj h
      exact hunowed rfl
  | spawnReload | resolveKind =>
    simp only [taskStep, taskEvent] at h ⊢
    split_ifs at h ⊢
    · obtain rfl := Option.some.inj h
      exact hquiet fun _ howed ↦ howed
    · obtain rfl := Option.some.inj h
      exact effect_giveUp htask rfl rfl
  | findCurrent =>
    simp only [taskStep] at h
    split at h
    all_goals
      obtain rfl := Option.some.inj h
      exact hquiet fun _ howed ↦ howed
  | refreshState name =>
    simp only [taskStep, taskEvent] at h ⊢
    by_cases hsucceeds : outcome.succeeds = true
    · rw [if_pos hsucceeds] at h ⊢
      split at h
      all_goals
        obtain rfl := Option.some.inj h
        exact hquiet fun _ howed ↦ howed
    · rw [if_neg hsucceeds] at h ⊢
      obtain rfl := Option.some.inj h
      exact effect_giveUp htask rfl rfl
  | publishState name stateCid =>
    simp only [taskStep, taskEvent] at h ⊢
    split_ifs at h ⊢
    · obtain rfl := Option.some.inj h
      exact effect_work htask rfl rfl
        (funext (map_entityNodeAt_setEntityState ignoresLoads_of s name stateCid))
        fun _ howed ↦ howed
    · obtain rfl := Option.some.inj h
      exact effect_giveUp htask rfl rfl
  | refreshNode name =>
    simp only [taskStep, taskEvent] at h ⊢
    split at h
    · obtain rfl := Option.some.inj h
      exact hquiet fun _ howed ↦ howed
    · obtain rfl := Option.some.inj h
      exact effect_giveUp htask rfl rfl
  | loading =>
    simp only [taskStep] at h
    split_ifs at h
    all_goals
      obtain rfl := Option.some.inj h
      exact hquiet fun _ howed ↦ howed
  | install name plugin lifecycle =>
    obtain rfl := Option.some.inj h
    refine effect_setPlugin htask (fun _ howed ↦ (Option.some.inj howed).symm) ?_
    split_ifs
    · rfl
    · rfl
  | uninstall name reason =>
    obtain rfl := Option.some.inj h
    exact effect_setPlugin htask (fun _ howed ↦ (Option.some.inj howed).symm) rfl
  | complete name =>
    simp only [taskStep] at h
    split_ifs at h
    · obtain rfl := Option.some.inj h
      refine effect_work htask rfl rfl
        (funext (map_entityNodeAt_completeEntityReload ignoresLoads_of s name outcome.stateCid)) ?_
      rintro _ ⟨⟩
    · obtain rfl := Option.some.inj h
      exact hunowed rfl
  | markFailed name reason =>
    simp only [taskStep] at h
    split_ifs at h
    · obtain rfl := Option.some.inj h
      refine effect_work htask rfl rfl
        (funext (map_entityNodeAt_setEntityReloadError ignoresLoads_of s name (some reason))) ?_
      rintro _ ⟨⟩
    · obtain rfl := Option.some.inj h
      exact hunowed rfl
  | answered => cases h

/-- A request that is taken up changes nothing else. -/
theorem effect_begin (h : s.begin id task = some t) :
    Effect (s.reconciliation store) (t.reconciliation store) .work := by
  unfold CrudState.begin at h
  split at h
  · rename_i hfree
    obtain rfl := Option.some.inj h
    refine .work rfl rfl fun other name howed ↦ ?_
    have hne : other ≠ id := by
      rintro rfl
      simp only [CrudState.reconciliation, hfree, Option.bind_none] at howed
      cases howed
    exact (owed_of_tasks_eq_of_ne rfl hne).trans howed
  · cases h

/-- Every step does what its event says. -/
theorem crudStep_effect {action : CrudAction Cid} (h : crudStep store kinds s action = some t) :
    Effect (s.reconciliation store) (t.reconciliation store) (crudEvent store s action) := by
  cases action with
  | delete | setAcl | clearAcl => exact effect_begin h
  | upsert id name cid isOwner =>
    simp only [crudStep] at h
    split_ifs at h
    · exact effect_begin h
    · exact effect_begin h
  | advance id outcome =>
    obtain ⟨task, htask, hstep⟩ := Option.bind_eq_some_iff.mp h
    simp only [crudEvent, htask]
    exact taskStep_effect htask hstep
  | writeStats =>
    obtain rfl := Option.some.inj h
    exact .work rfl rfl fun _ _ howed ↦ howed
  | setEntityState name stateCid =>
    obtain rfl := Option.some.inj h
    exact .work rfl (funext (map_entityNodeAt_setEntityState ignoresLoads_of s name stateCid))
      fun _ _ howed ↦ howed

/-! ### Runs -/

section Runs

variable {manifest : RuntimeManifest Cid} {registry : String → Option RegisteredPlugin}
  {actions : List (CrudAction Cid)} {u : CrudState Cid}

/-- In every state of a run each name agrees or is still to be reloaded, if and only if the steps of
the run meet the condition. -/
theorem settled_iff_guardedRun
    (h : Run (crudStep store kinds) (.start manifest registry) actions u)
    (hstart : ∀ name plugin, registry name = some plugin →
      linkedPlugin store manifest name = some plugin) :
    (∀ before after t, actions = before ++ after →
      Run (crudStep store kinds) (.start manifest registry) before t →
        ∀ name, (t.reconciliation store).Settled name) ↔
    GuardedRun (crudStep store kinds) (KeepsAgreement store) (.start manifest registry) actions u :=
  guardedRun_iff_forall_prefix _ h (fun name ↦ .inl (hstart name))
    (fun _ _ _ hs hkeeps hstep ↦ State.Settled.step hs hkeeps (crudStep_effect hstep))
    fun _ _ _ _ hstep ht ↦ State.keeps_of_settled (crudStep_effect hstep) ht

/-- Where every request and every reload has ended, no task owes a name. -/
theorem Finished.owed (h : Finished s) (id : Nat) : (s.reconciliation store).owed id = none := by
  simp only [CrudState.reconciliation]
  cases htask : s.tasks id with
  | none => rfl
  | some task =>
    obtain rfl := h id task htask
    rfl

/-- A plugin that a manifest links belongs to an entity of it, with a node that has the plugin's ACL
and parent. -/
theorem node_of_linkedPlugin {name : String} {plugin : RegisteredPlugin}
    (h : linkedPlugin store manifest name = some plugin) :
    (manifest.entities.get name).isSome ∧ ∃ node, manifest.entityNodeAt store name = some node ∧
      plugin.acl = node.acl ∧ plugin.parent = node.parent := by
  obtain ⟨node, hnode, rfl⟩ := Option.map_eq_some_iff.mp h
  obtain ⟨link, hlink, -⟩ := Option.bind_eq_some_iff.mp hnode
  refine ⟨?_, node, hnode, rfl, rfl⟩
  rw [hlink]
  rfl

/-- After a run whose steps meet the condition, once every request and every reload has ended, the
plugins of the registry are those that the manifest links. -/
theorem registry_agrees
    (h : GuardedRun (crudStep store kinds) (KeepsAgreement store) (.start manifest registry)
      actions u)
    (hstart : ∀ name plugin, registry name = some plugin →
      linkedPlugin store manifest name = some plugin)
    (hfinished : Finished u) {name : String} {plugin : RegisteredPlugin}
    (hplugin : u.registry name = some plugin) :
    (u.manifest.entities.get name).isSome ∧ ∃ node, u.manifest.entityNodeAt store name = some node ∧
      plugin.acl = node.acl ∧ plugin.parent = node.parent := by
  have hsettled : ∀ name, (u.reconciliation store).Settled name :=
    h.invariant (fun s ↦ ∀ name, (s.reconciliation store).Settled name)
      (fun _ _ _ hs hkeeps hstep ↦ State.Settled.step hs hkeeps (crudStep_effect hstep))
      fun name ↦ .inl (hstart name)
  have hagrees := (hsettled name).agrees hfinished.owed
  exact node_of_linkedPlugin (hagrees plugin hplugin)

end Runs

/-- A task's call that answers without a state, or a load after which the plugin runs. -/
def answer (id : Nat) : CrudAction ContentCid := .advance id ⟨true, "", none, .running⟩

/-- An upsert, and a DELETE of the entity's ACL while the first reload loads the plugin. -/
def upsertAndClearAcl : List (CrudAction ContentCid) :=
  [.upsert 0 "room" (contentStore.cidOf (.entityNode roomNode)) false, answer 0, answer 0, answer 0,
    answer 0, answer 0, .writeStats, .clearAcl 1 "room", answer 1, answer 1, answer 0, answer 0,
    answer 0, answer 1, answer 1, answer 1, answer 1, answer 1, answer 1, answer 1, answer 1]

/-- Of two tasks, both have answered. -/
theorem finished_of_two {u : CrudState ContentCid} (hfirst : u.tasks 0 = some .answered)
    (hsecond : u.tasks 1 = some .answered)
    (hothers : ∀ id, id ≠ 0 → id ≠ 1 → u.tasks id = none) : Finished u := by
  intro id task htask
  by_cases hzero : id = 0
  · subst hzero
    exact Option.some.inj (htask.symm.trans hfirst)
  · by_cases hone : id = 1
    · subst hone
      exact Option.some.inj (htask.symm.trans hsecond)
    · cases (hothers id hzero hone).symm.trans htask

/-- The first reload installs its plugin when the node has another ACL, and the second one reloads
it. -/
theorem registry_agrees_reloaded_beside :
    ∃ u, GuardedRun (crudStep contentStore fun _ ↦ none) (KeepsAgreement contentStore)
        (.start .default fun _ ↦ none) upsertAndClearAcl u ∧
      (u.manifest.entities.get "room").isSome ∧
      ∃ node, u.manifest.entityNodeAt contentStore "room" = some node ∧ "" = node.acl ∧
        none = node.parent := by
  have hend : ∃ u, GuardedRun (crudStep contentStore fun _ ↦ none) (KeepsAgreement contentStore)
        (.start .default fun _ ↦ none) upsertAndClearAcl u ∧
      Finished u ∧ u.registry "room" = some ⟨"", none⟩ := by
    refine ⟨_, .cons trivial rfl <| .cons trivial rfl <| .cons trivial rfl <| .cons trivial rfl <|
      .cons trivial rfl <| .cons trivial rfl <| .cons trivial rfl <| .cons trivial rfl <|
      .cons trivial rfl <| .cons trivial rfl <| .cons trivial rfl <|
      .cons (.inr ⟨1, Nat.one_ne_zero, rfl⟩) rfl <| .cons trivial rfl <| .cons trivial rfl <|
      .cons trivial rfl <| .cons trivial rfl <| .cons trivial rfl <| .cons trivial rfl <|
      .cons trivial rfl <| .cons (.inl fun _ hplugin ↦ hplugin) rfl <| .cons trivial rfl <| .nil _,
      finished_of_two rfl rfl fun id hzero hone ↦ ?_, rfl⟩
    simp only [CrudState.setTask, CrudState.setPlugin, CrudState.write, CrudState.start,
      Function.update_of_ne hzero, Function.update_of_ne hone]
  obtain ⟨u, hrun, hfinished, hplugin⟩ := hend
  refine ⟨u, hrun, registry_agrees hrun (fun name plugin hnone ↦ ?_) hfinished hplugin⟩
  cases hnone

/-- A delete while the reload of an upsert loads its plugin: the reload installs the plugin of an
entity that the manifest does not have any more. -/
theorem deleted_entity_installed :
    ∃ u, Run (crudStep contentStore fun _ ↦ none) (.start .default fun _ ↦ none)
        [.upsert 0 "room" (contentStore.cidOf (.entityNode roomNode)) false, answer 0, answer 0,
          answer 0, answer 0, answer 0, .writeStats, .delete 1 "room", answer 1, answer 1, answer 1,
          answer 0, answer 0, answer 0] u ∧
      Finished u ∧ u.registry "room" = some (.of roomNode) ∧
        u.manifest.entities.get "room" = none := by
  refine ⟨_, run_of_execute rfl, finished_of_two rfl rfl fun id hzero hone ↦ ?_, rfl, rfl⟩
  simp only [CrudState.setTask, CrudState.setPlugin, CrudState.write, CrudState.start,
    Function.update_of_ne hzero, Function.update_of_ne hone]

/-! ### Genesis entities -/

@[simp] theorem tasks_setTask (s : CrudState Cid) (id : Nat) (task : CrudTask Cid) :
    (s.setTask id task).tasks id = some task :=
  Function.update_self ..

/-- A run that begins with a step of a task. -/
theorem run_advance {u : CrudState Cid} {rest : List (CrudAction Cid)}
    (htask : s.tasks id = some task)
    (hstep : taskStep store kinds s id outcome task = some t)
    (hrest : Run (crudStep store kinds) t rest u) :
    Run (crudStep store kinds) s (.advance id outcome :: rest) u := by
  refine .cons trivial ?_ hrest
  simp only [crudStep, htask, Option.bind_some, hstep]

/-- A genesis entity that is published with a parent and has no plugin: the plugin that its upsert
ends in has no parent, and the node that is linked for it has one. -/
theorem genesis_parent_disagrees {name : String} {cid : Cid} {node : EntityNode Cid}
    {kind : KindNode Cid} {parent : String} (hidle : Finished s) (hfree : s.tasks id = none)
    (hname : ¬(name.toList.any isControl || reservedEntityNames.contains name) = true)
    (hplugin : s.registry name = none) (hnode : nodeAt store cid = some node)
    (hkind : kinds node.kind = some kind) (hgenesis : isGenesisEntity kind node = true)
    (hparent : node.parent = some parent) :
    ∃ actions t, Run (crudStep store kinds) s actions t ∧ Finished t ∧
      t.registry name = some ⟨node.acl, none⟩ ∧
      linkedPlugin store t.manifest name = some ⟨node.acl, some parent⟩ := by
  let orphan : EntityNode Cid := { node with parent := none }
  let answer (succeeds : Bool) : Outcome Cid := ⟨succeeds, "", none, .running⟩
  have hbegin : crudStep store kinds s (.upsert id name cid true) =
      some (s.setTask id (.upsertFetch name cid true)) := by
    simp only [crudStep, if_neg hname, CrudState.begin, hfree]
  have hfetch (t : CrudState Cid) :
      taskStep store kinds t id (answer true) (.upsertFetch name cid true) =
        some (t.setTask id (.upsertLink name cid orphan)) := by
    have horphan :
        ((nodeAt store cid).bind fun node ↦ upsertNode kinds node true) = some orphan := by
      simp only [hnode, Option.bind_some, upsertNode, hkind, hgenesis, if_true, orphan]
    simp only [taskStep, horphan, answer, if_true]
  have hfind (t : CrudState Cid) (ht : t.registry name = none) :
      taskStep store kinds t id (answer true) (.findCurrent name orphan) =
        some (t.setTask id (.loading name orphan false)) := by
    simp only [taskStep, ht]
  have hlinked (manifest : RuntimeManifest Cid)
      (hget : manifest.entities.get name = some ⟨cid⟩) :
      linkedPlugin store manifest name = some ⟨node.acl, some parent⟩ := by
    simp only [linkedPlugin, RuntimeManifest.entityNodeAt, hget, Option.bind_some, hnode,
      Option.map_some, RegisteredPlugin.of, hparent]
  have hrun : Run (crudStep store kinds) s
      (.upsert id name cid true ::
        (List.replicate 7 true ++ [false]).map fun succeeds ↦ .advance id (answer succeeds)) _ :=
    .cons trivial hbegin <| run_advance (tasks_setTask ..) (hfetch _) <|
      run_advance (tasks_setTask ..) rfl <| run_advance (Function.update_self ..) rfl <|
      run_advance (tasks_setTask ..) rfl <| run_advance (tasks_setTask ..) (hfind _ hplugin) <|
      run_advance (tasks_setTask ..) rfl <| run_advance (tasks_setTask ..) rfl <|
      run_advance (tasks_setTask ..) rfl <| .nil _
  refine ⟨_, _, hrun, fun other task htask ↦ ?_, Function.update_self ..,
    hlinked _ (KeyedMap.get_insert_self ..)⟩
  by_cases hsame : other = id
  · subst hsame
    simp only [tasks_setTask, Option.some.injEq] at htask
    exact htask.symm
  · simp only [CrudState.setTask, CrudState.setPlugin, Function.update_of_ne hsame] at htask
    exact hidle other task htask

end MaRuntime.Crud
