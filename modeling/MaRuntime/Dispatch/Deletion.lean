import MaRuntime.Dispatch.Creation

/-!
# Deleted entities and restarts

An entity is deleted at the request of its parent or of itself (`ma_delete_entity`, `ma_end`). The
request is checked and the entity is removed from the registry; the manifest keeps its link. A
restart loads every entity that the manifest links (`loadEntities`), so it brings the entity back.
Requests in a message of another entity and in one of a schedule are not carried out at all
(`DispatchPath`).

The machine has the requests for entities, with deletions, state persists, the save at a shutdown
and restarts. `DeletedStays` says that an entity whose deletion was processed is neither live nor
linked until it is created again. It holds along a run if and only if every deletion that is allowed
arrives by the inbox, finds the entity not linked when it removes it, and no node of the entity is
put into the manifest afterwards (`deletedStays_iff`). State persists and restarts alone bring
nothing back.

Main definitions: `loadEntities`, `deletionStep`, `DeletedStays`, `IsGoneForGood`.
Main results: `deletedStays_iff`, `deleted_entity_returns`.

Scope. A kind in the manifest is given with the layers that it extends. The manifest's kinds do not
change.
-/

set_option autoImplicit false
set_option relaxedAutoImplicit false

namespace MaRuntime.Dispatch

open Runs Manifest
open Plugin (CreateEntityRequest KindNode LoadAttempt NativeAttempt loadWithFibonacciBackoff
  loadNativeEntity)

variable {Cid : Type}

/-! ### A startup -/

/-- What the calls for one entity answer at a startup: whether its node and its kind are fetched,
what its load meets, whether there is a factory for a native kind and which state its actor has
pending, whether the state is added to IPFS, and whether the changed node is published. -/
structure EntityStart (Cid : Type) where
  fetched : Bool
  attempts : Nat → LoadAttempt
  hasFactory : Bool
  native : NativeAttempt
  nativeSaved : Option Cid
  stateAdded : Bool
  nodePublished : Bool

/-- What the calls of a startup answer. -/
structure EntityLoads (Cid : Type) where
  manifestFetched : Bool
  kindFetched : String → Bool
  entity : String → EntityStart Cid
  published : Bool

section Startup

variable [ToString Cid] (store : Store Cid) (kinds : KeyedMap String (KindNode Cid))

/-- The node of an entity that was loaded, after `persist_initialised_transition`. -/
def startedNode (node : EntityNode Cid) (lifecycle : Plugin.Lifecycle) (saved : Option Cid)
    (published : Bool) : EntityNode Cid :=
  match lifecycle with
  | .running => if published then runningNode node saved else node
  | .error => node

/-- The live plugin of an entity that is loaded at a startup, and the node that is linked for it. -/
def startEntity (name : String) (node : EntityNode Cid) (start : EntityStart Cid) :
    Option (EntityPlugin × EntityNode Cid) :=
  match start.fetched, kinds.get node.kind with
  | true, some kindNode =>
    match kindNode.kindType with
    | .native =>
      match start.hasFactory, loadNativeEntity store name node kindNode start.native with
      | true, .ok _ =>
        some ({ pluginOf name node with native := true },
          startedNode node .running start.nativeSaved start.nodePublished)
      | _, _ => none
    | _ =>
      match loadWithFibonacciBackoff store name node kindNode start.attempts with
      | .ok loaded =>
        some (pluginOf name node, startedNode node loaded.lifecycle
          (triggerSave store loaded start.stateAdded) start.nodePublished)
      | .error _ => none
  | _, _ => none

/-- `load_entities`: the registries, and the nodes that the manifest links afterwards. -/
def loadEntities (nodes : KeyedMap String (EntityNode Cid)) (loads : EntityLoads Cid) :
    EntityStores Cid :=
  if loads.manifestFetched then
    { registry := nodes.filterMap fun name node ↦
        (startEntity store kinds name node (loads.entity name)).map Prod.fst
      nodes :=
        if loads.published then
          nodes.filterMap fun name node ↦
            some (match startEntity store kinds name node (loads.entity name) with
              | some (_, started) => started
              | none => node)
        else nodes
      kindRegistry := kinds.filterMap fun protocol kind ↦
        if loads.kindFetched protocol then some kind else none }
  else ⟨.empty, nodes, .empty⟩

variable {store kinds} {nodes : KeyedMap String (EntityNode Cid)} {loads : EntityLoads Cid}

/-- A startup loads linked entities only. -/
theorem registry_loadEntities_eq_none {name : String} (h : nodes.get name = none) :
    (loadEntities store kinds nodes loads).registry.get name = none := by
  unfold loadEntities
  by_cases hfetched : loads.manifestFetched = true
  · rw [if_pos hfetched, KeyedMap.get_filterMap, h]
    rfl
  · rw [if_neg hfetched]
    rfl

/-- A startup links and unlinks no entity. -/
theorem nodes_loadEntities_eq_none {name : String} :
    (loadEntities store kinds nodes loads).nodes.get name = none ↔ nodes.get name = none := by
  unfold loadEntities
  split_ifs
  · show (nodes.filterMap _).get name = none ↔ nodes.get name = none
    rw [KeyedMap.get_filterMap]
    cases nodes.get name with
    | none => rfl
    | some node => simp
  · rfl
  · rfl

end Startup

/-! ### A shutdown -/

/-- `save_all_entity_states`: the states that the live entities save are linked. -/
def saveAllEntityStates (registry : KeyedMap String EntityPlugin)
    (nodes : KeyedMap String (EntityNode Cid)) (saved : String → Option Cid) :
    KeyedMap String (EntityNode Cid) :=
  nodes.filterMap fun name node ↦
    some (match registry.get name, saved name with
      | some _, some cid => node.withState cid
      | _, _ => node)

/-- A shutdown links and unlinks no entity. -/
theorem get_saveAllEntityStates_eq_none {registry : KeyedMap String EntityPlugin}
    {nodes : KeyedMap String (EntityNode Cid)} {saved : String → Option Cid} {name : String} :
    (saveAllEntityStates registry nodes saved).get name = none ↔ nodes.get name = none := by
  unfold saveAllEntityStates
  rw [KeyedMap.get_filterMap]
  cases nodes.get name with
  | none => rfl
  | some node => simp

/-! ### The machine -/

/-- The paths on which a message is delivered. -/
inductive DispatchPath
  | inbox
  | envelope
  | schedule
deriving DecidableEq

/-- The requests for entities, the kinds of the manifest, the deletions that were allowed, the
states that are being persisted, and the entities of the root that the next startup finds. The
entities whose deletion was processed, and that were not created again, are a history for the
property. -/
structure DeletionState (Cid : Type) where
  creation : CreationState Cid
  kinds : KeyedMap String (KindNode Cid)
  deletions : KeyedMap Nat String
  persists : KeyedMap Nat (String × Bytes)
  recorded : KeyedMap String (EntityNode Cid)
  deleted : List String

/-- The steps: one of a request for an entity; a deletion is asked for, and removes the entity; a
state begins to be persisted, and is linked or fails to be, with the state that comes next; the
states are saved at a shutdown; the root is recorded for the next startup; and the runtime is
started again. -/
inductive DeletionAction (Cid : Type)
  | creation (action : CreationAction)
  | requestDeletion (number : Nat) (path : DispatchPath) (caller : EntityPlugin) (target : String)
  | remove (number : Nat)
  | persist (number : Nat) (fragment : String) (bytes : Bytes)
  | setEntityState (number : Nat) (failure : Option String) (next : Option Bytes)
  | saveAll (saved : String → Option Cid)
  | recordRoot
  | restart (loads : EntityLoads Cid)

/-- The fragment that a step gives a plugin to. -/
def createdBy (action : CreationAction) (t : CreationState Cid) : Option String :=
  match action with
  | .register _ _ number => (t.registrations.get number).map Registration.fragment
  | _ => none

namespace DeletionState

/-- The nodes that the manifest links. -/
def nodes (s : DeletionState Cid) : KeyedMap String (EntityNode Cid) := s.creation.stores.nodes

/-- The live entities. -/
def registry (s : DeletionState Cid) : KeyedMap String EntityPlugin := s.creation.stores.registry

/-- Another manifest. -/
def setNodes (s : DeletionState Cid) (nodes : KeyedMap String (EntityNode Cid)) :
    DeletionState Cid :=
  { s with creation := { s.creation with stores := { s.creation.stores with nodes := nodes } } }

/-- Another registry. -/
def setRegistry (s : DeletionState Cid) (registry : KeyedMap String EntityPlugin) :
    DeletionState Cid :=
  { s with
    creation := { s.creation with stores := { s.creation.stores with registry := registry } } }

/-- A runtime whose manifest is the one that the next startup finds. -/
def start (stores : EntityStores Cid) : DeletionState Cid where
  creation := .start stores
  kinds := stores.kindRegistry
  deletions := .empty
  persists := .empty
  recorded := stores.nodes
  deleted := []

end DeletionState

section Machine

variable [ToString Cid] (store : Store Cid) (cidOfText : String → Cid)

/-- One step of a runtime that creates and deletes entities. -/
def deletionStep (s : DeletionState Cid) : DeletionAction Cid → Option (DeletionState Cid)
  | .creation action =>
    (creationStep store cidOfText s.creation action).map fun creation ↦
      { s with
        creation := creation
        deleted := s.deleted.filter fun fragment ↦ createdBy action creation ≠ some fragment }
  | .requestDeletion number path caller target =>
    match mayDelete s.registry caller target, path with
    | false, _ => some s
    | true, .inbox =>
      if (s.deletions.get number).isSome then none
      else some { s with deletions := s.deletions.insert number target }
    | true, _ => some { s with deleted := target :: s.deleted }
  | .remove number =>
    (s.deletions.get number).map fun target ↦
      { s.setRegistry (s.registry.remove target) with
        deletions := s.deletions.remove number
        deleted := target :: s.deleted }
  | .persist number fragment bytes =>
    if (s.persists.get number).isSome then none
    else some { s with persists := s.persists.insert number (fragment, bytes) }
  | .setEntityState number failure next =>
    (s.persists.get number).map fun (fragment, bytes) ↦
      { s.setNodes (tryUpdate s.nodes fragment failure fun node ↦
          node.withState (Plugin.stateCid store bytes)) with
        persists := match next with
          | some bytes => s.persists.insert number (fragment, bytes)
          | none => s.persists.remove number }
  | .saveAll saved => some (s.setNodes (saveAllEntityStates s.registry s.nodes saved))
  | .recordRoot => some { s with recorded := s.nodes }
  | .restart loads =>
    some
      { s with
        creation := .start (loadEntities store s.kinds s.recorded loads)
        deletions := .empty
        persists := .empty }

variable {store cidOfText}

/-- A deletion that is allowed, and carried out with nothing between its steps, does what
`deleteEntity` does. -/
theorem execute_deleteEntity {stores : EntityStores Cid} {caller : EntityPlugin} {target : String}
    (hmay : mayDelete stores.registry caller target = true) :
    (execute (deletionStep store cidOfText) (.start stores)
        [.requestDeletion 0 .inbox caller target, .remove 0]).map DeletionState.registry =
      some (deleteEntity stores.registry caller target) := by
  have hmayStart : mayDelete (DeletionState.start stores).registry caller target = true := hmay
  have hasked : deletionStep store cidOfText (.start stores)
      (.requestDeletion 0 .inbox caller target) =
      some { DeletionState.start stores with deletions := KeyedMap.empty.insert 0 target } := by
    simp only [deletionStep, hmayStart]
    rfl
  rw [execute, hasked, Option.bind_some, deleteEntity, if_pos hmay]
  rfl

end Machine

/-! ### The property and the condition -/

/-- An entity whose deletion was processed is neither live nor linked, unless it was
created again. -/
def DeletedStays (s : DeletionState Cid) : Prop :=
  ∀ fragment ∈ s.deleted, s.registry.get fragment = none ∧ s.nodes.get fragment = none

/-- An entity is deleted by way of the inbox, when the manifest does not link it, and is not put
into the manifest after that. -/
def IsGoneForGood (s : DeletionState Cid) : DeletionAction Cid → Prop
  | .requestDeletion _ path caller target =>
    mayDelete s.registry caller target = true → path = .inbox
  | .remove number => ∀ target, s.deletions.get number = some target → s.nodes.get target = none
  | .creation (.insertEntity number true) => ∀ registration,
      s.creation.registrations.get number = some registration → registration.fragment ∉ s.deleted
  | _ => True

/-- The root that is recorded for a startup links no entity that the manifest does not. -/
def RecordedIsLinked (s : DeletionState Cid) : Prop :=
  ∀ fragment, s.nodes.get fragment = none → s.recorded.get fragment = none

/-! ### Runs -/

section Runs

variable [ToString Cid] {store : Store Cid} {cidOfText : String → Cid} {stores : EntityStores Cid}
  {s t : DeletionState Cid} {action : DeletionAction Cid}

/-- A step of the requests for entities unlinks nothing, and makes no entity live or linked but the
one that it creates and the one whose node is put into the manifest. -/
theorem creationStep_get {s t : CreationState Cid} {action : CreationAction}
    (h : creationStep store cidOfText s action = some t) (fragment : String) :
    (t.stores.nodes.get fragment = none → s.stores.nodes.get fragment = none) ∧
      (createdBy action t ≠ some fragment → s.stores.registry.get fragment = none →
        t.stores.registry.get fragment = none) ∧
      ((∀ number registration, action = .insertEntity number true →
          s.registrations.get number = some registration → registration.fragment ≠ fragment) →
        s.stores.nodes.get fragment = none → t.stores.nodes.get fragment = none) := by
  obtain hproceeds | ⟨path, number, registration, hregisters⟩ |
    ⟨number, registration, succeeds, hinserts⟩ := creationStep_cases h
  · rw [hproceeds.stores]
    exact ⟨id, fun _ ↦ id, fun _ ↦ id⟩
  · rw [hregisters.nodes, hregisters.registry]
    refine ⟨id, fun hcreated hnone ↦ ?_, fun _ ↦ id⟩
    obtain ⟨task, stateAdded, req, node, loaded, rfl, -, -⟩ := hregisters.isLoaded
    have hne : fragment ≠ registration.fragment := by
      rintro rfl
      apply hcreated
      simp [createdBy, hregisters.registrations]
    rw [KeyedMap.get_insert_of_ne _ _ hne]
    exact hnone
  · rw [hinserts.registry, hinserts.nodes]
    refine ⟨fun hnone ↦ ?_, fun _ ↦ id, fun hother hnone ↦ ?_⟩
    · cases succeeds with
      | true =>
        by_cases hsame : fragment = registration.fragment
        · rw [if_pos rfl, hsame, KeyedMap.get_insert_self] at hnone
          cases hnone
        · rwa [if_pos rfl, KeyedMap.get_insert_of_ne _ _ hsame] at hnone
      | false => exact hnone
    · cases succeeds with
      | true =>
        have hne := hother number registration hinserts.isInsertion hinserts.known
        rw [if_pos rfl, KeyedMap.get_insert_of_ne _ _ hne.symm]
        exact hnone
      | false => exact hnone

theorem recordedIsLinked_step (hs : RecordedIsLinked s)
    (h : deletionStep store cidOfText s action = some t) : RecordedIsLinked t := by
  intro fragment hnone
  cases action with
  | creation action =>
    obtain ⟨creation, hcreation, rfl⟩ := Option.map_eq_some_iff.mp h
    exact hs fragment ((creationStep_get hcreation fragment).1 hnone)
  | requestDeletion number path caller target =>
    simp only [deletionStep] at h
    split at h
    · obtain rfl := Option.some.inj h
      exact hs fragment hnone
    · split_ifs at h
      obtain rfl := Option.some.inj h
      exact hs fragment hnone
    · obtain rfl := Option.some.inj h
      exact hs fragment hnone
  | remove number =>
    obtain ⟨target, -, rfl⟩ := Option.map_eq_some_iff.mp h
    exact hs fragment hnone
  | persist number name bytes =>
    simp only [deletionStep] at h
    split_ifs at h
    obtain rfl := Option.some.inj h
    exact hs fragment hnone
  | setEntityState number failure next =>
    obtain ⟨⟨name, bytes⟩, -, rfl⟩ := Option.map_eq_some_iff.mp h
    exact hs fragment (get_tryUpdate_eq_none.mp hnone)
  | saveAll saved =>
    obtain rfl := Option.some.inj h
    exact hs fragment (get_saveAllEntityStates_eq_none.mp hnone)
  | recordRoot =>
    obtain rfl := Option.some.inj h
    exact hnone
  | restart loads =>
    obtain rfl := Option.some.inj h
    exact nodes_loadEntities_eq_none.mp hnone

/-- A step that meets the condition brings no deleted entity back. -/
theorem deletedStays_step (hrecorded : RecordedIsLinked s) (hs : DeletedStays s)
    (hgone : IsGoneForGood s action) (h : deletionStep store cidOfText s action = some t) :
    DeletedStays t := by
  intro fragment hdeleted
  cases action with
  | creation action =>
    obtain ⟨creation, hcreation, rfl⟩ := Option.map_eq_some_iff.mp h
    obtain ⟨hbefore, hcreated⟩ := List.mem_filter.mp hdeleted
    obtain ⟨-, hregistry, hnodes⟩ := creationStep_get hcreation fragment
    refine ⟨hregistry (of_decide_eq_true hcreated) (hs fragment hbefore).1,
      hnodes (fun number registration hinsert hknown hsame ↦ ?_) (hs fragment hbefore).2⟩
    subst hinsert
    exact hgone registration hknown (hsame ▸ hbefore)
  | requestDeletion number path caller target =>
    simp only [deletionStep] at h
    split at h
    · obtain rfl := Option.some.inj h
      exact hs fragment hdeleted
    · split_ifs at h
      obtain rfl := Option.some.inj h
      exact hs fragment hdeleted
    · rename_i hmay hpath
      exact absurd (hgone hmay) hpath
  | remove number =>
    obtain ⟨target, htarget, rfl⟩ := Option.map_eq_some_iff.mp h
    show (s.registry.remove target).get fragment = none ∧ s.nodes.get fragment = none
    rw [KeyedMap.get_remove]
    obtain rfl | hbefore := List.mem_cons.mp hdeleted
    · exact ⟨if_pos rfl, hgone fragment htarget⟩
    · refine ⟨?_, (hs fragment hbefore).2⟩
      split_ifs
      · rfl
      · exact (hs fragment hbefore).1
  | persist number name bytes =>
    simp only [deletionStep] at h
    split_ifs at h
    obtain rfl := Option.some.inj h
    exact hs fragment hdeleted
  | setEntityState number failure next =>
    obtain ⟨⟨name, bytes⟩, -, rfl⟩ := Option.map_eq_some_iff.mp h
    obtain ⟨hregistry, hnodes⟩ := hs fragment hdeleted
    exact ⟨hregistry, get_tryUpdate_eq_none.mpr hnodes⟩
  | saveAll saved =>
    obtain rfl := Option.some.inj h
    obtain ⟨hregistry, hnodes⟩ := hs fragment hdeleted
    exact ⟨hregistry, get_saveAllEntityStates_eq_none.mpr hnodes⟩
  | recordRoot =>
    obtain rfl := Option.some.inj h
    exact hs fragment hdeleted
  | restart loads =>
    obtain rfl := Option.some.inj h
    have hnone := hrecorded fragment (hs fragment hdeleted).2
    exact ⟨registry_loadEntities_eq_none hnone, nodes_loadEntities_eq_none.mpr hnone⟩

/-- A step that brings no deleted entity back meets the condition. -/
theorem isGoneForGood_of_deletedStays (h : deletionStep store cidOfText s action = some t)
    (ht : DeletedStays t) : IsGoneForGood s action := by
  cases action with
  | creation action =>
    obtain ⟨creation, hcreation, rfl⟩ := Option.map_eq_some_iff.mp h
    cases action with
    | insertEntity number succeeds =>
      cases succeeds with
      | true =>
        intro registration hknown hdeleted
        have hnone := (ht registration.fragment (List.mem_filter.mpr ⟨hdeleted, rfl⟩)).2
        obtain ⟨fragment, node, insertion⟩ := registration
        cases insertion with
        | pending =>
          simp only [creationStep, hknown, if_true] at hcreation
          obtain rfl := Option.some.inj hcreation
          rw [DeletionState.nodes, KeyedMap.get_insert_self] at hnone
          cases hnone
        | linked =>
          simp only [creationStep, hknown] at hcreation
          cases hcreation
        | failed =>
          simp only [creationStep, hknown] at hcreation
          cases hcreation
      | false => trivial
    | create task path caller req => trivial
    | enter task => trivial
    | load task attempts => trivial
    | register task stateAdded number => trivial
    | giveUp task => trivial
  | requestDeletion number path caller target =>
    intro hmay
    by_contra hpath
    simp only [deletionStep, hmay] at h
    obtain rfl := Option.some.inj h
    have hnone := (ht target List.mem_cons_self).1
    have hlive := isSome_of_mayDelete hmay
    rw [Option.isSome_iff_ne_none] at hlive
    exact hlive hnone
  | remove number =>
    intro target htarget
    simp only [deletionStep, htarget] at h
    obtain rfl := Option.some.inj h
    exact (ht target List.mem_cons_self).2
  | persist number name bytes => trivial
  | setEntityState number failure next => trivial
  | saveAll saved => trivial
  | recordRoot => trivial
  | restart loads => trivial

/-- A deleted entity stays deleted along a run if and only if each deletion that is allowed arrives
by the inbox and removes an entity that is not linked, and no node of a deleted entity is put into
the manifest later. -/
theorem deletedStays_iff {actions : List (DeletionAction Cid)} {u : DeletionState Cid}
    (h : Run (deletionStep store cidOfText) (.start stores) actions u) :
    (∀ before after t, actions = before ++ after →
        Run (deletionStep store cidOfText) (.start stores) before t → DeletedStays t) ↔
      GuardedRun (deletionStep store cidOfText) IsGoneForGood (.start stores) actions u := by
  have hlinked : ∀ {before t}, Run (deletionStep store cidOfText) (.start stores) before t →
      RecordedIsLinked t := fun hrun ↦
    hrun.invariant RecordedIsLinked (fun _ _ _ hs _ hstep ↦ recordedIsLinked_step hs hstep)
      fun _ hnone ↦ hnone
  rw [← guardedRun_iff_forall_prefix (fun s ↦ RecordedIsLinked s ∧ DeletedStays s) h
    ⟨fun _ hnone ↦ hnone, fun _ hdeleted ↦ nomatch hdeleted⟩
    (fun _ _ _ hs hgone hstep ↦
      ⟨recordedIsLinked_step hs.1 hstep, deletedStays_step hs.1 hs.2 hgone hstep⟩)
    fun _ _ _ _ hstep ht ↦ isGoneForGood_of_deletedStays hstep ht.2]
  constructor
  · intro hstays before after t hsplit hrun
    exact ⟨hlinked hrun, hstays before after t hsplit hrun⟩
  · intro hboth before after t hsplit hrun
    exact (hboth before after t hsplit hrun).2

end Runs

/-! ### An entity that ends itself -/

/-- A startup with every call answered. -/
def everythingLoads : EntityLoads ContentCid where
  manifestFetched := true
  kindFetched _ := true
  entity _ :=
    { fetched := true
      attempts _ := Plugin.attemptWith true true
      hasFactory := true
      native := ⟨true, true, true, true⟩
      nativeSaved := none
      stateAdded := true
      nodePublished := true }
  published := true

/-- `guest` creates an entity and deletes it before its node is in the manifest, the node is not put
there, and the runtime is started again. -/
def createsAndDeletes : List (DeletionAction ContentCid) :=
  [.creation (.create 0 .inbox ⟨"guest", "open", none, false⟩ (roomRequest "hall")),
    .creation (.load 0 fun _ ↦ Plugin.attemptWith true true), .creation (.register 0 true 0),
    .requestDeletion 0 .inbox ⟨"guest", "open", none, false⟩ "hall", .remove 0,
    .creation (.insertEntity 0 false), .restart everythingLoads]

/-- An entity that was deleted and that the manifest does not link is not there after a restart. -/
theorem deletedStays_iff_not_linked :
    ∃ u, Run (deletionStep contentStore textCid) (.start oneRoom) createsAndDeletes u ∧
      u.deleted = ["hall"] ∧ DeletedStays u := by
  have hrun : Run (deletionStep contentStore textCid) (.start oneRoom) createsAndDeletes _ :=
    run_of_execute rfl
  refine ⟨_, hrun, rfl, (deletedStays_iff hrun).mpr ?_ _ [] _ (List.append_nil _).symm hrun⟩
  refine .cons trivial rfl (.cons trivial rfl (.cons trivial rfl (.cons (fun _ ↦ rfl) rfl ?_)))
  refine .cons ?_ rfl (.cons trivial rfl (.cons trivial rfl (.nil _)))
  rintro target ⟨⟩
  rfl

/-- An entity that ends itself is still in the manifest, and the next startup loads it again. -/
theorem deleted_entity_returns :
    ∃ u, Run (deletionStep contentStore textCid) (.start oneRoom)
        [.requestDeletion 0 .inbox ⟨"guest", "open", none, false⟩ "guest", .remove 0,
          .restart everythingLoads] u ∧
      u.deleted = ["guest"] ∧ u.registry.get "guest" = some ⟨"guest", "open", none, false⟩ ∧
        ¬DeletedStays u := by
  refine ⟨_, run_of_execute rfl, rfl, rfl, fun hstays ↦ ?_⟩
  have hnone := (hstays "guest" List.mem_cons_self).1
  cases hnone

end MaRuntime.Dispatch
