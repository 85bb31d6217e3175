import MaRuntime.Dispatch.Deletion
import MaRuntime.Library.References

/-!
# The tree of entities

An entity that is created at the request of another has it as its parent. A parent may be deleted by
a request when it has no children (`mayDelete`); CRUD deletes an entity without asking for children.
The check of a request and the removal are two steps, and a creation registers the child long after
it was asked for.

`ParentsLive` says that every parent that names a local entity is live. Starting from such a
registry, it holds along a run if and only if each plugin that is registered finds its parent live
and each entity that is removed is at that moment nobody's parent (`parentsLive_iff`). The check of
a request gives the latter when no parent is written as a DID URL and nothing comes between check
and removal (`keepsParents_remove`); CRUD's delete gives nothing (`parent_deleted`).

Main definitions: `treeStep`, `ParentsLive`, `KeepsParents`.
Main results: `parentsLive_iff`, `parent_deleted`.

Scope. Requests for entities are those of `creationStep`. The capability check of a CRUD delete is
passed, and the worker that it ends is not in the registry any more.
-/

set_option autoImplicit false
set_option relaxedAutoImplicit false

namespace MaRuntime.Dispatch

open Runs Manifest
open Plugin (CreateEntityRequest LoadedPlugin)

variable {Cid : Type}

/-! ### Parents -/

/-- The local entity that the parent of a node names: by a DID URL of this runtime, or by its bare
fragment. -/
def parentFragment (ourDid parent : String) : Option String :=
  match stripPrefix (ourDid ++ "#") parent with
  | some fragment => some fragment
  | none => if (stripPrefix "did:" parent).isSome then none else some parent

/-- The local entity that is the parent of a live one. -/
def localParent (ourDid : String) (plugin : EntityPlugin) : Option String :=
  plugin.parent.bind (parentFragment ourDid)

/-- Every parent that names a local entity is live. -/
def ParentsLive (ourDid : String) (registry : KeyedMap String EntityPlugin) : Prop :=
  RefsLive (localParent ourDid) registry

theorem parentFragment_url (ourDid fragment : String) :
    parentFragment ourDid (ourDid ++ "#" ++ fragment) = some fragment := by
  have hurl : stripPrefix (ourDid ++ "#") (ourDid ++ "#" ++ fragment) = some fragment :=
    stripPrefix_eq_some_iff.mpr rfl
  rw [parentFragment, hurl]

/-! ### The machine -/

/-- A CRUD delete that has found its entity in the manifest, and that may have removed it from the
registry. -/
structure EntityDelete where
  name : String
  removed : Bool

/-- The requests for entities, the deletions that were allowed, and the CRUD deletes. -/
structure TreeState (Cid : Type) where
  creation : CreationState Cid
  deletions : KeyedMap Nat String
  entityDeletes : KeyedMap Nat EntityDelete

/-- The steps: one of a request for an entity; a deletion is asked for, and removes the entity; a
CRUD delete finds its entity in the manifest, removes it from the registry, unlinks it or fails to,
or is given up. -/
inductive TreeAction
  | creation (action : CreationAction)
  | requestDeletion (number : Nat) (path : DispatchPath) (caller : EntityPlugin) (target : String)
  | remove (number : Nat)
  | findEntity (task : Nat) (name : String)
  | removeEntity (task : Nat)
  | unlinkEntity (task : Nat) (succeeds : Bool)
  | giveUpDelete (task : Nat)

namespace TreeState

/-- The live entities. -/
def registry (s : TreeState Cid) : KeyedMap String EntityPlugin := s.creation.stores.registry

/-- Other stores. -/
def setStores (s : TreeState Cid) (stores : EntityStores Cid) : TreeState Cid :=
  { s with creation := { s.creation with stores := stores } }

/-- The state before the first request. -/
def start (stores : EntityStores Cid) : TreeState Cid := ⟨.start stores, .empty, .empty⟩

end TreeState

section Machine

variable [ToString Cid] (store : Store Cid) (cidOfText : String → Cid)

/-- One step of a runtime that creates and deletes entities, at requests and by CRUD. -/
def treeStep (s : TreeState Cid) : TreeAction → Option (TreeState Cid)
  | .creation action =>
    (creationStep store cidOfText s.creation action).map fun creation ↦
      { s with creation := creation }
  | .requestDeletion number path caller target =>
    match mayDelete s.registry caller target, path with
    | true, .inbox =>
      if (s.deletions.get number).isSome then none
      else some { s with deletions := s.deletions.insert number target }
    | _, _ => some s
  | .remove number =>
    (s.deletions.get number).map fun target ↦
      { s.setStores { s.creation.stores with registry := s.registry.remove target } with
        deletions := s.deletions.remove number }
  | .findEntity task name =>
    if (s.entityDeletes.get task).isSome then none
    else if (s.creation.stores.nodes.get name).isSome then
      some { s with entityDeletes := s.entityDeletes.insert task ⟨name, false⟩ }
    else some s
  | .removeEntity task =>
    match s.entityDeletes.get task with
    | some ⟨name, false⟩ =>
      some
        { s.setStores { s.creation.stores with registry := s.registry.remove name } with
          entityDeletes := s.entityDeletes.insert task ⟨name, true⟩ }
    | _ => none
  | .unlinkEntity task succeeds =>
    match s.entityDeletes.get task with
    | some ⟨name, true⟩ =>
      some
        { s.setStores { s.creation.stores with
            nodes := if succeeds then s.creation.stores.nodes.remove name
              else s.creation.stores.nodes } with
          entityDeletes := s.entityDeletes.remove task }
    | _ => none
  | .giveUpDelete task =>
    if (s.entityDeletes.get task).isSome then
      some { s with entityDeletes := s.entityDeletes.remove task }
    else none

end Machine

/-! ### The condition -/

/-- A step gives a fragment a plugin. -/
def Enters (s : TreeState Cid) : TreeAction → String → EntityPlugin → Prop
  | .creation (.register task _ _), fragment, plugin =>
    ∃ path req node loaded, s.creation.requests.get task = some (.loaded path req node loaded) ∧
      (path = .envelope → s.registry.get req.fragment = none) ∧
      fragment = req.fragment ∧ plugin = pluginOf req.fragment node
  | _, _, _ => False

/-- A step takes the plugin of a fragment away. -/
def Leaves (s : TreeState Cid) : TreeAction → String → Prop
  | .remove number, target => s.deletions.get number = some target
  | .removeEntity task, name => s.entityDeletes.get task = some ⟨name, false⟩
  | _, _ => False

/-- What is registered has a live parent or is its own, and what is removed is the parent of no
other live entity. -/
structure KeepsParents (ourDid : String) (s : TreeState Cid) (action : TreeAction) : Prop where
  entering : ∀ fragment plugin, Enters s action fragment plugin →
    ∀ parent, localParent ourDid plugin = some parent →
      parent = fragment ∨ (s.registry.get parent).isSome = true
  leaving : ∀ target, Leaves s action target → Unreferenced (localParent ourDid) s.registry target

/-! ### Steps -/

section Steps

variable [ToString Cid] {store : Store Cid} {cidOfText : String → Cid} {s t : TreeState Cid}
  {action : TreeAction} {ourDid : String}

/-- A step that gives a fragment a plugin inserts it. -/
theorem registry_of_enters (h : treeStep store cidOfText s action = some t) {fragment : String}
    {plugin : EntityPlugin} (henters : Enters s action fragment plugin) :
    t.registry = s.registry.insert fragment plugin := by
  cases action with
  | creation action =>
    cases action with
    | register task stateAdded number =>
      obtain ⟨path, req, node, loaded, hloaded, hfree, rfl, rfl⟩ := henters
      obtain ⟨creation, hcreation, rfl⟩ := Option.map_eq_some_iff.mp h
      have hregister : registerPlugin path s.creation.stores.registry req.fragment
          (pluginOf req.fragment node) =
          (s.creation.stores.registry.insert req.fragment (pluginOf req.fragment node), true) := by
        cases path with
        | inbox => rfl
        | envelope =>
          have hnone : s.creation.stores.registry.get req.fragment = none := hfree rfl
          simp only [registerPlugin, insertIfAbsent, hnone]
      cases hnumber : s.creation.registrations.get number with
      | none =>
        simp only [creationStep, hloaded, hnumber, hregister] at hcreation
        obtain rfl := Option.some.inj hcreation
        rfl
      | some known => simp [creationStep, hloaded, hnumber] at hcreation
    | create task path caller req => exact henters.elim
    | enter task => exact henters.elim
    | load task attempts => exact henters.elim
    | insertEntity number succeeds => exact henters.elim
    | giveUp task => exact henters.elim
  | requestDeletion number path caller target => exact henters.elim
  | remove number => exact henters.elim
  | findEntity task name => exact henters.elim
  | removeEntity task => exact henters.elim
  | unlinkEntity task succeeds => exact henters.elim
  | giveUpDelete task => exact henters.elim

/-- A step that takes a plugin away removes it. -/
theorem registry_of_leaves (h : treeStep store cidOfText s action = some t) {target : String}
    (hleaves : Leaves s action target) : t.registry = s.registry.remove target := by
  cases action with
  | remove number =>
    have htarget : s.deletions.get number = some target := hleaves
    simp only [treeStep, htarget] at h
    obtain rfl := Option.some.inj h
    rfl
  | removeEntity task =>
    have hname : s.entityDeletes.get task = some ⟨target, false⟩ := hleaves
    simp only [treeStep, hname] at h
    obtain rfl := Option.some.inj h
    rfl
  | creation action => exact hleaves.elim
  | requestDeletion number path caller target => exact hleaves.elim
  | findEntity task name => exact hleaves.elim
  | unlinkEntity task succeeds => exact hleaves.elim
  | giveUpDelete task => exact hleaves.elim

/-- A step of the requests for entities registers one plugin, or none. -/
theorem enters_or_registry_eq {action : CreationAction} {creation : CreationState Cid}
    (h : creationStep store cidOfText s.creation action = some creation) :
    (∃ fragment plugin, Enters s (.creation action) fragment plugin) ∨
      creation.stores.registry = s.registry := by
  obtain hproceeds | ⟨path, number, registration, hregisters⟩ |
    ⟨number, registration, succeeds, hinserts⟩ := creationStep_cases h
  · exact .inr (congrArg EntityStores.registry hproceeds.stores)
  · obtain ⟨task, stateAdded, req, node, loaded, rfl, hloaded, hfragment⟩ := hregisters.isLoaded
    left
    refine ⟨req.fragment, pluginOf req.fragment node, path, req, node, loaded, hloaded, ?_, rfl, rfl⟩
    intro hpath
    rw [hfragment]
    exact hregisters.isFree hpath
  · exact .inr hinserts.registry

/-- A step registers a plugin, or removes one, or leaves the registry as it is. -/
theorem treeStep_cases (h : treeStep store cidOfText s action = some t) :
    (∃ fragment plugin, Enters s action fragment plugin) ∨ (∃ target, Leaves s action target) ∨
      t.registry = s.registry := by
  cases action with
  | creation action =>
    obtain ⟨creation, hcreation, rfl⟩ := Option.map_eq_some_iff.mp h
    rcases enters_or_registry_eq hcreation with henters | hkept
    · exact .inl henters
    · exact .inr (.inr hkept)
  | requestDeletion number path caller target =>
    right; right
    simp only [treeStep] at h
    split at h
    · split_ifs at h
      obtain rfl := Option.some.inj h
      rfl
    · obtain rfl := Option.some.inj h
      rfl
  | remove number =>
    obtain ⟨target, htarget, rfl⟩ := Option.map_eq_some_iff.mp h
    exact .inr (.inl ⟨target, htarget⟩)
  | findEntity task name =>
    right; right
    simp only [treeStep] at h
    split_ifs at h
    · obtain rfl := Option.some.inj h
      rfl
    · obtain rfl := Option.some.inj h
      rfl
  | removeEntity task =>
    simp only [treeStep] at h
    split at h
    · rename_i name hfound
      exact .inr (.inl ⟨name, hfound⟩)
    · cases h
  | unlinkEntity task succeeds =>
    right; right
    simp only [treeStep] at h
    split at h
    · obtain rfl := Option.some.inj h
      rfl
    · cases h
  | giveUpDelete task =>
    right; right
    simp only [treeStep] at h
    split_ifs at h
    obtain rfl := Option.some.inj h
    rfl

theorem parentsLive_step (hs : ParentsLive ourDid s.registry) (hkeeps : KeepsParents ourDid s action)
    (h : treeStep store cidOfText s action = some t) : ParentsLive ourDid t.registry := by
  rcases treeStep_cases h with ⟨fragment, plugin, henters⟩ | ⟨target, hleaves⟩ | hkept
  · rw [registry_of_enters h henters]
    exact (refsLive_insert hs).mpr (hkeeps.entering fragment plugin henters)
  · rw [registry_of_leaves h hleaves]
    exact (refsLive_remove hs).mpr (hkeeps.leaving target hleaves)
  · rw [hkept]
    exact hs

/-- A step after which every parent is live meets the condition. -/
theorem keepsParents_of_parentsLive (hs : ParentsLive ourDid s.registry)
    (h : treeStep store cidOfText s action = some t) (ht : ParentsLive ourDid t.registry) :
    KeepsParents ourDid s action where
  entering fragment plugin henters := by
    rw [registry_of_enters h henters] at ht
    exact (refsLive_insert hs).mp ht
  leaving target hleaves := by
    rw [registry_of_leaves h hleaves] at ht
    exact (refsLive_remove hs).mp ht

omit [ToString Cid] in
/-- A removal that follows its check at once keeps the parents live, as long as the target is not
named by a DID URL. -/
theorem keepsParents_remove {number : Nat} {caller : EntityPlugin} {target : String}
    (hasked : s.deletions.get number = some target)
    (hmay : mayDelete s.registry caller target = true)
    (hbare : ∀ name plugin parent, s.registry.get name = some plugin → plugin.parent = some parent →
      parentFragment ourDid parent = some target → parent = target) :
    KeepsParents ourDid s (.remove number) where
  entering fragment plugin henters := henters.elim
  leaving removed hleaves := by
    obtain rfl := Option.some.inj (hasked.symm.trans hleaves)
    intro name plugin hname hplugin hrefers
    obtain ⟨parent, hparent, hnames⟩ := Option.bind_eq_some_iff.mp hrefers
    have hsame := hbare name plugin parent hplugin hparent hnames
    obtain ⟨found, hfound⟩ := Option.isSome_iff_exists.mp (isSome_of_mayDelete hmay)
    have hchildless : ¬(s.registry.entries.any fun entry ↦
        (s.registry.get entry.1).any fun child ↦ child.parent = some target) = true := by
      simp only [mayDelete, hfound, Bool.and_eq_true, Bool.not_eq_true'] at hmay
      exact Bool.not_eq_true _ ▸ hmay.2
    apply hchildless
    apply List.any_eq_true.mpr
    refine ⟨(name, plugin), KeyedMap.mem_of_get hplugin, ?_⟩
    rw [hplugin]
    simp [hparent, hsame]

end Steps

/-! ### Runs -/

/-- Starting from a registry without dangling parents, none dangles along a run if and only if each
plugin that is registered has a live parent, and each that is removed is the parent of no other. -/
theorem parentsLive_iff [ToString Cid] {store : Store Cid} {cidOfText : String → Cid}
    {ourDid : String} {stores : EntityStores Cid} {actions : List TreeAction} {u : TreeState Cid}
    (hstart : ParentsLive ourDid stores.registry)
    (h : Run (treeStep store cidOfText) (.start stores) actions u) :
    (∀ before after t, actions = before ++ after →
        Run (treeStep store cidOfText) (.start stores) before t → ParentsLive ourDid t.registry) ↔
      GuardedRun (treeStep store cidOfText) (KeepsParents ourDid) (.start stores) actions u :=
  guardedRun_iff_forall_prefix (fun s ↦ ParentsLive ourDid s.registry) h hstart
    (fun _ _ _ hs hkeeps hstep ↦ parentsLive_step hs hkeeps hstep)
    (fun _ _ _ hs hstep ht ↦ keepsParents_of_parentsLive hs hstep ht)

/-! ### A parent that is deleted -/

theorem parentsLive_oneRoom : ParentsLive "did:ma:us" oneRoom.registry :=
  refsLive_of_forall_eq_none (by simp [oneRoom, localParent])

/-- `guest` asks for an entity below it, and deletes that entity. -/
def createsAndDeletesHall : List TreeAction :=
  (createRoom "hall").map .creation ++
    [.requestDeletion 0 .inbox ⟨"guest", "open", none, false⟩ "hall", .remove 0]

/-- A child that is created below a live parent, and deleted while the parent lives. -/
theorem parentsLive_iff_child_first :
    ∃ u, Run (treeStep contentStore textCid) (.start oneRoom) createsAndDeletesHall u ∧
      ParentsLive "did:ma:us" u.registry := by
  have hrun : Run (treeStep contentStore textCid) (.start oneRoom) createsAndDeletesHall _ :=
    run_of_execute rfl
  refine ⟨_, hrun, (parentsLive_iff parentsLive_oneRoom hrun).mpr ?_ _ [] _
    (List.append_nil _).symm hrun⟩
  refine .cons ⟨fun _ _ h ↦ h.elim, fun _ h ↦ h.elim⟩ rfl ?_
  refine .cons ⟨fun _ _ h ↦ h.elim, fun _ h ↦ h.elim⟩ rfl ?_
  refine .cons ⟨?_, fun _ h ↦ h.elim⟩ rfl ?_
  · rintro fragment plugin ⟨path, req, node, loaded, hloaded, -, rfl, rfl⟩ parent hparent
    cases hloaded
    cases hparent
    exact .inr rfl
  refine .cons ⟨fun _ _ h ↦ h.elim, fun _ h ↦ h.elim⟩ rfl ?_
  refine .cons ⟨fun _ _ h ↦ h.elim, fun _ h ↦ h.elim⟩ rfl ?_
  refine .cons ⟨fun _ _ h ↦ h.elim, ?_⟩ rfl (.nil _)
  rintro target ⟨⟩ other plugin hother hplugin hrefers
  rcases List.mem_cons.mp (KeyedMap.mem_of_get hplugin) with hhall | hguest
  · exact hother (congrArg Prod.fst hhall)
  · cases List.mem_singleton.mp hguest
    cases hrefers

/-- CRUD deletes an entity that has a child: the child stays, below a parent that is gone. -/
theorem parent_deleted :
    ParentsLive "did:ma:us" oneRoom.registry ∧
      ∃ u, Run (treeStep contentStore textCid) (.start oneRoom)
          ((createRoom "hall").map .creation ++
            [.findEntity 0 "guest", .removeEntity 0, .unlinkEntity 0 true]) u ∧
        u.registry.get "hall" = some ⟨"hall", "open", some "guest", false⟩ ∧
        u.registry.get "guest" = none ∧ ¬ParentsLive "did:ma:us" u.registry := by
  refine ⟨parentsLive_oneRoom, _, run_of_execute rfl, rfl, rfl, fun hlive ↦ ?_⟩
  have hparent := hlive "hall" ⟨"hall", "open", some "guest", false⟩ "guest" rfl rfl
  cases hparent

end MaRuntime.Dispatch
