import Mathlib.Logic.Function.Basic
import MaRuntime.Manifest.Documents

/-!
# The manifest writer

`ManifestWriter` of `manifest.rs` as a machine of tasks. A call on a clone of the writer is a task;
the tasks share the writer's root and its cached manifest behind one lock, and the root in the
statistics. A task gives way at each of its awaits: for the lock, for a `dag_get`, `dag_put` or
`pin_update` of Kubo, for an asynchronous closure, and for the statistics. `writerStep` is what one
task does between two awaits, so a list of actions is an interleaving of any number of calls.

`update_entity_node` is one mutation with parameters, and its callers are instances of it
(`setEntityState`, `completeEntityReload`, `setEntityBehaviour`, `setEntityReloadError`).
`insert_entity` puts the node before it takes the lock, and is a `mutate` from there on; a
`mutate_async` whose closure has run is a `mutate` with the effect of that closure under the replies
it got.

Scope. Tasks are not cancelled. The value that the closure of a `mutate_async` computes beside the
manifest is passed on unchanged, and is left out. Kubo's URL and the texts of its errors are left
out. The list `acquired` is not part of the program: it records the order in which tasks took the
lock.
-/

set_option autoImplicit false
set_option relaxedAutoImplicit false

namespace MaRuntime.Manifest

variable {Cid Replies : Type}

/-! ### Calls -/

/-- What a task does to the manifest while it holds the lock. A closure that fails gives nothing,
and so does an entity update that finds nothing to change. -/
inductive Mutation (Cid Replies : Type)
  | mutate (f : RuntimeManifest Cid → Option (RuntimeManifest Cid))
  | mutateAsync (f : Replies → RuntimeManifest Cid → Option (RuntimeManifest Cid))
  | updateEntityNode (fragment : String) (update : EntityNode Cid → Option (EntityNode Cid))

/-- The calls on a writer. -/
inductive WriterCall (Cid Replies : Type)
  | mutation (mutation : Mutation Cid Replies)
  | insertEntity (fragment : String) (node : EntityNode Cid)

/-- The entity's node with another state. -/
def EntityNode.withState (node : EntityNode Cid) (stateCid : Cid) : EntityNode Cid :=
  { node with state := some ⟨stateCid⟩ }

/-- The entity's node after a reload, which may have saved a state. -/
def EntityNode.withReload (node : EntityNode Cid) (stateCid : Option Cid) : EntityNode Cid :=
  { node with
    state := match stateCid with
      | some stateCid => some ⟨stateCid⟩
      | none => node.state
    initialised := true
    reloadError := none }

/-- The entity's node with another behaviour. -/
def EntityNode.withBehaviour (node : EntityNode Cid) (behaviourCid : Option Cid) : EntityNode Cid :=
  { node with
    behaviour := behaviourCid.map IpldLink.mk
    initialised := true }

/-- `set_entity_state`. -/
def setEntityState (fragment : String) (stateCid : Cid) : Mutation Cid Replies :=
  .updateEntityNode fragment fun node ↦ some (node.withState stateCid)

/-- `complete_entity_reload`. -/
def completeEntityReload (fragment : String) (stateCid : Option Cid) : Mutation Cid Replies :=
  .updateEntityNode fragment fun node ↦ some (node.withReload stateCid)

/-- `set_entity_behaviour`. -/
def setEntityBehaviour (fragment : String) (behaviourCid : Option Cid) : Mutation Cid Replies :=
  .updateEntityNode fragment fun node ↦ some (node.withBehaviour behaviourCid)

/-- `set_entity_reload_error`: the error that the node already has is no change. -/
def setEntityReloadError (fragment : String) (reason : Option String) : Mutation Cid Replies :=
  .updateEntityNode fragment fun node ↦
    if node.reloadError = reason then none else some { node with reloadError := reason }

/-! ### Tasks -/

/-- Where a task that holds the lock awaits: a `dag_get` of the manifest, an asynchronous closure, a
`dag_get` or a `dag_put` of the entity's node, a `dag_put` of the new manifest, the `pin_update`,
and the lock of the statistics. -/
inductive Phase (Cid Replies : Type)
  | fetchManifest
  | runClosure (f : Replies → RuntimeManifest Cid → Option (RuntimeManifest Cid))
    (manifest : RuntimeManifest Cid)
  | fetchNode (fragment : String) (update : EntityNode Cid → Option (EntityNode Cid))
    (manifest : RuntimeManifest Cid) (link : IpldLink Cid)
  | putNode (fragment : String) (manifest : RuntimeManifest Cid) (node : EntityNode Cid)
  | putManifest (manifest : RuntimeManifest Cid)
  | updatePin (manifest : RuntimeManifest Cid) (newCid : Cid)
  | writeStats (newCid : Cid)

/-- A task: it puts an entity's node, waits for the lock, holds it, or has returned. -/
inductive Task (Cid Replies : Type)
  | puttingEntity (fragment : String) (node : EntityNode Cid)
  | waiting (mutation : Mutation Cid Replies)
  | holding (mutation : Mutation Cid Replies) (oldCid : Cid) (phase : Phase Cid Replies)
  | succeeded (mutation : Mutation Cid Replies) (rootCid : Cid)
  | failed

/-- The writer's root and cached manifest, its lock, the root in the statistics, and the tasks. -/
structure WriterState (Cid Replies : Type) where
  cid : Cid
  manifest : Option (RuntimeManifest Cid)
  lock : Option Nat
  rootCid : Option Cid
  tasks : Nat → Option (Task Cid Replies)
  acquired : List Nat

namespace WriterState

/-- A writer of a root that the statistics hold as well. -/
def new (initialCid : Cid) : WriterState Cid Replies where
  cid := initialCid
  manifest := none
  lock := none
  rootCid := some initialCid
  tasks := fun _ ↦ none
  acquired := []

def setTask (s : WriterState Cid Replies) (t : Nat) (task : Task Cid Replies) :
    WriterState Cid Replies :=
  { s with tasks := Function.update s.tasks t (some task) }

/-- A task that holds the lock comes to its next await. -/
def hold (s : WriterState Cid Replies) (t : Nat) (mutation : Mutation Cid Replies) (oldCid : Cid)
    (phase : Phase Cid Replies) : WriterState Cid Replies :=
  s.setTask t (.holding mutation oldCid phase)

/-- A task that holds the lock returns, and the guard is dropped. -/
def release (s : WriterState Cid Replies) (t : Nat) (task : Task Cid Replies) :
    WriterState Cid Replies :=
  { s.setTask t task with lock := none }

end WriterState

/-! ### Steps -/

/-- The actions of an interleaving. A reply of Kubo is a success or a failure; the other awaits end
in one way. -/
inductive WriterAction (Cid Replies : Type)
  | call (task : Nat) (call : WriterCall Cid Replies)
  | lock (task : Nat)
  | reply (task : Nat) (succeeds : Bool)
  | closure (task : Nat) (replies : Replies)
  | stats (task : Nat)

/-- The task that an action is a step of. -/
def WriterAction.task : WriterAction Cid Replies → Nat
  | .call task _ | .lock task | .reply task _ | .closure task _ | .stats task => task

/-- A task has the result of a synchronous closure. -/
def closureReturned (s : WriterState Cid Replies) (t : Nat) (mutation : Mutation Cid Replies)
    (oldCid : Cid) : Option (RuntimeManifest Cid) → WriterState Cid Replies
  | some manifest => s.hold t mutation oldCid (.putManifest manifest)
  | none => s.release t .failed

/-- A task has the manifest in hand. -/
def withManifest (s : WriterState Cid Replies) (t : Nat) (mutation : Mutation Cid Replies)
    (oldCid : Cid) (manifest : RuntimeManifest Cid) : WriterState Cid Replies :=
  match mutation with
  | .mutate f => closureReturned s t mutation oldCid (f manifest)
  | .mutateAsync f => s.hold t mutation oldCid (.runClosure f manifest)
  | .updateEntityNode fragment update =>
    match manifest.entities.get fragment with
    | some link => s.hold t mutation oldCid (.fetchNode fragment update manifest link)
    | none => s.release t .failed

/-- A task takes the lock, and the cached manifest if there is one. -/
def takeLock (s : WriterState Cid Replies) (t : Nat) (mutation : Mutation Cid Replies) :
    WriterState Cid Replies :=
  let locked := { s with lock := some t, manifest := none, acquired := s.acquired ++ [t] }
  match s.manifest with
  | some manifest => withManifest locked t mutation s.cid manifest
  | none => locked.hold t mutation s.cid .fetchManifest

section Step

variable (store : Store Cid)

/-- A task that holds the lock has the reply it awaits from Kubo. -/
def replyHeld (s : WriterState Cid Replies) (t : Nat) (mutation : Mutation Cid Replies)
    (oldCid : Cid) (succeeds : Bool) : Phase Cid Replies → Option (WriterState Cid Replies)
  | .fetchManifest =>
    match succeeds, manifestAt store s.cid with
    | true, some manifest => some (withManifest s t mutation oldCid manifest)
    | _, _ => some (s.release t .failed)
  | .fetchNode fragment update manifest link =>
    match succeeds, nodeAt store link.cid with
    | true, some node =>
      match update node with
      | some changed => some (s.hold t mutation oldCid (.putNode fragment manifest changed))
      | none => some ({ s with manifest := some manifest }.release t (.succeeded mutation oldCid))
    | _, _ => some (s.release t .failed)
  | .putNode fragment manifest node =>
    if succeeds then
      some (s.hold t mutation oldCid (.putManifest (manifest.setEntityNode store fragment node)))
    else some (s.release t .failed)
  | .putManifest manifest =>
    if succeeds then
      some (s.hold t mutation oldCid (.updatePin manifest (store.cidOf (.manifest manifest))))
    else some (s.release t .failed)
  -- a failure to move the pin is logged, and the publication goes on
  | .updatePin manifest newCid =>
    some ({ s with cid := newCid, manifest := some manifest }.hold t mutation oldCid
      (.writeStats newCid))
  | .runClosure _ _ | .writeStats _ => none

/-- One step of a task, from an await to the next. -/
def writerStep (s : WriterState Cid Replies) :
    WriterAction Cid Replies → Option (WriterState Cid Replies)
  | .call t call =>
    match s.tasks t, call with
    | none, .mutation mutation => some (s.setTask t (.waiting mutation))
    | none, .insertEntity fragment node => some (s.setTask t (.puttingEntity fragment node))
    | some _, _ => none
  | .lock t =>
    match s.tasks t, s.lock with
    | some (.waiting mutation), none => some (takeLock s t mutation)
    | _, _ => none
  | .reply t succeeds =>
    match s.tasks t with
    | some (.puttingEntity fragment node) =>
      if succeeds then
        some (s.setTask t (.waiting (.mutate fun m ↦ some (m.setEntityNode store fragment node))))
      else some (s.setTask t .failed)
    | some (.holding mutation oldCid phase) => replyHeld store s t mutation oldCid succeeds phase
    | _ => none
  | .closure t replies =>
    match s.tasks t with
    | some (.holding _ oldCid (.runClosure f manifest)) =>
      some (closureReturned s t (.mutate (f replies)) oldCid (f replies manifest))
    | _ => none
  | .stats t =>
    match s.tasks t with
    | some (.holding mutation _ (.writeStats newCid)) =>
      some ({ s with rootCid := some newCid }.release t (.succeeded mutation newCid))
    | _ => none

end Step

end MaRuntime.Manifest
