import Mathlib.Tactic.SplitIfs
import MaRuntime.Library.Runs
import MaRuntime.Manifest.Writer

/-!
# The head of a runtime

The newest root of a runtime is the writer's; the statistics hold a copy that everybody else reads,
and two pointers survive the process: the runtime's IPNS name, and `root_cid` in `config.yaml`. The
machine `headStep` has all that moves them: the mutations through the writer, of which those of CRUD
handlers can be cancelled at any await by the timeout of `drain_crud_messages`; the shutdown, which
saves every entity, writes the root in the statistics, persists it and publishes it
(`handle_shutdown`); the task that publishes the root from time to time
(`spawn_periodic_did_publish`); and the requests `:publish` of owners (`handle_root_publish`). Each
of these takes a snapshot of the root in the statistics, and acts on it some awaits later.

Roots are numbered in the order in which the writer publishes them (`published`), and the successive
roots of the two pointers are kept (`names`, `configs`); these are histories for the properties.

Main definitions: `HeadState`, `headStep`.
Main results: `rootStep_writerStep`.

Scope. A cancelled handler drops the writer's guard where it stands; a handler that is cancelled
outside of a mutation leaves nothing, and is not a step. The DID document, the owner check of
`:publish` and the texts of replies are left out. The process is not ended after the shutdown's last
step, as it goes on for some seconds to close its endpoint.
-/

set_option autoImplicit false
set_option relaxedAutoImplicit false

namespace MaRuntime.Manifest

variable {Cid Replies : Type}

/-! ### State -/

/-- A root, with its number in the order of publication. -/
structure Head (Cid : Type) where
  cid : Cid
  number : Nat

/-- A root that was read from the statistics, and how many roots the IPNS name and the configuration
had had by then. -/
structure Snapshot (Cid : Type) where
  root : Head Cid
  names : Nat
  configs : Nat

/-- Where the shutdown stands. -/
inductive Shutdown (Cid : Type)
  | idle
  | saving (rc : Snapshot Cid) (task : Nat)
  | writingStats (rc : Snapshot Cid) (saved : Head Cid)
  | reading (rc : Snapshot Cid)
  | persisting (latest : Snapshot Cid)
  | publishing (latest : Snapshot Cid)
  | exited

/-- Where the periodic publication stands: at the DID document, at the IPNS name, after the document
has been published or has not, or at the configuration. -/
inductive Republish (Cid : Type)
  | idle
  | document (latest : Snapshot Cid)
  | name (latest : Snapshot Cid) (didOk : Bool)
  | persist (latest : Snapshot Cid)

/-- A request `:publish`: it publishes, or was answered `:ok` with a root, which was put at a place
among the roots of the name, or was refused. -/
inductive PublishRequest (Cid : Type)
  | publishing (root : Snapshot Cid)
  | answered (root : Head Cid) (place : Nat)
  | refused

/-- The writer, which of its tasks are those of CRUD handlers, the roots it has published, the
number of the root in the statistics, those who publish the root, and the pointers: the setting in
memory, and the roots that the name and the file have had. -/
structure HeadState (Cid Replies : Type) where
  writer : WriterState Cid Replies
  crud : Nat → Bool
  published : List Cid
  rootNumber : Nat
  shutdown : Shutdown Cid
  republish : Republish Cid
  lastPublished : Option Cid
  requests : Nat → Option (PublishRequest Cid)
  configRoot : Option Cid
  names : List (Head Cid)
  configs : List (Head Cid)

namespace HeadState

/-- A runtime that has started with a root. -/
def start (initialCid : Cid) (configRoot : Option Cid) : HeadState Cid Replies where
  writer := .new initialCid
  crud _ := false
  published := [initialCid]
  rootNumber := 0
  shutdown := .idle
  republish := .idle
  lastPublished := none
  requests _ := none
  configRoot := configRoot
  names := []
  configs := []

/-- The number of the root that was published last. -/
def lastNumber (s : HeadState Cid Replies) : Nat := s.published.length - 1

/-- What one reads from the statistics. -/
def snapshot (s : HeadState Cid Replies) : Option (Snapshot Cid) :=
  s.writer.rootCid.map fun cid ↦ ⟨⟨cid, s.rootNumber⟩, s.names.length, s.configs.length⟩

/-- `publish_runtime_root_cid` completes. -/
def publishName (s : HeadState Cid Replies) (root : Snapshot Cid) : HeadState Cid Replies :=
  { s with names := s.names ++ [root.root] }

/-- `persist_root_cid`: the setting in memory is changed, and the file when it can be saved. -/
def persistRootCid (s : HeadState Cid Replies) (root : Snapshot Cid) [DecidableEq Cid]
    (saves : Bool) : HeadState Cid Replies :=
  if s.configRoot = some root.root.cid then s
  else
    { s with
      configRoot := some root.root.cid
      configs := if saves then s.configs ++ [root.root] else s.configs }

end HeadState

/-! ### Steps -/

/-- The steps: of a task of the writer, the first and the cancelling one of a CRUD handler's task,
of the shutdown, of the periodic publication, and of a request. -/
inductive HeadAction (Cid Replies : Type)
  | writer (action : WriterAction Cid Replies)
  | crud (task : Nat) (call : WriterCall Cid Replies)
  | cancel (task : Nat)
  | shutdown (task : Nat) (save : Replies → RuntimeManifest Cid → Option (RuntimeManifest Cid))
    (hasEntities : Bool)
  | shutdownNext (succeeds : Bool)
  | tick (cacheWarm builds : Bool)
  | republishNext (succeeds : Bool)
  | request (id : Nat)
  | requestNext (id : Nat) (succeeds : Bool)

/-- Whether a task holds the lock. -/
def holdsLock : Option (Task Cid Replies) → Bool
  | some (.holding _ _ _) => true
  | _ => false

/-- The root that a task has published and is about to write to the statistics. -/
def statsCid : Option (Task Cid Replies) → Option Cid
  | some (.holding _ _ (.writeStats newCid)) => some newCid
  | _ => none

/-- The root that a task is about to make the writer's. -/
def pinnedCid : Option (Task Cid Replies) → Option Cid
  | some (.holding _ _ (.updatePin _ newCid)) => some newCid
  | _ => none

namespace HeadState

/-- The writer has taken a step. A task that was about to publish has published; a task that was
about to write to the statistics has written, and is `save_all_entity_states` if it is the
shutdown's. -/
def afterWriter (s : HeadState Cid Replies) (action : WriterAction Cid Replies)
    (writer : WriterState Cid Replies) : HeadState Cid Replies :=
  match action with
  | .reply t _ =>
    { s with
      writer := writer
      published := s.published ++ (pinnedCid (s.writer.tasks t)).toList }
  | .stats t =>
    { s with
      writer := writer
      rootNumber := s.lastNumber
      shutdown := match s.shutdown, statsCid (s.writer.tasks t) with
        | .saving rc task, some newCid =>
          if task = t then .writingStats rc ⟨newCid, s.lastNumber⟩ else s.shutdown
        | _, _ => s.shutdown }
  | _ => { s with writer := writer }

/-- The task of a CRUD handler is dropped at the await it is at. -/
def cancelTask (s : HeadState Cid Replies) (t : Nat) : Option (HeadState Cid Replies) :=
  match s.crud t, s.writer.tasks t with
  | true, some (.puttingEntity _ _) | true, some (.waiting _) =>
    some { s with writer := s.writer.setTask t .failed }
  | true, some (.holding _ _ _) => some { s with writer := s.writer.release t .failed }
  | _, _ => none

/-- The shutdown writes the root it has saved to the statistics. The number stays where the root
does. -/
def writeStats (s : HeadState Cid Replies) [DecidableEq Cid] (saved : Head Cid) :
    HeadState Cid Replies :=
  { s with
    writer := { s.writer with rootCid := some saved.cid }
    rootNumber := if s.writer.rootCid = some saved.cid then s.rootNumber else saved.number }

/-- The next step of the shutdown, when what it awaits has ended. -/
def shutdownNext (s : HeadState Cid Replies) [DecidableEq Cid] (succeeds : Bool) :
    Option (HeadState Cid Replies) :=
  match s.shutdown with
  -- a shutdown whose entities cannot be saved is aborted
  | .saving _ task =>
    match s.writer.tasks task with
    | some .failed => some { s with shutdown := .idle }
    | _ => none
  | .writingStats rc saved => some { s.writeStats saved with shutdown := .reading rc }
  | .reading rc => some { s with shutdown := .persisting (s.snapshot.getD rc) }
  | .persisting latest =>
    some { s.persistRootCid latest succeeds with shutdown := .publishing latest }
  | .publishing latest =>
    if succeeds then some { s.publishName latest with shutdown := .exited }
    else some { s with shutdown := .exited }
  | .idle | .exited => none

/-- The next step of the periodic publication. -/
def republishNext (s : HeadState Cid Replies) [DecidableEq Cid] (succeeds : Bool) :
    Option (HeadState Cid Replies) :=
  match s.republish with
  | .document latest => some { s with republish := .name latest succeeds }
  | .name latest didOk =>
    if succeeds then
      some { s.publishName latest with republish := if didOk then .persist latest else .idle }
    else some { s with republish := .idle }
  | .persist latest =>
    some { s.persistRootCid latest succeeds with
      republish := .idle
      lastPublished := some latest.root.cid }
  | .idle => none

def setRequest (s : HeadState Cid Replies) (id : Nat) (request : PublishRequest Cid) :
    HeadState Cid Replies :=
  { s with requests := Function.update s.requests id (some request) }

end HeadState

section Step

variable (store : Store Cid) [DecidableEq Cid]

/-- One step of an interleaving. -/
def headStep (s : HeadState Cid Replies) :
    HeadAction Cid Replies → Option (HeadState Cid Replies)
  | .writer action => (writerStep store s.writer action).map fun writer ↦ s.afterWriter action writer
  | .crud t call => (writerStep store s.writer (.call t call)).map fun writer ↦
    { s with writer := writer, crud := Function.update s.crud t true }
  | .cancel t => s.cancelTask t
  | .shutdown task save hasEntities =>
    match s.shutdown, s.snapshot with
    | .idle, none => some { s with shutdown := .exited }
    | .idle, some rc =>
      if hasEntities then
        (writerStep store s.writer (.call task (.mutation (.mutateAsync save)))).map fun writer ↦
          { s with writer := writer, shutdown := .saving rc task }
      else some { s with shutdown := .reading rc }
    | _, _ => none
  | .shutdownNext succeeds => s.shutdownNext succeeds
  | .tick cacheWarm builds =>
    match s.republish, s.snapshot with
    | .idle, none => some s
    | .idle, some latest =>
      if s.lastPublished = some latest.root.cid ∧ cacheWarm = false then some s
      else if builds then some { s with republish := .document latest }
      else some s
    | _, _ => none
  | .republishNext succeeds => s.republishNext succeeds
  | .request id =>
    match s.requests id, s.snapshot with
    | none, some root => some (s.setRequest id (.publishing root))
    | none, none => some (s.setRequest id .refused)
    | _, _ => none
  | .requestNext id succeeds =>
    match s.requests id with
    | some (.publishing root) =>
      if succeeds then
        some ((s.publishName root).setRequest id (.answered root.root s.names.length))
      else some (s.setRequest id .refused)
    | _ => none

end Step

/-! ### What a step of the writer does to its root -/

variable {store : Store Cid} {w w' : WriterState Cid Replies} {t : Nat} {task : Task Cid Replies}

/-- A step of one task that leaves the writer's root and the one in the statistics alone. -/
structure Passes (w w' : WriterState Cid Replies) (t : Nat) (task : Task Cid Replies) : Prop where
  tasks : w'.tasks = Function.update w.tasks t (some task)
  cid : w'.cid = w.cid
  rootCid : w'.rootCid = w.rootCid
  before : statsCid (w.tasks t) = none
  after : statsCid (some task) = none
  lock : holdsLock (some task) = true ∧ (w'.lock = some t ∧ w.lock = none ∨
      w'.lock = w.lock ∧ holdsLock (w.tasks t) = true) ∨
    holdsLock (some task) = false ∧ (w'.lock = none ∧ holdsLock (w.tasks t) = true ∨
      w'.lock = w.lock)

/-- A step of the writer leaves its root and the one in the statistics alone, makes a root the
writer's, or copies the writer's new root to the statistics. -/
inductive RootStep (w w' : WriterState Cid Replies) : WriterAction Cid Replies → Prop
  | pass {action : WriterAction Cid Replies} (task : Task Cid Replies)
    (h : Passes w w' action.task task) (hunpinned : ∀ t b, action = .reply t b →
      pinnedCid (w.tasks t) = none) (hstats : ∀ t, action ≠ .stats t) : RootStep w w' action
  | publish {t : Nat} {succeeds : Bool} {mutation : Mutation Cid Replies} {oldCid newCid : Cid}
    (hpinned : pinnedCid (w.tasks t) = some newCid) (hholds : holdsLock (w.tasks t) = true)
    (htasks : w'.tasks =
      Function.update w.tasks t (some (.holding mutation oldCid (.writeStats newCid))))
    (hcid : w'.cid = newCid) (hrootCid : w'.rootCid = w.rootCid) (hlock : w'.lock = w.lock) :
    RootStep w w' (.reply t succeeds)
  | stats {t : Nat} {task : Task Cid Replies} {newCid : Cid}
    (hstats : statsCid (w.tasks t) = some newCid)
    (htasks : w'.tasks = Function.update w.tasks t (some task))
    (hafter : holdsLock (some task) = false) (hcid : w'.cid = w.cid)
    (hrootCid : w'.rootCid = some newCid) (hlock : w'.lock = none) : RootStep w w' (.stats t)

/-- A task has the lock, or takes it in this step. -/
structure HasLock (w held : WriterState Cid Replies) (t : Nat) : Prop where
  tasks : held.tasks = w.tasks
  cid : held.cid = w.cid
  rootCid : held.rootCid = w.rootCid
  before : statsCid (w.tasks t) = none
  lock : held.lock = some t ∧ w.lock = none ∨ held.lock = w.lock ∧ holdsLock (w.tasks t) = true

namespace HasLock

variable {held : WriterState Cid Replies} {mutation : Mutation Cid Replies} {oldCid : Cid}

theorem self (hholds : holdsLock (w.tasks t) = true) (hbefore : statsCid (w.tasks t) = none) :
    HasLock w w t :=
  ⟨rfl, rfl, rfl, hbefore, .inr ⟨rfl, hholds⟩⟩

variable (h : HasLock w held t)

include h

theorem hold (phase : Phase Cid Replies)
    (hafter : statsCid (some (.holding mutation oldCid phase)) = none) :
    Passes w (held.hold t mutation oldCid phase) t (.holding mutation oldCid phase) :=
  ⟨congrArg (fun tasks ↦ Function.update tasks t _) h.tasks, h.cid, h.rootCid, h.before, hafter,
    .inl ⟨rfl, h.lock⟩⟩

theorem release (manifest : Option (RuntimeManifest Cid))
    (hafter : holdsLock (some task) = false) :
    Passes w ({ held with manifest := manifest }.release t task) t task := by
  refine ⟨congrArg (fun tasks ↦ Function.update tasks t _) h.tasks, h.cid, h.rootCid, h.before, ?_,
    .inr ⟨hafter, ?_⟩⟩
  · cases task with
    | holding => cases hafter
    | puttingEntity | waiting | succeeded | failed => rfl
  · rcases h.lock with ⟨-, hfree⟩ | ⟨-, hholds⟩
    · exact .inr hfree.symm
    · exact .inl ⟨rfl, hholds⟩

theorem closureReturned (mutation : Mutation Cid Replies) (oldCid : Cid)
    (result : Option (RuntimeManifest Cid)) :
    ∃ task, Passes w (closureReturned held t mutation oldCid result) t task := by
  cases result with
  | some manifest => exact ⟨_, h.hold _ rfl⟩
  | none => exact ⟨_, h.release held.manifest rfl⟩

theorem withManifest (mutation : Mutation Cid Replies) (manifest : RuntimeManifest Cid) :
    ∃ task, Passes w (withManifest held t mutation oldCid manifest) t task := by
  cases mutation with
  | mutate f => exact h.closureReturned _ _ _
  | mutateAsync f => exact ⟨_, h.hold _ rfl⟩
  | updateEntityNode fragment update =>
    unfold Manifest.withManifest
    dsimp only
    cases manifest.entities.get fragment with
    | some link => exact ⟨_, h.hold _ rfl⟩
    | none => exact ⟨_, h.release held.manifest rfl⟩

end HasLock

/-- A task that does not hold the lock changes. -/
theorem passes_setTask (w : WriterState Cid Replies) (hbefore : holdsLock (w.tasks t) = false)
    (hafter : holdsLock (some task) = false) : Passes w (w.setTask t task) t task := by
  have hnone {task : Option (Task Cid Replies)} (h : holdsLock task = false) :
      statsCid task = none := by
    unfold statsCid
    split
    · cases h
    · rfl
  exact ⟨rfl, rfl, rfl, hnone hbefore, hnone hafter, .inr ⟨hafter, .inr rfl⟩⟩

theorem rootStep_replyHeld {mutation : Mutation Cid Replies} {oldCid : Cid} {succeeds : Bool}
    {phase : Phase Cid Replies} (htask : w.tasks t = some (.holding mutation oldCid phase))
    (h : replyHeld store w t mutation oldCid succeeds phase = some w') :
    RootStep w w' (.reply t succeeds) := by
  have hholds : holdsLock (w.tasks t) = true := by
    rw [htask]
    rfl
  have hpass {task : Task Cid Replies} (hpasses : Passes w w' t task)
      (hunpinned : pinnedCid (w.tasks t) = none) : RootStep w w' (.reply t succeeds) :=
    .pass task hpasses (fun _ _ haction ↦ by cases haction; exact hunpinned)
      fun _ haction ↦ (nomatch haction)
  cases phase with
  | updatePin manifest newCid =>
    obtain rfl := Option.some.inj h
    refine .publish ?_ hholds rfl rfl rfl rfl
    rw [htask]
    rfl
  | fetchManifest =>
    have hlock : HasLock w w t := .self hholds (by rw [htask]; rfl)
    have hunpinned : pinnedCid (w.tasks t) = none := by rw [htask]; rfl
    simp only [replyHeld] at h
    split at h
    · obtain rfl := Option.some.inj h
      obtain ⟨task, hpasses⟩ := hlock.withManifest mutation _
      exact hpass hpasses hunpinned
    · obtain rfl := Option.some.inj h
      exact hpass (hlock.release w.manifest rfl) hunpinned
  | fetchNode fragment update manifest link =>
    have hlock : HasLock w w t := .self hholds (by rw [htask]; rfl)
    have hunpinned : pinnedCid (w.tasks t) = none := by rw [htask]; rfl
    simp only [replyHeld] at h
    split at h
    · split at h
      · obtain rfl := Option.some.inj h
        exact hpass (hlock.hold _ rfl) hunpinned
      · obtain rfl := Option.some.inj h
        exact hpass (hlock.release (some manifest) rfl) hunpinned
    · obtain rfl := Option.some.inj h
      exact hpass (hlock.release w.manifest rfl) hunpinned
  | putNode | putManifest =>
    have hlock : HasLock w w t := .self hholds (by rw [htask]; rfl)
    have hunpinned : pinnedCid (w.tasks t) = none := by rw [htask]; rfl
    simp only [replyHeld] at h
    split_ifs at h
    · obtain rfl := Option.some.inj h
      exact hpass (hlock.hold _ rfl) hunpinned
    · obtain rfl := Option.some.inj h
      exact hpass (hlock.release w.manifest rfl) hunpinned
  | runClosure f manifest => cases h
  | writeStats newCid => cases h

/-- What a step of the writer does to its root and to the one in the statistics. -/
theorem rootStep_writerStep {action : WriterAction Cid Replies}
    (h : writerStep store w action = some w') : RootStep w w' action := by
  cases action with
  | call t call =>
    have hpass {task : Task Cid Replies} (hpasses : Passes w w' t task) :
        RootStep w w' (.call t call) :=
      .pass task hpasses (fun _ _ haction ↦ (nomatch haction)) fun _ haction ↦ (nomatch haction)
    simp only [writerStep] at h
    split at h
    · rename_i htask
      obtain rfl := Option.some.inj h
      exact hpass (passes_setTask w (by rw [htask]; rfl) rfl)
    · rename_i htask
      obtain rfl := Option.some.inj h
      exact hpass (passes_setTask w (by rw [htask]; rfl) rfl)
    · cases h
  | lock t =>
    have hpass {task : Task Cid Replies} (hpasses : Passes w w' t task) :
        RootStep w w' (.lock t) :=
      .pass task hpasses (fun _ _ haction ↦ (nomatch haction)) fun _ haction ↦ (nomatch haction)
    simp only [writerStep] at h
    split at h
    · rename_i mutation htask hfree
      obtain rfl := Option.some.inj h
      have hlock : HasLock w
          { w with lock := some t, manifest := none, acquired := w.acquired ++ [t] } t :=
        ⟨rfl, rfl, rfl, by rw [htask]; rfl, .inl ⟨rfl, hfree⟩⟩
      have htaken : ∃ task, Passes w (takeLock w t mutation) t task := by
        unfold takeLock
        split
        · exact hlock.withManifest mutation _
        · exact ⟨_, hlock.hold _ rfl⟩
      obtain ⟨task, hpasses⟩ := htaken
      exact hpass hpasses
    · cases h
  | reply t succeeds =>
    simp only [writerStep] at h
    split at h
    · rename_i fragment node htask
      have hpass {task : Task Cid Replies} (hpasses : Passes w w' t task) :
          RootStep w w' (.reply t succeeds) := by
        refine .pass task hpasses (fun _ _ haction ↦ ?_) fun _ haction ↦ (nomatch haction)
        cases haction
        rw [htask]
        rfl
      split_ifs at h
      · obtain rfl := Option.some.inj h
        exact hpass (passes_setTask w (by rw [htask]; rfl) rfl)
      · obtain rfl := Option.some.inj h
        exact hpass (passes_setTask w (by rw [htask]; rfl) rfl)
    · rename_i mutation oldCid phase htask
      exact rootStep_replyHeld htask h
    · cases h
  | closure t replies =>
    simp only [writerStep] at h
    split at h
    · rename_i mutation oldCid f manifest htask
      obtain rfl := Option.some.inj h
      have hlock : HasLock w w t := .self (by rw [htask]; rfl) (by rw [htask]; rfl)
      obtain ⟨task, hpasses⟩ :=
        hlock.closureReturned (.mutate (f replies)) oldCid (f replies manifest)
      exact .pass task hpasses (fun _ _ haction ↦ (nomatch haction))
        fun _ haction ↦ (nomatch haction)
    · cases h
  | stats t =>
    simp only [writerStep] at h
    split at h
    · rename_i mutation oldCid newCid htask
      obtain rfl := Option.some.inj h
      exact .stats (by rw [htask]; rfl) rfl rfl rfl rfl rfl
    · cases h

end MaRuntime.Manifest
