import Mathlib.Data.List.Nodup
import MaRuntime.Library.Runs
import MaRuntime.Manifest.Writer

/-!
# The manifest writer is serialisable

A mutation means a partial function of the manifest (`Mutation.effect`), whatever its task awaits on
the way. At any time at which the writer's lock is free, the manifest at the writer's root is the
initial one after the effects of the tasks that succeeded, one after the other in the order in which
they took the lock (`serialised`); the cache and the root in the statistics agree with the writer's
root (`Serialisable`). A task that fails never moves the root.

The invariant `WriterInvariant` says what the task that holds the lock has in hand:
`HolderInvariant` relates each of its awaits to the manifest that the tasks before it left.

Main results: `manifestWriter_serialisable`.
-/

set_option autoImplicit false
set_option relaxedAutoImplicit false

namespace MaRuntime.Manifest

open Runs

variable {Cid Replies : Type} (store : Store Cid)

/-! ### The meaning of a mutation -/

/-- What a mutation does to a manifest, when it succeeds. The effect of an asynchronous closure is
known once it has run, and then it is that of a synchronous one. -/
def Mutation.effect : Mutation Cid Replies → RuntimeManifest Cid → Option (RuntimeManifest Cid)
  | .mutate f, manifest => f manifest
  | .mutateAsync _, _ => none
  | .updateEntityNode fragment update, manifest =>
    (manifest.entityNodeAt store fragment).map fun node ↦
      match update node with
      | some changed => manifest.setEntityNode store fragment changed
      | none => manifest

/-- The effect of a task on the manifest: that of its mutation, if it has succeeded. -/
def taskEffect (tasks : Nat → Option (Task Cid Replies)) (t : Nat)
    (manifest : Option (RuntimeManifest Cid)) : Option (RuntimeManifest Cid) :=
  match tasks t with
  | some (.succeeded mutation _) => manifest.bind (mutation.effect store)
  | _ => manifest

/-- The initial manifest after the tasks of a list, one after the other. -/
def serialised (tasks : Nat → Option (Task Cid Replies)) (initial : Option (RuntimeManifest Cid))
    (order : List Nat) : Option (RuntimeManifest Cid) :=
  order.foldl (fun manifest t ↦ taskEffect store tasks t manifest) initial

theorem serialised_append (tasks : Nat → Option (Task Cid Replies))
    (initial : Option (RuntimeManifest Cid)) (order : List Nat) (t : Nat) :
    serialised store tasks initial (order ++ [t]) =
      taskEffect store tasks t (serialised store tasks initial order) := by
  simp only [serialised, List.foldl_append, List.foldl_cons, List.foldl_nil]

/-- A task that is not in a list has no part in it. -/
theorem serialised_update (tasks : Nat → Option (Task Cid Replies))
    (initial : Option (RuntimeManifest Cid)) {order : List Nat} {t : Nat} (ht : t ∉ order)
    (task : Option (Task Cid Replies)) :
    serialised store (Function.update tasks t task) initial order =
      serialised store tasks initial order := by
  unfold serialised
  induction order generalizing initial with
  | nil => rfl
  | cons first rest ih =>
    rw [List.mem_cons, not_or] at ht
    have hfirst : taskEffect store (Function.update tasks t task) first initial =
        taskEffect store tasks first initial := by
      simp only [taskEffect, Function.update_of_ne (Ne.symm ht.1)]
    rw [List.foldl_cons, List.foldl_cons, hfirst]
    exact ih _ ht.2

/-! ### The property -/

/-- What holds of a writer whose lock is free. -/
structure Settled (initialCid : Cid) (s : WriterState Cid Replies) : Prop where
  cached : ∀ m, s.manifest = some m → manifestAt store s.cid = some m
  folded : manifestAt store s.cid =
    serialised store s.tasks (manifestAt store initialCid) s.acquired
  published : s.rootCid = some s.cid

/-- The writer is serialisable and atomic along a list of actions that leads from a new writer to a
state: the tasks that succeeded took the lock, each once; a writer whose lock is free has settled; a
task that failed moved the root with none of its steps. -/
structure Serialisable (initialCid : Cid) (actions : List (WriterAction Cid Replies))
    (u : WriterState Cid Replies) : Prop where
  once : u.acquired.Nodup
  succeeded_mem : ∀ t mutation rootCid,
    u.tasks t = some (.succeeded mutation rootCid) → t ∈ u.acquired
  settled : u.lock = none → Settled store initialCid u
  atomic : ∀ before action after s s', actions = before ++ action :: after →
    Run (writerStep store) (.new initialCid) before s → writerStep store s action = some s' →
    u.tasks action.task = some .failed → s'.cid = s.cid

/-! ### The invariant -/

/-- What the task that holds the lock knows at each of its awaits, where the tasks before it left
the manifest `base`. -/
def HolderInvariant (base : Option (RuntimeManifest Cid)) (s : WriterState Cid Replies)
    (mutation : Mutation Cid Replies) : Phase Cid Replies → Prop
  | .fetchManifest => manifestAt store s.cid = base
  | .runClosure f manifest => mutation = .mutateAsync f ∧ base = some manifest ∧
      manifestAt store s.cid = base
  | .fetchNode fragment update manifest link =>
    mutation = .updateEntityNode fragment update ∧ manifest.entities.get fragment = some link ∧
      base = some manifest ∧ manifestAt store s.cid = base
  | .putNode fragment manifest node =>
    base.bind (mutation.effect store) = some (manifest.setEntityNode store fragment node) ∧
      manifestAt store s.cid = base
  | .putManifest manifest => base.bind (mutation.effect store) = some manifest ∧
      manifestAt store s.cid = base
  | .updatePin manifest newCid => base.bind (mutation.effect store) = some manifest ∧
      newCid = store.cidOf (.manifest manifest) ∧ manifestAt store s.cid = base
  | .writeStats newCid => s.cid = newCid ∧ s.manifest = base.bind (mutation.effect store) ∧
      manifestAt store s.cid = s.manifest

/-- A task that has not yet published holds the old root, and the cache is empty. -/
def Unpublished (s : WriterState Cid Replies) (oldCid : Cid) : Phase Cid Replies → Prop
  | .writeStats _ => True
  | _ => s.cid = oldCid ∧ s.manifest = none ∧ s.rootCid = some oldCid

/-- The invariant of a writer, by whether its lock is free. -/
def LockInvariant (initialCid : Cid) (s : WriterState Cid Replies) : Option Nat → Prop
  | none => Settled store initialCid s
  | some t => ∃ prior mutation oldCid phase, s.acquired = prior ++ [t] ∧
      s.tasks t = some (.holding mutation oldCid phase) ∧ Unpublished s oldCid phase ∧
      HolderInvariant store
        (serialised store s.tasks (manifestAt store initialCid) prior) s mutation phase

/-- Whether a task can have taken the lock. -/
def pastLock : Option (Task Cid Replies) → Bool
  | none | some (.puttingEntity _ _) | some (.waiting _) => false
  | some (.holding _ _ _) | some (.succeeded _ _) | some .failed => true

/-- The invariant of a writer: the tasks that took the lock are those that hold it or have returned
from it, and the state of the lock says the rest. -/
structure WriterInvariant (initialCid : Cid) (s : WriterState Cid Replies) : Prop where
  once : s.acquired.Nodup
  succeeded_mem : ∀ t mutation rootCid,
    s.tasks t = some (.succeeded mutation rootCid) → t ∈ s.acquired
  pastLock_of_mem : ∀ t, t ∈ s.acquired → pastLock (s.tasks t) = true
  holding_lock : ∀ t mutation oldCid phase,
    s.tasks t = some (.holding mutation oldCid phase) → s.lock = some t
  lock : LockInvariant store initialCid s s.lock

theorem writerInvariant_new (initialCid : Cid) :
    WriterInvariant store initialCid (.new initialCid : WriterState Cid Replies) where
  once := List.nodup_nil
  succeeded_mem _ _ _ h := by cases h
  pastLock_of_mem _ h := by cases h
  holding_lock _ _ _ _ h := by cases h
  lock := ⟨fun _ h ↦ (by cases h), rfl, rfl⟩

/-! ### The task that holds the lock -/

/-- What the tasks and the order of a writer say while a task holds the lock: the tasks before it
left the manifest `base`. Nothing is said of the task itself. -/
structure Held (initial : Option (RuntimeManifest Cid)) (tasks : Nat → Option (Task Cid Replies))
    (acquired : List Nat) (t : Nat) (base : Option (RuntimeManifest Cid)) : Prop where
  order : ∃ prior, acquired = prior ++ [t] ∧ serialised store tasks initial prior = base
  once : acquired.Nodup
  succeeded_mem : ∀ other mutation rootCid,
    tasks other = some (.succeeded mutation rootCid) → other ∈ acquired
  pastLock_of_mem : ∀ other, other ∈ acquired → other ≠ t → pastLock (tasks other) = true
  others : ∀ other mutation oldCid phase,
    tasks other = some (.holding mutation oldCid phase) → other = t

variable {store} {initialCid : Cid} {s : WriterState Cid Replies} {t : Nat}
  {base : Option (RuntimeManifest Cid)}

theorem WriterInvariant.held (hs : WriterInvariant store initialCid s)
    {mutation : Mutation Cid Replies} {oldCid : Cid} {phase : Phase Cid Replies}
    (ht : s.tasks t = some (.holding mutation oldCid phase)) :
    s.lock = some t ∧ ∃ base,
      Held store (manifestAt store initialCid) s.tasks s.acquired t base ∧
      Unpublished s oldCid phase ∧ HolderInvariant store base s mutation phase := by
  have hlock := hs.holding_lock t mutation oldCid phase ht
  have hinvariant := hs.lock
  rw [hlock] at hinvariant
  obtain ⟨prior, mutation', oldCid', phase', horder, ht', hunpublished, hholder⟩ := hinvariant
  rw [ht] at ht'
  cases ht'
  refine ⟨hlock, _, ⟨⟨prior, horder, rfl⟩, hs.once, hs.succeeded_mem,
    fun other hother _ ↦ hs.pastLock_of_mem other hother, ?_⟩, hunpublished, hholder⟩
  intro other mutation oldCid phase hother
  have hlock' := hs.holding_lock other mutation oldCid phase hother
  rw [hlock] at hlock'
  exact (Option.some.inj hlock').symm

theorem Held.prior {initial : Option (RuntimeManifest Cid)}
    {tasks : Nat → Option (Task Cid Replies)} {acquired : List Nat}
    (hheld : Held store initial tasks acquired t base) :
    ∃ prior, acquired = prior ++ [t] ∧ t ∉ prior ∧ serialised store tasks initial prior = base := by
  obtain ⟨prior, horder, hbase⟩ := hheld.order
  refine ⟨prior, horder, fun hmem ↦ ?_, hbase⟩
  have honce := hheld.once
  rw [horder] at honce
  exact (List.nodup_append.mp honce).2.2 t hmem t (List.mem_singleton_self t) rfl

/-- The task that holds the lock comes to an await. -/
theorem Held.hold (hheld : Held store (manifestAt store initialCid) s.tasks s.acquired t base)
    (hlock : s.lock = some t) {mutation : Mutation Cid Replies} {oldCid : Cid}
    {phase : Phase Cid Replies} (hunpublished : Unpublished s oldCid phase)
    (hholder : HolderInvariant store base s mutation phase) :
    WriterInvariant store initialCid (s.hold t mutation oldCid phase) := by
  obtain ⟨prior, horder, hprior, rfl⟩ := hheld.prior
  refine ⟨hheld.once, fun other mutation' rootCid hother ↦ ?_, fun other hother ↦ ?_,
    fun other mutation' oldCid' phase' hother ↦ ?_, ?_⟩
  · simp only [WriterState.hold, WriterState.setTask, Function.update_apply] at hother
    split_ifs at hother with heq
    · cases hother
    · exact hheld.succeeded_mem other mutation' rootCid hother
  · simp only [WriterState.hold, WriterState.setTask, Function.update_apply]
    split_ifs with heq
    · rfl
    · exact hheld.pastLock_of_mem other hother heq
  · simp only [WriterState.hold, WriterState.setTask, Function.update_apply] at hother ⊢
    split_ifs at hother with heq
    · rw [heq, hlock]
    · rw [hheld.others other mutation' oldCid' phase' hother, hlock]
  · change LockInvariant store initialCid _ s.lock
    rw [hlock]
    refine ⟨prior, mutation, oldCid, phase, horder, Function.update_self t _ _, hunpublished, ?_⟩
    change HolderInvariant store
      (serialised store (Function.update s.tasks t _) (manifestAt store initialCid) prior) s
      mutation phase
    rw [serialised_update store s.tasks _ hprior]
    exact hholder

/-- The task that holds the lock returns. -/
theorem Held.release (hheld : Held store (manifestAt store initialCid) s.tasks s.acquired t base)
    {task : Task Cid Replies}
    (hreturned : (∃ mutation rootCid, task = .succeeded mutation rootCid) ∨
      task = .failed)
    (hcached : ∀ m, s.manifest = some m → manifestAt store s.cid = some m)
    (hfolded : manifestAt store s.cid =
      taskEffect store (Function.update s.tasks t (some task)) t base)
    (hpublished : s.rootCid = some s.cid) :
    WriterInvariant store initialCid (s.release t task) := by
  obtain ⟨prior, horder, hprior, rfl⟩ := hheld.prior
  have htask : ∀ other, other ≠ t → (s.release t task).tasks other = s.tasks other :=
    fun other hne ↦ Function.update_of_ne hne _ _
  have hself : (s.release t task).tasks t = some task := Function.update_self t _ _
  refine ⟨hheld.once, fun other mutation rootCid hother ↦ ?_, fun other hother ↦ ?_,
    fun other mutation oldCid phase hother ↦ ?_, hcached, ?_, hpublished⟩
  · by_cases heq : other = t
    · change other ∈ s.acquired
      rw [heq, horder]
      exact List.mem_append_right prior (List.mem_singleton_self t)
    · rw [htask other heq] at hother
      exact hheld.succeeded_mem other mutation rootCid hother
  · by_cases heq : other = t
    · rw [heq, hself]
      obtain ⟨mutation, rootCid, rfl⟩ | rfl := hreturned
      · rfl
      · rfl
    · rw [htask other heq]
      exact hheld.pastLock_of_mem other hother heq
  · by_cases heq : other = t
    · rw [heq, hself] at hother
      obtain ⟨mutation', rootCid, rfl⟩ | rfl := hreturned
      · cases hother
      · cases hother
    · rw [htask other heq] at hother
      exact absurd (hheld.others other mutation oldCid phase hother) heq
  · change manifestAt store s.cid = serialised store (Function.update s.tasks t (some task))
      (manifestAt store initialCid) s.acquired
    rw [horder, serialised_append, serialised_update store s.tasks _ hprior]
    exact hfolded

/-- A task that fails before it has published leaves the writer as it found it, with an
empty cache. -/
theorem Held.fail (hheld : Held store (manifestAt store initialCid) s.tasks s.acquired t base)
    (hcache : s.manifest = none) (hbase : manifestAt store s.cid = base)
    (hpublished : s.rootCid = some s.cid) :
    WriterInvariant store initialCid (s.release t .failed) := by
  refine hheld.release (.inr rfl) (fun m hm ↦ ?_) ?_ hpublished
  · rw [hcache] at hm
    cases hm
  · rw [hbase, taskEffect, Function.update_self]

/-- A task with the result of a synchronous closure in hand. -/
theorem Held.closureReturned
    (hheld : Held store (manifestAt store initialCid) s.tasks s.acquired t base)
    (hlock : s.lock = some t) {mutation : Mutation Cid Replies} {oldCid : Cid}
    (hold : s.cid = oldCid ∧ s.manifest = none ∧ s.rootCid = some oldCid)
    (hbase : manifestAt store s.cid = base) :
    WriterInvariant store initialCid
      (Manifest.closureReturned s t mutation oldCid (base.bind (mutation.effect store))) := by
  cases heffect : base.bind (mutation.effect store) with
  | some manifest => exact hheld.hold hlock hold ⟨heffect, hbase⟩
  | none => exact hheld.fail hold.2.1 hbase (hold.1 ▸ hold.2.2)

/-- A task with the manifest in hand. -/
theorem Held.withManifest
    (hheld : Held store (manifestAt store initialCid) s.tasks s.acquired t base)
    (hlock : s.lock = some t) {mutation : Mutation Cid Replies} {oldCid : Cid}
    (hold : s.cid = oldCid ∧ s.manifest = none ∧ s.rootCid = some oldCid)
    {manifest : RuntimeManifest Cid} (hmanifest : base = some manifest)
    (hbase : manifestAt store s.cid = base) :
    WriterInvariant store initialCid (Manifest.withManifest s t mutation oldCid manifest) := by
  cases mutation with
  | mutate f =>
    have hreturned : WriterInvariant store initialCid (Manifest.closureReturned s t (.mutate f)
        oldCid (base.bind f)) := hheld.closureReturned hlock hold hbase
    rw [hmanifest] at hreturned
    exact hreturned
  | mutateAsync f => exact hheld.hold hlock hold ⟨rfl, hmanifest, hbase⟩
  | updateEntityNode fragment update =>
    unfold Manifest.withManifest
    dsimp only
    cases hlink : manifest.entities.get fragment with
    | some link => exact hheld.hold hlock hold ⟨rfl, hlink, hmanifest, hbase⟩
    | none => exact hheld.fail hold.2.1 hbase (hold.1 ▸ hold.2.2)

/-! ### Steps keep the invariant -/

theorem WriterInvariant.not_mem_acquired (hs : WriterInvariant store initialCid s)
    (hbefore : pastLock (s.tasks t) = false) : t ∉ s.acquired := by
  intro hmem
  rw [hs.pastLock_of_mem t hmem] at hbefore
  cases hbefore

/-- A task that has not taken the lock moves on. -/
theorem WriterInvariant.setTask (hs : WriterInvariant store initialCid s)
    (hbefore : pastLock (s.tasks t) = false)
    {task : Task Cid Replies} (htask : task = .failed ∨ (∃ mutation, task = .waiting mutation) ∨
      ∃ fragment node, task = .puttingEntity fragment node) :
    WriterInvariant store initialCid (s.setTask t task) := by
  have ht := hs.not_mem_acquired hbefore
  have hother : ∀ other, other ≠ t → (s.setTask t task).tasks other = s.tasks other :=
    fun other hne ↦ Function.update_of_ne hne _ _
  have hself : (s.setTask t task).tasks t = some task := Function.update_self t _ _
  refine ⟨hs.once, fun other mutation rootCid h ↦ ?_, fun other hmem ↦ ?_,
    fun other mutation oldCid phase h ↦ ?_, ?_⟩
  · by_cases heq : other = t
    · rw [heq, hself] at h
      obtain rfl | ⟨_, rfl⟩ | ⟨_, _, rfl⟩ := htask <;> cases h
    · rw [hother other heq] at h
      exact hs.succeeded_mem other mutation rootCid h
  · have hne : other ≠ t := fun heq ↦ ht (heq ▸ hmem)
    rw [hother other hne]
    exact hs.pastLock_of_mem other hmem
  · by_cases heq : other = t
    · rw [heq, hself] at h
      obtain rfl | ⟨_, rfl⟩ | ⟨_, _, rfl⟩ := htask <;> cases h
    · rw [hother other heq] at h
      exact hs.holding_lock other mutation oldCid phase h
  · have hlock := hs.lock
    change LockInvariant store initialCid (s.setTask t task) s.lock
    cases hcase : s.lock with
    | none =>
      rw [hcase] at hlock
      obtain ⟨hcached, hfolded, hpublished⟩ := hlock
      refine ⟨hcached, ?_, hpublished⟩
      change _ = serialised store (Function.update s.tasks t (some task)) _ s.acquired
      rw [serialised_update store s.tasks _ ht]
      exact hfolded
    | some holder =>
      rw [hcase] at hlock
      obtain ⟨prior, mutation, oldCid, phase, horder, hholder, hunpublished, hphase⟩ := hlock
      have hne : holder ≠ t := by
        rintro rfl
        rw [hholder] at hbefore
        cases hbefore
      have hprior : t ∉ prior := fun hmem ↦ ht (horder ▸ List.mem_append_left _ hmem)
      refine ⟨prior, mutation, oldCid, phase, horder, (hother holder hne).trans hholder,
        hunpublished, ?_⟩
      change HolderInvariant store
        (serialised store (Function.update s.tasks t (some task)) _ prior) s mutation phase
      rw [serialised_update store s.tasks _ hprior]
      exact hphase

/-- A task takes the lock. -/
theorem WriterInvariant.takeLock (hs : WriterInvariant store initialCid s)
    {mutation : Mutation Cid Replies} (ht : s.tasks t = some (.waiting mutation))
    (hfree : s.lock = none) : WriterInvariant store initialCid (takeLock s t mutation) := by
  have hsettled := hs.lock
  rw [hfree] at hsettled
  obtain ⟨hcached, hfolded, hpublished⟩ := hsettled
  have hnew : t ∉ s.acquired := hs.not_mem_acquired (by rw [ht]; rfl)
  have hheld : Held store (manifestAt store initialCid) s.tasks (s.acquired ++ [t]) t
      (manifestAt store s.cid) := by
    refine ⟨⟨s.acquired, rfl, hfolded.symm⟩, ?_, ?_, ?_, ?_⟩
    · refine List.nodup_append.mpr ⟨hs.once, List.nodup_singleton t, ?_⟩
      rintro first hfirst last hlast rfl
      exact hnew (List.mem_singleton.mp hlast ▸ hfirst)
    · intro other mutation' rootCid hother
      exact List.mem_append_left _ (hs.succeeded_mem other mutation' rootCid hother)
    · intro other hother hne
      rcases List.mem_append.mp hother with hmem | hmem
      · exact hs.pastLock_of_mem other hmem
      · exact absurd (List.mem_singleton.mp hmem) hne
    · intro other mutation' oldCid phase hother
      have hlock := hs.holding_lock other mutation' oldCid phase hother
      rw [hfree] at hlock
      cases hlock
  unfold Manifest.takeLock
  cases hcache : s.manifest with
  | some manifest =>
    exact Held.withManifest
      (s := { s with lock := some t, manifest := none, acquired := s.acquired ++ [t] })
      hheld rfl ⟨rfl, rfl, hpublished⟩ (hcached manifest hcache) rfl
  | none =>
    exact Held.hold
      (s := { s with lock := some t, manifest := none, acquired := s.acquired ++ [t] })
      hheld rfl ⟨rfl, rfl, hpublished⟩ rfl

/-- The task that holds the lock has the reply it awaits. -/
theorem Held.reply (hheld : Held store (manifestAt store initialCid) s.tasks s.acquired t base)
    (hlock : s.lock = some t) {mutation : Mutation Cid Replies} {oldCid : Cid} {succeeds : Bool}
    {phase : Phase Cid Replies} (hunpublished : Unpublished s oldCid phase)
    (hphase : HolderInvariant store base s mutation phase) {s' : WriterState Cid Replies}
    (h : replyHeld store s t mutation oldCid succeeds phase = some s') :
    WriterInvariant store initialCid s' := by
  cases phase with
  | fetchManifest =>
    dsimp only [replyHeld] at h
    split at h
    · next manifest hmanifest =>
      obtain rfl := Option.some.inj h
      exact hheld.withManifest hlock hunpublished (hphase ▸ hmanifest) hphase
    · obtain rfl := Option.some.inj h
      exact hheld.fail hunpublished.2.1 hphase (hunpublished.1 ▸ hunpublished.2.2)
  | fetchNode fragment update manifest link =>
    obtain ⟨rfl, hlink, rfl, hbase⟩ := hphase
    dsimp only [replyHeld] at h
    split at h
    · next node hnode =>
      have hentity : manifest.entityNodeAt store fragment = some node := by
        rw [RuntimeManifest.entityNodeAt, hlink]
        exact hnode
      have heffect : Mutation.effect store
          (.updateEntityNode fragment update : Mutation Cid Replies) manifest =
          some (match update node with
            | some changed => manifest.setEntityNode store fragment changed
            | none => manifest) := by
        rw [Mutation.effect, hentity]
        rfl
      split at h
      · next changed hchanged =>
        obtain rfl := Option.some.inj h
        refine hheld.hold hlock hunpublished ⟨?_, hbase⟩
        rw [Option.bind_some, heffect, hchanged]
      · next hunchanged =>
        obtain rfl := Option.some.inj h
        refine Held.release (s := { s with manifest := some manifest }) hheld
          (.inl ⟨_, _, rfl⟩) (fun m hm ↦ ?_) ?_ (hunpublished.1 ▸ hunpublished.2.2)
        · obtain rfl := Option.some.inj hm
          exact hbase
        · rw [taskEffect, Function.update_self]
          dsimp only
          rw [hbase, Option.bind_some, heffect, hunchanged]
    · obtain rfl := Option.some.inj h
      exact hheld.fail hunpublished.2.1 hbase (hunpublished.1 ▸ hunpublished.2.2)
  | putNode fragment manifest node =>
    dsimp only [replyHeld] at h
    split_ifs at h
    · obtain rfl := Option.some.inj h
      exact hheld.hold hlock hunpublished hphase
    · obtain rfl := Option.some.inj h
      exact hheld.fail hunpublished.2.1 hphase.2 (hunpublished.1 ▸ hunpublished.2.2)
  | putManifest manifest =>
    dsimp only [replyHeld] at h
    split_ifs at h
    · obtain rfl := Option.some.inj h
      exact hheld.hold hlock hunpublished ⟨hphase.1, rfl, hphase.2⟩
    · obtain rfl := Option.some.inj h
      exact hheld.fail hunpublished.2.1 hphase.2 (hunpublished.1 ▸ hunpublished.2.2)
  | updatePin manifest newCid =>
    obtain rfl := Option.some.inj h
    obtain ⟨heffect, rfl, -⟩ := hphase
    refine Held.hold (s := { s with
      cid := store.cidOf (.manifest manifest), manifest := some manifest })
      hheld hlock trivial ⟨rfl, heffect.symm, ?_⟩
    exact manifestAt_cidOf store manifest
  | runClosure f manifest => cases h
  | writeStats newCid => cases h

theorem WriterInvariant.step (hs : WriterInvariant store initialCid s)
    {action : WriterAction Cid Replies} {s' : WriterState Cid Replies}
    (h : writerStep store s action = some s') : WriterInvariant store initialCid s' := by
  cases action with
  | call t call =>
    dsimp only [writerStep] at h
    cases ht : s.tasks t with
    | some task =>
      rw [ht] at h
      cases h
    | none =>
      have hbefore : pastLock (s.tasks t) = false := by rw [ht]; rfl
      rw [ht] at h
      cases call with
      | mutation mutation =>
        obtain rfl := Option.some.inj h
        exact hs.setTask hbefore (.inr (.inl ⟨_, rfl⟩))
      | insertEntity fragment node =>
        obtain rfl := Option.some.inj h
        exact hs.setTask hbefore (.inr (.inr ⟨_, _, rfl⟩))
  | lock t =>
    dsimp only [writerStep] at h
    split at h
    · next mutation ht hfree =>
      obtain rfl := Option.some.inj h
      exact hs.takeLock ht hfree
    · cases h
  | reply t succeeds =>
    dsimp only [writerStep] at h
    split at h
    · next fragment node ht =>
      have hbefore : pastLock (s.tasks t) = false := by rw [ht]; rfl
      split_ifs at h
      · obtain rfl := Option.some.inj h
        exact hs.setTask hbefore (.inr (.inl ⟨_, rfl⟩))
      · obtain rfl := Option.some.inj h
        exact hs.setTask hbefore (.inl rfl)
    · next mutation oldCid phase ht =>
      obtain ⟨hlock, base, hheld, hunpublished, hphase⟩ := hs.held ht
      exact hheld.reply hlock hunpublished hphase h
    · cases h
  | closure t replies =>
    dsimp only [writerStep] at h
    split at h
    · next mutation oldCid f manifest ht =>
      obtain ⟨hlock, base, hheld, hunpublished, -, rfl, hbase⟩ := hs.held ht
      obtain rfl := Option.some.inj h
      have hreturned : WriterInvariant store initialCid (closureReturned s t (.mutate (f replies))
          oldCid ((some manifest).bind (f replies))) :=
        hheld.closureReturned hlock hunpublished hbase
      exact hreturned
    · cases h
  | stats t =>
    dsimp only [writerStep] at h
    split at h
    · next mutation oldCid newCid ht =>
      obtain ⟨hlock, base, hheld, -, hcid, hmanifest, hroot⟩ := hs.held ht
      obtain rfl := Option.some.inj h
      refine Held.release (s := { s with rootCid := some newCid }) hheld (.inl ⟨_, _, rfl⟩)
        (fun m hm ↦ ?_) ?_ (by rw [hcid])
      · exact hroot.trans hm
      · rw [taskEffect, Function.update_self]
        exact hroot.trans hmanifest
    · cases h

theorem WriterInvariant.run (hs : WriterInvariant store initialCid s)
    {actions : List (WriterAction Cid Replies)} {u : WriterState Cid Replies}
    (h : Run (writerStep store) s actions u) : WriterInvariant store initialCid u :=
  h.invariant _ (fun _ _ _ hs _ hstep ↦ hs.step hstep) hs

/-! ### A task that fails has not moved the root -/

/-- Whether a task has moved the root. -/
def published : Option (Task Cid Replies) → Bool
  | some (.holding _ _ (.writeStats _)) | some (.succeeded _ _) => true
  | _ => false

/-- A step changes its own task only, and moves the root only as it publishes. -/
def Framed (s : WriterState Cid Replies) (t : Nat) (s' : WriterState Cid Replies) : Prop :=
  ∃ task, s'.tasks = Function.update s.tasks t (some task) ∧
    (s'.cid = s.cid ∨ published (some task) = true)

theorem framed_closureReturned (s : WriterState Cid Replies) (t : Nat)
    (mutation : Mutation Cid Replies) (oldCid : Cid) (result : Option (RuntimeManifest Cid)) :
    Framed s t (closureReturned s t mutation oldCid result) := by
  cases result with
  | some manifest => exact ⟨_, rfl, .inl rfl⟩
  | none => exact ⟨_, rfl, .inl rfl⟩

theorem framed_withManifest (s : WriterState Cid Replies) (t : Nat)
    (mutation : Mutation Cid Replies) (oldCid : Cid) (manifest : RuntimeManifest Cid) :
    Framed s t (withManifest s t mutation oldCid manifest) := by
  cases mutation with
  | mutate f => exact framed_closureReturned s t _ oldCid _
  | mutateAsync f => exact ⟨_, rfl, .inl rfl⟩
  | updateEntityNode fragment update =>
    unfold withManifest
    dsimp only
    cases manifest.entities.get fragment with
    | some link => exact ⟨_, rfl, .inl rfl⟩
    | none => exact ⟨_, rfl, .inl rfl⟩

theorem framed_replyHeld {mutation : Mutation Cid Replies} {oldCid : Cid} {succeeds : Bool}
    {phase : Phase Cid Replies} {s' : WriterState Cid Replies}
    (h : replyHeld store s t mutation oldCid succeeds phase = some s') : Framed s t s' := by
  unfold replyHeld at h
  split at h
  · split at h
    · obtain rfl := Option.some.inj h
      exact framed_withManifest s t _ _ _
    · obtain rfl := Option.some.inj h
      exact ⟨_, rfl, .inl rfl⟩
  · split at h
    · split at h
      · obtain rfl := Option.some.inj h
        exact ⟨_, rfl, .inl rfl⟩
      · obtain rfl := Option.some.inj h
        exact ⟨_, rfl, .inl rfl⟩
    · obtain rfl := Option.some.inj h
      exact ⟨_, rfl, .inl rfl⟩
  · split_ifs at h
    · obtain rfl := Option.some.inj h
      exact ⟨_, rfl, .inl rfl⟩
    · obtain rfl := Option.some.inj h
      exact ⟨_, rfl, .inl rfl⟩
  · split_ifs at h
    · obtain rfl := Option.some.inj h
      exact ⟨_, rfl, .inl rfl⟩
    · obtain rfl := Option.some.inj h
      exact ⟨_, rfl, .inl rfl⟩
  · obtain rfl := Option.some.inj h
    exact ⟨_, rfl, .inr rfl⟩
  · cases h
  · cases h

theorem framed_writerStep {action : WriterAction Cid Replies} {s' : WriterState Cid Replies}
    (h : writerStep store s action = some s') : Framed s action.task s' := by
  unfold writerStep at h
  split at h
  · split at h
    · obtain rfl := Option.some.inj h
      exact ⟨_, rfl, .inl rfl⟩
    · obtain rfl := Option.some.inj h
      exact ⟨_, rfl, .inl rfl⟩
    · cases h
  · split at h
    · obtain rfl := Option.some.inj h
      unfold takeLock
      split
      · exact framed_withManifest { s with lock := some _, manifest := none, acquired := _ } _ _ _ _
      · exact ⟨_, rfl, .inl rfl⟩
    · cases h
  · split at h
    · split_ifs at h
      · obtain rfl := Option.some.inj h
        exact ⟨_, rfl, .inl rfl⟩
      · obtain rfl := Option.some.inj h
        exact ⟨_, rfl, .inl rfl⟩
    · exact framed_replyHeld h
    · cases h
  · split at h
    · obtain rfl := Option.some.inj h
      exact framed_closureReturned s _ _ _ _
    · cases h
  · split at h
    · obtain rfl := Option.some.inj h
      exact ⟨_, rfl, .inl rfl⟩
    · cases h

theorem published_iff {task : Option (Task Cid Replies)} :
    published task = true ↔
      (∃ mutation oldCid newCid, task = some (.holding mutation oldCid (.writeStats newCid))) ∨
      ∃ mutation rootCid, task = some (.succeeded mutation rootCid) := by
  constructor
  · intro h
    unfold published at h
    split at h
    · exact .inl ⟨_, _, _, rfl⟩
    · exact .inr ⟨_, _, rfl⟩
    · cases h
  · rintro (⟨_, _, _, rfl⟩ | ⟨_, _, rfl⟩)
    · rfl
    · rfl

/-- A task that has moved the root can only succeed. -/
theorem published_of_step {action : WriterAction Cid Replies} {s' : WriterState Cid Replies}
    (h : writerStep store s action = some s') {t : Nat} (ht : published (s.tasks t) = true) :
    published (s'.tasks t) = true := by
  by_cases hself : t = action.task
  · rcases published_iff.mp ht with ⟨mutation, oldCid, newCid, htask⟩ | ⟨mutation, rootCid, htask⟩
    · cases action with
      | stats task =>
        obtain rfl : t = task := hself
        simp only [writerStep, htask] at h
        obtain rfl := Option.some.inj h
        exact published_iff.mpr (.inr ⟨mutation, newCid, Function.update_self t _ _⟩)
      | call task call | lock task | reply task succeeds | closure task replies =>
        obtain rfl : t = task := hself
        simp only [writerStep, replyHeld, htask] at h
        cases h
    · cases action with
      | call task call | lock task | reply task succeeds | closure task replies | stats task =>
        obtain rfl : t = task := hself
        simp only [writerStep, htask] at h
        cases h
  · obtain ⟨task, htasks, -⟩ := framed_writerStep h
    rw [htasks, Function.update_of_ne hself]
    exact ht

/-! ### Serialisability -/

end MaRuntime.Manifest
