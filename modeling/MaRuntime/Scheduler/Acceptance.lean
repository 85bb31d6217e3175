import MaRuntime.Scheduler.Registrant

/-!
# Schedules in the order of acceptance

The actor `#scheduler` answers a registration with `:ok` and spawns a task for it. The task takes
its version when it begins to run, not when the message was accepted, and the tasks run in any
order. The machine `acceptanceStep` has the actor's messages and its shutdown signal, the parts of
the tasks between their awaits, and the one-shot jobs that complete. Every job is added to the cron
scheduler (`register` has no failure).

`Ordered` says that, once the registration of a key that was accepted last has begun, no other one
of that key has a true guard, and its own is true until it completes or the scheduler is shut down;
and that no guard of a registration that was accepted before a shutdown is true after it. It holds
along a run if and only if every task begins in order (`BeginsInOrder`, `ordered_iff`): after no
shutdown, not after the last registration of its key if that is another one, and with a version
that revives none. Where tasks begin so, the last accepted definitions are in effect when all have
finished (`lastAccepted_inEffect`). The code does not order the tasks (`first_accepted_inEffect`).

Main definitions: `Task`, `acceptanceStep`, `Ordered`, `BeginsInOrder`.
Main results: `ordered_iff`, `lastAccepted_inEffect`, `first_accepted_inEffect`.

Scope. The cron scheduler's table of jobs and the removal of replaced jobs are left out, so a job
that was replaced may complete as well.
-/

set_option autoImplicit false
set_option relaxedAutoImplicit false

namespace MaRuntime.Scheduler

open Dispatch Runs

/-! ### The machine -/

/-- How far `process_schedule_registration` has run. -/
inductive Phase (Uuid : Type*)
  | spawned
  | begun (version : UInt64)
  | registered (version : UInt64) (jobId : Uuid)
  | finished (version : UInt64) (jobId : Uuid)

namespace Phase

variable {Uuid : Type*}

/-- The version, from the beginning on. -/
def version : Phase Uuid → Option UInt64
  | .spawned => none
  | .begun version | .registered version _ | .finished version _ => some version

/-- Whether the job was added to the cron scheduler. -/
def hasJob : Phase Uuid → Bool
  | .spawned | .begun _ => false
  | .registered _ _ | .finished _ _ => true

def isFinished : Phase Uuid → Bool
  | .finished _ _ => true
  | _ => false

theorem version_ne_none {phase : Phase Uuid} (h : phase.isFinished = true) :
    phase.version ≠ none := by
  cases phase with
  | finished version jobId => exact Option.some_ne_none version
  | spawned | begun | registered => cases h

end Phase

/-- A registration that was accepted, its task, and whether its one-shot job has completed and
whether a shutdown came after its acceptance. -/
structure Task (Uuid : Type*) where
  request : ParsedRequest
  phase : Phase Uuid
  completed : Bool
  shutDown : Bool

namespace Task

variable {Uuid : Type*}

def key (task : Task Uuid) : String := task.request.scheduleKey

def version (task : Task Uuid) : Option UInt64 := task.phase.version

end Task

/-- The registry, and the tasks in the order in which their messages were accepted. -/
structure AcceptanceState (Uuid : Type*) where
  registry : ScheduleRegistry Uuid
  tasks : List (Task Uuid)

/-- The steps of the actor, of the tasks and of the jobs. A task is named by its place in the order
of acceptance. -/
inductive AcceptanceAction (Uuid : Type*)
  | receive (input : LocalMessage)
  | begin (index : Nat)
  | register (index : Nat) (jobId : Uuid)
  | finish (index : Nat)
  | complete (index : Nat)
  | shutdown

variable {Uuid : Type*}

namespace AcceptanceState

/-- The state an actor starts in. -/
def new : AcceptanceState Uuid := ⟨.new, []⟩

/-- A task begins: it takes its version. -/
def beginTask (s : AcceptanceState Uuid) (task : Task Uuid) :
    Option (ScheduleRegistry Uuid × Task Uuid) :=
  match task.phase with
  | .spawned =>
    let (registry, attempt) := s.registry.beginRegistration task.key
    some (registry, { task with phase := .begun attempt.version })
  | _ => none

/-- `register_schedule` answers a task with its job. -/
def registerTask (s : AcceptanceState Uuid) (jobId : Uuid) (task : Task Uuid) :
    Option (ScheduleRegistry Uuid × Task Uuid) :=
  match task.phase with
  | .begun version => some (s.registry, { task with phase := .registered version jobId })
  | _ => none

/-- A task commits its job. -/
def finishTask (s : AcceptanceState Uuid) (task : Task Uuid) :
    Option (ScheduleRegistry Uuid × Task Uuid) :=
  match task.phase with
  | .registered version jobId =>
    some ((s.registry.commitRegistration task.key version jobId).1,
      { task with phase := .finished version jobId })
  | _ => none

/-- The one-shot job of a task completes. -/
def completeTask (s : AcceptanceState Uuid) (task : Task Uuid) :
    Option (ScheduleRegistry Uuid × Task Uuid) :=
  match task.version with
  | some version =>
    if task.phase.hasJob ∧ task.request.request.form.oneShot ∧ task.completed = false then
      some (s.registry.rollbackRegistration task.key version, { task with completed := true })
    else none
  | none => none

/-- A step of one task. -/
def advance (s : AcceptanceState Uuid) (index : Nat)
    (step : Task Uuid → Option (ScheduleRegistry Uuid × Task Uuid)) :
    Option (AcceptanceState Uuid) :=
  match s.tasks[index]? with
  | none => none
  | some task => (step task).map fun (registry, task) ↦ ⟨registry, s.tasks.set index task⟩

/-- Whether the guard of a registration is true. -/
def guardHolds (s : AcceptanceState Uuid) (task : Task Uuid) : Bool :=
  match task.version with
  | none => false
  | some version => s.registry.activeGuard task.key version

/-- The registration at a place is the last one that was accepted for its key. -/
def IsLast (s : AcceptanceState Uuid) (index : Nat) (task : Task Uuid) : Prop :=
  s.tasks[index]? = some task ∧
    ∀ (other : Nat) (later : Task Uuid), s.tasks[other]? = some later → later.key = task.key →
      other ≤ index

/-- Every task has finished. -/
def Finished (s : AcceptanceState Uuid) : Prop := ∀ task ∈ s.tasks, task.phase.isFinished = true

end AcceptanceState

section Machine

variable (debug : DebugFormat) (codec : CborCodec)

def acceptanceStep (s : AcceptanceState Uuid) :
    AcceptanceAction Uuid → Option (AcceptanceState Uuid)
  | .receive input =>
    match (nativeActor debug codec input).registration with
    | some request => some { s with tasks := s.tasks ++ [⟨request, .spawned, false, false⟩] }
    | none => some s
  | .begin index => s.advance index s.beginTask
  | .register index jobId => s.advance index (s.registerTask jobId)
  | .finish index => s.advance index s.finishTask
  | .complete index => s.advance index s.completeTask
  | .shutdown =>
    some ⟨s.registry.deactivateAll, s.tasks.map fun task ↦ { task with shutDown := true }⟩

end Machine

/-! ### The property and the condition -/

/-- Definitions are in effect in the order of acceptance, and not after a shutdown. -/
structure Ordered (s : AcceptanceState Uuid) : Prop where
  lastOnly : ∀ index last, s.IsLast index last → last.version ≠ none →
    ∀ (other : Nat) (task : Task Uuid), s.tasks[other]? = some task → task.key = last.key →
      s.guardHolds task = true → other = index
  lastHolds : ∀ index last, s.IsLast index last → last.version ≠ none → last.completed = false →
    last.shutDown = false → s.guardHolds last = true
  shutDown : ∀ task ∈ s.tasks, task.shutDown = true → s.guardHolds task = false

/-- A task begins in order: no shutdown came since its message was accepted; the registration of
its key that was accepted last has not begun, if that is another one; and the version it takes is
that of no other registration of its key that a shutdown ended, and if it is the last one itself,
of no other one at all. -/
structure InOrder (s : AcceptanceState Uuid) (index : Nat) (task : Task Uuid) : Prop where
  notShutDown : task.shutDown = false
  lastWaits : ∀ other last, s.IsLast other last → last.key = task.key → other ≠ index →
    last.version = none
  revivesNone : ∀ (other : Nat) (old : Task Uuid), s.tasks[other]? = some old →
    old.key = task.key → other ≠ index → old.version = some (s.registry.nextVersion task.key) →
      old.shutDown = false ∧ ¬s.IsLast index task

/-- The tasks that begin do so in order. -/
def BeginsInOrder (s : AcceptanceState Uuid) : AcceptanceAction Uuid → Prop
  | .begin index => ∀ task, s.tasks[index]? = some task → InOrder s index task
  | _ => True

/-! ### Steps of one task -/

variable {s t : AcceptanceState Uuid} {index other : Nat} {task old new : Task Uuid}

theorem guardHolds_iff :
    s.guardHolds task = true ↔
      ∃ version, task.version = some version ∧ s.registry.versionAt task.key = some version := by
  unfold AcceptanceState.guardHolds
  cases task.version with
  | none => simp
  | some version => simp [ScheduleRegistry.activeGuard_iff]

/-- A step of one task: its place, and the task before and after. -/
structure Advances (s t : AcceptanceState Uuid) (index : Nat) (old new : Task Uuid) : Prop where
  found : s.tasks[index]? = some old
  tasks : t.tasks = s.tasks.set index new
  request : new.request = old.request
  shutDown : new.shutDown = old.shutDown

/-- The last registration of a key is a matter of the keys alone. -/
theorem isLast_iff :
    s.IsLast index task ↔ s.tasks[index]? = some task ∧
      ∀ other, (s.tasks.map Task.key)[other]? = some task.key → other ≤ index := by
  apply and_congr_right
  intro _
  apply forall_congr'
  intro other
  simp

namespace Advances

variable (h : Advances s t index old new)

include h

theorem key : new.key = old.key := congrArg ParsedRequest.scheduleKey h.request

theorem getElem?_self : t.tasks[index]? = some new := by
  rw [h.tasks]
  exact List.getElem?_set_self (List.getElem?_eq_some_iff.mp h.found).1

theorem getElem?_of_ne (hother : other ≠ index) : t.tasks[other]? = s.tasks[other]? := by
  rw [h.tasks]
  exact List.getElem?_set_ne (Ne.symm hother)

theorem map_key : t.tasks.map Task.key = s.tasks.map Task.key := by
  apply List.ext_getElem?
  intro other
  by_cases hother : other = index
  · rw [hother, List.getElem?_map, List.getElem?_map, h.getElem?_self, h.found]
    exact congrArg some h.key
  · rw [List.getElem?_map, List.getElem?_map, h.getElem?_of_ne hother]

theorem isLast_self : t.IsLast index new ↔ s.IsLast index old := by
  rw [isLast_iff, isLast_iff, h.map_key, h.key]
  simp [h.getElem?_self, h.found]

theorem isLast_of_ne (hother : other ≠ index) : t.IsLast other task ↔ s.IsLast other task := by
  rw [isLast_iff, isLast_iff, h.map_key, h.getElem?_of_ne hother]

end Advances

/-- What a task was before a step that takes no version and revives none. -/
structure Was (s t : AcceptanceState Uuid) (index : Nat) (before task : Task Uuid) : Prop where
  found : s.tasks[index]? = some before
  key : before.key = task.key
  version : before.version = task.version
  shutDown : before.shutDown = task.shutDown
  guardHolds : t.guardHolds task = true → s.guardHolds before = true
  isLast : t.IsLast index task → s.IsLast index before
  completed : before.completed = true → task.completed = true

theorem Advances.exists_was (h : Advances s t index old new) (hversion : new.version = old.version)
    (hcompleted : old.completed = true → new.completed = true)
    (hlost : ∀ key version, t.registry.versionAt key = some version →
      s.registry.versionAt key = some version) (htask : t.tasks[other]? = some task) :
    ∃ before, Was s t other before task := by
  have hguard (before : Task Uuid) (hkey : before.key = task.key)
      (hbefore : before.version = task.version) (hguard : t.guardHolds task = true) :
      s.guardHolds before = true := by
    obtain ⟨version, htaken, hat⟩ := guardHolds_iff.mp hguard
    exact guardHolds_iff.mpr ⟨version, hbefore.trans htaken, hkey ▸ hlost _ _ hat⟩
  by_cases hother : other = index
  · subst hother
    obtain rfl := Option.some.inj (h.getElem?_self.symm.trans htask)
    exact ⟨old, h.found, h.key.symm, hversion.symm, h.shutDown.symm,
      hguard old h.key.symm hversion.symm, h.isLast_self.mp, hcompleted⟩
  · rw [h.getElem?_of_ne hother] at htask
    exact ⟨task, htask, rfl, rfl, rfl, hguard task rfl rfl, (h.isLast_of_ne hother).mp, id⟩

/-- A step of one task keeps the order if it takes no version, and a version that is no longer at
its key is the task's own, which has completed. -/
theorem Ordered.advance (hs : Ordered s) (h : Advances s t index old new)
    (hversion : new.version = old.version)
    (hcompleted : old.completed = true → new.completed = true)
    (hlost : ∀ key version, t.registry.versionAt key = some version →
      s.registry.versionAt key = some version)
    (hkept : ∀ key version, s.registry.versionAt key = some version →
      t.registry.versionAt key = some version ∨
        key = old.key ∧ old.version = some version ∧ new.completed = true) : Ordered t := by
  have hwas {other : Nat} {task : Task Uuid} (htask : t.tasks[other]? = some task) :
      ∃ before, Was s t other before task := h.exists_was hversion hcompleted hlost htask
  constructor
  · intro place last hlast hbegun other task htask hkey hguard
    obtain ⟨lastBefore, hlastWas⟩ := hwas hlast.1
    obtain ⟨before, htaskWas⟩ := hwas htask
    refine hs.lastOnly place lastBefore (hlastWas.isLast hlast) (hlastWas.version ▸ hbegun) other
      before htaskWas.found ?_ (htaskWas.guardHolds hguard)
    rw [htaskWas.key, hkey, hlastWas.key]
  · intro place last hlast hbegun hnot halive
    obtain ⟨before, hwasLast⟩ := hwas hlast.1
    have hlastBefore : s.IsLast place before := hwasLast.isLast hlast
    have hbegunBefore : before.version ≠ none := hwasLast.version ▸ hbegun
    have hnotBefore : before.completed = false := by
      rw [← Bool.not_eq_true] at hnot ⊢
      exact fun hcomplete ↦ hnot (hwasLast.completed hcomplete)
    have hguard : s.guardHolds before = true :=
      hs.lastHolds place before hlastBefore hbegunBefore hnotBefore (hwasLast.shutDown ▸ halive)
    obtain ⟨version, htaken, hat⟩ := guardHolds_iff.mp hguard
    rcases hkept _ _ hat with hstill | ⟨hkey, hown, hdone⟩
    · rw [hwasLast.version] at htaken
      rw [hwasLast.key] at hstill
      exact guardHolds_iff.mpr ⟨version, htaken, hstill⟩
    · -- the version that was taken away is the last registration's, so it is the one that completed
      have hguardOld : s.guardHolds old = true := guardHolds_iff.mpr ⟨version, hown, hkey ▸ hat⟩
      have hsame : index = place :=
        hs.lastOnly place before hlastBefore hbegunBefore index old h.found hkey.symm hguardOld
      subst hsame
      obtain rfl := Option.some.inj (h.getElem?_self.symm.trans hlast.1)
      rw [hdone] at hnot
      cases hnot
  · intro task hmem hshut
    obtain ⟨other, htask⟩ := List.mem_iff_getElem?.mp hmem
    obtain ⟨before, htaskWas⟩ := hwas htask
    have hfalse := hs.shutDown before (List.mem_of_getElem? htaskWas.found)
      (htaskWas.shutDown ▸ hshut)
    rw [← Bool.not_eq_true] at hfalse ⊢
    exact fun hguard ↦ hfalse (htaskWas.guardHolds hguard)

theorem Ordered.not_shutDown (hs : Ordered s) (htask : s.tasks[other]? = some task)
    (hguard : s.guardHolds task = true) : task.shutDown = false := by
  rw [← Bool.not_eq_true]
  intro hshut
  have hfalse := hs.shutDown task (List.mem_of_getElem? htask) hshut
  rw [hguard] at hfalse
  cases hfalse

/-! ### A task begins -/

/-- A task takes the next version of its key. -/
structure Begins (s t : AcceptanceState Uuid) (index : Nat) (old new : Task Uuid) : Prop
    extends Advances s t index old new where
  waiting : old.version = none
  version : new.version = some (s.registry.nextVersion old.key)
  versionAt : ∀ key, t.registry.versionAt key =
    if key = old.key then some (s.registry.nextVersion old.key) else s.registry.versionAt key

namespace Begins

variable (h : Begins s t index old new)

include h

theorem guardHolds_self : t.guardHolds new = true := by
  refine guardHolds_iff.mpr ⟨_, h.version, ?_⟩
  rw [h.versionAt, if_pos h.key]

theorem guardHolds_of_key (hkey : task.key = old.key) :
    t.guardHolds task = true ↔ task.version = some (s.registry.nextVersion old.key) := by
  rw [guardHolds_iff, hkey, h.versionAt, if_pos rfl]
  constructor
  · rintro ⟨version, htask, hversion⟩
    rw [htask, hversion]
  · exact fun htask ↦ ⟨_, htask, rfl⟩

theorem guardHolds_of_other_key (hkey : task.key ≠ old.key) :
    t.guardHolds task = true ↔ s.guardHolds task = true := by
  rw [guardHolds_iff, guardHolds_iff, h.versionAt, if_neg hkey]

/-- A task after which the order is kept begins in order. -/
theorem inOrder (ht : Ordered t) : InOrder s index old where
  notShutDown := by
    rw [← h.shutDown]
    exact ht.not_shutDown h.getElem?_self h.guardHolds_self
  lastWaits := by
    intro other last hlast hkey hother
    by_contra hbegun
    refine hother (ht.lastOnly other last ((h.isLast_of_ne hother).mpr hlast) hbegun index new
      h.getElem?_self ?_ h.guardHolds_self).symm
    rw [h.key, hkey]
  revivesNone := by
    intro other revived hrevived hkey hother hversion
    have hfound : t.tasks[other]? = some revived := (h.getElem?_of_ne hother).trans hrevived
    have hguard : t.guardHolds revived = true := (h.guardHolds_of_key hkey).mpr hversion
    refine ⟨ht.not_shutDown hfound hguard, fun hlast ↦ hother ?_⟩
    refine ht.lastOnly index new (h.isLast_self.mpr hlast) ?_ other revived hfound ?_ hguard
    · rw [h.version]
      exact Option.some_ne_none _
    · rw [h.key, hkey]

/-- A task that begins in order keeps the order. -/
theorem ordered (hs : Ordered s) (hinOrder : InOrder s index old) : Ordered t where
  lastOnly := by
    intro place last hlast hbegun other task htask hkey hguard
    by_cases hplace : place = index
    · subst hplace
      obtain rfl := Option.some.inj (h.getElem?_self.symm.trans hlast.1)
      by_contra hother
      rw [h.getElem?_of_ne hother] at htask
      have htaken := (h.guardHolds_of_key (hkey.trans h.key)).mp hguard
      exact (hinOrder.revivesNone other task htask (hkey.trans h.key) hother htaken).2
        (h.isLast_self.mp hlast)
    · have hlastBefore : s.IsLast place last := (h.isLast_of_ne hplace).mp hlast
      have hkeyLast : last.key ≠ old.key := by
        intro hsame
        exact hbegun (hinOrder.lastWaits place last hlastBefore hsame hplace)
      have hkeyTask : task.key ≠ old.key := hkey ▸ hkeyLast
      have hother : other ≠ index := by
        rintro rfl
        obtain rfl := Option.some.inj (h.getElem?_self.symm.trans htask)
        exact hkeyTask h.key
      rw [h.getElem?_of_ne hother] at htask
      exact hs.lastOnly place last hlastBefore hbegun other task htask hkey
        ((h.guardHolds_of_other_key hkeyTask).mp hguard)
  lastHolds := by
    intro place last hlast hbegun hnot halive
    by_cases hplace : place = index
    · subst hplace
      obtain rfl := Option.some.inj (h.getElem?_self.symm.trans hlast.1)
      exact h.guardHolds_self
    · have hlastBefore : s.IsLast place last := (h.isLast_of_ne hplace).mp hlast
      have hkeyLast : last.key ≠ old.key := by
        intro hsame
        exact hbegun (hinOrder.lastWaits place last hlastBefore hsame hplace)
      exact (h.guardHolds_of_other_key hkeyLast).mpr
        (hs.lastHolds place last hlastBefore hbegun hnot halive)
  shutDown := by
    intro task hmem hshut
    obtain ⟨other, htask⟩ := List.mem_iff_getElem?.mp hmem
    rw [← Bool.not_eq_true]
    intro hguard
    by_cases hother : other = index
    · subst hother
      obtain rfl := Option.some.inj (h.getElem?_self.symm.trans htask)
      rw [h.shutDown, hinOrder.notShutDown] at hshut
      cases hshut
    · rw [h.getElem?_of_ne hother] at htask
      by_cases hkey : task.key = old.key
      · have halive := (hinOrder.revivesNone other task htask hkey hother
          ((h.guardHolds_of_key hkey).mp hguard)).1
        rw [halive] at hshut
        cases hshut
      · have halive := hs.not_shutDown htask ((h.guardHolds_of_other_key hkey).mp hguard)
        rw [halive] at hshut
        cases hshut

end Begins

/-! ### Every step -/

theorem exists_of_advance
    {step : Task Uuid → Option (ScheduleRegistry Uuid × Task Uuid)}
    (h : s.advance index step = some t) :
    ∃ old registry new, s.tasks[index]? = some old ∧ step old = some (registry, new) ∧
      t = ⟨registry, s.tasks.set index new⟩ := by
  unfold AcceptanceState.advance at h
  split at h
  · cases h
  · rename_i old hold
    obtain ⟨⟨registry, new⟩, hstep, rfl⟩ := Option.map_eq_some_iff.mp h
    exact ⟨old, registry, new, hold, hstep, rfl⟩

theorem begins_of_advance (h : s.advance index s.beginTask = some t) :
    ∃ old new, Begins s t index old new := by
  obtain ⟨old, registry, new, hold, hstep, rfl⟩ := exists_of_advance h
  unfold AcceptanceState.beginTask at hstep
  split at hstep
  · rename_i hphase
    obtain ⟨rfl, rfl⟩ := Prod.mk.inj (Option.some.inj hstep)
    refine ⟨old, _, ⟨hold, rfl, rfl, rfl⟩, ?_, rfl, ?_⟩
    · rw [Task.version, hphase]
      rfl
    · exact s.registry.versionAt_beginRegistration old.key
  · cases hstep

theorem Ordered.register {jobId : Uuid} (hs : Ordered s)
    (h : s.advance index (s.registerTask jobId) = some t) : Ordered t := by
  obtain ⟨old, registry, new, hold, hstep, rfl⟩ := exists_of_advance h
  unfold AcceptanceState.registerTask at hstep
  split at hstep
  · rename_i version hphase
    obtain ⟨rfl, rfl⟩ := Prod.mk.inj (Option.some.inj hstep)
    refine hs.advance ⟨hold, rfl, rfl, rfl⟩ ?_ id (fun _ _ hat ↦ hat) fun _ _ hat ↦ .inl hat
    rw [Task.version, Task.version, hphase]
    rfl
  · cases hstep

theorem Ordered.finish (hs : Ordered s) (h : s.advance index s.finishTask = some t) :
    Ordered t := by
  obtain ⟨old, registry, new, hold, hstep, rfl⟩ := exists_of_advance h
  unfold AcceptanceState.finishTask at hstep
  split at hstep
  · rename_i version jobId hphase
    obtain ⟨rfl, rfl⟩ := Prod.mk.inj (Option.some.inj hstep)
    have hversions (key : String) :=
      s.registry.versionAt_commitRegistration old.key key version jobId
    refine hs.advance ⟨hold, rfl, rfl, rfl⟩ ?_ id ?_ ?_
    · rw [Task.version, Task.version, hphase]
      rfl
    · intro key taken hat
      exact hversions key ▸ hat
    · intro key taken hat
      exact .inl ((hversions key).trans hat)
  · cases hstep

theorem Ordered.complete (hs : Ordered s) (h : s.advance index s.completeTask = some t) :
    Ordered t := by
  obtain ⟨old, registry, new, hold, hstep, rfl⟩ := exists_of_advance h
  unfold AcceptanceState.completeTask at hstep
  split at hstep
  · rename_i version hversion
    split_ifs at hstep
    obtain ⟨rfl, rfl⟩ := Prod.mk.inj (Option.some.inj hstep)
    have hversions (key : String) := s.registry.versionAt_rollbackRegistration old.key key version
    refine hs.advance ⟨hold, rfl, rfl, rfl⟩ rfl (fun _ ↦ rfl) ?_ ?_
    · intro key taken hat
      rw [hversions] at hat
      split_ifs at hat
      exact hat
    · intro key taken hat
      rw [hversions]
      split_ifs with hremoved
      · obtain ⟨rfl, hown⟩ := hremoved
        right
        exact ⟨rfl, hversion.trans (hown.symm.trans hat), rfl⟩
      · exact .inl hat
  · cases hstep

/-- A registration that is accepted has no version yet. -/
theorem Ordered.receive {request : ParsedRequest} (hs : Ordered s) :
    Ordered { s with tasks := s.tasks ++ [⟨request, .spawned, false, false⟩] } := by
  have hfound {place : Nat} {task : Task Uuid}
      (htask : (s.tasks ++ [⟨request, .spawned, false, false⟩])[place]? = some task) :
      s.tasks[place]? = some task ∨ task = ⟨request, .spawned, false, false⟩ := by
    rcases List.getElem?_append.symm.trans htask with htask
    split_ifs at htask with hlt
    · exact .inl htask
    · exact .inr (List.mem_singleton.mp (List.mem_of_getElem? htask))
  have hlast {place : Nat} {last : Task Uuid} (hbegun : last.version ≠ none)
      (h : AcceptanceState.IsLast { s with tasks := s.tasks ++ [⟨request, .spawned, false, false⟩] }
        place last) : s.IsLast place last := by
    refine ⟨(hfound h.1).resolve_right fun hnew ↦ hbegun (hnew ▸ rfl), fun other later hlater ↦ ?_⟩
    obtain ⟨hlt, -⟩ := List.getElem?_eq_some_iff.mp hlater
    exact h.2 other later ((List.getElem?_append_left hlt).trans hlater)
  constructor
  · intro place last h hbegun other task htask hkey hguard
    rcases hfound htask with hold | rfl
    · exact hs.lastOnly place last (hlast hbegun h) hbegun other task hold hkey hguard
    · cases hguard
  · intro place last h hbegun hnot halive
    exact hs.lastHolds place last (hlast hbegun h) hbegun hnot halive
  · intro task hmem hshut
    rcases List.mem_append.mp hmem with hold | hnew
    · exact hs.shutDown task hold hshut
    · rw [List.mem_singleton.mp hnew]
      rfl

/-- After a shutdown no guard is true. -/
theorem Ordered.deactivateAll (tasks : List (Task Uuid)) :
    Ordered ⟨s.registry.deactivateAll, tasks.map fun task ↦ { task with shutDown := true }⟩ := by
  have hfalse (task : Task Uuid) (tasks : List (Task Uuid)) :
      AcceptanceState.guardHolds ⟨s.registry.deactivateAll, tasks⟩ task = false := by
    rw [← Bool.not_eq_true, guardHolds_iff]
    rintro ⟨version, -, hat⟩
    cases hat
  constructor
  · intro place last _ _ other task _ _ hguard
    rw [hfalse] at hguard
    cases hguard
  · intro place last hlast _ _ halive
    obtain ⟨before, -, rfl⟩ := List.mem_map.mp (List.mem_of_getElem? hlast.1)
    cases halive
  · intro task _ _
    exact hfalse task _

section Runs

variable {debug : DebugFormat} {codec : CborCodec} {action : AcceptanceAction Uuid}

/-- A step keeps the order exactly where the task that begins, if any, begins in order. -/
theorem ordered_step_iff (hs : Ordered s) (h : acceptanceStep debug codec s action = some t) :
    Ordered t ↔ BeginsInOrder s action := by
  cases action with
  | receive input =>
    refine iff_of_true ?_ trivial
    simp only [acceptanceStep] at h
    split at h
    · obtain rfl := Option.some.inj h
      exact hs.receive
    · obtain rfl := Option.some.inj h
      exact hs
  | begin index =>
    obtain ⟨old, new, hbegins⟩ := begins_of_advance h
    constructor
    · intro ht task htask
      obtain rfl := Option.some.inj (hbegins.found.symm.trans htask)
      exact hbegins.inOrder ht
    · exact fun hinOrder ↦ hbegins.ordered hs (hinOrder old hbegins.found)
  | register index jobId => exact iff_of_true (hs.register h) trivial
  | finish index => exact iff_of_true (hs.finish h) trivial
  | complete index => exact iff_of_true (hs.complete h) trivial
  | shutdown =>
    obtain rfl := Option.some.inj h
    exact iff_of_true (Ordered.deactivateAll s.tasks) trivial

theorem ordered_new : Ordered (.new : AcceptanceState Uuid) where
  lastOnly _ _ hlast := nomatch hlast.1
  lastHolds _ _ hlast := nomatch hlast.1
  shutDown _ hmem := nomatch hmem

/-- The order is kept in every state of a run if and only if its tasks begin in order. -/
theorem ordered_iff {actions : List (AcceptanceAction Uuid)} {u : AcceptanceState Uuid}
    (h : Run (acceptanceStep debug codec) .new actions u) :
    (∀ before after s, actions = before ++ after →
        Run (acceptanceStep debug codec) .new before s → Ordered s) ↔
      GuardedRun (acceptanceStep debug codec) BeginsInOrder .new actions u :=
  guardedRun_iff_forall_prefix Ordered h ordered_new
    (fun _ _ _ hs hinOrder hstep ↦ (ordered_step_iff hs hstep).mpr hinOrder)
    (fun _ _ _ hs hstep ht ↦ (ordered_step_iff hs hstep).mp ht)

/-- Assumes: a run whose tasks begin in order. When all tasks have finished, the guard of a
registration is true only if it is the last one that was accepted for its key, and that one's guard
is true, unless its one-shot job has completed or the scheduler was shut down. The guard of a
registration that was accepted before a shutdown is not true. -/
theorem lastAccepted_inEffect {actions : List (AcceptanceAction Uuid)} {u : AcceptanceState Uuid}
    (h : GuardedRun (acceptanceStep debug codec) BeginsInOrder .new actions u) :
    (u.Finished → ∀ index last, u.IsLast index last →
      (∀ (other : Nat) (task : Task Uuid), u.tasks[other]? = some task → task.key = last.key →
        u.guardHolds task = true → other = index) ∧
      (last.completed = false → last.shutDown = false → u.guardHolds last = true)) ∧
    ∀ task ∈ u.tasks, task.shutDown = true → u.guardHolds task = false := by
  have hordered : Ordered u := h.invariant Ordered
    (fun _ _ _ hs hinOrder hstep ↦ (ordered_step_iff hs hstep).mpr hinOrder) ordered_new
  refine ⟨fun hfinished index last hlast ↦ ?_, hordered.shutDown⟩
  have hbegun : last.version ≠ none :=
    Phase.version_ne_none (hfinished last (List.mem_of_getElem? hlast.1))
  exact ⟨hordered.lastOnly index last hlast hbegun, hordered.lastHolds index last hlast hbegun⟩

end Runs

/-! ### Two registrations of one key -/

/-- The CBOR array `["tick", ":interval", "1h", ":tick"]`. -/
def hourlyRequest : Bytes :=
  [0x84, 0x64, 0x74, 0x69, 0x63, 0x6b, 0x69, 0x3a, 0x69, 0x6e, 0x74, 0x65, 0x72, 0x76, 0x61, 0x6c,
    0x62, 0x31, 0x68, 0x65, 0x3a, 0x74, 0x69, 0x63, 0x6b]

/-- The codec of `tickRequest`, with the hourly one. -/
def renewalCodec : CborCodec where
  decode content :=
    if content = hourlyRequest then
      some (.array [.text "tick", .text ":interval", .text "1h", .text ":tick"])
    else tickCodec.decode content
  encode
    | .array [.text "tick", .text ":interval", .text "1h", .text ":tick"] => some hourlyRequest
    | value => tickCodec.encode value

/-- A message of a room that asks for a schedule. -/
def roomMessage (content : Bytes) : LocalMessage :=
  ⟨"m1", "did:ma:us#room", "did:ma:us#scheduler", 0, 0, none, "message", "term", content⟩

/-- What the room asks for. -/
def tickSchedule (secs : UInt64) : ParsedRequest :=
  ⟨"did:ma:us#room-tick", "room", .interval secs [0x65, 0x3a, 0x74, 0x69, 0x63, 0x6b]⟩

/-- The machine of these runs. -/
def renewalStep : AcceptanceState Nat → AcceptanceAction Nat → Option (AcceptanceState Nat) :=
  acceptanceStep ⟨fun _ ↦ "", id, fun _ ↦ ""⟩ renewalCodec

/-- A room registers a schedule and, when the task has finished, the same schedule at another
interval. -/
def renewal : List (AcceptanceAction Nat) :=
  [.receive (roomMessage tickRequest), .begin 0, .register 0 7, .finish 0,
    .receive (roomMessage hourlyRequest), .begin 1, .register 1 8, .finish 1]

/-- The second task begins when the first has finished, and its definition is in effect. -/
theorem lastAccepted_inEffect_renewal :
    ∃ u first last, GuardedRun renewalStep BeginsInOrder .new renewal u ∧
      u.tasks = [first, last] ∧ first.key = last.key ∧ u.guardHolds last = true := by
  have hrenewed : ∃ u first last, GuardedRun renewalStep BeginsInOrder .new renewal u ∧
      u.tasks = [first, last] ∧ first.phase.isFinished = true ∧ last.phase.isFinished = true ∧
      first.key = last.key ∧ last.completed = false ∧ last.shutDown = false := by
    have hfirst : renewalStep .new (.receive (roomMessage tickRequest)) =
        some ⟨.new, [⟨tickSchedule 1800, .spawned, false, false⟩]⟩ := rfl
    have hsecond (registry : ScheduleRegistry Nat) (tasks : List (Task Nat)) :
        renewalStep ⟨registry, tasks⟩ (.receive (roomMessage hourlyRequest)) =
          some ⟨registry, tasks ++ [⟨tickSchedule 3600, .spawned, false, false⟩]⟩ := rfl
    refine ⟨_, _, _, .cons trivial hfirst (.cons ?_ rfl (.cons trivial rfl (.cons trivial rfl
      (.cons trivial (hsecond _ _) (.cons ?_ rfl (.cons trivial rfl (.cons trivial rfl
      (.nil _)))))))), rfl, rfl, rfl, rfl, rfl, rfl⟩
    · intro task htask
      obtain rfl := Option.some.inj htask
      refine ⟨rfl, fun other last hlast _ hother ↦ ?_, fun other old hold _ hother ↦ ?_⟩
      · cases other with
        | zero => exact absurd rfl hother
        | succ _ => cases hlast.1
      · cases other with
        | zero => exact absurd rfl hother
        | succ _ => cases hold
    · intro task htask
      obtain rfl := Option.some.inj htask
      refine ⟨rfl, fun other last hlast hkey hother ↦ ?_, fun other old hold _ hother htaken ↦ ?_⟩
      · match other with
        | 0 => exact absurd (hlast.2 1 _ rfl hkey.symm) (by decide)
        | 1 => exact absurd rfl hother
        | _ + 2 => cases hlast.1
      · match other with
        | 0 =>
          obtain rfl := Option.some.inj hold
          exact absurd htaken (by decide)
        | 1 => exact absurd rfl hother
        | _ + 2 => cases hold
  obtain ⟨u, first, last, hrun, htasks, hfirst, hsecond, hkey, hnot, halive⟩ := hrenewed
  have hfinished : u.Finished := by
    intro task hmem
    rw [htasks] at hmem
    rcases List.mem_pair.mp hmem with rfl | rfl
    · exact hfirst
    · exact hsecond
  have hlast : u.IsLast 1 last := by
    refine ⟨by rw [htasks]; rfl, fun other later hlater _ ↦ ?_⟩
    obtain ⟨hlt, -⟩ := List.getElem?_eq_some_iff.mp hlater
    rw [htasks] at hlt
    exact Nat.le_of_lt_succ hlt
  exact ⟨u, first, last, hrun, htasks, hkey,
    ((lastAccepted_inEffect hrun).1 hfinished 1 last hlast).2 hnot halive⟩

/-- Both messages are accepted before a task begins, and the second task begins first: the
definition that was accepted first stays in effect. -/
theorem first_accepted_inEffect :
    ∃ u first last, Run renewalStep .new
        [.receive (roomMessage tickRequest), .receive (roomMessage hourlyRequest), .begin 1,
          .begin 0, .register 1 8, .finish 1, .register 0 7, .finish 0] u ∧
      u.tasks = [first, last] ∧ u.Finished ∧ first.key = last.key ∧
      u.guardHolds first = true ∧ u.guardHolds last = false := by
  refine ⟨_, _, _, run_of_execute rfl, rfl, ?_, rfl, rfl, rfl⟩
  intro task hmem
  rcases List.mem_pair.mp hmem with rfl | rfl
  · rfl
  · rfl

/-- A task begins after a shutdown that came after its message was accepted. -/
theorem begun_after_shutdown :
    ∃ u task, Run renewalStep .new
        [.receive (roomMessage tickRequest), .shutdown, .begin 0, .register 0 7, .finish 0] u ∧
      u.tasks = [task] ∧ task.shutDown = true ∧ u.guardHolds task = true :=
  ⟨_, _, run_of_execute rfl, rfl, rfl, rfl⟩

end MaRuntime.Scheduler
