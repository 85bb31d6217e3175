import MaRuntime.Library.KeyedMap

/-!
# The schedule registry

`ScheduleRegistry` of `scheduler_actor.rs`: a map from schedule keys to tracked jobs, each with the
version of the registration attempt that made it. A registration begins by taking the version after
the one in the map (`beginRegistration`), ends by putting its job there (`commitRegistration`) or by
taking its entry away (`rollbackRegistration`), and its jobs ask `activeGuard` before they dispatch.
Shutdown empties the map (`deactivateAll`). Each operation holds the registry's lock throughout, so
it is one function of the registry.

Versions are `u64` and begin at one for a key that has no entry (`nextVersion_of_absent`);
`saturatingAdd` stays at the greatest version, and is above its argument elsewhere
(`lt_saturatingAdd_one`).

Scope. Job identifiers are a type parameter. The cron scheduler's own table of jobs is not modelled.
-/

set_option autoImplicit false
set_option relaxedAutoImplicit false

namespace MaRuntime.Scheduler

/-- The greatest `u64`. -/
def u64Max : UInt64 := 18446744073709551615

/-- `u64::saturating_add`. -/
def saturatingAdd (a b : UInt64) : UInt64 :=
  if a.toNat + b.toNat < UInt64.size then a + b else u64Max

theorem lt_saturatingAdd_one {version : UInt64} (h : version ≠ u64Max) :
    version < saturatingAdd version 1 := by
  have hbound : version.toNat + 1 < UInt64.size := by
    have hlt := version.toNat_lt
    have hne : version.toNat ≠ u64Max.toNat := fun heq ↦ h (UInt64.toNat_inj.mp heq)
    have hmax : u64Max.toNat = 18446744073709551615 := by decide
    have hsize : UInt64.size = 18446744073709551616 := rfl
    omega
  have hone : (1 : UInt64).toNat = 1 := rfl
  rw [saturatingAdd, hone, if_pos hbound, UInt64.lt_iff_toNat_lt, UInt64.toNat_add, hone,
    Nat.mod_eq_of_lt hbound]
  omega

@[simp] theorem saturatingAdd_u64Max : saturatingAdd u64Max 1 = u64Max := by decide

variable {Uuid : Type*}

/-- The entry of a schedule key: the version of the registration that made it, and the job that this
registration added to the cron scheduler, once it is committed. -/
structure TrackedJob (Uuid : Type*) where
  version : UInt64
  jobId : Option Uuid
deriving DecidableEq

/-- The schedules that are current, by their key. -/
structure ScheduleRegistry (Uuid : Type*) where
  jobs : KeyedMap String (TrackedJob Uuid)

/-- What a registration knows of itself: its version, and the job it replaces. -/
structure RegistrationAttempt (Uuid : Type*) where
  version : UInt64
  previousJob : Option Uuid
deriving DecidableEq

/-- The answer of a commit. -/
inductive RegistrationCommit
  | active
  | superseded
deriving DecidableEq

namespace ScheduleRegistry

/-- The registry a scheduler starts with. -/
def new : ScheduleRegistry Uuid := ⟨.empty⟩

/-- The version a registration of a key takes. -/
def nextVersion (registry : ScheduleRegistry Uuid) (scheduleKey : String) : UInt64 :=
  match registry.jobs.get scheduleKey with
  | none => 1
  | some entry => saturatingAdd entry.version 1

/-- Start a registration: the key's entry is replaced by one of the next version without a job. -/
def beginRegistration (registry : ScheduleRegistry Uuid) (scheduleKey : String) :
    ScheduleRegistry Uuid × RegistrationAttempt Uuid :=
  let previous := registry.jobs.get scheduleKey
  let version := registry.nextVersion scheduleKey
  (⟨registry.jobs.insert scheduleKey ⟨version, none⟩⟩,
    ⟨version, previous.bind fun entry ↦ entry.jobId⟩)

/-- The guard of a registration: whether the key still has the entry of that version. -/
def activeGuard (registry : ScheduleRegistry Uuid) (scheduleKey : String)
    (version : UInt64) : Bool :=
  (registry.jobs.get scheduleKey).any fun entry ↦ entry.version == version

/-- Put a registration's job into its entry, unless the key now has another one. -/
def commitRegistration (registry : ScheduleRegistry Uuid) (scheduleKey : String) (version : UInt64)
    (jobId : Uuid) : ScheduleRegistry Uuid × RegistrationCommit :=
  if registry.activeGuard scheduleKey version then
    (⟨registry.jobs.insert scheduleKey ⟨version, some jobId⟩⟩, .active)
  else (registry, .superseded)

/-- Take a registration's entry away, unless the key now has another one. -/
def rollbackRegistration (registry : ScheduleRegistry Uuid) (scheduleKey : String)
    (version : UInt64) : ScheduleRegistry Uuid :=
  if registry.activeGuard scheduleKey version then ⟨registry.jobs.remove scheduleKey⟩ else registry

/-- Take every entry away. -/
def deactivateAll (_registry : ScheduleRegistry Uuid) : ScheduleRegistry Uuid := ⟨.empty⟩

/-! ### What the operations leave at a key -/

/-- The version a key's entry has. -/
def versionAt (registry : ScheduleRegistry Uuid) (scheduleKey : String) : Option UInt64 :=
  (registry.jobs.get scheduleKey).map TrackedJob.version

@[simp] theorem versionAt_new (scheduleKey : String) :
    (new : ScheduleRegistry Uuid).versionAt scheduleKey = none := rfl

@[simp] theorem versionAt_deactivateAll (registry : ScheduleRegistry Uuid) (scheduleKey : String) :
    registry.deactivateAll.versionAt scheduleKey = none := rfl

/-- A guard is true exactly while the key's entry has its version. -/
theorem activeGuard_iff {registry : ScheduleRegistry Uuid} {scheduleKey : String}
    {version : UInt64} :
    registry.activeGuard scheduleKey version = true ↔
      registry.versionAt scheduleKey = some version := by
  unfold activeGuard versionAt
  cases registry.jobs.get scheduleKey with
  | none => simp
  | some entry => simp

theorem nextVersion_of_absent {registry : ScheduleRegistry Uuid} {scheduleKey : String}
    (h : registry.versionAt scheduleKey = none) : registry.nextVersion scheduleKey = 1 := by
  simp only [versionAt, Option.map_eq_none_iff] at h
  simp only [nextVersion, h]

theorem nextVersion_of_present {registry : ScheduleRegistry Uuid} {scheduleKey : String}
    {version : UInt64} (h : registry.versionAt scheduleKey = some version) :
    registry.nextVersion scheduleKey = saturatingAdd version 1 := by
  obtain ⟨entry, hentry, rfl⟩ := Option.map_eq_some_iff.mp h
  simp only [nextVersion, hentry]

theorem versionAt_beginRegistration (registry : ScheduleRegistry Uuid)
    (scheduleKey other : String) :
    (registry.beginRegistration scheduleKey).1.versionAt other =
      if other = scheduleKey then some (registry.nextVersion scheduleKey)
      else registry.versionAt other := by
  simp only [versionAt, beginRegistration, KeyedMap.get_insert]
  split_ifs <;> rfl

/-- A commit puts a job into an entry and changes no version. -/
@[simp] theorem versionAt_commitRegistration (registry : ScheduleRegistry Uuid)
    (scheduleKey other : String) (version : UInt64) (jobId : Uuid) :
    (registry.commitRegistration scheduleKey version jobId).1.versionAt other =
      registry.versionAt other := by
  unfold commitRegistration
  split_ifs with hactive
  · by_cases hother : other = scheduleKey
    · subst hother
      rw [activeGuard_iff.mp hactive]
      simp [versionAt]
    · simp only [versionAt, KeyedMap.get_insert_of_ne _ _ hother]
  · rfl

theorem versionAt_rollbackRegistration (registry : ScheduleRegistry Uuid)
    (scheduleKey other : String) (version : UInt64) :
    (registry.rollbackRegistration scheduleKey version).versionAt other =
      if other = scheduleKey ∧ registry.versionAt scheduleKey = some version then none
      else registry.versionAt other := by
  unfold rollbackRegistration
  simp only [activeGuard_iff]
  by_cases hversion : registry.versionAt scheduleKey = some version
  · rw [if_pos hversion]
    by_cases hother : other = scheduleKey
    · subst hother
      rw [if_pos ⟨rfl, hversion⟩]
      simp [versionAt]
    · simp only [hother, false_and, if_false, versionAt, KeyedMap.get_remove_of_ne _ hother]
  · rw [if_neg hversion, if_neg fun h ↦ hversion h.2]

end ScheduleRegistry

end MaRuntime.Scheduler
