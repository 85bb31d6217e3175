import MaRuntime.Scheduler.LatestWins

/-!
# Schedules that stand

A schedule stands from its commit on, if that answered that it is active, until its key is
registered again, its own registration completes or rolls back, or every schedule is deactivated.
The machine is that of `registryStep`, with the standing schedules as a history (`standingStep`).

`NoneLost` says that the entry of each standing schedule is there with its version and its job, so
that its guard is true. It holds along a run if and only if no attempt commits another job, rolls
back or completes while it has the version of a standing schedule of its key that is not its own
(`noneLost_iff`). Versions are compared only, and a key whose entry was removed starts again at
version one, so the late callback of an old job can have the version of the current schedule
(`schedule_lost`). Where registrations take fresh versions and each commits once, none is lost
(`noneLost_of_freshVersion`).

Main definitions: `Standing`, `standingStep`, `NoneLost`, `SparesStanding`.
Main results: `noneLost_iff`, `noneLost_of_freshVersion`, `schedule_lost`.
-/

set_option autoImplicit false
set_option relaxedAutoImplicit false

namespace MaRuntime.Scheduler

open Runs

variable {Uuid : Type*}

/-! ### The machine -/

/-- A schedule that was committed as active: the attempt, by its place, and its job. -/
structure Standing (Uuid : Type*) where
  index : Nat
  attempt : Attempt
  jobId : Uuid

/-- The registry and its attempts, with the schedules that stand as a history for the property. -/
structure StandingState (Uuid : Type*) where
  state : RegistryState Uuid
  standing : List (Standing Uuid)

namespace StandingState

/-- The state a scheduler starts in. -/
def new : StandingState Uuid := ⟨.new, []⟩

/-- The schedules that stand after a step. -/
def standingAfter (s : StandingState Uuid) : RegistryAction Uuid → List (Standing Uuid)
  | .beginRegistration scheduleKey _ =>
    s.standing.filter fun schedule ↦ schedule.attempt.scheduleKey ≠ scheduleKey
  | .evaluateGuard _ => s.standing
  | .commitRegistration index jobId =>
    match s.state.attempts[index]? with
    | some a =>
      match (s.state.registry.commitRegistration a.scheduleKey a.version jobId).2 with
      | .active => s.standing ++ [⟨index, a, jobId⟩]
      | .superseded => s.standing
    | none => s.standing
  | .rollbackRegistration index | .complete index =>
    s.standing.filter fun schedule ↦ schedule.index ≠ index
  | .deactivateAll => []

end StandingState

/-- One step, with what it leaves standing. -/
def standingStep (s : StandingState Uuid) (action : RegistryAction Uuid) :
    Option (StandingState Uuid) :=
  (registryStep s.state action).map fun state ↦ ⟨state, s.standingAfter action⟩

/-! ### The property and the condition -/

/-- The entry of a standing schedule is there with its version and its job, and its guard is
true. -/
structure Stands (s : RegistryState Uuid) (schedule : Standing Uuid) : Prop where
  entry : s.registry.jobs.get schedule.attempt.scheduleKey =
    some ⟨schedule.attempt.version, some schedule.jobId⟩
  guard : s.guardHolds schedule.attempt = true

/-- No standing schedule is lost. -/
def NoneLost (s : StandingState Uuid) : Prop := ∀ schedule ∈ s.standing, Stands s.state schedule

/-- The attempt at a place has the version of the current entry of its key, and a schedule of that
key stands. -/
def Meets (s : StandingState Uuid) (index : Nat) (schedule : Standing Uuid) : Prop :=
  schedule ∈ s.standing ∧ ∃ a, s.state.attempts[index]? = some a ∧ s.state.guardHolds a = true ∧
    schedule.attempt.scheduleKey = a.scheduleKey

/-- Where an attempt has the version of a standing schedule of its key, it commits no other job, and
rolls back or completes only if the schedule is its own. -/
def SparesStanding (s : StandingState Uuid) : RegistryAction Uuid → Prop
  | .commitRegistration index jobId => ∀ schedule, Meets s index schedule → schedule.jobId = jobId
  | .rollbackRegistration index => ∀ schedule, Meets s index schedule → schedule.index = index
  | .complete index => (∃ a, s.state.attempts[index]? = some a ∧ a.request.oneShot = true) →
      ∀ schedule, Meets s index schedule → schedule.index = index
  | _ => True

/-! ### Steps -/

variable {s t : StandingState Uuid} {action : RegistryAction Uuid}

theorem stands_of_entry {s : RegistryState Uuid} {schedule : Standing Uuid}
    (h : s.registry.jobs.get schedule.attempt.scheduleKey =
      some ⟨schedule.attempt.version, some schedule.jobId⟩) : Stands s schedule where
  entry := h
  guard := by
    rw [RegistryState.guardHolds, ScheduleRegistry.activeGuard_iff, ScheduleRegistry.versionAt, h]
    rfl

/-- A rollback of an attempt keeps a standing schedule unless it has its key and its version. -/
theorem stands_rollback_iff {s : RegistryState Uuid} {schedule : Standing Uuid} (a : Attempt)
    (hs : Stands s schedule) :
    Stands { s with registry := s.registry.rollbackRegistration a.scheduleKey a.version } schedule ↔
      ¬(s.guardHolds a = true ∧ schedule.attempt.scheduleKey = a.scheduleKey) := by
  by_cases hguard : s.guardHolds a = true
  · have hremoved : s.registry.rollbackRegistration a.scheduleKey a.version =
        ⟨s.registry.jobs.remove a.scheduleKey⟩ := if_pos hguard
    rw [hremoved]
    by_cases hkey : schedule.attempt.scheduleKey = a.scheduleKey
    · simp only [hguard, hkey, and_self, not_true_eq_false, iff_false]
      intro hafter
      have hentry := hafter.entry
      simp only [hkey, KeyedMap.get_remove_self] at hentry
      cases hentry
    · simp only [hkey, and_false, not_false_eq_true, iff_true]
      apply stands_of_entry
      show (s.registry.jobs.remove a.scheduleKey).get schedule.attempt.scheduleKey = _
      rw [KeyedMap.get_remove_of_ne _ hkey]
      exact hs.entry
  · have hkept : s.registry.rollbackRegistration a.scheduleKey a.version = s.registry :=
      if_neg hguard
    rw [hkept]
    exact iff_of_true hs fun hboth ↦ hguard hboth.1

/-- A commit that is active keeps a standing schedule unless it has its key, and another job. -/
theorem stands_commit_iff {s : RegistryState Uuid} {schedule : Standing Uuid} {a : Attempt}
    {jobId : Uuid} (hs : Stands s schedule) (hguard : s.guardHolds a = true) :
    Stands ⟨⟨s.registry.jobs.insert a.scheduleKey ⟨a.version, some jobId⟩⟩, s.attempts⟩ schedule ↔
      (schedule.attempt.scheduleKey = a.scheduleKey → schedule.jobId = jobId) := by
  by_cases hkey : schedule.attempt.scheduleKey = a.scheduleKey
  · have hversion : schedule.attempt.version = a.version := by
      have hfound := ScheduleRegistry.activeGuard_iff.mp hguard
      rw [ScheduleRegistry.versionAt, ← hkey, hs.entry] at hfound
      exact Option.some.inj hfound
    constructor
    · intro hafter _
      have hentry := hafter.entry
      simp only [hkey, KeyedMap.get_insert_self, Option.some.injEq, TrackedJob.mk.injEq] at hentry
      exact hentry.2.symm
    · intro hjob
      apply stands_of_entry
      show (s.registry.jobs.insert a.scheduleKey _).get schedule.attempt.scheduleKey = _
      rw [hkey, KeyedMap.get_insert_self, hversion, hjob hkey]
  · simp only [hkey, false_implies, iff_true]
    apply stands_of_entry
    show (s.registry.jobs.insert a.scheduleKey _).get schedule.attempt.scheduleKey = _
    rw [KeyedMap.get_insert_of_ne _ _ hkey]
    exact hs.entry

/-- A commit is active exactly where the guard of its attempt is true. -/
theorem commitRegistration_eq {registry : ScheduleRegistry Uuid} (a : Attempt) (jobId : Uuid) :
    registry.commitRegistration a.scheduleKey a.version jobId =
      if registry.activeGuard a.scheduleKey a.version then
        (⟨registry.jobs.insert a.scheduleKey ⟨a.version, some jobId⟩⟩, .active)
      else (registry, .superseded) :=
  rfl

theorem noneLost_step (hs : NoneLost s) (hspares : SparesStanding s action)
    (h : standingStep s action = some t) : NoneLost t := by
  obtain ⟨state, hstep, rfl⟩ := Option.map_eq_some_iff.mp h
  have hended {index : Nat} {a : Attempt} (ha : s.state.attempts[index]? = some a)
      (hown : ∀ schedule, Meets s index schedule → schedule.index = index)
      (schedule : Standing Uuid)
      (hmem : schedule ∈ s.standing.filter fun schedule ↦ schedule.index ≠ index) :
      Stands { s.state with
        registry := s.state.registry.rollbackRegistration a.scheduleKey a.version } schedule := by
    obtain ⟨hstood, hother⟩ := List.mem_filter.mp hmem
    refine (stands_rollback_iff a (hs schedule hstood)).mpr fun ⟨hguard, hkey⟩ ↦ ?_
    exact of_decide_eq_true hother (hown schedule ⟨hstood, a, ha, hguard, hkey⟩)
  intro schedule hmem
  cases action with
  | beginRegistration scheduleKey request =>
    obtain rfl := Option.some.inj hstep
    obtain ⟨hstood, hother⟩ := List.mem_filter.mp hmem
    apply stands_of_entry
    show (s.state.registry.jobs.insert scheduleKey _).get schedule.attempt.scheduleKey = _
    rw [KeyedMap.get_insert_of_ne _ _ (of_decide_eq_true hother)]
    exact (hs schedule hstood).entry
  | evaluateGuard index =>
    obtain ⟨a, -, rfl⟩ := Option.map_eq_some_iff.mp hstep
    exact hs schedule hmem
  | commitRegistration index jobId =>
    obtain ⟨a, ha, rfl⟩ := Option.map_eq_some_iff.mp hstep
    simp only [StandingState.standingAfter, ha, commitRegistration_eq] at hmem ⊢
    split_ifs at hmem ⊢ with hguard
    · rcases List.mem_append.mp hmem with hstood | hnew
      · refine (stands_commit_iff (hs schedule hstood) hguard).mpr fun hkey ↦ ?_
        exact hspares schedule ⟨hstood, a, ha, hguard, hkey⟩
      · rw [List.mem_singleton.mp hnew]
        exact stands_of_entry (KeyedMap.get_insert_self ..)
    · exact hs schedule hmem
  | rollbackRegistration index =>
    obtain ⟨a, ha, rfl⟩ := Option.map_eq_some_iff.mp hstep
    exact hended ha hspares schedule hmem
  | complete index =>
    obtain ⟨a, hfound, rfl⟩ := Option.map_eq_some_iff.mp hstep
    obtain ⟨ha, honeShot⟩ := Option.filter_eq_some_iff.mp hfound
    exact hended ha (hspares ⟨a, ha, honeShot⟩) schedule hmem
  | deactivateAll => cases hmem

/-- A step after which no standing schedule is lost meets the condition. -/
theorem sparesStanding_of_noneLost (hs : NoneLost s) (h : standingStep s action = some t)
    (ht : NoneLost t) : SparesStanding s action := by
  obtain ⟨state, hstep, rfl⟩ := Option.map_eq_some_iff.mp h
  have hown {index : Nat} {a : Attempt} (ha : s.state.attempts[index]? = some a)
      (hended : ∀ schedule ∈ s.standing.filter fun schedule ↦ schedule.index ≠ index,
        Stands { s.state with
          registry := s.state.registry.rollbackRegistration a.scheduleKey a.version } schedule)
      (schedule : Standing Uuid) (hmeets : Meets s index schedule) : schedule.index = index := by
    obtain ⟨hstood, b, hb, hguard, hkey⟩ := hmeets
    obtain rfl := Option.some.inj (ha.symm.trans hb)
    by_contra hother
    have hkept := hended schedule (List.mem_filter.mpr ⟨hstood, decide_eq_true hother⟩)
    exact (stands_rollback_iff a (hs schedule hstood)).mp hkept ⟨hguard, hkey⟩
  cases action with
  | commitRegistration index jobId =>
    rintro schedule ⟨hstood, a, ha, hguard, hkey⟩
    obtain ⟨b, hb, rfl⟩ := Option.map_eq_some_iff.mp hstep
    obtain rfl := Option.some.inj (ha.symm.trans hb)
    have hactive : s.state.registry.activeGuard a.scheduleKey a.version = true := hguard
    have hkept := ht schedule (by
      simp only [StandingState.standingAfter, ha, commitRegistration_eq, hactive, if_true]
      exact List.mem_append_left _ hstood)
    simp only [commitRegistration_eq, hactive, if_true] at hkept
    exact (stands_commit_iff (hs schedule hstood) hguard).mp hkept hkey
  | rollbackRegistration index =>
    obtain ⟨a, ha, rfl⟩ := Option.map_eq_some_iff.mp hstep
    exact hown ha ht
  | complete index =>
    obtain ⟨a, hfound, rfl⟩ := Option.map_eq_some_iff.mp hstep
    exact fun _ ↦ hown (Option.filter_eq_some_iff.mp hfound).1 ht
  | beginRegistration | evaluateGuard | deactivateAll => trivial

/-! ### Runs -/

/-- No standing schedule is lost along a run if and only if its steps meet the condition. -/
theorem noneLost_iff {actions : List (RegistryAction Uuid)} {u : StandingState Uuid}
    (h : Run standingStep .new actions u) :
    (∀ before after s, actions = before ++ after → Run standingStep .new before s → NoneLost s) ↔
      GuardedRun standingStep SparesStanding .new actions u :=
  guardedRun_iff_forall_prefix NoneLost h (fun _ hnone ↦ nomatch hnone)
    (fun _ _ _ hs hspares hstep ↦ noneLost_step hs hspares hstep)
    (fun _ _ _ hs hstep ht ↦ sparesStanding_of_noneLost hs hstep ht)

/-! ### Fresh versions -/

/-- A registration takes a fresh version, and an attempt whose schedule stands does not commit
another job. -/
def FreshAndOnce (s : StandingState Uuid) (action : RegistryAction Uuid) : Prop :=
  FreshVersion s.state action ∧ ∀ index jobId, action = .commitRegistration index jobId →
    ∀ schedule ∈ s.standing, schedule.index = index → schedule.jobId = jobId

/-- Standing schedules are those of their attempts. -/
def StandingOfAttempts (s : StandingState Uuid) : Prop :=
  ∀ schedule ∈ s.standing, s.state.attempts[schedule.index]? = some schedule.attempt

/-- The attempts of a step are the first ones after it. -/
theorem getElem?_of_registryStep {s t : RegistryState Uuid} {action : RegistryAction Uuid}
    (h : registryStep s action = some t) {index : Nat} {a : Attempt}
    (ha : s.attempts[index]? = some a) : t.attempts[index]? = some a := by
  obtain ⟨_, _, _, hattempts, _⟩ | ⟨_, hattempts, _⟩ := registryStep_cases h
  · obtain ⟨hlt, -⟩ := List.getElem?_eq_some_iff.mp ha
    rw [hattempts, List.getElem?_append_left hlt]
    exact ha
  · rw [hattempts]
    exact ha

theorem standingOfAttempts_step (hs : StandingOfAttempts s)
    (h : standingStep s action = some t) : StandingOfAttempts t := by
  obtain ⟨state, hstep, rfl⟩ := Option.map_eq_some_iff.mp h
  intro schedule hmem
  apply getElem?_of_registryStep hstep
  cases action with
  | commitRegistration index jobId =>
    simp only [StandingState.standingAfter] at hmem
    split at hmem
    · rename_i a ha
      split at hmem
      · rcases List.mem_append.mp hmem with hstood | hnew
        · exact hs schedule hstood
        · rw [List.mem_singleton.mp hnew]
          exact ha
      · exact hs schedule hmem
    · exact hs schedule hmem
  | beginRegistration | rollbackRegistration | complete =>
    exact hs schedule (List.mem_filter.mp hmem).1
  | evaluateGuard => exact hs schedule hmem
  | deactivateAll => cases hmem

/-- Where versions grow, an attempt that has the version of a standing schedule of its key is the
schedule's own. -/
theorem Meets.index_eq {index : Nat} {schedule : Standing Uuid} (hmeets : Meets s index schedule)
    (hgrow : VersionsGrow s.state) (hattempts : StandingOfAttempts s) (hs : NoneLost s) :
    schedule.index = index := by
  obtain ⟨hstood, a, ha, hguard, hkey⟩ := hmeets
  exact hgrow.oneGuardPerKey _ _ _ _ (hattempts schedule hstood) ha hkey (hs schedule hstood).guard
    hguard

/-- Along a run in which registrations take fresh versions, and each commits once, no standing
schedule is lost. -/
theorem noneLost_of_freshVersion {actions : List (RegistryAction Uuid)} {u : StandingState Uuid}
    (h : GuardedRun standingStep FreshAndOnce .new actions u) : NoneLost u := by
  have hkept : VersionsGrow u.state ∧ StandingOfAttempts u ∧ NoneLost u := by
    refine h.invariant (fun s ↦ VersionsGrow s.state ∧ StandingOfAttempts s ∧ NoneLost s) ?_
      ⟨versionsGrow_new, fun _ hnone ↦ (nomatch hnone), fun _ hnone ↦ (nomatch hnone)⟩
    rintro s action t ⟨hgrow, hattempts, hs⟩ ⟨hfresh, honce⟩ hstep
    obtain ⟨state, hregistry, rfl⟩ := Option.map_eq_some_iff.mp hstep
    refine ⟨hgrow.step hfresh hregistry, standingOfAttempts_step hattempts hstep,
      noneLost_step hs ?_ hstep⟩
    have hown : ∀ {index : Nat} (schedule : Standing Uuid), Meets s index schedule →
        schedule.index = index := fun _ hmeets ↦ hmeets.index_eq hgrow hattempts hs
    cases action with
    | commitRegistration index jobId =>
      intro schedule hmeets
      exact honce index jobId rfl schedule hmeets.1 (hown schedule hmeets)
    | rollbackRegistration index => exact hown
    | complete index => exact fun _ ↦ hown
    | beginRegistration | evaluateGuard | deactivateAll => trivial
  exact hkept.2.2

/-! ### The callback of an old job -/

/-- A one-shot schedule that is committed, and takes itself away when it has fired. -/
theorem noneLost_iff_completed :
    ∃ u, Run standingStep (.new : StandingState Nat)
        [.beginRegistration "did:ma:abc#duck-quack" .in, .commitRegistration 0 7, .complete 0] u ∧
      NoneLost u := by
  have hrun : Run standingStep (.new : StandingState Nat)
      [.beginRegistration "did:ma:abc#duck-quack" .in, .commitRegistration 0 7, .complete 0] _ :=
    run_of_execute rfl
  refine ⟨_, hrun, (noneLost_iff hrun).mpr ?_ _ [] _ (List.append_nil _).symm hrun⟩
  refine .cons trivial rfl (.cons ?_ rfl (.cons ?_ rfl (.nil _)))
  · rintro schedule ⟨hnone, -⟩
    cases hnone
  · rintro - schedule ⟨hstood, -⟩
    rw [List.mem_singleton.mp hstood]

/-- A one-shot schedule is still dispatching when a registration of its key fails and the next one
is committed, with its version: its callback takes away the schedule that is current. -/
theorem schedule_lost :
    ∃ u, Run standingStep (.new : StandingState Nat)
        [.beginRegistration "did:ma:abc#duck-quack" .in, .commitRegistration 0 7,
          .beginRegistration "did:ma:abc#duck-quack" .cron, .rollbackRegistration 1,
          .beginRegistration "did:ma:abc#duck-quack" .cron, .commitRegistration 2 8, .complete 0] u ∧
      u.standing = [⟨2, ⟨"did:ma:abc#duck-quack", .cron, 1⟩, 8⟩] ∧
      u.state.registry.jobs.get "did:ma:abc#duck-quack" = none ∧ ¬NoneLost u := by
  refine ⟨_, run_of_execute rfl, rfl, rfl, fun hkept ↦ ?_⟩
  have hentry := (hkept _ (List.mem_singleton_self _)).entry
  cases hentry

end MaRuntime.Scheduler
