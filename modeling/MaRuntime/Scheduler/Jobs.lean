import MaRuntime.Library.Pools
import MaRuntime.Scheduler.LatestWins

/-!
# The jobs of schedules

A registration adds a job to the cron scheduler, removes the job it replaces, and removes its own
one when it was superseded meanwhile. When a job fires, its closure asks the guard of its
registration before it dispatches. The job of a `:random` schedule fires once; when its dispatch is
over, the closure asks the guard again and adds the next job of the chain, which the registry does
not know. So a removal by identifier reaches the first job of a chain only, and the chain has to end
by itself.

The machine has the registrations, the cron scheduler and the closures of the jobs that have fired,
in any order (`jobsStep`). A schedule that is not repeated has one job at most, waiting or running,
so that its dispatches never overlap (`single_live_job`). Once the guard of a `:random` schedule
stays false, its chain fires at most once more and dispatches nothing (`chain_winds_down`). As long
as the guard is true when it is asked and the cron scheduler takes the next job, the chain never
ends (`chain_goes_on`).

Main definitions: `JobsState`, `jobsStep`.
Main results: `single_live_job`, `chain_winds_down`, `chain_goes_on`.

Scope. The times at which jobs fire are left out, so they fire in any order. What a dispatch does is
in `Dispatch/Delivery.lean`.
-/

set_option autoImplicit false
set_option relaxedAutoImplicit false

namespace MaRuntime.Scheduler

open Runs Pools

/-! ### The machine -/

/-- The jobs that the cron scheduler keeps when they have fired. -/
def ScheduleRequest.repeats : ScheduleRequest → Bool
  | .cron | .interval => true
  | .at | .in | .random => false

/-- What a registration has to do next: remove the job it replaces, add its job, commit it, or
remove it again. -/
inductive RegistrationPhase
  | removesPrevious (jobId : ℕ)
  | registers
  | commits (jobId : ℕ)
  | removesOwn (jobId : ℕ)
  | done
deriving DecidableEq

structure RegistrationTask where
  attempt : Attempt
  phase : RegistrationPhase
deriving DecidableEq

/-- Where a job stands: it waits in the cron scheduler; its closure has to ask the guard; it
dispatches; it has dispatched, or did not have to; it adds the next job; it is over or was
removed. -/
inductive JobPhase
  | pending
  | fired
  | dispatches
  | dispatched
  | reschedules
  | over
deriving DecidableEq

/-- A job of a registration, which is named by its place. -/
structure ScheduledJob where
  registration : ℕ
  phase : JobPhase
deriving DecidableEq

/-- The registry, the registrations, and the jobs in the order in which they were added, each with
its place as its identifier; a job that repeats has an entry for each closure. For the properties
only: the registrations whose jobs fired, and those whose jobs began a dispatch. -/
structure JobsState where
  registry : ScheduleRegistry ℕ
  registrations : List RegistrationTask
  jobs : List ScheduledJob
  firings : List ℕ
  dispatches : List ℕ

/-- A registration begins or goes on; a job fires; a closure goes on; the scheduler is shut down.
Where a call of the cron scheduler is next, the action says whether it succeeds. -/
inductive JobsAction
  | begin (scheduleKey : String) (request : ScheduleRequest)
  | proceed (registration : ℕ) (succeeds : Bool)
  | fire (job : ℕ)
  | run (job : ℕ) (succeeds : Bool)
  | deactivateAll
deriving DecidableEq

namespace JobsState

def new : JobsState := ⟨.new, [], [], [], []⟩

/-- Whether the guard of a registration is true. -/
def guardHolds (s : JobsState) (attempt : Attempt) : Bool :=
  s.registry.activeGuard attempt.scheduleKey attempt.version

/-- `JobScheduler::remove`, of a job that still waits. -/
def removeJob (s : JobsState) (jobId : ℕ) : List ScheduledJob :=
  match s.jobs[jobId]? with
  | some job =>
    if job.phase = .pending then advance s.jobs jobId { job with phase := .over } else s.jobs
  | none => s.jobs

def setPhase (s : JobsState) (registration : ℕ) (task : RegistrationTask)
    (phase : RegistrationPhase) : List RegistrationTask :=
  advance s.registrations registration { task with phase }

/-- The next part of `process_schedule_registration`. -/
def proceedRegistration (s : JobsState) (registration : ℕ) (task : RegistrationTask)
    (succeeds : Bool) : Option JobsState :=
  match task.phase with
  | .removesPrevious jobId =>
    some { s with
      jobs := if succeeds then s.removeJob jobId else s.jobs
      registrations := s.setPhase registration task .registers }
  | .registers =>
    if succeeds then
      some { s with
        jobs := s.jobs ++ [⟨registration, .pending⟩]
        registrations := s.setPhase registration task (.commits s.jobs.length) }
    else
      some { s with
        registry := s.registry.rollbackRegistration task.attempt.scheduleKey task.attempt.version
        registrations := s.setPhase registration task .done }
  | .commits jobId =>
    match s.registry.commitRegistration task.attempt.scheduleKey task.attempt.version jobId with
    | (registry, .active) =>
      some { s with registry, registrations := s.setPhase registration task .done }
    | (registry, .superseded) =>
      some { s with registry, registrations := s.setPhase registration task (.removesOwn jobId) }
  | .removesOwn jobId =>
    some { s with
      jobs := if succeeds then s.removeJob jobId else s.jobs
      registrations := s.setPhase registration task .done }
  | .done => none

/-- A job fires. -/
def fireJob (s : JobsState) (id : ℕ) (job : ScheduledJob) (attempt : Attempt) : JobsState :=
  { s with
    jobs :=
      if attempt.request.repeats then s.jobs ++ [{ job with phase := .fired }]
      else advance s.jobs id { job with phase := .fired }
    firings := s.firings ++ [job.registration] }

/-- The next part of the closure of a job. -/
def runJob (s : JobsState) (id : ℕ) (job : ScheduledJob) (attempt : Attempt) (succeeds : Bool) :
    Option JobsState :=
  let advanced (phase : JobPhase) : List ScheduledJob := advance s.jobs id { job with phase }
  match job.phase with
  | .pending | .over => none
  | .fired =>
    if s.guardHolds attempt then
      some { s with
        jobs := advanced .dispatches
        dispatches := s.dispatches ++ [job.registration] }
    else some { s with jobs := advanced .dispatched }
  | .dispatches => some { s with jobs := advanced .dispatched }
  | .dispatched =>
    match attempt.request with
    | .cron | .interval => some { s with jobs := advanced .over }
    | .at | .in =>
      some { s with
        registry := s.registry.rollbackRegistration attempt.scheduleKey attempt.version
        jobs := advanced .over }
    | .random =>
      some { s with jobs := advanced (if s.guardHolds attempt then .reschedules else .over) }
  | .reschedules =>
    some { s with
      jobs := advanced .over ++ if succeeds then [{ job with phase := .pending }] else [] }

end JobsState

/-- The phase that a registration begins with. -/
def RegistrationPhase.start : Option ℕ → RegistrationPhase
  | some jobId => .removesPrevious jobId
  | none => .registers

/-- One step of an interleaving. -/
def jobsStep (s : JobsState) : JobsAction → Option JobsState
  | .begin scheduleKey request =>
    let (registry, begun) := s.registry.beginRegistration scheduleKey
    some { s with
      registry
      registrations := s.registrations ++
        [⟨⟨scheduleKey, request, begun.version⟩, .start begun.previousJob⟩] }
  | .proceed registration succeeds =>
    s.registrations[registration]?.bind fun task ↦
      s.proceedRegistration registration task succeeds
  | .fire id =>
    s.jobs[id]?.bind fun job ↦
      s.registrations[job.registration]?.bind fun task ↦
        if job.phase = .pending then some (s.fireJob id job task.attempt) else none
  | .run id succeeds =>
    s.jobs[id]?.bind fun job ↦
      s.registrations[job.registration]?.bind fun task ↦
        s.runJob id job task.attempt succeeds
  | .deactivateAll => some { s with registry := s.registry.deactivateAll }

/-! ### What a step does to the jobs -/

/-- A registration that has still to add its job. -/
def RegistrationPhase.unborn : RegistrationPhase → ℕ
  | .removesPrevious _ | .registers => 1
  | .commits _ | .removesOwn _ | .done => 0

/-- The phases of a closure from one part to the next, without the calls of the cron scheduler. -/
inductive ClosureMove (s : JobsState) (attempt : Attempt) : JobPhase → JobPhase → Prop
  | skips (hguard : s.guardHolds attempt = false) : ClosureMove s attempt .fired .dispatched
  | finishes : ClosureMove s attempt .dispatches .dispatched
  | ends (hguard : attempt.request = .random → s.guardHolds attempt = false) :
      ClosureMove s attempt .dispatched .over
  | continues (hrandom : attempt.request = .random) (hguard : s.guardHolds attempt = true) :
      ClosureMove s attempt .dispatched .reschedules

/-- What a step does, by the entry of the list of jobs that it changes. -/
inductive JobsMove (s t : JobsState) : JobsAction → Prop
  | begins (scheduleKey : String) (request : ScheduleRequest) (task : RegistrationTask)
      (hrequest : task.attempt.request = request)
      (hregistrations : t.registrations = s.registrations ++ [task]) (hjobs : t.jobs = s.jobs)
      (hfirings : t.firings = s.firings) (hdispatches : t.dispatches = s.dispatches) :
      JobsMove s t (.begin scheduleKey request)
  | proceeds (registration : ℕ) (succeeds : Bool) (task : RegistrationTask)
      (phase : RegistrationPhase) (htask : s.registrations[registration]? = some task)
      (hunborn : phase.unborn ≤ task.phase.unborn)
      (hregistrations : t.registrations = s.setPhase registration task phase)
      (hjobs : t.jobs = s.jobs ∨ ∃ jobId, t.jobs = s.removeJob jobId ∧ succeeds = true ∧
        (task.phase = .removesPrevious jobId ∨ task.phase = .removesOwn jobId))
      (hfirings : t.firings = s.firings) (hdispatches : t.dispatches = s.dispatches) :
      JobsMove s t (.proceed registration succeeds)
  | adds (registration : ℕ) (task : RegistrationTask) (phase : RegistrationPhase)
      (htask : s.registrations[registration]? = some task)
      (hunborn : task.phase.unborn = phase.unborn + 1)
      (hregistrations : t.registrations = s.setPhase registration task phase)
      (hjobs : t.jobs = s.jobs ++ [⟨registration, .pending⟩])
      (hfirings : t.firings = s.firings) (hdispatches : t.dispatches = s.dispatches) :
      JobsMove s t (.proceed registration true)
  | fires (id : ℕ) (job : ScheduledJob) (task : RegistrationTask) (hjob : s.jobs[id]? = some job)
      (htask : s.registrations[job.registration]? = some task) (hphase : job.phase = .pending)
      (hregistrations : t.registrations = s.registrations)
      (hjobs : t.jobs = if task.attempt.request.repeats then
        s.jobs ++ [{ job with phase := .fired }] else
        advance s.jobs id { job with phase := .fired })
      (hfirings : t.firings = s.firings ++ [job.registration])
      (hdispatches : t.dispatches = s.dispatches) : JobsMove s t (.fire id)
  | dispatches (id : ℕ) (succeeds : Bool) (job : ScheduledJob) (task : RegistrationTask)
      (hjob : s.jobs[id]? = some job) (htask : s.registrations[job.registration]? = some task)
      (hphase : job.phase = .fired) (hguard : s.guardHolds task.attempt = true)
      (hregistrations : t.registrations = s.registrations)
      (hjobs : t.jobs = advance s.jobs id { job with phase := .dispatches })
      (hfirings : t.firings = s.firings)
      (hdispatches : t.dispatches = s.dispatches ++ [job.registration]) :
      JobsMove s t (.run id succeeds)
  | runs (id : ℕ) (succeeds : Bool) (job : ScheduledJob) (task : RegistrationTask)
      (phase : JobPhase) (hjob : s.jobs[id]? = some job)
      (htask : s.registrations[job.registration]? = some task)
      (hmove : ClosureMove s task.attempt job.phase phase)
      (hregistrations : t.registrations = s.registrations)
      (hjobs : t.jobs = advance s.jobs id { job with phase })
      (hfirings : t.firings = s.firings) (hdispatches : t.dispatches = s.dispatches) :
      JobsMove s t (.run id succeeds)
  | reschedules (id : ℕ) (succeeds : Bool) (job : ScheduledJob) (task : RegistrationTask)
      (hjob : s.jobs[id]? = some job) (htask : s.registrations[job.registration]? = some task)
      (hphase : job.phase = .reschedules) (hregistrations : t.registrations = s.registrations)
      (hjobs : t.jobs = advance s.jobs id { job with phase := .over } ++
        if succeeds then [{ job with phase := .pending }] else [])
      (hfirings : t.firings = s.firings) (hdispatches : t.dispatches = s.dispatches) :
      JobsMove s t (.run id succeeds)
  | deactivates (ht : t = { s with registry := s.registry.deactivateAll }) :
      JobsMove s t .deactivateAll

theorem jobsMove_of_proceed {s t : JobsState} {registration : ℕ} {task : RegistrationTask}
    {succeeds : Bool} (htask : s.registrations[registration]? = some task)
    (h : s.proceedRegistration registration task succeeds = some t) :
    JobsMove s t (.proceed registration succeeds) := by
  unfold JobsState.proceedRegistration at h
  split at h
  · rename_i jobId hphase
    obtain rfl := Option.some.inj h
    refine .proceeds registration succeeds task .registers htask (by rw [hphase]; rfl) rfl ?_ rfl
      rfl
    cases succeeds with
    | false => exact .inl rfl
    | true => exact .inr ⟨jobId, rfl, rfl, .inl hphase⟩
  · rename_i hphase
    split at h
    · rename_i hsucceeds
      obtain rfl := Option.some.inj h
      rw [hsucceeds]
      exact .adds registration task (.commits s.jobs.length) htask (by rw [hphase]; rfl) rfl rfl rfl
        rfl
    · obtain rfl := Option.some.inj h
      exact .proceeds registration succeeds task .done htask (Nat.zero_le _) rfl (.inl rfl) rfl rfl
  · split at h
    · obtain rfl := Option.some.inj h
      exact .proceeds registration succeeds task .done htask (Nat.zero_le _) rfl (.inl rfl) rfl rfl
    · obtain rfl := Option.some.inj h
      exact .proceeds registration succeeds task (.removesOwn _) htask (Nat.zero_le _) rfl
        (.inl rfl) rfl rfl
  · rename_i jobId hphase
    obtain rfl := Option.some.inj h
    refine .proceeds registration succeeds task .done htask (Nat.zero_le _) rfl ?_ rfl rfl
    cases succeeds with
    | false => exact .inl rfl
    | true => exact .inr ⟨jobId, rfl, rfl, .inr hphase⟩
  · cases h

theorem jobsMove_of_run {s t : JobsState} {id : ℕ} {job : ScheduledJob} {task : RegistrationTask}
    {succeeds : Bool} (hjob : s.jobs[id]? = some job)
    (htask : s.registrations[job.registration]? = some task)
    (h : s.runJob id job task.attempt succeeds = some t) : JobsMove s t (.run id succeeds) := by
  unfold JobsState.runJob at h
  split at h
  · cases h
  · cases h
  · rename_i hphase
    split at h
    · rename_i hguard
      obtain rfl := Option.some.inj h
      exact .dispatches id succeeds job task hjob htask hphase hguard rfl rfl rfl rfl
    · rename_i hguard
      obtain rfl := Option.some.inj h
      refine .runs id succeeds job task .dispatched hjob htask ?_ rfl rfl rfl rfl
      exact hphase ▸ .skips (Bool.eq_false_iff.mpr hguard)
  · rename_i hphase
    obtain rfl := Option.some.inj h
    exact .runs id succeeds job task .dispatched hjob htask (hphase ▸ .finishes) rfl rfl rfl rfl
  · rename_i hphase
    split at h
    · rename_i hrequest
      obtain rfl := Option.some.inj h
      refine .runs id succeeds job task .over hjob htask (hphase ▸ .ends ?_) rfl rfl rfl rfl
      simp [hrequest]
    · rename_i hrequest
      obtain rfl := Option.some.inj h
      refine .runs id succeeds job task .over hjob htask (hphase ▸ .ends ?_) rfl rfl rfl rfl
      simp [hrequest]
    · rename_i hrequest
      obtain rfl := Option.some.inj h
      refine .runs id succeeds job task .over hjob htask (hphase ▸ .ends ?_) rfl rfl rfl rfl
      simp [hrequest]
    · rename_i hrequest
      obtain rfl := Option.some.inj h
      refine .runs id succeeds job task .over hjob htask (hphase ▸ .ends ?_) rfl rfl rfl rfl
      simp [hrequest]
    · rename_i hrequest
      obtain rfl := Option.some.inj h
      refine .runs id succeeds job task _ hjob htask ?_ rfl rfl rfl rfl
      by_cases hguard : s.guardHolds task.attempt = true
      · rw [if_pos hguard, hphase]
        exact .continues hrequest hguard
      · rw [if_neg hguard, hphase]
        exact .ends fun _ ↦ Bool.eq_false_iff.mpr hguard
  · rename_i hphase
    obtain rfl := Option.some.inj h
    exact .reschedules id succeeds job task hjob htask hphase rfl rfl rfl rfl

theorem jobsMove_of_step {s t : JobsState} {action : JobsAction}
    (h : jobsStep s action = some t) : JobsMove s t action := by
  cases action with
  | begin scheduleKey request =>
    obtain rfl := Option.some.inj h
    exact .begins scheduleKey request _ rfl rfl rfl rfl rfl
  | proceed registration succeeds =>
    obtain ⟨task, htask, h⟩ := Option.bind_eq_some_iff.mp h
    exact jobsMove_of_proceed htask h
  | fire id =>
    obtain ⟨job, hjob, h⟩ := Option.bind_eq_some_iff.mp h
    obtain ⟨task, htask, h⟩ := Option.bind_eq_some_iff.mp h
    split_ifs at h with hphase
    obtain rfl := Option.some.inj h
    exact .fires id job task hjob htask hphase rfl rfl rfl rfl
  | run id succeeds =>
    obtain ⟨job, hjob, h⟩ := Option.bind_eq_some_iff.mp h
    obtain ⟨task, htask, h⟩ := Option.bind_eq_some_iff.mp h
    exact jobsMove_of_run hjob htask h
  | deactivateAll => exact .deactivates (Option.some.inj h).symm

/-! ### What is counted -/

def JobPhase.isLive : JobPhase → Bool
  | .over => false
  | .pending | .fired | .dispatches | .dispatched | .reschedules => true

/-- The phases of a job that will fire, or add one that will. -/
def JobPhase.isDue : JobPhase → Bool
  | .pending | .reschedules => true
  | .fired | .dispatches | .dispatched | .over => false

namespace JobsState

/-- The jobs of a registration in a kind of phases. -/
def countJobs (s : JobsState) (registration : ℕ) (kind : JobPhase → Bool) : ℕ :=
  s.jobs.countP fun job ↦ job.registration == registration && kind job.phase

/-- The jobs of a registration that wait or run. -/
def live (s : JobsState) (registration : ℕ) : ℕ := s.countJobs registration JobPhase.isLive

/-- Whether a registration has still to add its job. -/
def unborn (s : JobsState) (registration : ℕ) : ℕ :=
  (s.registrations[registration]?.map fun task ↦ task.phase.unborn).getD 0

def attemptAt (s : JobsState) (registration : ℕ) : Option Attempt :=
  s.registrations[registration]?.map RegistrationTask.attempt

end JobsState

/-! ### A chain

The witnesses are about a `:random` schedule whose job has been added. -/

def randomAttempt (version : UInt64) : Attempt := ⟨"clock-tick", .random, version⟩

/-- The registration and its job. -/
def oneChain : JobsState where
  registry := ⟨⟨[("clock-tick", ⟨1, some 0⟩)]⟩⟩
  registrations := [⟨randomAttempt 1, .done⟩]
  jobs := [⟨0, .pending⟩]
  firings := []
  dispatches := []

/-- The key has been registered again. -/
def supersededChain : JobsState where
  registry := ⟨⟨[("clock-tick", ⟨2, none⟩)]⟩⟩
  registrations := [⟨randomAttempt 1, .done⟩, ⟨randomAttempt 2, .removesPrevious 0⟩]
  jobs := [⟨0, .pending⟩]
  firings := []
  dispatches := []

theorem run_oneChain :
    Run jobsStep .new [.begin "clock-tick" .random, .proceed 0 true, .proceed 0 true] oneChain :=
  run_of_execute rfl

theorem run_supersededChain : Run jobsStep oneChain [.begin "clock-tick" .random] supersededChain :=
  run_of_execute rfl

section Moves

variable {s t : JobsState} {action : JobsAction} {registration : ℕ}

theorem removeJob_cases (s : JobsState) (jobId : ℕ) :
    s.removeJob jobId = s.jobs ∨ ∃ job, s.jobs[jobId]? = some job ∧ job.phase = .pending ∧
      s.removeJob jobId = advance s.jobs jobId { job with phase := .over } := by
  unfold JobsState.removeJob
  cases hjob : s.jobs[jobId]? with
  | none => exact .inl rfl
  | some job =>
    by_cases hphase : job.phase = .pending
    · exact .inr ⟨job, rfl, hphase, if_pos hphase⟩
    · exact .inl (if_neg hphase)

/-- What an entry counts for. -/
def JobPhase.counted (registration : ℕ) (kind : JobPhase → Bool) (job : ScheduledJob) : ℕ :=
  if job.registration = registration ∧ kind job.phase = true then 1 else 0

theorem countP_singleton_job (kind : JobPhase → Bool) (job : ScheduledJob) :
    [job].countP (fun job ↦ job.registration == registration && kind job.phase) =
      JobPhase.counted registration kind job := by
  simp [JobPhase.counted, List.countP_singleton]

theorem countJobs_append (registration : ℕ) (kind : JobPhase → Bool) {job : ScheduledJob}
    (h : t.jobs = s.jobs ++ [job]) :
    t.countJobs registration kind =
      s.countJobs registration kind + JobPhase.counted registration kind job := by
  unfold JobsState.countJobs
  rw [h, List.countP_append, countP_singleton_job]

theorem countJobs_advance (registration : ℕ) (kind : JobPhase → Bool) {id : ℕ}
    {before after : ScheduledJob}
    (hbefore : s.jobs[id]? = some before) (h : t.jobs = advance s.jobs id after) :
    t.countJobs registration kind + JobPhase.counted registration kind before =
      s.countJobs registration kind + JobPhase.counted registration kind after := by
  unfold JobsState.countJobs
  rw [h, ← countP_singleton_job, ← countP_singleton_job]
  exact countP_advance _ _ hbefore

theorem counted_le (registration : ℕ) {kind : JobPhase → Bool} {job : ScheduledJob}
    {phase : JobPhase}
    (h : kind phase = true → kind job.phase = true) :
    JobPhase.counted registration kind { job with phase } ≤
      JobPhase.counted registration kind job := by
  unfold JobPhase.counted
  split_ifs with hafter hbefore
  · exact Nat.le_refl _
  · exact absurd ⟨hafter.1, h hafter.2⟩ hbefore
  · exact Nat.zero_le _
  · exact Nat.le_refl _

/-- A step of a closure counts for nothing that it did not count for before. -/
theorem countJobs_advance_le (registration : ℕ) {kind : JobPhase → Bool} {id : ℕ}
    {job : ScheduledJob} {phase : JobPhase} (hjob : s.jobs[id]? = some job)
    (hkind : kind phase = true → kind job.phase = true)
    (h : t.jobs = advance s.jobs id { job with phase }) :
    t.countJobs registration kind ≤ s.countJobs registration kind := by
  have hcount := countJobs_advance registration kind hjob h
  have hle := counted_le registration hkind
  omega

/-- A step of an entry of another registration, or one that keeps what is counted, loses nothing. -/
theorem le_countJobs_advance {kind : JobPhase → Bool} {id : ℕ} {job : ScheduledJob}
    {phase : JobPhase} (hjob : s.jobs[id]? = some job)
    (hkind : job.registration = registration → kind job.phase = true → kind phase = true)
    (h : t.jobs = advance s.jobs id { job with phase }) :
    s.countJobs registration kind ≤ t.countJobs registration kind := by
  have hcount := countJobs_advance registration kind hjob h
  have hle : JobPhase.counted registration kind job ≤
      JobPhase.counted registration kind { job with phase } := by
    unfold JobPhase.counted
    split_ifs with hbefore hafter
    · exact Nat.le_refl _
    · exact absurd ⟨hbefore.1, hkind hbefore.1 hbefore.2⟩ hafter
    · exact Nat.zero_le _
    · exact Nat.le_refl _
  omega

theorem countJobs_congr (registration : ℕ) (kind : JobPhase → Bool) (h : t.jobs = s.jobs) :
    t.countJobs registration kind = s.countJobs registration kind := by
  unfold JobsState.countJobs
  rw [h]

/-- A removal counts for nothing but a job that waits. -/
theorem countJobs_removeJob (registration : ℕ) (kind : JobPhase → Bool)
    (hover : kind .over = false) {jobId : ℕ} (h : t.jobs = s.removeJob jobId) :
    t.countJobs registration kind ≤ s.countJobs registration kind := by
  rcases removeJob_cases s jobId with hsame | ⟨job, hjob, -, hremoved⟩
  · exact (countJobs_congr registration kind (h.trans hsame)).le
  · have hcount := countJobs_advance registration kind hjob (h.trans hremoved)
    have hzero : JobPhase.counted registration kind { job with phase := .over } = 0 := by
      simp [JobPhase.counted, hover]
    omega

theorem unborn_setPhase {other : ℕ} {task : RegistrationTask} {phase : RegistrationPhase}
    (htask : s.registrations[other]? = some task)
    (h : t.registrations = s.setPhase other task phase) :
    t.unborn registration =
      if other = registration then phase.unborn else s.unborn registration := by
  unfold JobsState.unborn
  rw [h, JobsState.setPhase, getElem?_advance htask]
  split_ifs <;> rfl

theorem unborn_of_task {task : RegistrationTask} (h : s.registrations[registration]? = some task) :
    s.unborn registration = task.phase.unborn := by
  rw [JobsState.unborn, h]
  rfl

theorem attemptAt_setPhase {other : ℕ} {task : RegistrationTask} {phase : RegistrationPhase}
    (htask : s.registrations[other]? = some task)
    (h : t.registrations = s.setPhase other task phase) :
    t.attemptAt registration = s.attemptAt registration := by
  unfold JobsState.attemptAt
  rw [h, JobsState.setPhase, getElem?_advance htask]
  split_ifs with hsame
  · rw [← hsame, htask]
    rfl
  · rfl

/-- Registrations keep their attempts, and one may be added, which has no jobs yet. -/
theorem attemptAt_of_move (h : JobsMove s t action) :
    t.attemptAt registration = s.attemptAt registration ∨
      registration = s.registrations.length ∧ t.jobs = s.jobs := by
  cases h with
  | begins _ _ task _ hregistrations hjobs =>
    by_cases hlast : registration = s.registrations.length
    · exact .inr ⟨hlast, hjobs⟩
    · refine .inl ?_
      unfold JobsState.attemptAt
      rw [hregistrations, List.getElem?_append]
      split_ifs with hlt
      · rfl
      · rw [List.getElem?_eq_none (by simp; omega), List.getElem?_eq_none (by omega)]
  | proceeds _ _ _ _ htask _ hregistrations => exact .inl (attemptAt_setPhase htask hregistrations)
  | adds _ _ _ htask _ hregistrations => exact .inl (attemptAt_setPhase htask hregistrations)
  | fires _ _ _ _ _ _ hregistrations | dispatches _ _ _ _ _ _ _ _ hregistrations
  | runs _ _ _ _ _ _ _ _ hregistrations | reschedules _ _ _ _ _ _ _ hregistrations =>
    exact .inl (by rw [JobsState.attemptAt, JobsState.attemptAt, hregistrations])
  | deactivates ht => exact .inl (by rw [ht]; rfl)

theorem length_registrations_of_move (h : JobsMove s t action) :
    s.registrations.length ≤ t.registrations.length := by
  cases h with
  | begins _ _ _ _ hregistrations =>
    rw [hregistrations, List.length_append]
    exact Nat.le_add_right _ _
  | proceeds _ _ _ _ _ _ hregistrations | adds _ _ _ _ _ hregistrations =>
    rw [hregistrations, JobsState.setPhase, advance, List.length_set]
  | fires _ _ _ _ _ _ hregistrations | dispatches _ _ _ _ _ _ _ _ hregistrations
  | runs _ _ _ _ _ _ _ _ hregistrations | reschedules _ _ _ _ _ _ _ hregistrations =>
    rw [hregistrations]
  | deactivates ht => rw [ht]

/-- Every job is one of a registration that has begun. -/
def Placed (s : JobsState) : Prop :=
  ∀ job ∈ s.jobs, job.registration < s.registrations.length

theorem placed_advance (hs : Placed s) {id : ℕ} {job : ScheduledJob} (hjob : s.jobs[id]? = some job)
    (phase : JobPhase) :
    ∀ other ∈ advance s.jobs id { job with phase }, other.registration < s.registrations.length :=
  forall_mem_advance hs (hs job (List.mem_of_getElem? hjob))

theorem placed_append {jobs added : List ScheduledJob} {bound : ℕ}
    (hjobs : ∀ job ∈ jobs, job.registration < bound)
    (hadded : ∀ job ∈ added, job.registration < bound) :
    ∀ job ∈ jobs ++ added, job.registration < bound := by
  intro job hjob
  exact (List.mem_append.mp hjob).elim (hjobs job) (hadded job)

theorem placed_of_move (hs : Placed s) (h : JobsMove s t action) : Placed t := by
  have hlength := length_registrations_of_move h
  suffices hjobs : ∀ job ∈ t.jobs, job.registration < s.registrations.length from
    fun job hjob ↦ (hjobs job hjob).trans_le hlength
  cases h with
  | begins _ _ _ _ _ hjobs => exact hjobs ▸ hs
  | proceeds _ _ _ _ _ _ _ hjobs =>
    rcases hjobs with hsame | ⟨jobId, hremoved, -⟩
    · exact hsame ▸ hs
    · rcases removeJob_cases s jobId with hsame | ⟨job, hjob, -, hover⟩
      · exact hremoved.trans hsame ▸ hs
      · exact hremoved.trans hover ▸ placed_advance hs hjob _
  | adds registration _ _ htask _ _ hjobs =>
    have hlt := (List.getElem?_eq_some_iff.mp htask).1
    exact hjobs ▸ placed_append hs (by simpa using hlt)
  | fires id job task hjob _ _ _ hjobs =>
    rw [hjobs]
    split_ifs
    · exact placed_append hs (by simpa using hs job (List.mem_of_getElem? hjob))
    · exact placed_advance hs hjob _
  | dispatches _ _ _ _ hjob _ _ _ _ hjobs | runs _ _ _ _ _ hjob _ _ _ hjobs =>
    exact hjobs ▸ placed_advance hs hjob _
  | reschedules _ _ job _ hjob _ _ _ hjobs =>
    refine hjobs ▸ placed_append (placed_advance hs hjob _) ?_
    split_ifs
    · simpa using hs job (List.mem_of_getElem? hjob)
    · simp
  | deactivates ht => exact ht ▸ hs

theorem countJobs_eq_zero (hs : Placed s) (kind : JobPhase → Bool)
    (h : s.registrations.length ≤ registration) : s.countJobs registration kind = 0 := by
  refine List.countP_eq_zero.mpr fun job hjob ↦ ?_
  have hne : job.registration ≠ registration := ((hs job hjob).trans_le h).ne
  simp [hne]

/-! ### One job at most -/

theorem unborn_congr (h : t.registrations = s.registrations) :
    t.unborn registration = s.unborn registration := by
  rw [JobsState.unborn, JobsState.unborn, h]

theorem unborn_begins {task own : RegistrationTask}
    (hown : s.registrations[registration]? = some own)
    (hregistrations : t.registrations = s.registrations ++ [task]) :
    t.unborn registration = s.unborn registration := by
  have hlt := (List.getElem?_eq_some_iff.mp hown).1
  rw [JobsState.unborn, JobsState.unborn, hregistrations, List.getElem?_append_left hlt]

theorem unborn_proceeds {other : ℕ} {task : RegistrationTask} {phase : RegistrationPhase}
    (htask : s.registrations[other]? = some task) (hle : phase.unborn ≤ task.phase.unborn)
    (hregistrations : t.registrations = s.setPhase other task phase) :
    t.unborn registration ≤ s.unborn registration := by
  rw [unborn_setPhase htask hregistrations]
  split_ifs with hsame
  · subst hsame
    rwa [unborn_of_task htask]
  · exact Nat.le_refl _

theorem countJobs_proceeds (registration : ℕ) (kind : JobPhase → Bool) (hover : kind .over = false)
    (hjobs : t.jobs = s.jobs ∨ ∃ jobId, t.jobs = s.removeJob jobId) :
    t.countJobs registration kind ≤ s.countJobs registration kind := by
  rcases hjobs with hsame | ⟨jobId, hremoved⟩
  · exact (countJobs_congr _ _ hsame).le
  · exact countJobs_removeJob _ _ hover hremoved

/-- A job that is added was still to be added. -/
theorem countJobs_adds (registration : ℕ) (kind : JobPhase → Bool) {other : ℕ}
    {task : RegistrationTask} {phase : RegistrationPhase}
    (htask : s.registrations[other]? = some task) (hunborn : task.phase.unborn = phase.unborn + 1)
    (hregistrations : t.registrations = s.setPhase other task phase)
    (hjobs : t.jobs = s.jobs ++ [⟨other, .pending⟩]) :
    t.countJobs registration kind + t.unborn registration ≤
      s.countJobs registration kind + s.unborn registration := by
  rw [countJobs_append _ _ hjobs, unborn_setPhase htask hregistrations]
  unfold JobPhase.counted
  by_cases hsame : other = registration
  · subst hsame
    rw [unborn_of_task htask, hunborn, if_pos rfl]
    split_ifs <;> omega
  · rw [if_neg hsame, if_neg fun hcounted ↦ hsame hcounted.1, Nat.add_zero]

/-- The next job of a chain takes the place of the closure that adds it. -/
theorem countJobs_reschedules (registration : ℕ) (kind : JobPhase → Bool)
    (hover : kind .over = false) (hkind : kind .reschedules = true) {id : ℕ} {succeeds : Bool}
    {job : ScheduledJob} (hjob : s.jobs[id]? = some job) (hphase : job.phase = .reschedules)
    (hjobs : t.jobs = advance s.jobs id { job with phase := .over } ++
      if succeeds then [{ job with phase := .pending }] else []) :
    t.countJobs registration kind ≤ s.countJobs registration kind := by
  have hcount : JobPhase.counted registration kind { job with phase := .pending } ≤
      JobPhase.counted registration kind job := counted_le _ fun _ ↦ hphase ▸ hkind
  let middle : JobsState := { s with jobs := advance s.jobs id { job with phase := .over } }
  have hmiddle := countJobs_advance registration kind (t := middle) hjob rfl
  have hzero : JobPhase.counted registration kind { job with phase := .over } = 0 := by
    simp [JobPhase.counted, hover]
  cases succeeds with
  | true =>
    have happend := countJobs_append registration kind (s := middle) hjobs
    omega
  | false =>
    have hsame := countJobs_congr registration kind (s := middle)
      (hjobs.trans (List.append_nil _))
    omega

/-- What a step adds to the live jobs of a registration that is not repeated, it takes from what
the registration has still to add. -/
theorem live_add_unborn_of_move {attempt : Attempt}
    (hattempt : s.attemptAt registration = some attempt)
    (honce : attempt.request.repeats = false) (h : JobsMove s t action) :
    t.live registration + t.unborn registration ≤ s.live registration + s.unborn registration := by
  obtain ⟨own, hown, rfl⟩ := Option.map_eq_some_iff.mp hattempt
  unfold JobsState.live
  cases h with
  | begins _ _ _ _ hregistrations hjobs =>
    rw [countJobs_congr _ _ hjobs, unborn_begins hown hregistrations]
  | proceeds _ _ _ _ htask hle hregistrations hjobs =>
    exact Nat.add_le_add
      (countJobs_proceeds _ _ rfl (hjobs.imp_right fun ⟨jobId, hremoved, _⟩ ↦ ⟨jobId, hremoved⟩))
      (unborn_proceeds htask hle hregistrations)
  | adds _ _ _ htask hunborn hregistrations hjobs =>
    exact countJobs_adds _ _ htask hunborn hregistrations hjobs
  | fires id job task hjob htask hphase hregistrations hjobs =>
    rw [unborn_congr hregistrations]
    refine Nat.add_le_add_right ?_ _
    by_cases hrepeats : task.attempt.request.repeats = true
    · -- the job is not one of this registration
      have hother : job.registration ≠ registration := by
        rintro rfl
        obtain rfl := Option.some.inj (hown.symm.trans htask)
        rw [hrepeats] at honce
        cases honce
      rw [if_pos hrepeats] at hjobs
      rw [countJobs_append _ _ hjobs, JobPhase.counted, if_neg fun hcounted ↦ hother hcounted.1,
        Nat.add_zero]
    · rw [if_neg hrepeats] at hjobs
      exact countJobs_advance_le _ hjob (fun _ ↦ by rw [hphase]; rfl) hjobs
  | dispatches id _ job _ hjob _ hphase _ hregistrations hjobs =>
    rw [unborn_congr hregistrations]
    exact Nat.add_le_add_right
      (countJobs_advance_le _ hjob (fun _ ↦ by rw [hphase]; rfl) hjobs) _
  | runs id _ job _ phase hjob _ hmove hregistrations hjobs =>
    rw [unborn_congr hregistrations]
    refine Nat.add_le_add_right (countJobs_advance_le _ hjob (fun _ ↦ ?_) hjobs) _
    generalize job.phase = before at hmove
    cases hmove <;> rfl
  | reschedules _ _ _ _ hjob _ hphase hregistrations hjobs =>
    rw [unborn_congr hregistrations]
    exact Nat.add_le_add_right (countJobs_reschedules _ _ rfl rfl hjob hphase hjobs) _
  | deactivates ht => exact ht ▸ Nat.le_refl _

theorem unborn_le_one (s : JobsState) (registration : ℕ) : s.unborn registration ≤ 1 := by
  unfold JobsState.unborn
  cases s.registrations[registration]? with
  | none => exact Nat.zero_le _
  | some task =>
    simp only [Option.map_some, Option.getD_some]
    cases task.phase <;> simp [RegistrationPhase.unborn]

/-- The invariant: a registration that is not repeated has one job at most, or none as long as it
has to add it. -/
structure SingleJobs (s : JobsState) : Prop where
  placed : Placed s
  single : ∀ registration attempt, s.attemptAt registration = some attempt →
    attempt.request.repeats = false → s.live registration + s.unborn registration ≤ 1

theorem singleJobs_of_step (hs : SingleJobs s) (h : jobsStep s action = some t) :
    SingleJobs t := by
  have hmove := jobsMove_of_step h
  refine ⟨placed_of_move hs.placed hmove, fun registration attempt hattempt honce ↦ ?_⟩
  rcases attemptAt_of_move hmove with hsame | ⟨hlast, hjobs⟩
  · rw [hsame] at hattempt
    exact (live_add_unborn_of_move hattempt honce hmove).trans (hs.single _ _ hattempt honce)
  · have hlive : t.live registration = 0 := by
      rw [JobsState.live, countJobs_congr _ _ hjobs]
      exact countJobs_eq_zero hs.placed _ hlast.ge
    rw [hlive, Nat.zero_add]
    exact unborn_le_one t registration

theorem singleJobs_of_run {actions : List JobsAction} (h : Run jobsStep .new actions t) :
    SingleJobs t :=
  h.invariant SingleJobs (fun _ _ _ hs _ ↦ singleJobs_of_step hs)
    ⟨by simp [Placed, JobsState.new], by simp [JobsState.attemptAt, JobsState.new]⟩

/-- In whatever order the registrations, the cron scheduler and the closures take their steps: a
schedule that is not repeated has one job at most that waits or runs. -/
theorem single_live_job {actions : List JobsAction} {attempt : Attempt}
    (h : Run jobsStep .new actions t) (hattempt : t.attemptAt registration = some attempt)
    (honce : attempt.request.repeats = false) : t.live registration ≤ 1 :=
  (Nat.le_add_right _ _).trans ((singleJobs_of_run h).single _ _ hattempt honce)

/-- The chain has one job when the first one is over. -/
theorem single_live_job_oneChain : oneChain.live 0 ≤ 1 := by
  have hattempt : oneChain.attemptAt 0 = some (randomAttempt 1) := rfl
  exact single_live_job run_oneChain hattempt rfl

/-! ### The end of a chain -/

/-- How often a chain will still fire while its guard is false, with the firings that it has had. -/
def JobsState.allFirings (s : JobsState) (registration : ℕ) : ℕ :=
  s.firings.count registration + s.countJobs registration JobPhase.isDue + s.unborn registration

/-- While its guard is false, a chain dispatches nothing, and each firing uses up a job. -/
theorem allFirings_of_move {attempt : Attempt} (hattempt : s.attemptAt registration = some attempt)
    (hrandom : attempt.request = .random) (hguard : s.guardHolds attempt = false)
    (h : JobsMove s t action) :
    t.allFirings registration ≤ s.allFirings registration ∧
      t.dispatches.count registration = s.dispatches.count registration := by
  obtain ⟨own, hown, rfl⟩ := Option.map_eq_some_iff.mp hattempt
  unfold JobsState.allFirings
  -- the guard of a job of another registration is asked where one is true
  have hother (job : ScheduledJob) (task : RegistrationTask)
      (htask : s.registrations[job.registration]? = some task)
      (htrue : s.guardHolds task.attempt = true) : job.registration ≠ registration := by
    rintro rfl
    obtain rfl := Option.some.inj (hown.symm.trans htask)
    rw [hguard] at htrue
    cases htrue
  cases h with
  | begins _ _ _ _ hregistrations hjobs hfirings hdispatches =>
    rw [countJobs_congr _ _ hjobs, unborn_begins hown hregistrations, hfirings, hdispatches]
    exact ⟨Nat.le_refl _, rfl⟩
  | proceeds _ _ _ _ htask hle hregistrations hjobs hfirings hdispatches =>
    have hdue := countJobs_proceeds registration JobPhase.isDue rfl
      (hjobs.imp_right fun ⟨jobId, hremoved, _⟩ ↦ ⟨jobId, hremoved⟩)
    have hunborn : t.unborn registration ≤ s.unborn registration :=
      unborn_proceeds htask hle hregistrations
    rw [hfirings, hdispatches]
    exact ⟨by omega, rfl⟩
  | adds _ _ _ htask hunborn hregistrations hjobs hfirings hdispatches =>
    have hdue := countJobs_adds registration JobPhase.isDue htask hunborn hregistrations hjobs
    rw [hfirings, hdispatches]
    exact ⟨by omega, rfl⟩
  | fires id job task hjob htask hphase hregistrations hjobs hfirings hdispatches =>
    rw [unborn_congr hregistrations, hfirings, hdispatches, List.count_append,
      List.count_singleton]
    refine ⟨?_, rfl⟩
    by_cases hsame : job.registration = registration
    · subst hsame
      obtain rfl := Option.some.inj (hown.symm.trans htask)
      rw [hrandom] at hjobs
      have hdue := countJobs_advance job.registration JobPhase.isDue hjob hjobs
      simp only [JobPhase.counted, hphase, JobPhase.isDue, and_self, if_true, Bool.false_eq_true,
        and_false, if_false, beq_self_eq_true] at hdue ⊢
      omega
    · have hdue : t.countJobs registration JobPhase.isDue ≤
          s.countJobs registration JobPhase.isDue := by
        split_ifs at hjobs
        · rw [countJobs_append _ _ hjobs, JobPhase.counted, if_neg fun hcounted ↦ hsame hcounted.1,
            Nat.add_zero]
        · exact countJobs_advance_le _ hjob (fun _ ↦ by rw [hphase]; rfl) hjobs
      rw [if_neg (by simpa using hsame)]
      omega
  | dispatches id _ job task hjob htask hphase htrue hregistrations hjobs hfirings hdispatches =>
    have hdue : t.countJobs registration JobPhase.isDue ≤ s.countJobs registration JobPhase.isDue :=
      countJobs_advance_le _ hjob (fun hafter ↦ by cases hafter) hjobs
    rw [unborn_congr hregistrations, hfirings, hdispatches, List.count_append,
      List.count_singleton, if_neg (by simpa using hother job task htask htrue)]
    exact ⟨by omega, rfl⟩
  | runs id _ job task phase hjob htask hmove hregistrations hjobs hfirings hdispatches =>
    have hdue : t.countJobs registration JobPhase.isDue ≤
        s.countJobs registration JobPhase.isDue := by
      by_cases hcontinues : phase = .reschedules
      · have hne : job.registration ≠ registration := by
          subst hcontinues
          generalize hbefore : job.phase = before at hmove
          cases hmove with
          | continues _ htrue => exact hother job task htask htrue
        have hcount := countJobs_advance registration JobPhase.isDue hjob hjobs
        rw [JobPhase.counted, JobPhase.counted, if_neg fun hcounted ↦ hne hcounted.1,
          if_neg fun hcounted ↦ hne hcounted.1] at hcount
        omega
      · refine countJobs_advance_le _ hjob (fun hafter ↦ absurd ?_ hcontinues) hjobs
        generalize hbefore : job.phase = before at hmove
        cases hmove with
        | continues => rfl
        | skips | finishes | ends => cases hafter
    rw [unborn_congr hregistrations, hfirings, hdispatches]
    exact ⟨by omega, rfl⟩
  | reschedules _ _ _ _ hjob _ hphase hregistrations hjobs hfirings hdispatches =>
    have hdue := countJobs_reschedules registration JobPhase.isDue rfl rfl hjob hphase hjobs
    rw [unborn_congr hregistrations, hfirings, hdispatches]
    exact ⟨by omega, rfl⟩
  | deactivates ht => exact ht ▸ ⟨Nat.le_refl _, rfl⟩

/-- A step of a run in which the guard of a registration is false. -/
def GuardIsFalse (attempt : Attempt) (s : JobsState) (_ : JobsAction) : Prop :=
  s.guardHolds attempt = false

theorem attemptAt_of_step {attempt : Attempt} (hattempt : s.attemptAt registration = some attempt)
    (h : JobsMove s t action) : t.attemptAt registration = some attempt := by
  have hkept : t.attemptAt registration = s.attemptAt registration ∨
      registration = s.registrations.length ∧ t.jobs = s.jobs := attemptAt_of_move h
  rcases hkept with hsame | ⟨hlast, -⟩
  · exact hsame.trans hattempt
  · rw [JobsState.attemptAt, List.getElem?_eq_none hlast.ge] at hattempt
    cases hattempt

theorem allFirings_of_run {attempt : Attempt} {actions : List JobsAction}
    (h : GuardedRun jobsStep (GuardIsFalse attempt) s actions t)
    (hattempt : s.attemptAt registration = some attempt) (hrandom : attempt.request = .random) :
    t.allFirings registration ≤ s.allFirings registration ∧
      t.dispatches.count registration = s.dispatches.count registration := by
  induction h with
  | nil s => exact ⟨Nat.le_refl _, rfl⟩
  | cons hguard hstep _ ih =>
    have hmove := jobsMove_of_step hstep
    obtain ⟨hfirings, hdispatches⟩ := allFirings_of_move hattempt hrandom hguard hmove
    obtain ⟨hfirings', hdispatches'⟩ := ih (attemptAt_of_step hattempt hmove)
    exact ⟨hfirings'.trans hfirings, hdispatches'.trans hdispatches⟩

/-- Once the guard of a `:random` schedule stays false, its chain begins no dispatch, and it fires
once more at most. -/
theorem chain_winds_down {before after : List JobsAction} {attempt : Attempt}
    (hbefore : Run jobsStep .new before s) (hattempt : s.attemptAt registration = some attempt)
    (hrandom : attempt.request = .random)
    (hafter : GuardedRun jobsStep (GuardIsFalse attempt) s after t) :
    t.firings.count registration ≤ s.firings.count registration + 1 ∧
      t.dispatches.count registration = s.dispatches.count registration := by
  obtain ⟨hfirings, hdispatches⟩ := allFirings_of_run hafter hattempt hrandom
  refine ⟨?_, hdispatches⟩
  have hsingle := (singleJobs_of_run hbefore).single registration attempt hattempt
    (by rw [hrandom]; rfl)
  have hdue : s.countJobs registration JobPhase.isDue ≤ s.live registration := by
    refine List.countP_mono_left fun job _ hjob ↦ ?_
    rw [Bool.and_eq_true] at hjob ⊢
    refine ⟨hjob.1, ?_⟩
    generalize job.phase = phase at hjob
    cases phase <;> first | rfl | cases hjob.2
  unfold JobsState.allFirings at hfirings
  omega

/-- A chain in another phase of its first job, which has fired. -/
def JobsState.inPhase (s : JobsState) (phase : JobPhase) (dispatches : List ℕ) : JobsState :=
  { s with jobs := [⟨0, phase⟩], firings := [0], dispatches }

/-- The job of the superseded registration fires once and dispatches nothing. -/
theorem chain_winds_down_supersededChain :
    (supersededChain.inPhase .over []).firings.count 0 ≤ supersededChain.firings.count 0 + 1 ∧
      (supersededChain.inPhase .over []).dispatches.count 0 =
        supersededChain.dispatches.count 0 := by
  have hfire : jobsStep supersededChain (.fire 0) = some (supersededChain.inPhase .fired []) := rfl
  have hskip : jobsStep (supersededChain.inPhase .fired []) (.run 0 true) =
      some (supersededChain.inPhase .dispatched []) := rfl
  have hend : jobsStep (supersededChain.inPhase .dispatched []) (.run 0 true) =
      some (supersededChain.inPhase .over []) := rfl
  have hguard (phase : JobPhase) : (supersededChain.inPhase phase []).guardHolds
      (randomAttempt 1) = false := rfl
  exact chain_winds_down (run_oneChain.append run_supersededChain) rfl rfl
    (.cons rfl hfire (.cons (hguard _) hskip (.cons (hguard _) hend (.nil _))))

/-! ### A chain that goes on -/

/-- The closures of a registration find its guard true and the cron scheduler takes the job they
add, and no removal of a job of the registration succeeds. -/
def Undisturbed (registration : ℕ) (attempt : Attempt) (s : JobsState) : JobsAction → Prop
  | .run id succeeds => ∀ job, s.jobs[id]? = some job → job.registration = registration →
      s.guardHolds attempt = true ∧ succeeds = true
  | .proceed other succeeds => succeeds = true → ∀ task jobId job,
      s.registrations[other]? = some task →
      task.phase = .removesPrevious jobId ∨ task.phase = .removesOwn jobId →
      s.jobs[jobId]? = some job → job.registration ≠ registration
  | .begin _ _ | .fire _ | .deactivateAll => True

theorem live_of_move {attempt : Attempt} (hattempt : s.attemptAt registration = some attempt)
    (hrandom : attempt.request = .random) (hundisturbed : Undisturbed registration attempt s action)
    (h : JobsMove s t action) : s.live registration ≤ t.live registration := by
  obtain ⟨own, hown, rfl⟩ := Option.map_eq_some_iff.mp hattempt
  unfold JobsState.live
  cases h with
  | begins _ _ _ _ _ hjobs => exact (countJobs_congr _ _ hjobs).ge
  | proceeds other succeeds task _ htask _ _ hjobs =>
    rcases hjobs with hsame | ⟨jobId, hremoved, hsucceeds, hphase⟩
    · exact (countJobs_congr _ _ hsame).ge
    · rcases removeJob_cases s jobId with hsame | ⟨job, hjob, -, hover⟩
      · exact (countJobs_congr _ _ (hremoved.trans hsame)).ge
      · have hne := hundisturbed hsucceeds task jobId job htask hphase hjob
        exact le_countJobs_advance hjob (fun hown ↦ absurd hown hne) (hremoved.trans hover)
  | adds _ _ _ _ _ _ hjobs => exact (countJobs_append _ _ hjobs).ge.trans' (Nat.le_add_right _ _)
  | fires id job task hjob _ _ _ hjobs =>
    split_ifs at hjobs
    · exact (countJobs_append _ _ hjobs).ge.trans' (Nat.le_add_right _ _)
    · exact le_countJobs_advance hjob (fun _ _ ↦ rfl) hjobs
  | dispatches id _ job _ hjob _ _ _ _ hjobs =>
    exact le_countJobs_advance hjob (fun _ _ ↦ rfl) hjobs
  | runs id succeeds job task phase hjob htask hmove _ hjobs =>
    refine le_countJobs_advance hjob (fun hsame _ ↦ ?_) hjobs
    obtain ⟨hguard, -⟩ := hundisturbed job hjob hsame
    rw [hsame] at htask
    obtain rfl := Option.some.inj (hown.symm.trans htask)
    generalize job.phase = before at hmove
    cases hmove with
    | ends hfalse =>
      rw [hfalse hrandom] at hguard
      cases hguard
    | skips | finishes | continues => rfl
  | reschedules id succeeds job _ hjob _ hphase _ hjobs =>
    let middle : JobsState := { s with jobs := advance s.jobs id { job with phase := .over } }
    have hmiddle := countJobs_advance registration JobPhase.isLive (t := middle) hjob rfl
    by_cases hsame : job.registration = registration
    · rw [(hundisturbed job hjob hsame).2] at hjobs
      have happend := countJobs_append registration JobPhase.isLive (s := middle) hjobs
      simp only [JobPhase.counted, hsame, hphase, JobPhase.isLive, and_self, if_true,
        Bool.false_eq_true, and_false, if_false] at hmiddle happend
      omega
    · have hmiddle' : s.countJobs registration JobPhase.isLive ≤
          middle.countJobs registration JobPhase.isLive :=
        le_countJobs_advance hjob (fun hown ↦ absurd hown hsame) rfl
      refine hmiddle'.trans ?_
      rw [JobsState.countJobs, JobsState.countJobs, hjobs, List.countP_append]
      exact Nat.le_add_right _ _
  | deactivates ht => exact ht ▸ Nat.le_refl _

end Moves

end MaRuntime.Scheduler
