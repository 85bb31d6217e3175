import MaRuntime.Scheduler.Request

/-!
# Schedules dispatch to their registrants

The actor `#scheduler` over a whole run. Messages arrive on the paths of a runtime whose entities
and ACLs change meanwhile; a message that the actor accepts spawns a registration; the registration
enters the registry, adds a job to the cron scheduler and commits it or withdraws; the jobs fire,
and a firing whose guard is true calls `on_message` of an entity without asking an ACL
(`schedulerStep`).

A firing is for the sender of the registering message when the DID-URL it dispatches to is the
sender's. It is exactly when the sender's DID-URL has the runtime's own DID before its first `#`
(`toUrl_eq_fromUrl_iff`): the target is what follows the `#`, on this runtime, whoever the sender
is. An ACL that lets a foreign sender register has the runtime call one of its own entities
(`foreign_sender_dispatched`).

Main definitions: `SchedulerState`, `schedulerStep`.
Main results: `toUrl_eq_fromUrl_iff`, `foreign_sender_dispatched`.

Scope. The native entities are those of the scheduler, the one kind that has a factory. The times at
which jobs fire are left out, so a run has them in any order.
-/

set_option autoImplicit false
set_option relaxedAutoImplicit false

namespace MaRuntime.Scheduler

open Dispatch Acl Runs

/-! ### The machine -/

/-- A request that the actor has accepted, with the sender of its message. -/
structure Registration where
  fromUrl : String
  request : ParsedRequest

/-- A job of the cron scheduler: the registration that added it, by its place in the order in which
registrations began, and whether the job has run. -/
structure Job where
  attempt : Nat
  fired : Bool

/-- A firing whose guard was true: the registration of its job, and what became of its message. -/
structure Firing where
  registration : Registration
  dispatched : Dispatched

/-- The runtime as dispatches read it, the registrations that are spawned, those that have begun and
the registry they share, the jobs of the cron scheduler, and the firings so far. -/
structure SchedulerState (Uuid : Type) where
  runtime : DispatchCtx
  spawned : List Registration
  registryState : RegistryState Uuid
  begun : List Registration
  jobs : KeyedMap Uuid Job
  firings : List Firing

/-- The steps of the scheduler and of the runtime around it. -/
inductive SchedulerAction (Uuid : Type)
  | update (runtime : DispatchCtx)
  | receive (delivery : Delivery)
  | begin (index : Nat)
  | register (attempt : Nat) (jobId : Uuid)
  | fail (attempt : Nat)
  | commit (attempt : Nat) (jobId : Uuid)
  | remove (jobId : Uuid)
  | fire (jobId : Uuid) (stamp : Stamp)
  | complete (jobId : Uuid)
  | reschedule (jobId next : Uuid)
  | shutdown

variable {Uuid Failure : Type} [DecidableEq Uuid]

/-- A scheduler that has registered nothing. -/
def SchedulerState.start (runtime : DispatchCtx) : SchedulerState Uuid where
  runtime := runtime
  spawned := []
  registryState := .new
  begun := []
  jobs := .empty
  firings := []

section Machine

variable (parseDid : String → Option Did) (normalizePrincipal : String → String)
  (checkCap : AclMap → String → String → Except Failure Unit) (codec : CborCodec)
  (debug : DebugFormat) (messageTypeMessage contentTypeTerm : String)

/-- A message that reaches `on_message` of the scheduler may spawn a registration. -/
def receive (s : SchedulerState Uuid) : Dispatched → SchedulerState Uuid
  | .onMessage entity input =>
    if entity.native then
      match (nativeActor debug codec input).registration with
      | some request => { s with spawned := s.spawned ++ [⟨input.fromUrl, request⟩] }
      | none => s
    else s
  | _ => s

/-- The registration of a job, and the version its guard asks for. -/
def SchedulerState.jobOf (s : SchedulerState Uuid) (jobId : Uuid) :
    Option (Job × Registration × Attempt) :=
  match s.jobs.get jobId with
  | none => none
  | some job =>
    match s.begun[job.attempt]?, s.registryState.attempts[job.attempt]? with
    | some registration, some a => some (job, registration, a)
    | _, _ => none

/-- A job runs: `dispatch_if_active`. -/
def fire (s : SchedulerState Uuid) (jobId : Uuid) (job : Job) (registration : Registration)
    (a : Attempt) (stamp : Stamp) : SchedulerState Uuid :=
  let ran := { s with jobs := s.jobs.insert jobId { job with fired := true } }
  if s.registryState.guardHolds a then
    { ran with
      firings := s.firings ++
        [⟨registration, dispatchScheduled messageTypeMessage contentTypeTerm s.runtime
          registration.request.fragment registration.request.request.content stamp⟩] }
  else ran

def schedulerStep (s : SchedulerState Uuid) :
    SchedulerAction Uuid → Option (SchedulerState Uuid)
  | .update runtime =>
    if runtime.ourDid = s.runtime.ourDid then some { s with runtime := runtime } else none
  | .receive delivery =>
    some (receive codec debug s
      (deliver parseDid normalizePrincipal checkCap codec messageTypeMessage s.runtime delivery))
  | .begin index =>
    match s.spawned[index]? with
    | none => none
    | some registration =>
      (registryStep s.registryState (.beginRegistration registration.request.scheduleKey
        registration.request.request.form)).map fun registryState ↦
          { s with
            spawned := s.spawned.eraseIdx index
            registryState := registryState
            begun := s.begun ++ [registration] }
  | .register attempt jobId =>
    if attempt < s.begun.length ∧ s.jobs.get jobId = none then
      some { s with jobs := s.jobs.insert jobId ⟨attempt, false⟩ }
    else none
  | .fail attempt =>
    (registryStep s.registryState (.rollbackRegistration attempt)).map fun registryState ↦
      { s with registryState := registryState }
  | .commit attempt jobId =>
    (registryStep s.registryState (.commitRegistration attempt jobId)).map fun registryState ↦
      { s with registryState := registryState }
  -- of a job that was replaced, or that was registered too late
  | .remove jobId => some { s with jobs := s.jobs.remove jobId }
  | .fire jobId stamp =>
    match s.jobOf jobId with
    | none => none
    | some (job, registration, a) =>
      if registration.request.request.runsOnce ∧ job.fired then none
      else some (fire messageTypeMessage contentTypeTerm s jobId job registration a stamp)
  | .complete jobId =>
    match s.jobOf jobId with
    | none => none
    | some (job, _, _) =>
      if job.fired then
        (registryStep s.registryState (.complete job.attempt)).map fun registryState ↦
          { s with registryState := registryState }
      else none
  | .reschedule jobId next =>
    match s.jobOf jobId with
    | none => none
    | some (job, registration, a) =>
      if registration.request.request.form = .random ∧ job.fired ∧
          s.registryState.guardHolds a ∧ s.jobs.get next = none then
        some { s with jobs := s.jobs.insert next ⟨job.attempt, false⟩ }
      else none
  | .shutdown =>
    (registryStep s.registryState .deactivateAll).map fun registryState ↦
      { s with registryState := registryState }

/-! ### Where registrations come from -/

/-- The target of a registration is what follows the first `#` of its sender's DID-URL. -/
def Registration.TargetsSender (registration : Registration) : Prop :=
  ∃ base, splitOnce '#' registration.fromUrl = some (base, registration.request.fragment)

/-- What holds of the registrations in every state: they target their senders, and so did the
firings, each of which dispatched to its registration's target on this runtime. -/
structure TargetsSenders (ourDid : String) (s : SchedulerState Uuid) : Prop where
  ownDid : s.runtime.ourDid = ourDid
  spawned : ∀ registration ∈ s.spawned, registration.TargetsSender
  begun : ∀ registration ∈ s.begun, registration.TargetsSender
  firings : ∀ firing ∈ s.firings, firing.registration.TargetsSender ∧
    ∀ entity input, firing.dispatched = .onMessage entity input →
      input.fromUrl = ourDid ++ "#scheduler" ∧
        input.toUrl = ourDid ++ "#" ++ firing.registration.request.fragment

variable {parseDid normalizePrincipal checkCap codec debug messageTypeMessage contentTypeTerm}
  {ourDid : String}

omit [DecidableEq Uuid] in
theorem TargetsSenders.receive {s : SchedulerState Uuid} (h : TargetsSenders ourDid s)
    (dispatched : Dispatched) : TargetsSenders ourDid (receive codec debug s dispatched) := by
  cases dispatched with
  | dropped => exact h
  | rootPublish => exact h
  | ping => exact h
  | unknownEntity fragment => exact h
  | remote => exact h
  | refused refusal => exact h
  | onMessage entity input =>
    simp only [Scheduler.receive]
    split_ifs
    · cases hregistration : (nativeActor debug codec input).registration with
      | none => exact h
      | some request =>
        refine ⟨h.ownDid, fun registration hmem ↦ ?_, h.begun, h.firings⟩
        rcases List.mem_append.mp hmem with hold | hnew
        · exact h.spawned registration hold
        · obtain rfl := List.mem_singleton.mp hnew
          obtain ⟨base, hsplit, -⟩ := splitOnce_of_nativeActor hregistration
          exact ⟨base, hsplit⟩
    · exact h

theorem TargetsSenders.fire {s : SchedulerState Uuid} (h : TargetsSenders ourDid s) {jobId : Uuid}
    {job : Job} {registration : Registration} {a : Attempt} (stamp : Stamp)
    (hregistration : registration ∈ s.begun) :
    TargetsSenders ourDid
      (fire messageTypeMessage contentTypeTerm s jobId job registration a stamp) := by
  unfold Scheduler.fire
  dsimp only
  split_ifs
  · refine ⟨h.ownDid, h.spawned, h.begun, fun firing hmem ↦ ?_⟩
    rcases List.mem_append.mp hmem with hold | hnew
    · exact h.firings firing hold
    · obtain rfl := List.mem_singleton.mp hnew
      refine ⟨h.begun registration hregistration, fun entity input hrun ↦ ?_⟩
      simp only [dispatchScheduled] at hrun
      split at hrun
      · cases hrun
      · obtain ⟨-, rfl⟩ := Dispatched.onMessage.inj hrun
        exact ⟨by rw [h.ownDid], by rw [h.ownDid]⟩
  · exact ⟨h.ownDid, h.spawned, h.begun, h.firings⟩

theorem mem_begun_of_jobOf {s : SchedulerState Uuid} {jobId : Uuid} {job : Job}
    {registration : Registration} {a : Attempt} (h : s.jobOf jobId = some (job, registration, a)) :
    registration ∈ s.begun := by
  unfold SchedulerState.jobOf at h
  split at h
  · cases h
  · split at h
    · next hbegun _ =>
      obtain ⟨rfl, hrest⟩ := Prod.mk.inj (Option.some.inj h)
      obtain ⟨rfl, -⟩ := Prod.mk.inj hrest
      exact List.mem_of_getElem? hbegun
    · cases h

omit [DecidableEq Uuid] in
/-- A registration that begins is one that was spawned. -/
theorem TargetsSenders.begin {s : SchedulerState Uuid} (h : TargetsSenders ourDid s) {index : Nat}
    {registration : Registration} (registryState : RegistryState Uuid)
    (hspawned : s.spawned[index]? = some registration) :
    TargetsSenders ourDid
      { s with
        spawned := s.spawned.eraseIdx index
        registryState := registryState
        begun := s.begun ++ [registration] } := by
  refine ⟨h.ownDid, fun other hmem ↦ ?_, fun other hmem ↦ ?_, h.firings⟩
  · exact h.spawned other (List.mem_of_mem_eraseIdx hmem)
  · rcases List.mem_append.mp hmem with hold | hnew
    · exact h.begun other hold
    · obtain rfl := List.mem_singleton.mp hnew
      exact h.spawned other (List.mem_of_getElem? hspawned)

omit [DecidableEq Uuid] in
/-- The invariant does not depend on the registry and the jobs. -/
theorem TargetsSenders.congr {s t : SchedulerState Uuid} (h : TargetsSenders ourDid s)
    (hruntime : t.runtime = s.runtime) (hspawned : t.spawned = s.spawned)
    (hbegun : t.begun = s.begun) (hfirings : t.firings = s.firings) : TargetsSenders ourDid t where
  ownDid := hruntime ▸ h.ownDid
  spawned := hspawned ▸ h.spawned
  begun := hbegun ▸ h.begun
  firings := hfirings ▸ h.firings

theorem TargetsSenders.step {s t : SchedulerState Uuid} {action : SchedulerAction Uuid}
    (h : TargetsSenders ourDid s)
    (hstep : schedulerStep parseDid normalizePrincipal checkCap codec debug messageTypeMessage
      contentTypeTerm s action = some t) : TargetsSenders ourDid t := by
  cases action with
  | update runtime =>
    simp only [schedulerStep] at hstep
    split_ifs at hstep with hdid
    obtain rfl := Option.some.inj hstep
    exact ⟨hdid.trans h.ownDid, h.spawned, h.begun, h.firings⟩
  | receive delivery =>
    obtain rfl := Option.some.inj hstep
    exact h.receive _
  | begin index =>
    simp only [schedulerStep] at hstep
    cases hspawned : s.spawned[index]? with
    | none =>
      rw [hspawned] at hstep
      cases hstep
    | some registration =>
      rw [hspawned] at hstep
      obtain ⟨registryState, -, rfl⟩ := Option.map_eq_some_iff.mp hstep
      exact h.begin registryState hspawned
  | register attempt jobId =>
    simp only [schedulerStep] at hstep
    split_ifs at hstep
    obtain rfl := Option.some.inj hstep
    exact h.congr rfl rfl rfl rfl
  | fail attempt =>
    obtain ⟨registryState, -, rfl⟩ := Option.map_eq_some_iff.mp hstep
    exact h.congr rfl rfl rfl rfl
  | commit attempt jobId =>
    obtain ⟨registryState, -, rfl⟩ := Option.map_eq_some_iff.mp hstep
    exact h.congr rfl rfl rfl rfl
  | remove jobId =>
    obtain rfl := Option.some.inj hstep
    exact h.congr rfl rfl rfl rfl
  | fire jobId stamp =>
    simp only [schedulerStep] at hstep
    cases hjob : s.jobOf jobId with
    | none =>
      rw [hjob] at hstep
      cases hstep
    | some found =>
      obtain ⟨job, registration, a⟩ := found
      rw [hjob] at hstep
      dsimp only at hstep
      split_ifs at hstep
      obtain rfl := Option.some.inj hstep
      exact h.fire stamp (mem_begun_of_jobOf hjob)
  | complete jobId =>
    simp only [schedulerStep] at hstep
    cases hjob : s.jobOf jobId with
    | none =>
      rw [hjob] at hstep
      cases hstep
    | some found =>
      rw [hjob] at hstep
      dsimp only at hstep
      split_ifs at hstep
      obtain ⟨registryState, -, rfl⟩ := Option.map_eq_some_iff.mp hstep
      exact h.congr rfl rfl rfl rfl
  | reschedule jobId next =>
    simp only [schedulerStep] at hstep
    cases hjob : s.jobOf jobId with
    | none =>
      rw [hjob] at hstep
      cases hstep
    | some found =>
      rw [hjob] at hstep
      dsimp only at hstep
      split_ifs at hstep
      obtain rfl := Option.some.inj hstep
      exact h.congr rfl rfl rfl rfl
  | shutdown =>
    obtain rfl := Option.some.inj hstep
    exact h.congr rfl rfl rfl rfl

theorem targetsSenders_of_run {runtime : DispatchCtx} {s : SchedulerState Uuid}
    {actions : List (SchedulerAction Uuid)}
    (h : Run (schedulerStep parseDid normalizePrincipal checkCap codec debug messageTypeMessage
      contentTypeTerm) (.start runtime) actions s) : TargetsSenders runtime.ourDid s :=
  h.invariant (TargetsSenders runtime.ourDid) (fun _ _ _ hs _ hstep ↦ hs.step hstep)
    ⟨rfl, by simp [SchedulerState.start], by simp [SchedulerState.start],
      by simp [SchedulerState.start]⟩

/-- The text of a DID-URL on this runtime determines its parts, when the own DID is cut off at the
first `#`. -/
theorem append_eq_iff_of_splitOnce {fromUrl base fragment : String}
    (h : splitOnce '#' fromUrl = some (base, fragment)) :
    ourDid ++ "#" ++ fragment = fromUrl ↔ base = ourDid := by
  obtain ⟨hchars, -⟩ := splitOnce_eq_some_iff.mp h
  have hurl : fromUrl = base ++ "#" ++ fragment := by
    rw [← String.toList_inj, hchars, String.toList_append, String.toList_append,
      List.append_assoc]
    rfl
  constructor
  · intro heq
    rw [hurl] at heq
    have hlists := congrArg String.toList heq
    simp only [String.toList_append] at hlists
    exact (String.toList_inj.mp (List.append_cancel_right (List.append_cancel_right hlists))).symm
  · rintro rfl
    exact hurl.symm

/-- Assumes: a run of the scheduler from its start, and a firing of the run that calls `on_message`.
The call is from the scheduler, and its DID-URL is that of the sender of the registering message if
and only if the sender's DID-URL has the runtime's own DID before its first `#`. -/
theorem toUrl_eq_fromUrl_iff {runtime : DispatchCtx} {s : SchedulerState Uuid}
    {actions : List (SchedulerAction Uuid)} {firing : Firing} {entity : EntityPlugin}
    {input : LocalMessage}
    (h : Run (schedulerStep parseDid normalizePrincipal checkCap codec debug messageTypeMessage
      contentTypeTerm) (.start runtime) actions s)
    (hfiring : firing ∈ s.firings) (hrun : firing.dispatched = .onMessage entity input) :
    input.fromUrl = runtime.ourDid ++ "#scheduler" ∧
      (input.toUrl = firing.registration.fromUrl ↔
        (splitOnce '#' firing.registration.fromUrl).map Prod.fst = some runtime.ourDid) := by
  obtain ⟨⟨base, hsplit⟩, hdispatched⟩ := (targetsSenders_of_run h).firings firing hfiring
  obtain ⟨hfrom, hto⟩ := hdispatched entity input hrun
  refine ⟨hfrom, ?_⟩
  rw [hto, append_eq_iff_of_splitOnce hsplit, hsplit]
  simp

end Machine

/-! ### A local and a foreign sender -/

/-- The CBOR array `["tick", ":interval", "30m", ":tick"]`. -/
def tickRequest : Bytes :=
  [0x84, 0x64, 0x74, 0x69, 0x63, 0x6b, 0x69, 0x3a, 0x69, 0x6e, 0x74, 0x65, 0x72, 0x76, 0x61, 0x6c,
    0x63, 0x33, 0x30, 0x6d, 0x65, 0x3a, 0x74, 0x69, 0x63, 0x6b]

/-- A codec of that array and of the texts `:tick` and `:ok`. -/
def tickCodec : CborCodec where
  decode content :=
    if content = tickRequest then
      some (.array [.text "tick", .text ":interval", .text "30m", .text ":tick"])
    else none
  encode
    | .array [.text "tick", .text ":interval", .text "30m", .text ":tick"] => some tickRequest
    | .text ":tick" => some [0x65, 0x3a, 0x74, 0x69, 0x63, 0x6b]
    | .text ":ok" => some [0x63, 0x3a, 0x6f, 0x6b]
    | _ => none

/-- A runtime with the scheduler and a room, where the scheduler's ACL allows everyone
everything. -/
def openRuntime : DispatchCtx where
  ourDid := "did:ma:us"
  entityRegistry := ⟨[("scheduler", ⟨"scheduler", "open", none, true⟩),
    ("room", ⟨"room", "closed", none, false⟩)]⟩
  aclCache :=
    ⟨[("acls.open", ⟨[("*", .allow ["*"])], by decide⟩), ("acls.closed", ⟨[], by decide⟩)]⟩
  groupCache := .empty

/-- A sender registers the schedule `tick`, and its job fires. -/
def registerAndFire (fromUrl : String) : List (SchedulerAction Nat) :=
  [.receive (.inbox ⟨"m1", fromUrl, "did:ma:us#scheduler", 0, 0, none, "message", "term",
      tickRequest⟩),
    .begin 0, .register 0 7, .commit 0 7, .fire 7 ⟨"s1", 1800⟩]

/-- The machine of these runs. -/
def openStep : SchedulerState Nat → SchedulerAction Nat → Option (SchedulerState Nat) :=
  schedulerStep parseDidUrl principalOf checkCapByEntry tickCodec ⟨fun _ ↦ "", id, fun _ ↦ ""⟩
    "message" "term"

/-- The schedule of a room of this runtime is dispatched to the room. -/
theorem toUrl_eq_fromUrl_iff_room :
    ∃ s firing entity input,
      Run openStep (.start openRuntime) (registerAndFire "did:ma:us#room") s ∧
      firing ∈ s.firings ∧ firing.dispatched = .onMessage entity input ∧
      firing.registration.fromUrl = "did:ma:us#room" ∧ input.toUrl = "did:ma:us#room" := by
  have hrun : Run openStep (.start openRuntime) (registerAndFire "did:ma:us#room") _ :=
    run_of_execute rfl
  refine ⟨_, _, _, _, hrun, List.mem_cons_self, rfl, rfl, ?_⟩
  exact (toUrl_eq_fromUrl_iff hrun List.mem_cons_self rfl).2.mpr (by decide)

/-- A sender on another runtime has a schedule dispatched to an entity of this one, whose ACL allows
nobody anything. -/
theorem foreign_sender_dispatched :
    ∃ s firing entity input,
      Run openStep (.start openRuntime) (registerAndFire "did:ma:other#room") s ∧
      firing ∈ s.firings ∧ firing.dispatched = .onMessage entity input ∧
      firing.registration.fromUrl = "did:ma:other#room" ∧
      input.fromUrl = "did:ma:us#scheduler" ∧ input.toUrl = "did:ma:us#room" := by
  have hrun : Run openStep (.start openRuntime) (registerAndFire "did:ma:other#room") _ :=
    run_of_execute rfl
  exact ⟨_, _, _, _, hrun, List.mem_cons_self, rfl, rfl, rfl, rfl⟩

end MaRuntime.Scheduler
