import Mathlib.Data.List.Basic
import Mathlib.Data.List.Infix
import MaRuntime.Library.Runs
import MaRuntime.Scheduler.Registry

/-!
# Strict latest-wins of schedules

Registration attempts run as independent tasks over one `ScheduleRegistry`. The machine
`registryStep` takes their steps, and those of the jobs they leave behind, in any order: an attempt
begins, a job asks its guard, an attempt commits or rolls back, a one-shot job completes, the
scheduler deactivates every schedule. An attempt keeps its version for good, so its guard can be
asked in every later state (`guardHolds`).

`StrictLatestWins` says that a retired attempt's guard stays false, where an attempt is retired by a
later registration of its key or by the removal of its entry (`Retires`), and that no two attempts
of a key have a true guard at once. The registry keeps it in exactly those runs in which every
registration takes a version above all earlier ones of its key (`strictLatestWins_iff`), and a
registration does so exactly in the states of `FreshVersion`: the version after the entry's one is
fresh unless versions are used up, and for a key without an entry the version one is fresh only if
the key was never registered.

Main definitions: `registryStep`, `Retires`, `StrictLatestWins`, `FreshVersion`.
Main results: `strictLatestWins_iff`, `strictLatestWins_fails_after_rollback`.

Scope. Registrations that are not one-shot have no completion. What a job does when its guard is
true is left out, as are the cron scheduler's own jobs.
-/

set_option autoImplicit false
set_option relaxedAutoImplicit false

namespace MaRuntime.Scheduler

open Runs

/-! ### The machine -/

/-- The forms of a schedule request. -/
inductive ScheduleRequest
  | cron
  | interval
  | at
  | in
  | random
deriving DecidableEq

/-- One-shot requests are the ones whose job is given an `on_complete` callback. -/
def ScheduleRequest.oneShot : ScheduleRequest → Bool
  | .at | .in => true
  | .cron | .interval | .random => false

/-- A registration task: what it registers, and the version it began with. -/
structure Attempt where
  scheduleKey : String
  request : ScheduleRequest
  version : UInt64
deriving DecidableEq

/-- The registry, and the attempts in the order they began in. -/
structure RegistryState (Uuid : Type*) where
  registry : ScheduleRegistry Uuid
  attempts : List Attempt

/-- The steps of registration tasks, of the jobs they left behind, and of the scheduler. A task is
named by its place in the order of beginning. -/
inductive RegistryAction (Uuid : Type*)
  | beginRegistration (scheduleKey : String) (request : ScheduleRequest)
  | evaluateGuard (attempt : Nat)
  | commitRegistration (attempt : Nat) (jobId : Uuid)
  | rollbackRegistration (attempt : Nat)
  | complete (attempt : Nat)
  | deactivateAll

variable {Uuid : Type*}

namespace RegistryState

/-- The state a scheduler starts in. -/
def new : RegistryState Uuid := ⟨.new, []⟩

/-- Whether the guard of an attempt is true. -/
def guardHolds (s : RegistryState Uuid) (a : Attempt) : Bool :=
  s.registry.activeGuard a.scheduleKey a.version

/-- Whether an attempt on a key has begun. -/
def Registered (s : RegistryState Uuid) (scheduleKey : String) : Prop :=
  ∃ a ∈ s.attempts, a.scheduleKey = scheduleKey

end RegistryState

/-- One step, atomic under the registry's lock. -/
def registryStep (s : RegistryState Uuid) :
    RegistryAction Uuid → Option (RegistryState Uuid)
  | .beginRegistration scheduleKey request =>
    let (registry, registration) := s.registry.beginRegistration scheduleKey
    some ⟨registry, s.attempts ++ [⟨scheduleKey, request, registration.version⟩]⟩
  | .evaluateGuard attempt => s.attempts[attempt]?.map fun _ ↦ s
  | .commitRegistration attempt jobId => s.attempts[attempt]?.map fun a ↦
    { s with registry := (s.registry.commitRegistration a.scheduleKey a.version jobId).1 }
  | .rollbackRegistration attempt => s.attempts[attempt]?.map fun a ↦
    { s with registry := s.registry.rollbackRegistration a.scheduleKey a.version }
  | .complete attempt => (s.attempts[attempt]?.filter fun a ↦ a.request.oneShot).map fun a ↦
    { s with registry := s.registry.rollbackRegistration a.scheduleKey a.version }
  | .deactivateAll => some { s with registry := s.registry.deactivateAll }

/-! ### The property and the condition -/

/-- A step from `s` to `t` retires the attempts of a key: it registers the key again, or it removes
the entry of the key, which is the entry of the last of these attempts. -/
def Retires (s : RegistryState Uuid) (action : RegistryAction Uuid) (t : RegistryState Uuid)
    (scheduleKey : String) : Prop :=
  (∃ request, action = .beginRegistration scheduleKey request) ∨
    (s.registry.versionAt scheduleKey ≠ none ∧ t.registry.versionAt scheduleKey = none)

/-- At most one attempt of each key has a guard that is true. -/
def OneGuardPerKey (s : RegistryState Uuid) : Prop :=
  ∀ (i j : Nat) (a b : Attempt), s.attempts[i]? = some a → s.attempts[j]? = some b →
    a.scheduleKey = b.scheduleKey → s.guardHolds a = true → s.guardHolds b = true → i = j

/-- Latest-wins along a list of actions from a state: an attempt that one of them retires
has a false guard in every later state, and in every state at most one attempt of a key has
a true guard. -/
structure StrictLatestWins (start : RegistryState Uuid) (actions : List (RegistryAction Uuid)) :
    Prop where
  retired : ∀ before action middle after s t u a,
    actions = before ++ action :: (middle ++ after) → Run registryStep start before s →
    registryStep s action = some t → Run registryStep t middle u →
    a ∈ s.attempts → Retires s action t a.scheduleKey → u.guardHolds a = false
  atMostOne : ∀ before after s,
    actions = before ++ after → Run registryStep start before s → OneGuardPerKey s

/-- A registration takes a version that no attempt of its key had: the key's entry does not
have the last version, or there is no entry and the key was never registered. Other actions
take no version. -/
def FreshVersion (s : RegistryState Uuid) : RegistryAction Uuid → Prop
  | .beginRegistration scheduleKey _ =>
    match s.registry.versionAt scheduleKey with
    | some version => version ≠ u64Max
    | none => ¬s.Registered scheduleKey
  | _ => True

/-! ### What a step does -/

/-- Every step but a registration keeps the attempts, and leaves each key its version or none. -/
theorem registryStep_cases {s t : RegistryState Uuid} {action : RegistryAction Uuid}
    (h : registryStep s action = some t) :
    (∃ scheduleKey request, action = .beginRegistration scheduleKey request ∧
      t.attempts = s.attempts ++ [⟨scheduleKey, request, s.registry.nextVersion scheduleKey⟩] ∧
      ∀ key, t.registry.versionAt key =
        if key = scheduleKey then some (s.registry.nextVersion scheduleKey)
        else s.registry.versionAt key) ∨
    ((∀ scheduleKey request, action ≠ .beginRegistration scheduleKey request) ∧
      t.attempts = s.attempts ∧
      ∀ key, t.registry.versionAt key = none ∨
        t.registry.versionAt key = s.registry.versionAt key) := by
  have hrollback : ∀ a : Attempt, ∀ key,
      (s.registry.rollbackRegistration a.scheduleKey a.version).versionAt key = none ∨
        (s.registry.rollbackRegistration a.scheduleKey a.version).versionAt key =
          s.registry.versionAt key := by
    intro a key
    rw [ScheduleRegistry.versionAt_rollbackRegistration]
    split_ifs
    · exact .inl rfl
    · exact .inr rfl
  cases action with
  | beginRegistration scheduleKey request =>
    obtain rfl := Option.some.inj h
    exact .inl ⟨scheduleKey, request, rfl, rfl, s.registry.versionAt_beginRegistration scheduleKey⟩
  | evaluateGuard attempt =>
    obtain ⟨a, -, rfl⟩ := Option.map_eq_some_iff.mp h
    exact .inr ⟨by simp, rfl, fun _ ↦ .inr rfl⟩
  | commitRegistration attempt jobId =>
    obtain ⟨a, -, rfl⟩ := Option.map_eq_some_iff.mp h
    exact .inr ⟨by simp, rfl, fun key ↦ .inr (by simp)⟩
  | rollbackRegistration attempt =>
    obtain ⟨a, -, rfl⟩ := Option.map_eq_some_iff.mp h
    exact .inr ⟨by simp, rfl, hrollback a⟩
  | complete attempt =>
    obtain ⟨a, -, rfl⟩ := Option.map_eq_some_iff.mp h
    exact .inr ⟨by simp, rfl, hrollback a⟩
  | deactivateAll =>
    obtain rfl := Option.some.inj h
    exact .inr ⟨by simp, rfl, fun _ ↦ .inl rfl⟩

theorem attempts_subset {s t : RegistryState Uuid} {action : RegistryAction Uuid}
    (h : registryStep s action = some t) : s.attempts ⊆ t.attempts := by
  obtain ⟨_, _, _, hattempts, _⟩ | ⟨_, hattempts, _⟩ := registryStep_cases h
  · rw [hattempts]
    exact List.subset_append_left _ _
  · rw [hattempts]
    exact List.Subset.refl _

theorem attempts_subset_of_run {s t : RegistryState Uuid} {actions : List (RegistryAction Uuid)}
    (h : Run registryStep s actions t) : s.attempts ⊆ t.attempts :=
  h.relates (fun s t ↦ s.attempts ⊆ t.attempts) (fun _ ↦ List.Subset.refl _)
    (fun _ _ _ ↦ List.Subset.trans) fun _ _ _ _ ↦ attempts_subset

/-! ### Versions come from attempts -/

/-- The version at a key is that of one of its attempts, and a key that was registered has an
attempt of version one. -/
structure VersionsOfAttempts (s : RegistryState Uuid) : Prop where
  entry : ∀ key version, s.registry.versionAt key = some version →
    ∃ a ∈ s.attempts, a.scheduleKey = key ∧ a.version = version
  first : ∀ key, s.Registered key → ∃ a ∈ s.attempts, a.scheduleKey = key ∧ a.version = 1

theorem versionsOfAttempts_new : VersionsOfAttempts (.new : RegistryState Uuid) where
  entry _ _ h := by cases h
  first _ h := by
    obtain ⟨a, ha, -⟩ := h
    cases ha

theorem VersionsOfAttempts.step {s t : RegistryState Uuid} {action : RegistryAction Uuid}
    (hs : VersionsOfAttempts s) (h : registryStep s action = some t) : VersionsOfAttempts t := by
  have hsubset := attempts_subset h
  obtain ⟨scheduleKey, request, -, hattempts, hversion⟩ | ⟨-, hattempts, hversion⟩ :=
    registryStep_cases h
  · have hnew : ⟨scheduleKey, request, s.registry.nextVersion scheduleKey⟩ ∈ t.attempts := by
      rw [hattempts]
      exact List.mem_append_right _ (List.mem_singleton_self _)
    refine ⟨fun key version hkey ↦ ?_, fun key hkey ↦ ?_⟩
    · rw [hversion] at hkey
      split_ifs at hkey with heq
      · exact ⟨_, hnew, heq.symm, Option.some.inj hkey⟩
      · obtain ⟨a, ha, hvalues⟩ := hs.entry key version hkey
        exact ⟨a, hsubset ha, hvalues⟩
    · by_cases hold : s.Registered key
      · obtain ⟨a, ha, hvalues⟩ := hs.first key hold
        exact ⟨a, hsubset ha, hvalues⟩
      · obtain ⟨a, ha, rfl⟩ := hkey
        rw [hattempts, List.mem_append, List.mem_singleton] at ha
        obtain ha | rfl := ha
        · exact absurd ⟨a, ha, rfl⟩ hold
        · have habsent : s.registry.versionAt scheduleKey = none := by
            refine Option.eq_none_iff_forall_not_mem.mpr fun version hentry ↦ ?_
            obtain ⟨b, hb, hkey, -⟩ := hs.entry scheduleKey version hentry
            exact hold ⟨b, hb, hkey⟩
          exact ⟨_, hnew, rfl, ScheduleRegistry.nextVersion_of_absent habsent⟩
  · refine ⟨fun key version hkey ↦ ?_, fun key hkey ↦ ?_⟩
    · obtain hnone | hsame := hversion key
      · rw [hnone] at hkey
        cases hkey
      · rw [hattempts]
        exact hs.entry key version (hsame ▸ hkey)
    · unfold RegistryState.Registered at hkey
      rw [hattempts] at hkey ⊢
      exact hs.first key hkey

theorem VersionsOfAttempts.run {s t : RegistryState Uuid} {actions : List (RegistryAction Uuid)}
    (hs : VersionsOfAttempts s) (h : Run registryStep s actions t) : VersionsOfAttempts t :=
  h.invariant _ (fun _ _ _ hs _ hstep ↦ hs.step hstep) hs

/-! ### Fresh versions grow -/

/-- The versions of a key's attempts grow in the order of beginning, and the key's entry has none of
the earlier ones. -/
structure VersionsGrow (s : RegistryState Uuid) : Prop where
  growing : s.attempts.Pairwise fun a b ↦ a.scheduleKey = b.scheduleKey → a.version < b.version
  latest : ∀ a ∈ s.attempts, ∀ version,
    s.registry.versionAt a.scheduleKey = some version → a.version ≤ version

theorem versionsGrow_new : VersionsGrow (.new : RegistryState Uuid) where
  growing := .nil
  latest _ _ _ h := by cases h

/-- A fresh version is above those of the key's attempts. -/
theorem VersionsGrow.lt_nextVersion {s : RegistryState Uuid} {scheduleKey : String}
    {request : ScheduleRequest} (hs : VersionsGrow s)
    (hfresh : FreshVersion s (.beginRegistration scheduleKey request)) {a : Attempt}
    (ha : a ∈ s.attempts) (hkey : a.scheduleKey = scheduleKey) :
    a.version < s.registry.nextVersion scheduleKey := by
  subst hkey
  simp only [FreshVersion] at hfresh
  cases hversion : s.registry.versionAt a.scheduleKey with
  | none =>
    rw [hversion] at hfresh
    exact absurd ⟨a, ha, rfl⟩ hfresh
  | some version =>
    rw [hversion] at hfresh
    rw [ScheduleRegistry.nextVersion_of_present hversion]
    exact UInt64.lt_of_le_of_lt (hs.latest a ha version hversion) (lt_saturatingAdd_one hfresh)

theorem VersionsGrow.step {s t : RegistryState Uuid} {action : RegistryAction Uuid}
    (hs : VersionsGrow s) (hfresh : FreshVersion s action) (h : registryStep s action = some t) :
    VersionsGrow t := by
  obtain ⟨scheduleKey, request, rfl, hattempts, hversion⟩ | ⟨-, hattempts, hversion⟩ :=
    registryStep_cases h
  · have hlt : ∀ a ∈ s.attempts, a.scheduleKey = scheduleKey →
        a.version < s.registry.nextVersion scheduleKey :=
      fun a ha ↦ hs.lt_nextVersion hfresh ha
    refine ⟨?_, fun a ha version hkey ↦ ?_⟩
    · rw [hattempts, List.pairwise_append]
      refine ⟨hs.growing, List.pairwise_singleton _ _, fun a ha b hb hkey ↦ ?_⟩
      obtain rfl := List.mem_singleton.mp hb
      exact hlt a ha hkey
    · rw [hattempts, List.mem_append, List.mem_singleton] at ha
      rw [hversion] at hkey
      split_ifs at hkey with heq
      · obtain rfl := Option.some.inj hkey
        obtain ha | rfl := ha
        · exact UInt64.le_of_lt (hlt a ha heq)
        · exact UInt64.le_refl _
      · obtain ha | rfl := ha
        · exact hs.latest a ha version hkey
        · exact absurd rfl heq
  · refine ⟨hattempts ▸ hs.growing, fun a ha version hkey ↦ ?_⟩
    rw [hattempts] at ha
    obtain hnone | hsame := hversion a.scheduleKey
    · rw [hnone] at hkey
      cases hkey
    · exact hs.latest a ha version (hsame ▸ hkey)

theorem VersionsGrow.run {s t : RegistryState Uuid} {actions : List (RegistryAction Uuid)}
    (hs : VersionsGrow s) (h : GuardedRun registryStep FreshVersion s actions t) :
    VersionsGrow t :=
  h.invariant _ (fun _ _ _ hs hfresh hstep ↦ hs.step hfresh hstep) hs

theorem VersionsGrow.oneGuardPerKey {s : RegistryState Uuid} (hs : VersionsGrow s) :
    OneGuardPerKey s := by
  intro i j a b hi hj hkey ha hb
  have hversion : a.version = b.version := by
    have haentry := ScheduleRegistry.activeGuard_iff.mp ha
    have hbentry := ScheduleRegistry.activeGuard_iff.mp hb
    rw [hkey] at haentry
    exact Option.some.inj (haentry.symm.trans hbentry)
  obtain ⟨hilt, rfl⟩ := List.getElem?_eq_some_iff.mp hi
  obtain ⟨hjlt, rfl⟩ := List.getElem?_eq_some_iff.mp hj
  have hgrowing := List.pairwise_iff_getElem.mp hs.growing
  obtain hlt | heq | hgt := Nat.lt_trichotomy i j
  · exact absurd hversion (UInt64.ne_of_lt (hgrowing i j hilt hjlt hlt hkey))
  · exact heq
  · exact absurd hversion.symm (UInt64.ne_of_lt (hgrowing j i hjlt hilt hgt hkey.symm))

/-- A key that was registered and has no entry never has one again, while every version is fresh. -/
theorem versionAt_none_of_run {s t : RegistryState Uuid} {actions : List (RegistryAction Uuid)}
    {scheduleKey : String} (h : GuardedRun registryStep FreshVersion s actions t)
    (hregistered : s.Registered scheduleKey)
    (habsent : s.registry.versionAt scheduleKey = none) :
    t.registry.versionAt scheduleKey = none := by
  refine (h.invariant (fun s ↦ s.Registered scheduleKey ∧
    s.registry.versionAt scheduleKey = none) ?_ ⟨hregistered, habsent⟩).2
  rintro s action t ⟨⟨a, ha, hkey⟩, habsent⟩ hfresh hstep
  refine ⟨⟨a, attempts_subset hstep ha, hkey⟩, ?_⟩
  obtain ⟨other, request, rfl, -, hversion⟩ | ⟨-, -, hversion⟩ := registryStep_cases hstep
  · rw [hversion]
    split_ifs with heq
    · subst heq
      simp only [FreshVersion, habsent] at hfresh
      exact absurd ⟨a, ha, hkey⟩ hfresh
    · exact habsent
  · obtain hnone | hsame := hversion scheduleKey
    · exact hnone
    · rw [hsame, habsent]

/-- A retired attempt's guard stays false, while every version is fresh. -/
theorem VersionsGrow.guardHolds_of_retires {s t u : RegistryState Uuid}
    {action : RegistryAction Uuid} {later : List (RegistryAction Uuid)} {a : Attempt}
    (hs : VersionsGrow s) (hfresh : FreshVersion s action)
    (hstep : registryStep s action = some t)
    (hlater : GuardedRun registryStep FreshVersion t later u) (ha : a ∈ s.attempts)
    (hretires : Retires s action t a.scheduleKey) : u.guardHolds a = false := by
  have ht := hs.step hfresh hstep
  refine Bool.eq_false_iff.mpr fun hguard ↦ ?_
  have hentry : u.registry.versionAt a.scheduleKey = some a.version :=
    ScheduleRegistry.activeGuard_iff.mp hguard
  obtain ⟨request, rfl⟩ | ⟨-, habsent⟩ := hretires
  · have hnew : ⟨a.scheduleKey, request, s.registry.nextVersion a.scheduleKey⟩ ∈ t.attempts := by
      obtain rfl := Option.some.inj hstep
      exact List.mem_append_right _ (List.mem_singleton_self _)
    have hle := (ht.run hlater).latest _ (attempts_subset_of_run hlater.run hnew) _ hentry
    exact absurd (hs.lt_nextVersion hfresh ha rfl) (UInt64.not_lt.mpr hle)
  · have hnone := versionAt_none_of_run hlater ⟨a, attempts_subset hstep ha, rfl⟩ habsent
    rw [hnone] at hentry
    cases hentry

/-- A registration whose version is not fresh leaves two attempts of its key with a true guard. -/
theorem VersionsOfAttempts.not_oneGuardPerKey {s t : RegistryState Uuid}
    {action : RegistryAction Uuid} (hs : VersionsOfAttempts s) (hstale : ¬FreshVersion s action)
    (h : registryStep s action = some t) : ¬OneGuardPerKey t := by
  cases action with
  | beginRegistration scheduleKey request =>
    obtain ⟨a, ha, hkey, hsame⟩ : ∃ a ∈ s.attempts, a.scheduleKey = scheduleKey ∧
        a.version = s.registry.nextVersion scheduleKey := by
      simp only [FreshVersion] at hstale
      cases hversion : s.registry.versionAt scheduleKey with
      | none =>
        rw [hversion, not_not] at hstale
        rw [ScheduleRegistry.nextVersion_of_absent hversion]
        exact hs.first scheduleKey hstale
      | some version =>
        rw [hversion, not_not] at hstale
        subst hstale
        rw [ScheduleRegistry.nextVersion_of_present hversion, saturatingAdd_u64Max]
        exact hs.entry scheduleKey u64Max hversion
    obtain rfl := Option.some.inj h
    obtain ⟨i, hi⟩ := List.mem_iff_getElem?.mp ha
    obtain ⟨hlt, -⟩ := List.getElem?_eq_some_iff.mp hi
    have hversion := s.registry.versionAt_beginRegistration scheduleKey scheduleKey
    rw [if_pos rfl] at hversion
    intro hone
    have heq := hone i s.attempts.length a
      ⟨scheduleKey, request, s.registry.nextVersion scheduleKey⟩
      (by rw [← hi]; exact List.getElem?_append_left hlt) List.getElem?_concat_length hkey
      (ScheduleRegistry.activeGuard_iff.mpr (by rw [hkey, hsame]; exact hversion))
      (ScheduleRegistry.activeGuard_iff.mpr hversion)
    omega
  | evaluateGuard | commitRegistration | rollbackRegistration | complete | deactivateAll =>
    exact absurd trivial hstale

/-! ### Latest-wins -/

/-- Latest-wins holds along a run of the registry if and only if every registration of the run takes
its version where the next version of its key is fresh. -/
theorem strictLatestWins_iff {actions : List (RegistryAction Uuid)} {u : RegistryState Uuid}
    (h : Run registryStep .new actions u) :
    StrictLatestWins .new actions ↔ GuardedRun registryStep FreshVersion .new actions u := by
  constructor
  · intro hwins
    refine (guardedRun_iff_forall_split h).mpr fun before action after s hsplit hs ↦ ?_
    by_contra hstale
    obtain ⟨-, -, t, hstep, -⟩ := GuardedRun.cut_cons (hsplit ▸ h) hs
    refine (versionsOfAttempts_new.run hs).not_oneGuardPerKey hstale hstep ?_
    exact hwins.atMostOne (before ++ [action]) after t (by simp [hsplit])
      (hs.append (.cons trivial hstep (.nil t)))
  · intro hfresh
    refine ⟨fun before action middle after s t v a hsplit hs hstep hv ↦ ?_,
      fun before after s hsplit hs ↦ ?_⟩
    · obtain ⟨hbefore, hguard, t', hstep', hrest⟩ := GuardedRun.cut_cons (hsplit ▸ hfresh) hs
      obtain rfl := Option.some.inj (hstep'.symm.trans hstep)
      obtain ⟨hmiddle, -⟩ := hrest.cut hv
      exact (versionsGrow_new.run hbefore).guardHolds_of_retires hguard hstep hmiddle
    · obtain ⟨hbefore, -⟩ := GuardedRun.cut (hsplit ▸ hfresh) hs
      exact (versionsGrow_new.run hbefore).oneGuardPerKey

/-- A random schedule that is committed, and a registration of its key that takes its place. -/
theorem strictLatestWins_iff_reregistered :
    StrictLatestWins (.new : RegistryState Unit)
      [.beginRegistration "did:ma:abc#duck-quack" .random, .commitRegistration 0 (),
        .beginRegistration "did:ma:abc#duck-quack" .cron] := by
  refine (strictLatestWins_iff (run_of_execute rfl)).mpr ?_
  refine .cons ?_ rfl (.cons trivial rfl (.cons ?_ rfl (.nil _)))
  · rintro ⟨a, ha, -⟩
    cases ha
  · change (1 : UInt64) ≠ u64Max
    decide

/-- A random schedule is superseded by a registration that fails and rolls back, and the next
registration of the key takes the version of the random schedule: its guard is true again. -/
theorem strictLatestWins_fails_after_rollback :
    (∃ u, Run registryStep (.new : RegistryState Unit)
      [.beginRegistration "did:ma:abc#duck-quack" .random,
        .beginRegistration "did:ma:abc#duck-quack" .cron, .rollbackRegistration 1,
        .beginRegistration "did:ma:abc#duck-quack" .cron] u) ∧
    ¬StrictLatestWins (.new : RegistryState Unit)
      [.beginRegistration "did:ma:abc#duck-quack" .random,
        .beginRegistration "did:ma:abc#duck-quack" .cron, .rollbackRegistration 1,
        .beginRegistration "did:ma:abc#duck-quack" .cron] := by
  refine ⟨⟨_, run_of_execute rfl⟩, fun hwins ↦ ?_⟩
  have hdead := hwins.retired [.beginRegistration "did:ma:abc#duck-quack" .random]
    (.beginRegistration "did:ma:abc#duck-quack" .cron)
    [.rollbackRegistration 1, .beginRegistration "did:ma:abc#duck-quack" .cron] [] _ _ _
    ⟨"did:ma:abc#duck-quack", .random, 1⟩ rfl (run_of_execute rfl) rfl (run_of_execute rfl)
    (List.mem_singleton_self _) (.inl ⟨_, rfl⟩)
  exact absurd hdead (by decide)

end MaRuntime.Scheduler
