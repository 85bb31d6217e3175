import MaRuntime.Scheduler.Request

/-!
# Keys of schedules

The key of a schedule is the sender's DID-URL, a hyphen and the schedule's name. It is meant to
stand for the sender and the name, but both may have hyphens in them, so that `did:ma:x#a` with the
name `b-c` and `did:ma:x#a-b` with the name `c` have one key. Two senders with their names have one
key exactly when one DID-URL goes on behind the other with a hyphen and the name makes up for it
(`Collide`).

Over a whole run, a registration by one sender leaves the entries of the others alone when no two
registrations of different senders collide (`keys_identify`). When they do, the later one takes the
place of the earlier one (`registration_superseded_by_other_sender`).

Main definitions: `scheduleKey`, `Collide`, `senderStep`, `Spares`.
Main results: `scheduleKey_inj_iff`, `keys_identify`.
-/

set_option autoImplicit false
set_option relaxedAutoImplicit false

namespace MaRuntime.Scheduler

open Runs

/-! ### The key -/

/-- The key of a sender's schedule of a name. -/
def scheduleKey (fromUrl name : String) : String := fromUrl ++ "-" ++ name

/-- A DID-URL that goes on behind another one with a hyphen, and a name that has the rest of it
before the other name. -/
def Collide (fromUrl name fromUrl' name' : String) : Prop :=
  ∃ rest, fromUrl' = fromUrl ++ "-" ++ rest ∧ name = rest ++ "-" ++ name'

section Keys

variable {fromUrl name fromUrl' name' : String}

/-- The key of a request is that of its sender and a name that is not empty. -/
theorem scheduleKey_of_parseScheduleRequest {debug : DebugFormat} {codec : CborCodec}
    {term : CborValue} {req : ParsedRequest}
    (h : parseScheduleRequest debug codec term fromUrl = .ok req) :
    ∃ name, name ≠ "" ∧ req.scheduleKey = scheduleKey fromUrl name := by
  unfold parseScheduleRequest at h
  split at h
  · obtain ⟨name, hname, h⟩ := bind_eq_ok h
    obtain ⟨type, -, h⟩ := bind_eq_ok h
    obtain ⟨fragment, -, h⟩ := bind_eq_ok h
    obtain ⟨content, -, h⟩ := bind_eq_ok h
    obtain ⟨request, -, h⟩ := bind_eq_ok h
    obtain rfl := Except.ok.inj h
    refine ⟨name, ?_, rfl⟩
    unfold scheduleName at hname
    split at hname
    · split_ifs at hname with hempty
      obtain rfl := Except.ok.inj hname
      exact hempty
    · cases hname
  · cases h
  · cases h

theorem Collide.scheduleKey_eq (h : Collide fromUrl name fromUrl' name') :
    scheduleKey fromUrl name = scheduleKey fromUrl' name' := by
  obtain ⟨rest, rfl, rfl⟩ := h
  simp only [scheduleKey, String.append_assoc]

theorem Collide.ne (h : Collide fromUrl name fromUrl' name') : fromUrl ≠ fromUrl' := by
  obtain ⟨rest, rfl, -⟩ := h
  intro heq
  have hlength := congrArg (fun url ↦ url.toList.length) heq
  simp only [String.toList_append, List.length_append] at hlength
  have hhyphen : "-".toList.length = 1 := rfl
  omega

/-- A DID-URL that is the beginning of another one with the same key collides with it. -/
theorem collide_of_append {chars : List Char} (hfrom : fromUrl'.toList = fromUrl.toList ++ chars)
    (hname : '-' :: name.toList = chars ++ '-' :: name'.toList) (hne : fromUrl ≠ fromUrl') :
    Collide fromUrl name fromUrl' name' := by
  cases chars with
  | nil =>
    rw [List.append_nil] at hfrom
    exact absurd (String.toList_inj.mp hfrom).symm hne
  | cons c rest =>
    obtain ⟨rfl, hrest⟩ := List.cons.inj hname
    refine ⟨String.ofList rest, ?_, ?_⟩
    · rw [← String.toList_inj, hfrom]
      simp [String.toList_append]
    · rw [← String.toList_inj, hrest]
      simp [String.toList_append]

/-- Schedules of different senders have one key exactly when they collide. -/
theorem scheduleKey_eq_iff (hne : fromUrl ≠ fromUrl') :
    scheduleKey fromUrl name = scheduleKey fromUrl' name' ↔
      Collide fromUrl name fromUrl' name' ∨ Collide fromUrl' name' fromUrl name := by
  constructor
  · intro h
    have hchars :
        fromUrl.toList ++ '-' :: name.toList = fromUrl'.toList ++ '-' :: name'.toList := by
      have hlist := congrArg String.toList h
      simpa [scheduleKey, String.toList_append] using hlist
    rcases List.append_eq_append_iff.mp hchars with ⟨chars, hfrom, hname⟩ | ⟨chars, hfrom, hname⟩
    · exact .inl (collide_of_append hfrom hname hne)
    · exact .inr (collide_of_append hfrom hname hne.symm)
  · rintro (h | h)
    · exact h.scheduleKey_eq
    · exact h.scheduleKey_eq.symm

/-- A key stands for the sender and the name exactly where the two do not collide with the other
two. -/
theorem scheduleKey_inj_iff :
    (scheduleKey fromUrl name = scheduleKey fromUrl' name' ↔ fromUrl = fromUrl' ∧ name = name') ↔
      ¬Collide fromUrl name fromUrl' name' ∧ ¬Collide fromUrl' name' fromUrl name := by
  by_cases hfrom : fromUrl = fromUrl'
  · subst hfrom
    have hname : scheduleKey fromUrl name = scheduleKey fromUrl name' ↔ name = name' := by
      unfold scheduleKey
      exact String.append_right_inj _
    refine iff_of_true ?_ ⟨fun h ↦ h.ne rfl, fun h ↦ h.ne rfl⟩
    rw [hname]
    exact (and_iff_right rfl).symm
  · rw [scheduleKey_eq_iff hfrom, ← not_or]
    constructor
    · intro h hcollide
      exact hfrom (h.mp hcollide).1
    · intro h
      exact iff_of_false h fun heq ↦ hfrom heq.1

end Keys

/-! ### Registrations by several senders -/

/-- The registry, and the sender and the name of each attempt, in the order they began in. -/
structure SenderState (Uuid : Type*) where
  state : RegistryState Uuid
  registrants : List (String × String)

/-- The steps of `RegistryAction`, where a registration begins for a sender and a name. -/
inductive SenderAction (Uuid : Type*)
  | begin (fromUrl name : String) (request : ScheduleRequest)
  | evaluateGuard (attempt : Nat)
  | commit (attempt : Nat) (jobId : Uuid)
  | rollback (attempt : Nat)
  | complete (attempt : Nat)
  | deactivateAll

variable {Uuid : Type*}

namespace SenderAction

def registryAction : SenderAction Uuid → RegistryAction Uuid
  | .begin fromUrl name request => .beginRegistration (scheduleKey fromUrl name) request
  | .evaluateGuard attempt => .evaluateGuard attempt
  | .commit attempt jobId => .commitRegistration attempt jobId
  | .rollback attempt => .rollbackRegistration attempt
  | .complete attempt => .complete attempt
  | .deactivateAll => .deactivateAll

/-- The sender and the name that a step registers. -/
def registers : SenderAction Uuid → List (String × String)
  | .begin fromUrl name _ => [(fromUrl, name)]
  | _ => []

end SenderAction

namespace SenderState

def new : SenderState Uuid := ⟨.new, []⟩

/-- The sender and the name whose registration takes a step. The scheduler's own step has none. -/
def registrant (s : SenderState Uuid) : SenderAction Uuid → Option (String × String)
  | .begin fromUrl name _ => some (fromUrl, name)
  | .evaluateGuard attempt | .commit attempt _ | .rollback attempt | .complete attempt =>
    s.registrants[attempt]?
  | .deactivateAll => none

end SenderState

def senderStep (s : SenderState Uuid) (action : SenderAction Uuid) : Option (SenderState Uuid) :=
  (registryStep s.state action.registryAction).map fun state ↦
    ⟨state, s.registrants ++ action.registers⟩

/-- A registration does not collide with an earlier one of another sender. -/
def Distinct (s : SenderState Uuid) : SenderAction Uuid → Prop
  | .begin fromUrl name _ => ∀ registrant ∈ s.registrants, registrant.1 ≠ fromUrl →
    ¬Collide fromUrl name registrant.1 registrant.2 ∧
      ¬Collide registrant.1 registrant.2 fromUrl name
  | _ => True

/-- A step of a sender's registration leaves the entries of all other senders' registrations as they
are, and the one whose job it replaces is not another sender's. -/
def Spares (s : SenderState Uuid) (action : SenderAction Uuid) (t : SenderState Uuid) : Prop :=
  ∀ sender name, s.registrant action = some (sender, name) → ∀ other ∈ s.registrants,
    other.1 ≠ sender → scheduleKey other.1 other.2 ≠ scheduleKey sender name ∧
      t.state.registry.jobs.get (scheduleKey other.1 other.2) =
        s.state.registry.jobs.get (scheduleKey other.1 other.2)

/-- Each attempt has the key of its sender and name, and no two senders share a key. -/
structure OwnKeys (s : SenderState Uuid) : Prop where
  keys : s.state.attempts.map Attempt.scheduleKey =
    s.registrants.map fun registrant ↦ scheduleKey registrant.1 registrant.2
  own : ∀ first ∈ s.registrants, ∀ second ∈ s.registrants,
    scheduleKey first.1 first.2 = scheduleKey second.1 second.2 → first.1 = second.1

theorem ownKeys_new : OwnKeys (.new : SenderState Uuid) := by
  refine ⟨rfl, fun first hfirst ↦ ?_⟩
  cases hfirst

section Steps

variable {s t : SenderState Uuid} {action : SenderAction Uuid} {sender name key : String}

theorem attempts_of_senderStep (h : senderStep s action = some t) :
    t.registrants = s.registrants ++ action.registers ∧
      t.state.attempts.map Attempt.scheduleKey = s.state.attempts.map Attempt.scheduleKey ++
        action.registers.map fun registrant ↦ scheduleKey registrant.1 registrant.2 := by
  obtain ⟨state, hstate, rfl⟩ := Option.map_eq_some_iff.mp h
  refine ⟨rfl, ?_⟩
  rcases registryStep_cases hstate with ⟨key, request, haction, hattempts, -⟩ |
    ⟨hbegin, hattempts, -⟩
  · cases action with
    | begin fromUrl name form =>
      obtain ⟨rfl, -⟩ := RegistryAction.beginRegistration.inj haction
      simp [hattempts, SenderAction.registers]
    | _ => cases haction
  · cases action with
    | begin fromUrl name form => exact absurd rfl (hbegin _ _)
    | _ => simp [hattempts, SenderAction.registers]

theorem OwnKeys.step (hs : OwnKeys s) (hdistinct : Distinct s action)
    (h : senderStep s action = some t) : OwnKeys t := by
  obtain ⟨hregistrants, hattempts⟩ := attempts_of_senderStep h
  refine ⟨by rw [hattempts, hregistrants, hs.keys, List.map_append], ?_⟩
  rw [hregistrants]
  cases action with
  | begin fromUrl name form =>
    have hnew (registrant : String × String) (hmem : registrant ∈ s.registrants)
        (hkey : scheduleKey registrant.1 registrant.2 = scheduleKey fromUrl name) :
        registrant.1 = fromUrl := by
      by_contra hne
      obtain ⟨hcollide, hcollide'⟩ := hdistinct registrant hmem hne
      exact ((scheduleKey_eq_iff hne).mp hkey).elim hcollide' hcollide
    intro first hfirst second hsecond hkey
    rcases List.mem_append.mp hfirst with hfirst | hfirst
    · rcases List.mem_append.mp hsecond with hsecond | hsecond
      · exact hs.own first hfirst second hsecond hkey
      · obtain rfl := List.mem_singleton.mp hsecond
        exact hnew first hfirst hkey
    · obtain rfl := List.mem_singleton.mp hfirst
      rcases List.mem_append.mp hsecond with hsecond | hsecond
      · exact (hnew second hsecond hkey.symm).symm
      · obtain rfl := List.mem_singleton.mp hsecond
        rfl
  | _ => simpa [SenderAction.registers] using hs.own

/-- The key of an attempt is that of its sender and name. -/
theorem OwnKeys.attempt (hs : OwnKeys s) {index : Nat} {a : Attempt}
    (ha : s.state.attempts[index]? = some a) :
    s.registrants[index]?.map (fun registrant ↦ scheduleKey registrant.1 registrant.2) =
      some a.scheduleKey := by
  have hkey := congrArg (·[index]?) hs.keys
  simp only [List.getElem?_map, ha, Option.map_some] at hkey
  exact hkey.symm

theorem get_rollbackRegistration_of_ne {registry : ScheduleRegistry Uuid} {own : String}
    (hne : key ≠ own) (version : UInt64) :
    (registry.rollbackRegistration own version).jobs.get key = registry.jobs.get key := by
  unfold ScheduleRegistry.rollbackRegistration
  split_ifs
  · exact KeyedMap.get_remove_of_ne _ hne
  · rfl

theorem get_commitRegistration_of_ne {registry : ScheduleRegistry Uuid} {own : String}
    (hne : key ≠ own) (version : UInt64) (jobId : Uuid) :
    (registry.commitRegistration own version jobId).1.jobs.get key = registry.jobs.get key := by
  unfold ScheduleRegistry.commitRegistration
  split_ifs
  · exact KeyedMap.get_insert_of_ne _ _ hne
  · rfl

/-- A step of a registration changes the entry of its own key at most. -/
theorem OwnKeys.get_of_ne (hs : OwnKeys s) (h : senderStep s action = some t)
    (hsender : s.registrant action = some (sender, name)) (hne : key ≠ scheduleKey sender name) :
    t.state.registry.jobs.get key = s.state.registry.jobs.get key := by
  obtain ⟨state, hstate, rfl⟩ := Option.map_eq_some_iff.mp h
  have hown {index : Nat} {a : Attempt} (ha : s.state.attempts[index]? = some a)
      (hindex : s.registrants[index]? = some (sender, name)) : key ≠ a.scheduleKey := by
    have hkey := hs.attempt ha
    rw [hindex, Option.map_some, Option.some.injEq] at hkey
    rwa [← hkey]
  cases action with
  | begin fromUrl name' form =>
    obtain ⟨rfl, rfl⟩ := Prod.mk.inj (Option.some.inj hsender)
    obtain rfl := Option.some.inj hstate
    exact KeyedMap.get_insert_of_ne _ _ hne
  | evaluateGuard attempt =>
    obtain ⟨a, -, rfl⟩ := Option.map_eq_some_iff.mp hstate
    rfl
  | commit attempt jobId =>
    obtain ⟨a, ha, rfl⟩ := Option.map_eq_some_iff.mp hstate
    exact get_commitRegistration_of_ne (hown ha hsender) a.version jobId
  | rollback attempt =>
    obtain ⟨a, ha, rfl⟩ := Option.map_eq_some_iff.mp hstate
    exact get_rollbackRegistration_of_ne (hown ha hsender) a.version
  | complete attempt =>
    obtain ⟨a, ha, rfl⟩ := Option.map_eq_some_iff.mp hstate
    exact get_rollbackRegistration_of_ne (hown (Option.filter_eq_some_iff.mp ha).1 hsender)
      a.version
  | deactivateAll => cases hsender

/-- The sender and name of a step are those of an attempt, or of one that begins. -/
theorem mem_registrants_of_senderStep (h : senderStep s action = some t)
    (hsender : s.registrant action = some (sender, name)) : (sender, name) ∈ t.registrants := by
  obtain ⟨hregistrants, -⟩ := attempts_of_senderStep h
  rw [hregistrants]
  cases action with
  | begin fromUrl name' form =>
    obtain ⟨rfl, rfl⟩ := Prod.mk.inj (Option.some.inj hsender)
    exact List.mem_append_right _ List.mem_cons_self
  | deactivateAll => cases hsender
  | _ => exact List.mem_append_left _ (List.mem_of_getElem? hsender)

theorem OwnKeys.spares (hs : OwnKeys s) (hdistinct : Distinct s action)
    (h : senderStep s action = some t) : Spares s action t := by
  intro sender name hsender other hother hne
  have hkey : scheduleKey other.1 other.2 ≠ scheduleKey sender name := by
    intro heq
    have hmem : other ∈ t.registrants := by
      rw [(attempts_of_senderStep h).1]
      exact List.mem_append_left _ hother
    exact hne ((hs.step hdistinct h).own other hmem _ (mem_registrants_of_senderStep h hsender) heq)
  exact ⟨hkey, hs.get_of_ne h hsender hkey⟩

end Steps

/-- A key stands for a sender and a name exactly where they do not collide, and along a run without
collisions each registration spares the schedules of all other senders. -/
theorem keys_identify {actions : List (SenderAction Uuid)} {u : SenderState Uuid}
    (h : GuardedRun senderStep Distinct .new actions u) :
    (∀ fromUrl name fromUrl' name',
      (scheduleKey fromUrl name = scheduleKey fromUrl' name' ↔
        fromUrl = fromUrl' ∧ name = name') ↔
        ¬Collide fromUrl name fromUrl' name' ∧ ¬Collide fromUrl' name' fromUrl name) ∧
      ∀ before action after s t, actions = before ++ action :: after →
        Run senderStep .new before s → senderStep s action = some t → Spares s action t := by
  refine ⟨fun _ _ _ _ ↦ scheduleKey_inj_iff, ?_⟩
  rintro before action after s t rfl hs hstep
  obtain ⟨hbefore, hdistinct, -⟩ := h.cut_cons hs
  have hown : OwnKeys s :=
    hbefore.invariant OwnKeys (fun _ _ _ hs hdistinct hstep ↦ hs.step hdistinct hstep) ownKeys_new
  exact hown.spares hdistinct hstep

/-- Two senders with a schedule of the same name. -/
def twoSenders : List (SenderAction ℕ) :=
  [.begin "did:ma:x#a" "daily" .cron, .begin "did:ma:x#b" "daily" .cron]

theorem keys_identify_twoSenders :
    (∀ fromUrl name fromUrl' name',
      (scheduleKey fromUrl name = scheduleKey fromUrl' name' ↔
        fromUrl = fromUrl' ∧ name = name') ↔
        ¬Collide fromUrl name fromUrl' name' ∧ ¬Collide fromUrl' name' fromUrl name) ∧
      ∀ before action after s t, twoSenders = before ++ action :: after →
        Run senderStep .new before s → senderStep s action = some t → Spares s action t := by
  have hfirst : Distinct (.new : SenderState ℕ) (.begin "did:ma:x#a" "daily" .cron) := by
    intro registrant hmem
    cases hmem
  have hkeys : scheduleKey "did:ma:x#a" "daily" ≠ scheduleKey "did:ma:x#b" "daily" := by decide
  refine keys_identify (.cons hfirst rfl (.cons ?_ rfl (.nil _)))
  intro registrant hmem _
  obtain rfl := List.mem_singleton.mp hmem
  exact ⟨fun hcollide ↦ hkeys hcollide.scheduleKey_eq.symm,
    fun hcollide ↦ hkeys hcollide.scheduleKey_eq⟩

/-- A codec that encodes everything in the same way. -/
def constantCodec : CborCodec := ⟨fun _ ↦ none, fun _ ↦ some []⟩

/-- A request for a schedule of a name. -/
def cronRequest (name : String) : CborValue :=
  .array [.text name, .text ":cron", .text "0 0 7 * * *", .text ":tick"]

/-- Two senders whose requests are accepted have one key for different names, and the registration
of one deactivates the schedule of the other and takes its job for the one to replace. -/
theorem registration_superseded_by_other_sender :
    (∃ first second, parseScheduleRequest ⟨fun _ ↦ "", id, fun _ ↦ ""⟩ constantCodec
          (cronRequest "b-c") "did:ma:x#a" = .ok first ∧
        parseScheduleRequest ⟨fun _ ↦ "", id, fun _ ↦ ""⟩ constantCodec
          (cronRequest "c") "did:ma:x#a-b" = .ok second ∧
        first.scheduleKey = scheduleKey "did:ma:x#a" "b-c" ∧
        second.scheduleKey = scheduleKey "did:ma:x#a-b" "c" ∧
        first.scheduleKey = second.scheduleKey) ∧
      ∃ s t, Run senderStep (.new : SenderState ℕ)
          [.begin "did:ma:x#a" "b-c" .cron, .commit 0 7] s ∧
        senderStep s (.begin "did:ma:x#a-b" "c" .cron) = some t ∧
        s.state.registry.activeGuard (scheduleKey "did:ma:x#a" "b-c") 1 = true ∧
        t.state.registry.activeGuard (scheduleKey "did:ma:x#a" "b-c") 1 = false ∧
        (s.state.registry.beginRegistration (scheduleKey "did:ma:x#a-b" "c")).2.previousJob =
          some 7 :=
  ⟨⟨_, _, rfl, rfl, rfl, rfl, by decide⟩, _, _, run_of_execute rfl, rfl, by decide, by decide,
    by decide⟩

end MaRuntime.Scheduler
