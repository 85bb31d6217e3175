import MaRuntime.Library.Runs
import MaRuntime.Daemon.Access

/-!
# Claims at the same time

`handle_claim` reads the owners under one lock and decides; then it writes the owners, grants them
everything in the root ACL, and persists them, each under a lock of its own. Requests of several
DIDs can be anywhere between these steps at the same time.

`ClaimTasks` is the runtime with its requests, and `claimStep` is one step of one of them; a request
that runs alone does what `claim` does (`run_claim_alone`). When all requests are answered, one of
them has won and the others have changed nothing (`FirstClaimWins`) if and only if none of them read
that there was no owner between another's reading and writing (`firstClaimWins_iff`). Nothing in the
code prevents that (`two_claims_claimed`).

Main definitions: `ClaimTasks`, `claimStep`, `FirstClaimWins`, `ReadsAlone`.
Main results: `run_claim_alone`, `firstClaimWins_iff`, `two_claims_claimed`.
-/

set_option autoImplicit false
set_option relaxedAutoImplicit false

namespace MaRuntime.Daemon

open Acl Runs

/-- How far a request is: it has found no owners, has written its own, has granted it everything, or
is answered. -/
inductive ClaimPhase
  | unclaimed
  | written
  | granted
  | answered (reply : ClaimReply)
deriving DecidableEq

/-- The runtime, and the request of each DID that has made one. -/
structure ClaimTasks (Cid : Type) where
  shared : AccessState Cid
  requests : KeyedMap String ClaimPhase

/-- The steps of a request: it reads the owners, or proceeds after that. -/
inductive ClaimStep
  | read (owner : String)
  | proceed (owner : String)

section Steps

variable {Cid : Type} (defaults : Config)

/-! ### The steps of a claim -/

/-- What a request decides from the owners it has read. -/
def decideClaim (owners : List String) (owner : String) : ClaimPhase :=
  if owners.contains owner then .answered (.alreadyClaimed owners)
  else if owners ≠ [] then .answered (.conflict owners)
  else .unclaimed

def writeOwners (s : AccessState Cid) (owner : String) : AccessState Cid :=
  { s with config := { s.config with owners := [owner] } }

def grantOwner (s : AccessState Cid) (owner : String) : AccessState Cid :=
  { s with rootAcl := grantOwners s.rootAcl [owner] }

def persistOwner (s : AccessState Cid) (owner : String) : AccessState Cid :=
  { s with
    config :=
      { s.config with disk := some (persistOwnersToConfig defaults s.config.disk [owner]) } }

/-- The next step of a request that was not answered. -/
def proceedClaim (s : AccessState Cid) (owner : String) :
    ClaimPhase → Option (AccessState Cid × ClaimPhase)
  | .unclaimed => some (writeOwners s owner, .written)
  | .written => some (grantOwner s owner, .granted)
  | .granted => some (persistOwner defaults s owner, .answered (.claimed [owner]))
  | .answered _ => none

/-- One step of one request. Each DID makes one. -/
def claimStep (s : ClaimTasks Cid) : ClaimStep → Option (ClaimTasks Cid)
  | .read owner =>
    match s.requests.get owner with
    | some _ => none
    | none =>
      some { s with requests := s.requests.insert owner (decideClaim s.shared.owners owner) }
  | .proceed owner =>
    ((s.requests.get owner).bind (proceedClaim defaults s.shared owner)).map fun done ↦
      ⟨done.1, s.requests.insert owner done.2⟩

/-- A runtime at which nobody has made a request. -/
def ClaimTasks.begin (s : AccessState Cid) : ClaimTasks Cid := ⟨s, .empty⟩

/-! ### What is expected -/

/-- One request has won, and it is as if it had been the only one. -/
structure WonBy (start : AccessState Cid) (s : ClaimTasks Cid) (winner : String) : Prop where
  claimed : s.requests.get winner = some (.answered (.claimed [winner]))
  shared : s.shared = (claim defaults start winner).2
  owners : s.shared.owners = [winner]
  granted : ∀ key, s.shared.rootAcl.get key =
    if key = winner then some .everything else start.rootAcl.get key
  onDisk : s.shared.config.ownersOnDisk = [winner]
  others : ∀ other phase, other ≠ winner → s.requests.get other = some phase →
    phase = .answered (.conflict [winner])

/-- There was no request, or one of them has won. -/
def FirstClaimWins (start : AccessState Cid) (s : ClaimTasks Cid) : Prop :=
  (s.shared = start ∧ ∀ owner, s.requests.get owner = none) ∨
    ∃ winner, WonBy defaults start s winner

/-- Every request is answered. -/
def AllAnswered (s : ClaimTasks Cid) : Prop :=
  ∀ owner phase, s.requests.get owner = some phase → ∃ reply, phase = .answered reply

/-- A request that reads that there are no owners does so while no other is about to
write its own. -/
def ReadsAlone (s : ClaimTasks Cid) : ClaimStep → Prop
  | .read _ => s.shared.owners = [] → ∀ other, s.requests.get other ≠ some .unclaimed
  | .proceed _ => True

variable {defaults} {start : AccessState Cid} {s t u : ClaimTasks Cid} {owner winner : String}
  {phase : ClaimPhase}

/-- A claim of an unclaimed runtime is the three steps one after the other. -/
theorem claim_eq_steps {s : AccessState Cid} (hunclaimed : s.owners = []) :
    claim defaults s owner =
      (.claimed [owner], persistOwner defaults (grantOwner (writeOwners s owner) owner) owner) := by
  have hempty : s.config.owners = [] := hunclaimed
  unfold claim handleClaim
  rw [hempty]
  rfl

/-- A request that runs alone on an unclaimed runtime does what `claim` does. -/
theorem run_claim_alone {s : AccessState Cid} (hunclaimed : s.owners = []) :
    ∃ t, Run (claimStep defaults) (.begin s)
        [.read owner, .proceed owner, .proceed owner, .proceed owner] t ∧
      t.requests.get owner = some (.answered (claim defaults s owner).1) ∧
      t.shared = (claim defaults s owner).2 := by
  have hread : claimStep defaults (.begin s) (.read owner) =
      some ⟨s, KeyedMap.empty.insert owner .unclaimed⟩ := by
    simp only [claimStep, ClaimTasks.begin, hunclaimed]
    rfl
  have hproceed : ∀ (shared next : AccessState Cid) (requests : KeyedMap String ClaimPhase)
      (before after : ClaimPhase), proceedClaim defaults shared owner before = some (next, after) →
      claimStep defaults ⟨shared, requests.insert owner before⟩ (.proceed owner) =
        some ⟨next, (requests.insert owner before).insert owner after⟩ := by
    intro shared next requests before after hstep
    simp [claimStep, hstep]
  refine ⟨_, .cons trivial hread (.cons trivial (hproceed _ _ _ _ _ rfl) (.cons trivial
    (hproceed _ _ _ _ _ rfl) (.cons trivial (hproceed _ _ _ _ _ rfl) (.nil _)))), ?_, ?_⟩
  · rw [claim_eq_steps hunclaimed, KeyedMap.get_insert_self]
  · rw [claim_eq_steps hunclaimed]

/-! ### Requests that proceed -/

/-- The phases of a request that has found no owners. -/
def Proceeding (owner : String) : ClaimPhase → Prop
  | .answered reply => reply = .claimed [owner]
  | _ => True

/-- A step of a request that proceeds. -/
theorem proceedClaim_cases {shared : AccessState Cid} {done : AccessState Cid × ClaimPhase}
    (h : proceedClaim defaults shared owner phase = some done) :
    (phase = .unclaimed ∧ done = (writeOwners shared owner, .written)) ∨
    (phase = .written ∧ done = (grantOwner shared owner, .granted)) ∨
    (phase = .granted ∧
      done = (persistOwner defaults shared owner, .answered (.claimed [owner]))) := by
  cases phase with
  | unclaimed => exact .inl ⟨rfl, (Option.some.inj h).symm⟩
  | written => exact .inr (.inl ⟨rfl, (Option.some.inj h).symm⟩)
  | granted => exact .inr (.inr ⟨rfl, (Option.some.inj h).symm⟩)
  | answered reply => cases h

theorem claimStep_read (h : claimStep defaults s (.read owner) = some t) :
    s.requests.get owner = none ∧
      t = { s with requests := s.requests.insert owner (decideClaim s.shared.owners owner) } := by
  simp only [claimStep] at h
  cases hget : s.requests.get owner with
  | some phase =>
    rw [hget] at h
    cases h
  | none =>
    rw [hget] at h
    exact ⟨rfl, (Option.some.inj h).symm⟩

theorem claimStep_proceed (h : claimStep defaults s (.proceed owner) = some t) :
    ∃ phase done, s.requests.get owner = some phase ∧
      proceedClaim defaults s.shared owner phase = some done ∧
      t = ⟨done.1, s.requests.insert owner done.2⟩ := by
  obtain ⟨done, hdone, rfl⟩ := Option.map_eq_some_iff.mp h
  obtain ⟨phase, hget, hproceed⟩ := Option.bind_eq_some_iff.mp hdone
  exact ⟨phase, done, hget, hproceed, rfl⟩

/-- A request that proceeds does so until it is answered that it has claimed the runtime. -/
theorem proceeding_of_run {actions : List ClaimStep} (hrun : Run (claimStep defaults) s actions u)
    (hget : s.requests.get owner = some phase) (hproceeding : Proceeding owner phase) :
    ∃ last, u.requests.get owner = some last ∧ Proceeding owner last := by
  refine hrun.invariant
    (fun s ↦ ∃ phase, s.requests.get owner = some phase ∧ Proceeding owner phase) ?_
    ⟨phase, hget, hproceeding⟩
  rintro s action t ⟨phase, hget, hproceeding⟩ - hstep
  cases action with
  | read other =>
    obtain ⟨hnone, rfl⟩ := claimStep_read hstep
    have hne : owner ≠ other := by
      rintro rfl
      rw [hget] at hnone
      cases hnone
    exact ⟨phase, (KeyedMap.get_insert_of_ne _ _ hne).trans hget, hproceeding⟩
  | proceed other =>
    obtain ⟨before, done, -, hproceed, rfl⟩ := claimStep_proceed hstep
    by_cases hother : owner = other
    · subst hother
      refine ⟨done.2, KeyedMap.get_insert_self _ _ _, ?_⟩
      obtain ⟨-, rfl⟩ | ⟨-, rfl⟩ | ⟨-, rfl⟩ := proceedClaim_cases hproceed
      · trivial
      · trivial
      · rfl
    · exact ⟨phase, (KeyedMap.get_insert_of_ne _ _ hother).trans hget, hproceeding⟩

/-! ### The winner -/

/-- The runtime when the winner has got to a phase. -/
def claimedUpTo (defaults : Config) (start : AccessState Cid) (winner : String) :
    ClaimPhase → AccessState Cid
  | .unclaimed => start
  | .written => writeOwners start winner
  | .granted => grantOwner (writeOwners start winner) winner
  | .answered _ => persistOwner defaults (grantOwner (writeOwners start winner) winner) winner

/-- One request proceeds, and the others have found its owner. -/
structure Winning (defaults : Config) (start : AccessState Cid) (winner : String)
    (phase : ClaimPhase) (s : ClaimTasks Cid) : Prop where
  proceeding : Proceeding winner phase
  request : s.requests.get winner = some phase
  shared : s.shared = claimedUpTo defaults start winner phase
  others : ∀ other last, other ≠ winner → s.requests.get other = some last →
    last = .answered (.conflict [winner])

/-- Assumes: nobody has made a request of an unclaimed runtime. The first to read proceeds. -/
theorem winning_of_begin (hunclaimed : start.owners = []) {action : ClaimStep}
    (hstep : claimStep defaults (.begin start) action = some t) :
    ∃ winner, Winning defaults start winner .unclaimed t := by
  cases action with
  | read owner =>
    obtain ⟨-, rfl⟩ := claimStep_read hstep
    have hdecide : decideClaim start.owners owner = .unclaimed := by
      rw [hunclaimed]
      rfl
    refine ⟨owner, trivial, ?_, rfl, fun other last hother hget ↦ ?_⟩
    · exact (KeyedMap.get_insert_self _ _ _).trans (congrArg some hdecide)
    · rw [ClaimTasks.begin, KeyedMap.get_insert_of_ne _ _ hother] at hget
      cases hget
  | proceed owner =>
    obtain ⟨phase, -, hget, -⟩ := claimStep_proceed hstep
    cases hget

/-- Assumes: a step at which no request reads that there is no owner while another is about to
write. One request still proceeds, and the others have found its owner. -/
theorem winning_step (hunclaimed : start.owners = []) {action : ClaimStep}
    (hwinning : Winning defaults start winner phase s) (halone : ReadsAlone s action)
    (hstep : claimStep defaults s action = some t) :
    ∃ next, Winning defaults start winner next t := by
  cases action with
  | read owner =>
    obtain ⟨hnone, rfl⟩ := claimStep_read hstep
    have hne : owner ≠ winner := by
      rintro rfl
      rw [hwinning.request] at hnone
      cases hnone
    have howners : s.shared.owners = [winner] := by
      rw [hwinning.shared]
      cases phase with
      | unclaimed =>
        refine absurd hwinning.request (halone ?_ winner)
        rw [hwinning.shared]
        exact hunclaimed
      | written => rfl
      | granted => rfl
      | answered reply => rfl
    have hconflict : decideClaim s.shared.owners owner = .answered (.conflict [winner]) := by
      simp [howners, decideClaim, hne]
    refine ⟨phase, hwinning.proceeding, ?_, hwinning.shared, fun other last hother hget ↦ ?_⟩
    · exact (KeyedMap.get_insert_of_ne _ _ hne.symm).trans hwinning.request
    · obtain ⟨-, rfl⟩ | ⟨-, hbefore⟩ := KeyedMap.get_insert_eq_some_iff.mp hget
      · exact hconflict
      · exact hwinning.others other last hother hbefore
  | proceed owner =>
    obtain ⟨before, done, hget, hproceed, rfl⟩ := claimStep_proceed hstep
    by_cases howner : owner = winner
    · subst howner
      obtain rfl := Option.some.inj (hwinning.request.symm.trans hget)
      have hothers : ∀ other last, other ≠ owner →
          (s.requests.insert owner done.2).get other = some last →
            last = .answered (.conflict [owner]) := by
        intro other last hother hlast
        rw [KeyedMap.get_insert_of_ne _ _ hother] at hlast
        exact hwinning.others other last hother hlast
      refine ⟨done.2, ?_, KeyedMap.get_insert_self _ _ _, ?_, hothers⟩
      · obtain ⟨-, rfl⟩ | ⟨-, rfl⟩ | ⟨-, rfl⟩ := proceedClaim_cases hproceed
        · trivial
        · trivial
        · rfl
      · have hshared := hwinning.shared
        obtain ⟨rfl, rfl⟩ | ⟨rfl, rfl⟩ | ⟨rfl, rfl⟩ := proceedClaim_cases hproceed
        · exact congrArg (writeOwners · owner) hshared
        · exact congrArg (grantOwner · owner) hshared
        · exact congrArg (persistOwner defaults · owner) hshared
    · -- the others are answered
      rw [hwinning.others owner before howner hget] at hproceed
      cases hproceed

/-- Assumes: an unclaimed runtime. After a run in which no request reads that there is no owner
while another is about to write, nobody has made a request, or one proceeds and the others have
found its owner. -/
theorem winning_of_run (hunclaimed : start.owners = []) {actions : List ClaimStep}
    (hrun : GuardedRun (claimStep defaults) ReadsAlone (.begin start) actions u) :
    u = .begin start ∨ ∃ winner phase, Winning defaults start winner phase u := by
  refine hrun.invariant
    (fun s ↦ s = .begin start ∨ ∃ winner phase, Winning defaults start winner phase s) ?_ (.inl rfl)
  rintro s action t (rfl | ⟨winner, phase, hwinning⟩) halone hstep
  · obtain ⟨winner, hwinning⟩ := winning_of_begin hunclaimed hstep
    exact .inr ⟨winner, _, hwinning⟩
  · obtain ⟨next, hnext⟩ := winning_step hunclaimed hwinning halone hstep
    exact .inr ⟨winner, next, hnext⟩

/-- Assumes: an unclaimed runtime, and a winner that is answered. -/
theorem wonBy_of_winning (hunclaimed : start.owners = []) {reply : ClaimReply}
    (hwinning : Winning defaults start winner (.answered reply) u) :
    WonBy defaults start u winner := by
  obtain rfl : reply = .claimed [winner] := hwinning.proceeding
  have hshared : u.shared = (claim defaults start winner).2 := by
    rw [claim_eq_steps hunclaimed]
    exact hwinning.shared
  refine ⟨hwinning.request, hshared, ?_, fun key ↦ ?_, ?_, hwinning.others⟩
  · rw [hwinning.shared]
    rfl
  · rw [hwinning.shared]
    exact (get_grantOwners start.rootAcl [winner] key).trans (by simp only [List.mem_singleton])
  · rw [hwinning.shared]
    exact Config.ownersFromConfig_setExtra_owners (start.config.disk.getD defaults) [winner]

/-- When one request has won, no other has proceeded. -/
theorem FirstClaimWins.eq_of_proceeding (h : FirstClaimWins defaults start u)
    {first second : String} {firstPhase secondPhase : ClaimPhase}
    (hfirst : u.requests.get first = some firstPhase)
    (hsecond : u.requests.get second = some secondPhase)
    (hfirstProceeds : Proceeding first firstPhase)
    (hsecondProceeds : Proceeding second secondPhase) : first = second := by
  obtain ⟨-, hnobody⟩ | ⟨winner, hwon⟩ := h
  · rw [hnobody first] at hfirst
    cases hfirst
  · have hwins : ∀ owner phase, u.requests.get owner = some phase → Proceeding owner phase →
        owner = winner := by
      intro owner phase hget hproceeds
      by_contra hother
      rw [hwon.others owner phase hother hget] at hproceeds
      cases hproceeds
    rw [hwins first firstPhase hfirst hfirstProceeds,
      hwins second secondPhase hsecond hsecondProceeds]

/-- Assumes: a run of requests on an unclaimed runtime, at the end of which each is answered. One
request has won and the others have changed nothing if and only if no request of the run read that
there is no owner while another was about to write its own. -/
theorem firstClaimWins_iff (hunclaimed : start.owners = []) {actions : List ClaimStep}
    (hrun : Run (claimStep defaults) (.begin start) actions u) (hanswered : AllAnswered u) :
    FirstClaimWins defaults start u ↔
      GuardedRun (claimStep defaults) ReadsAlone (.begin start) actions u := by
  constructor
  · intro hwins
    refine (guardedRun_iff_forall_split hrun).mpr fun before action after s hsplit hbefore ↦ ?_
    cases action with
    | proceed owner => trivial
    | read owner =>
      intro hempty other hother
      -- the two requests would both proceed to the end
      obtain ⟨-, -, t, hstep, hafter⟩ := GuardedRun.cut_cons (hsplit ▸ hrun) hbefore
      obtain ⟨hnone, rfl⟩ := claimStep_read hstep
      have hne : other ≠ owner := by
        rintro rfl
        rw [hother] at hnone
        cases hnone
      have hdecide : decideClaim s.shared.owners owner = .unclaimed := by
        rw [hempty]
        rfl
      obtain ⟨first, hfirst, hfirstProceeds⟩ := proceeding_of_run hafter
        ((KeyedMap.get_insert_of_ne _ _ hne).trans hother) trivial
      obtain ⟨second, hsecond, hsecondProceeds⟩ := proceeding_of_run hafter
        ((KeyedMap.get_insert_self _ _ _).trans (congrArg some hdecide)) trivial
      exact hne (hwins.eq_of_proceeding hfirst hsecond hfirstProceeds hsecondProceeds)
  · intro hguarded
    obtain rfl | ⟨winner, phase, hwinning⟩ := winning_of_run hunclaimed hguarded
    · exact .inl ⟨rfl, fun _ ↦ rfl⟩
    · obtain ⟨reply, rfl⟩ := hanswered winner phase hwinning.request
      exact .inr ⟨winner, wonBy_of_winning hunclaimed hwinning⟩

end Steps

/-! ### Two requests -/

/-- Bob's request comes when Alice has written herself as the owner, and he is told so. -/
theorem firstClaimWins_iff_conflict :
    ∃ u, Run (claimStep freshConfig) (.begin unstarted)
        [.read "did:ma:alice", .proceed "did:ma:alice", .read "did:ma:bob", .proceed "did:ma:alice",
          .proceed "did:ma:alice"] u ∧
      FirstClaimWins freshConfig unstarted u := by
  have hrun : Run (claimStep freshConfig) (.begin unstarted)
      [.read "did:ma:alice", .proceed "did:ma:alice", .read "did:ma:bob", .proceed "did:ma:alice",
        .proceed "did:ma:alice"] _ := run_of_execute rfl
  refine ⟨_, hrun, (firstClaimWins_iff rfl hrun ?_).mpr ?_⟩
  · intro owner phase hget
    have hmem : (owner, phase) ∈
        [("did:ma:alice", ClaimPhase.answered (.claimed ["did:ma:alice"])),
          ("did:ma:bob", .answered (.conflict ["did:ma:alice"]))] := KeyedMap.mem_of_get hget
    rw [List.mem_cons, List.mem_singleton] at hmem
    obtain heq | heq := hmem
    · exact ⟨_, (Prod.mk.inj heq).2⟩
    · exact ⟨_, (Prod.mk.inj heq).2⟩
  · exact .cons (fun _ _ ↦ nofun) rfl (.cons trivial rfl (.cons (fun h ↦ absurd h (by decide)) rfl
      (.cons trivial rfl (.cons trivial rfl (.nil _)))))

/-- Alice and Bob both read that there is no owner, and both are told that they have claimed the
runtime. -/
theorem two_claims_claimed :
    ∃ u, Run (claimStep freshConfig) (.begin unstarted)
        [.read "did:ma:alice", .read "did:ma:bob", .proceed "did:ma:alice", .proceed "did:ma:bob",
          .proceed "did:ma:alice", .proceed "did:ma:bob", .proceed "did:ma:bob",
          .proceed "did:ma:alice"] u ∧
      u.requests.get "did:ma:alice" = some (.answered (.claimed ["did:ma:alice"])) ∧
      u.requests.get "did:ma:bob" = some (.answered (.claimed ["did:ma:bob"])) ∧
      u.shared.owners = ["did:ma:bob"] ∧ u.shared.config.ownersOnDisk = ["did:ma:alice"] ∧
      ¬FirstClaimWins freshConfig unstarted u := by
  refine ⟨_, run_of_execute rfl, rfl, rfl, rfl, rfl, ?_⟩
  rintro (⟨-, hnobody⟩ | ⟨winner, hwon⟩)
  · exact absurd (hnobody "did:ma:bob") (by decide)
  · have hwinner : ["did:ma:bob"] = [winner] := hwon.owners
    have hdisk : ["did:ma:alice"] = [winner] := hwon.onDisk
    exact absurd (hwinner.trans hdisk.symm) (by decide)

end MaRuntime.Daemon
