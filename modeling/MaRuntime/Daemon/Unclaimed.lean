import MaRuntime.Library.Runs
import MaRuntime.Daemon.Access

/-!
# A claim of an open runtime

The manifest that is bootstrapped for a runtime without owners has a root ACL that allows everyone
everything. A claim adds the owner's entry to that ACL and takes nothing away, and no later
operation makes the manifest's ACL anew, so a runtime that has loaded it stays open.

`FollowsOwners` says what the live root ACL consists of as long as nothing replaces it: an entry for
each owner, and the wildcard's if the last startup loaded the ACL. Every operation keeps this
(`followsOwners_of_run`), and so a runtime is closed after a claim if and only if its last startup
failed to load the ACL, and no owner is the wildcard or a group of others
(`closed_iff_after_claim`).

Main definitions: `Closed`, `FollowsOwners`, `rootAclLoaded`.
Main results: `closed_iff_after_claim`, `claimed_but_open`.
-/

set_option autoImplicit false
set_option relaxedAutoImplicit false

namespace MaRuntime.Daemon

open Acl Manifest Runs

variable {Cid Failure : Type} (store : AccessStore Cid) {defaults : Config}

/-! ### The root ACL of an open manifest -/

/-- Whether the root ACL was loaded by the last startup. -/
def loadedAfter (loaded : Bool) : AccessAction Cid → Bool
  | .startup _ outcome => outcome.manifestFetched && outcome.aclFetched
  | _ => loaded

/-- Whether the last startup of a history loaded the root ACL. -/
def rootAclLoaded (actions : List (AccessAction Cid)) : Bool := actions.foldl loadedAfter false

/-- The operations by which CRUD leaves the root ACL alone: it puts no other in place, and it makes
no grants to a new list of owners. -/
def LeavesRootAcl : AccessAction Cid → Prop
  | .setRootAcl _ _ _ => False
  | .setGroup name _ _ _ => name ≠ "owners"
  | _ => True

/-- The manifest has the open ACL, and the live one allows everything to the owners and, if it was
loaded, to everyone. -/
structure FollowsOwners (loaded : Bool) (s : AccessState Cid) : Prop where
  aclLink : s.aclLink = some (some ⟨store.cidOf (.acl (minimalAcl []))⟩)
  rootAcl : ∀ key, s.rootAcl.get key =
    if key ∈ s.owners ∨ loaded = true ∧ key = "*" then some .everything else none

variable {store} {loaded : Bool} {s t u : AccessState Cid}

theorem followsOwners_start (disk : Option Config) :
    FollowsOwners store false
      (.start (some (bootstrapMinimalManifest store [])) disk defaults) where
  aclLink := rfl
  rootAcl key := by simp [AccessState.start, AccessState.owners]

/-- What a startup finds in a manifest with the open ACL. -/
theorem get_populated_acl {manifest : RuntimeManifest Cid} (outcome : StartupOutcome)
    (hacl : manifest.acl = some ⟨store.cidOf (.acl (minimalAcl []))⟩) (key : String) :
    (populateAclAndGroupCaches store (some manifest) outcome).1.get key =
      if (outcome.manifestFetched && outcome.aclFetched) = true ∧ key = "*" then some .everything
      else none := by
  unfold populateAclAndGroupCaches
  dsimp only
  rw [hacl]
  cases outcome.manifestFetched with
  | false => simp
  | true =>
    cases outcome.aclFetched with
    | false => simp
    | true => simp [minimalAcl, AclMap.get_insert]

theorem followsOwners_startup (h : FollowsOwners store loaded s) (cliOwners : List String)
    (outcome : StartupOutcome) :
    FollowsOwners store (outcome.manifestFetched && outcome.aclFetched)
      (startup store defaults s cliOwners outcome) := by
  obtain ⟨m, hmanifest, hacl⟩ := Option.map_eq_some_iff.mp h.aclLink
  have hseeded : FollowsOwners store (outcome.manifestFetched && outcome.aclFetched)
      (resolveAndSeedOwners store defaults s cliOwners outcome) := by
    have hfound : startupManifest store s outcome = some m := by
      rw [startupManifest, hmanifest]
    refine ⟨?_, fun key ↦ ?_⟩
    · rw [resolveAndSeedOwners, hfound]
      exact congrArg some hacl
    · simp only [resolveAndSeedOwners, hfound, get_grantOwners, get_populated_acl outcome hacl,
        AccessState.owners]
      by_cases howner : key ∈ (finalizeStartup defaults s.config.disk (s.config.disk.getD defaults)
          cliOwners (((populateAclAndGroupCaches store (some m) outcome).2.get "owners").getD [])).owners
      · rw [if_pos howner, if_pos (.inl howner)]
      · rw [if_neg howner]
        simp only [howner, false_or]
  obtain ⟨-, heq⟩ | ⟨seededManifest, hseededManifest, -, -, heq⟩ := startup_cases
    store defaults s cliOwners outcome rfl
  · rw [heq]
    exact hseeded
  · rw [heq]
    refine ⟨?_, hseeded.rootAcl⟩
    have hlink := hseeded.aclLink
    rw [AccessState.aclLink, hseededManifest] at hlink
    exact hlink

variable (defaults) in
theorem followsOwners_claim (h : FollowsOwners store loaded s) (owner : String) :
    FollowsOwners store loaded (claim defaults s owner).2 := by
  obtain ⟨hunclaimed, heq, howners⟩ | ⟨-, heq⟩ := claim_cases defaults s owner
  · rw [heq]
    refine ⟨h.aclLink, fun key ↦ ?_⟩
    rw [get_grantOwners, h.rootAcl, hunclaimed, AccessState.owners, howners]
    by_cases hkey : key ∈ [owner]
    · simp only [hkey, if_true, true_or]
    · simp only [hkey, if_false, false_or, List.not_mem_nil]
  · rw [heq]
    exact h

theorem followsOwners_step {action : AccessAction Cid} (h : FollowsOwners store loaded s)
    (hleaves : LeavesRootAcl action) (hstep : accessStep store defaults s action = some t) :
    FollowsOwners store (loadedAfter loaded action) t := by
  cases action with
  | startup cliOwners outcome =>
    obtain rfl := Option.some.inj hstep
    exact followsOwners_startup h cliOwners outcome
  | claim owner =>
    obtain rfl := Option.some.inj hstep
    exact followsOwners_claim defaults h owner
  | setRootAcl cid fetched published => cases hleaves
  | setGroup name cid fetched published =>
    obtain rfl := Option.some.inj hstep
    obtain ⟨hconfig, hrootAcl, hlink⟩ := setGroup_of_ne store s cid fetched published hleaves
    refine ⟨hlink.trans h.aclLink, fun key ↦ ?_⟩
    rw [hrootAcl, AccessState.owners, hconfig]
    exact h.rootAcl key
  | deleteGroup name published =>
    obtain rfl := Option.some.inj hstep
    obtain ⟨hconfig, hrootAcl, hlink⟩ := deleteGroup_unchanged s name published
    refine ⟨hlink.trans h.aclLink, fun key ↦ ?_⟩
    rw [hrootAcl, AccessState.owners, hconfig]
    exact h.rootAcl key
  | configure action =>
    obtain ⟨config, rfl, howners, -⟩ := configure_cases hstep
    refine ⟨h.aclLink, fun key ↦ ?_⟩
    rw [AccessState.owners, howners]
    exact h.rootAcl key

/-- What the live root ACL consists of after a run in which CRUD left it alone. -/
theorem followsOwners_of_run {actions : List (AccessAction Cid)}
    (h : FollowsOwners store loaded s) (hleaves : ∀ action ∈ actions, LeavesRootAcl action)
    (hrun : Run (accessStep store defaults) s actions t) :
    FollowsOwners store (actions.foldl loadedAfter loaded) t := by
  induction hrun generalizing loaded with
  | nil s => exact h
  | cons _ hstep _ ih =>
    have hnext := followsOwners_step h (hleaves _ List.mem_cons_self) hstep
    exact ih hnext fun action haction ↦ hleaves action (List.mem_cons_of_mem _ haction)

/-! ### Closed runtimes -/

section Closed

variable (normalizePrincipal : String → String)
  (checkCap : AclMap → String → String → Except Failure Unit)

/-- Every DID that is no owner is refused every capability. -/
def Closed (s : AccessState Cid) : Prop :=
  ∀ did, isDid did = true → isOwner normalizePrincipal s.owners did = false →
    ∀ caps, (checkRoot normalizePrincipal checkCap s did caps).isOk = false

/-- A DID is a member of a cached group. -/
def MemberOfGroup (s : AccessState Cid) (did key : String) : Prop :=
  isMember normalizePrincipal (resolveGroup s.groupCache : String → Except Unit _) did key = true

/-- No owner is the wildcard, or a group with a member who is no owner. -/
def OwnersNameNobodyElse (s : AccessState Cid) : Prop :=
  "*" ∉ s.owners ∧
    ∀ key ∈ s.owners, isGroupKey key = true → ∀ did, isDid did = true →
      MemberOfGroup normalizePrincipal s did key →
        isOwner normalizePrincipal s.owners did = true

variable {normalizePrincipal checkCap}

/-- An ACL of grants alone denies nobody. -/
theorem FollowsOwners.get_ne_deny (h : FollowsOwners store loaded s) (key : String) :
    s.rootAcl.get key ≠ some .deny := by
  rw [h.rootAcl]
  split_ifs
  · exact nofun
  · exact nofun

/-- Everyone is allowed everything where the wildcard is. -/
theorem FollowsOwners.isOk_checkRoot_of_wildcard (h : FollowsOwners store loaded s)
    (hacl : DocumentedAcl normalizePrincipal checkCap) {did : String} (hdid : isDid did = true)
    (hwildcard : s.rootAcl.get "*" = some .everything) (cap : String) :
    (checkRoot normalizePrincipal checkCap s did [cap]).isOk = true := by
  refine (isOk_checkFull_iff_of_did hacl hdid).mpr ⟨?_, .inl ⟨cap, List.mem_singleton_self _, ?_⟩⟩
  · rintro (hdenied | hdenied)
    · exact h.get_ne_deny _ hdenied
    · exact h.get_ne_deny _ hdenied
  · rw [hwildcard, h.rootAcl]
    split_ifs
    · exact allows_everything cap
    · exact allows_everything cap

/-- A member of a group that is an owner is allowed everything. -/
theorem FollowsOwners.isOk_checkRoot_of_group (h : FollowsOwners store loaded s)
    (hacl : DocumentedAcl normalizePrincipal checkCap) {did key : String} (hdid : isDid did = true)
    (hkey : key ∈ s.owners) (hgroup : isGroupKey key = true)
    (hmember : MemberOfGroup normalizePrincipal s did key) (cap : String) :
    (checkRoot normalizePrincipal checkCap s did [cap]).isOk = true := by
  refine (isOk_checkFull_iff_of_did hacl hdid).mpr ⟨?_, .inr ⟨?_, key, .everything, cap, hgroup, ?_,
    hmember, List.mem_singleton_self _, allows_everything cap⟩⟩
  · rintro (hdenied | hdenied)
    · exact h.get_ne_deny _ hdenied
    · exact h.get_ne_deny _ hdenied
  · rintro ⟨denied, -, -, hdenied, -⟩
    exact h.get_ne_deny _ hdenied
  · rw [h.rootAcl, if_pos (.inl hkey)]

theorem FollowsOwners.closed_iff (h : FollowsOwners store loaded s)
    (hacl : DocumentedAcl normalizePrincipal checkCap) :
    Closed normalizePrincipal checkCap s ↔
      loaded = false ∧ OwnersNameNobodyElse normalizePrincipal s := by
  constructor
  · intro hclosed
    have hwildcard : s.rootAcl.get "*" = none := by
      obtain ⟨did, hdid, hother⟩ := hacl.exists_not_isOwner s.owners
      have hrefused := hclosed did hdid hother ["rpc"]
      rw [h.rootAcl]
      refine if_neg fun hentry ↦ ?_
      rw [h.isOk_checkRoot_of_wildcard hacl hdid (by rw [h.rootAcl, if_pos hentry])] at hrefused
      cases hrefused
    have hneither : ¬("*" ∈ s.owners ∨ loaded = true ∧ "*" = "*") := by
      intro hentry
      rw [h.rootAcl, if_pos hentry] at hwildcard
      cases hwildcard
    refine ⟨?_, fun howner ↦ hneither (.inl howner), ?_⟩
    · exact Bool.eq_false_iff.mpr fun hloaded ↦ hneither (.inr ⟨hloaded, rfl⟩)
    · intro key hkey hgroup did hdid hmember
      by_contra hother
      have hrefused := hclosed did hdid (Bool.eq_false_iff.mpr hother) ["rpc"]
      rw [h.isOk_checkRoot_of_group hacl hdid hkey hgroup hmember] at hrefused
      cases hrefused
  · rintro ⟨rfl, hwildcard, hgroups⟩ did hdid hother caps
    have hentry : ∀ key, s.rootAcl.get key = if key ∈ s.owners then some .everything else none := by
      intro key
      simpa using h.rootAcl key
    refine Bool.eq_false_iff.mpr fun hallowed ↦ ?_
    obtain ⟨-, ⟨cap, -, hcap⟩ | ⟨-, key, entry, cap, hgroup, hget, hmember, -⟩⟩ :=
      (isOk_checkFull_iff_of_did hacl hdid).mp hallowed
    · -- an entry of the caller would make it an owner
      have hcaller : normalizePrincipal did ∉ s.owners := fun hmem ↦ by
        rw [isOwner_iff.mpr ⟨_, hmem, hacl.normalize_normalize hdid⟩] at hother
        cases hother
      rw [hentry, hentry, if_neg hcaller, if_neg hwildcard] at hcap
      cases hcap
    · have hkey : key ∈ s.owners := by
        by_contra hkey
        rw [hentry, if_neg hkey] at hget
        cases hget
      rw [hgroups key hkey hgroup did hdid hmember] at hother
      cases hother

/-- Assumes: what is documented of the ACL's functions, a runtime that was bootstrapped without
owners and then claimed, and a history in which CRUD leaves the root ACL alone. The runtime is
closed at the end if and only if the last startup failed to load the root ACL, and no owner is the
wildcard or a group with a member who is no owner. -/
theorem closed_iff_after_claim (hacl : DocumentedAcl normalizePrincipal checkCap)
    {disk : Option Config} {before after : List (AccessAction Cid)} {owner : String}
    (hbefore : Run (accessStep store defaults)
      (.start (some (bootstrapMinimalManifest store [])) disk defaults) before s)
    (hclaim : claim defaults s owner = (.claimed [owner], t))
    (hafter : Run (accessStep store defaults) t after u)
    (hleaves : ∀ action ∈ before ++ after, LeavesRootAcl action) :
    Closed normalizePrincipal checkCap u ↔
      rootAclLoaded (before ++ after) = false ∧
        OwnersNameNobodyElse normalizePrincipal u := by
  have hs := followsOwners_of_run (followsOwners_start disk)
    (fun action haction ↦ hleaves action (List.mem_append_left _ haction)) hbefore
  have ht := followsOwners_claim defaults hs owner
  rw [hclaim] at ht
  have hu := followsOwners_of_run ht
    (fun action haction ↦ hleaves action (List.mem_append_right _ haction)) hafter
  rw [rootAclLoaded, List.foldl_append]
  exact hu.closed_iff hacl

end Closed

/-! ### Two claims -/

/-- A runtime that was bootstrapped without owners, before it is started. -/
def openRuntime : AccessState AccessDocument :=
  .start (some (bootstrapMinimalManifest accessStore [])) none freshConfig

/-- A startup that cannot fetch the root ACL. -/
def aclNotFetched : StartupOutcome := { everythingSucceeds with aclFetched := false }

/-- A runtime is closed after a claim, and a restart, if its ACL could never be loaded. -/
theorem closed_iff_after_claim_not_fetched :
    ∃ s t u, Run (accessStep accessStore freshConfig) openRuntime [.startup [] aclNotFetched] s ∧
      claim freshConfig s "did:ma:alice" = (.claimed ["did:ma:alice"], t) ∧
      Run (accessStep accessStore freshConfig) t [.startup [] aclNotFetched] u ∧
      Closed principalOf checkCapByEntry u := by
  have hbefore : Run (accessStep accessStore freshConfig) openRuntime
      [.startup [] aclNotFetched] _ := run_of_execute rfl
  have hafter : Run (accessStep accessStore freshConfig)
      (claim freshConfig (startup accessStore freshConfig openRuntime [] aclNotFetched)
        "did:ma:alice").2
      [.startup [] aclNotFetched] _ := run_of_execute rfl
  refine ⟨_, _, _, hbefore, rfl, hafter, (closed_iff_after_claim documentedAcl_byEntry hbefore rfl
    hafter (by simp [LeavesRootAcl])).mpr ⟨rfl, by decide, ?_⟩⟩
  intro key hkey hgroup
  obtain rfl : key = "did:ma:alice" := List.mem_singleton.mp hkey
  exact absurd hgroup (by decide)

/-- Bob publishes on a runtime that Alice has claimed, before the next restart and after it. -/
theorem claimed_but_open :
    ∃ s t u, Run (accessStep accessStore freshConfig) openRuntime
        [.startup [] everythingSucceeds] s ∧
      claim freshConfig s "did:ma:alice" = (.claimed ["did:ma:alice"], t) ∧
      Run (accessStep accessStore freshConfig) t [.startup [] everythingSucceeds] u ∧
      u.owners = ["did:ma:alice"] ∧
      (checkRoot principalOf checkCapByEntry t "did:ma:bob" ["ipfs"]).isOk = true ∧
      (checkRoot principalOf checkCapByEntry u "did:ma:bob" ["ipfs"]).isOk = true ∧
      ¬Closed principalOf checkCapByEntry t ∧ ¬Closed principalOf checkCapByEntry u := by
  refine ⟨_, _, _, run_of_execute rfl, rfl, run_of_execute rfl, by decide, by decide, by decide, ?_⟩
  constructor
  · intro h
    exact absurd (h "did:ma:bob" (by decide) (by decide) ["ipfs"]) (by decide)
  · intro h
    exact absurd (h "did:ma:bob" (by decide) (by decide) ["ipfs"]) (by decide)

end MaRuntime.Daemon
