import MaRuntime.Library.Runs
import MaRuntime.Daemon.Access

/-!
# Owners who are no longer

Owners are granted everything in the live root ACL by a startup, by a claim and by a SET of the
group `owners`. None of these takes a grant away: only a startup and a SET of the root ACL begin
anew, with the manifest's ACL.

`GrantHistory` is a runtime with the ACL that the live one began with, and the owners who have been
granted everything since; the live ACL consists of the two (`grantsRecorded_of_run`). So an owner
whom a SET of the group removes keeps everything until then. `revokedAtOnce_iff` says when nobody
notices: if the manifest gives everything anyway to whom such a grant reaches, and gives everyone
else what the ACL that was loaded gives.

Main definitions: `GrantHistory`, `grantStep`, `RevokedAtOnce`, `GrantsAgree`.
Main results: `grantsRecorded_of_run`, `revokedAtOnce_iff`, `revoked_owner_remains`.
-/

set_option autoImplicit false
set_option relaxedAutoImplicit false

namespace MaRuntime.Daemon

open Acl Manifest Runs

/-- A runtime, the ACL with which its live root ACL began, and the owners who have been granted
everything since. -/
structure GrantHistory (Cid : Type) where
  state : AccessState Cid
  loaded : AclMap
  granted : List String

section Revocation

variable {Cid : Type} (store : AccessStore Cid) (defaults : Config)

/-! ### What was granted -/

/-- The ACL with which the live one began, after an operation. -/
def loadedBy (h : GrantHistory Cid) : AccessAction Cid → AclMap
  | .startup _ outcome =>
    (populateAclAndGroupCaches store (startupManifest store h.state outcome) outcome).1
  | .setRootAcl cid fetched published =>
    if h.state.manifest.isSome ∧ (aclAt store cid).isSome ∧ fetched ∧ published then
      (aclAt store cid).getD h.loaded
    else h.loaded
  | _ => h.loaded

/-- The owners who have been granted everything since, after an operation. -/
def grantedBy (h : GrantHistory Cid) : AccessAction Cid → List String
  | .startup cliOwners outcome => (startup store defaults h.state cliOwners outcome).owners
  | .claim owner =>
    match (claim defaults h.state owner).1 with
    | .claimed newOwners => h.granted ++ newOwners
    | _ => h.granted
  | .setRootAcl cid fetched published =>
    if h.state.manifest.isSome ∧ (aclAt store cid).isSome ∧ fetched ∧ published then []
    else h.granted
  | .setGroup name cid fetched published =>
    if h.state.manifest.isSome ∧ published ∧ name = "owners" then
      h.granted ++ (setGroup store h.state name cid fetched published).owners
    else h.granted
  | _ => h.granted

/-- One operation. -/
def grantStep (h : GrantHistory Cid) (action : AccessAction Cid) : Option (GrantHistory Cid) :=
  (accessStep store defaults h.state action).map fun s ↦
    ⟨s, loadedBy store h action, grantedBy store defaults h action⟩

/-- A runtime before its first startup. -/
def GrantHistory.begin (manifest : Option (RuntimeManifest Cid)) (disk : Option Config) :
    GrantHistory Cid :=
  ⟨.start manifest disk defaults, .empty, []⟩

/-- The live root ACL is the one it began with, and the grants since. -/
def GrantsRecorded (h : GrantHistory Cid) : Prop :=
  ∀ key, h.state.rootAcl.get key =
    if key ∈ h.granted then some .everything else h.loaded.get key

variable {store defaults} {h next : GrantHistory Cid} {s : AccessState Cid}

theorem get_rootAcl_startup (cliOwners : List String) (outcome : StartupOutcome) (key : String) :
    (startup store defaults s cliOwners outcome).rootAcl.get key =
      if key ∈ (startup store defaults s cliOwners outcome).owners then some .everything
      else
        (populateAclAndGroupCaches store (startupManifest store s outcome) outcome).1.get key := by
  have hseeded : (resolveAndSeedOwners store defaults s cliOwners outcome).rootAcl =
      grantOwners (populateAclAndGroupCaches store (startupManifest store s outcome) outcome).1
        (resolveAndSeedOwners store defaults s cliOwners outcome).owners := rfl
  obtain ⟨-, heq⟩ | ⟨m, -, -, -, heq⟩ := startup_cases store defaults s cliOwners outcome rfl
  · rw [heq, hseeded, get_grantOwners]
  · rw [heq]
    change (resolveAndSeedOwners store defaults s cliOwners outcome).rootAcl.get key = _
    rw [hseeded, get_grantOwners]
    rfl

/-- A SET of the group `owners` that is published grants everything to the owners that it finds. -/
theorem rootAcl_setGroup (cid : Cid) (fetched : Bool) (hmanifest : s.manifest.isSome = true) :
    (setGroup store s "owners" cid fetched true).rootAcl =
      grantOwners s.rootAcl (setGroup store s "owners" cid fetched true).owners := by
  obtain ⟨m, hm⟩ := Option.isSome_iff_exists.mp hmanifest
  simp only [setGroup, hm, if_true]
  rfl

theorem setGroup_unchanged {name : String} {cid : Cid} {fetched published : Bool}
    (h : ¬(s.manifest.isSome = true ∧ published = true)) :
    setGroup store s name cid fetched published = s := by
  unfold setGroup
  cases hmanifest : s.manifest with
  | none => rfl
  | some m => exact if_neg fun hpublished ↦ h ⟨by rw [hmanifest]; rfl, hpublished⟩

/-- Everything that an operation grants is recorded. -/
theorem grantsRecorded_step {action : AccessAction Cid} (hrecorded : GrantsRecorded h)
    (hstep : grantStep store defaults h action = some next) : GrantsRecorded next := by
  obtain ⟨s, hs, rfl⟩ := Option.map_eq_some_iff.mp hstep
  intro key
  cases action with
  | startup cliOwners outcome =>
    obtain rfl := Option.some.inj hs
    exact get_rootAcl_startup cliOwners outcome key
  | claim owner =>
    obtain rfl := Option.some.inj hs
    obtain ⟨-, heq, -⟩ | ⟨hnot, heq⟩ := claim_cases defaults h.state owner
    · have hgranted : grantedBy store defaults h (.claim owner) = h.granted ++ [owner] := by
        simp only [grantedBy, heq]
      simp only [heq, hgranted, loadedBy]
      exact get_grantOwners_append hrecorded [owner] key
    · have hgranted : grantedBy store defaults h (.claim owner) = h.granted := by
        cases hreply : (claim defaults h.state owner).1 with
        | claimed newOwners => exact absurd hreply (hnot newOwners)
        | alreadyClaimed owners => simp only [grantedBy, hreply]
        | conflict owners => simp only [grantedBy, hreply]
      simp only [heq, hgranted, loadedBy]
      exact hrecorded key
  | setRootAcl cid fetched published =>
    obtain rfl := Option.some.inj hs
    obtain ⟨m, map, hmanifest, hmap, rfl, rfl, heq⟩ | ⟨hnot, heq⟩ := setRootAcl_cases
      store h.state cid fetched published
    · simp [grantedBy, loadedBy, heq, hmanifest, hmap]
    · simp only [grantedBy, loadedBy, heq, if_neg hnot]
      exact hrecorded key
  | setGroup name cid fetched published =>
    obtain rfl := Option.some.inj hs
    by_cases hset : h.state.manifest.isSome = true ∧ published = true ∧ name = "owners"
    · obtain ⟨hmanifest, rfl, rfl⟩ := hset
      have hgranted : grantedBy store defaults h (.setGroup "owners" cid fetched true) =
          h.granted ++ (setGroup store h.state "owners" cid fetched true).owners :=
        if_pos ⟨hmanifest, rfl, rfl⟩
      simp only [hgranted, loadedBy, rootAcl_setGroup cid fetched hmanifest]
      exact get_grantOwners_append hrecorded _ key
    · have hrootAcl : (setGroup store h.state name cid fetched published).rootAcl =
          h.state.rootAcl := by
        by_cases hname : name = "owners"
        · rw [setGroup_unchanged fun hpublished ↦ hset ⟨hpublished.1, hpublished.2, hname⟩]
        · exact (setGroup_of_ne store h.state cid fetched published hname).2.1
      simp only [grantedBy, loadedBy, hrootAcl, if_neg hset]
      exact hrecorded key
  | deleteGroup name published =>
    obtain rfl := Option.some.inj hs
    rw [(deleteGroup_unchanged h.state name published).2.1]
    exact hrecorded key
  | configure action =>
    obtain ⟨config, rfl, -⟩ := configure_cases hs
    exact hrecorded key

theorem grantsRecorded_of_run {manifest : Option (RuntimeManifest Cid)} {disk : Option Config}
    {actions : List (AccessAction Cid)}
    (hrun : Run (grantStep store defaults) (.begin defaults manifest disk) actions h) :
    GrantsRecorded h := by
  refine hrun.invariant GrantsRecorded ?_ fun key ↦ rfl
  intro h action next hrecorded _ hstep
  exact grantsRecorded_step hrecorded hstep

/-! ### What the manifest gives -/

variable (store)

/-- The root ACL of the manifest. -/
def manifestAcl (s : AccessState Cid) : AclMap :=
  ((s.manifest.bind RuntimeManifest.acl).bind fun link ↦ aclAt store link.cid).getD .empty

/-- The groups of the manifest. -/
def manifestGroups (s : AccessState Cid) : KeyedMap String (List String) :=
  match s.manifest with
  | some m => m.grp.filterMap fun _ link ↦ groupAt store link.cid
  | none => .empty

variable {Failure : Type} (normalizePrincipal : String → String)
  (checkCap : AclMap → String → String → Except Failure Unit)

/-- The check that the manifest alone makes. -/
def checkManifest (s : AccessState Cid) (caller : String) (caps : List String) :
    Except AccessDenied Unit :=
  checkFull normalizePrincipal checkCap (manifestAcl store s) caller caps
    (resolveGroup (manifestGroups store s))

/-- What is expected after a SET of the group `owners`: its members are the owners, and everyone
else has the rights that the manifest gives. -/
structure RevokedAtOnce (s : AccessState Cid) (members : List String) : Prop where
  owners : ∀ caller, isOwner normalizePrincipal s.owners caller = true ↔
    ∃ member ∈ members, normalizePrincipal member = normalizePrincipal caller
  rights : ∀ did, isDid did = true → isOwner normalizePrincipal members did = false → ∀ caps,
    (checkRoot normalizePrincipal checkCap s did caps).isOk =
      (checkManifest store normalizePrincipal checkCap s did caps).isOk

/-- What the ACL that the live one began with gives, with the wildcard if it was granted, and with
the cached groups after a SET of the group `owners`. -/
def checkLoaded (h : GrantHistory Cid) (members : List String) (caller : String)
    (caps : List String) : Except AccessDenied Unit :=
  checkFull normalizePrincipal checkCap
    (grantOwners h.loaded ((h.granted ++ members).filter fun owner ↦ owner = "*")) caller caps
    (resolveGroup (h.state.groupCache.insert "owners" members))

/-- What the manifest's ACL and groups give after a SET of the group `owners`. -/
def checkDocuments (h : GrantHistory Cid) (members : List String) (caller : String)
    (caps : List String) : Except AccessDenied Unit :=
  checkFull normalizePrincipal checkCap (manifestAcl store h.state) caller caps
    (resolveGroup ((manifestGroups store h.state).insert "owners" members))

variable (Failure) in
/-- The owner grants that there were, and those of the members, reach a caller. -/
def StillGranted (h : GrantHistory Cid) (members : List String) (caller : String) : Prop :=
  GrantReaches normalizePrincipal h.loaded (h.granted ++ members) caller
    (resolveGroup (h.state.groupCache.insert "owners" members) : String → Except Failure _)

/-- To whom a grant reaches and who is no member, the manifest gives everything anyway; and to
everyone else who is no member, what was loaded gives what the manifest gives. -/
structure GrantsAgree (h : GrantHistory Cid) (members : List String) : Prop where
  reached : ∀ did, isDid did = true → isOwner normalizePrincipal members did = false →
    StillGranted Failure normalizePrincipal h members did →
      ∀ cap, (checkDocuments store normalizePrincipal checkCap h members did [cap]).isOk = true
  others : ∀ did, isDid did = true → isOwner normalizePrincipal members did = false →
    ¬StillGranted Failure normalizePrincipal h members did →
      ∀ caps, (checkLoaded normalizePrincipal checkCap h members did caps).isOk =
        (checkDocuments store normalizePrincipal checkCap h members did caps).isOk

variable {store normalizePrincipal checkCap} {cid : Cid} {members : List String}

/-- A SET of the group `owners` that succeeds with a group that is fetched. -/
theorem setGroup_owners {m : RuntimeManifest Cid} (hmanifest : s.manifest = some m)
    (hmembers : groupAt store cid = some members) :
    setGroup store s "owners" cid true true =
      { manifest := some (setGroupLink m "owners" cid)
        config := { s.config with owners := members }
        rootAcl := grantOwners s.rootAcl members
        groupCache := s.groupCache.insert "owners" members } := by
  simp [setGroup, hmanifest, groupCacheUpdate, hmembers]

/-- After a SET of the group `owners` the live ACL is the one it began with, and all grants. -/
theorem isOk_checkRoot_setGroup {m : RuntimeManifest Cid}
    (hacl : DocumentedAcl normalizePrincipal checkCap) (hrecorded : GrantsRecorded h)
    (hmanifest : h.state.manifest = some m) (hmembers : groupAt store cid = some members)
    {did : String} (hdid : isDid did = true) (caps : List String) :
    (checkRoot normalizePrincipal checkCap (setGroup store h.state "owners" cid true true) did
        caps).isOk =
      (checkFull normalizePrincipal checkCap (grantOwners h.loaded (h.granted ++ members)) did caps
        (resolveGroup (h.state.groupCache.insert "owners" members))).isOk := by
  have hlive : ∀ key, (grantOwners h.state.rootAcl members).get key =
      (grantOwners h.loaded (h.granted ++ members)).get key := by
    intro key
    rw [get_grantOwners_append hrecorded members key, get_grantOwners]
  rw [setGroup_owners hmanifest hmembers, checkRoot]
  exact isOk_checkFull_congr hacl hdid (hlive _) (hlive _) fun key _ _ ↦ hlive key

/-- After a SET of the group `owners` the manifest has its ACL, its other groups and this one. -/
theorem checkManifest_setGroup {m : RuntimeManifest Cid} (hmanifest : h.state.manifest = some m)
    (hmembers : groupAt store cid = some members) (caller : String) (caps : List String) :
    checkManifest store normalizePrincipal checkCap (setGroup store h.state "owners" cid true true)
        caller caps =
      checkDocuments store normalizePrincipal checkCap h members caller caps := by
  have hgroups : (resolveGroup
      (manifestGroups store (setGroup store h.state "owners" cid true true)) :
        String → Except Failure (List String)) =
      resolveGroup ((manifestGroups store h.state).insert "owners" members) := by
    rw [setGroup_owners hmanifest hmembers]
    funext key
    simp only [resolveGroup, manifestGroups, hmanifest, setGroupLink, KeyedMap.get_filterMap]
    generalize (stripPrefix "+" key).getD key = name
    by_cases hname : name = "owners"
    · rw [hname]
      simp [hmembers]
    · rw [KeyedMap.get_insert_of_ne _ _ hname, KeyedMap.get_insert_of_ne _ _ hname,
        KeyedMap.get_filterMap]
  have hdocument : manifestAcl store (setGroup store h.state "owners" cid true true) =
      manifestAcl store h.state := by
    rw [setGroup_owners hmanifest hmembers, manifestAcl, manifestAcl, hmanifest]
    rfl
  rw [checkManifest, hgroups, hdocument, checkDocuments]

/-- What is expected of a SET of the group `owners` is that the grants give nobody but its members
more than the manifest does. -/
theorem revokedAtOnce_iff_rights {m : RuntimeManifest Cid}
    (hacl : DocumentedAcl normalizePrincipal checkCap) (hrecorded : GrantsRecorded h)
    (hmanifest : h.state.manifest = some m) (hmembers : groupAt store cid = some members) :
    RevokedAtOnce store normalizePrincipal checkCap
        (setGroup store h.state "owners" cid true true) members ↔
      ∀ did, isDid did = true → isOwner normalizePrincipal members did = false → ∀ caps,
        (checkFull normalizePrincipal checkCap (grantOwners h.loaded (h.granted ++ members)) did caps
          (resolveGroup (h.state.groupCache.insert "owners" members))).isOk =
            (checkDocuments store normalizePrincipal checkCap h members did caps).isOk := by
  constructor
  · intro hrevoked did hdid hother caps
    rw [← isOk_checkRoot_setGroup hacl hrecorded hmanifest hmembers hdid,
      hrevoked.rights did hdid hother caps, checkManifest_setGroup hmanifest hmembers]
  · intro hsame
    refine ⟨fun caller ↦ ?_, fun did hdid hother caps ↦ ?_⟩
    · rw [setGroup_owners hmanifest hmembers]
      exact isOwner_iff
    · rw [isOk_checkRoot_setGroup hacl hrecorded hmanifest hmembers hdid,
        hsame did hdid hother caps, checkManifest_setGroup hmanifest hmembers]

/-- Assumes: what is documented of the ACL's functions; a state that can be reached, with a
manifest; and a SET of the group `owners` to a group that is fetched. What is expected of the SET
holds if and only if the grants that there were make no difference. -/
theorem revokedAtOnce_iff {manifest : Option (RuntimeManifest Cid)} {disk : Option Config}
    {actions : List (AccessAction Cid)} {m : RuntimeManifest Cid}
    (hacl : DocumentedAcl normalizePrincipal checkCap)
    (hrun : Run (grantStep store defaults) (.begin defaults manifest disk) actions h)
    (hmanifest : h.state.manifest = some m) (hmembers : groupAt store cid = some members) :
    RevokedAtOnce store normalizePrincipal checkCap
        (setGroup store h.state "owners" cid true true) members ↔
      GrantsAgree store normalizePrincipal checkCap h members := by
  rw [revokedAtOnce_iff_rights hacl (grantsRecorded_of_run hrun) hmanifest hmembers]
  constructor
  · intro hsame
    refine ⟨fun did hdid hother hreached cap ↦ ?_, fun did hdid hother hreached caps ↦ ?_⟩
    · rw [← hsame did hdid hother]
      exact isOk_checkFull_of_grantReaches hacl hdid hreached cap
    · rw [← hsame did hdid hother, checkLoaded]
      exact (isOk_checkFull_of_not_grantReaches hacl hdid hreached caps).symm
  · intro hagree did hdid hother caps
    by_cases hreached : StillGranted Failure normalizePrincipal h members did
    · have hlive := isOk_checkFull_of_grantReaches hacl hdid hreached
      have hdocuments := hagree.reached did hdid hother hreached
      rw [isOk_checkFull_of_each hlive caps]
      exact (isOk_checkFull_of_each hdocuments caps).symm
    · rw [isOk_checkFull_of_not_grantReaches hacl hdid hreached caps]
      exact hagree.others did hdid hother hreached caps

end Revocation

/-! ### Two revocations -/

/-- Bob has an entry of his own in the root ACL, and his rights are the manifest's when he is
removed from the owners. -/
theorem revokedAtOnce_iff_own_entry :
    ∃ h, Run (grantStep accessStore freshConfig) (.begin freshConfig none none)
        [.startup [] everythingSucceeds,
          .setRootAcl (.acl ⟨[("did:ma:bob", .everything)], by decide⟩) true true,
          .setGroup "owners" (.group ["did:ma:alice", "did:ma:bob"]) true true] h ∧
      RevokedAtOnce accessStore principalOf checkCapByEntry
        (setGroup accessStore h.state "owners" (.group ["did:ma:alice"]) true true)
        ["did:ma:alice"] := by
  have hrun : Run (grantStep accessStore freshConfig) (.begin freshConfig none none)
      [.startup [] everythingSucceeds,
        .setRootAcl (.acl ⟨[("did:ma:bob", .everything)], by decide⟩) true true,
        .setGroup "owners" (.group ["did:ma:alice", "did:ma:bob"]) true true] _ :=
    run_of_execute rfl
  refine ⟨_, hrun, (revokedAtOnce_iff documentedAcl_byEntry hrun rfl rfl).mpr ⟨?_, ?_⟩⟩
  · rintro did hdid hother ⟨-, hgranted | ⟨-, key, hkey, hgroup, -⟩⟩ cap
    · have hmem : principalOf did ∈ ["did:ma:alice", "did:ma:bob", "did:ma:alice"] := hgranted
      simp only [List.mem_cons, List.not_mem_nil, or_false] at hmem
      have howner (halice : principalOf did = "did:ma:alice") :
          isOwner principalOf ["did:ma:alice"] did = true :=
        isOwner_iff.mpr ⟨_, List.mem_singleton_self _, halice.symm⟩
      obtain halice | hbob | halice := hmem
      · cases hother.symm.trans (howner halice)
      · refine isOk_checkFull_of_everything documentedAcl_byEntry hdid ?_ (by decide)
        rw [hbob]
        rfl
      · cases hother.symm.trans (howner halice)
    · have hmem : key ∈ ["did:ma:alice", "did:ma:bob", "did:ma:alice"] := hkey
      simp only [List.mem_cons, List.not_mem_nil, or_false] at hmem
      obtain rfl | rfl | rfl := hmem
      · cases hgroup
      · cases hgroup
      · cases hgroup
  · exact fun _ _ _ _ _ ↦ rfl

/-- Bob is removed from the owners, and the live root ACL still gives him everything. -/
theorem revoked_owner_remains :
    ∃ h, Run (grantStep accessStore freshConfig) (.begin freshConfig none none)
        [.startup [] everythingSucceeds,
          .setRootAcl (.acl ⟨[("did:ma:alice", .everything)], by decide⟩) true true,
          .setGroup "owners" (.group ["did:ma:alice", "did:ma:bob"]) true true,
          .setGroup "owners" (.group ["did:ma:alice"]) true true] h ∧
      isOwner principalOf h.state.owners "did:ma:bob" = false ∧
      (checkManifest accessStore principalOf checkCapByEntry h.state "did:ma:bob" ["ipfs"]).isOk =
        false ∧
      (checkRoot principalOf checkCapByEntry h.state "did:ma:bob" ["ipfs"]).isOk = true ∧
      ¬RevokedAtOnce accessStore principalOf checkCapByEntry h.state ["did:ma:alice"] := by
  refine ⟨_, run_of_execute rfl, by decide, by decide, by decide, fun h ↦ ?_⟩
  exact absurd (h.rights "did:ma:bob" (by decide) (by decide) ["ipfs"]) (by decide)

end MaRuntime.Daemon
