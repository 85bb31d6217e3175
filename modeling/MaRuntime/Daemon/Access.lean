import MaRuntime.Acl.Grants
import MaRuntime.Daemon.Claim
import MaRuntime.Manifest.Documents

/-!
# Who may do what on a runtime

The stores that decide about a runtime's owners and its root ACL. The manifest links the root ACL
and the groups, of which `owners` is one; `config.yaml` lists owners as well; the runtime holds the
list of owners, the root ACL and the groups in memory. A startup builds what is in memory from the
other two, grants the owners everything in the root ACL, and writes the merged list of owners back
to both (`startup`). A claim adds an owner to the list, the root ACL and the file (`claim`). SETs
through CRUD change the manifest and what is in memory (`setRootAcl`, `setGroup`).

`accessStep` is one such operation, and a list of actions is a history of the runtime with any
number of restarts.

Scope. A startup finds the manifest as the last operation left it. What can fail is given with the
action: each fetch and each publication. The documents that are linked are ACLs and groups; the
library of named ACLs is not read here. Nobody's right to an operation is asked. Every write of the
file succeeds.
-/

set_option autoImplicit false
set_option relaxedAutoImplicit false

namespace MaRuntime.Daemon

open Acl Manifest

/-! ### Documents -/

/-- The documents that the manifest links for its root ACL and its groups. -/
inductive AccessDocument
  | acl (map : AclMap)
  | group (members : List String)

abbrev AccessStore (Cid : Type) := ContentStore AccessDocument Cid

section Documents

variable {Cid : Type} (store : AccessStore Cid)

/-- What `load_acl_from_cid` reads. -/
def aclAt (cid : Cid) : Option AclMap :=
  match store.document cid with
  | some (.acl map) => some map
  | _ => none

/-- What `dag_get` reads as a group. -/
def groupAt (cid : Cid) : Option (List String) :=
  match store.document cid with
  | some (.group members) => some members
  | _ => none

@[simp] theorem aclAt_cidOf (map : AclMap) : aclAt store (store.cidOf (.acl map)) = some map := by
  simp [aclAt]

@[simp] theorem groupAt_cidOf (members : List String) :
    groupAt store (store.cidOf (.group members)) = some members := by
  simp [groupAt]

/-- The ACL of `bootstrap_minimal_manifest`: everything for everyone, or for the owners if there are
any. -/
def minimalAcl (owners : List String) : AclMap :=
  if owners = [] then AclMap.empty.insert "*" .everything else grantOwners .empty owners

/-- `bootstrap_minimal_manifest`. -/
def bootstrapMinimalManifest (owners : List String) : RuntimeManifest Cid :=
  { RuntimeManifest.default with
    acl := some ⟨store.cidOf (.acl (minimalAcl owners))⟩
    grp := KeyedMap.empty.insert "owners" ⟨store.cidOf (.group owners)⟩
    config := (KeyedMap.empty.insert "name" (.string "間trix")).insert "description"
      (.string "A 間 runtime with a lazy owner.") }

/-- The manifest with another link for a group. -/
def setGroupLink (m : RuntimeManifest Cid) (name : String) (cid : Cid) : RuntimeManifest Cid :=
  { m with grp := m.grp.insert name ⟨cid⟩ }

end Documents

/-! ### The state -/

/-- The manifest, the configuration with the list of owners, the root ACL and the cached groups. -/
structure AccessState (Cid : Type) where
  manifest : Option (RuntimeManifest Cid)
  config : ConfigState
  rootAcl : AclMap
  groupCache : KeyedMap String (List String)

namespace AccessState

variable {Cid : Type}

def owners (s : AccessState Cid) : List String := s.config.owners

/-- A runtime before its first startup, of which there are a manifest and a configuration file at
most. -/
def start (manifest : Option (RuntimeManifest Cid)) (disk : Option Config) (defaults : Config) :
    AccessState Cid where
  manifest := manifest
  config := ⟨disk, defaults, []⟩
  rootAcl := .empty
  groupCache := .empty

end AccessState

/-- What succeeds in a startup: to publish a minimal manifest if there is none, to fetch the
manifest, its root ACL and each of its groups, and to publish the merged list of owners. -/
structure StartupOutcome where
  bootstrapped : Bool
  manifestFetched : Bool
  aclFetched : Bool
  groupFetched : String → Bool
  ownersPublished : Bool

/-- The operations on the stores. -/
inductive AccessAction (Cid : Type)
  | startup (cliOwners : List String) (outcome : StartupOutcome)
  | claim (owner : String)
  | setRootAcl (cid : Cid) (fetched published : Bool)
  | setGroup (name : String) (cid : Cid) (fetched published : Bool)
  | deleteGroup (name : String) (published : Bool)
  | configure (action : ConfigAction)

section Operations

variable {Cid : Type} (store : AccessStore Cid) (defaults : Config)

/-! ### A startup -/

/-- The manifest that a startup goes on with. -/
def startupManifest (s : AccessState Cid) (outcome : StartupOutcome) :
    Option (RuntimeManifest Cid) :=
  match s.manifest with
  | some m => some m
  | none => if outcome.bootstrapped then some (bootstrapMinimalManifest store []) else none

/-- `populate_acl_and_group_caches`: the root ACL, which was empty, and the cached groups. -/
def populateAclAndGroupCaches (manifest : Option (RuntimeManifest Cid)) (outcome : StartupOutcome) :
    AclMap × KeyedMap String (List String) :=
  match manifest with
  | none => (.empty, .empty)
  | some m =>
    if outcome.manifestFetched then
      ((m.acl.bind fun link ↦
          if outcome.aclFetched then aclAt store link.cid else none).getD .empty,
        m.grp.filterMap fun name link ↦
          if outcome.groupFetched name then groupAt store link.cid else none)
    else (.empty, .empty)

/-- Whether the merged list of owners has one that the manifest's list, as it was read, lacks. -/
def needsManifestSync (resolved manifestOwners : List String) : Bool :=
  resolved.any fun o ↦ !manifestOwners.contains o

/-- `reconcile_owners_into_manifest`. -/
def reconcileOwnersIntoManifest (s : AccessState Cid) (published : Bool) : AccessState Cid :=
  match s.manifest with
  | none => s
  | some m =>
    if s.owners ≠ [] ∧ published then
      { s with
        manifest := some (setGroupLink m "owners" (store.cidOf (.group s.owners)))
        groupCache := s.groupCache.insert "owners" s.owners }
    else s

/-- `resolve_and_seed_owners`, with the ACL and the groups of the manifest: the owners are resolved,
and each of them is granted everything. -/
def resolveAndSeedOwners (s : AccessState Cid) (cliOwners : List String)
    (outcome : StartupOutcome) : AccessState Cid :=
  let manifest := startupManifest store s outcome
  let (acl, groupCache) := populateAclAndGroupCaches store manifest outcome
  let config := finalizeStartup defaults s.config.disk (s.config.disk.getD defaults) cliOwners
    ((groupCache.get "owners").getD [])
  ⟨manifest, config, grantOwners acl config.owners, groupCache⟩

/-- A startup, from the file and the manifest alone. -/
def startup (s : AccessState Cid) (cliOwners : List String) (outcome : StartupOutcome) :
    AccessState Cid :=
  let seeded := resolveAndSeedOwners store defaults s cliOwners outcome
  if needsManifestSync seeded.owners ((seeded.groupCache.get "owners").getD []) then
    reconcileOwnersIntoManifest store seeded outcome.ownersPublished
  else seeded

/-! ### Claims and CRUD -/

/-- `handle_claim`, with what it grants. -/
def claim (s : AccessState Cid) (owner : String) : ClaimReply × AccessState Cid :=
  match handleClaim defaults s.config owner with
  | (.claimed newOwners, config) =>
    (.claimed newOwners,
      { s with config := config, rootAcl := grantOwners s.rootAcl newOwners })
  | (reply, config) => (reply, { s with config := config })

/-- `handle_root_acl`, a SET. -/
def setRootAcl (s : AccessState Cid) (cid : Cid) (fetched published : Bool) : AccessState Cid :=
  match s.manifest, aclAt store cid with
  | some m, some map =>
    if fetched ∧ published then
      { s with manifest := some { m with acl := some ⟨cid⟩ }, rootAcl := map }
    else s
  | _, _ => s

/-- `group_cache_update`: a list that cannot be fetched leaves the cache as it was. -/
def groupCacheUpdate (cache : KeyedMap String (List String)) (name : String) (cid : Cid)
    (fetched : Bool) : KeyedMap String (List String) :=
  match groupAt store cid with
  | some members => if fetched then cache.insert name members else cache
  | none => cache

/-- `handle_root_grp`, a SET. -/
def setGroup (s : AccessState Cid) (name : String) (cid : Cid) (fetched published : Bool) :
    AccessState Cid :=
  match s.manifest with
  | none => s
  | some m =>
    if published then
      let groupCache := groupCacheUpdate store s.groupCache name cid fetched
      let updated : AccessState Cid :=
        { s with manifest := some (setGroupLink m name cid), groupCache := groupCache }
      if name = "owners" then
        let members := (groupCache.get "owners").getD []
        { updated with
          rootAcl := grantOwners s.rootAcl members
          config := { s.config with owners := members } }
      else updated
    else s

/-- `handle_root_grp`, a DELETE, which is refused for the owners. -/
def deleteGroup (s : AccessState Cid) (name : String) (published : Bool) : AccessState Cid :=
  match s.manifest with
  | none => s
  | some m =>
    if name ≠ "owners" ∧ (m.grp.get name).isSome ∧ published then
      { s with
        manifest := some { m with grp := m.grp.remove name }
        groupCache := s.groupCache.remove name }
    else s

/-- One operation. A claim is an action of its own, since it grants. -/
def accessStep (s : AccessState Cid) : AccessAction Cid → Option (AccessState Cid)
  | .startup cliOwners outcome => some (startup store defaults s cliOwners outcome)
  | .claim owner => some (claim defaults s owner).2
  | .setRootAcl cid fetched published => some (setRootAcl store s cid fetched published)
  | .setGroup name cid fetched published => some (setGroup store s name cid fetched published)
  | .deleteGroup name published => some (deleteGroup s name published)
  | .configure (.claim _) => none
  | .configure action =>
    (configStep defaults s.config action).map fun config ↦ { s with config := config }

/-! ### What the operations change -/

variable {store defaults} {s t : AccessState Cid}

/-- The link of the manifest to its root ACL. -/
def AccessState.aclLink (s : AccessState Cid) : Option (Option (IpldLink Cid)) :=
  s.manifest.map RuntimeManifest.acl

variable (store defaults s) in
/-- After it has seeded the owners, a startup changes at most the manifest's list of them and the
group that is cached of it, and does so if the list lacks one of them and can be published. -/
theorem startup_cases (cliOwners : List String) (outcome : StartupOutcome)
    {seeded : AccessState Cid}
    (hseeded : resolveAndSeedOwners store defaults s cliOwners outcome = seeded) :
    ((needsManifestSync seeded.owners ((seeded.groupCache.get "owners").getD []) = true →
        outcome.ownersPublished = true → seeded.manifest = none) ∧
      startup store defaults s cliOwners outcome = seeded) ∨
    ∃ m, seeded.manifest = some m ∧ outcome.ownersPublished = true ∧
      needsManifestSync seeded.owners ((seeded.groupCache.get "owners").getD []) = true ∧
      startup store defaults s cliOwners outcome =
        { seeded with
          manifest := some (setGroupLink m "owners" (store.cidOf (.group seeded.owners)))
          groupCache := seeded.groupCache.insert "owners" seeded.owners } := by
  unfold startup reconcileOwnersIntoManifest
  rw [hseeded]
  dsimp only
  cases hmanifest : seeded.manifest with
  | none => exact .inl ⟨fun _ _ ↦ rfl, ite_self _⟩
  | some m =>
    dsimp only
    split_ifs with hsync hpublished
    · exact .inr ⟨m, rfl, hpublished.2, hsync, rfl⟩
    · refine .inl ⟨fun _ h ↦ absurd ⟨fun hnil ↦ ?_, h⟩ hpublished, rfl⟩
      rw [hnil] at hsync
      cases hsync
    · exact .inl ⟨fun h ↦ absurd h hsync, rfl⟩

variable (defaults s) in
/-- A claim leaves the manifest and the groups alone, and a claim that succeeds grants its owner
everything. -/
theorem claim_cases (owner : String) :
    (s.owners = [] ∧ claim defaults s owner = (.claimed [owner],
      { s with
        config := (handleClaim defaults s.config owner).2
        rootAcl := grantOwners s.rootAcl [owner] }) ∧
      (handleClaim defaults s.config owner).2.owners = [owner]) ∨
    ((∀ newOwners, (claim defaults s owner).1 ≠ .claimed newOwners) ∧
      (claim defaults s owner).2 = s) := by
  unfold claim handleClaim
  by_cases hcontains : s.config.owners.contains owner = true
  · rw [if_pos hcontains]
    exact .inr ⟨fun _ ↦ nofun, rfl⟩
  · rw [if_neg hcontains]
    by_cases hempty : s.config.owners ≠ []
    · rw [if_pos hempty]
      exact .inr ⟨fun _ ↦ nofun, rfl⟩
    · rw [if_neg hempty]
      exact .inl ⟨not_not.mp hempty, rfl, rfl⟩

variable (store s) in
/-- A SET of the root ACL puts an ACL that it can fetch in the manifest and in memory. -/
theorem setRootAcl_cases (cid : Cid) (fetched published : Bool) :
    (∃ m map, s.manifest = some m ∧ aclAt store cid = some map ∧ fetched = true ∧ published = true ∧
      setRootAcl store s cid fetched published =
        { s with manifest := some { m with acl := some ⟨cid⟩ }, rootAcl := map }) ∨
    (¬(s.manifest.isSome = true ∧ (aclAt store cid).isSome = true ∧ fetched = true ∧
        published = true) ∧
      setRootAcl store s cid fetched published = s) := by
  unfold setRootAcl
  cases hmanifest : s.manifest with
  | none => exact .inr ⟨fun h ↦ Bool.noConfusion h.1, rfl⟩
  | some m =>
    cases hmap : aclAt store cid with
    | none => exact .inr ⟨fun h ↦ Bool.noConfusion h.2.1, rfl⟩
    | some map =>
      dsimp only
      split_ifs with hset
      · exact .inl ⟨m, map, rfl, rfl, hset.1, hset.2, rfl⟩
      · exact .inr ⟨fun h ↦ hset h.2.2, rfl⟩

variable (store s) in
/-- A group that is not the owners' changes neither the owners nor the root ACL. -/
theorem setGroup_of_ne (cid : Cid) (fetched published : Bool) {name : String}
    (hname : name ≠ "owners") :
    (setGroup store s name cid fetched published).config = s.config ∧
      (setGroup store s name cid fetched published).rootAcl = s.rootAcl ∧
      (setGroup store s name cid fetched published).aclLink = s.aclLink := by
  unfold setGroup
  cases hmanifest : s.manifest with
  | none => exact ⟨rfl, rfl, rfl⟩
  | some m =>
    dsimp only
    rw [if_neg hname]
    split_ifs
    · exact ⟨rfl, rfl, by rw [AccessState.aclLink, AccessState.aclLink, hmanifest]; rfl⟩
    · exact ⟨rfl, rfl, rfl⟩

variable (s) in
theorem deleteGroup_unchanged (name : String) (published : Bool) :
    (deleteGroup s name published).config = s.config ∧
      (deleteGroup s name published).rootAcl = s.rootAcl ∧
      (deleteGroup s name published).aclLink = s.aclLink := by
  unfold deleteGroup
  cases hmanifest : s.manifest with
  | none => exact ⟨rfl, rfl, rfl⟩
  | some m =>
    dsimp only
    split_ifs
    · exact ⟨rfl, rfl, by rw [AccessState.aclLink, AccessState.aclLink, hmanifest]; rfl⟩
    · exact ⟨rfl, rfl, rfl⟩

/-- An operation on the configuration changes nothing else and keeps the owners. The owners on file
stay, or become those of the configuration in memory. -/
theorem configure_cases {action : ConfigAction}
    (h : accessStep store defaults s (.configure action) = some t) :
    ∃ config, t = { s with config := config } ∧ config.owners = s.owners ∧
      config.sharedConfig.ownersFromConfig = s.config.sharedConfig.ownersFromConfig ∧
      (config.ownersOnDisk = s.config.ownersOnDisk ∨
        config.ownersOnDisk = s.config.sharedConfig.ownersFromConfig) := by
  have hmap : (configStep defaults s.config action).map (fun config ↦ { s with config := config }) =
        some t ∧ ∀ owner, action ≠ .claim owner := by
    cases action with
    | claim owner => cases h
    | setConfigKey key val => exact ⟨h, fun _ ↦ nofun⟩
    | republish rootCid => exact ⟨h, fun _ ↦ nofun⟩
    | shutdown rootCid => exact ⟨h, fun _ ↦ nofun⟩
  obtain ⟨config, hconfig, rfl⟩ := Option.map_eq_some_iff.mp hmap.1
  refine ⟨config, rfl, ?_⟩
  obtain ⟨-, owner, hclaim, -⟩ | ⟨-, rfl⟩ | ⟨-, howners, hdisk, hshared⟩ := configStep_cases hconfig
  · exact absurd hclaim (hmap.2 owner)
  · exact ⟨rfl, rfl, .inl rfl⟩
  · exact ⟨howners, hshared, .inr hdisk⟩

end Operations

/-! ### Checks -/

/-- A check of capabilities in the live root ACL, with the cached groups. -/
def checkRoot {Cid Failure : Type} (normalizePrincipal : String → String)
    (checkCap : AclMap → String → String → Except Failure Unit) (s : AccessState Cid)
    (caller : String) (caps : List String) : Except AccessDenied Unit :=
  checkFull normalizePrincipal checkCap s.rootAcl caller caps (resolveGroup s.groupCache)

/-! ### A runtime that was never started -/

/-- The store in which every document is its own identifier. -/
def accessStore : AccessStore AccessDocument where
  cidOf := id
  document := some
  document_cidOf _ := rfl

/-- A startup in which everything succeeds. -/
def everythingSucceeds : StartupOutcome := ⟨true, true, true, fun _ ↦ true, true⟩

/-- A runtime that has never been started. -/
def unstarted : AccessState AccessDocument := .start none none freshConfig

end MaRuntime.Daemon
