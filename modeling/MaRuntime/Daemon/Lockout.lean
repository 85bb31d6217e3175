import MaRuntime.Library.Runs
import MaRuntime.Daemon.Access

/-!
# Owners at the gates

The gates at which the runtime asks its root ACL: that of CRUD, that of the publisher, and the
checks of CRUD before an entity is upserted or deleted. The first lets every owner pass. The others
ask the ACL of an owner as of anyone.

`OwnerAdmitted` says that all of them accept an owner. They do if and only if the root ACL gives the
owner every capability of its own accord (`ownerAdmitted_iff`), whatever it has been replaced by
meanwhile. An ACL that grants the owner everything does so unless it denies the wildcard
(`ownerAdmitted_of_granted`); the owner who replaces the ACL by one without its own entry is locked
out of all gates but the first (`owner_locked_out`).

Main definitions: `crudGate`, `ipfsGate`, `checkEntityManagementCap`, `OwnerAdmitted`.
Main results: `ownerAdmitted_iff`, `ownerAdmitted_of_granted`, `owner_locked_out`.
-/

set_option autoImplicit false
set_option relaxedAutoImplicit false

namespace MaRuntime.Daemon

open Acl Runs

section Gates

variable {Cid Failure : Type} (normalizePrincipal : String → String)
  (checkCap : AclMap → String → String → Except Failure Unit)

/-! ### The gates -/

/-- The gate of `handle_crud_message`. -/
def crudGate (s : AccessState Cid) (fromUrl : String) : Except AccessDenied Unit :=
  if isOwner normalizePrincipal s.owners fromUrl then .ok ()
  else checkRoot normalizePrincipal checkCap s fromUrl ["crud"]

/-- The types of message that the publisher serves. -/
inductive IpfsRequest
  | identityPublish
  | ipfs

def IpfsRequest.cap : IpfsRequest → String
  | .identityPublish => "identity-publish"
  | .ipfs => "ipfs"

/-- The gate of `handle_ipfs_message`. -/
def ipfsGate (s : AccessState Cid) (fromUrl : String) (request : IpfsRequest) :
    Except AccessDenied Unit :=
  checkRoot normalizePrincipal checkCap s fromUrl [request.cap]

/-- `check_entity_management_cap`. -/
def checkEntityManagementCap (s : AccessState Cid) (fromUrl : String) (caps : List String) :
    Except AccessDenied Unit :=
  checkRoot normalizePrincipal checkCap s fromUrl caps

/-- The check before an entity of a kind is upserted. -/
def upsertGate (s : AccessState Cid) (fromUrl kind : String) : Except AccessDenied Unit :=
  checkEntityManagementCap normalizePrincipal checkCap s fromUrl [kind]

/-- The check before an entity is deleted. -/
def deleteGate (s : AccessState Cid) (fromUrl : String) : Except AccessDenied Unit :=
  checkEntityManagementCap normalizePrincipal checkCap s fromUrl ["delete", "entities"]

/-- Every gate accepts the caller. -/
structure OwnerAdmitted (s : AccessState Cid) (caller : String) : Prop where
  crud : (crudGate normalizePrincipal checkCap s caller).isOk = true
  ipfs : ∀ request, (ipfsGate normalizePrincipal checkCap s caller request).isOk = true
  upsert : ∀ kind, (upsertGate normalizePrincipal checkCap s caller kind).isOk = true
  delete : (deleteGate normalizePrincipal checkCap s caller).isOk = true

/-- The root ACL gives the caller a capability: it denies neither the caller nor the
wildcard, and either `check_cap` grants the capability, or a group of the caller is allowed
it and none is denied. -/
def RootAclGives (s : AccessState Cid) (caller cap : String) : Prop :=
  ¬DeniedDirectly normalizePrincipal s.rootAcl caller ∧
    (GrantedWithoutGroups checkCap s.rootAcl caller [cap] ∨
      ¬DeniedByGroup normalizePrincipal s.rootAcl caller
          (resolveGroup s.groupCache : String → Except Failure _) ∧
        AllowedByGroup normalizePrincipal s.rootAcl caller [cap]
          (resolveGroup s.groupCache : String → Except Failure _))

variable {normalizePrincipal checkCap} {s : AccessState Cid} {caller : String}

theorem isOk_checkRoot_iff {cap : String} :
    (checkRoot normalizePrincipal checkCap s caller [cap]).isOk = true ↔
      RootAclGives normalizePrincipal checkCap s caller cap := by
  rw [checkRoot, isOk_checkFull, any_allowsThroughGroup_iff]
  rfl

/-- Assumes: the caller is an owner. Every gate accepts the caller if and only if the live root ACL
gives it every capability. -/
theorem ownerAdmitted_iff (howner : isOwner normalizePrincipal s.owners caller = true) :
    OwnerAdmitted normalizePrincipal checkCap s caller ↔
      ∀ cap, RootAclGives normalizePrincipal checkCap s caller cap := by
  constructor
  · intro h cap
    exact isOk_checkRoot_iff.mp (h.upsert cap)
  · intro h
    have hcheck : ∀ cap, (checkRoot normalizePrincipal checkCap s caller [cap]).isOk = true :=
      fun cap ↦ isOk_checkRoot_iff.mpr (h cap)
    refine ⟨?_, fun request ↦ hcheck request.cap, fun kind ↦ hcheck kind, ?_⟩
    · rw [crudGate, if_pos howner]
      rfl
    · exact isOk_checkFull_of_subset (by simp) (hcheck "delete")

/-- Assumes: what is documented of the ACL's functions, and an owner that is a DID and has the entry
of a grant. Unless the ACL denies the wildcard, every gate accepts the owner. -/
theorem ownerAdmitted_of_granted (hacl : DocumentedAcl normalizePrincipal checkCap)
    (hdid : isDid caller = true) (howner : isOwner normalizePrincipal s.owners caller = true)
    (hentry : s.rootAcl.get (normalizePrincipal caller) = some .everything)
    (hwildcard : s.rootAcl.get "*" ≠ some .deny) :
    OwnerAdmitted normalizePrincipal checkCap s caller := by
  refine (ownerAdmitted_iff howner).mpr fun cap ↦ isOk_checkRoot_iff.mp ?_
  exact isOk_checkFull_of_everything hacl hdid hentry hwildcard

end Gates

/-! ### An owner without an entry -/

/-- The owner of a runtime that was claimed is accepted at every gate. -/
theorem ownerAdmitted_iff_claimed :
    ∃ s, Run (accessStep accessStore freshConfig) unstarted
        [.startup [] everythingSucceeds, .claim "did:ma:alice"] s ∧
      OwnerAdmitted principalOf checkCapByEntry s "did:ma:alice" := by
  refine ⟨_, run_of_execute rfl, (ownerAdmitted_iff (by decide)).mpr fun cap ↦ ⟨?_, .inl ?_⟩⟩
  · rintro (h | h)
    · exact absurd h (by decide)
    · exact absurd h (by decide)
  · refine ⟨cap, List.mem_singleton_self _, ?_⟩
    rw [documentedAcl_byEntry.checkCap _ _ _ (by decide)]
    exact allows_everything cap

/-- The owner of a runtime puts an ACL in place that has an entry for somebody else only, and cannot
publish any more. -/
theorem owner_locked_out :
    ∃ s, Run (accessStep accessStore freshConfig) unstarted
        [.startup [] everythingSucceeds, .claim "did:ma:alice",
          .setRootAcl (.acl ⟨[("did:ma:bob", .allow ["*"])], by decide⟩) true true] s ∧
      isOwner principalOf s.owners "did:ma:alice" = true ∧
      (crudGate principalOf checkCapByEntry s "did:ma:alice").isOk = true ∧
      (ipfsGate principalOf checkCapByEntry s "did:ma:alice" .ipfs).isOk = false ∧
      ¬OwnerAdmitted principalOf checkCapByEntry s "did:ma:alice" := by
  refine ⟨_, run_of_execute rfl, by decide, by decide, by decide, fun h ↦ ?_⟩
  exact absurd (h.ipfs .ipfs) (by decide)

end MaRuntime.Daemon
