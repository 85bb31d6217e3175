import MaRuntime.Library.Runs
import MaRuntime.Daemon.Access

/-!
# Caches of the manifest's ACLs and groups

The runtime has the root ACL, the named ACLs and the groups that the manifest links in memory, and
CRUD changes both sides. `handle_root_acl` and `handle_root_acls` load an ACL before they link it.
`handle_root_grp` links a group first and loads it then, so a group that cannot be loaded stands in
the manifest, next to the cached one of before. Its SET of the owners also grants the new owners
everything in the root ACL and takes nothing from the ones of before.

`Mirrored` says that what is in memory is what the manifest links. `mirrored_iff` says for which
operations of a run it holds after each of them, and each SET without a document leaves everything
as it was.

Main definitions: `CachedState`, `cachedStep`, `Mirrored`, `Unchanged`, `InOrder`.
Main results: `mirrored_iff`, `unloadable_group_linked`.

Scope. A handler runs to completion before the next one. What can fail is given with the action: the
fetch of a document and the publication of a manifest. References that are no CIDs are refused
before anything is done and are left out.
-/

set_option autoImplicit false
set_option relaxedAutoImplicit false

namespace MaRuntime.Daemon

open Acl Manifest Runs

/-! ### The operations -/

/-- The stores of `AccessState` with the cache of named ACLs. -/
structure CachedState (Cid : Type) extends AccessState Cid where
  aclCache : KeyedMap String AclMap

/-- The SETs and DELETEs of `/acl`, of an ACL under `/acls` and of a group under `/grp`. -/
inductive CachedAction (Cid : Type)
  | setAcl (cid : Cid) (fetched published : Bool)
  | deleteAcl
  | setNamedAcl (name : String) (cid : Cid) (fetched published : Bool)
  | deleteNamedAcl (name : String) (published : Bool)
  | setGroup (name : String) (cid : Cid) (fetched published : Bool)
  | deleteGroup (name : String) (published : Bool)

/-- The key of a named ACL in the cache. -/
def namedAclKey (name : String) : String := "acls." ++ name

section Operations

variable {Cid : Type} (store : AccessStore Cid)

/-- `handle_root_acls`, a SET. -/
def setNamedAcl (s : CachedState Cid) (name : String) (cid : Cid) (fetched published : Bool) :
    CachedState Cid :=
  match s.manifest, aclAt store cid with
  | some m, some map =>
    if fetched ∧ published then
      { s with
        manifest := some { m with acls := m.acls.insert name ⟨cid⟩ }
        aclCache := s.aclCache.insert (namedAclKey name) map }
    else s
  | _, _ => s

/-- `handle_root_acls`, a DELETE. -/
def deleteNamedAcl (s : CachedState Cid) (name : String) (published : Bool) : CachedState Cid :=
  match s.manifest with
  | none => s
  | some m =>
    if (m.acls.get name).isSome ∧ published then
      { s with
        manifest := some { m with acls := m.acls.remove name }
        aclCache := s.aclCache.remove (namedAclKey name) }
    else s

/-- One operation. A DELETE of `/acl` is refused. -/
def cachedStep (s : CachedState Cid) : CachedAction Cid → Option (CachedState Cid)
  | .setAcl cid fetched published =>
    some { s with toAccessState := setRootAcl store s.toAccessState cid fetched published }
  | .deleteAcl => some s
  | .setNamedAcl name cid fetched published => some (setNamedAcl store s name cid fetched published)
  | .deleteNamedAcl name published => some (deleteNamedAcl s name published)
  | .setGroup name cid fetched published =>
    some { s with toAccessState := setGroup store s.toAccessState name cid fetched published }
  | .deleteGroup name published =>
    some { s with toAccessState := deleteGroup s.toAccessState name published }

/-! ### The property -/

/-- The root ACL that a manifest links, without entries where it links none. -/
def linkedRootAcl (m : RuntimeManifest Cid) : Option AclMap :=
  match m.acl with
  | some link => aclAt store link.cid
  | none => some .empty

/-- Two ACLs have the same entries, up to those that allow an owner everything. -/
def UpToOwners (owners : List String) (live document : AclMap) : Prop :=
  ∀ key, live.get key = document.get key ∨ key ∈ owners ∧ live.get key = some .everything

/-- What is in memory is what a manifest links. -/
structure MirrorsManifest (m : RuntimeManifest Cid) (s : CachedState Cid) : Prop where
  acl : ∃ document, linkedRootAcl store m = some document ∧ UpToOwners s.owners s.rootAcl document
  acls : Mirrors (fun link ↦ aclAt store link.cid) namedAclKey m.acls s.aclCache
  groups : Mirrors (fun link ↦ groupAt store link.cid) id m.grp s.groupCache

/-- What is in memory is what the manifest links. -/
def Mirrored (s : CachedState Cid) : Prop :=
  ∃ m, s.manifest = some m ∧ MirrorsManifest store m s

/-- Two manifests have the same links and settings. -/
structure SameManifest (m other : RuntimeManifest Cid) : Prop where
  rest : { other with acls := m.acls, grp := m.grp } = m
  acls : ∀ name, other.acls.get name = m.acls.get name
  grp : ∀ name, other.grp.get name = m.grp.get name

/-- Neither the manifest nor a cache nor the owners are changed. -/
structure Unchanged (s t : CachedState Cid) : Prop where
  manifest : Option.Rel SameManifest s.manifest t.manifest
  rootAcl : UpToOwners s.owners t.rootAcl s.rootAcl
  aclCache : ∀ key, t.aclCache.get key = s.aclCache.get key
  groupCache : ∀ name, t.groupCache.get name = s.groupCache.get name
  owners : t.owners = s.owners

/-- The document that a SET refers to is missing, cannot be fetched, or is of another kind. -/
def Unloadable : CachedAction Cid → Prop
  | .setAcl cid fetched _ | .setNamedAcl _ cid fetched _ =>
    fetched = true → aclAt store cid = none
  | .setGroup _ cid fetched _ => fetched = true → groupAt store cid = none
  | _ => False

/-- The condition on a SET of a group that is published. If the group is loaded and is that of the
owners, the live root ACL has for everyone else what the linked ACL has. If it is not loaded, it is
linked already, and for the owners the cached list is the list of owners. -/
def InOrder (s : CachedState Cid) : CachedAction Cid → Prop
  | .setGroup name cid fetched true =>
    ∀ m document, s.manifest = some m → linkedRootAcl store m = some document →
      match fetched, groupAt store cid with
      | true, some members =>
        name = "owners" → ∀ key, key ∉ members → s.rootAcl.get key = document.get key
      | _, _ =>
        m.grp.get name = some ⟨cid⟩ ∧
          (name = "owners" → s.owners = (s.groupCache.get "owners").getD [])
  | _ => True

/-! ### What the operations change -/

variable {store} {s t u : CachedState Cid} {m : RuntimeManifest Cid}

theorem namedAclKey_injective : Function.Injective namedAclKey := by
  intro first second h
  exact (String.append_right_inj "acls.").mp h

theorem UpToOwners.refl (owners : List String) (acl : AclMap) : UpToOwners owners acl acl :=
  fun _ ↦ .inl rfl

theorem SameManifest.refl (m : RuntimeManifest Cid) : SameManifest m m where
  rest := rfl
  acls _ := rfl
  grp _ := rfl

/-- A group that is linked again stays as it was. -/
theorem sameManifest_setGroupLink {name : String} {cid : Cid} (h : m.grp.get name = some ⟨cid⟩) :
    SameManifest m (setGroupLink m name cid) where
  rest := rfl
  acls _ := rfl
  grp other := by
    by_cases hother : other = name
    · rw [hother, h]
      exact KeyedMap.get_insert_self m.grp name ⟨cid⟩
    · exact KeyedMap.get_insert_of_ne m.grp ⟨cid⟩ hother

theorem Unchanged.refl (s : CachedState Cid) : Unchanged s s where
  manifest := by
    cases s.manifest with
    | none => exact .none
    | some m => exact .some (.refl m)
  rootAcl := .refl s.owners s.rootAcl
  aclCache _ := rfl
  groupCache _ := rfl
  owners := rfl

variable (store s) in
/-- A SET of a named ACL puts an ACL that it can load in the manifest and in the cache. -/
theorem setNamedAcl_cases (name : String) (cid : Cid) (fetched published : Bool) :
    (∃ m map, s.manifest = some m ∧ aclAt store cid = some map ∧ fetched = true ∧
      setNamedAcl store s name cid fetched published =
        { s with
          manifest := some { m with acls := m.acls.insert name ⟨cid⟩ }
          aclCache := s.aclCache.insert (namedAclKey name) map }) ∨
    setNamedAcl store s name cid fetched published = s := by
  unfold setNamedAcl
  cases hmanifest : s.manifest with
  | none => exact .inr rfl
  | some m =>
    cases hmap : aclAt store cid with
    | none => exact .inr rfl
    | some map =>
      dsimp only
      split_ifs with hset
      · exact .inl ⟨m, map, rfl, rfl, hset.1, rfl⟩
      · exact .inr rfl

variable (s) in
theorem deleteNamedAcl_cases (name : String) (published : Bool) :
    (∃ m, s.manifest = some m ∧ deleteNamedAcl s name published =
      { s with
        manifest := some { m with acls := m.acls.remove name }
        aclCache := s.aclCache.remove (namedAclKey name) }) ∨
    deleteNamedAcl s name published = s := by
  unfold deleteNamedAcl
  cases hmanifest : s.manifest with
  | none => exact .inr rfl
  | some m =>
    dsimp only
    split_ifs
    · exact .inl ⟨m, rfl, rfl⟩
    · exact .inr rfl

theorem deleteGroup_cases (s : AccessState Cid) (name : String) (published : Bool) :
    (∃ m, s.manifest = some m ∧ deleteGroup s name published =
      { s with
        manifest := some { m with grp := m.grp.remove name }
        groupCache := s.groupCache.remove name }) ∨
    deleteGroup s name published = s := by
  unfold deleteGroup
  cases hmanifest : s.manifest with
  | none => exact .inr rfl
  | some m =>
    dsimp only
    split_ifs
    · exact .inl ⟨m, rfl, rfl⟩
    · exact .inr rfl

/-- What a SET of the owners' group does with the cached list of them. -/
def withMembers (s : AccessState Cid) (name : String) (members : List String) : AccessState Cid :=
  if name = "owners" then
    { s with
      rootAcl := grantOwners s.rootAcl members
      config := { s.config with owners := members } }
  else s

theorem setGroup_of_loaded {s : AccessState Cid} (hmanifest : s.manifest = some m) (name : String)
    {cid : Cid} {members : List String} (hmembers : groupAt store cid = some members) :
    setGroup store s name cid true true = withMembers
      { s with
        manifest := some (setGroupLink m name cid)
        groupCache := s.groupCache.insert name members } name members := by
  simp only [setGroup, hmanifest, if_true, groupCacheUpdate, hmembers, withMembers]
  split_ifs with hname
  · rw [hname, KeyedMap.get_insert_self]
    rfl
  · rfl

theorem setGroup_of_not_loaded {s : AccessState Cid} (hmanifest : s.manifest = some m)
    (name : String) {cid : Cid} {fetched : Bool}
    (hunloadable : fetched = true → groupAt store cid = none) :
    setGroup store s name cid fetched true = withMembers
      { s with manifest := some (setGroupLink m name cid) } name
      ((s.groupCache.get "owners").getD []) := by
  have hcache : groupCacheUpdate store s.groupCache name cid fetched = s.groupCache := by
    unfold groupCacheUpdate
    cases fetched with
    | false => cases groupAt store cid <;> rfl
    | true => rw [hunloadable rfl]
  simp only [setGroup, hmanifest, if_true, hcache, withMembers]

/-! ### Steps -/

theorem mirrored_setAcl (h : Mirrored store s) (cid : Cid) (fetched published : Bool)
    (hstep : cachedStep store s (.setAcl cid fetched published) = some t) :
    Mirrored store t ∧ (Unloadable store (.setAcl cid fetched published) → Unchanged s t) := by
  obtain ⟨m, hmanifest, hmirrors⟩ := h
  obtain rfl := Option.some.inj hstep
  obtain ⟨m', map, hmanifest', hmap, hfetched, -, heq⟩ | ⟨-, heq⟩ :=
    setRootAcl_cases store s.toAccessState cid fetched published
  · obtain rfl := Option.some.inj (hmanifest.symm.trans hmanifest')
    rw [heq]
    refine ⟨⟨_, rfl, ⟨map, hmap, .refl _ map⟩, hmirrors.acls, hmirrors.groups⟩, ?_⟩
    intro hunloadable
    rw [hunloadable hfetched] at hmap
    cases hmap
  · rw [heq]
    exact ⟨⟨m, hmanifest, hmirrors⟩, fun _ ↦ .refl s⟩

theorem mirrored_setNamedAcl (h : Mirrored store s) (name : String) (cid : Cid)
    (fetched published : Bool)
    (hstep : cachedStep store s (.setNamedAcl name cid fetched published) = some t) :
    Mirrored store t ∧
      (Unloadable store (.setNamedAcl name cid fetched published) → Unchanged s t) := by
  obtain ⟨m, hmanifest, hmirrors⟩ := h
  obtain rfl := Option.some.inj hstep
  obtain ⟨m', map, hmanifest', hmap, hfetched, heq⟩ | heq :=
    setNamedAcl_cases store s name cid fetched published
  · obtain rfl := Option.some.inj (hmanifest.symm.trans hmanifest')
    rw [heq]
    have hacls := hmirrors.acls.insert namedAclKey_injective name ⟨cid⟩ hmap
    refine ⟨⟨_, rfl, hmirrors.acl, hacls, hmirrors.groups⟩, ?_⟩
    intro hunloadable
    rw [hunloadable hfetched] at hmap
    cases hmap
  · rw [heq]
    exact ⟨⟨m, hmanifest, hmirrors⟩, fun _ ↦ .refl s⟩

theorem mirrored_deleteNamedAcl (h : Mirrored store s) (name : String) (published : Bool) :
    Mirrored store (deleteNamedAcl s name published) := by
  obtain ⟨m, hmanifest, hmirrors⟩ := h
  obtain ⟨m', hmanifest', heq⟩ | heq := deleteNamedAcl_cases s name published
  · obtain rfl := Option.some.inj (hmanifest.symm.trans hmanifest')
    rw [heq]
    exact ⟨_, rfl, hmirrors.acl, hmirrors.acls.remove namedAclKey_injective name, hmirrors.groups⟩
  · rw [heq]
    exact ⟨m, hmanifest, hmirrors⟩

theorem mirrored_deleteGroup (h : Mirrored store s) (name : String) (published : Bool) :
    Mirrored store
      { s with toAccessState := deleteGroup s.toAccessState name published } := by
  obtain ⟨m, hmanifest, hmirrors⟩ := h
  obtain ⟨m', hmanifest', heq⟩ | heq := deleteGroup_cases s.toAccessState name published
  · obtain rfl := Option.some.inj (hmanifest.symm.trans hmanifest')
    rw [heq]
    exact ⟨_, rfl, hmirrors.acl, hmirrors.acls, hmirrors.groups.remove Function.injective_id name⟩
  · rw [heq]
    exact ⟨m, hmanifest, hmirrors⟩

/-- Grants to the members of the owners' group keep the root ACL what a document says, up to the
owners, if and only if the document says it for everyone who is no member. -/
theorem upToOwners_grantOwners {live document : AclMap} {members : List String} :
    UpToOwners members (grantOwners live members) document ↔
      ∀ key, key ∉ members → live.get key = document.get key := by
  constructor
  · intro h key hkey
    have hget := get_grantOwners live members key
    rw [if_neg hkey] at hget
    rcases h key with hsame | ⟨hmember, -⟩
    · exact hget.symm.trans hsame
    · exact absurd hmember hkey
  · intro h key
    have hget := get_grantOwners live members key
    by_cases hkey : key ∈ members
    · exact .inr ⟨hkey, hget.trans (if_pos hkey)⟩
    · exact .inl ((hget.trans (if_neg hkey)).trans (h key hkey))

/-- A SET of a group that is loaded keeps the mirror exactly if, for the owners' group, the live
root ACL has for everyone else what the linked one has. -/
theorem mirrored_setGroup_of_loaded (hmanifest : s.manifest = some m)
    (h : MirrorsManifest store m s) {document : AclMap}
    (hdocument : linkedRootAcl store m = some document) (name : String) {cid : Cid}
    {members : List String} (hmembers : groupAt store cid = some members) :
    Mirrored store
        { s with toAccessState := setGroup store s.toAccessState name cid true true } ↔
      (name = "owners" → ∀ key, key ∉ members → s.rootAcl.get key = document.get key) := by
  rw [setGroup_of_loaded hmanifest name hmembers]
  have hgroups : Mirrors (fun link ↦ groupAt store link.cid) id (setGroupLink m name cid).grp
      (s.groupCache.insert name members) := h.groups.insert Function.injective_id name ⟨cid⟩ hmembers
  unfold withMembers
  split_ifs with hname
  · rw [← upToOwners_grantOwners]
    constructor
    · rintro ⟨m', hm', hmirrors⟩ -
      obtain rfl := Option.some.inj hm'
      obtain ⟨document', hdocument', hacl⟩ := hmirrors.acl
      obtain rfl := Option.some.inj (hdocument.symm.trans hdocument')
      exact hacl
    · intro hacl
      exact ⟨_, rfl, ⟨document, hdocument, hacl hname⟩, h.acls, hgroups⟩
  · refine iff_of_true ⟨_, rfl, h.acl, h.acls, hgroups⟩ fun heq ↦ absurd heq hname

/-- A SET of a group that is not loaded keeps the mirror and changes nothing exactly if the group
is linked already, and for the owners' group the cached list is that of the owners. -/
theorem mirrored_setGroup_of_not_loaded (hmanifest : s.manifest = some m)
    (h : MirrorsManifest store m s) (name : String) {cid : Cid} {fetched : Bool}
    (hunloadable : fetched = true → groupAt store cid = none) {t : CachedState Cid}
    (ht : t = { s with toAccessState := setGroup store s.toAccessState name cid fetched true }) :
    Mirrored store t ∧ Unchanged s t ↔
      m.grp.get name = some ⟨cid⟩ ∧
        (name = "owners" → s.owners = (s.groupCache.get "owners").getD []) := by
  rw [setGroup_of_not_loaded hmanifest name hunloadable, withMembers] at ht
  constructor
  · rintro ⟨-, hunchanged⟩
    constructor
    · have hrel : Option.Rel SameManifest (some m) (some (setGroupLink m name cid)) := by
        rw [← hmanifest]
        convert hunchanged.manifest
        rw [ht]
        split_ifs
        · rfl
        · rfl
      cases hrel with
      | some hsame => exact (hsame.grp name).symm.trans (KeyedMap.get_insert_self m.grp name ⟨cid⟩)
    · intro hname
      rw [if_pos hname] at ht
      rw [← hunchanged.owners, ht]
      rfl
  · rintro ⟨hlink, howners⟩
    have hsame := sameManifest_setGroupLink hlink
    have hgroups := h.groups.congr_links hsame.grp
    obtain ⟨document, hdocument, hacl⟩ := h.acl
    by_cases hname : name = "owners"
    · rw [if_pos hname] at ht
      rw [ht]
      have hothers : ∀ key, key ∉ (s.groupCache.get "owners").getD [] →
          s.rootAcl.get key = document.get key := by
        intro key hkey
        rcases hacl key with hget | ⟨howner, -⟩
        · exact hget
        · exact absurd (howners hname ▸ howner) hkey
      refine ⟨⟨_, rfl, ⟨document, hdocument, upToOwners_grantOwners.mpr hothers⟩, h.acls, hgroups⟩,
        ?_, ?_, fun _ ↦ rfl, fun _ ↦ rfl, (howners hname).symm⟩
      · rw [hmanifest]
        exact .some hsame
      · rw [howners hname]
        exact upToOwners_grantOwners.mpr fun _ _ ↦ rfl
    · rw [if_neg hname] at ht
      rw [ht]
      refine ⟨⟨_, rfl, ⟨document, hdocument, hacl⟩, h.acls, hgroups⟩,
        ?_, .refl s.owners s.rootAcl, fun _ ↦ rfl, fun _ ↦ rfl, rfl⟩
      rw [hmanifest]
      exact .some hsame

/-- What is asked of a manifest and of the root ACL that it links. -/
theorem forall_linkedRootAcl_iff (hmanifest : s.manifest = some m) {document : AclMap}
    (hdocument : linkedRootAcl store m = some document)
    {condition : RuntimeManifest Cid → AclMap → Prop} :
    (∀ m' document', s.manifest = some m' → linkedRootAcl store m' = some document' →
      condition m' document') ↔ condition m document := by
  constructor
  · intro hall
    exact hall m document hmanifest hdocument
  · intro hmet m' document' hm' hdocument'
    obtain rfl := Option.some.inj (hmanifest.symm.trans hm')
    obtain rfl := Option.some.inj (hdocument.symm.trans hdocument')
    exact hmet

theorem inOrder_setGroup_of_loaded (hmanifest : s.manifest = some m) {document : AclMap}
    (hdocument : linkedRootAcl store m = some document) (name : String) {cid : Cid}
    {members : List String} (hmembers : groupAt store cid = some members) :
    InOrder store s (.setGroup name cid true true) ↔
      (name = "owners" → ∀ key, key ∉ members → s.rootAcl.get key = document.get key) := by
  refine (forall_linkedRootAcl_iff hmanifest hdocument).trans ?_
  rw [hmembers]

theorem inOrder_setGroup_of_not_loaded (hmanifest : s.manifest = some m) {document : AclMap}
    (hdocument : linkedRootAcl store m = some document) (name : String) {cid : Cid}
    {fetched : Bool} (hunloadable : fetched = true → groupAt store cid = none) :
    InOrder store s (.setGroup name cid fetched true) ↔
      m.grp.get name = some ⟨cid⟩ ∧
        (name = "owners" → s.owners = (s.groupCache.get "owners").getD []) := by
  refine (forall_linkedRootAcl_iff hmanifest hdocument).trans ?_
  cases fetched with
  | false => rfl
  | true => rw [hunloadable rfl]

/-- A step meets the condition exactly if it keeps the mirror, and changes nothing where it is a SET
without a document. -/
theorem inOrder_iff {action : CachedAction Cid} (h : Mirrored store s)
    (hstep : cachedStep store s action = some t) :
    InOrder store s action ↔
      Mirrored store t ∧ (Unloadable store action → Unchanged s t) := by
  cases action with
  | setAcl cid fetched published =>
    exact iff_of_true trivial (mirrored_setAcl h cid fetched published hstep)
  | deleteAcl =>
    obtain rfl := Option.some.inj hstep
    exact iff_of_true trivial ⟨h, fun hunloadable ↦ hunloadable.elim⟩
  | setNamedAcl name cid fetched published =>
    exact iff_of_true trivial (mirrored_setNamedAcl h name cid fetched published hstep)
  | deleteNamedAcl name published =>
    obtain rfl := Option.some.inj hstep
    exact iff_of_true trivial
      ⟨mirrored_deleteNamedAcl h name published, fun hunloadable ↦ hunloadable.elim⟩
  | deleteGroup name published =>
    obtain rfl := Option.some.inj hstep
    exact iff_of_true trivial
      ⟨mirrored_deleteGroup h name published, fun hunloadable ↦ hunloadable.elim⟩
  | setGroup name cid fetched published =>
    obtain ⟨m, hmanifest, hmirrors⟩ := h
    obtain rfl := Option.some.inj hstep
    obtain ⟨document, hdocument, -⟩ := hmirrors.acl
    cases published with
    | false =>
      have hsame : setGroup store s.toAccessState name cid fetched false = s.toAccessState := by
        simp [setGroup, hmanifest]
      rw [hsame]
      exact iff_of_true trivial ⟨⟨m, hmanifest, hmirrors⟩, fun _ ↦ .refl s⟩
    | true =>
      by_cases hunloadable : fetched = true → groupAt store cid = none
      · have hkept := mirrored_setGroup_of_not_loaded hmanifest hmirrors name hunloadable rfl
        refine (inOrder_setGroup_of_not_loaded hmanifest hdocument name hunloadable).trans
          (hkept.symm.trans (and_congr_right fun _ ↦ ?_))
        exact ⟨fun hunchanged _ ↦ hunchanged, fun hunchanged ↦ hunchanged hunloadable⟩
      · obtain ⟨rfl, hfound⟩ := Classical.not_imp.mp hunloadable
        obtain ⟨members, hmembers⟩ := Option.ne_none_iff_exists'.mp hfound
        have hkept := mirrored_setGroup_of_loaded hmanifest hmirrors hdocument name hmembers
        refine (inOrder_setGroup_of_loaded hmanifest hdocument name hmembers).trans
          (hkept.symm.trans ?_)
        exact ⟨fun hmirrored ↦ ⟨hmirrored, fun h ↦ absurd h hunloadable⟩, fun h ↦ h.1⟩

/-- Along a run that begins with mirrored caches, every operation leaves them mirrored, and every
SET without a document leaves everything as it was, if and only if each SET of a group is in
order. -/
theorem mirrored_iff {actions : List (CachedAction Cid)} (h : Mirrored store s)
    (hrun : Run (cachedStep store) s actions u) :
    (∀ before action after t v, actions = before ++ action :: after →
        Run (cachedStep store) s before t → cachedStep store t action = some v →
        Mirrored store v ∧ (Unloadable store action → Unchanged t v)) ↔
      GuardedRun (cachedStep store) (InOrder store) s actions u :=
  guardedRun_iff_forall_step (Mirrored store)
    (fun s action t ↦ Unloadable store action → Unchanged s t) hrun h
    fun _ _ _ hmirrored hstep ↦ inOrder_iff hmirrored hstep

end Operations

/-- A runtime with these owners, whose manifest links no ACL and the group of the owners. -/
def ownedBy (owners : List String) : CachedState AccessDocument where
  manifest := some (setGroupLink .default "owners" (.group owners))
  config := ⟨none, freshConfig, owners⟩
  rootAcl := grantOwners .empty owners
  groupCache := .insert .empty "owners" owners
  aclCache := .empty

theorem mirrored_ownedBy (owners : List String) : Mirrored accessStore (ownedBy owners) := by
  have hempty : Mirrors (fun link : IpldLink AccessDocument ↦ groupAt accessStore link.cid) id
      (.empty : KeyedMap String (IpldLink AccessDocument)) .empty := fun _ ↦ rfl
  refine ⟨_, rfl, ⟨.empty, rfl, upToOwners_grantOwners.mpr fun _ _ ↦ rfl⟩, fun _ ↦ rfl, ?_⟩
  exact hempty.insert Function.injective_id "owners" ⟨.group owners⟩ rfl

/-- A SET of a group and one of the root ACL, both of documents that are there. -/
theorem mirrored_iff_loaded :
    ∃ u, Run (cachedStep accessStore) (ownedBy ["did:ma:a"])
      [.setGroup "gurus" (.group ["did:ma:b"]) true true, .setAcl (.acl .empty) true true] u ∧
      ∀ before action after t v,
        [.setGroup "gurus" (.group ["did:ma:b"]) true true, .setAcl (.acl .empty) true true] =
          before ++ action :: after →
        Run (cachedStep accessStore) (ownedBy ["did:ma:a"]) before t →
        cachedStep accessStore t action = some v →
        Mirrored accessStore v ∧ (Unloadable accessStore action → Unchanged t v) := by
  have hrun {u : CachedState AccessDocument}
      (h : execute (cachedStep accessStore) (ownedBy ["did:ma:a"])
        [.setGroup "gurus" (.group ["did:ma:b"]) true true, .setAcl (.acl .empty) true true] =
          some u) :
      GuardedRun (cachedStep accessStore) (InOrder accessStore) (ownedBy ["did:ma:a"])
        [.setGroup "gurus" (.group ["did:ma:b"]) true true, .setAcl (.acl .empty) true true] u := by
    refine (guardedRun_iff_forall_split (run_of_execute h)).mpr ?_
    intro before action after t hsplit _
    have haction : action = .setGroup "gurus" (.group ["did:ma:b"]) true true ∨
        action = .setAcl (.acl .empty) true true := by
      have hmem := hsplit ▸ List.mem_append_right before (List.mem_cons_self (l := after))
      simpa using hmem
    rcases haction with rfl | rfl
    · intro m document _ _ hname
      exact absurd hname (by decide)
    · trivial
  exact ⟨_, (hrun rfl).run, (mirrored_iff (mirrored_ownedBy _) (hrun rfl).run).mpr (hrun rfl)⟩

/-- A SET of a group that refers to an ACL is linked, and nothing is cached; a SET of the owners
leaves the one of before everything in the root ACL. -/
theorem unloadable_group_linked :
    (∃ t, cachedStep accessStore (ownedBy []) (.setGroup "gurus" (.acl .empty) true true) = some t ∧
      Unloadable accessStore (.setGroup "gurus" (.acl .empty) true true) ∧
      ¬Unchanged (ownedBy []) t ∧ ¬Mirrored accessStore t) ∧
    ∃ t, cachedStep accessStore (ownedBy ["did:ma:a"])
        (.setGroup "owners" (.group ["did:ma:b"]) true true) = some t ∧
      t.rootAcl.get "did:ma:a" = some .everything ∧ "did:ma:a" ∉ t.owners ∧
      ¬Mirrored accessStore t := by
  constructor
  · refine ⟨_, rfl, fun _ ↦ rfl, ?_, ?_⟩
    · intro hunchanged
      cases hunchanged.manifest with
      | some hsame => exact Option.some_ne_none _ (hsame.grp "gurus")
    · rintro ⟨m, hm, hmirrors⟩
      obtain rfl := Option.some.inj hm
      exact Option.some_ne_none _ (hmirrors.groups "gurus")
  · refine ⟨_, rfl, by decide, by decide, ?_⟩
    rintro ⟨m, hm, hmirrors⟩
    obtain rfl := Option.some.inj hm
    obtain ⟨document, hdocument, hacl⟩ := hmirrors.acl
    obtain rfl := Option.some.inj hdocument
    rcases hacl "did:ma:a" with hget | ⟨howner, -⟩
    · exact absurd hget (by decide)
    · exact absurd howner (by decide)

end MaRuntime.Daemon
