import MaRuntime.Crud.Management

/-!
# What the handlers of CRUD requests keep

What requests manage has parts: the link of the root ACL and each entry of it in memory, the named
ACLs, the groups, the links of the kinds and what is registered of them, the settings, the entities
and their reloads, and what no request writes. For each handler it is said which parts it keeps
(`Kept`): what the manifest has for a part, and what there is of it in memory and on file.

Main definitions: `Part`, `Kept`, `Unaffected`.
Main results: `kept_setGroup`, `kept_setKindAt`, `kept_applyKindsTreeAt`, `kept_handleConfigKeySet`,
`kept_handleEntityUpsert`.

Scope. As in `Crud.Management`.
-/

set_option autoImplicit false
set_option relaxedAutoImplicit false

namespace MaRuntime.Crud

open Acl Daemon Kinds Manifest

variable {Cid : Type}

/-! ### Parts and paths -/

/-- The parts of what requests manage. -/
inductive Part
  | aclLink
  | aclEntry (principal : String)
  | namedAcl (name : String)
  | group (name : String)
  | kindLink (protocol : String)
  | kindRegistered (protocol : String)
  | setting (key : String)
  | entity (name : String)
  | entityReload (name : String)
  | protocol
  | translations (language : String)

/-- What a manifest has for a part. -/
def linkIn (part : Part) (m : RuntimeManifest Cid) : Option (IpldLink Cid ⊕ YamlValue) :=
  match part with
  | .aclLink => m.acl.map .inl
  | .namedAcl name => (m.acls.get name).map .inl
  | .group name => (m.grp.get name).map .inl
  | .kindLink protocol => (m.kinds.getProtocol protocol).map .inl
  | .setting key => (m.config.get key).map .inr
  | .entity name => (m.entities.get name).map .inl
  | .protocol => some (.inr (.string m.protocol))
  | .translations language => (m.i18n.get language).map .inl
  | .aclEntry _ | .kindRegistered _ | .entityReload _ => none

/-- What a part has in memory is the same in two states, and so is a setting's value on file if file
and memory had the same. -/
def KeptLive (guarded : GuardedConfig) (s t : ManagedState Cid) : Part → Prop
  | .aclLink | .kindLink _ | .protocol | .translations _ => True
  | .aclEntry principal => t.rootAcl.get principal = s.rootAcl.get principal
  | .namedAcl name => t.aclCache.get (namedAclKey name) = s.aclCache.get (namedAclKey name)
  | .group name =>
    t.groupCache.get name = s.groupCache.get name ∧ (name = "owners" → t.owners = s.owners)
  | .kindRegistered protocol => t.kindRegistry.get protocol = s.kindRegistry.get protocol
  | .setting key =>
    SettingKept guarded s.settings t.settings key ∧ (key = "i18n" → t.language = s.language)
  | .entity name => t.plugins.get name = s.plugins.get name
  | .entityReload name => t.reloads.count name = s.reloads.count name

/-- A part is the same in two states. -/
structure Kept (guarded : GuardedConfig) (s t : ManagedState Cid) (part : Part) : Prop where
  linked : t.manifest.bind (linkIn part) = s.manifest.bind (linkIn part)
  live : KeptLive guarded s t part

section Kept

variable {guarded : GuardedConfig} {s t : ManagedState Cid} {part : Part} {m : RuntimeManifest Cid}

theorem KeptLive.refl (guarded : GuardedConfig) (s : ManagedState Cid) (part : Part) :
    KeptLive guarded s s part := by
  cases part with
  | aclLink | kindLink | protocol | translations => trivial
  | group name => exact ⟨rfl, fun _ ↦ rfl⟩
  | setting key => exact ⟨.refl guarded _ key, fun _ ↦ rfl⟩
  | _ => rfl

theorem Kept.refl (guarded : GuardedConfig) (s : ManagedState Cid) (part : Part) :
    Kept guarded s s part :=
  ⟨rfl, .refl guarded s part⟩

theorem Kept.trans {u : ManagedState Cid} (hst : Kept guarded s t part)
    (htu : Kept guarded t u part) : Kept guarded s u part := by
  refine ⟨htu.linked.trans hst.linked, ?_⟩
  have hfirst := hst.live
  have hsecond := htu.live
  cases part with
  | aclLink | kindLink | protocol | translations => trivial
  | group name =>
    exact ⟨hsecond.1.trans hfirst.1, fun h ↦ (hsecond.2 h).trans (hfirst.2 h)⟩
  | setting key =>
    exact ⟨hfirst.1.trans hsecond.1, fun h ↦ (hsecond.2 h).trans (hfirst.2 h)⟩
  | _ => exact hsecond.trans hfirst

/-! ### ACLs and groups -/

section Access

variable (store : AccessStore Cid) (s)

theorem kept_setRootAcl (cid : Cid) (fetched published : Bool)
    (hlink : part ≠ .aclLink) (hentry : ∀ principal, part ≠ .aclEntry principal) :
    Kept guarded s
      { s with toAccessState := setRootAcl store s.toAccessState cid fetched published } part := by
  obtain ⟨m, map, hmanifest, -, -, -, heq⟩ | ⟨-, heq⟩ :=
    setRootAcl_cases store s.toAccessState cid fetched published
  · rw [heq]
    refine ⟨?_, ?_⟩
    · rw [hmanifest]
      cases part <;> first | rfl | exact absurd rfl hlink
    · have hrefl := KeptLive.refl guarded s part
      cases part with
      | aclEntry principal => exact absurd rfl (hentry principal)
      | _ => exact hrefl
  · rw [heq]
    exact .refl guarded s part

theorem kept_setNamedAcl (name : String) (cid : Cid) (fetched published : Bool)
    (hpart : part ≠ .namedAcl name) :
    Kept guarded s
      { s with toCachedState := setNamedAcl store s.toCachedState name cid fetched published }
      part := by
  obtain ⟨m, map, hmanifest, -, -, heq⟩ | heq :=
    setNamedAcl_cases store s.toCachedState name cid fetched published
  · rw [heq]
    refine ⟨?_, ?_⟩
    · rw [hmanifest]
      cases part with
      | namedAcl other =>
        exact congrArg (Option.map Sum.inl)
          (KeyedMap.get_insert_of_ne m.acls _ (mt (congrArg Part.namedAcl) hpart))
      | _ => rfl
    · have hrefl := KeptLive.refl guarded s part
      cases part with
      | namedAcl other =>
        refine KeyedMap.get_insert_of_ne s.aclCache map fun heq ↦ ?_
        exact hpart (congrArg _ (namedAclKey_injective heq))
      | _ => exact hrefl
  · rw [heq]
    exact .refl guarded s part

theorem kept_deleteNamedAcl (name : String) (published : Bool) (hpart : part ≠ .namedAcl name) :
    Kept guarded s { s with toCachedState := deleteNamedAcl s.toCachedState name published }
      part := by
  obtain ⟨m, hmanifest, heq⟩ | heq := deleteNamedAcl_cases s.toCachedState name published
  · rw [heq]
    refine ⟨?_, ?_⟩
    · rw [hmanifest]
      cases part with
      | namedAcl other =>
        exact congrArg (Option.map Sum.inl)
          (KeyedMap.get_remove_of_ne m.acls (mt (congrArg Part.namedAcl) hpart))
      | _ => rfl
    · have hrefl := KeptLive.refl guarded s part
      cases part with
      | namedAcl other =>
        refine KeyedMap.get_remove_of_ne s.aclCache fun heq ↦ ?_
        exact hpart (congrArg _ (namedAclKey_injective heq))
      | _ => exact hrefl
  · rw [heq]
    exact .refl guarded s part

theorem kept_deleteGroup (name : String) (published : Bool) (hpart : part ≠ .group name) :
    Kept guarded s { s with toAccessState := deleteGroup s.toAccessState name published } part := by
  obtain ⟨m, hmanifest, heq⟩ | heq := deleteGroup_cases s.toAccessState name published
  · rw [heq]
    refine ⟨?_, ?_⟩
    · rw [hmanifest]
      cases part with
      | group other =>
        exact congrArg (Option.map Sum.inl)
          (KeyedMap.get_remove_of_ne m.grp (mt (congrArg Part.group) hpart))
      | _ => rfl
    · have hrefl := KeptLive.refl guarded s part
      cases part with
      | group other =>
        exact ⟨KeyedMap.get_remove_of_ne s.groupCache (mt (congrArg Part.group) hpart), fun _ ↦ rfl⟩
      | _ => exact hrefl
  · rw [heq]
    exact .refl guarded s part

theorem setGroup_of_published {s : AccessState Cid} (hmanifest : s.manifest = some m)
    (name : String) (cid : Cid) (fetched : Bool) :
    ∃ groupCache members, (∀ other, other ≠ name → groupCache.get other = s.groupCache.get other) ∧
      setGroup store s name cid fetched true = withMembers
        { s with manifest := some (setGroupLink m name cid), groupCache := groupCache } name
        members := by
  by_cases hunloadable : fetched = true → groupAt store cid = none
  · exact ⟨_, _, fun _ _ ↦ rfl, setGroup_of_not_loaded hmanifest name hunloadable⟩
  · obtain ⟨rfl, hloaded⟩ := Classical.not_imp.mp hunloadable
    obtain ⟨members, hmembers⟩ := Option.ne_none_iff_exists'.mp hloaded
    exact ⟨_, _, fun _ hother ↦ KeyedMap.get_insert_of_ne s.groupCache members hother,
      setGroup_of_loaded hmanifest name hmembers⟩

/-- A SET of a group that is not the owners', or of theirs. -/
theorem kept_withMembers {t : ManagedState Cid} (name : String) (members : List String)
    (hpart : part ≠ .group name)
    (hentry : ∀ principal, part = .aclEntry principal → name = "owners" → principal ∉ members)
    (h : Kept guarded s t part) :
    Kept guarded s { t with toAccessState := withMembers t.toAccessState name members } part := by
  unfold withMembers
  split_ifs with hname
  · refine ⟨h.linked, ?_⟩
    have hlive := h.live
    cases part with
    | aclEntry principal =>
      exact (get_grantOwners _ _ _).trans ((if_neg (hentry principal rfl hname)).trans hlive)
    | group other =>
      refine ⟨hlive.1, ?_⟩
      rintro rfl
      exact absurd (congrArg Part.group hname.symm) hpart
    | setting key =>
      exact ⟨⟨hlive.1.value, hlive.1.extra, hlive.1.file, hlive.1.attempts, hlive.1.interval⟩,
        hlive.2⟩
    | _ => exact hlive
  · exact h

theorem kept_setGroup (name : String) (cid : Cid) (fetched published : Bool)
    (hpart : part ≠ .group name)
    (hentry : ∀ principal, part = .aclEntry principal → name = "owners" →
      principal ∉ (setGroup store s.toAccessState name cid fetched published).owners) :
    Kept guarded s
      { s with toAccessState := setGroup store s.toAccessState name cid fetched published }
      part := by
  -- without a publication nothing is changed
  have hunpublished (h : setGroup store s.toAccessState name cid fetched published =
      s.toAccessState) : Kept guarded s
        { s with toAccessState := setGroup store s.toAccessState name cid fetched published }
        part := by
    rw [h]
    exact .refl guarded s part
  cases hmanifest : s.manifest with
  | none => exact hunpublished (by rw [setGroup, hmanifest])
  | some m =>
    cases published with
    | false =>
      exact hunpublished (by simp only [setGroup, hmanifest, Bool.false_eq_true, if_false])
    | true =>
      obtain ⟨groupCache, members, hcache, heq⟩ :=
        setGroup_of_published store hmanifest name cid fetched
      rw [heq] at hentry ⊢
      refine kept_withMembers s (t := { s with
        manifest := some (setGroupLink m name cid), groupCache := groupCache }) name members hpart
        (fun principal hprincipal hname ↦ ?_) ⟨?_, ?_⟩
      · have howners := hentry principal hprincipal hname
        rwa [withMembers, if_pos hname] at howners
      · rw [hmanifest]
        cases part with
        | group other =>
          exact congrArg (Option.map Sum.inl)
            (KeyedMap.get_insert_of_ne m.grp _ (mt (congrArg Part.group) hpart))
        | _ => rfl
      · have hrefl := KeptLive.refl guarded s part
        cases part with
        | group other => exact ⟨hcache other (mt (congrArg Part.group) hpart), fun _ ↦ rfl⟩
        | _ => exact hrefl

end Access

/-! ### Kinds -/

section KindHandlers

variable {services : Services Cid} {answers : Answers}

/-- A handler whose errors change nothing keeps what it keeps where it succeeds. -/
theorem kept_settle {handled : Handled Cid (ManagedState Cid)}
    (h : ∀ reply t, handled = .ok (reply, t) → Kept guarded s t part) :
    Kept guarded s (s.settle handled).2 part := by
  cases handled with
  | error reason => exact .refl guarded s part
  | ok result => exact h result.1 result.2 rfl

/-- Links to kinds change what is linked at and below them. -/
theorem linkIn_insertKinds {links : List (String × IpldLink Cid)}
    (hpart : ∀ protocol, part = .kindLink protocol →
      ∀ entry ∈ links, ¬segments entry.1 <+: segments protocol) :
    linkIn part (insertKinds m links) = linkIn part m := by
  cases part with
  | kindLink protocol =>
    exact congrArg (Option.map Sum.inl)
      (KindTree.getProtocol_insertAll_of_not_under (hpart protocol rfl))
  | _ => rfl

/-- A part that is neither what is registered of an affected kind nor the reload of an entity of
one. -/
def Unaffected (services : Services Cid) (updatedProtocols : List String)
    (m : RuntimeManifest Cid) : Part → Prop
  | .kindRegistered protocol =>
    protocol ∉ affectedKindProtocolsFor updatedProtocols (loadRawKindNodes services.fetchKind m)
  | .entityReload name => ∀ kind, linkedKind services m name = some kind →
    kind ∉ affectedKindProtocolsFor updatedProtocols (loadRawKindNodes services.fetchKind m)
  | _ => True

theorem kept_spawnReloadsFor {updatedProtocols : List String}
    (hpart : Unaffected services updatedProtocols m part) (h : Kept guarded s t part) :
    Kept guarded s (spawnReloadsFor services updatedProtocols m t) part := by
  refine ⟨h.linked, ?_⟩
  have hlive := h.live
  cases part with
  | kindRegistered protocol =>
    refine (KeyedMap.get_insertEach_of_not_mem ?_).trans hlive
    rintro item hitem rfl
    exact hpart hitem
  | entityReload name =>
    have hnone : name ∉ (m.entities.entries.map Prod.fst).filter fun name ↦
        (linkedKind services m name).any
          (affectedKindProtocolsFor updatedProtocols
            (loadRawKindNodes services.fetchKind m)).contains := by
      intro hmem
      have hany := (List.mem_filter.mp hmem).2
      cases hkind : linkedKind services m name with
      | none => simp [hkind] at hany
      | some kind =>
        rw [hkind, Option.any_some, List.contains_iff_mem] at hany
        exact hpart kind hkind hany
    refine Eq.trans ?_ hlive
    rw [spawnReloadsFor, List.count_append, List.count_eq_zero_of_not_mem hnone, Nat.add_zero]
  | _ => exact hlive

/-- A SET of a kind that is answered. -/
theorem setKindAt_eq_ok {path : KindPath} {raw : String} {reply : CrudReply Cid}
    (h : setKindAt services answers s path raw = .ok (reply, t)) :
    ∃ m cid kindNode, s.manifest = some m ∧
      (t = { s with
          manifest := some (insertKinds m [(path.protocolId, ⟨cid⟩)])
          kindRegistry := s.kindRegistry.insert path.protocolId kindNode } ∨
        t = spawnReloadsFor services [path.protocolId]
          (insertKinds m [(path.protocolId, ⟨cid⟩)])
          { s with
            manifest := some (insertKinds m [(path.protocolId, ⟨cid⟩)])
            kindRegistry := s.kindRegistry.insert path.protocolId kindNode }) := by
  unfold setKindAt at h
  split at h
  · cases h
  · split at h
    · cases h
    · cases h
  · rename_i cid m _ hmanifest
    split at h
    · cases h
    · rename_i manifest kindNode hset
      obtain ⟨rfl, -⟩ := setKind_eq_ok hset
      split_ifs at h
      · obtain ⟨-, rfl⟩ := Prod.mk.inj (Except.ok.inj h)
        exact ⟨m, cid, kindNode, hmanifest, .inr rfl⟩
      · obtain ⟨-, rfl⟩ := Prod.mk.inj (Except.ok.inj h)
        exact ⟨m, cid, kindNode, hmanifest, .inl rfl⟩

theorem kept_setKindAt {path : KindPath} {raw : String} {reply : CrudReply Cid}
    (h : setKindAt services answers s path raw = .ok (reply, t))
    (hlink : ∀ protocol, part = .kindLink protocol → ¬path.rest <+: segments protocol)
    (hregistered : part ≠ .kindRegistered path.protocolId)
    (hunaffected : ∀ m, t.manifest = some m → Unaffected services [path.protocolId] m part) :
    Kept guarded s t part := by
  obtain ⟨m, cid, kindNode, hmanifest, ht⟩ := setKindAt_eq_ok h
  have hset : Kept guarded s { s with
      manifest := some (insertKinds m [(path.protocolId, ⟨cid⟩)])
      kindRegistry := s.kindRegistry.insert path.protocolId kindNode } part := by
    refine ⟨?_, ?_⟩
    · rw [hmanifest]
      refine linkIn_insertKinds fun protocol hprotocol entry hentry ↦ ?_
      rw [List.mem_singleton.mp hentry, path.segments_eq]
      exact hlink protocol hprotocol
    · have hrefl := KeptLive.refl guarded s part
      cases part with
      | kindRegistered protocol =>
        exact KeyedMap.get_insert_of_ne s.kindRegistry kindNode
          (mt (congrArg Part.kindRegistered) hregistered)
      | _ => exact hrefl
  obtain rfl | rfl := ht
  · exact hset
  · exact kept_spawnReloadsFor (hunaffected _ rfl) hset

theorem kept_deleteKindAt {path : KindPath} {reply : CrudReply Cid}
    (h : deleteKindAt answers s path = .ok (reply, t))
    (hlink : ∀ protocol, part = .kindLink protocol → segments protocol ≠ path.rest)
    (hregistered : part ≠ .kindRegistered path.protocolId) :
    Kept guarded s t part := by
  unfold deleteKindAt handleDelete at h
  split at h
  · cases h
  · rename_i m hmanifest
    cases hget : m.kinds.getProtocol path.protocolId with
    | none =>
      simp only [hget] at h
      obtain ⟨-, rfl⟩ := Prod.mk.inj (Except.ok.inj h)
      exact .refl guarded s part
    | some link =>
      simp only [hget] at h
      split_ifs at h
      obtain ⟨-, rfl⟩ := Prod.mk.inj (Except.ok.inj h)
      refine ⟨?_, ?_⟩
      · rw [hmanifest]
        cases part with
        | kindLink protocol =>
          refine congrArg (Option.map Sum.inl) ?_
          rw [KindTree.getProtocol_removeProtocol hget, path.segments_eq,
            if_neg (hlink protocol rfl)]
        | _ => rfl
      · have hrefl := KeptLive.refl guarded s part
        cases part with
        | kindRegistered protocol =>
          exact KeyedMap.get_remove_of_ne s.kindRegistry
            (mt (congrArg Part.kindRegistered) hregistered)
        | _ => exact hrefl

/-- A kind is in the tree that a request names, and was not linked as there. -/
def TreeUpdates (services : Services Cid) (raw : String) (s : ManagedState Cid)
    (protocol : String) : Prop :=
  ∃ cid kinds link, services.dagResolve raw = .ok cid ∧ services.fetchTree cid = .ok kinds ∧
    (protocol, link) ∈ kinds.iterProtocols ∧
    (s.manifest.bind fun m ↦ m.kinds.getProtocol protocol) ≠ some link

theorem kept_applyKindsTreeAt [DecidableEq Cid] {raw : String} {reply : CrudReply Cid}
    (h : applyKindsTreeAt services answers s raw = .ok (reply, t))
    (hlink : ∀ protocol, part ≠ .kindLink protocol)
    (hunaffected : ∀ m updatedProtocols, t.manifest = some m →
      (∀ protocol ∈ updatedProtocols, TreeUpdates services raw s protocol) →
      Unaffected services updatedProtocols m part) :
    Kept guarded s t part := by
  unfold applyKindsTreeAt at h
  split at h
  · cases h
  · rename_i cid hcid
    split at h
    · cases h
    · cases h
    · rename_i overlay m htree hmanifest
      split at h
      · cases h
      · rename_i manifest changed hoverlay
        have hchanged (protocol : String) (hmem : protocol ∈ changed) :
            TreeUpdates services raw s protocol := by
          obtain ⟨overlayKinds, hlinks, rfl⟩ := changed_of_applyKindsTreeOverlay hoverlay
          obtain ⟨kind, hkind, rfl, hne⟩ :=
            of_mem_changed (hlinks ▸ KindTree.beside_iterProtocols overlay) hmem
          refine ⟨cid, overlay, kind.link, hcid, htree, ?_, ?_⟩
          · rw [← hlinks]
            exact List.mem_map.mpr ⟨kind, hkind, rfl⟩
          · rwa [hmanifest]
        obtain ⟨rfl, -⟩ := applyKindsTreeOverlay_eq_ok hoverlay
        have hset : Kept guarded s
            { s with manifest := some (insertKinds m overlay.iterProtocols) } part := by
          refine ⟨?_, ?_⟩
          · rw [hmanifest]
            exact linkIn_insertKinds fun protocol hprotocol ↦ absurd hprotocol (hlink protocol)
          · have hrefl := KeptLive.refl guarded s part
            cases part <;> exact hrefl
        split_ifs at h
        · obtain ⟨-, rfl⟩ := Prod.mk.inj (Except.ok.inj h)
          exact hset
        · obtain ⟨-, rfl⟩ := Prod.mk.inj (Except.ok.inj h)
          exact kept_spawnReloadsFor (hunaffected _ _ rfl hchanged) hset

end KindHandlers

/-! ### Settings and entities -/

section SettingHandlers

variable {services : Services Cid} {answers : Answers}

theorem kept_withSettings {settings : SettingsState} {key : String} {val : YamlValue}
    {saved : Bool} (h : Stored key val saved s.settings settings) (hpart : part ≠ .setting key) :
    Kept guarded s (s.withSettings settings) part := by
  refine ⟨rfl, ?_⟩
  have hrefl := KeptLive.refl guarded s part
  cases part with
  | group name => exact ⟨rfl, fun _ ↦ h.owners⟩
  | setting other => exact ⟨h.settingKept guarded (mt (congrArg Part.setting) hpart), fun _ ↦ rfl⟩
  | _ => exact hrefl

theorem kept_setManifestKey (key : String) (val : YamlValue) (hpart : part ≠ .setting key) :
    Kept guarded s (setManifestKey services answers s key val).2 part := by
  unfold setManifestKey
  split
  · exact .refl guarded s part
  · split
    · exact .refl guarded s part
    · exact .refl guarded s part
    · rename_i m _ hmanifest
      by_cases hpublished : answers.published = true
      · rw [if_pos hpublished]
        refine ⟨?_, ?_⟩
        · rw [hmanifest]
          cases part with
          | setting other =>
            exact congrArg (Option.map Sum.inr)
              (KeyedMap.get_insert_of_ne m.config val (mt (congrArg Part.setting) hpart))
          | _ => rfl
        · have hrefl := KeptLive.refl guarded s part
          cases part with
          | setting other =>
            refine ⟨hrefl.1, ?_⟩
            rintro rfl
            have hkey : key ≠ "i18n" := fun heq ↦ hpart (congrArg Part.setting heq.symm)
            simp only [hkey, decide_false, Bool.false_and, Bool.false_eq_true, if_false]
          | _ => exact hrefl
      · rw [if_neg hpublished]
        exact .refl guarded s part

theorem kept_deleteManifestKey (key : String) (hpart : part ≠ .setting key) :
    Kept guarded s (deleteManifestKey answers s key).2 part := by
  unfold deleteManifestKey
  split
  · exact .refl guarded s part
  · rename_i m hmanifest
    split_ifs
    · exact .refl guarded s part
    · refine ⟨?_, ?_⟩
      · rw [hmanifest]
        cases part with
        | setting other =>
          exact congrArg (Option.map Sum.inr)
            (KeyedMap.get_remove_of_ne m.config (mt (congrArg Part.setting) hpart))
        | _ => rfl
      · have hrefl := KeptLive.refl guarded s part
        cases part <;> exact hrefl
    · exact .refl guarded s part

theorem kept_handleConfigKeySet (key : String) (val : YamlValue) (hpart : part ≠ .setting key) :
    Kept guarded s (handleConfigKeySet services answers s key val).2 part := by
  unfold handleConfigKeySet
  split_ifs
  · obtain ⟨reason, h, -⟩ | ⟨-, -, h⟩ | ⟨reply, settings, h, -, -, hstored⟩ :=
      setDaemonKey_cases (rfl : setDaemonKey s.settings key val answers.saved =
        (setDaemonKey s.settings key val answers.saved : Handled Cid SettingsState))
    · rw [h]
      exact .refl guarded s part
    · rw [h]
      exact .refl guarded s part
    · rw [h]
      exact kept_withSettings hstored hpart
  · exact kept_setManifestKey key val hpart

theorem kept_handleConfigKeyDelete (key : String) (hpart : part ≠ .setting key) :
    Kept guarded s (handleConfigKeyDelete answers s key).2 part := by
  unfold handleConfigKeyDelete
  split_ifs
  · exact .refl guarded s part
  · exact kept_deleteManifestKey key hpart

theorem kept_handleEntityDelete (name : String) (hpart : part ≠ .entity name) :
    Kept guarded s (handleEntityDelete answers s name).2 part := by
  have hplugins : KeptLive guarded s { s with plugins := s.plugins.remove name } part := by
    have hrefl := KeptLive.refl guarded s part
    cases part with
    | entity other => exact KeyedMap.get_remove_of_ne s.plugins (mt (congrArg Part.entity) hpart)
    | _ => exact hrefl
  unfold handleEntityDelete
  split
  · exact .refl guarded s part
  · split
    · exact .refl guarded s part
    · rename_i m hmanifest
      split_ifs
      · exact .refl guarded s part
      · refine ⟨?_, ?_⟩
        · rw [hmanifest]
          cases part with
          | entity other =>
            exact congrArg (Option.map Sum.inl)
              (KeyedMap.get_remove_of_ne m.entities (mt (congrArg Part.entity) hpart))
          | _ => rfl
        · cases part <;> exact hplugins
      · exact ⟨rfl, hplugins⟩

theorem kept_linkAndReload (hmanifest : s.manifest = some m) (name : String) (cid : Cid)
    (hpart : part ≠ .entity name) (hreload : part ≠ .entityReload name) :
    Kept guarded s (linkAndReload answers s m name cid).2 part := by
  have hlinked : Kept guarded s
      { s with manifest := some { m with entities := m.entities.insert name ⟨cid⟩ } } part := by
    refine ⟨?_, ?_⟩
    · rw [hmanifest]
      cases part with
      | entity other =>
        exact congrArg (Option.map Sum.inl)
          (KeyedMap.get_insert_of_ne m.entities _ (mt (congrArg Part.entity) hpart))
      | _ => rfl
    · have hrefl := KeptLive.refl guarded s part
      cases part <;> exact hrefl
  unfold linkAndReload
  split_ifs
  · refine ⟨hlinked.linked, ?_⟩
    have hlive := hlinked.live
    cases part with
    | entityReload other =>
      have hnone : other ∉ [name] :=
        mt List.mem_singleton.mp (mt (congrArg Part.entityReload) hreload)
      change (s.reloads ++ [name]).count other = s.reloads.count other
      rw [List.count_append, List.count_eq_zero_of_not_mem hnone, Nat.add_zero]
    | _ => exact hlive
  · exact hlinked
  · exact .refl guarded s part

theorem kept_handleEntityUpsert (name raw : String) (hpart : part ≠ .entity name)
    (hreload : part ≠ .entityReload name) :
    Kept guarded s (handleEntityUpsert services answers s name raw).2 part := by
  unfold handleEntityUpsert
  split
  · exact .refl guarded s part
  · exact .refl guarded s part
  · split
    · exact .refl guarded s part
    · split_ifs
      · exact .refl guarded s part
      · split
        · exact .refl guarded s part
        · split
          · exact .refl guarded s part
          · exact .refl guarded s part
          · rename_i hmanifest
            exact kept_linkAndReload hmanifest name _ hpart hreload

theorem kept_setEntityAcl (name aclName : String) (hpart : part ≠ .entity name)
    (hreload : part ≠ .entityReload name) :
    Kept guarded s (setEntityAcl services answers s name aclName).2 part := by
  unfold setEntityAcl
  split
  · exact .refl guarded s part
  · rename_i m hmanifest
    split
    · exact .refl guarded s part
    · split
      · exact .refl guarded s part
      · exact kept_linkAndReload hmanifest name _ hpart hreload

end SettingHandlers

end Kept

end MaRuntime.Crud
