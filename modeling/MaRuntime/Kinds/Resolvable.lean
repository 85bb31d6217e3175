import MaRuntime.Kinds.Extends

/-!
# Kinds that stay resolvable

A request that links a kind resolves it against the manifest it is put into, and one that lays a
tree over that of the manifest resolves the kinds of the tree against the manifest they are in
afterwards. Neither looks at the kinds that extend those it replaces.

`staysResolvable_iff` says when an update that was accepted has left everything resolvable: no link
stands above a new one, no kind that could be resolved stands below one and is lost, the chain of
bases of a kind that is linked by itself does not lead to the kind it replaces, and no chain that
leads to a replaced kind has become too long. `setKind_cycle` links a kind over its own base.

Main definitions: `KindsUpdate`, `KeepsResolvable`.
Main results: `staysResolvable_iff`, `setKind_cycle`.
-/

set_option autoImplicit false
set_option relaxedAutoImplicit false

namespace MaRuntime.Kinds

open Manifest Chains

variable {Cid : Type} [DecidableEq Cid]

/-- The requests that link kinds: `SET /kinds/<path>` and `SET /kinds`. -/
inductive KindsUpdate (Cid : Type)
  | set (path : KindPath) (cid : Cid)
  | overlay (kinds : KindTree Cid)

namespace KindsUpdate

/-- The links that an update puts into the tree. -/
def links : KindsUpdate Cid → List (String × IpldLink Cid)
  | .set path cid => [(path.protocolId, ⟨cid⟩)]
  | .overlay kinds => kinds.iterProtocols

/-- The manifest that is published when the update is accepted. -/
def apply (fetch : Cid → Except String (KindNode Cid)) (manifest : RuntimeManifest Cid) :
    KindsUpdate Cid → Except String (RuntimeManifest Cid)
  | .set path cid => (setKind fetch manifest path cid).map Prod.fst
  | .overlay kinds => (applyKindsTreeOverlay fetch manifest kinds).map Prod.fst

end KindsUpdate

/-! ### The graph with the new kinds -/

section Graph

variable (fetch : Cid → Except String (KindNode Cid)) (kinds : KindTree Cid)
  (links : List (String × IpldLink Cid))

/-- An identifier that one of the links is read under. -/
def IsUpdated (protocol : String) : Prop :=
  ∃ entry ∈ links, segments entry.1 = segments protocol

/-- The graph of the bases with the new kinds in the place of the old ones. -/
def overlaid (protocol : String) : Option (Option String) :=
  match links.find? fun entry ↦ segments entry.1 = segments protocol with
  | some (_, link) => (fetch link.cid).toOption.map KindNode.extendsProtocol
  | none => next fetch kinds protocol

end Graph

/-- An update that loses no resolvable kind: none stands below a new one, no chain of bases becomes
too long, and a kind that is linked by itself does not lead to what it replaces. -/
structure Fits (fetch : Cid → Except String (KindNode Cid)) (manifest : RuntimeManifest Cid)
    (update : KindsUpdate Cid) : Prop where
  below : ∀ entry ∈ update.links, ∀ protocol, segments entry.1 <+: segments protocol →
    segments entry.1 ≠ segments protocol → ¬Resolves fetch manifest.kinds protocol
  short : ∀ protocol i c n, Resolves fetch manifest.kinds protocol →
    Leads (next fetch manifest.kinds) (IsUpdated update.links) protocol i c →
    EndsIn (overlaid fetch manifest.kinds update.links) c n → i + n ≤ maxDepth
  acyclic : ∀ path cid kind base i c, update = .set path cid → fetch cid = .ok kind →
    kind.extendsProtocol = some base →
    ¬Leads (next fetch manifest.kinds) (IsUpdated update.links) base i c

/-- The condition on an update. No link stands above a new one, which would not be linked then. -/
structure KeepsResolvable (fetch : Cid → Except String (KindNode Cid))
    (manifest : RuntimeManifest Cid) (update : KindsUpdate Cid) : Prop
    extends Fits fetch manifest update where
  isOpen : ∀ entry ∈ update.links, manifest.kinds.IsOpenFor entry.1

section Links

variable {fetch : Cid → Except String (KindNode Cid)} {kinds : KindTree Cid}
  {links : List (String × IpldLink Cid)} {entry : String × IpldLink Cid} {protocol : String}

omit [DecidableEq Cid]

/-- Identifiers that are read the same have the same base. -/
theorem next_congr {first second : String} (h : segments first = segments second) :
    next fetch kinds first = next fetch kinds second := by
  unfold next KindTree.getProtocol
  rw [h]

theorem resolves_congr {first second : String}
    (h : segments first = segments second) :
    Resolves fetch kinds first ↔ Resolves fetch kinds second := by
  unfold Resolves KindTree.getProtocol
  rw [h]

theorem overlaid_of_isUpdated (hbeside : KindTree.Beside links) (hentry : entry ∈ links)
    (h : segments entry.1 = segments protocol) :
    overlaid fetch kinds links protocol =
      (fetch entry.2.cid).toOption.map KindNode.extendsProtocol := by
  unfold overlaid
  cases hfound : links.find? fun entry ↦ segments entry.1 = segments protocol with
  | none => exact absurd (decide_eq_true h) (List.find?_eq_none.mp hfound entry hentry)
  | some found =>
    have hsegments : segments found.1 = segments protocol := by
      simpa only [decide_eq_true_eq] using List.find?_some hfound
    have hunder : segments found.1 <+: segments entry.1 := by rw [hsegments, h]
    rw [← (hbeside found (List.mem_of_find?_eq_some hfound) entry hentry hunder).2]

theorem overlaid_of_not_isUpdated (h : ¬IsUpdated links protocol) :
    overlaid fetch kinds links protocol = next fetch kinds protocol := by
  unfold overlaid
  cases hfound : links.find? fun entry ↦ segments entry.1 = segments protocol with
  | none => rfl
  | some found =>
    have hsegments : segments found.1 = segments protocol := by
      simpa only [decide_eq_true_eq] using List.find?_some hfound
    exact absurd ⟨found, List.mem_of_find?_eq_some hfound, hsegments⟩ h

theorem next_insertAll_of_mem (hbeside : KindTree.Beside links) (hentry : entry ∈ links)
    (hopen : kinds.IsOpenFor entry.1) (h : segments entry.1 = segments protocol) :
    next fetch (kinds.insertAll links) protocol =
      (fetch entry.2.cid).toOption.map KindNode.extendsProtocol := by
  unfold next
  rw [KindTree.getProtocol_insertAll_self hbeside hentry hopen h.symm]
  rfl

/-- The tree after an update has no other bases than the graph with the new kinds. -/
theorem overlaid_of_next {base : Option String} (hbeside : KindTree.Beside links)
    (h : next fetch (kinds.insertAll links) protocol = some base) :
    overlaid fetch kinds links protocol = some base := by
  obtain ⟨link, -, hlink, -, -⟩ := exists_of_next h
  by_cases hupdated : IsUpdated links protocol
  · obtain ⟨entry, hentry, hsegments⟩ := hupdated
    have hopen := KindTree.isOpenFor_of_getProtocol_insertAll hbeside hentry
      (hsegments ▸ List.prefix_refl _) hlink
    rw [overlaid_of_isUpdated hbeside hentry hsegments,
      ← next_insertAll_of_mem hbeside hentry hopen hsegments]
    exact h
  · rw [overlaid_of_not_isUpdated hupdated, ← h]
    unfold next
    rw [KindTree.getProtocol_insertAll_of_not_under]
    intro entry hentry hunder
    have hopen := KindTree.isOpenFor_of_getProtocol_insertAll hbeside hentry hunder hlink
    have hne : segments entry.1 ≠ segments protocol := fun heq ↦ hupdated ⟨entry, hentry, heq⟩
    have hnone := KindTree.getProtocol_insertAll_below hbeside hentry hopen hunder hne
    cases hnone.symm.trans hlink

/-- Outside of what is updated and of what is lost the tree stays as it was. -/
theorem next_insertAll_of_resolves
    (hbelow : ∀ entry ∈ links, ∀ protocol, segments entry.1 <+: segments protocol →
      segments entry.1 ≠ segments protocol → ¬Resolves fetch kinds protocol)
    (hresolves : Resolves fetch kinds protocol) (h : ¬IsUpdated links protocol) :
    next fetch (kinds.insertAll links) protocol = next fetch kinds protocol := by
  unfold next
  rw [KindTree.getProtocol_insertAll_of_not_under]
  intro entry hentry hunder
  exact hbelow entry hentry protocol hunder (fun heq ↦ h ⟨entry, hentry, heq⟩) hresolves

end Links

/-! ### Accepted updates -/

section Accepted

variable {fetch : Cid → Except String (KindNode Cid)} {manifest after : RuntimeManifest Cid}
  {update : KindsUpdate Cid}

omit [DecidableEq Cid] in
theorem beside_links (update : KindsUpdate Cid) : KindTree.Beside update.links := by
  cases update with
  | set path cid => exact KindTree.beside_singleton _
  | overlay kinds => exact KindTree.beside_iterProtocols kinds

theorem after_eq_of_apply (h : update.apply fetch manifest = .ok after) :
    after.kinds = manifest.kinds.insertAll update.links := by
  cases update with
  | set path cid =>
    obtain ⟨⟨found, kindNode⟩, hset, rfl⟩ := map_eq_ok h
    exact congrArg RuntimeManifest.kinds (setKind_eq_ok hset).1
  | overlay kinds =>
    obtain ⟨⟨found, changed⟩, hoverlay, rfl⟩ := map_eq_ok h
    exact congrArg RuntimeManifest.kinds (applyKindsTreeOverlay_eq_ok hoverlay).1

/-- The new kinds of an accepted update that fits are resolvable, unless a link stands above. -/
theorem resolves_updated (h : update.apply fetch manifest = .ok after)
    (hfits : Fits fetch manifest update) {entry : String × IpldLink Cid}
    (hentry : entry ∈ update.links) (hopen : manifest.kinds.IsOpenFor entry.1) :
    Resolves fetch after.kinds entry.1 := by
  have hafter := after_eq_of_apply h
  have hbeside := beside_links update
  have hnext {kind : KindNode Cid} (hfetch : fetch entry.2.cid = .ok kind) :
      next fetch after.kinds entry.1 = some kind.extendsProtocol := by
    rw [hafter, next_insertAll_of_mem hbeside hentry hopen rfl, hfetch]
    rfl
  cases update with
  | set path cid =>
    obtain ⟨⟨found, kindNode⟩, hset, rfl⟩ := map_eq_ok h
    obtain ⟨-, kind, hfetch, hresolved⟩ := setKind_eq_ok hset
    obtain rfl := List.mem_singleton.mp hentry
    obtain ⟨n, hle, hends⟩ := exists_extendOver_iff.mp ⟨kindNode, hresolved⟩
    refine resolves_iff.mpr ⟨n, hle, endsIn_iff.mpr ⟨_, hnext hfetch, ?_⟩⟩
    cases hbase : kind.extendsProtocol with
    | none =>
      rw [hbase] at hends
      exact hends
    | some base =>
      rw [hbase] at hends
      obtain ⟨m, hends, rfl⟩ := hends
      rw [hafter]
      have hsame (node : String) (i : Nat) (hnode : EndsIn (next fetch manifest.kinds) node i)
          (hi : i ≤ m) (hnot : ¬IsUpdated (KindsUpdate.set path cid).links node) :=
        next_insertAll_of_resolves hfits.below
          (resolves_iff.mpr ⟨i, Nat.le_trans hi (Nat.le_of_succ_le hle), hnode⟩) hnot
      rcases hends.transfer hsame with hends | ⟨i, c, hleads, -⟩
      · exact ⟨m, hends, rfl⟩
      · exact absurd hleads (hfits.acyclic path cid kind base i c rfl hfetch hbase)
  | overlay kinds =>
    obtain ⟨⟨found, changed⟩, hoverlay, rfl⟩ := map_eq_ok h
    obtain ⟨kind, resolved, hfetch, -, hresolved⟩ :=
      (applyKindsTreeOverlay_eq_ok hoverlay).2 entry hentry
    obtain ⟨n, hle, hends⟩ := exists_extendOver_iff.mp ⟨resolved, hresolved⟩
    exact resolves_iff.mpr ⟨n, hle, endsIn_iff.mpr ⟨_, hnext hfetch, hends⟩⟩

/-- What could be resolved before an accepted update that fits can be resolved after it. -/
theorem resolves_kept (h : update.apply fetch manifest = .ok after)
    (hfits : Fits fetch manifest update) (protocol : String)
    (hresolves : Resolves fetch manifest.kinds protocol) :
    Resolves fetch after.kinds protocol := by
  have hafter := after_eq_of_apply h
  obtain ⟨n, hle, hends⟩ := resolves_iff.mp hresolves
  have hsame (node : String) (m : Nat) (hnode : EndsIn (next fetch manifest.kinds) node m)
      (hm : m ≤ n) (hnot : ¬IsUpdated update.links node) :
      next fetch after.kinds node = next fetch manifest.kinds node := by
    rw [hafter]
    exact next_insertAll_of_resolves hfits.below
      (resolves_iff.mpr ⟨m, Nat.le_trans hm hle, hnode⟩) hnot
  rcases hends.transfer hsame with hends | ⟨i, c, hlead, hleadAfter⟩
  · exact resolves_iff.mpr ⟨n, hle, hends⟩
  · obtain ⟨entry, hentry, hsegments⟩ := hlead.mem
    -- the chain goes on from there, so that no link stood above the new one
    have hopen : manifest.kinds.IsOpenFor entry.1 := by
      obtain ⟨rest, hrest, -⟩ := hlead.rest hends
      obtain ⟨base, hnext, -⟩ := endsIn_iff.mp hrest
      obtain ⟨link, -, hlink, -, -⟩ := exists_of_next hnext
      unfold KindTree.IsOpenFor
      rw [hsegments]
      exact isOpen_of_get hlink
    obtain ⟨m, -, hm⟩ := resolves_iff.mp (resolves_updated h hfits hentry hopen)
    have hc := hm.congr (next_congr hsegments.symm)
    have hover : EndsIn (overlaid fetch manifest.kinds update.links) c m := by
      rw [hafter] at hc
      exact hc.mono fun _ _ ↦ overlaid_of_next (beside_links update)
    exact resolves_iff.mpr ⟨i + m, hfits.short protocol i c m hresolves hlead hover,
      hleadAfter.endsIn hc⟩

/-- An accepted update that has kept everything resolvable fits. -/
theorem fits_of_kept (h : update.apply fetch manifest = .ok after)
    (hset : ∀ path cid, update = .set path cid → Resolves fetch after.kinds path.protocolId)
    (hkept : ∀ protocol, Resolves fetch manifest.kinds protocol →
      Resolves fetch after.kinds protocol) : Fits fetch manifest update := by
  have hafter := after_eq_of_apply h
  have hbeside := beside_links update
  have hends {protocol : String} {n : Nat} (hends : EndsIn (next fetch after.kinds) protocol n) :
      EndsIn (overlaid fetch manifest.kinds update.links) protocol n := by
    rw [hafter] at hends
    exact hends.mono fun _ _ ↦ overlaid_of_next hbeside
  have hleads {protocol c : String} {i : Nat}
      (hleads : Leads (next fetch manifest.kinds) (IsUpdated update.links) protocol i c) :
      Leads (overlaid fetch manifest.kinds update.links) (IsUpdated update.links) protocol i c :=
    hleads.mono fun _ _ hnot hnext ↦ (overlaid_of_not_isUpdated hnot).trans hnext
  constructor
  · intro entry hentry protocol hunder hne hresolves
    obtain ⟨link, -, -, hlink, -, -⟩ := hkept protocol hresolves
    rw [hafter] at hlink
    have hopen := KindTree.isOpenFor_of_getProtocol_insertAll hbeside hentry hunder hlink
    have hnone := KindTree.getProtocol_insertAll_below hbeside hentry hopen hunder hne
    cases hnone.symm.trans hlink
  · intro protocol i c n hresolves hlead hend
    obtain ⟨m, hle, hm⟩ := resolves_iff.mp (hkept protocol hresolves)
    have heq := ((hleads hlead).endsIn hend).unique (hends hm)
    exact heq ▸ hle
  · rintro path cid kind base i c rfl hfetch hbase hlead
    have hmem : (path.protocolId, ⟨cid⟩) ∈ (KindsUpdate.set path cid).links :=
      List.mem_singleton_self _
    obtain ⟨m, -, hm⟩ := resolves_iff.mp (hset path cid rfl)
    have hover {protocol : String} (hsegments : segments path.protocolId = segments protocol) :
        overlaid fetch manifest.kinds (KindsUpdate.set path cid).links protocol =
          some (some base) := by
      rw [overlaid_of_isUpdated hbeside hmem hsegments, hfetch, ← hbase]
      rfl
    obtain ⟨below, hbelow, rfl⟩ := (hends hm).base (hover rfl)
    obtain ⟨rest, hrest, rfl⟩ := (hleads hlead).rest hbelow
    -- the chain of the new kind comes back to it, and is longer than itself
    obtain ⟨entry, hentry, hsegments⟩ := hlead.mem
    obtain rfl := List.mem_singleton.mp hentry
    have hagain := hrest.congr ((hover rfl).trans (hover hsegments).symm)
    have heq := hagain.unique (hends hm)
    omega

/-- Assumes: an update that was accepted. The kinds that it linked are resolvable, and so are all
those that were so before, if and only if no link stands above a new one, no resolvable kind below a
new one is lost, a kind that is linked by itself does not lead to the one it replaces, and no chain
that leads to a new kind is longer than a resolution follows. -/
theorem staysResolvable_iff (h : update.apply fetch manifest = .ok after) :
    ((∀ entry ∈ update.links, Resolves fetch after.kinds entry.1) ∧
      ∀ protocol, Resolves fetch manifest.kinds protocol → Resolves fetch after.kinds protocol) ↔
    KeepsResolvable fetch manifest update := by
  constructor
  · rintro ⟨hupdated, hkept⟩
    refine ⟨fits_of_kept h ?_ hkept, ?_⟩
    · rintro path cid rfl
      exact hupdated (path.protocolId, ⟨cid⟩) (List.mem_singleton_self _)
    · intro entry hentry
      obtain ⟨link, -, -, hlink, -, -⟩ := hupdated entry hentry
      rw [after_eq_of_apply h] at hlink
      exact KindTree.isOpenFor_of_getProtocol_insertAll (beside_links update) hentry
        (List.prefix_refl _) hlink
  · intro hkeeps
    constructor
    · intro entry hentry
      exact resolves_updated h hkeeps.toFits hentry (hkeeps.isOpen entry hentry)
    · exact resolves_kept h hkeeps.toFits

end Accepted

/-! ### A kind and its base -/

def basePath : KindPath where
  rest := ["base"]
  nonempty := by decide
  isSegment := by decide

def derivedPath : KindPath where
  rest := ["derived"]
  nonempty := by decide
  isSegment := by decide

def kindOf (path : KindPath) (base : Option KindPath) : KindNode Nat where
  protocol := path.protocolId
  cid := none
  kindType := .extism
  behaviour := none
  behaviourChain := []
  attributes := .empty
  hostFunctions := []
  extendsProtocol := base.map KindPath.protocolId

/-- A base, a kind that extends it, and a kind in its place that extends that one. -/
def fetchKind : Nat → Except String (KindNode Nat)
  | 0 => .ok (kindOf basePath none)
  | 1 => .ok (kindOf derivedPath (some basePath))
  | 2 => .ok (kindOf basePath (some derivedPath))
  | _ => .error "not found"

/-- A manifest with a base and a kind that extends it. -/
def twoKinds : RuntimeManifest Nat :=
  insertKinds .default [(basePath.protocolId, ⟨0⟩), (derivedPath.protocolId, ⟨1⟩)]

theorem not_resolves_default (protocol : String) :
    ¬Resolves fetchKind RuntimeManifest.default.kinds protocol := by
  rintro ⟨link, kind, resolved, hlink, -, -⟩
  rw [KindTree.getProtocol, RuntimeManifest.default, kindTreeGet_empty] at hlink
  cases hlink

theorem keepsResolvable_first :
    KeepsResolvable fetchKind RuntimeManifest.default (.set basePath 0) := by
  refine ⟨⟨?_, ?_, ?_⟩, ?_⟩
  · intro entry hentry protocol _ _
    exact not_resolves_default protocol
  · intro protocol i c n hresolves
    exact absurd hresolves (not_resolves_default protocol)
  · rintro path cid kind base i c heq hfetch hbase -
    injection heq with hpath hcid
    subst hcid
    obtain rfl := Except.ok.inj hfetch
    cases hbase
  · intro entry hentry above _ _
    exact kindTreeGet_empty above

/-- A first kind, which extends nothing. -/
theorem staysResolvable_first :
    ∃ after, (KindsUpdate.set basePath 0).apply fetchKind .default = .ok after ∧
      Resolves fetchKind after.kinds basePath.protocolId := by
  have happly : (KindsUpdate.set basePath 0).apply fetchKind .default =
      .ok (insertKind .default basePath.protocolId ⟨0⟩) := rfl
  exact ⟨_, happly,
    ((staysResolvable_iff happly).mpr keepsResolvable_first).1 _ (List.mem_singleton_self _)⟩

theorem children_twoKinds : twoKinds.kinds.children =
    kindTreeInsert ["derived"] (kindTreeInsert ["base"] .empty ⟨0⟩) ⟨1⟩ := by
  rw [show ["derived"] = segments derivedPath.protocolId from derivedPath.segments_eq.symm,
    show ["base"] = segments basePath.protocolId from basePath.segments_eq.symm]
  rfl

theorem getProtocol_base : twoKinds.kinds.getProtocol basePath.protocolId = some ⟨0⟩ := by
  rw [KindTree.getProtocol, children_twoKinds, basePath.segments_eq]
  rfl

theorem getProtocol_derived : twoKinds.kinds.getProtocol derivedPath.protocolId = some ⟨1⟩ := by
  rw [KindTree.getProtocol, children_twoKinds, derivedPath.segments_eq]
  rfl

theorem endsIn_derived : EndsIn (next fetchKind twoKinds.kinds) derivedPath.protocolId 1 := by
  have hfetchBase : fetchKind 0 = .ok (kindOf basePath none) := rfl
  have hfetchDerived : fetchKind 1 = .ok (kindOf derivedPath (some basePath)) := rfl
  exact .refer (next_of_fetch getProtocol_derived hfetchDerived)
    (.last (next_of_fetch getProtocol_base hfetchBase))

/-- A kind is linked over the base it leads to: it was resolved against the old base, and is its
own base now. Neither it nor the kind between can be resolved any more. -/
theorem setKind_cycle :
    ∃ after, (KindsUpdate.set basePath 2).apply fetchKind twoKinds = .ok after ∧
      Resolves fetchKind twoKinds.kinds derivedPath.protocolId ∧
      ¬Resolves fetchKind after.kinds basePath.protocolId ∧
      ¬Resolves fetchKind after.kinds derivedPath.protocolId := by
  have hbase : segments basePath.protocolId = ["base"] := basePath.segments_eq
  have hderived : segments derivedPath.protocolId = ["derived"] := derivedPath.segments_eq
  have hafter : (insertKind twoKinds basePath.protocolId ⟨2⟩).kinds.children =
      kindTreeInsert ["base"]
        (kindTreeInsert ["derived"] (kindTreeInsert ["base"] .empty ⟨0⟩) ⟨1⟩) ⟨2⟩ := by
    rw [← children_twoKinds, ← hbase]
    rfl
  have hfetchDerived : fetchKind 1 = .ok (kindOf derivedPath (some basePath)) := rfl
  have hfetchNew : fetchKind 2 = .ok (kindOf basePath (some derivedPath)) := rfl
  obtain ⟨resolved, hresolved⟩ : ∃ resolved, resolveKindExtends fetchKind twoKinds.kinds
      (kindOf basePath (some derivedPath)) = .ok resolved :=
    exists_extendOver_iff.mpr ⟨2, by decide, 1, endsIn_derived, rfl⟩
  have happly : (KindsUpdate.set basePath 2).apply fetchKind twoKinds =
      .ok (insertKind twoKinds basePath.protocolId ⟨2⟩) :=
    congrArg (Except.map Prod.fst) (setKind_of_resolves hfetchNew hresolved)
  have hnextBase : next fetchKind (insertKind twoKinds basePath.protocolId ⟨2⟩).kinds
      basePath.protocolId = some (some derivedPath.protocolId) := by
    refine next_of_fetch ?_ hfetchNew
    rw [KindTree.getProtocol, hafter, hbase]
    rfl
  have hnextDerived : next fetchKind (insertKind twoKinds basePath.protocolId ⟨2⟩).kinds
      derivedPath.protocolId = some (some basePath.protocolId) := by
    refine next_of_fetch ?_ hfetchDerived
    rw [KindTree.getProtocol, hafter, hderived]
    rfl
  obtain ⟨hcycleBase, hcycleDerived⟩ := not_endsIn_of_cycle hnextBase hnextDerived
  refine ⟨_, happly, resolves_iff.mpr ⟨1, by decide, endsIn_derived⟩, fun h ↦ ?_, fun h ↦ ?_⟩
  · obtain ⟨n, -, hn⟩ := resolves_iff.mp h
    exact hcycleBase n hn
  · obtain ⟨n, -, hn⟩ := resolves_iff.mp h
    exact hcycleDerived n hn

end MaRuntime.Kinds
