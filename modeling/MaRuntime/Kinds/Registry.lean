import MaRuntime.Library.Runs
import MaRuntime.Kinds.Resolvable

/-!
# The registry of kinds

The kinds that entities are loaded with are looked up in a registry in memory, which is filled from
the manifest at the start (`hydrateKindRegistry`). A request that links a kind, or lays a tree over
that of the manifest, puts the kinds it has changed and those that depend on them into the registry
again, as far as they can be resolved (`spawnKindDependencyReloadsFor`); a request that removes a
kind removes it from the registry.

`registry_eq_resolved` says that the registry has the resolved kinds of the manifest, along every
run in which the updates leave resolvable what was so before, every kind that depends on a replaced
one names its base by its identifier, and no kind is removed that another one depends on
(`KeepsRegistry`). `fits_of_inStep` and `keepsRegistry_of_inStep_delete` say that requests against
the condition take the registry out of step. In `deleted_base_remains` the base of a kind is removed
and the kind stays in the registry.

Main definitions: `hydrateKindRegistry`, `affectedKindProtocolsFor`, `kindsStep`, `KeepsRegistry`.
Main results: `registry_eq_resolved`, `fits_of_inStep`, `deleted_base_remains`.

Scope. Each handler runs to its end before the next request. The reloads of entities that a request
spawns read the registry only.
-/

set_option autoImplicit false
set_option relaxedAutoImplicit false

namespace MaRuntime.Kinds

open Manifest Chains Runs

variable {Cid : Type}

/-! ### The registry -/

section Registry

variable (fetch : Cid → Except String (KindNode Cid))

/-- `hydrate_kind_registry`, into an empty registry. -/
def hydrateKindRegistry (manifest : RuntimeManifest Cid) : KeyedMap String (KindNode Cid) :=
  .insertEach Prod.fst (fun entry ↦ (fetch entry.2.cid).toOption.bind fun rawKind ↦
    (resolveKind fetch manifest.kinds rawKind).toOption) manifest.kinds.iterProtocols .empty

/-- `load_raw_kind_nodes` -/
def loadRawKindNodes (manifest : RuntimeManifest Cid) : KeyedMap String (KindNode Cid) :=
  .insertEach Prod.fst (fun entry ↦ (fetch entry.2.cid).toOption)
    manifest.kinds.iterProtocols .empty

end Registry

/-- The loop of `kind_depends_on`, with the number of bases that may still be looked at, and those
that were. -/
def dependsLoop (rawKinds : KeyedMap String (KindNode Cid)) (updatedProtocol : String) :
    Nat → List String → Option String → Bool
  | 0, _, _ => false
  | _ + 1, _, none => false
  | hops + 1, seen, some base =>
    if base = updatedProtocol then true
    else if base ∈ seen then false
    else dependsLoop rawKinds updatedProtocol hops (base :: seen)
      ((rawKinds.get base).bind KindNode.extendsProtocol)

/-- `kind_depends_on` -/
def kindDependsOn (protocol updatedProtocol : String) (rawKinds : KeyedMap String (KindNode Cid)) :
    Bool :=
  if protocol = updatedProtocol then true
  else dependsLoop rawKinds updatedProtocol maxDepth []
    ((rawKinds.get protocol).bind KindNode.extendsProtocol)

/-- `affected_kind_protocols_for` -/
def affectedKindProtocolsFor (updatedProtocols : List String)
    (rawKinds : KeyedMap String (KindNode Cid)) : List String :=
  updatedProtocols.flatMap fun updated ↦ updated ::
    (rawKinds.entries.map Prod.fst).filter fun protocol ↦ kindDependsOn protocol updated rawKinds

/-- `hydrate_affected_kind_registry` -/
def hydrateAffectedKindRegistry (fetch : Cid → Except String (KindNode Cid))
    (manifest : RuntimeManifest Cid) (rawKinds : KeyedMap String (KindNode Cid))
    (affected : List String) (registry : KeyedMap String (KindNode Cid)) :
    KeyedMap String (KindNode Cid) :=
  .insertEach id (fun protocol ↦ (rawKinds.get protocol).bind fun rawKind ↦
    (resolveKind fetch manifest.kinds rawKind).toOption) affected registry

/-- What `spawn_kind_dependency_reloads_for` does to the registry. -/
def spawnKindDependencyReloadsFor (fetch : Cid → Except String (KindNode Cid))
    (updatedProtocols : List String) (manifest : RuntimeManifest Cid)
    (registry : KeyedMap String (KindNode Cid)) : KeyedMap String (KindNode Cid) :=
  hydrateAffectedKindRegistry fetch manifest (loadRawKindNodes fetch manifest)
    (affectedKindProtocolsFor updatedProtocols (loadRawKindNodes fetch manifest)) registry

/-! ### Requests -/

/-- The manifest and the registry. -/
structure KindsState (Cid : Type) where
  manifest : RuntimeManifest Cid
  registry : KeyedMap String (KindNode Cid)

/-- A request that links kinds, or `DELETE /kinds/<path>`. -/
inductive KindsAction (Cid : Type)
  | update (update : KindsUpdate Cid)
  | delete (path : KindPath)

section Handlers

variable (fetch : Cid → Except String (KindNode Cid))

/-- A runtime that has started with a manifest. -/
def KindsState.start (manifest : RuntimeManifest Cid) : KindsState Cid where
  manifest := manifest
  registry := hydrateKindRegistry fetch manifest

/-- `handle_kinds_ns` for `SET /kinds/<path>`. -/
def handleSet (s : KindsState Cid) (path : KindPath) (cid : Cid) :
    Except String (KindsState Cid) := do
  let (manifest, kindNode) ← setKind fetch s.manifest path cid
  let registry := s.registry.insert path.protocolId kindNode
  return ⟨manifest, spawnKindDependencyReloadsFor fetch [path.protocolId] manifest registry⟩

/-- `handle_kinds_ns` for `DELETE /kinds/<path>`. -/
def handleDelete (s : KindsState Cid) (path : KindPath) : Except String (KindsState Cid) :=
  match s.manifest.kinds.getProtocol path.protocolId with
  | none => .error "kind-not-found"
  | some _ => .ok
    { manifest :=
        { s.manifest with kinds := s.manifest.kinds.removeProtocol path.protocolId }
      registry := s.registry.remove path.protocolId }

/-- `apply_kinds_tree` and `schedule_overlay_reloads` -/
def applyKindsTree [DecidableEq Cid] (s : KindsState Cid) (kinds : KindTree Cid) :
    Except String (KindsState Cid) := do
  let (manifest, changedProtocols) ← applyKindsTreeOverlay fetch s.manifest kinds
  return ⟨manifest,
    if changedProtocols.isEmpty then s.registry
    else spawnKindDependencyReloadsFor fetch changedProtocols manifest s.registry⟩

/-- `handle_kinds_ns` -/
def handleKindsNs [DecidableEq Cid] (s : KindsState Cid) :
    KindsAction Cid → Except String (KindsState Cid)
  | .update (.set path cid) => handleSet fetch s path cid
  | .update (.overlay kinds) => applyKindsTree fetch s kinds
  | .delete path => handleDelete s path

/-- A request. One that is answered with an error leaves everything as it was. -/
def kindsStep [DecidableEq Cid] (s : KindsState Cid) (action : KindsAction Cid) :
    Option (KindsState Cid) :=
  match handleKindsNs fetch s action with
  | .ok t => some t
  | .error _ => some s

end Handlers

/-! ### What the registry should have -/

section Resolved

variable (fetch : Cid → Except String (KindNode Cid)) (kinds : KindTree Cid)

/-- The kind that a manifest links for an identifier, when it can be resolved. -/
def resolvedAt (protocol : String) : Option (KindNode Cid) :=
  (kinds.getProtocol protocol).bind fun link ↦ (fetch link.cid).toOption.bind fun rawKind ↦
    (resolveKindExtends fetch kinds rawKind).toOption

variable {fetch kinds} {protocol : String} {resolved : KindNode Cid}

theorem resolvedAt_eq_some :
    resolvedAt fetch kinds protocol = some resolved ↔
      ∃ link rawKind, kinds.getProtocol protocol = some link ∧ fetch link.cid = .ok rawKind ∧
        resolveKindExtends fetch kinds rawKind = .ok resolved := by
  unfold resolvedAt
  constructor
  · intro h
    obtain ⟨link, hlink, h⟩ := Option.bind_eq_some_iff.mp h
    obtain ⟨rawKind, hfetch, h⟩ := Option.bind_eq_some_iff.mp h
    exact ⟨link, rawKind, hlink, toOption_eq_some.mp hfetch, toOption_eq_some.mp h⟩
  · rintro ⟨link, rawKind, hlink, hfetch, h⟩
    rw [hlink, Option.bind_some, hfetch, toOption_eq_some.mpr h |>.symm]
    rfl

theorem resolves_iff_resolvedAt :
    Resolves fetch kinds protocol ↔
      ∃ resolved, resolvedAt fetch kinds protocol = some resolved := by
  constructor
  · rintro ⟨link, rawKind, resolved, h⟩
    exact ⟨resolved, resolvedAt_eq_some.mpr ⟨link, rawKind, h⟩⟩
  · rintro ⟨resolved, h⟩
    obtain ⟨link, rawKind, h⟩ := resolvedAt_eq_some.mp h
    exact ⟨link, rawKind, resolved, h⟩

end Resolved

/-! ### What is put into the registry -/

section Hydrated

variable {fetch : Cid → Except String (KindNode Cid)} {kinds : KindTree Cid}
  {manifest : RuntimeManifest Cid} {protocol : String}

/-- What is made of the links of a tree is found under the identifiers that are listed. -/
theorem get_insertEach_listed {Value : Type} (f : IpldLink Cid → Option Value) (protocol : String) :
    (KeyedMap.insertEach Prod.fst (fun entry ↦ f entry.2) kinds.iterProtocols .empty).get protocol =
      if protocol ∈ kinds.protocolIds then (kinds.getProtocol protocol).bind f else none := by
  have hnone (h : ∀ link, (protocol, link) ∉ kinds.iterProtocols) :
      (KeyedMap.insertEach Prod.fst (fun entry ↦ f entry.2) kinds.iterProtocols .empty).get
        protocol = none := by
    rw [KeyedMap.get_insertEach_of_not_mem, KeyedMap.get_empty]
    rintro ⟨id, link⟩ hentry rfl
    exact h link hentry
  split_ifs with hlisted
  · cases hlink : kinds.getProtocol protocol with
    | none =>
      refine hnone fun link hentry ↦ ?_
      cases hlink.symm.trans (KindTree.mem_iterProtocols.mp hentry).2
    | some link =>
      have hmem : ∃ entry ∈ kinds.iterProtocols, entry.1 = protocol :=
        ⟨(protocol, link), KindTree.mem_iterProtocols.mpr ⟨hlisted, hlink⟩, rfl⟩
      have hsame : ∀ entry ∈ kinds.iterProtocols, entry.1 = protocol → f entry.2 = f link := by
        rintro ⟨id, other⟩ hentry rfl
        have hother := (KindTree.mem_iterProtocols.mp hentry).2
        exact congrArg f (Option.some.inj (hother.symm.trans hlink))
      refine (KeyedMap.get_insertEach_of_mem hsame hmem).trans ?_
      rw [KeyedMap.get_empty, Option.or_none]
      rfl
  · exact hnone fun link hentry ↦ hlisted (KindTree.mem_iterProtocols.mp hentry).1

/-- What is made of the links of a tree is found under their identifiers. -/
theorem get_insertEach_iterProtocols {Value : Type} (f : IpldLink Cid → Option Value)
    (hid : IsId protocol) :
    (KeyedMap.insertEach Prod.fst (fun entry ↦ f entry.2) kinds.iterProtocols .empty).get protocol =
      (kinds.getProtocol protocol).bind f := by
  rw [get_insertEach_listed]
  split_ifs with hlisted
  · rfl
  · cases hlink : kinds.getProtocol protocol with
    | none => rfl
    | some link => exact absurd (KindTree.mem_protocolIds hid hlink) hlisted

theorem get_hydrateKindRegistry (hid : IsId protocol) :
    (hydrateKindRegistry fetch manifest).get protocol =
      resolvedAt fetch manifest.kinds protocol := by
  simp only [hydrateKindRegistry, resolvedAt, resolveKind_eq]
  exact get_insertEach_iterProtocols (fun link ↦ (fetch link.cid).toOption.bind fun rawKind ↦
    (resolveKindExtends fetch manifest.kinds rawKind).toOption) hid

theorem get_loadRawKindNodes (hid : IsId protocol) :
    (loadRawKindNodes fetch manifest).get protocol =
      (manifest.kinds.getProtocol protocol).bind fun link ↦ (fetch link.cid).toOption :=
  get_insertEach_iterProtocols (fun link ↦ (fetch link.cid).toOption) hid

theorem get_loadRawKindNodes_listed (protocol : String) :
    (loadRawKindNodes fetch manifest).get protocol =
      if protocol ∈ manifest.kinds.protocolIds then
        (manifest.kinds.getProtocol protocol).bind fun link ↦ (fetch link.cid).toOption
      else none :=
  get_insertEach_listed (fun link ↦ (fetch link.cid).toOption) protocol

/-- A listed kind that can be fetched is read. -/
theorem get_loadRawKindNodes_of_fetch {link : IpldLink Cid} {kind : KindNode Cid}
    (hlisted : protocol ∈ manifest.kinds.protocolIds)
    (hlink : manifest.kinds.getProtocol protocol = some link) (hfetch : fetch link.cid = .ok kind) :
    (loadRawKindNodes fetch manifest).get protocol = some kind := by
  rw [get_loadRawKindNodes_listed, if_pos hlisted, hlink, Option.bind_some, hfetch]
  rfl

theorem get_loadRawKindNodes_of_not_listed (hlisted : protocol ∉ manifest.kinds.protocolIds) :
    (loadRawKindNodes fetch manifest).get protocol = none := by
  rw [get_loadRawKindNodes_listed, if_neg hlisted]

/-- A kind that is affected is put into the registry when it can be resolved. -/
theorem get_hydrateAffected {affected : List String} {registry : KeyedMap String (KindNode Cid)}
    (hid : IsId protocol) :
    (hydrateAffectedKindRegistry fetch manifest (loadRawKindNodes fetch manifest) affected
      registry).get protocol =
      if protocol ∈ affected then
        (resolvedAt fetch manifest.kinds protocol).or (registry.get protocol)
      else registry.get protocol := by
  unfold hydrateAffectedKindRegistry
  split_ifs with hmem
  · refine KeyedMap.get_insertEach_of_mem ?_ ⟨protocol, hmem, rfl⟩
    intro other _ hother
    obtain rfl : other = protocol := hother
    simp only [get_loadRawKindNodes hid, resolvedAt, resolveKind_eq, Option.bind_assoc]
  · refine KeyedMap.get_insertEach_of_not_mem ?_
    rintro affected haffected rfl
    exact hmem haffected

theorem get_spawnKindDependencyReloadsFor {updatedProtocols : List String}
    {registry : KeyedMap String (KindNode Cid)} (hid : IsId protocol) :
    (spawnKindDependencyReloadsFor fetch updatedProtocols manifest registry).get protocol =
      if protocol ∈ affectedKindProtocolsFor updatedProtocols (loadRawKindNodes fetch manifest) then
        (resolvedAt fetch manifest.kinds protocol).or (registry.get protocol)
      else registry.get protocol := get_hydrateAffected hid

end Hydrated

/-! ### Kinds that a replaced one is looked for in -/

section Depends

variable {fetch : Cid → Except String (KindNode Cid)} {manifest : RuntimeManifest Cid}
  {target : String → Prop} {protocol c : String} {i n : Nat}

/-- Every kind that leads to a set, and whose chain of bases ends in time in a second graph, names
its base by its identifier. -/
def NamesBases (refers graph : String → Option (Option String)) (target : String → Prop) : Prop :=
  ∀ protocol base i c n, refers protocol = some (some base) → ¬target protocol →
    Leads refers target base i c → EndsIn graph protocol n → n ≤ maxDepth → IsId base

/-- Where a chain comes to a set is named by an identifier, when the chain begins with one. -/
theorem NamesBases.isId {refers : String → Option (Option String)}
    (hnames : NamesBases refers refers target) (hid : IsId protocol)
    (h : Leads refers target protocol i c) (hends : EndsIn refers protocol n)
    (hle : n ≤ maxDepth) : IsId c := by
  induction h generalizing n with
  | here => exact hid
  | refer hnot hnext hrest ih =>
    have hbase := hnames _ _ _ _ n hnext hnot hrest hends hle
    obtain ⟨rest, hrestEnds, rfl⟩ := hends.base hnext
    exact ih hbase hrestEnds (Nat.le_of_succ_le hle)

theorem extendsProtocol_of_next {base : Option String} (hid : IsId protocol)
    (h : next fetch manifest.kinds protocol = some base) :
    ((loadRawKindNodes fetch manifest).get protocol).bind KindNode.extendsProtocol = base := by
  obtain ⟨link, kind, hlink, hfetch, rfl⟩ := exists_of_next h
  rw [get_loadRawKindNodes hid, hlink, Option.bind_some, hfetch]
  rfl

/-- The walk along the bases comes to the first one of a set that its chain leads to. -/
theorem dependsLoop_of_leads {hops : Nat} {seen : List String}
    (hnames : NamesBases (next fetch manifest.kinds) (next fetch manifest.kinds) target)
    (hid : IsId protocol) (h : Leads (next fetch manifest.kinds) target protocol i c)
    (hends : EndsIn (next fetch manifest.kinds) protocol n) (hle : n ≤ maxDepth)
    (hseen : ∀ other ∈ seen, ∃ j c', Leads (next fetch manifest.kinds) target other j c' ∧ i < j)
    (hhops : i < hops) :
    dependsLoop (loadRawKindNodes fetch manifest) c hops seen (some protocol) = true := by
  induction h generalizing hops seen n with
  | here htarget =>
    obtain ⟨rest, rfl⟩ := Nat.exists_eq_succ_of_ne_zero (Nat.ne_of_gt hhops)
    exact if_pos rfl
  | @refer protocol base c i hnot hnext hrest ih =>
    obtain ⟨rest, rfl⟩ := Nat.exists_eq_succ_of_ne_zero (Nat.ne_zero_of_lt hhops)
    have hleads : Leads (next fetch manifest.kinds) target protocol (i + 1) c :=
      .refer hnot hnext hrest
    unfold dependsLoop
    -- a base that was seen is further away, as its chain is the same one
    have hunseen : protocol ∉ seen := by
      intro hmem
      obtain ⟨j, c', hother, hlt⟩ := hseen protocol hmem
      have heq := (hleads.unique hother).1
      omega
    rw [if_neg (fun heq : protocol = c ↦ hnot (heq ▸ hrest.mem)), if_neg hunseen,
      extendsProtocol_of_next hid hnext]
    have hbase := hnames protocol base i c n hnext hnot hrest hends hle
    obtain ⟨below, hbelow, rfl⟩ := hends.base hnext
    refine ih hbase hbelow (Nat.le_of_succ_le hle) ?_ (Nat.lt_of_succ_lt_succ hhops)
    intro other hother
    rcases List.mem_cons.mp hother with rfl | hmem
    · exact ⟨i + 1, c, hleads, Nat.lt_succ_self i⟩
    · obtain ⟨j, c', hleadsOther, hlt⟩ := hseen other hmem
      exact ⟨j, c', hleadsOther, Nat.lt_of_succ_lt hlt⟩

theorem mem_affected_self {updatedProtocols : List String}
    {rawKinds : KeyedMap String (KindNode Cid)} (h : protocol ∈ updatedProtocols) :
    protocol ∈ affectedKindProtocolsFor updatedProtocols rawKinds :=
  List.mem_flatMap.mpr ⟨protocol, h, List.mem_cons_self⟩

/-- A kind whose chain leads to an updated one in time is affected. -/
theorem mem_affected_of_leads {updatedProtocols : List String}
    (hnames : NamesBases (next fetch manifest.kinds) (next fetch manifest.kinds) target)
    (hid : IsId protocol) (h : Leads (next fetch manifest.kinds) target protocol i c)
    (hends : EndsIn (next fetch manifest.kinds) protocol n) (hle : n ≤ maxDepth)
    (hupdated : c ∈ updatedProtocols) :
    protocol ∈ affectedKindProtocolsFor updatedProtocols (loadRawKindNodes fetch manifest) := by
  unfold affectedKindProtocolsFor
  refine List.mem_flatMap.mpr ⟨c, hupdated, ?_⟩
  cases h with
  | here => exact List.mem_cons_self
  | @refer protocol base c i hnot hnext hrest =>
    obtain ⟨link, kind, hlink, hfetch, hbase⟩ := exists_of_next hnext
    have hget : (loadRawKindNodes fetch manifest).get protocol = some kind := by
      rw [get_loadRawKindNodes hid, hlink, Option.bind_some, hfetch]
      rfl
    refine List.mem_cons_of_mem _ (List.mem_filter.mpr
      ⟨List.mem_map.mpr ⟨_, KeyedMap.mem_of_get hget, rfl⟩, ?_⟩)
    unfold kindDependsOn
    split_ifs
    · rfl
    · rw [extendsProtocol_of_next hid hnext]
      have hbase := hnames protocol base i c n hnext hnot hrest hends hle
      obtain ⟨below, hbelow, rfl⟩ := hends.base hnext
      obtain ⟨rest, -, rfl⟩ := hrest.rest hbelow
      exact dependsLoop_of_leads hnames hbase hrest hbelow (Nat.le_of_succ_le hle)
        (fun _ hmem ↦ absurd hmem List.not_mem_nil) (by omega)

end Depends

/-! ### Two trees with the same chains -/

section Congruence

variable {fetch : Cid → Except String (KindNode Cid)} {kinds kinds' : KindTree Cid}
  {target : String → Prop} {protocol : String} {kind resolved : KindNode Cid}

/-- A resolution that does not come to a set is the same in a tree that has the links outside of
it. -/
theorem extendOver_congr {hops : Nat}
    (hsame : ∀ node link, ¬target node → kinds.getProtocol node = some link →
      kinds'.getProtocol node = some link)
    (hnot : ∀ base i c, kind.extendsProtocol = some base →
      ¬Leads (next fetch kinds) target base i c)
    (h : extendOver fetch kinds hops kind = .ok resolved) :
    extendOver fetch kinds' hops kind = .ok resolved := by
  induction hops generalizing kind with
  | zero =>
    cases hbase : kind.extendsProtocol with
    | none =>
      rw [extendOver_none hbase] at h ⊢
      exact h
    | some base =>
      obtain ⟨rest, -, -, hzero, -⟩ := exists_of_extendOver hbase h
      cases hzero
  | succ hops ih =>
    cases hbase : kind.extendsProtocol with
    | none =>
      rw [extendOver_none hbase] at h ⊢
      exact h
    | some base =>
      obtain ⟨rest, link, below, hrest, hlink, hfetch, hbelow⟩ := exists_of_extendOver hbase h
      obtain rfl := Nat.succ.inj hrest
      have hbaseNot : ¬target base := fun htarget ↦ hnot base 0 base hbase (.here htarget)
      rw [extendOver_some hbase (hsame base link hbaseNot hlink) hfetch]
      refine ih (fun further i c hfurther hleads ↦ ?_) hbelow
      have hnext : next fetch kinds base = some (some further) := by
        rw [next_of_fetch hlink hfetch, ← hfurther]
      exact hnot base (i + 1) c hbase (.refer hbaseNot hnext hleads)

/-- What is resolved for a kind whose chain does not come to a set. -/
theorem resolvedAt_congr (target : String → Prop)
    (hsame : ∀ node link, ¬target node → kinds.getProtocol node = some link →
      kinds'.getProtocol node = some link)
    (hnot : ∀ i c, ¬Leads (next fetch kinds) target protocol i c)
    (h : resolvedAt fetch kinds protocol = some resolved) :
    resolvedAt fetch kinds' protocol = some resolved := by
  obtain ⟨link, rawKind, hlink, hfetch, hresolved⟩ := resolvedAt_eq_some.mp h
  have hprotocol : ¬target protocol := fun htarget ↦ hnot 0 protocol (.here htarget)
  have hlink' := hsame protocol link hprotocol hlink
  refine resolvedAt_eq_some.mpr
    ⟨link, rawKind, hlink', hfetch, extendOver_congr hsame ?_ hresolved⟩
  intro base i c hbase hleads
  exact hnot (i + 1) c (.refer hprotocol (hbase ▸ next_of_fetch hlink hfetch) hleads)

/-- A kind that leads to one that is removed can no longer be resolved. -/
theorem not_resolves_of_leads_removed {path c : String} {i : Nat}
    {link : IpldLink Cid} (hlink : kinds.getProtocol path = some link)
    (h : Leads (next fetch kinds) (segments · = segments path) protocol i c) :
    ¬Resolves fetch (kinds.removeProtocol path) protocol := by
  intro hresolves
  have hleads : Leads (next fetch (kinds.removeProtocol path)) (segments · = segments path)
      protocol i c := by
    refine h.mono fun node base hnot hnext ↦ ?_
    unfold next at hnext ⊢
    rwa [KindTree.getProtocol_removeProtocol hlink, if_neg hnot]
  obtain ⟨n, -, hends⟩ := resolves_iff.mp hresolves
  obtain ⟨rest, hrest, -⟩ := hleads.rest hends
  obtain ⟨base, hnext, -⟩ := endsIn_iff.mp hrest
  obtain ⟨found, -, hfound, -, -⟩ := exists_of_next hnext
  rw [KindTree.getProtocol_removeProtocol hlink, if_pos hleads.mem] at hfound
  cases hfound

end Congruence

/-! ### The condition -/

/-- An identifier under which another link is read after an update. -/
def IsReplaced (kinds : KindTree Cid) (links : List (String × IpldLink Cid)) (protocol : String) :
    Prop :=
  ∃ entry ∈ links, segments entry.1 = segments protocol ∧ kinds.getProtocol protocol ≠ some entry.2

variable [DecidableEq Cid]

/-- The condition on a request. An update that is accepted leaves everything resolvable, apart from
the kinds of an overlay that are put below a link, which are not linked; and the kinds that depend
on a replaced one, and can be resolved with it, name their bases by their identifiers. No kind that
can be resolved depends on one that is removed. -/
def KeepsRegistry (fetch : Cid → Except String (KindNode Cid)) (s : KindsState Cid) :
    KindsAction Cid → Prop
  | .update update => ∀ after, update.apply fetch s.manifest = .ok after →
      Fits fetch s.manifest update ∧
      (∀ path cid, update = .set path cid → s.manifest.kinds.IsOpenFor path.protocolId) ∧
      NamesBases (next fetch s.manifest.kinds) (overlaid fetch s.manifest.kinds update.links)
        (IsReplaced s.manifest.kinds update.links)
  | .delete path => ∀ protocol i c, IsId protocol → protocol ≠ path.protocolId →
      Resolves fetch s.manifest.kinds protocol →
      ¬Leads (next fetch s.manifest.kinds) (segments · = segments path.protocolId) protocol i c

/-- The registry has the resolved kinds of the manifest. -/
def InStep (fetch : Cid → Except String (KindNode Cid)) (s : KindsState Cid) : Prop :=
  ∀ protocol, IsId protocol →
    s.registry.get protocol = resolvedAt fetch s.manifest.kinds protocol

section Steps

variable {fetch : Cid → Except String (KindNode Cid)} {s t : KindsState Cid}
  {manifest after : RuntimeManifest Cid} {update : KindsUpdate Cid}

omit [DecidableEq Cid] in
theorem inStep_start (manifest : RuntimeManifest Cid) :
    InStep fetch (KindsState.start fetch manifest) :=
  fun _ hid ↦ get_hydrateKindRegistry hid

/-- Outside of what is replaced, an update only loses links. -/
theorem getProtocol_of_not_isReplaced {links : List (String × IpldLink Cid)} {protocol : String}
    {kinds : KindTree Cid} {link : IpldLink Cid} (hbeside : KindTree.Beside links)
    (hnot : ¬IsReplaced kinds links protocol)
    (h : (kinds.insertAll links).getProtocol protocol = some link) :
    kinds.getProtocol protocol = some link := by
  by_cases hunder : ∃ entry ∈ links, segments entry.1 <+: segments protocol
  · obtain ⟨entry, hentry, hunder⟩ := hunder
    have hopen := KindTree.isOpenFor_of_getProtocol_insertAll hbeside hentry hunder h
    by_cases heq : segments entry.1 = segments protocol
    · rw [KindTree.getProtocol_insertAll_self hbeside hentry hopen heq.symm] at h
      by_contra hother
      exact hnot ⟨entry, hentry, heq, h ▸ hother⟩
    · rw [KindTree.getProtocol_insertAll_below hbeside hentry hopen hunder heq] at h
      cases h
  · rw [← h, KindTree.getProtocol_insertAll_of_not_under]
    exact fun entry hentry hentryUnder ↦ hunder ⟨entry, hentry, hentryUnder⟩

theorem next_of_not_isReplaced {links : List (String × IpldLink Cid)} {kinds : KindTree Cid}
    (hbeside : KindTree.Beside links) {node base : String} (hnot : ¬IsReplaced kinds links node)
    (h : next fetch (kinds.insertAll links) node = some (some base)) :
    next fetch kinds node = some (some base) := by
  obtain ⟨link, kind, hlink, hfetch, hbase⟩ := exists_of_next h
  rw [next_of_fetch (getProtocol_of_not_isReplaced hbeside hnot hlink) hfetch, hbase]

/-- The bases are named by their identifiers in the tree after an update as well. -/
theorem NamesBases.insertAll {links : List (String × IpldLink Cid)} {kinds : KindTree Cid}
    (hbeside : KindTree.Beside links)
    (h : NamesBases (next fetch kinds) (overlaid fetch kinds links) (IsReplaced kinds links)) :
    NamesBases (next fetch (kinds.insertAll links)) (next fetch (kinds.insertAll links))
      (IsReplaced kinds links) := by
  intro node base i c n hnext hnot hleads hends hle
  have hleadsBefore : Leads (next fetch kinds) (IsReplaced kinds links) base i c :=
    hleads.mono fun _ _ ↦ next_of_not_isReplaced hbeside
  have hendsOver : EndsIn (overlaid fetch kinds links) node n :=
    hends.mono fun _ _ ↦ overlaid_of_next hbeside
  exact h node base i c n (next_of_not_isReplaced hbeside hnot hnext) hnot hleadsBefore hendsOver hle

/-- What could not be resolved after an accepted update that fits could not be so before. -/
theorem resolvedAt_eq_none_of_apply {protocol : String}
    (happly : update.apply fetch manifest = .ok after) (hfits : Fits fetch manifest update)
    (h : resolvedAt fetch after.kinds protocol = none) :
    resolvedAt fetch manifest.kinds protocol = none := by
  by_contra hne
  have hresolves := resolves_kept happly hfits protocol
    (resolves_iff_resolvedAt.mpr (Option.ne_none_iff_exists'.mp hne))
  obtain ⟨found, hfound⟩ := resolves_iff_resolvedAt.mp hresolves
  cases h.symm.trans hfound

/-- An accepted update with the reloads of what it has changed, where the registry has the resolved
kinds of the manifest before, or the one that was linked. -/
theorem inStep_reload {updatedProtocols : List String} {registry : KeyedMap String (KindNode Cid)}
    (happly : update.apply fetch manifest = .ok after) (hfits : Fits fetch manifest update)
    (hnames : NamesBases (next fetch manifest.kinds) (overlaid fetch manifest.kinds update.links)
      (IsReplaced manifest.kinds update.links))
    (hids : ∀ entry ∈ update.links, IsId entry.1)
    (hupdated : ∀ entry ∈ update.links, entry.1 ∈ updatedProtocols ∨
      manifest.kinds.getProtocol entry.1 = some entry.2)
    (hregistry : ∀ protocol, IsId protocol →
      registry.get protocol = resolvedAt fetch manifest.kinds protocol ∨
      protocol ∈ updatedProtocols ∧ ∃ entry ∈ update.links, entry.1 = protocol ∧
        manifest.kinds.IsOpenFor protocol) :
    InStep fetch ⟨after, spawnKindDependencyReloadsFor fetch updatedProtocols after registry⟩ := by
  intro protocol hid
  have hafter := after_eq_of_apply happly
  have hbeside := beside_links update
  have hnamesAfter : NamesBases (next fetch after.kinds) (next fetch after.kinds)
      (IsReplaced manifest.kinds update.links) := hafter ▸ hnames.insertAll hbeside
  -- an identifier under which another link is read is one of those that are reloaded
  have hreplaced {c : String} (hc : IsId c) (h : IsReplaced manifest.kinds update.links c) :
      c ∈ updatedProtocols := by
    obtain ⟨entry, hentry, hsegments, hother⟩ := h
    have heq := (hids entry hentry).eq hc hsegments
    rw [← heq] at hother ⊢
    exact (hupdated entry hentry).resolve_right hother
  refine (get_spawnKindDependencyReloadsFor hid).trans ?_
  show _ = resolvedAt fetch after.kinds protocol
  rcases hregistry protocol hid with hold | ⟨hmem, entry, hentry, rfl, hopen⟩
  · rw [hold]
    cases hresolved : resolvedAt fetch after.kinds protocol with
    | none =>
      rw [resolvedAt_eq_none_of_apply happly hfits hresolved, Option.or_none, ite_self]
    | some found =>
      split_ifs with haffected
      · rfl
      · refine resolvedAt_congr (IsReplaced manifest.kinds update.links) ?_ ?_ hresolved
        · intro node link hnot hlink
          exact getProtocol_of_not_isReplaced hbeside hnot (hafter ▸ hlink)
        intro i c hleads
        apply haffected
        obtain ⟨n, hle, hends⟩ :=
          resolves_iff.mp (resolves_iff_resolvedAt.mpr ⟨found, hresolved⟩)
        have hc := hnamesAfter.isId hid hleads hends hle
        exact mem_affected_of_leads hnamesAfter hid hleads hends hle (hreplaced hc hleads.mem)
  · obtain ⟨resolved, hresolved⟩ :=
      resolves_iff_resolvedAt.mp (resolves_updated happly hfits hentry hopen)
    rw [if_pos (mem_affected_self hmem), hresolved]
    rfl

/-! ### The steps -/

/-- The identifiers of the kinds of an accepted overlay are the ones they are published with. -/
theorem isId_of_overlay {kinds : KindTree Cid} {changed : List String}
    (h : applyKindsTreeOverlay fetch manifest kinds = .ok (after, changed))
    {entry : String × IpldLink Cid} (hentry : entry ∈ kinds.iterProtocols) : IsId entry.1 := by
  obtain ⟨-, hkinds⟩ := applyKindsTreeOverlay_eq_ok h
  have hlink := (KindTree.mem_iterProtocols.mp hentry).2
  have hget : kinds.getProtocol (protocolId (segments entry.1)) = some entry.2 :=
    (KindTree.getProtocol_congr (segments_protocolId_segments entry.1)).trans hlink
  -- the link is listed under the identifier of its segments as well, with the same kind
  have hlisted : (protocolId (segments entry.1), entry.2) ∈ kinds.iterProtocols := by
    have hid : IsId (protocolId (segments entry.1)) :=
      congrArg protocolId (segments_protocolId_segments entry.1)
    exact KindTree.mem_iterProtocols.mpr ⟨KindTree.mem_protocolIds hid hget, hget⟩
  obtain ⟨kind, -, hfetch, hprotocol, -⟩ := hkinds entry hentry
  obtain ⟨kind', -, hfetch', hprotocol', -⟩ := hkinds _ hlisted
  obtain rfl := Except.ok.inj (hfetch.symm.trans hfetch')
  exact hprotocol'.symm.trans hprotocol

theorem handleSet_eq_ok {path : KindPath} {cid : Cid} (h : handleSet fetch s path cid = .ok t) :
    ∃ after kindNode, (KindsUpdate.set path cid).apply fetch s.manifest = .ok after ∧
      t = ⟨after, spawnKindDependencyReloadsFor fetch [path.protocolId] after
        (s.registry.insert path.protocolId kindNode)⟩ := by
  obtain ⟨⟨after, kindNode⟩, hset, h⟩ := bind_eq_ok h
  exact ⟨after, kindNode, congrArg (Except.map Prod.fst) hset, (Except.ok.inj h).symm⟩

/-- Where nothing has changed, nothing would be reloaded. -/
theorem applyKindsTree_eq_ok {kinds : KindTree Cid} (h : applyKindsTree fetch s kinds = .ok t) :
    ∃ after changed, applyKindsTreeOverlay fetch s.manifest kinds = .ok (after, changed) ∧
      t = ⟨after, spawnKindDependencyReloadsFor fetch changed after s.registry⟩ := by
  obtain ⟨⟨after, changed⟩, hoverlay, h⟩ := bind_eq_ok h
  refine ⟨after, changed, hoverlay, (Except.ok.inj h).symm.trans ?_⟩
  show KindsState.mk after (if changed.isEmpty then s.registry else _) = _
  split_ifs with hempty
  · rw [List.isEmpty_iff.mp hempty]
    rfl
  · rfl

theorem inStep_set {path : KindPath} {cid : Cid} (hs : InStep fetch s)
    (hguard : KeepsRegistry fetch s (.update (.set path cid)))
    (h : handleSet fetch s path cid = .ok t) : InStep fetch t := by
  obtain ⟨after, kindNode, happly, rfl⟩ := handleSet_eq_ok h
  obtain ⟨hfits, hopen, hnames⟩ := hguard after happly
  have hentry : (path.protocolId, ⟨cid⟩) ∈ (KindsUpdate.set path cid).links :=
    List.mem_singleton_self _
  refine inStep_reload happly hfits hnames ?_ ?_ ?_
  · intro entry hmem
    obtain rfl := List.mem_singleton.mp hmem
    exact path.isId
  · intro entry hmem
    obtain rfl := List.mem_singleton.mp hmem
    exact .inl (List.mem_singleton_self _)
  · intro protocol hid
    by_cases heq : protocol = path.protocolId
    · subst heq
      exact .inr ⟨List.mem_singleton_self _, _, hentry, rfl, hopen path cid rfl⟩
    · exact .inl ((KeyedMap.get_insert_of_ne _ _ heq).trans (hs protocol hid))

theorem inStep_overlay {kinds : KindTree Cid} (hs : InStep fetch s)
    (hguard : KeepsRegistry fetch s (.update (.overlay kinds)))
    (h : applyKindsTree fetch s kinds = .ok t) : InStep fetch t := by
  obtain ⟨after, changed, hoverlay, rfl⟩ := applyKindsTree_eq_ok h
  have happly : (KindsUpdate.overlay kinds).apply fetch s.manifest = .ok after :=
    congrArg (Except.map Prod.fst) hoverlay
  obtain ⟨hfits, -, hnames⟩ := hguard after happly
  obtain ⟨overlayKinds, hlinks, rfl⟩ := changed_of_applyKindsTreeOverlay hoverlay
  have hids (entry : String × IpldLink Cid) (hentry : entry ∈ kinds.iterProtocols) :
      IsId entry.1 := isId_of_overlay hoverlay hentry
  refine inStep_reload happly hfits hnames hids ?_ fun protocol hid ↦ .inl (hs protocol hid)
  intro entry hentry
  have hmem : entry ∈ overlayKinds.map fun kind ↦ (kind.protocol, kind.link) := hlinks ▸ hentry
  obtain ⟨kind, hkind, rfl⟩ := List.mem_map.mp hmem
  refine mem_changed_or (hlinks ▸ KindTree.beside_iterProtocols kinds) ?_ hkind
  intro other hother
  exact hids (other.protocol, other.link) (hlinks ▸ List.mem_map.mpr ⟨other, hother, rfl⟩)

omit [DecidableEq Cid] in
theorem handleDelete_eq_ok {path : KindPath} (h : handleDelete s path = .ok t) :
    ∃ link, s.manifest.kinds.getProtocol path.protocolId = some link ∧
      t.manifest.kinds = s.manifest.kinds.removeProtocol path.protocolId ∧
      t.registry = s.registry.remove path.protocolId := by
  unfold handleDelete at h
  cases hlink : s.manifest.kinds.getProtocol path.protocolId with
  | none =>
    rw [hlink] at h
    cases h
  | some link =>
    rw [hlink] at h
    obtain rfl := Except.ok.inj h
    exact ⟨link, rfl, rfl, rfl⟩

/-- Without a kind that others depend on, what is resolved for the others is the same. -/
theorem inStep_delete {path : KindPath} (hs : InStep fetch s)
    (hguard : KeepsRegistry fetch s (.delete path)) (h : handleDelete s path = .ok t) :
    InStep fetch t := by
  obtain ⟨link, hlink, hkinds, hregistry⟩ := handleDelete_eq_ok h
  have hget := KindTree.getProtocol_removeProtocol hlink
  intro protocol hid
  rw [hkinds, hregistry]
  by_cases heq : protocol = path.protocolId
  · subst heq
    rw [KeyedMap.get_remove_self]
    unfold resolvedAt
    rw [hget, if_pos rfl]
    rfl
  · rw [KeyedMap.get_remove_of_ne _ heq, hs protocol hid]
    apply Option.ext
    intro resolved
    constructor
    · intro hresolved
      refine resolvedAt_congr (segments · = segments path.protocolId) ?_ ?_ hresolved
      · intro node found hnot hfound
        rw [hget, if_neg hnot]
        exact hfound
      · intro i c
        exact hguard protocol i c hid heq (resolves_iff_resolvedAt.mpr ⟨resolved, hresolved⟩)
    · refine resolvedAt_congr (fun _ ↦ False) ?_ fun i c hleads ↦ hleads.mem
      intro node found _ hfound
      rw [hget] at hfound
      split_ifs at hfound
      exact hfound

/-- A request keeps the registry in step with the manifest. -/
theorem inStep_step {action : KindsAction Cid} (hs : InStep fetch s)
    (hguard : KeepsRegistry fetch s action) (h : kindsStep fetch s action = some t) :
    InStep fetch t := by
  unfold kindsStep at h
  cases hresult : handleKindsNs fetch s action with
  | error reason =>
    rw [hresult] at h
    obtain rfl := Option.some.inj h
    exact hs
  | ok after =>
    rw [hresult] at h
    obtain rfl := Option.some.inj h
    cases action with
    | update update =>
      cases update with
      | set path cid => exact inStep_set hs hguard hresult
      | overlay kinds => exact inStep_overlay hs hguard hresult
    | delete path => exact inStep_delete hs hguard hresult

/-- Assumes: a run from the start of a runtime, whose requests meet the condition. The registry has
the resolved kinds of the manifest. -/
theorem registry_eq_resolved {actions : List (KindsAction Cid)}
    (h : GuardedRun (kindsStep fetch) (KeepsRegistry fetch) (.start fetch manifest) actions s)
    {protocol : String} (hid : IsId protocol) :
    s.registry.get protocol = resolvedAt fetch s.manifest.kinds protocol := by
  have hin : InStep fetch s :=
    h.invariant (InStep fetch) (fun _ _ _ hs hguard hstep ↦ inStep_step hs hguard hstep)
      (inStep_start manifest)
  exact hin protocol hid

/-! ### What the condition leaves out -/

omit [DecidableEq Cid] in
/-- Nothing is taken out of the registry by a reload. -/
theorem resolves_of_inStep_reload {updatedProtocols : List String} {protocol : String}
    {registry : KeyedMap String (KindNode Cid)} {kindNode : KindNode Cid} (hid : IsId protocol)
    (h : InStep fetch
      ⟨after, spawnKindDependencyReloadsFor fetch updatedProtocols after registry⟩)
    (hregistry : registry.get protocol = some kindNode) : Resolves fetch after.kinds protocol := by
  have hin : _ = resolvedAt fetch after.kinds protocol :=
    (get_spawnKindDependencyReloadsFor hid).symm.trans (h protocol hid)
  cases hresolved : resolvedAt fetch after.kinds protocol with
  | none =>
    rw [hresolved, hregistry, Option.none_or, ite_self] at hin
    cases hin
  | some resolved => exact resolves_iff_resolvedAt.mpr ⟨resolved, hresolved⟩

/-- An accepted update against the first part of the condition takes the registry out of step. -/
theorem fits_of_inStep (hs : InStep fetch s)
    (h : handleKindsNs fetch s (.update update) = .ok t) (ht : InStep fetch t) :
    Fits fetch s.manifest update ∧
      ∀ path cid, update = .set path cid → s.manifest.kinds.IsOpenFor path.protocolId := by
  -- what is in the registry before the reload can be resolved afterwards
  obtain ⟨after, happly, hset, hkept⟩ : ∃ after, update.apply fetch s.manifest = .ok after ∧
      (∀ path cid, update = .set path cid → Resolves fetch after.kinds path.protocolId) ∧
      ∀ protocol, IsId protocol → Resolves fetch s.manifest.kinds protocol →
        Resolves fetch after.kinds protocol := by
    cases update with
    | set path cid =>
      obtain ⟨after, kindNode, happly, rfl⟩ := handleSet_eq_ok h
      refine ⟨after, happly, ?_, fun protocol hid hresolves ↦ ?_⟩
      · rintro path cid ⟨⟩
        exact resolves_of_inStep_reload path.isId ht (KeyedMap.get_insert_self _ _ _)
      · obtain ⟨resolved, hresolved⟩ := resolves_iff_resolvedAt.mp hresolves
        by_cases heq : protocol = path.protocolId
        · subst heq
          exact resolves_of_inStep_reload hid ht (KeyedMap.get_insert_self _ _ _)
        · exact resolves_of_inStep_reload hid ht
            ((KeyedMap.get_insert_of_ne _ _ heq).trans ((hs protocol hid).trans hresolved))
    | overlay kinds =>
      obtain ⟨after, changed, hoverlay, rfl⟩ := applyKindsTree_eq_ok h
      refine ⟨after, congrArg (Except.map Prod.fst) hoverlay, fun path cid heq ↦ (nomatch heq),
        fun protocol hid hresolves ↦ ?_⟩
      obtain ⟨resolved, hresolved⟩ := resolves_iff_resolvedAt.mp hresolves
      exact resolves_of_inStep_reload hid ht ((hs protocol hid).trans hresolved)
  refine ⟨fits_of_kept happly hset fun protocol hresolves ↦ ?_, ?_⟩
  · have hsegments := segments_protocolId_segments protocol
    have hid : IsId (protocolId (segments protocol)) := congrArg protocolId hsegments
    exact (resolves_congr hsegments).mp (hkept _ hid ((resolves_congr hsegments).mpr hresolves))
  · rintro path cid rfl
    obtain ⟨link, -, -, hlink, -, -⟩ := hset path cid rfl
    rw [after_eq_of_apply happly] at hlink
    have hbeside := beside_links (KindsUpdate.set path cid)
    have hmem : (path.protocolId, ⟨cid⟩) ∈ (KindsUpdate.set path cid).links :=
      List.mem_singleton_self _
    have hopen := KindTree.isOpenFor_of_getProtocol_insertAll hbeside hmem (List.prefix_refl _) hlink
    exact hopen

/-- A removal against the condition takes the registry out of step. -/
theorem keepsRegistry_of_inStep_delete {path : KindPath} (hs : InStep fetch s)
    (h : handleDelete s path = .ok t) (ht : InStep fetch t) :
    KeepsRegistry fetch s (.delete path) := by
  intro protocol i c hid hne hresolves hleads
  obtain ⟨link, hlink, hkinds, hregistry⟩ := handleDelete_eq_ok h
  obtain ⟨resolved, hresolved⟩ := resolves_iff_resolvedAt.mp hresolves
  refine not_resolves_of_leads_removed hlink hleads ?_
  rw [← hkinds]
  refine resolves_iff_resolvedAt.mpr ⟨resolved, ?_⟩
  rw [← ht protocol hid, hregistry, KeyedMap.get_remove_of_ne _ hne, hs protocol hid]
  exact hresolved

end Steps

/-! ### A base that is removed -/

/-- A first kind is linked. -/
theorem registry_eq_resolved_first :
    ∃ s : KindsState Nat, GuardedRun (kindsStep fetchKind) (KeepsRegistry fetchKind)
        (.start fetchKind .default) [.update (.set basePath 0)] s ∧
      s.registry.get basePath.protocolId =
        resolvedAt fetchKind s.manifest.kinds basePath.protocolId := by
  have hguard :
      KeepsRegistry fetchKind (.start fetchKind .default) (.update (.set basePath 0)) := by
    intro after _
    refine ⟨keepsResolvable_first.toFits, ?_, ?_⟩
    · rintro path cid heq
      exact keepsResolvable_first.isOpen (path.protocolId, ⟨cid⟩) (heq ▸ List.mem_singleton_self _)
    · intro protocol base i c n hnext
      obtain ⟨link, -, hlink, -, -⟩ := exists_of_next hnext
      rw [KindTree.getProtocol] at hlink
      cases (kindTreeGet_empty _).symm.trans hlink
  have hrun : GuardedRun (kindsStep fetchKind) (KeepsRegistry fetchKind)
      (.start fetchKind .default) [.update (.set basePath 0)] _ :=
    .cons hguard rfl (.nil _)
  exact ⟨_, hrun, registry_eq_resolved hrun basePath.isId⟩

/-- A kind stays in the registry when its base is removed, and can no longer be resolved. -/
theorem deleted_base_remains :
    ∃ s : KindsState Nat,
      Run (kindsStep fetchKind) (.start fetchKind twoKinds) [.delete basePath] s ∧
      s.registry.get derivedPath.protocolId ≠
        resolvedAt fetchKind s.manifest.kinds derivedPath.protocolId := by
  have hstep : kindsStep fetchKind (.start fetchKind twoKinds) (.delete basePath) = some
      { manifest :=
          { twoKinds with kinds := twoKinds.kinds.removeProtocol basePath.protocolId }
        registry := (hydrateKindRegistry fetchKind twoKinds).remove basePath.protocolId } := by
    simp only [kindsStep, handleKindsNs, handleDelete, KindsState.start, getProtocol_base]
  have hne : derivedPath.protocolId ≠ basePath.protocolId := by decide
  obtain ⟨resolved, hresolved⟩ : ∃ resolved,
      resolvedAt fetchKind twoKinds.kinds derivedPath.protocolId = some resolved :=
    resolves_iff_resolvedAt.mp (resolves_iff.mpr ⟨1, by decide, endsIn_derived⟩)
  have hremains : ((hydrateKindRegistry fetchKind twoKinds).remove basePath.protocolId).get
      derivedPath.protocolId = some resolved :=
    (KeyedMap.get_remove_of_ne _ hne).trans
      ((get_hydrateKindRegistry derivedPath.isId).trans hresolved)
  refine ⟨_, .cons trivial hstep (.nil _), fun heq ↦ ?_⟩
  have hsegments : segments derivedPath.protocolId ≠ segments basePath.protocolId := by
    rw [derivedPath.segments_eq, basePath.segments_eq]
    decide
  have hfetch : fetchKind 1 = .ok (kindOf derivedPath (some basePath)) := rfl
  have hleads : Leads (next fetchKind twoKinds.kinds)
      (segments · = segments basePath.protocolId) derivedPath.protocolId 1 basePath.protocolId :=
    .refer hsegments (next_of_fetch getProtocol_derived hfetch) (.here rfl)
  exact not_resolves_of_leads_removed getProtocol_base hleads
    (resolves_iff_resolvedAt.mpr ⟨resolved, heq.symm.trans hremains⟩)

end MaRuntime.Kinds
