import MaRuntime.Library.Chains
import MaRuntime.Kinds.Tree
import MaRuntime.Plugin.Load

/-!
# Kinds that extend others

A kind may name a base, the identifier of another kind, whose Wasm, host functions, attributes and
behaviour it takes over. `resolveKindExtends` follows the bases through the tree of a manifest, over
eight of them at most. A kind is linked by a request for `/kinds/<path>` (`setKind`), and several
ones by a tree that is laid over that of the manifest (`applyKindsTreeOverlay`).

`next` is the graph of the bases: a resolution succeeds when the chain of bases ends after at most
eight of them (`resolves_iff`).

Main definitions: `KindNode`, `resolveKindExtends`, `setKind`, `applyKindsTreeOverlay`, `next`.
Main results: `resolves_iff`, `setKind_eq_ok`, `applyKindsTreeOverlay_eq_ok`.

Scope. What `dag_get` answers for the identifier of a kind is the parameter `fetch`. A reference in
a request is given as the identifier that `dag_resolve` makes of it.
-/

set_option autoImplicit false
set_option relaxedAutoImplicit false

namespace MaRuntime.Kinds

open Manifest Chains

variable {Cid : Type}

/-! ### Kinds -/

/-- A kind with all that it is published with; `Plugin.KindNode` is what a load reads. -/
structure KindNode (Cid : Type) extends Plugin.KindNode Cid where
  hostFunctions : List String
  extendsProtocol : Option String

/-- `BTreeMap::extend` -/
def extendAttributes (base derived : KeyedMap String YamlValue) : KeyedMap String YamlValue :=
  derived.entries.foldr (fun entry attributes ↦ attributes.insert entry.1 entry.2) base

/-- `merge_kind_over_base` -/
def mergeKindOverBase (base derived : KindNode Cid) : KindNode Cid where
  protocol := derived.protocol
  cid := derived.cid.or base.cid
  kindType := derived.kindType
  behaviour := derived.behaviour.or base.behaviour
  behaviourChain :=
    (if base.behaviourChain.isEmpty then base.behaviour.toList else base.behaviourChain) ++
      (if derived.behaviourChain.isEmpty then derived.behaviour.toList else derived.behaviourChain)
  attributes := extendAttributes base.attributes derived.attributes
  hostFunctions := derived.hostFunctions.foldl
    (fun functions f ↦ if f ∈ functions then functions else functions ++ [f]) base.hostFunctions
  extendsProtocol := none

/-- The number of bases that a resolution follows. -/
def maxDepth : Nat := 8

/-- A failure under a further text, as `with_context` puts it. -/
def withContext {Value : Type} (text : String) (result : Except String Value) :
    Except String Value :=
  result.mapError fun reason ↦ text ++ ": " ++ reason

section Resolution

variable (fetch : Cid → Except String (KindNode Cid)) (kinds : KindTree Cid)

/-- The loop of `resolve_kind_extends`, with the number of bases that may still be followed. -/
def extendOver : Nat → KindNode Cid → Except String (KindNode Cid)
  | 0, kind =>
    match kind.extendsProtocol with
    | none => .ok kind
    | some base =>
      .error <| s!"kind '{kind.protocol}' extends chain exceeds {maxDepth} hops " ++
        s!"(possible cycle) at '{base}'"
  | hops + 1, kind =>
    match kind.extendsProtocol with
    | none => .ok kind
    | some base =>
      match kinds.getProtocol base with
      | none => .error s!"kind '{kind.protocol}' extends unknown base kind '{base}'"
      | some link => do
        let base ← fetch link.cid
        extendOver hops { mergeKindOverBase base kind with extendsProtocol := base.extendsProtocol }

/-- `resolve_kind_extends` -/
def resolveKindExtends (kind : KindNode Cid) : Except String (KindNode Cid) :=
  extendOver fetch kinds maxDepth kind

/-- A kind as it is used, which is resolved when it extends another one. -/
def resolveKind (kind : KindNode Cid) : Except String (KindNode Cid) :=
  if kind.extendsProtocol.isSome then resolveKindExtends fetch kinds kind else .ok kind

end Resolution

/-! ### Updates -/

/-- The path of a request for a kind, as `parse_path` leaves it. -/
structure KindPath where
  rest : List String
  nonempty : rest ≠ []
  isSegment : ∀ segment ∈ rest, segment ≠ "" ∧ '/' ∉ segment.toList

/-- The identifier that a request names. -/
def KindPath.protocolId (path : KindPath) : String := Kinds.protocolId path.rest

theorem KindPath.segments_eq (path : KindPath) : segments path.protocolId = path.rest :=
  segments_protocolId path.nonempty path.isSegment

theorem KindPath.isId (path : KindPath) : IsId path.protocolId :=
  congrArg Kinds.protocolId path.segments_eq

/-- A kind of an overlay. -/
structure OverlayKind (Cid : Type) where
  protocol : String
  link : IpldLink Cid
  rawKind : KindNode Cid

section Updates

variable (fetch : Cid → Except String (KindNode Cid))

/-- The manifest with a link to a kind. -/
def insertKind (manifest : RuntimeManifest Cid) (protocol : String) (link : IpldLink Cid) :
    RuntimeManifest Cid :=
  { manifest with kinds := manifest.kinds.insertProtocol protocol link }

/-- `SET /kinds/<path>`: the manifest that is published, and the kind as it is used. -/
def setKind (manifest : RuntimeManifest Cid) (path : KindPath) (cid : Cid) :
    Except String (RuntimeManifest Cid × KindNode Cid) := do
  let rawKind ← withContext s!"fetching kind node for '{path.protocolId}'" (fetch cid)
  let kindNode ← resolveKind fetch manifest.kinds rawKind
  return (insertKind manifest path.protocolId ⟨cid⟩, kindNode)

/-- The first loop of `apply_kinds_tree_overlay`. -/
def gatherOverlay (candidate : RuntimeManifest Cid) : List (String × IpldLink Cid) →
    Except String (RuntimeManifest Cid × List (OverlayKind Cid))
  | [] => .ok (candidate, [])
  | (protocol, link) :: rest => do
    let rawKind ← withContext s!"fetching overlay kind {protocol}" (fetch link.cid)
    if rawKind.protocol = protocol then
      let (candidate, overlayKinds) ← gatherOverlay (insertKind candidate protocol link) rest
      return (candidate, ⟨protocol, link, rawKind⟩ :: overlayKinds)
    else
      .error <| s!"overlay kind protocol mismatch: tree has '{protocol}', " ++
        s!"node has '{rawKind.protocol}'"

/-- The second loop: the kinds of the overlay are resolved. -/
def checkOverlay (candidate : RuntimeManifest Cid) : List (OverlayKind Cid) → Except String Unit
  | [] => .ok ()
  | kind :: rest => do
    let _ ← resolveKind fetch candidate.kinds kind.rawKind
    checkOverlay candidate rest

/-- The third loop: the manifest, and the protocols whose link has changed. -/
def linkOverlay [DecidableEq Cid] (manifest : RuntimeManifest Cid) :
    List (OverlayKind Cid) → RuntimeManifest Cid × List String
  | [] => (manifest, [])
  | kind :: rest =>
    let linked := linkOverlay (insertKind manifest kind.protocol kind.link) rest
    if (manifest.kinds.getProtocol kind.protocol).all fun old ↦ old.cid ≠ kind.link.cid then
      (linked.1, kind.protocol :: linked.2)
    else linked

/-- `apply_kinds_tree_overlay`: the manifest, and the protocols whose link has changed. -/
def applyKindsTreeOverlay [DecidableEq Cid] (manifest : RuntimeManifest Cid)
    (kinds : KindTree Cid) : Except String (RuntimeManifest Cid × List String) := do
  let (candidate, overlayKinds) ← gatherOverlay fetch manifest kinds.iterProtocols
  checkOverlay fetch candidate overlayKinds
  return linkOverlay manifest overlayKinds

end Updates

/-! ### The graph of the bases -/

section Graph

variable (fetch : Cid → Except String (KindNode Cid))

/-- What the kind that is linked for an identifier extends. -/
def next (kinds : KindTree Cid) (protocol : String) : Option (Option String) :=
  (kinds.getProtocol protocol).bind fun link ↦
    (fetch link.cid).toOption.map KindNode.extendsProtocol

/-- The kind that is linked for an identifier can be fetched and resolved. -/
def Resolves (kinds : KindTree Cid) (protocol : String) : Prop :=
  ∃ link kind resolved, kinds.getProtocol protocol = some link ∧ fetch link.cid = .ok kind ∧
    resolveKindExtends fetch kinds kind = .ok resolved

variable {fetch} {kinds : KindTree Cid} {protocol : String} {link : IpldLink Cid}
  {kind resolved : KindNode Cid}

theorem next_of_fetch (hlink : kinds.getProtocol protocol = some link)
    (hfetch : fetch link.cid = .ok kind) :
    next fetch kinds protocol = some kind.extendsProtocol := by
  unfold next
  rw [hlink, Option.bind_some, hfetch]
  rfl

theorem exists_of_next {base : Option String} (h : next fetch kinds protocol = some base) :
    ∃ link kind, kinds.getProtocol protocol = some link ∧ fetch link.cid = .ok kind ∧
      kind.extendsProtocol = base := by
  obtain ⟨link, hlink, hkind⟩ := Option.bind_eq_some_iff.mp h
  obtain ⟨kind, hfetch, hbase⟩ := Option.map_eq_some_iff.mp hkind
  cases hresult : fetch link.cid with
  | error reason =>
    rw [hresult] at hfetch
    cases hfetch
  | ok found =>
    rw [hresult] at hfetch
    obtain rfl := Option.some.inj hfetch
    exact ⟨link, found, hlink, hresult, hbase⟩

/-- A resolution goes on with the base. -/
theorem extendOver_some {hops : Nat} {base : String} {below : KindNode Cid}
    (hbase : kind.extendsProtocol = some base) (hlink : kinds.getProtocol base = some link)
    (hfetch : fetch link.cid = .ok below) :
    extendOver fetch kinds (hops + 1) kind = extendOver fetch kinds hops
      { mergeKindOverBase below kind with extendsProtocol := below.extendsProtocol } := by
  simp only [extendOver, hbase, hlink, hfetch]
  rfl

theorem extendOver_none {hops : Nat} (hbase : kind.extendsProtocol = none) :
    extendOver fetch kinds hops kind = .ok kind := by
  cases hops with
  | zero => simp only [extendOver, hbase]
  | succ hops => simp only [extendOver, hbase]

/-- What a resolution that succeeds has done first. -/
theorem exists_of_extendOver {hops : Nat} {base : String}
    (hbase : kind.extendsProtocol = some base)
    (h : extendOver fetch kinds hops kind = .ok resolved) :
    ∃ rest link below, hops = rest + 1 ∧ kinds.getProtocol base = some link ∧
      fetch link.cid = .ok below ∧ extendOver fetch kinds rest
        { mergeKindOverBase below kind with extendsProtocol := below.extendsProtocol } =
          .ok resolved := by
  cases hops with
  | zero =>
    simp only [extendOver, hbase] at h
    cases h
  | succ rest =>
    cases hlink : kinds.getProtocol base with
    | none =>
      simp only [extendOver, hbase, hlink] at h
      cases h
    | some link =>
      cases hfetch : fetch link.cid with
      | error reason =>
        simp only [extendOver, hbase, hlink, hfetch] at h
        cases h
      | ok below =>
        rw [extendOver_some hbase hlink hfetch] at h
        exact ⟨rest, link, below, rfl, rfl, hfetch, h⟩

/-- A resolution succeeds when the chain of the bases ends in time. -/
theorem exists_extendOver_iff {hops : Nat} :
    (∃ resolved, extendOver fetch kinds hops kind = .ok resolved) ↔
      ∃ n ≤ hops, EndsFrom (next fetch kinds) kind.extendsProtocol n := by
  induction hops generalizing kind with
  | zero =>
    cases hbase : kind.extendsProtocol with
    | none => exact ⟨fun _ ↦ ⟨0, Nat.le_refl 0, rfl⟩, fun _ ↦ ⟨kind, extendOver_none hbase⟩⟩
    | some base =>
      constructor
      · rintro ⟨resolved, h⟩
        obtain ⟨rest, -, -, hops, -⟩ := exists_of_extendOver hbase h
        cases hops
      · rintro ⟨n, hle, m, -, rfl⟩
        cases hle
  | succ hops ih =>
    cases hbase : kind.extendsProtocol with
    | none => exact ⟨fun _ ↦ ⟨0, Nat.zero_le _, rfl⟩, fun _ ↦ ⟨kind, extendOver_none hbase⟩⟩
    | some base =>
      constructor
      · rintro ⟨resolved, h⟩
        obtain ⟨rest, link, below, hrest, hlink, hfetch, hbelow⟩ := exists_of_extendOver hbase h
        obtain rfl := Nat.succ.inj hrest
        obtain ⟨n, hle, hends⟩ := ih.mp ⟨resolved, hbelow⟩
        have hbaseEnds := endsIn_iff.mpr ⟨_, next_of_fetch hlink hfetch, hends⟩
        exact ⟨n + 1, Nat.succ_le_succ hle, n, hbaseEnds, rfl⟩
      · rintro ⟨n, hle, m, hends, rfl⟩
        obtain ⟨bases, hnext, hrest⟩ := endsIn_iff.mp hends
        obtain ⟨link, below, hlink, hfetch, rfl⟩ := exists_of_next hnext
        rw [extendOver_some hbase hlink hfetch]
        exact ih.mpr ⟨m, Nat.le_of_succ_le_succ hle, hrest⟩

theorem resolves_iff :
    Resolves fetch kinds protocol ↔ ∃ n ≤ maxDepth, EndsIn (next fetch kinds) protocol n := by
  constructor
  · rintro ⟨link, kind, resolved, hlink, hfetch, hresolved⟩
    obtain ⟨n, hle, hends⟩ := exists_extendOver_iff.mp ⟨resolved, hresolved⟩
    exact ⟨n, hle, endsIn_iff.mpr ⟨_, next_of_fetch hlink hfetch, hends⟩⟩
  · rintro ⟨n, hle, hends⟩
    obtain ⟨base, hnext, hends⟩ := endsIn_iff.mp hends
    obtain ⟨link, kind, hlink, hfetch, rfl⟩ := exists_of_next hnext
    obtain ⟨resolved, hresolved⟩ := exists_extendOver_iff.mpr ⟨n, hle, hends⟩
    exact ⟨link, kind, resolved, hlink, hfetch, hresolved⟩

/-- A kind that names no base is its own resolution. -/
theorem resolveKind_eq : resolveKind fetch kinds kind = resolveKindExtends fetch kinds kind := by
  unfold resolveKind
  split_ifs with hbase
  · rfl
  · exact (extendOver_none (Option.not_isSome_iff_eq_none.mp hbase)).symm

end Graph

/-! ### What an accepted update has done -/

section Accepted

variable {fetch : Cid → Except String (KindNode Cid)} {manifest after : RuntimeManifest Cid}
  {path : KindPath} {cid : Cid} {kindNode : KindNode Cid}

theorem withContext_eq_ok {Value : Type} {text : String} {result : Except String Value}
    {value : Value} : withContext text result = .ok value ↔ result = .ok value := by
  cases result with
  | error reason => exact ⟨fun h ↦ (nomatch h), fun h ↦ (nomatch h)⟩
  | ok found => exact Iff.rfl

/-- The manifest with links to several kinds. -/
def insertKinds (manifest : RuntimeManifest Cid) (links : List (String × IpldLink Cid)) :
    RuntimeManifest Cid :=
  { manifest with kinds := manifest.kinds.insertAll links }

theorem setKind_eq_ok (h : setKind fetch manifest path cid = .ok (after, kindNode)) :
    after = insertKinds manifest [(path.protocolId, ⟨cid⟩)] ∧
      ∃ rawKind, fetch cid = .ok rawKind ∧
        resolveKindExtends fetch manifest.kinds rawKind = .ok kindNode := by
  obtain ⟨rawKind, hfetch, h⟩ := bind_eq_ok h
  obtain ⟨found, hresolved, h⟩ := bind_eq_ok h
  obtain ⟨rfl, rfl⟩ := Prod.mk.inj (Except.ok.inj h)
  rw [resolveKind_eq] at hresolved
  exact ⟨rfl, rawKind, withContext_eq_ok.mp hfetch, hresolved⟩

theorem setKind_of_resolves {rawKind : KindNode Cid} (hfetch : fetch cid = .ok rawKind)
    (hresolved : resolveKindExtends fetch manifest.kinds rawKind = .ok kindNode) :
    setKind fetch manifest path cid =
      .ok (insertKind manifest path.protocolId ⟨cid⟩, kindNode) := by
  unfold setKind
  rw [hfetch]
  show (resolveKind fetch manifest.kinds rawKind >>= fun kindNode ↦ _) = _
  rw [resolveKind_eq, hresolved]
  rfl

theorem gatherOverlay_eq_ok {candidate final : RuntimeManifest Cid}
    {links : List (String × IpldLink Cid)} {overlayKinds : List (OverlayKind Cid)}
    (h : gatherOverlay fetch candidate links = .ok (final, overlayKinds)) :
    final = insertKinds candidate links ∧
      overlayKinds.map (fun kind ↦ (kind.protocol, kind.link)) = links ∧
      ∀ kind ∈ overlayKinds,
        fetch kind.link.cid = .ok kind.rawKind ∧ kind.rawKind.protocol = kind.protocol := by
  induction links generalizing candidate final overlayKinds with
  | nil =>
    obtain ⟨rfl, rfl⟩ := Prod.mk.inj (Except.ok.inj h)
    exact ⟨rfl, rfl, fun _ hkind ↦ absurd hkind List.not_mem_nil⟩
  | cons entry rest ih =>
    obtain ⟨rawKind, hfetch, h⟩ := bind_eq_ok h
    split_ifs at h with hprotocol
    obtain ⟨⟨last, kinds⟩, hrest, h⟩ := bind_eq_ok h
    obtain ⟨rfl, rfl⟩ := Prod.mk.inj (Except.ok.inj h)
    obtain ⟨rfl, rfl, hkinds⟩ := ih hrest
    refine ⟨rfl, rfl, fun kind hkind ↦ ?_⟩
    rcases List.mem_cons.mp hkind with rfl | hkind
    · exact ⟨withContext_eq_ok.mp hfetch, hprotocol⟩
    · exact hkinds kind hkind

theorem checkOverlay_eq_ok {candidate : RuntimeManifest Cid} {overlayKinds : List (OverlayKind Cid)}
    (h : checkOverlay fetch candidate overlayKinds = .ok ()) :
    ∀ kind ∈ overlayKinds, ∃ resolved,
      resolveKindExtends fetch candidate.kinds kind.rawKind = .ok resolved := by
  induction overlayKinds with
  | nil => exact fun _ hkind ↦ absurd hkind List.not_mem_nil
  | cons first rest ih =>
    obtain ⟨resolved, hresolved, h⟩ := bind_eq_ok h
    intro kind hkind
    rcases List.mem_cons.mp hkind with rfl | hrest
    · exact ⟨resolved, resolveKind_eq.symm.trans hresolved⟩
    · exact ih h kind hrest

variable [DecidableEq Cid]

theorem linkOverlay_fst (manifest : RuntimeManifest Cid) (overlayKinds : List (OverlayKind Cid)) :
    (linkOverlay manifest overlayKinds).1 =
      insertKinds manifest (overlayKinds.map fun kind ↦ (kind.protocol, kind.link)) := by
  induction overlayKinds generalizing manifest with
  | nil => rfl
  | cons kind rest ih =>
    unfold linkOverlay
    split_ifs
    · exact ih _
    · exact ih _

theorem applyKindsTreeOverlay_eq_ok {kinds : KindTree Cid} {changed : List String}
    (h : applyKindsTreeOverlay fetch manifest kinds = .ok (after, changed)) :
    after = insertKinds manifest kinds.iterProtocols ∧
      ∀ entry ∈ kinds.iterProtocols, ∃ rawKind resolved, fetch entry.2.cid = .ok rawKind ∧
        rawKind.protocol = entry.1 ∧
        resolveKindExtends fetch after.kinds rawKind = .ok resolved := by
  obtain ⟨⟨candidate, overlayKinds⟩, hgather, h⟩ := bind_eq_ok h
  obtain ⟨⟨⟩, hcheck, h⟩ := bind_eq_ok h
  obtain ⟨hcandidate, hlinks, hkinds⟩ := gatherOverlay_eq_ok hgather
  have hafter : after = insertKinds manifest kinds.iterProtocols := by
    rw [← hlinks, ← linkOverlay_fst]
    exact (congrArg Prod.fst (Except.ok.inj h)).symm
  refine ⟨hafter, fun entry hentry ↦ ?_⟩
  rw [← hlinks] at hentry
  obtain ⟨kind, hkind, rfl⟩ := List.mem_map.mp hentry
  obtain ⟨hfetch, hprotocol⟩ := hkinds kind hkind
  obtain ⟨resolved, hresolved⟩ := checkOverlay_eq_ok hcheck kind hkind
  rw [hafter, ← hcandidate]
  exact ⟨kind.rawKind, resolved, hfetch, hprotocol, hresolved⟩

/-- The protocols that an accepted overlay has changed. -/
theorem changed_of_applyKindsTreeOverlay {kinds : KindTree Cid} {changed : List String}
    (h : applyKindsTreeOverlay fetch manifest kinds = .ok (after, changed)) :
    ∃ overlayKinds : List (OverlayKind Cid),
      overlayKinds.map (fun kind ↦ (kind.protocol, kind.link)) = kinds.iterProtocols ∧
        changed = (linkOverlay manifest overlayKinds).2 := by
  obtain ⟨⟨candidate, overlayKinds⟩, hgather, h⟩ := bind_eq_ok h
  obtain ⟨-, -, h⟩ := bind_eq_ok h
  exact ⟨overlayKinds, (gatherOverlay_eq_ok hgather).2.1,
    (congrArg Prod.snd (Except.ok.inj h)).symm⟩

/-- A protocol whose link has the same CID is not changed. -/
theorem eq_some_of_not_changed {old : Option (IpldLink Cid)} {link : IpldLink Cid}
    (h : ¬(old.all fun old ↦ old.cid ≠ link.cid) = true) : old = some link := by
  cases old with
  | none => exact absurd rfl h
  | some old =>
    have hcid : old.cid = link.cid := by simpa using h
    obtain ⟨cid⟩ := old
    obtain rfl : cid = link.cid := hcid
    rfl

/-- A kind of an overlay whose protocol was not changed was linked before. -/
theorem mem_changed_or {overlayKinds : List (OverlayKind Cid)} {kind : OverlayKind Cid}
    (hbeside : KindTree.Beside (overlayKinds.map fun kind ↦ (kind.protocol, kind.link)))
    (hids : ∀ kind ∈ overlayKinds, IsId kind.protocol) (hkind : kind ∈ overlayKinds) :
    kind.protocol ∈ (linkOverlay manifest overlayKinds).2 ∨
      manifest.kinds.getProtocol kind.protocol = some kind.link := by
  induction overlayKinds generalizing manifest with
  | nil => cases hkind
  | cons first rest ih =>
    have hfirstMem := List.mem_cons_self (a := (first.protocol, first.link))
      (l := rest.map fun kind ↦ (kind.protocol, kind.link))
    have hkindMem : (kind.protocol, kind.link) ∈
        (first :: rest).map fun kind ↦ (kind.protocol, kind.link) :=
      List.mem_map.mpr ⟨kind, hkind, rfl⟩
    by_cases hsegments : segments first.protocol = segments kind.protocol
    · have hprotocol := (hids first List.mem_cons_self).eq (hids kind hkind) hsegments
      have hlink : first.link = kind.link :=
        (hbeside _ hfirstMem _ hkindMem (hsegments ▸ List.prefix_refl _)).2
      unfold linkOverlay
      split_ifs with hchanged
      · exact .inl (hprotocol ▸ List.mem_cons_self)
      · rw [hprotocol, hlink] at hchanged
        exact .inr (eq_some_of_not_changed hchanged)
    · have hrestKind : kind ∈ rest := by
        refine (List.mem_cons.mp hkind).resolve_left fun heq ↦ hsegments ?_
        rw [heq]
      have hrest : kind.protocol ∈
            (linkOverlay (insertKind manifest first.protocol first.link) rest).2 ∨
          (insertKind manifest first.protocol first.link).kinds.getProtocol kind.protocol =
            some kind.link :=
        ih hbeside.tail (fun kind hkind ↦ hids kind (List.mem_cons_of_mem _ hkind)) hrestKind
      have hnot : ∀ entry ∈ [(first.protocol, first.link)],
          ¬segments entry.1 <+: segments kind.protocol := by
        intro entry hentry hunder
        obtain rfl := List.mem_singleton.mp hentry
        exact hsegments (hbeside _ hfirstMem _ hkindMem hunder).1
      have hsame : (insertKind manifest first.protocol first.link).kinds.getProtocol kind.protocol =
          manifest.kinds.getProtocol kind.protocol :=
        KindTree.getProtocol_insertAll_of_not_under hnot
      rw [hsame] at hrest
      refine hrest.imp_left fun hmem ↦ ?_
      unfold linkOverlay
      split_ifs
      · exact List.mem_cons_of_mem _ hmem
      · exact hmem

/-- A protocol that is changed is one of the overlay's, and was not linked as there. -/
theorem of_mem_changed {overlayKinds : List (OverlayKind Cid)} {protocol : String}
    (hbeside : KindTree.Beside (overlayKinds.map fun kind ↦ (kind.protocol, kind.link)))
    (hmem : protocol ∈ (linkOverlay manifest overlayKinds).2) :
    ∃ kind ∈ overlayKinds, kind.protocol = protocol ∧
      manifest.kinds.getProtocol protocol ≠ some kind.link := by
  induction overlayKinds generalizing manifest with
  | nil => cases hmem
  | cons first rest ih =>
    have hfirstMem := List.mem_cons_self (a := (first.protocol, first.link))
      (l := rest.map fun kind ↦ (kind.protocol, kind.link))
    have hrest (hmem : protocol ∈
        (linkOverlay (insertKind manifest first.protocol first.link) rest).2) :
        ∃ kind ∈ first :: rest, kind.protocol = protocol ∧
          manifest.kinds.getProtocol protocol ≠ some kind.link := by
      obtain ⟨kind, hkind, rfl, hlink⟩ := ih hbeside.tail hmem
      refine ⟨kind, List.mem_cons_of_mem _ hkind, rfl, fun hold ↦ hlink ?_⟩
      have hkindMem : (kind.protocol, kind.link) ∈
          (first :: rest).map fun kind ↦ (kind.protocol, kind.link) :=
        List.mem_map.mpr ⟨kind, List.mem_cons_of_mem _ hkind, rfl⟩
      by_cases hunder : segments first.protocol <+: segments kind.protocol
      · obtain ⟨hsegments, hfirst⟩ := hbeside _ hfirstMem _ hkindMem hunder
        have hopen : manifest.kinds.IsOpenFor first.protocol := by
          unfold KindTree.IsOpenFor
          rw [hsegments]
          exact isOpen_of_get hold
        have hself : (insertKind manifest first.protocol first.link).kinds.getProtocol
            kind.protocol = some first.link :=
          KindTree.getProtocol_insertAll_self
            (KindTree.beside_singleton (first.protocol, first.link)) (List.mem_singleton_self _)
            hopen hsegments.symm
        exact hself.trans (congrArg some hfirst)
      · have hnot : ∀ entry ∈ [(first.protocol, first.link)],
            ¬segments entry.1 <+: segments kind.protocol := by
          intro entry hentry
          rwa [List.mem_singleton.mp hentry]
        have hsame : (insertKind manifest first.protocol first.link).kinds.getProtocol
            kind.protocol = manifest.kinds.getProtocol kind.protocol :=
          KindTree.getProtocol_insertAll_of_not_under hnot
        exact hsame.trans hold
    unfold linkOverlay at hmem
    split_ifs at hmem with hchanged
    · obtain rfl | hmem := List.mem_cons.mp hmem
      · refine ⟨first, List.mem_cons_self, rfl, fun hold ↦ ?_⟩
        rw [hold] at hchanged
        simp at hchanged
      · exact hrest hmem
    · exact hrest hmem

end Accepted

end MaRuntime.Kinds
