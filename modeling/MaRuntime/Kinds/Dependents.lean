import MaRuntime.Kinds.Fold
import MaRuntime.Kinds.Registry

/-!
# The kinds that depend on an updated one

When a kind is updated, the kinds and the entities that use it are reloaded. Which kinds these are
is read from the bases that they name (`kindDependsOn`), where the names are compared as texts. A
resolution reads the same names by their segments, with any number of leading slashes. The two agree
exactly where every base on the way to the updated kind is named by the identifier it is listed
under (`NamesExactly`); an entity is reloaded exactly where it names its kind so
(`dependsAgrees_iff`). In `derived_not_reloaded` a kind names its base without a slash.

Main definitions: `BaseNames`, `IsBase`, `CanChange`, `reloadedEntities`, `DependsAgrees`,
`NamesExactly`.
Main results: `canChange_iff`, `kindDependsOn_iff`, `dependsAgrees_iff`.

Scope. What `dag_get` answers for a kind and for the node of an entity are the parameters `fetch`
and `fetchNode`. A reload is the call of `spawn_entity_reload`.
-/

set_option autoImplicit false
set_option relaxedAutoImplicit false

namespace MaRuntime.Kinds

open Manifest Chains

variable {Cid : Type}

section Definitions

variable (fetch : Cid → Except String (KindNode Cid))
  (fetchNode : Cid → Except String (EntityNode Cid)) (manifest : RuntimeManifest Cid)

/-- The loop of `spawn_kind_dependency_reloads_for`: the entities that are reloaded. -/
def reloadedEntities (affected : List String) : List (String × EntityNode Cid) :=
  manifest.entities.entries.filterMap fun entry ↦
    (fetchNode entry.2.cid).toOption.bind fun node ↦
      if node.kind ∈ affected then some (entry.1, node) else none

/-- The names under which a resolution of the kind at an identifier looks for its bases. -/
def BaseNames (protocol : String) (names : List String) : Prop :=
  ∃ link kind bases, manifest.kinds.getProtocol protocol = some link ∧ fetch link.cid = .ok kind ∧
    BasesOf fetch manifest.kinds kind.extendsProtocol bases ∧
    names = (kind :: bases).filterMap KindNode.extendsProtocol

/-- The kind at a second identifier is one of the bases that are merged into the kind at a first. -/
def IsBase (protocol updated : String) : Prop :=
  ∃ names, BaseNames fetch manifest protocol names ∧
    ∃ name ∈ names, segments name = segments updated

/-- What the kind at an identifier is resolved to is another one in a tree that differs at the
updated identifier only. -/
def CanChange (updated protocol : String) : Prop :=
  ∃ kinds : KindTree Cid, (∀ other, segments other ≠ segments updated →
    kinds.getProtocol other = manifest.kinds.getProtocol other) ∧
    resolvedAt fetch kinds protocol ≠ resolvedAt fetch manifest.kinds protocol

/-- The test for dependents agrees with the resolution of the listed kinds: it finds those that have
the updated kind for a base, all that can change are affected, and all their entities are
reloaded. -/
structure DependsAgrees (updated : String) : Prop where
  depends : ∀ protocol ∈ manifest.kinds.protocolIds, Resolves fetch manifest.kinds protocol →
    (kindDependsOn protocol updated (loadRawKindNodes fetch manifest) = true ↔
      protocol = updated ∨ IsBase fetch manifest protocol updated)
  affected : ∀ updatedProtocols : List String, updated ∈ updatedProtocols →
    ∀ protocol ∈ manifest.kinds.protocolIds, Resolves fetch manifest.kinds protocol →
    CanChange fetch manifest updated protocol →
    protocol ∈ affectedKindProtocolsFor updatedProtocols (loadRawKindNodes fetch manifest)
  reloads : ∀ updatedProtocols : List String, updated ∈ updatedProtocols →
    ∀ protocol ∈ manifest.kinds.protocolIds, Resolves fetch manifest.kinds protocol →
    CanChange fetch manifest updated protocol →
    ∀ name link node, manifest.entities.get name = some link → fetchNode link.cid = .ok node →
    segments node.kind = segments protocol →
    (name, node) ∈ reloadedEntities fetchNode manifest
      (affectedKindProtocolsFor updatedProtocols (loadRawKindNodes fetch manifest))

/-- The updated kind is listed under the identifier of the update only; the bases of a kind up to
the updated one, and that one itself, are named as they are listed; and so are the kinds of the
entities that use it. -/
structure NamesExactly (updated : String) : Prop where
  self : ∀ protocol ∈ manifest.kinds.protocolIds, Resolves fetch manifest.kinds protocol →
    segments protocol = segments updated → protocol = updated
  bases : ∀ protocol ∈ manifest.kinds.protocolIds, Resolves fetch manifest.kinds protocol →
    ∀ before name after, BaseNames fetch manifest protocol (before ++ name :: after) →
    segments name = segments updated →
    name = updated ∧ ∀ earlier ∈ before, earlier ∈ manifest.kinds.protocolIds
  entities : ∀ protocol ∈ manifest.kinds.protocolIds, Resolves fetch manifest.kinds protocol →
    segments protocol = segments updated ∨ IsBase fetch manifest protocol updated →
    ∀ name link node, manifest.entities.get name = some link → fetchNode link.cid = .ok node →
    segments node.kind = segments protocol →
    node.kind = updated ∨ node.kind ∈ manifest.kinds.protocolIds

end Definitions

/-! ### The names of the bases -/

section Names

variable {fetch : Cid → Except String (KindNode Cid)} {manifest : RuntimeManifest Cid}
  {kinds : KindTree Cid} {protocol updated : String} {names : List String}

theorem nodesFrom_of_basesOf {base : Option String} {bases : List (KindNode Cid)}
    (h : BasesOf fetch kinds base bases) :
    NodesFrom (next fetch kinds) base
      (base.toList ++ bases.filterMap KindNode.extendsProtocol) := by
  induction h with
  | root => exact .root
  | @base name link base rest hlink hfetch _ ih =>
    refine .refer (next_of_fetch hlink hfetch) ?_
    cases hbase : base.extendsProtocol with
    | none => simpa [hbase] using ih
    | some further => simpa [hbase] using ih

/-- The chain of a kind has the names of its bases. -/
theorem BaseNames.nodesFrom (h : BaseNames fetch manifest protocol names) :
    NodesFrom (next fetch manifest.kinds) (some protocol) (protocol :: names) := by
  obtain ⟨link, kind, bases, hlink, hfetch, hbases, rfl⟩ := h
  refine .refer (next_of_fetch hlink hfetch) ?_
  have hnodes := nodesFrom_of_basesOf hbases
  cases hbase : kind.extendsProtocol with
  | none => simpa [hbase] using hnodes
  | some base => simpa [hbase] using hnodes

theorem BaseNames.unique {others : List String} (h : BaseNames fetch manifest protocol names)
    (hothers : BaseNames fetch manifest protocol others) : names = others :=
  (List.cons.inj (h.nodesFrom.unique hothers.nodesFrom)).2

/-- There is one name for each base. -/
theorem length_names {base : Option String} {bases : List (KindNode Cid)}
    (h : BasesOf fetch kinds base bases) :
    (base.toList ++ bases.filterMap KindNode.extendsProtocol).length = bases.length := by
  induction h with
  | root => rfl
  | @base name link base rest _ _ _ ih =>
    rw [List.filterMap_cons]
    cases hbase : base.extendsProtocol with
    | none => simpa [hbase] using ih
    | some further => simpa [hbase] using ih

theorem exists_baseNames (h : Resolves fetch manifest.kinds protocol) :
    ∃ names, BaseNames fetch manifest protocol names ∧ names.length ≤ maxDepth := by
  obtain ⟨link, kind, resolved, hlink, hfetch, hresolved⟩ := h
  obtain ⟨bases, hbases, hlength⟩ := exists_resolveKindExtends_iff.mp ⟨resolved, hresolved⟩
  refine ⟨_, ⟨link, kind, bases, hlink, hfetch, hbases, rfl⟩, ?_⟩
  have hnames := length_names hbases
  rw [List.filterMap_cons]
  cases hbase : kind.extendsProtocol with
  | none =>
    rw [hbase] at hnames
    exact hnames.trans_le hlength
  | some base =>
    rw [hbase] at hnames
    exact hnames.trans_le hlength

/-- No base of a kind is read as the kind itself. -/
theorem BaseNames.segments_ne (h : BaseNames fetch manifest protocol names) {name : String}
    (hmem : name ∈ names) : segments name ≠ segments protocol := by
  intro heq
  obtain ⟨before, after, rfl⟩ := List.append_of_mem hmem
  exact h.nodesFrom.next_ne_head (next_congr heq).symm

/-- Two bases of a kind are not read as the same. -/
theorem BaseNames.eq_of_segments {before after before' after' : List String} {name other : String}
    (h : BaseNames fetch manifest protocol names) (hname : names = before ++ name :: after)
    (hother : names = before' ++ other :: after') (heq : segments name = segments other) :
    before = before' ∧ name = other := by
  have hnodes := h.nodesFrom
  rcases List.append_eq_append_iff.mp (hname.symm.trans hother) with
    ⟨between, hbefore, hafter⟩ | ⟨between, hbefore, hafter⟩
  · cases between with
    | nil =>
      rw [List.append_nil] at hbefore
      exact ⟨hbefore.symm, (List.cons.inj hafter).1⟩
    | cons first between =>
      obtain ⟨rfl, -⟩ := List.cons.inj hafter
      rw [hother, hbefore, List.append_assoc, ← List.cons_append] at hnodes
      exact absurd (next_congr heq) hnodes.next_ne
  · cases between with
    | nil =>
      rw [List.append_nil] at hbefore
      exact ⟨hbefore, (List.cons.inj hafter).1.symm⟩
    | cons first between =>
      obtain ⟨rfl, -⟩ := List.cons.inj hafter
      rw [hname, hbefore, List.append_assoc, ← List.cons_append] at hnodes
      exact absurd (next_congr heq).symm hnodes.next_ne

end Names

/-! ### The test -/

section Test

variable {fetch : Cid → Except String (KindNode Cid)} {manifest : RuntimeManifest Cid}
  {protocol updated : String} {names : List String}

/-- The walk along the bases finds the updated identifier when the names before it are listed. -/
theorem dependsLoop_iff {hops : Nat} {seen : List String} {base : Option String}
    (h : NodesFrom (next fetch manifest.kinds) base names) (hlength : names.length ≤ hops)
    (hseen : ∀ name ∈ names, name ∉ seen) :
    dependsLoop (loadRawKindNodes fetch manifest) updated hops seen base = true ↔
      ∃ before after, names = before ++ updated :: after ∧
        ∀ name ∈ before, name ∈ manifest.kinds.protocolIds := by
  induction h generalizing hops seen with
  | root =>
    refine iff_of_false ?_ ?_
    · cases hops with
      | zero => simp [dependsLoop]
      | succ hops => simp [dependsLoop]
    · rintro ⟨before, after, hnil, -⟩
      exact List.append_ne_nil_of_right_ne_nil before (List.cons_ne_nil _ _) hnil.symm
  | @refer name further rest hnext hrest ih =>
    obtain ⟨more, rfl⟩ := Nat.exists_eq_add_of_le' (Nat.zero_lt_of_lt hlength)
    unfold dependsLoop
    by_cases hname : name = updated
    · subst hname
      rw [if_pos rfl]
      exact iff_of_true rfl ⟨[], rest, rfl, fun _ hmem ↦ absurd hmem List.not_mem_nil⟩
    · rw [if_neg hname, if_neg (hseen name List.mem_cons_self)]
      have hcons : (∃ before after, name :: rest = before ++ updated :: after ∧
          ∀ earlier ∈ before, earlier ∈ manifest.kinds.protocolIds) ↔
          name ∈ manifest.kinds.protocolIds ∧ ∃ before after, rest = before ++ updated :: after ∧
            ∀ earlier ∈ before, earlier ∈ manifest.kinds.protocolIds := by
        constructor
        · rintro ⟨before, after, hsplit, hlisted⟩
          cases before with
          | nil => exact absurd (List.cons.inj hsplit).1 hname
          | cons first before =>
            obtain ⟨rfl, hrest⟩ := List.cons.inj hsplit
            exact ⟨hlisted _ List.mem_cons_self, before, after, hrest, fun earlier hmem ↦
              hlisted earlier (List.mem_cons_of_mem _ hmem)⟩
        · rintro ⟨hfirst, before, after, hsplit, hlisted⟩
          refine ⟨name :: before, after, congrArg (name :: ·) hsplit, ?_⟩
          exact List.forall_mem_cons.mpr ⟨hfirst, hlisted⟩
      rw [hcons]
      obtain ⟨link, kind, hlink, hfetch, hkind⟩ := exists_of_next hnext
      by_cases hlisted : name ∈ manifest.kinds.protocolIds
      · rw [get_loadRawKindNodes_of_fetch hlisted hlink hfetch, Option.bind_some, hkind,
          ih (Nat.le_of_succ_le_succ hlength) ?_]
        · exact (and_iff_right hlisted).symm
        · intro other hother hmem
          rcases List.mem_cons.mp hmem with rfl | hmem
          · obtain ⟨before, after, rfl⟩ := List.append_of_mem hother
            exact (NodesFrom.refer hnext hrest).next_ne_head rfl
          · exact hseen other (List.mem_cons_of_mem name hother) hmem
      · rw [get_loadRawKindNodes_of_not_listed hlisted, Option.bind_none]
        refine iff_of_false ?_ fun h ↦ hlisted h.1
        cases more with
        | zero => simp [dependsLoop]
        | succ more => simp [dependsLoop]

/-- A kind that can be resolved is found to depend on the updated one when it is that one, or names
it for a base behind bases that are listed under their names. -/
theorem kindDependsOn_iff (hlisted : protocol ∈ manifest.kinds.protocolIds)
    (h : BaseNames fetch manifest protocol names) (hlength : names.length ≤ maxDepth) :
    kindDependsOn protocol updated (loadRawKindNodes fetch manifest) = true ↔
      protocol = updated ∨ ∃ before after, names = before ++ updated :: after ∧
        ∀ name ∈ before, name ∈ manifest.kinds.protocolIds := by
  unfold kindDependsOn
  by_cases hself : protocol = updated
  · rw [if_pos hself]
    exact iff_of_true rfl (.inl hself)
  · rw [if_neg hself, or_iff_right hself]
    have hnodes := h.nodesFrom
    cases hnodes with
    | refer hnext hrest =>
      obtain ⟨link, kind, hlink, hfetch, hkind⟩ := exists_of_next hnext
      rw [get_loadRawKindNodes_of_fetch hlisted hlink hfetch, Option.bind_some, hkind]
      exact dependsLoop_iff hrest hlength fun _ _ ↦ List.not_mem_nil

end Test

/-! ### The kinds that can change -/

section Changes

variable {fetch : Cid → Except String (KindNode Cid)}
  {fetchNode : Cid → Except String (EntityNode Cid)} {manifest : RuntimeManifest Cid}
  {protocol updated : String} {names updatedProtocols : List String}

/-- What a kind is resolved to depends on the kinds that are found for it and for its bases. -/
theorem canChange_iff (hresolves : Resolves fetch manifest.kinds protocol) :
    CanChange fetch manifest updated protocol ↔
      segments protocol = segments updated ∨ IsBase fetch manifest protocol updated := by
  obtain ⟨names, hnames, -⟩ := exists_baseNames hresolves
  have hleads : (∃ i c, Leads (next fetch manifest.kinds) (segments · = segments updated)
      protocol i c) ↔ _ := hnames.nodesFrom.exists_leads_iff
  have hread : (∃ name ∈ protocol :: names, segments name = segments updated) ↔
      segments protocol = segments updated ∨ IsBase fetch manifest protocol updated := by
    rw [List.exists_mem_cons_iff]
    refine or_congr_right ?_
    constructor
    · intro h
      exact ⟨names, hnames, h⟩
    · rintro ⟨others, hothers, h⟩
      rwa [hnames.unique hothers]
  rw [← hread, ← hleads]
  constructor
  · rintro ⟨kinds, hsame, hchanged⟩
    by_contra hnot
    obtain ⟨resolved, hresolved⟩ := resolves_iff_resolvedAt.mp hresolves
    refine hchanged (Eq.trans ?_ hresolved.symm)
    exact resolvedAt_congr (segments · = segments updated)
      (fun node link hnode hlink ↦ (hsame node hnode).trans hlink)
      (fun i c h ↦ hnot ⟨i, c, h⟩) hresolved
  · rintro ⟨i, c, h⟩
    -- the kind cannot be resolved when the updated one is removed
    obtain ⟨n, -, hends⟩ := resolves_iff.mp hresolves
    obtain ⟨rest, hrest, -⟩ := h.rest hends
    obtain ⟨further, hfurther, -⟩ := endsIn_iff.mp hrest
    obtain ⟨link, -, hlink, -, -⟩ := exists_of_next hfurther
    have hlinked : manifest.kinds.getProtocol updated = some link :=
      (KindTree.getProtocol_congr h.mem).symm.trans hlink
    refine ⟨manifest.kinds.removeProtocol updated, fun other hother ↦ ?_, fun heq ↦ ?_⟩
    · rw [KindTree.getProtocol_removeProtocol hlinked, if_neg hother]
    · refine not_resolves_of_leads_removed hlinked h (resolves_iff_resolvedAt.mpr ?_)
      rw [heq]
      exact resolves_iff_resolvedAt.mp hresolves

/-- An identifier that is affected is updated, or listed and found to depend on an updated one. -/
theorem mem_affected_iff (hlisted : protocol ∈ manifest.kinds.protocolIds)
    (hresolves : Resolves fetch manifest.kinds protocol) :
    protocol ∈ affectedKindProtocolsFor updatedProtocols (loadRawKindNodes fetch manifest) ↔
      ∃ updated ∈ updatedProtocols,
        kindDependsOn protocol updated (loadRawKindNodes fetch manifest) = true := by
  have hkey : protocol ∈ (loadRawKindNodes fetch manifest).entries.map Prod.fst := by
    obtain ⟨link, kind, -, hlink, hfetch, -⟩ := hresolves
    exact KeyedMap.mem_keys_iff.mpr ⟨kind, get_loadRawKindNodes_of_fetch hlisted hlink hfetch⟩
  unfold affectedKindProtocolsFor
  rw [List.mem_flatMap]
  refine exists_congr fun updated ↦ and_congr_right fun _ ↦ ?_
  rw [List.mem_cons, List.mem_filter, and_iff_right hkey]
  refine or_iff_right_of_imp ?_
  rintro rfl
  exact if_pos rfl

/-- An identifier that is affected by the update of one kind is that one, or listed. -/
theorem mem_ids_of_mem_affected
    (h : protocol ∈ affectedKindProtocolsFor [updated] (loadRawKindNodes fetch manifest)) :
    protocol = updated ∨ protocol ∈ manifest.kinds.protocolIds := by
  unfold affectedKindProtocolsFor at h
  rw [List.flatMap_singleton, List.mem_cons] at h
  refine h.imp_right fun hdepends ↦ ?_
  by_contra hlisted
  obtain ⟨kind, hkind⟩ := KeyedMap.exists_get_of_mem_keys (List.mem_filter.mp hdepends).1
  cases (get_loadRawKindNodes_of_not_listed hlisted).symm.trans hkind

theorem mem_reloadedEntities {affected : List String} {name : String} {node : EntityNode Cid} :
    (name, node) ∈ reloadedEntities fetchNode manifest affected ↔
      ∃ link, (name, link) ∈ manifest.entities.entries ∧ fetchNode link.cid = .ok node ∧
        node.kind ∈ affected := by
  unfold reloadedEntities
  rw [List.mem_filterMap]
  constructor
  · rintro ⟨⟨other, link⟩, hentry, hmade⟩
    obtain ⟨found, hfound, hif⟩ := Option.bind_eq_some_iff.mp hmade
    split_ifs at hif with haffected
    obtain ⟨rfl, rfl⟩ := Prod.mk.inj (Option.some.inj hif)
    exact ⟨link, hentry, toOption_eq_some.mp hfound, haffected⟩
  · rintro ⟨link, hentry, hfetch, haffected⟩
    refine ⟨(name, link), hentry, Option.bind_eq_some_iff.mpr ⟨node, ?_, if_pos haffected⟩⟩
    exact toOption_eq_some.mpr hfetch

/-- What is read as the same is resolved in the same way. -/
theorem canChange_congr {other : String} (h : segments other = segments protocol) :
    CanChange fetch manifest updated other ↔ CanChange fetch manifest updated protocol := by
  unfold CanChange resolvedAt KindTree.getProtocol
  rw [h]

/-- The part of the agreement that is about the test. -/
theorem DependsAgrees.bases (h : DependsAgrees fetch fetchNode manifest updated)
    (hlisted : protocol ∈ manifest.kinds.protocolIds)
    (hresolves : Resolves fetch manifest.kinds protocol) {before after : List String}
    {name : String} (hnames : BaseNames fetch manifest protocol (before ++ name :: after))
    (hname : segments name = segments updated) :
    name = updated ∧ ∀ earlier ∈ before, earlier ∈ manifest.kinds.protocolIds := by
  obtain ⟨names, hshort, hlength⟩ := exists_baseNames hresolves
  obtain rfl := hnames.unique hshort
  have hmem : name ∈ before ++ name :: after := by simp
  have hdepends := (h.depends protocol hlisted hresolves).mpr
    (.inr ⟨_, hnames, name, hmem, hname⟩)
  rcases (kindDependsOn_iff hlisted hnames hlength).mp hdepends with
    rfl | ⟨before', after', hsplit, hbefore⟩
  · exact absurd hname (hnames.segments_ne hmem)
  · obtain ⟨rfl, rfl⟩ := hnames.eq_of_segments rfl hsplit hname
    exact ⟨rfl, hbefore⟩

/-- The test finds a listed kind whose bases are named as they are listed. -/
theorem NamesExactly.depends (h : NamesExactly fetch fetchNode manifest updated)
    (hlisted : protocol ∈ manifest.kinds.protocolIds)
    (hresolves : Resolves fetch manifest.kinds protocol) :
    kindDependsOn protocol updated (loadRawKindNodes fetch manifest) = true ↔
      protocol = updated ∨ IsBase fetch manifest protocol updated := by
  obtain ⟨names, hnames, hlength⟩ := exists_baseNames hresolves
  rw [kindDependsOn_iff hlisted hnames hlength]
  refine or_congr_right ?_
  constructor
  · rintro ⟨before, after, rfl, -⟩
    exact ⟨_, hnames, updated, by simp, rfl⟩
  · rintro ⟨others, hothers, name, hmem, hname⟩
    obtain rfl := hnames.unique hothers
    obtain ⟨before, after, rfl⟩ := List.append_of_mem hmem
    obtain ⟨rfl, hbefore⟩ := h.bases protocol hlisted hresolves before name after hnames hname
    exact ⟨before, after, rfl, hbefore⟩

/-- Every listed kind that can change is affected, when the bases are named as they are listed. -/
theorem NamesExactly.mem_affected (h : NamesExactly fetch fetchNode manifest updated)
    (hupdated : updated ∈ updatedProtocols) (hlisted : protocol ∈ manifest.kinds.protocolIds)
    (hresolves : Resolves fetch manifest.kinds protocol)
    (hchange : CanChange fetch manifest updated protocol) :
    protocol ∈ affectedKindProtocolsFor updatedProtocols (loadRawKindNodes fetch manifest) := by
  refine (mem_affected_iff hlisted hresolves).mpr ⟨updated, hupdated, ?_⟩
  refine (h.depends hlisted hresolves).mpr ?_
  exact ((canChange_iff hresolves).mp hchange).imp_left (h.self protocol hlisted hresolves)

/-- The test for dependents agrees with the resolution exactly where the kinds and the entities name
the kinds they use as these are listed. -/
theorem dependsAgrees_iff :
    DependsAgrees fetch fetchNode manifest updated ↔
      NamesExactly fetch fetchNode manifest updated := by
  constructor
  · intro h
    refine ⟨?_, ?_, ?_⟩
    · intro protocol hlisted hresolves hself
      have haffected := h.affected [updated] (List.mem_singleton_self _) protocol hlisted hresolves
        ((canChange_iff hresolves).mpr (.inl hself))
      obtain ⟨_, hmem, hdepends⟩ := (mem_affected_iff hlisted hresolves).mp haffected
      obtain rfl := List.mem_singleton.mp hmem
      rcases (h.depends protocol hlisted hresolves).mp hdepends with heq | ⟨names, hnames, hbase⟩
      · exact heq
      · obtain ⟨name, hname, hread⟩ := hbase
        exact absurd (hread.trans hself.symm) (hnames.segments_ne hname)
    · intro protocol hlisted hresolves before name after hnames hname
      exact h.bases hlisted hresolves hnames hname
    · intro protocol hlisted hresolves huses name link node hentity hfetch hkind
      have hreload := h.reloads [updated] (List.mem_singleton_self _) protocol hlisted hresolves
        ((canChange_iff hresolves).mpr huses) name link node hentity hfetch hkind
      obtain ⟨-, -, -, haffected⟩ := mem_reloadedEntities.mp hreload
      exact mem_ids_of_mem_affected haffected
  · intro h
    refine ⟨?_, ?_, ?_⟩
    · intro protocol hlisted hresolves
      exact h.depends hlisted hresolves
    · intro updatedProtocols hupdated protocol hlisted hresolves hchange
      exact h.mem_affected hupdated hlisted hresolves hchange
    · intro updatedProtocols hupdated protocol hlisted hresolves hchange name link node hentity
        hfetch hkind
      refine mem_reloadedEntities.mpr ⟨link, KeyedMap.mem_of_get hentity, hfetch, ?_⟩
      have huses := (canChange_iff hresolves).mp hchange
      rcases h.entities protocol hlisted hresolves huses name link node hentity hfetch hkind with
        heq | hnode
      · rw [heq]
        exact mem_affected_self hupdated
      · have hresolvesNode := (resolves_congr hkind).mpr hresolves
        exact h.mem_affected hupdated hnode hresolvesNode ((canChange_congr hkind).mpr hchange)

end Changes

/-! ### A base that is named without a slash -/

/-- A kind that names its base without the leading slash. -/
def slashless : KindNode ℕ := { kindOf derivedPath none with extendsProtocol := some "base" }

/-- A base, and a kind that names it so. -/
def fetchSlashless : ℕ → Except String (KindNode ℕ)
  | 0 => .ok (kindOf basePath none)
  | 1 => .ok slashless
  | _ => .error "not found"

/-- The kind is merged with its base and is not found to depend on it. -/
theorem derived_not_reloaded :
    Resolves fetchSlashless twoKinds.kinds derivedPath.protocolId ∧
      IsBase fetchSlashless twoKinds derivedPath.protocolId basePath.protocolId ∧
      kindDependsOn derivedPath.protocolId basePath.protocolId
        (loadRawKindNodes fetchSlashless twoKinds) = false ∧
      ¬DependsAgrees fetchSlashless (fun _ ↦ .error "not found") twoKinds basePath.protocolId := by
  have hsegments : segments "base" = segments basePath.protocolId := by decide
  have hbase : twoKinds.kinds.getProtocol "base" = some ⟨0⟩ :=
    (KindTree.getProtocol_congr hsegments).trans getProtocol_base
  have hlisted : derivedPath.protocolId ∈ twoKinds.kinds.protocolIds :=
    KindTree.mem_protocolIds derivedPath.isId getProtocol_derived
  have hnames : BaseNames fetchSlashless twoKinds derivedPath.protocolId ["base"] :=
    ⟨⟨1⟩, _, _, getProtocol_derived, rfl, .base hbase rfl .root, rfl⟩
  have hresolves : Resolves fetchSlashless twoKinds.kinds derivedPath.protocolId := by
    have hbases : BasesOf fetchSlashless twoKinds.kinds slashless.extendsProtocol
        [kindOf basePath none] := .base hbase rfl .root
    obtain ⟨resolved, hresolved⟩ := exists_resolveKindExtends_iff.mpr
      ⟨_, hbases, show [kindOf basePath none].length ≤ maxDepth by decide⟩
    exact ⟨⟨1⟩, slashless, resolved, getProtocol_derived, rfl, hresolved⟩
  have hisBase : IsBase fetchSlashless twoKinds derivedPath.protocolId basePath.protocolId :=
    ⟨_, hnames, "base", List.mem_singleton_self _, hsegments⟩
  have hdepends : kindDependsOn derivedPath.protocolId basePath.protocolId
      (loadRawKindNodes fetchSlashless twoKinds) = false := by
    rw [Bool.eq_false_iff, ne_eq, kindDependsOn_iff hlisted hnames (by decide)]
    rintro (heq | ⟨before, after, hsplit, -⟩)
    · exact absurd heq (by decide)
    · have hmem : basePath.protocolId ∈ ["base"] := by simp [hsplit]
      exact absurd hmem (by decide)
  refine ⟨hresolves, hisBase, hdepends, fun h ↦ ?_⟩
  have hfound := (h.depends _ hlisted hresolves).mpr (.inr hisBase)
  exact Bool.false_ne_true (hdepends.symm.trans hfound)

end MaRuntime.Kinds
