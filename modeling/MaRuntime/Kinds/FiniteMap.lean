import MaRuntime.Library.Runs
import MaRuntime.Kinds.Tree

/-!
# The tree of kinds as a finite map

A tree that grows from the empty one by `insert_protocol` and `remove_protocol` is meant to be a map
from protocol identifiers to links. It is one as long as no identifier is used together with one
that its segments begin with: the two compete for a node of the tree, since a node is either a link
or a branch. An insertion below a link is dropped without an answer, an insertion above links takes
them away, and so does a removal above links, which also answers that it removed something where no
link was found.

Main definitions: `KindTreeOp`, `Lawful`, `Unnested`.
Main results: `kindTreeRemoves_iff`, `lawful_iff_unnested`.
-/

set_option autoImplicit false
set_option relaxedAutoImplicit false

namespace MaRuntime.Kinds

open Manifest Runs

variable {Cid : Type}

/-! ### What a removal answers -/

/-- What `kind_tree_remove` answers: whether something was removed. -/
def kindTreeRemoves : List String → KeyedMap String (KindTreeNode Cid) → Bool
  | [], _ => false
  | [key], map => (map.get key).isSome
  | key :: rest, map =>
    match map.get key with
    | some (.branch inner) => kindTreeRemoves rest inner
    | _ => false

/-- A level of a tree without an empty branch on it or below it. -/
inductive Stocked : KeyedMap String (KindTreeNode Cid) → Prop
  | intro (map : KeyedMap String (KindTreeNode Cid))
      (hentries : ∀ key inner, map.get key = some (.branch inner) → inner.entries ≠ [])
      (hinner : ∀ key inner, map.get key = some (.branch inner) → Stocked inner) : Stocked map

section Levels

variable {map inner : KeyedMap String (KindTreeNode Cid)} {key : String} {path : List String}
  {link : IpldLink Cid}

theorem stocked_empty : Stocked (.empty : KeyedMap String (KindTreeNode Cid)) := by
  refine .intro _ ?_ ?_
  · intro key inner hkey
    cases hkey
  · intro key inner hkey
    cases hkey

theorem Stocked.entries_ne_nil (h : Stocked map) (hkey : map.get key = some (.branch inner)) :
    inner.entries ≠ [] := by
  cases h with
  | intro _ hentries _ => exact hentries key inner hkey

theorem Stocked.branch (h : Stocked map) (hkey : map.get key = some (.branch inner)) :
    Stocked inner := by
  cases h with
  | intro _ _ hinner => exact hinner key inner hkey

theorem Stocked.insert_leaf (h : Stocked map) : Stocked (map.insert key (.leaf link)) := by
  have hold {other : String} {inner : KeyedMap String (KindTreeNode Cid)}
      (hother : (map.insert key (.leaf link)).get other = some (.branch inner)) :
      map.get other = some (.branch inner) := by
    rcases KeyedMap.get_insert_eq_some_iff.mp hother with ⟨-, hleaf⟩ | ⟨-, hget⟩
    · cases hleaf
    · exact hget
  exact .intro _ (fun _ _ hother ↦ h.entries_ne_nil (hold hother)) fun _ _ hother ↦
    h.branch (hold hother)

theorem Stocked.insert_branch (h : Stocked map) (hentries : inner.entries ≠ [])
    (hinner : Stocked inner) : Stocked (map.insert key (.branch inner)) := by
  have hold {other : String} {below : KeyedMap String (KindTreeNode Cid)}
      (hother : (map.insert key (.branch inner)).get other = some (.branch below)) :
      below = inner ∨ map.get other = some (.branch below) := by
    rcases KeyedMap.get_insert_eq_some_iff.mp hother with ⟨-, hbranch⟩ | ⟨-, hget⟩
    · exact .inl (KindTreeNode.branch.inj hbranch)
    · exact .inr hget
  refine .intro _ ?_ ?_
  · intro other below hother
    rcases hold hother with rfl | hget
    · exact hentries
    · exact h.entries_ne_nil hget
  · intro other below hother
    rcases hold hother with rfl | hget
    · exact hinner
    · exact h.branch hget

theorem Stocked.remove (h : Stocked map) : Stocked (map.remove key) := by
  have hold {other : String} {inner : KeyedMap String (KindTreeNode Cid)}
      (hother : (map.remove key).get other = some (.branch inner)) :
      map.get other = some (.branch inner) :=
    (KeyedMap.get_remove_eq_some_iff.mp hother).2
  exact .intro _ (fun _ _ hother ↦ h.entries_ne_nil (hold hother)) fun _ _ hother ↦
    h.branch (hold hother)

theorem entries_kindTreeInsert_ne_nil (hpath : path ≠ []) :
    (kindTreeInsert path map link).entries ≠ [] := by
  fun_cases kindTreeInsert path map link with
  | case1 => exact absurd rfl hpath
  | case2 => exact List.cons_ne_nil _ _
  | case3 => exact List.cons_ne_nil _ _
  | case4 => exact List.cons_ne_nil _ _
  | case5 map _ key _ _ _ hkey => exact List.ne_nil_of_mem (KeyedMap.mem_of_get hkey)

/-- An insertion leaves no branch empty. -/
theorem Stocked.kindTreeInsert (h : Stocked map) (path : List String) (link : IpldLink Cid) :
    Stocked (kindTreeInsert path map link) := by
  induction path generalizing map with
  | nil => exact h
  | cons key rest ih =>
    cases rest with
    | nil => exact h.insert_leaf
    | cons second rest =>
      have hne := List.cons_ne_nil second rest
      unfold Kinds.kindTreeInsert
      cases hkey : map.get key with
      | none => exact h.insert_branch (entries_kindTreeInsert_ne_nil hne) (ih stocked_empty)
      | some node =>
        cases node with
        | leaf found => exact h
        | branch inner =>
          exact h.insert_branch (entries_kindTreeInsert_ne_nil hne) (ih (h.branch hkey))

/-- A removal leaves no branch empty: one that becomes empty is removed as well. -/
theorem Stocked.kindTreeRemove (h : Stocked map) (path : List String) :
    Stocked (kindTreeRemove path map) := by
  induction path generalizing map with
  | nil => exact h
  | cons key rest ih =>
    cases rest with
    | nil => exact h.remove
    | cons second rest =>
      unfold Kinds.kindTreeRemove
      cases hkey : map.get key with
      | none => exact h
      | some node =>
        cases node with
        | leaf found => exact h
        | branch inner =>
          show Stocked (if _ then _ else _)
          split_ifs with hempty
          · exact h.remove
          · exact h.insert_branch (fun hnil ↦ hempty (List.isEmpty_iff.mpr hnil))
              (ih (h.branch hkey))

/-- There is a link in a level that is not empty. -/
theorem Stocked.exists_get (h : Stocked map) (hentries : map.entries ≠ []) :
    ∃ path, (kindTreeGet path map).isSome := by
  induction h with
  | intro map hfull _ ih =>
    obtain ⟨entries⟩ := map
    obtain ⟨⟨key, node⟩, rest, rfl⟩ := List.exists_cons_of_ne_nil hentries
    have hkey : KeyedMap.get ⟨(key, node) :: rest⟩ key = some node := List.lookup_cons_self
    cases node with
    | leaf link => exact ⟨[key], Option.isSome_of_eq_some (kindTreeGet_singleton.mpr hkey)⟩
    | branch inner =>
      obtain ⟨path, hpath⟩ := ih key inner hkey (hfull key inner hkey)
      exact ⟨key :: path, (kindTreeGet_branch hkey path).symm ▸ hpath⟩

/-- A removal answers that it removed something where there is a link at the path or below it. -/
theorem kindTreeRemoves_iff (h : Stocked map) (hpath : path ≠ []) :
    kindTreeRemoves path map = true ↔
      ∃ below, path <+: below ∧ (kindTreeGet below map).isSome := by
  induction path generalizing map with
  | nil => exact absurd rfl hpath
  | cons key rest ih =>
    have hmissing (hkey : ∀ below, rest <+: below → kindTreeGet (key :: below) map = none) :
        ¬∃ below, key :: rest <+: below ∧ (kindTreeGet below map).isSome := by
      rintro ⟨below, hunder, hsome⟩
      obtain ⟨tail, rfl⟩ := hunder
      rw [List.cons_append, hkey _ (List.prefix_append rest tail)] at hsome
      cases hsome
    cases hnode : map.get key with
    | none =>
      refine (iff_of_false ?_ (hmissing fun below _ ↦ kindTreeGet_missing hnode below))
      cases rest with
      | nil => simp [kindTreeRemoves, hnode]
      | cons second rest => simp [kindTreeRemoves, hnode]
    | some node =>
      cases rest with
      | nil =>
        refine iff_of_true (by simp [kindTreeRemoves, hnode]) ?_
        cases node with
        | leaf link =>
          exact ⟨[key], List.prefix_refl _,
            Option.isSome_of_eq_some (kindTreeGet_singleton.mpr hnode)⟩
        | branch inner =>
          obtain ⟨below, hbelow⟩ := (h.branch hnode).exists_get (h.entries_ne_nil hnode)
          exact ⟨key :: below, List.cons_prefix_cons.mpr ⟨rfl, List.nil_prefix⟩,
            (kindTreeGet_branch hnode below).symm ▸ hbelow⟩
      | cons second rest =>
        cases node with
        | leaf link =>
          refine iff_of_false (by simp [kindTreeRemoves, hnode]) (hmissing fun below hunder ↦ ?_)
          refine kindTreeGet_leaf hnode ?_
          rintro rfl
          exact List.cons_ne_nil _ _ (List.prefix_nil.mp hunder)
        | branch inner =>
          have hinner := ih (h.branch hnode) (List.cons_ne_nil second rest)
          simp only [kindTreeRemoves, hnode, hinner]
          constructor
          · rintro ⟨below, hunder, hsome⟩
            exact ⟨key :: below, List.cons_prefix_cons.mpr ⟨rfl, hunder⟩,
              (kindTreeGet_branch hnode below).symm ▸ hsome⟩
          · rintro ⟨_, ⟨tail, rfl⟩, hsome⟩
            exact ⟨second :: rest ++ tail, List.prefix_append _ tail,
              (kindTreeGet_branch hnode _) ▸ hsome⟩

end Levels

/-! ### The tree of a manifest -/

/-- What `remove_protocol` answers. -/
def removesProtocol (kinds : KindTree Cid) (protocol : String) : Bool :=
  kindTreeRemoves (segments protocol) kinds.children

/-- A text behind all its leading slashes. -/
def stripped (protocol : String) : String :=
  String.ofList (protocol.toList.dropWhile (· == '/'))

/-- A text is read by what is behind its leading slashes. -/
theorem segments_eq_iff {first second : String} :
    segments first = segments second ↔ stripped first = stripped second := by
  constructor
  · intro h
    have hchars := congrArg (fun rest ↦ (protocolId rest).toList) h
    simp only [toList_protocolId_segments, List.cons.injEq, true_and] at hchars
    exact congrArg String.ofList hchars
  · intro h
    have hchars := String.ofList_injective h
    unfold segments
    rw [hchars]

/-- An operation on a tree of kinds. -/
inductive KindTreeOp (Cid : Type)
  | insertProtocol (protocol : String) (link : IpldLink Cid)
  | removeProtocol (protocol : String)

/-- The tree after an operation. -/
def kindTreeStep (kinds : KindTree Cid) : KindTreeOp Cid → Option (KindTree Cid)
  | .insertProtocol protocol link => some (kinds.insertProtocol protocol link)
  | .removeProtocol protocol => some (kinds.removeProtocol protocol)

/-- An operation does to a tree what it does to a map from identifiers to links. -/
def Lawful (kinds : KindTree Cid) : KindTreeOp Cid → Prop
  | .insertProtocol protocol link =>
    (kinds.insertProtocol protocol link).getProtocol protocol = some link ∧
      ∀ other, stripped other ≠ stripped protocol →
        (kinds.insertProtocol protocol link).getProtocol other = kinds.getProtocol other
  | .removeProtocol protocol =>
    (kinds.removeProtocol protocol).getProtocol protocol = none ∧
      (∀ other, stripped other ≠ stripped protocol →
        (kinds.removeProtocol protocol).getProtocol other = kinds.getProtocol other) ∧
      (removesProtocol kinds protocol = true ↔ (kinds.getProtocol protocol).isSome)

/-- An identifier has the segments of another one and more behind them. -/
def IsBelow (protocol above : String) : Prop :=
  segments above <+: segments protocol ∧ segments protocol ≠ segments above

/-- What an operation names is not below a linked identifier, nor above one. A removal may be below
one, where it finds nothing. -/
def Unnested (kinds : KindTree Cid) : KindTreeOp Cid → Prop
  | .insertProtocol protocol _ =>
    ∀ other, (kinds.getProtocol other).isSome → ¬IsBelow protocol other ∧ ¬IsBelow other protocol
  | .removeProtocol protocol => ∀ other, (kinds.getProtocol other).isSome → ¬IsBelow other protocol

/-- What holds of the trees that operations lead to: no branch is empty, and every link has an
identifier. -/
structure Grown (kinds : KindTree Cid) : Prop where
  stocked : Stocked kinds.children
  addressed : ∀ path, (kindTreeGet path kinds.children).isSome → ∃ id, segments id = path

theorem grown_empty : Grown (⟨.empty⟩ : KindTree Cid) where
  stocked := stocked_empty
  addressed path hpath := by
    rw [kindTreeGet_empty] at hpath
    cases hpath

section Operations

variable {kinds next : KindTree Cid} {op : KindTreeOp Cid} {protocol other : String}
  {link : IpldLink Cid}

theorem Grown.step (h : Grown kinds) (hstep : kindTreeStep kinds op = some next) : Grown next := by
  cases op with
  | insertProtocol protocol link =>
    obtain rfl := Option.some.inj hstep
    refine ⟨h.stocked.kindTreeInsert _ link, fun path hpath ↦ ?_⟩
    unfold KindTree.insertProtocol at hpath
    by_cases hopen : IsOpen kinds.children (segments protocol)
    · rw [get_insert (segments_ne_nil protocol) hopen] at hpath
      split_ifs at hpath with heq
      · exact ⟨protocol, heq.symm⟩
      · cases hpath
      · exact h.addressed path hpath
    · rw [get_insert_of_not_isOpen hopen] at hpath
      exact h.addressed path hpath
  | removeProtocol protocol =>
    obtain rfl := Option.some.inj hstep
    refine ⟨h.stocked.kindTreeRemove _, fun path hpath ↦ ?_⟩
    unfold KindTree.removeProtocol at hpath
    rw [kindTreeGet_remove (segments_ne_nil protocol)] at hpath
    split_ifs at hpath
    · cases hpath
    · exact h.addressed path hpath

theorem grown_of_run {ops : List (KindTreeOp Cid)} (h : Run kindTreeStep ⟨.empty⟩ ops kinds) :
    Grown kinds :=
  h.invariant Grown (fun _ _ _ hgrown _ hstep ↦ hgrown.step hstep) grown_empty

/-- No link stands above an identifier when it is not below a linked one. -/
theorem Grown.isOpen_iff (h : Grown kinds) :
    IsOpen kinds.children (segments protocol) ↔
      ∀ other, (kinds.getProtocol other).isSome → ¬IsBelow protocol other := by
  constructor
  · rintro hopen other hsome ⟨hunder, hne⟩
    unfold KindTree.getProtocol at hsome
    rw [hopen _ hunder (Ne.symm hne)] at hsome
    cases hsome
  · intro hnone above habove hne
    by_contra hget
    have hsome := Option.isSome_iff_ne_none.mpr hget
    obtain ⟨id, rfl⟩ := h.addressed above hsome
    exact hnone id hsome ⟨habove, Ne.symm hne⟩

/-- A removal answers that it removed something for an identifier with a link at it or below it. -/
theorem Grown.removesProtocol_iff (h : Grown kinds) :
    removesProtocol kinds protocol = true ↔
      ∃ other, segments protocol <+: segments other ∧ (kinds.getProtocol other).isSome := by
  refine (kindTreeRemoves_iff h.stocked (segments_ne_nil protocol)).trans ?_
  constructor
  · rintro ⟨below, hunder, hsome⟩
    obtain ⟨id, rfl⟩ := h.addressed below hsome
    exact ⟨id, hunder, hsome⟩
  · rintro ⟨other, hunder, hsome⟩
    exact ⟨segments other, hunder, hsome⟩

theorem mem_collectEntries_iff {entries : List (String × KindTreeNode Cid)} {id prior : String} :
    id ∈ collectEntries entries prior ↔
      ∃ entry ∈ entries, id ∈ collectNode entry.2 (prior ++ "/" ++ entry.1) := by
  constructor
  · intro h
    induction entries with
    | nil => cases h
    | cons entry rest ih =>
      obtain ⟨key, node⟩ := entry
      rcases List.mem_append.mp h with hentry | hrest
      · exact ⟨(key, node), List.mem_cons_self, hentry⟩
      · obtain ⟨found, hfound, hid⟩ := ih hrest
        exact ⟨found, List.mem_cons_of_mem _ hfound, hid⟩
  · rintro ⟨entry, hentry, hid⟩
    exact mem_collectEntries hentry hid

theorem mem_collectIds_iff {map : KeyedMap String (KindTreeNode Cid)} {id prior : String} :
    id ∈ kindTreeCollectIds map prior ↔
      ∃ entry ∈ map.entries, id ∈ collectNode entry.2 (prior ++ "/" ++ entry.1) := by
  obtain ⟨entries⟩ := map
  exact mem_collectEntries_iff

theorem mem_collectIds_remove_key {map : KeyedMap String (KindTreeNode Cid)}
    {key id prior : String} (h : id ∈ kindTreeCollectIds (map.remove key) prior) :
    id ∈ kindTreeCollectIds map prior := by
  obtain ⟨entry, hentry, hid⟩ := mem_collectIds_iff.mp h
  exact mem_collectIds_iff.mpr ⟨entry, (List.mem_filter.mp hentry).1, hid⟩

/-- A level with another node lists what is below the node, and what it listed before. -/
theorem mem_collectIds_insert_key {map : KeyedMap String (KindTreeNode Cid)}
    {key id prior : String} {node : KindTreeNode Cid}
    (h : id ∈ kindTreeCollectIds (map.insert key node) prior) :
    id ∈ collectNode node (prior ++ "/" ++ key) ∨ id ∈ kindTreeCollectIds map prior := by
  obtain ⟨entry, hentry, hid⟩ := mem_collectIds_iff.mp h
  rcases List.mem_cons.mp hentry with rfl | hrest
  · exact .inl hid
  · exact .inr (mem_collectIds_remove_key (mem_collectIds_iff.mpr ⟨entry, hrest, hid⟩))

theorem mem_collectIds_branch {map inner : KeyedMap String (KindTreeNode Cid)}
    {key id prior : String} (hkey : map.get key = some (.branch inner))
    (h : id ∈ kindTreeCollectIds inner (prior ++ "/" ++ key)) :
    id ∈ kindTreeCollectIds map prior :=
  mem_collectIds_iff.mpr ⟨(key, .branch inner), KeyedMap.mem_of_get hkey, h⟩

/-- An insertion lists no identifier but that of the path. -/
theorem mem_collectIds_insert {path : List String} (hpath : path ≠ [])
    {map : KeyedMap String (KindTreeNode Cid)} {id prior : String}
    (h : id ∈ kindTreeCollectIds (kindTreeInsert path map link) prior) :
    id = prior ++ protocolId path ∨ id ∈ kindTreeCollectIds map prior := by
  induction path generalizing map prior with
  | nil => exact absurd rfl hpath
  | cons key rest ih =>
    cases rest with
    | nil =>
      rcases mem_collectIds_insert_key h with hleaf | hold
      · refine .inl ((List.mem_singleton.mp hleaf).trans ?_)
        simp [protocolId, String.append_assoc]
      · exact .inr hold
    | cons second rest =>
      have hprior : prior ++ "/" ++ key ++ protocolId (second :: rest) =
          prior ++ protocolId (key :: second :: rest) := by
        rw [protocolId_cons_cons, ← String.append_assoc, ← String.append_assoc]
      cases hkey : map.get key with
      | none =>
        simp only [kindTreeInsert, hkey] at h
        rcases mem_collectIds_insert_key h with hbranch | hold
        · rcases ih (List.cons_ne_nil _ _) hbranch with hid | hempty
          · exact .inl (hid.trans hprior)
          · cases hempty
        · exact .inr hold
      | some node =>
        cases node with
        | leaf found =>
          simp only [kindTreeInsert, hkey] at h
          exact .inr h
        | branch inner =>
          simp only [kindTreeInsert, hkey] at h
          rcases mem_collectIds_insert_key h with hbranch | hold
          · rcases ih (List.cons_ne_nil _ _) hbranch with hid | hinner
            · exact .inl (hid.trans hprior)
            · exact .inr (mem_collectIds_branch hkey hinner)
          · exact .inr hold

/-- A removal lists no identifier that was not listed. -/
theorem mem_collectIds_remove {path : List String} {map : KeyedMap String (KindTreeNode Cid)}
    {id prior : String} (h : id ∈ kindTreeCollectIds (kindTreeRemove path map) prior) :
    id ∈ kindTreeCollectIds map prior := by
  induction path generalizing map prior with
  | nil => exact h
  | cons key rest ih =>
    cases rest with
    | nil => exact mem_collectIds_remove_key h
    | cons second rest =>
      cases hkey : map.get key with
      | none =>
        simp only [kindTreeRemove, hkey] at h
        exact h
      | some node =>
        cases node with
        | leaf found =>
          simp only [kindTreeRemove, hkey] at h
          exact h
        | branch inner =>
          simp only [kindTreeRemove, hkey] at h
          split_ifs at h
          · exact mem_collectIds_remove_key h
          · rcases mem_collectIds_insert_key h with hbranch | hold
            · exact mem_collectIds_branch hkey (ih hbranch)
            · exact hold

/-- What a tree that operations lead to lists are identifiers. -/
theorem isId_of_run {ops : List (KindTreeOp Cid)} (h : Run kindTreeStep ⟨.empty⟩ ops kinds)
    {id : String} (hid : id ∈ kinds.protocolIds) : IsId id := by
  refine h.invariant (fun kinds ↦ ∀ id ∈ kinds.protocolIds, IsId id) ?_ ?_ id hid
  · intro kinds op next hkinds _ hstep id hid
    cases op with
    | insertProtocol protocol link =>
      obtain rfl := Option.some.inj hstep
      rcases mem_collectIds_insert (segments_ne_nil protocol) hid with rfl | hold
      · rw [String.empty_append]
        exact congrArg protocolId (segments_protocolId_segments protocol)
      · exact hkinds id hold
    | removeProtocol protocol =>
      obtain rfl := Option.some.inj hstep
      exact hkinds id (mem_collectIds_remove hid)
  · intro id hid
    cases hid

theorem getProtocol_insertProtocol (hopen : IsOpen kinds.children (segments protocol)) :
    (kinds.insertProtocol protocol link).getProtocol other =
      if segments other = segments protocol then some link
      else if segments protocol <+: segments other then none
      else kinds.getProtocol other :=
  get_insert (segments_ne_nil protocol) hopen link _

theorem getProtocol_removeProtocol_below :
    (kinds.removeProtocol protocol).getProtocol other =
      if segments protocol <+: segments other then none else kinds.getProtocol other :=
  kindTreeGet_remove (segments_ne_nil protocol) _

/-- Where everything below an identifier is gone, the other identifiers keep their links if none of
them was below it. -/
theorem kept_iff (after : KindTree Cid)
    (hafter : ∀ other, segments other ≠ segments protocol → after.getProtocol other =
      if segments protocol <+: segments other then none else kinds.getProtocol other) :
    (∀ other, stripped other ≠ stripped protocol →
      after.getProtocol other = kinds.getProtocol other) ↔
      ∀ other, (kinds.getProtocol other).isSome → ¬IsBelow other protocol := by
  constructor
  · rintro hkept other hsome ⟨hunder, hne⟩
    rw [← hkept other (mt segments_eq_iff.mpr hne), hafter other hne, if_pos hunder] at hsome
    cases hsome
  · intro hnone other hne
    rw [hafter other (mt segments_eq_iff.mp hne)]
    split_ifs with hunder
    · by_contra hget
      exact hnone other (Option.isSome_iff_ne_none.mpr (Ne.symm hget))
        ⟨hunder, mt segments_eq_iff.mp hne⟩
    · rfl

/-- An insertion is that of a map exactly where no linked identifier is above or below. -/
theorem Grown.lawful_insertProtocol_iff (h : Grown kinds) :
    Lawful kinds (.insertProtocol protocol link) ↔
      Unnested kinds (.insertProtocol protocol link) := by
  have hfound : (kinds.insertProtocol protocol link).getProtocol protocol = some link ↔
      IsOpen kinds.children (segments protocol) := by
    constructor
    · intro hget
      by_contra hopen
      have hbefore : kindTreeGet (segments protocol) kinds.children = some link :=
        (get_insert_of_not_isOpen hopen link _).symm.trans hget
      exact hopen (isOpen_of_get hbefore)
    · intro hopen
      rw [getProtocol_insertProtocol hopen, if_pos rfl]
  have hkept (hopen : IsOpen kinds.children (segments protocol)) :=
    kept_iff (kinds.insertProtocol protocol link) fun other hne ↦
      (getProtocol_insertProtocol hopen).trans (if_neg hne)
  simp only [Lawful, Unnested, hfound]
  constructor
  · rintro ⟨hopen, hothers⟩ other hsome
    exact ⟨h.isOpen_iff.mp hopen other hsome, (hkept hopen).mp hothers other hsome⟩
  · intro hclear
    have hopen := h.isOpen_iff.mpr fun other hsome ↦ (hclear other hsome).1
    exact ⟨hopen, (hkept hopen).mpr fun other hsome ↦ (hclear other hsome).2⟩

/-- A removal is that of a map exactly where no linked identifier is below. -/
theorem Grown.lawful_removeProtocol_iff (h : Grown kinds) :
    Lawful kinds (.removeProtocol protocol) ↔ Unnested kinds (.removeProtocol protocol) := by
  have hgone : (kinds.removeProtocol protocol).getProtocol protocol = none := by
    rw [getProtocol_removeProtocol_below, if_pos (List.prefix_refl _)]
  have hkept := kept_iff (kinds.removeProtocol protocol) fun other _ ↦
    getProtocol_removeProtocol_below
  simp only [Lawful, Unnested, hkept, h.removesProtocol_iff]
  constructor
  · rintro ⟨-, hclear, -⟩
    exact hclear
  · intro hclear
    refine ⟨hgone, hclear, ?_⟩
    constructor
    · rintro ⟨other, hunder, hsome⟩
      -- what is linked from the identifier on can only be the identifier itself
      have heq : segments other = segments protocol := by
        by_contra hne
        exact hclear other hsome ⟨hunder, hne⟩
      rwa [KindTree.getProtocol_congr heq] at hsome
    · intro hsome
      exact ⟨protocol, List.prefix_refl _, hsome⟩

theorem Grown.lawful_iff (h : Grown kinds) (op : KindTreeOp Cid) :
    Lawful kinds op ↔ Unnested kinds op := by
  cases op with
  | insertProtocol protocol link => exact h.lawful_insertProtocol_iff
  | removeProtocol protocol => exact h.lawful_removeProtocol_iff

end Operations

/-- In every tree that operations lead to, an operation is that of a finite map exactly when it is
unnested, and all operations of a run are when the run has no others. -/
theorem lawful_iff_unnested {ops : List (KindTreeOp Cid)} {kinds : KindTree Cid}
    (h : Run kindTreeStep ⟨.empty⟩ ops kinds) :
    (∀ op, Lawful kinds op ↔ Unnested kinds op) ∧
      ((∀ before op after reached, ops = before ++ op :: after →
        Run kindTreeStep ⟨.empty⟩ before reached → Lawful reached op) ↔
        GuardedRun kindTreeStep Unnested ⟨.empty⟩ ops kinds) := by
  refine ⟨(grown_of_run h).lawful_iff, ?_⟩
  rw [guardedRun_iff_forall_split h]
  constructor
  · intro hlawful before op after reached hsplit hreached
    exact ((grown_of_run hreached).lawful_iff op).mp
      (hlawful before op after reached hsplit hreached)
  · intro hunnested before op after reached hsplit hreached
    exact ((grown_of_run hreached).lawful_iff op).mpr
      (hunnested before op after reached hsplit hreached)

/-- A tree with one kind. -/
def roomTree : KindTree ℕ := KindTree.insertProtocol ⟨.empty⟩ "/ma/room" ⟨0⟩

theorem lawful_iff_unnested_roomTree :
    (∀ op, Lawful roomTree op ↔ Unnested roomTree op) ∧
      ((∀ before op after reached, [.insertProtocol "/ma/room" ⟨0⟩] = before ++ op :: after →
        Run kindTreeStep ⟨.empty⟩ before reached → Lawful reached op) ↔
        GuardedRun kindTreeStep Unnested ⟨.empty⟩ [.insertProtocol "/ma/room" ⟨0⟩] roomTree) :=
  lawful_iff_unnested (run_of_execute rfl)

/-- A kind below another one is not put into the tree, one above another one takes it away, and the
removal of what is above a kind takes it away and answers that it removed something. -/
theorem not_lawful_nested :
    Run kindTreeStep ⟨.empty⟩ [.insertProtocol "/ma/room" ⟨0⟩] roomTree ∧
      ¬Lawful roomTree (.insertProtocol "/ma/room/0.0.1" ⟨1⟩) ∧
      ¬Lawful roomTree (.insertProtocol "/ma" ⟨1⟩) ∧
      ¬Lawful roomTree (.removeProtocol "/ma") := by
  refine ⟨run_of_execute rfl, ?_, ?_, ?_⟩
  · rintro ⟨hfound, -⟩
    exact absurd hfound (by decide)
  · rintro ⟨-, hkept⟩
    exact absurd (hkept "/ma/room" (by decide)) (by decide)
  · rintro ⟨-, -, hanswer⟩
    exact absurd hanswer (by decide)

end MaRuntime.Kinds
