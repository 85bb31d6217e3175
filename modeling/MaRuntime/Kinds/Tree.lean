import Mathlib.Data.List.DropRight
import MaRuntime.Manifest.Documents

/-!
# The tree of kinds

A manifest keeps the links to its kinds in a tree, under the segments of their protocol identifiers:
`/ma/room/0.0.1` is the leaf at `ma`, `room`, `0.0.1`. A lookup takes any text for an identifier and
reads its segments behind all its leading slashes.

A link cannot be put below another one; where it is tried the tree stays as it is
(`get_insert_of_not_isOpen`). A link that is put above others takes their place (`get_insert`).

Main definitions: `segments`, `protocolId`, `KindTree.insertProtocol`, `KindTree.getProtocol`,
`KindTree.removeProtocol`, `KindTree.iterProtocols`.
Main results: `get_insert`, `kindTreeGet_remove`, `get_remove`, `mem_collectIds`.
-/

set_option autoImplicit false
set_option relaxedAutoImplicit false

namespace MaRuntime.Kinds

open Manifest

variable {Cid : Type}

/-! ### Protocol identifiers -/

/-- The segments that a text is read as. -/
def segments (protocol : String) : List String :=
  ((protocol.toList.dropWhile (· == '/')).splitOn '/').map String.ofList

/-- The identifier with some segments. -/
def protocolId (segments : List String) : String := "/" ++ "/".intercalate segments

/-- A text with one leading slash, as protocol identifiers have. -/
def IsId (protocol : String) : Prop := protocolId (segments protocol) = protocol

instance (protocol : String) : Decidable (IsId protocol) :=
  inferInstanceAs (Decidable (protocolId (segments protocol) = protocol))

theorem IsId.eq {first second : String} (hfirst : IsId first) (hsecond : IsId second)
    (h : segments first = segments second) : first = second :=
  hfirst.symm.trans ((congrArg protocolId h).trans hsecond)

theorem segments_ne_nil (protocol : String) : segments protocol ≠ [] := by
  unfold segments
  rw [ne_eq, List.map_eq_nil_iff]
  exact List.splitOn_ne_nil _ _

/-- An identifier is read as its segments, when none of these is empty or has a slash. -/
theorem segments_protocolId {rest : List String} (hne : rest ≠ [])
    (hsegment : ∀ segment ∈ rest, segment ≠ "" ∧ '/' ∉ segment.toList) :
    segments (protocolId rest) = rest := by
  have hchars : (protocolId rest).toList =
      '/' :: ['/'].intercalate (rest.map String.toList) := by
    simp only [protocolId, String.toList_append, String.toList_intercalate]
    rfl
  have hdrop : (['/'].intercalate (rest.map String.toList)).dropWhile (· == '/') =
      ['/'].intercalate (rest.map String.toList) := by
    cases rest with
    | nil => exact absurd rfl hne
    | cons first more =>
      obtain ⟨hfirst, hslash⟩ := hsegment first List.mem_cons_self
      obtain ⟨c, chars, hc⟩ : ∃ c chars, first.toList = c :: chars := by
        cases hlist : first.toList with
        | nil => exact absurd (String.toList_eq_nil_iff.mp hlist) hfirst
        | cons c chars => exact ⟨c, chars, rfl⟩
      have hother : (c == '/') = false := by
        rw [beq_eq_false_iff_ne]
        rintro rfl
        exact hslash (hc ▸ List.mem_cons_self)
      cases more with
      | nil => simp [hc, hother]
      | cons second more => simp [hc, hother, List.intercalate_cons_cons]
  have hnoSlash : ∀ chars ∈ rest.map String.toList, '/' ∉ chars := by
    intro chars hmem
    obtain ⟨segment, hsegmentMem, rfl⟩ := List.mem_map.mp hmem
    exact (hsegment segment hsegmentMem).2
  have hsplit :=
    List.splitOn_intercalate '/' hnoSlash fun hnil ↦ hne (List.map_eq_nil_iff.mp hnil)
  unfold segments
  rw [hchars, List.dropWhile_cons, beq_self_eq_true, if_pos rfl, hdrop, hsplit, List.map_map]
  simp

theorem toList_protocolId_segments (protocol : String) :
    (protocolId (segments protocol)).toList = '/' :: protocol.toList.dropWhile (· == '/') := by
  have hchars : (segments protocol).map String.toList =
      (protocol.toList.dropWhile (· == '/')).splitOn '/' := by
    simp [segments, List.map_map]
  rw [protocolId, String.toList_append, String.toList_intercalate, hchars]
  exact congrArg ('/' :: ·) (List.intercalate_splitOn '/')

/-- A text is read the same with one leading slash. -/
theorem segments_protocolId_segments (protocol : String) :
    segments (protocolId (segments protocol)) = segments protocol := by
  have hdrop : (protocolId (segments protocol)).toList.dropWhile (· == '/') =
      protocol.toList.dropWhile (· == '/') := by
    rw [toList_protocolId_segments]
    exact List.dropWhile_idempotent _ _
  unfold segments at hdrop ⊢
  rw [hdrop]

/-! ### Levels of the tree -/

/-- `kind_tree_insert` -/
def kindTreeInsert : List String → KeyedMap String (KindTreeNode Cid) → IpldLink Cid →
    KeyedMap String (KindTreeNode Cid)
  | [], map, _ => map
  | [key], map, link => map.insert key (.leaf link)
  | key :: rest, map, link =>
    match map.get key with
    | none => map.insert key (.branch (kindTreeInsert rest .empty link))
    | some (.branch inner) => map.insert key (.branch (kindTreeInsert rest inner link))
    | some (.leaf _) => map

/-- `kind_tree_get` -/
def kindTreeGet : List String → KeyedMap String (KindTreeNode Cid) → Option (IpldLink Cid)
  | [], _ => none
  | [key], map =>
    match map.get key with
    | some (.leaf link) => some link
    | _ => none
  | key :: rest, map =>
    match map.get key with
    | some (.branch inner) => kindTreeGet rest inner
    | _ => none

/-- `kind_tree_remove`. A branch that is left empty is removed as well. -/
def kindTreeRemove : List String → KeyedMap String (KindTreeNode Cid) →
    KeyedMap String (KindTreeNode Cid)
  | [], map => map
  | [key], map => map.remove key
  | key :: rest, map =>
    match map.get key with
    | some (.branch inner) =>
      if (kindTreeRemove rest inner).entries.isEmpty then map.remove key
      else map.insert key (.branch (kindTreeRemove rest inner))
    | _ => map

mutual

/-- `kind_tree_collect_ids` -/
def kindTreeCollectIds : KeyedMap String (KindTreeNode Cid) → String → List String
  | ⟨entries⟩, path => collectEntries entries path

def collectEntries : List (String × KindTreeNode Cid) → String → List String
  | [], _ => []
  | entry :: rest, path => collectEntry entry path ++ collectEntries rest path

def collectEntry : String × KindTreeNode Cid → String → List String
  | (key, node), path => collectNode node (path ++ "/" ++ key)

def collectNode : KindTreeNode Cid → String → List String
  | .leaf _, path => [path]
  | .branch inner, path => kindTreeCollectIds inner path

end

section Levels

variable {map inner : KeyedMap String (KindTreeNode Cid)} {key : String} {path other : List String}
  {link : IpldLink Cid}

/-- No link stands above a path. -/
def IsOpen (map : KeyedMap String (KindTreeNode Cid)) (path : List String) : Prop :=
  ∀ above, above <+: path → above ≠ path → kindTreeGet above map = none

theorem kindTreeGet_singleton :
    kindTreeGet [key] map = some link ↔ map.get key = some (.leaf link) := by
  unfold kindTreeGet
  split
  · rename_i found hfound
    rw [hfound, Option.some.injEq, Option.some.injEq, KindTreeNode.leaf.injEq]
  · rename_i hnone
    constructor
    · intro h
      cases h
    · intro h
      exact absurd h (hnone link)

/-- A lookup goes on in the branch of the first segment. -/
theorem kindTreeGet_branch (h : map.get key = some (.branch inner)) (path : List String) :
    kindTreeGet (key :: path) map = kindTreeGet path inner := by
  cases path with
  | nil => simp only [kindTreeGet, h]
  | cons second rest => simp only [kindTreeGet, h]

/-- Nothing is behind a segment that is missing. -/
theorem kindTreeGet_missing (h : map.get key = none) (path : List String) :
    kindTreeGet (key :: path) map = none := by
  cases path with
  | nil => simp only [kindTreeGet, h]
  | cons second rest => simp only [kindTreeGet, h]

/-- Nothing is below a link. -/
theorem kindTreeGet_leaf (h : map.get key = some (.leaf link)) (hpath : path ≠ []) :
    kindTreeGet (key :: path) map = none := by
  cases path with
  | nil => exact absurd rfl hpath
  | cons second rest => simp only [kindTreeGet, h]

/-- A link of several segments is found in a branch. -/
theorem exists_branch_of_get {second : String} {rest : List String}
    (h : kindTreeGet (key :: second :: rest) map = some link) :
    ∃ inner, map.get key = some (.branch inner) ∧
      kindTreeGet (second :: rest) inner = some link := by
  cases hkey : map.get key with
  | none => cases (kindTreeGet_missing hkey _).symm.trans h
  | some node =>
    cases node with
    | leaf found => cases (kindTreeGet_leaf hkey (List.cons_ne_nil _ _)).symm.trans h
    | branch inner => exact ⟨inner, rfl, (kindTreeGet_branch hkey _).symm.trans h⟩

theorem kindTreeGet_congr {map' : KeyedMap String (KindTreeNode Cid)}
    (h : map'.get key = map.get key) (path : List String) :
    kindTreeGet (key :: path) map' = kindTreeGet (key :: path) map := by
  cases path with
  | nil => simp only [kindTreeGet, h]
  | cons second rest => simp only [kindTreeGet, h]

@[simp] theorem kindTreeGet_empty (path : List String) :
    kindTreeGet path (.empty : KeyedMap String (KindTreeNode Cid)) = none := by
  cases path with
  | nil => rfl
  | cons key rest => exact kindTreeGet_missing (KeyedMap.get_empty key) rest

theorem isOpen_branch (h : map.get key = some (.branch inner)) :
    IsOpen map (key :: path) ↔ IsOpen inner path := by
  constructor
  · intro hopen above habove hne
    rw [← kindTreeGet_branch h]
    exact hopen (key :: above) ((List.prefix_cons_inj key).mpr habove) fun heq ↦
      hne (List.cons.inj heq).2
  · intro hopen above habove hne
    cases above with
    | nil => rfl
    | cons first above =>
      obtain ⟨rfl, hrest⟩ := List.cons_prefix_cons.mp habove
      rw [kindTreeGet_branch h]
      exact hopen above hrest fun heq ↦ hne (congrArg (first :: ·) heq)

theorem isOpen_missing (h : map.get key = none) : IsOpen map (key :: path) := by
  intro above habove _
  cases above with
  | nil => rfl
  | cons first above =>
    obtain ⟨rfl, -⟩ := List.cons_prefix_cons.mp habove
    exact kindTreeGet_missing h above

theorem not_isOpen_leaf (h : map.get key = some (.leaf link)) (hpath : path ≠ []) :
    ¬IsOpen map (key :: path) := by
  intro hopen
  have hnone := hopen [key] ((List.prefix_cons_inj key).mpr (List.nil_prefix)) fun heq ↦
    hpath (List.cons.inj heq).2.symm
  rw [kindTreeGet_singleton.mpr h] at hnone
  cases hnone

theorem isOpen_singleton : IsOpen map [key] := by
  intro above habove hne
  cases above with
  | nil => rfl
  | cons first above =>
    obtain ⟨rfl, hrest⟩ := List.cons_prefix_cons.mp habove
    rw [List.prefix_nil.mp hrest] at hne
    exact absurd rfl hne

/-- A link has no other link above it. -/
theorem isOpen_of_get (h : kindTreeGet path map = some link) : IsOpen map path := by
  induction path generalizing map with
  | nil => cases h
  | cons key rest ih =>
    cases hkey : map.get key with
    | none => exact isOpen_missing hkey
    | some node =>
      cases node with
      | branch inner =>
        rw [kindTreeGet_branch hkey] at h
        exact (isOpen_branch hkey).mpr (ih h)
      | leaf found =>
        cases rest with
        | nil => exact isOpen_singleton
        | cons second rest =>
          rw [kindTreeGet_leaf hkey (List.cons_ne_nil _ _)] at h
          cases h

/-- Of two links neither is above the other. -/
theorem eq_of_prefix_of_get {link' : IpldLink Cid} (h : kindTreeGet path map = some link)
    (hother : kindTreeGet other map = some link') (hunder : path <+: other) : path = other := by
  by_contra hne
  rw [isOpen_of_get hother path hunder hne] at h
  cases h

/-- A lookup behind a first segment that has got another node. -/
theorem kindTreeGet_insert_node (node : KindTreeNode Cid) (other : List String) :
    kindTreeGet other (map.insert key node) =
      match other, node with
      | [], _ => none
      | first :: rest, .leaf link =>
        if first = key then (if rest = [] then some link else none) else kindTreeGet other map
      | first :: rest, .branch inner =>
        if first = key then kindTreeGet rest inner else kindTreeGet other map := by
  cases other with
  | nil => rfl
  | cons first rest =>
    have hself : (map.insert key node).get key = some node := KeyedMap.get_insert_self map key node
    by_cases hfirst : first = key
    · subst hfirst
      cases node with
      | leaf link =>
        by_cases hrest : rest = []
        · subst hrest
          simpa using kindTreeGet_singleton.mpr hself
        · simpa [hrest] using kindTreeGet_leaf hself hrest
      | branch inner => simpa using kindTreeGet_branch hself rest
    · have hother := kindTreeGet_congr (KeyedMap.get_insert_of_ne map node hfirst) rest
      cases node with
      | leaf link => simpa [hfirst] using hother
      | branch inner => simpa [hfirst] using hother

/-- What is found after an insertion where no link stands above. -/
theorem get_insert (hpath : path ≠ []) (hopen : IsOpen map path) (link : IpldLink Cid)
    (other : List String) :
    kindTreeGet other (kindTreeInsert path map link) =
      if other = path then some link
      else if path <+: other then none
      else kindTreeGet other map := by
  induction path generalizing map other with
  | nil => exact absurd rfl hpath
  | cons key rest ih =>
    cases rest with
    | nil =>
      simp only [kindTreeInsert, kindTreeGet_insert_node]
      cases other with
      | nil => simp [kindTreeGet]
      | cons first below =>
        by_cases hfirst : first = key
        · subst hfirst
          simp [List.cons_prefix_cons]
        · simp [List.cons_prefix_cons, hfirst, Ne.symm hfirst]
    | cons second rest =>
      have hinner {inner : KeyedMap String (KindTreeNode Cid)}
          (hbelow : IsOpen inner (second :: rest))
          (hsame : ∀ below, kindTreeGet (key :: below) map = kindTreeGet below inner) :
          kindTreeGet other
              (map.insert key (.branch (kindTreeInsert (second :: rest) inner link))) =
            if other = key :: second :: rest then some link
            else if key :: second :: rest <+: other then none
            else kindTreeGet other map := by
        rw [kindTreeGet_insert_node]
        cases other with
        | nil => simp [kindTreeGet]
        | cons first below =>
          by_cases hfirst : first = key
          · subst hfirst
            simp only [if_true, hsame, ih (List.cons_ne_nil _ _) hbelow below,
              List.cons_prefix_cons, List.cons.injEq, true_and]
          · simp [hfirst, List.cons_prefix_cons, Ne.symm hfirst]
      cases hkey : map.get key with
      | none =>
        simp only [kindTreeInsert, hkey]
        exact hinner (fun above _ _ ↦ kindTreeGet_empty above) fun below ↦
          (kindTreeGet_missing hkey below).trans (kindTreeGet_empty below).symm
      | some node =>
        cases node with
        | branch inner =>
          simp only [kindTreeInsert, hkey]
          exact hinner ((isOpen_branch hkey).mp hopen) (kindTreeGet_branch hkey)
        | leaf found => exact absurd hopen (not_isOpen_leaf hkey (List.cons_ne_nil _ _))

/-- An insertion below a link changes nothing. -/
theorem get_insert_of_not_isOpen (hopen : ¬IsOpen map path) (link : IpldLink Cid)
    (other : List String) :
    kindTreeGet other (kindTreeInsert path map link) = kindTreeGet other map := by
  induction path generalizing map other with
  | nil => rfl
  | cons key rest ih =>
    cases rest with
    | nil => exact absurd isOpen_singleton hopen
    | cons second rest =>
      cases hkey : map.get key with
      | none => exact absurd (isOpen_missing hkey) hopen
      | some node =>
        cases node with
        | branch inner =>
          simp only [kindTreeInsert, hkey, kindTreeGet_insert_node]
          cases other with
          | nil => rfl
          | cons first below =>
            by_cases hfirst : first = key
            · subst hfirst
              simp only [if_true, ih (fun h ↦ hopen ((isOpen_branch hkey).mpr h)),
                kindTreeGet_branch hkey]
            · simp only [if_neg hfirst]
        | leaf found => simp only [kindTreeInsert, hkey]

/-- What stands above a path does not change when something is inserted beside it. -/
theorem isOpen_insert_iff {beside : List String} (hbeside : beside <+: path → beside = path)
    (hne : beside ≠ []) : IsOpen (kindTreeInsert beside map link) path ↔ IsOpen map path := by
  have hsame (above : List String) (habove : above <+: path) (hproper : above ≠ path) :
      kindTreeGet above (kindTreeInsert beside map link) = kindTreeGet above map := by
    by_cases hopen : IsOpen map beside
    · rw [get_insert hne hopen, if_neg, if_neg]
      · intro hunder
        have heq := hbeside (hunder.trans habove)
        rw [heq] at hunder
        have hlength := Nat.le_antisymm hunder.length_le habove.length_le
        exact hproper (hunder.eq_of_length hlength).symm
      · rintro rfl
        exact hproper (hbeside habove)
    · exact get_insert_of_not_isOpen hopen link above
  constructor
  · intro hopen above habove hproper
    exact (hsame above habove hproper).symm.trans (hopen above habove hproper)
  · intro hopen above habove hproper
    exact (hsame above habove hproper).trans (hopen above habove hproper)

/-- What is found after a removal, whatever stands at the path: everything from it on is gone. -/
theorem kindTreeGet_remove (hpath : path ≠ []) (other : List String) :
    kindTreeGet other (kindTreeRemove path map) =
      if path <+: other then none else kindTreeGet other map := by
  induction path generalizing map other with
  | nil => exact absurd rfl hpath
  | cons key rest ih =>
    have hremoved (below : List String) : kindTreeGet (key :: below) (map.remove key) = none :=
      kindTreeGet_missing (KeyedMap.get_remove_self map key) below
    have hkept {first : String} (hfirst : first ≠ key) (below : List String) :
        kindTreeGet (first :: below) (map.remove key) = kindTreeGet (first :: below) map :=
      kindTreeGet_congr (KeyedMap.get_remove_of_ne map hfirst) below
    have hbeside {first : String} (hfirst : first ≠ key) (below : List String) :
        ¬key :: rest <+: first :: below := fun hunder ↦
      hfirst (List.cons_prefix_cons.mp hunder).1.symm
    cases other with
    | nil =>
      rw [if_neg fun hunder ↦ List.cons_ne_nil key rest (List.prefix_nil.mp hunder)]
      rfl
    | cons first below =>
      by_cases hfirst : first = key
      · subst hfirst
        simp only [List.cons_prefix_cons, true_and]
        cases rest with
        | nil => exact (hremoved below).trans (if_pos List.nil_prefix).symm
        | cons second rest =>
          cases hkey : map.get first with
          | none =>
            simp only [kindTreeRemove, hkey]
            rw [kindTreeGet_missing hkey, ite_self]
          | some node =>
            cases node with
            | leaf found =>
              simp only [kindTreeRemove, hkey]
              by_cases hbelow : below = []
              · subst hbelow
                rw [if_neg fun hunder ↦ List.cons_ne_nil _ _ (List.prefix_nil.mp hunder)]
              · rw [kindTreeGet_leaf hkey hbelow, ite_self]
            | branch inner =>
              simp only [kindTreeRemove, hkey]
              rw [kindTreeGet_branch hkey, ← ih (List.cons_ne_nil _ _)]
              split_ifs with hempty
              · -- nothing is found in a level that is left empty
                have hnone : kindTreeRemove (second :: rest) inner = .empty := by
                  cases hlevel : kindTreeRemove (second :: rest) inner with
                  | mk entries =>
                    rw [hlevel] at hempty
                    exact congrArg KeyedMap.mk (List.isEmpty_iff.mp hempty)
                rw [hremoved, hnone, kindTreeGet_empty]
              · exact kindTreeGet_branch (KeyedMap.get_insert_self _ _ _) below
      · rw [if_neg (hbeside hfirst below)]
        cases rest with
        | nil => exact hkept hfirst below
        | cons second rest =>
          simp only [kindTreeRemove]
          split
          · split_ifs
            · exact hkept hfirst below
            · exact kindTreeGet_congr (KeyedMap.get_insert_of_ne _ _ hfirst) below
          · rfl

/-- What is found after a link was removed. -/
theorem get_remove (h : kindTreeGet path map = some link) (other : List String) :
    kindTreeGet other (kindTreeRemove path map) =
      if other = path then none else kindTreeGet other map := by
  have hpath : path ≠ [] := by
    rintro rfl
    cases h
  rw [kindTreeGet_remove hpath]
  by_cases hother : other = path
  · rw [if_pos hother, if_pos (hother ▸ List.prefix_refl path)]
  · rw [if_neg hother]
    split_ifs with hunder
    · -- there is nothing below a link
      cases hbelow : kindTreeGet other map with
      | none => rfl
      | some found => exact absurd (eq_of_prefix_of_get h hbelow hunder).symm hother
    · rfl

theorem mem_collectEntries {entries : List (String × KindTreeNode Cid)} {node : KindTreeNode Cid}
    {id prior : String} (hentry : (key, node) ∈ entries)
    (hid : id ∈ collectNode node (prior ++ "/" ++ key)) : id ∈ collectEntries entries prior := by
  induction entries with
  | nil => cases hentry
  | cons first rest ih =>
    rcases List.mem_cons.mp hentry with rfl | hrest
    · exact List.mem_append_left _ hid
    · exact List.mem_append_right _ (ih hrest)

theorem protocolId_cons_cons (key second : String) (rest : List String) :
    protocolId (key :: second :: rest) = "/" ++ key ++ protocolId (second :: rest) := by
  simp only [protocolId, String.intercalate_cons_cons, String.append_assoc]

/-- The identifier of a link is listed. -/
theorem mem_collectIds (h : kindTreeGet path map = some link) (prior : String) :
    prior ++ protocolId path ∈ kindTreeCollectIds map prior := by
  have hmem {map : KeyedMap String (KindTreeNode Cid)} {key id : String} {prior : String}
      {node : KindTreeNode Cid} (hkey : map.get key = some node)
      (hid : id ∈ collectNode node (prior ++ "/" ++ key)) : id ∈ kindTreeCollectIds map prior := by
    have hentry := KeyedMap.mem_of_get hkey
    obtain ⟨entries⟩ := map
    exact mem_collectEntries hentry hid
  induction path generalizing map prior with
  | nil => cases h
  | cons key rest ih =>
    cases rest with
    | nil =>
      refine hmem (kindTreeGet_singleton.mp h) ?_
      simp [collectNode, protocolId, String.append_assoc]
    | cons second rest =>
      obtain ⟨inner, hkey, hinner⟩ := exists_branch_of_get h
      have hbelow := ih hinner (prior ++ "/" ++ key)
      rw [protocolId_cons_cons, ← String.append_assoc, ← String.append_assoc]
      exact hmem hkey hbelow

end Levels

end MaRuntime.Kinds

/-! ### The tree of a manifest -/

namespace MaRuntime.Manifest.KindTree

open Kinds

variable {Cid : Type}

def insertProtocol (kinds : KindTree Cid) (protocol : String) (link : IpldLink Cid) :
    KindTree Cid :=
  ⟨kindTreeInsert (segments protocol) kinds.children link⟩

def getProtocol (kinds : KindTree Cid) (protocol : String) : Option (IpldLink Cid) :=
  kindTreeGet (segments protocol) kinds.children

def removeProtocol (kinds : KindTree Cid) (protocol : String) : KindTree Cid :=
  ⟨kindTreeRemove (segments protocol) kinds.children⟩

def protocolIds (kinds : KindTree Cid) : List String := kindTreeCollectIds kinds.children ""

/-- The identifiers of a tree with their links. -/
def iterProtocols (kinds : KindTree Cid) : List (String × IpldLink Cid) :=
  kinds.protocolIds.filterMap fun id ↦ (kinds.getProtocol id).map fun link ↦ (id, link)

variable {kinds : KindTree Cid} {protocol : String} {link : IpldLink Cid}

/-- Texts that are read as the same segments lead to the same link. -/
theorem getProtocol_congr {other : String} (h : segments other = segments protocol) :
    kinds.getProtocol other = kinds.getProtocol protocol := by
  unfold getProtocol
  rw [h]

theorem mem_iterProtocols :
    (protocol, link) ∈ kinds.iterProtocols ↔
      protocol ∈ kinds.protocolIds ∧ kinds.getProtocol protocol = some link := by
  unfold iterProtocols
  rw [List.mem_filterMap]
  constructor
  · rintro ⟨id, hid, hlink⟩
    obtain ⟨found, hfound, heq⟩ := Option.map_eq_some_iff.mp hlink
    obtain ⟨rfl, rfl⟩ := Prod.mk.inj heq
    exact ⟨hid, hfound⟩
  · rintro ⟨hid, hlink⟩
    exact ⟨protocol, hid, Option.map_eq_some_iff.mpr ⟨link, hlink, rfl⟩⟩

/-- Whether no link stands above an identifier. -/
def IsOpenFor (kinds : KindTree Cid) (protocol : String) : Prop :=
  IsOpen kinds.children (segments protocol)

/-- What is found after an identifier was removed. -/
theorem getProtocol_removeProtocol (hlink : kinds.getProtocol protocol = some link)
    (node : String) :
    (kinds.removeProtocol protocol).getProtocol node =
      if segments node = segments protocol then none else kinds.getProtocol node :=
  get_remove hlink _

/-! ### Several links -/

/-- A tree with links put into it one after the other. -/
def insertAll (kinds : KindTree Cid) (links : List (String × IpldLink Cid)) : KindTree Cid :=
  links.foldl (fun kinds entry ↦ kinds.insertProtocol entry.1 entry.2) kinds

/-- Links none of which stands above another one. -/
def Beside (links : List (String × IpldLink Cid)) : Prop :=
  ∀ first ∈ links, ∀ second ∈ links, segments first.1 <+: segments second.1 →
    segments first.1 = segments second.1 ∧ first.2 = second.2

theorem beside_iterProtocols (kinds : KindTree Cid) : Beside kinds.iterProtocols := by
  rintro ⟨first, link⟩ hfirst ⟨second, link'⟩ hsecond hunder
  have hlink := (mem_iterProtocols.mp hfirst).2
  have hlink' := (mem_iterProtocols.mp hsecond).2
  have heq := eq_of_prefix_of_get hlink hlink' hunder
  refine ⟨heq, Option.some.inj (hlink.symm.trans ?_)⟩
  exact (getProtocol_congr heq).trans hlink'

theorem beside_singleton (entry : String × IpldLink Cid) : Beside [entry] := by
  intro first hfirst second hsecond _
  obtain rfl := List.mem_singleton.mp hfirst
  obtain rfl := List.mem_singleton.mp hsecond
  exact ⟨rfl, rfl⟩

theorem Beside.tail {entry : String × IpldLink Cid} {links : List (String × IpldLink Cid)}
    (h : Beside (entry :: links)) : Beside links :=
  fun first hfirst second hsecond ↦
    h first (List.mem_cons_of_mem _ hfirst) second (List.mem_cons_of_mem _ hsecond)

section InsertAll

variable {links : List (String × IpldLink Cid)} {entry : String × IpldLink Cid}

/-- What stands above an identifier stays the same when links are put beside it. -/
theorem isOpenFor_insertAll_iff
    (h : ∀ entry ∈ links, segments entry.1 <+: segments protocol →
      segments entry.1 = segments protocol) :
    IsOpenFor (kinds.insertAll links) protocol ↔ IsOpenFor kinds protocol := by
  induction links generalizing kinds with
  | nil => exact Iff.rfl
  | cons entry rest ih =>
    have hrest : IsOpenFor (insertAll (kinds.insertProtocol entry.1 entry.2) rest) protocol ↔
        IsOpenFor (kinds.insertProtocol entry.1 entry.2) protocol :=
      ih fun other hother ↦ h other (List.mem_cons_of_mem _ hother)
    exact hrest.trans (isOpen_insert_iff (h entry List.mem_cons_self) (segments_ne_nil _))

/-- What is found under an identifier that none of the links stands above or at. -/
theorem getProtocol_insertAll_of_not_under
    (h : ∀ entry ∈ links, ¬segments entry.1 <+: segments protocol) :
    (kinds.insertAll links).getProtocol protocol = kinds.getProtocol protocol := by
  induction links generalizing kinds with
  | nil => rfl
  | cons entry rest ih =>
    have hrest : (insertAll (kinds.insertProtocol entry.1 entry.2) rest).getProtocol protocol =
        (kinds.insertProtocol entry.1 entry.2).getProtocol protocol :=
      ih fun other hother ↦ h other (List.mem_cons_of_mem _ hother)
    refine hrest.trans ?_
    have hnot := h entry List.mem_cons_self
    unfold getProtocol insertProtocol
    by_cases hopen : IsOpen kinds.children (segments entry.1)
    · rw [get_insert (segments_ne_nil _) hopen, if_neg, if_neg hnot]
      intro heq
      exact hnot (heq ▸ List.prefix_refl _)
    · exact get_insert_of_not_isOpen hopen _ _

/-- One of the links is found. -/
theorem getProtocol_insertAll_self (h : Beside links) (hentry : entry ∈ links)
    (hopen : IsOpenFor kinds entry.1) (hprotocol : segments protocol = segments entry.1) :
    (kinds.insertAll links).getProtocol protocol = some entry.2 := by
  induction links generalizing kinds entry with
  | nil => cases hentry
  | cons first rest ih =>
    by_cases hlater : ∃ other ∈ rest, segments other.1 <+: segments protocol
    · obtain ⟨other, hother, hunder⟩ := hlater
      have hmem := List.mem_cons_of_mem first hother
      rw [hprotocol] at hunder
      obtain ⟨heq, hlink⟩ := h other hmem entry hentry hunder
      rw [← hlink]
      refine ih h.tail hother ?_ (hprotocol.trans heq.symm)
      have hbeside := fun hunder ↦ (h first List.mem_cons_self other hmem hunder).1
      refine (isOpen_insert_iff hbeside (segments_ne_nil _)).mpr ?_
      unfold IsOpenFor at hopen
      rwa [heq]
    · have hnot (other : String × IpldLink Cid) (hother : other ∈ rest) :
          ¬segments other.1 <+: segments protocol :=
        fun hunder ↦ hlater ⟨other, hother, hunder⟩
      have hfirst : entry = first := by
        refine (List.mem_cons.mp hentry).resolve_right fun hrest ↦ hnot entry hrest ?_
        exact hprotocol ▸ List.prefix_refl _
      subst hfirst
      refine (getProtocol_insertAll_of_not_under hnot).trans ?_
      unfold getProtocol insertProtocol
      rw [get_insert (segments_ne_nil _) hopen, if_pos hprotocol]

/-- Nothing is found below one of the links. -/
theorem getProtocol_insertAll_below (h : Beside links) (hentry : entry ∈ links)
    (hopen : IsOpenFor kinds entry.1) (hunder : segments entry.1 <+: segments protocol)
    (hne : segments entry.1 ≠ segments protocol) :
    (kinds.insertAll links).getProtocol protocol = none := by
  cases hget : (kinds.insertAll links).getProtocol protocol with
  | none => rfl
  | some link =>
    have hself := getProtocol_insertAll_self h hentry hopen rfl
    exact absurd (eq_of_prefix_of_get hself hget hunder) hne

/-- No link stands above one at or below which something is found afterwards. -/
theorem isOpenFor_of_getProtocol_insertAll (h : Beside links) (hentry : entry ∈ links)
    (hunder : segments entry.1 <+: segments protocol)
    (hlink : (kinds.insertAll links).getProtocol protocol = some link) :
    IsOpenFor kinds entry.1 := by
  have hafter : IsOpenFor (kinds.insertAll links) entry.1 := by
    intro above habove hne
    refine isOpen_of_get hlink above (habove.trans hunder) ?_
    rintro rfl
    exact hne (habove.eq_of_length (Nat.le_antisymm habove.length_le hunder.length_le))
  exact (isOpenFor_insertAll_iff fun other hother hbefore ↦
    (h other hother entry hentry hbefore).1).mp hafter

end InsertAll

/-- A link is listed under its identifier. -/
theorem mem_protocolIds (hid : IsId protocol) (h : kinds.getProtocol protocol = some link) :
    protocol ∈ kinds.protocolIds := by
  have hmem := mem_collectIds h ""
  rwa [hid, String.empty_append] at hmem

end MaRuntime.Manifest.KindTree
