import Mathlib.Data.List.Nodup
import MaRuntime.Kinds.FiniteMap
import MaRuntime.Library.Parsing

/-!
# The listing and the encoding of the tree of kinds

A tree of kinds is written as an object of its children, where a branch is again an object of its
children and a link is an object with the one field `/`. A reader tries every node as a link first
and as a branch after that. A branch would be read as a link if one of its children were found at
the key `/`. No segment has a slash in it, so that no child of a tree that grew by `insert_protocol`
and `remove_protocol` is (`WellKeyed`).

For the same reason a segment ends at the next slash of an identifier, and no identifier is listed
twice.

Main definitions: `encodeTree`, `decodeTree`, `HasOneSlash`, `WellKeyed`.
Main results: `WellKeyed.decodeMap_encodeMap`, `WellKeyed.nodup_collectIds`,
`listing_and_encoding_exact`.

Scope. The entries of an object are written in the order that the model's map has them in, where the
source sorts them by key. A number is kept as its text.
-/

set_option autoImplicit false
set_option relaxedAutoImplicit false

namespace MaRuntime.Kinds

open Manifest Runs

/-! ### Writing and reading -/

/-- A JSON value. An object may have several entries for a key. -/
inductive JsonValue
  | null
  | bool (value : Bool)
  | number (text : String)
  | string (value : String)
  | array (items : List JsonValue)
  | object (entries : List (String × JsonValue))

/-- How `IpldLink` is written. -/
def encodeLink (link : IpldLink String) : JsonValue := .object [("/", .string link.cid)]

mutual

/-- How a map of nodes is written. -/
def encodeMap : KeyedMap String (KindTreeNode String) → JsonValue
  | ⟨entries⟩ => .object (encodeEntries entries)

def encodeEntries : List (String × KindTreeNode String) → List (String × JsonValue)
  | [] => []
  | entry :: rest => encodeEntry entry :: encodeEntries rest

def encodeEntry : String × KindTreeNode String → String × JsonValue
  | (key, node) => (key, encodeNode node)

/-- How `KindTreeNode` is written: as what it holds. -/
def encodeNode : KindTreeNode String → JsonValue
  | .leaf link => encodeLink link
  | .branch inner => encodeMap inner

end

/-- How `KindTree` is written. -/
def encodeTree (kinds : KindTree String) : JsonValue := encodeMap kinds.children

/-- What is read as an `IpldLink`: an object with one field `/`, which holds a text, whatever other
fields it has, or the text alone in an array. -/
def decodeLink : JsonValue → Option (IpldLink String)
  | .object entries =>
    match entries.filter (·.1 == "/") with
    | [(_, .string cid)] => some ⟨cid⟩
    | _ => none
  | .array [.string cid] => some ⟨cid⟩
  | _ => none

mutual

def decodeEntries : List (String × JsonValue) → Option (List (String × KindTreeNode String))
  | [] => some []
  | entry :: rest =>
    match decodeEntry entry, decodeEntries rest with
    | some node, some nodes => some (node :: nodes)
    | _, _ => none

def decodeEntry : String × JsonValue → Option (String × KindTreeNode String)
  | (key, value) => (decodeNode value).map fun node ↦ (key, node)

/-- What is read as a `KindTreeNode`: a link, and otherwise a branch (`decodeNode_eq`). -/
def decodeNode : JsonValue → Option (KindTreeNode String)
  | .object entries =>
    match decodeLink (.object entries) with
    | some link => some (.leaf link)
    | none => (decodeEntries entries).map fun nodes ↦ .branch (.ofEntries nodes)
  | value => (decodeLink value).map .leaf

end

/-- What is read as a map of nodes: an object. -/
def decodeMap : JsonValue → Option (KeyedMap String (KindTreeNode String))
  | .object entries => (decodeEntries entries).map .ofEntries
  | _ => none

/-- What is read as a `KindTree`. -/
def decodeTree (value : JsonValue) : Option (KindTree String) := (decodeMap value).map .mk

theorem decodeNode_eq (value : JsonValue) :
    decodeNode value = ((decodeLink value).map .leaf).or ((decodeMap value).map .branch) := by
  cases value with
  | object entries =>
    unfold decodeNode decodeMap
    cases decodeLink (.object entries) with
    | some link => rfl
    | none => simp [Function.comp_def]
  | _ => simp [decodeNode, decodeMap]

/-! ### The keys of a tree -/

section Levels

variable {Cid : Type} {map inner : KeyedMap String (KindTreeNode Cid)} {key : String}
  {node : KindTreeNode Cid} {path : List String} {link : IpldLink Cid}

/-- A level of a tree with one entry for each key, no key with a slash, and only such levels below
it. -/
inductive WellKeyed : KeyedMap String (KindTreeNode Cid) → Prop
  | intro (map : KeyedMap String (KindTreeNode Cid))
      (hnodup : (map.entries.map Prod.fst).Nodup)
      (hslash : ∀ entry ∈ map.entries, '/' ∉ entry.1.toList)
      (hinner : ∀ entry ∈ map.entries, ∀ inner, entry.2 = .branch inner → WellKeyed inner) :
      WellKeyed map

theorem WellKeyed.nodup (h : WellKeyed map) : (map.entries.map Prod.fst).Nodup := by
  cases h with
  | intro _ hnodup _ _ => exact hnodup

theorem WellKeyed.slash (h : WellKeyed map) {entry : String × KindTreeNode Cid}
    (hentry : entry ∈ map.entries) : '/' ∉ entry.1.toList := by
  cases h with
  | intro _ _ hslash _ => exact hslash entry hentry

theorem WellKeyed.under (h : WellKeyed map) {entry : String × KindTreeNode Cid}
    (hentry : entry ∈ map.entries) (hbranch : entry.2 = .branch inner) : WellKeyed inner := by
  cases h with
  | intro _ _ _ hinner => exact hinner entry hentry inner hbranch

theorem WellKeyed.branch (h : WellKeyed map) (hkey : map.get key = some (.branch inner)) :
    WellKeyed inner :=
  h.under (KeyedMap.mem_of_get hkey) rfl

theorem wellKeyed_empty : WellKeyed (.empty : KeyedMap String (KindTreeNode Cid)) := by
  refine .intro _ List.nodup_nil ?_ ?_
  · intro entry hentry
    cases hentry
  · intro entry hentry
    cases hentry

theorem WellKeyed.remove (h : WellKeyed map) : WellKeyed (map.remove key) := by
  refine .intro _ (KeyedMap.nodup_keys_remove h.nodup key) ?_ ?_
  · intro entry hentry
    exact h.slash (List.mem_filter.mp hentry).1
  · intro entry hentry inner hbranch
    exact h.under (List.mem_filter.mp hentry).1 hbranch

theorem WellKeyed.insert (h : WellKeyed map) (hslash : '/' ∉ key.toList)
    (hnode : ∀ inner, node = .branch inner → WellKeyed inner) :
    WellKeyed (map.insert key node) := by
  refine .intro _ (KeyedMap.nodup_keys_insert h.nodup key node) ?_ ?_
  · intro entry hentry
    rcases List.mem_cons.mp hentry with rfl | hrest
    · exact hslash
    · exact h.remove.slash hrest
  · intro entry hentry inner hbranch
    rcases List.mem_cons.mp hentry with rfl | hrest
    · exact hnode inner hbranch
    · exact h.remove.under hrest hbranch

theorem WellKeyed.insert_branch (h : WellKeyed map) (hslash : '/' ∉ key.toList)
    (hinner : WellKeyed inner) : WellKeyed (map.insert key (.branch inner)) := by
  refine h.insert hslash fun below hbelow ↦ ?_
  obtain rfl := KindTreeNode.branch.inj hbelow
  exact hinner

theorem WellKeyed.kindTreeInsert (h : WellKeyed map)
    (hpath : ∀ segment ∈ path, '/' ∉ segment.toList) (link : IpldLink Cid) :
    WellKeyed (kindTreeInsert path map link) := by
  induction path generalizing map with
  | nil => exact h
  | cons key rest ih =>
    have hkeySlash := hpath key List.mem_cons_self
    have hrest := fun segment hsegment ↦ hpath segment (List.mem_cons_of_mem key hsegment)
    cases rest with
    | nil =>
      refine h.insert hkeySlash fun inner hinner ↦ ?_
      cases hinner
    | cons second rest =>
      unfold Kinds.kindTreeInsert
      cases hkey : map.get key with
      | none => exact h.insert_branch hkeySlash (ih wellKeyed_empty hrest)
      | some node =>
        cases node with
        | leaf found => exact h
        | branch inner => exact h.insert_branch hkeySlash (ih (h.branch hkey) hrest)

theorem WellKeyed.kindTreeRemove (h : WellKeyed map) (path : List String) :
    WellKeyed (kindTreeRemove path map) := by
  induction path generalizing map with
  | nil => exact h
  | cons key rest ih =>
    cases rest with
    | nil => exact h.remove
    | cons second rest =>
      unfold Kinds.kindTreeRemove
      cases hkey : map.get key with
      | none => exact h
      | some node =>
        cases node with
        | leaf found => exact h
        | branch inner =>
          show WellKeyed (if _ then _ else _)
          split_ifs
          · exact h.remove
          · exact h.insert_branch (h.slash (KeyedMap.mem_of_get hkey)) (ih (h.branch hkey))

theorem slash_not_mem_segments {protocol segment : String} (h : segment ∈ segments protocol) :
    '/' ∉ segment.toList := by
  obtain ⟨chars, hchars, rfl⟩ := List.mem_map.mp h
  rw [String.toList_ofList]
  exact not_mem_of_mem_splitOn hchars

/-! ### The listing -/

theorem collectEntries_eq_flatMap (entries : List (String × KindTreeNode Cid)) (prior : String) :
    collectEntries entries prior =
      entries.flatMap fun entry ↦ collectNode entry.2 (prior ++ "/" ++ entry.1) := by
  induction entries with
  | nil => rfl
  | cons entry rest ih =>
    obtain ⟨key, node⟩ := entry
    rw [List.flatMap_cons, ← ih]
    rfl

/-- What a level lists begins with what is before it and a slash. -/
theorem WellKeyed.exists_of_mem_collectIds (h : WellKeyed map) {id prior : String}
    (hid : id ∈ kindTreeCollectIds map prior) :
    ∃ rest, id.toList = prior.toList ++ '/' :: rest := by
  induction h generalizing prior with
  | intro map _ _ _ ih =>
    obtain ⟨⟨key, node⟩, hentry, hnode⟩ := mem_collectIds_iff.mp hid
    cases node with
    | leaf link =>
      obtain rfl := List.mem_singleton.mp hnode
      exact ⟨key.toList, by simp [String.toList_append]⟩
    | branch inner =>
      obtain ⟨rest, hrest⟩ := ih (key, .branch inner) hentry inner rfl hnode
      exact ⟨key.toList ++ '/' :: rest, by simp [hrest, String.toList_append]⟩

/-- What a level lists for one of its keys: the key is all that comes up to the next slash. -/
theorem WellKeyed.takeWhile_of_mem_collectNode (h : WellKeyed map)
    {entry : String × KindTreeNode Cid} (hentry : entry ∈ map.entries) {id prior : String}
    (hid : id ∈ collectNode entry.2 (prior ++ "/" ++ entry.1)) :
    (id.toList.drop (prior.toList.length + 1)).takeWhile (· != '/') = entry.1.toList := by
  obtain ⟨key, node⟩ := entry
  have hkey : key.toList.takeWhile (· != '/') = key.toList := by
    refine List.takeWhile_eq_self_iff.mpr fun c hc ↦ bne_iff_ne.mpr ?_
    rintro rfl
    exact h.slash hentry hc
  have hrest : ∃ rest, id.toList = (prior.toList ++ ['/']) ++ (key.toList ++ rest) ∧
      rest.takeWhile (· != '/') = [] := by
    cases node with
    | leaf link =>
      obtain rfl := List.mem_singleton.mp hid
      exact ⟨[], by simp [String.toList_append], rfl⟩
    | branch inner =>
      obtain ⟨rest, hrest⟩ := (h.under hentry rfl).exists_of_mem_collectIds hid
      exact ⟨'/' :: rest, by simp [hrest, String.toList_append], rfl⟩
  obtain ⟨rest, hid, hnone⟩ := hrest
  have hdrop : id.toList.drop (prior.toList.length + 1) = key.toList ++ rest := by
    rw [hid]
    exact List.drop_left' (by simp)
  rw [hdrop, List.takeWhile_append, hkey, if_pos rfl, hnone, List.append_nil]

/-- No identifier is listed twice. -/
theorem WellKeyed.nodup_collectIds (h : WellKeyed map) (prior : String) :
    (kindTreeCollectIds map prior).Nodup := by
  induction h generalizing prior with
  | intro map hnodup hslash hinner ih =>
    have hmap : WellKeyed map := .intro map hnodup hslash hinner
    have hlist : kindTreeCollectIds map prior =
        map.entries.flatMap fun entry ↦ collectNode entry.2 (prior ++ "/" ++ entry.1) := by
      obtain ⟨entries⟩ := map
      exact collectEntries_eq_flatMap entries prior
    rw [hlist, List.nodup_flatMap]
    constructor
    · rintro ⟨key, node⟩ hentry
      cases node with
      | leaf link => exact List.nodup_singleton _
      | branch inner => exact ih (key, .branch inner) hentry inner rfl _
    · have hkeys := List.pairwise_map.mp hnodup
      refine hkeys.imp_of_mem fun {first second} hfirst hsecond hne ↦ ?_
      -- an identifier under both keys would give the same key up to its next slash
      intro id hid hid'
      have hkey := (hmap.takeWhile_of_mem_collectNode hfirst hid).symm.trans
        (hmap.takeWhile_of_mem_collectNode hsecond hid')
      exact hne (String.toList_inj.mp hkey)

end Levels

/-! ### The round trip -/

theorem decodeLink_encodeLink (link : IpldLink String) :
    decodeLink (encodeLink link) = some link := rfl

/-- An object without a key `/` is not read as a link. -/
theorem decodeLink_encodeMap {map : KeyedMap String (KindTreeNode String)}
    (h : ∀ entry ∈ map.entries, entry.1 ≠ "/") : decodeLink (encodeMap map) = none := by
  obtain ⟨entries⟩ := map
  have hfilter : (encodeEntries entries).filter (·.1 == "/") = [] := by
    induction entries with
    | nil => rfl
    | cons entry rest ih =>
      obtain ⟨key, node⟩ := entry
      have hkey : (key == "/") = false := beq_false_of_ne (h (key, node) List.mem_cons_self)
      have hrest := ih fun entry hentry ↦ h entry (List.mem_cons_of_mem _ hentry)
      simp only [encodeEntries, encodeEntry, List.filter_cons, hkey, Bool.false_eq_true, if_false]
      exact hrest
  simp only [encodeMap, decodeLink, hfilter]

theorem decodeEntries_encodeEntries {entries : List (String × KindTreeNode String)}
    (h : ∀ entry ∈ entries, decodeNode (encodeNode entry.2) = some entry.2) :
    decodeEntries (encodeEntries entries) = some entries := by
  induction entries with
  | nil => rfl
  | cons entry rest ih =>
    obtain ⟨key, node⟩ := entry
    have hnode : decodeNode (encodeNode node) = some node := h (key, node) List.mem_cons_self
    have hrest := ih fun entry hentry ↦ h entry (List.mem_cons_of_mem _ hentry)
    simp only [encodeEntries, encodeEntry, decodeEntries, decodeEntry, hnode, hrest,
      Option.map_some]

/-- A level that is written is read back. -/
theorem WellKeyed.decodeMap_encodeMap {map : KeyedMap String (KindTreeNode String)}
    (h : WellKeyed map) : decodeMap (encodeMap map) = some map := by
  induction h with
  | intro map hnodup _ hinner ih =>
    have hentries : decodeEntries (encodeEntries map.entries) = some map.entries := by
      refine decodeEntries_encodeEntries ?_
      rintro ⟨key, node⟩ hentry
      cases node with
      | leaf link => rfl
      | branch inner =>
        have hbelow := hinner (key, .branch inner) hentry inner rfl
        have hnone : decodeLink (encodeMap inner) = none := by
          refine decodeLink_encodeMap fun entry hentry heq ↦ ?_
          exact hbelow.slash hentry (heq ▸ by decide)
        have hread := ih (key, .branch inner) hentry inner rfl
        have hwrite : encodeNode (.branch inner) = encodeMap inner := rfl
        simp only [hwrite, decodeNode_eq, hnone, hread, Option.map_none, Option.map_some,
          Option.none_or]
    obtain ⟨entries⟩ := map
    simp only [encodeMap, decodeMap, hentries, Option.map_some,
      KeyedMap.ofEntries_of_nodup hnodup]

/-! ### The trees that operations lead to -/

/-- An identifier begins with one slash and no further one. -/
def HasOneSlash (id : String) : Prop := ∃ rest, id.toList = '/' :: rest ∧ rest.head? ≠ some '/'

theorem hasOneSlash_iff {id : String} : HasOneSlash id ↔ IsId id := by
  unfold IsId HasOneSlash
  rw [← String.toList_inj, toList_protocolId_segments]
  constructor
  · rintro ⟨rest, hid, hhead⟩
    rw [hid, List.dropWhile_cons, if_pos (beq_self_eq_true '/'), List.cons.injEq]
    refine ⟨rfl, ?_⟩
    cases rest with
    | nil => rfl
    | cons c rest =>
      have hc : ¬(c == '/') = true := by
        rw [beq_iff_eq]
        rintro rfl
        exact hhead rfl
      rw [List.dropWhile_cons, if_neg hc]
  · intro h
    refine ⟨_, h.symm, fun hhead ↦ ?_⟩
    have hnot := List.head?_dropWhile_not (· == '/') id.toList
    rw [hhead] at hnot
    cases hnot

theorem wellKeyed_of_run {Cid : Type} {ops : List (KindTreeOp Cid)} {kinds : KindTree Cid}
    (h : Run kindTreeStep ⟨.empty⟩ ops kinds) : WellKeyed kinds.children := by
  refine h.invariant (fun kinds ↦ WellKeyed kinds.children) ?_ wellKeyed_empty
  intro kinds op next hkinds _ hstep
  cases op with
  | insertProtocol protocol link =>
    obtain rfl := Option.some.inj hstep
    exact hkinds.kindTreeInsert (fun _ ↦ slash_not_mem_segments) link
  | removeProtocol protocol =>
    obtain rfl := Option.some.inj hstep
    exact hkinds.kindTreeRemove _

theorem map_fst_iterProtocols {Cid : Type} (kinds : KindTree Cid) :
    kinds.iterProtocols.map Prod.fst =
      kinds.protocolIds.filter fun id ↦ (kinds.getProtocol id).isSome := by
  unfold KindTree.iterProtocols
  induction kinds.protocolIds with
  | nil => rfl
  | cons id rest ih =>
    cases hlink : kinds.getProtocol id with
    | none => simpa [List.filterMap_cons, hlink] using ih
    | some link => simpa [List.filterMap_cons, hlink] using ih

/-- Of every tree that operations lead to, the listing has each identifier once and with its link,
no branch is empty, and what is written is read back. -/
theorem listing_and_encoding_exact {ops : List (KindTreeOp String)} {kinds : KindTree String}
    (h : Run kindTreeStep ⟨.empty⟩ ops kinds) :
    (kinds.iterProtocols.map Prod.fst).Nodup ∧
      (∀ id link, (id, link) ∈ kinds.iterProtocols ↔
        HasOneSlash id ∧ kinds.getProtocol id = some link) ∧
      Stocked kinds.children ∧ decodeTree (encodeTree kinds) = some kinds := by
  have hkeyed := wellKeyed_of_run h
  refine ⟨?_, fun id link ↦ ?_, (grown_of_run h).stocked, ?_⟩
  · rw [map_fst_iterProtocols]
    exact (hkeyed.nodup_collectIds "").filter _
  · rw [KindTree.mem_iterProtocols, hasOneSlash_iff]
    constructor
    · rintro ⟨hid, hlink⟩
      exact ⟨isId_of_run h hid, hlink⟩
    · rintro ⟨hid, hlink⟩
      exact ⟨KindTree.mem_protocolIds hid hlink, hlink⟩
  · rw [decodeTree, encodeTree, hkeyed.decodeMap_encodeMap]
    rfl

/-- A tree that had two kinds, of which one is left. -/
def avatarTree : KindTree String :=
  ((KindTree.insertProtocol ⟨.empty⟩ "/ma/room/0.0.1" ⟨"bafyroom"⟩).insertProtocol
    "//ma/avatar" ⟨"bafyavatar"⟩).removeProtocol "ma/room/0.0.1"

theorem listing_and_encoding_exact_avatarTree :
    (avatarTree.iterProtocols.map Prod.fst).Nodup ∧
      (∀ id link, (id, link) ∈ avatarTree.iterProtocols ↔
        HasOneSlash id ∧ avatarTree.getProtocol id = some link) ∧
      Stocked avatarTree.children ∧ decodeTree (encodeTree avatarTree) = some avatarTree := by
  have hrun : Run kindTreeStep ⟨.empty⟩
      [.insertProtocol "/ma/room/0.0.1" ⟨"bafyroom"⟩, .insertProtocol "//ma/avatar" ⟨"bafyavatar"⟩,
        .removeProtocol "ma/room/0.0.1"] avatarTree :=
    run_of_execute rfl
  exact listing_and_encoding_exact hrun

end MaRuntime.Kinds
