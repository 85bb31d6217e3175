import Mathlib.Data.List.Basic
import Mathlib.Tactic.SplitIfs

/-!
# Maps with keys and values

`KeyedMap` is a map held as a plain list of entries, the newest entry of a key first. It carries no
proof about its entries, so a document that is identified by its own content can nest through it.

The operations are `get`, `insert`, `remove`, `retain`, `filterMap`, `traverse`, `insertEach` and
`insertMissing`; a reader needs only what `get` answers after the other ones (`get_insert`,
`get_remove`, `get_retain`, `get_filterMap`, `get_traverse`, `get_insertEach_of_mem`). A map is made
of a list of entries by `ofEntries`; it is that list when no key is repeated (`ofEntries_of_nodup`).
-/

set_option autoImplicit false
set_option relaxedAutoImplicit false

namespace MaRuntime

/-- A finite map from keys to values. -/
structure KeyedMap (Key Value : Type*) where
  entries : List (Key × Value)
deriving DecidableEq

namespace KeyedMap

variable {Key Value : Type*} [DecidableEq Key]

/-- The map without entries. -/
def empty : KeyedMap Key Value := ⟨[]⟩

/-- The value at a key. -/
def get (map : KeyedMap Key Value) (key : Key) : Option Value :=
  map.entries.lookup key

/-- The map without the entry of a key. -/
def remove (map : KeyedMap Key Value) (key : Key) : KeyedMap Key Value :=
  ⟨map.entries.filter fun entry ↦ entry.1 ≠ key⟩

/-- The map with a value at a key, in place of the value it had there. -/
def insert (map : KeyedMap Key Value) (key : Key) (value : Value) : KeyedMap Key Value :=
  ⟨(key, value) :: (map.remove key).entries⟩

/-- The map of the entries whose keys are kept. -/
def retain (keep : Key → Bool) (map : KeyedMap Key Value) : KeyedMap Key Value :=
  ⟨map.entries.filter fun entry ↦ keep entry.1⟩

/-- The map of what a function makes of the entries, without those it makes nothing of. -/
def filterMap {Result : Type*} (f : Key → Value → Option Result) (map : KeyedMap Key Value) :
    KeyedMap Key Result :=
  map.entries.foldr (fun entry made ↦
    match f entry.1 entry.2 with
    | some result => made.insert entry.1 result
    | none => made.remove entry.1) empty

/-- The map of what a function that may fail makes of the values of some keys. -/
def traverseKeys {Reason Result : Type*} (f : Key → Value → Except Reason Result)
    (map : KeyedMap Key Value) : List Key → Except Reason (KeyedMap Key Result)
  | [] => .ok empty
  | key :: rest =>
    match map.get key with
    | none => traverseKeys f map rest
    | some value =>
      match f key value with
      | .error reason => .error reason
      | .ok result => (traverseKeys f map rest).map fun made ↦ made.insert key result

/-- The map of what a function that may fail makes of the entries. -/
def traverse {Reason Result : Type*} (f : Key → Value → Except Reason Result)
    (map : KeyedMap Key Value) : Except Reason (KeyedMap Key Result) :=
  traverseKeys f map (map.entries.map Prod.fst)

/-- The map with a value at a key, if there is one. -/
def insertSome (map : KeyedMap Key Value) (key : Key) : Option Value → KeyedMap Key Value
  | some value => map.insert key value
  | none => map

/-- The map with the values of some items put in, of those that have one. -/
def insertEach {Item : Type*} (key : Item → Key) (value : Item → Option Value)
    (items : List Item) (map : KeyedMap Key Value) : KeyedMap Key Value :=
  items.foldl (fun map item ↦ map.insertSome (key item) (value item)) map

/-- The map with the default values of the keys that have none. -/
def insertMissing (default : Key → Option Value) (keys : List Key) (map : KeyedMap Key Value) :
    KeyedMap Key Value :=
  keys.foldl (fun map key ↦
    if (map.get key).isSome then map else map.insertSome key (default key)) map

/-- The map of a list of entries, in which a later entry takes the place of an earlier one. -/
def ofEntries (entries : List (Key × Value)) : KeyedMap Key Value :=
  ⟨entries.foldr (fun entry rest ↦
    if entry.1 ∈ rest.map Prod.fst then rest else entry :: rest) []⟩

@[simp] theorem get_empty (key : Key) : (empty : KeyedMap Key Value).get key = none := rfl

theorem mem_of_get {map : KeyedMap Key Value} {key : Key} {value : Value}
    (h : map.get key = some value) : (key, value) ∈ map.entries := by
  obtain ⟨front, back, hsplit, -⟩ := List.lookup_eq_some_iff.mp h
  rw [hsplit]
  exact List.mem_append_right _ List.mem_cons_self

theorem exists_get_of_mem_keys {map : KeyedMap Key Value} {key : Key}
    (h : key ∈ map.entries.map Prod.fst) : ∃ value, map.get key = some value := by
  obtain ⟨⟨head, value⟩, hmem, rfl⟩ := List.mem_map.mp h
  refine Option.ne_none_iff_exists'.mp fun hnone ↦ ?_
  exact bne_iff_ne.mp (List.lookup_eq_none_iff.mp hnone _ hmem) rfl

theorem get_remove (map : KeyedMap Key Value) (key other : Key) :
    (map.remove key).get other = if other = key then none else map.get other := by
  obtain ⟨entries⟩ := map
  simp only [get, remove]
  induction entries with
  | nil => simp
  | cons entry rest ih =>
    obtain ⟨head, value⟩ := entry
    by_cases hhead : head = key
    · subst hhead
      by_cases hother : other = head
      · simpa [hother] using ih
      · simpa [hother, List.lookup_cons, beq_false_of_ne hother] using ih
    · by_cases hother : other = head
      · subst hother
        simp [hhead]
      · simpa [hhead, List.lookup_cons, beq_false_of_ne hother] using ih

theorem get_insert (map : KeyedMap Key Value) (key other : Key) (value : Value) :
    (map.insert key value).get other = if other = key then some value else map.get other := by
  by_cases hother : other = key
  · subst hother
    simp [get, insert]
  · have hremove := get_remove map key other
    simp only [get, insert, List.lookup_cons, beq_false_of_ne hother, hother, if_false] at hremove ⊢
    exact hremove

@[simp] theorem get_insert_self (map : KeyedMap Key Value) (key : Key) (value : Value) :
    (map.insert key value).get key = some value := by
  rw [get_insert, if_pos rfl]

theorem get_insert_of_ne (map : KeyedMap Key Value) {key other : Key} (value : Value)
    (h : other ≠ key) : (map.insert key value).get other = map.get other := by
  rw [get_insert, if_neg h]

@[simp] theorem get_remove_self (map : KeyedMap Key Value) (key : Key) :
    (map.remove key).get key = none := by
  rw [get_remove, if_pos rfl]

theorem get_remove_of_ne (map : KeyedMap Key Value) {key other : Key} (h : other ≠ key) :
    (map.remove key).get other = map.get other := by
  rw [get_remove, if_neg h]

/-- The value at a key after an insertion is the one inserted, or one that was there under another
key. -/
theorem get_insert_eq_some_iff {map : KeyedMap Key Value} {key other : Key} {value found : Value} :
    (map.insert key value).get other = some found ↔
      (other = key ∧ found = value) ∨ (other ≠ key ∧ map.get other = some found) := by
  by_cases hother : other = key
  · subst hother
    simp [eq_comm]
  · simp [get_insert_of_ne map value hother, hother]

theorem get_remove_eq_some_iff {map : KeyedMap Key Value} {key other : Key} {found : Value} :
    (map.remove key).get other = some found ↔ other ≠ key ∧ map.get other = some found := by
  by_cases hother : other = key
  · subst hother
    simp
  · simp [get_remove_of_ne map hother, hother]

theorem get_retain (keep : Key → Bool) (map : KeyedMap Key Value) (key : Key) :
    (map.retain keep).get key = if keep key then map.get key else none := by
  obtain ⟨entries⟩ := map
  simp only [get, retain]
  induction entries with
  | nil => simp
  | cons entry rest ih =>
    obtain ⟨head, value⟩ := entry
    by_cases hkey : key = head
    · subst hkey
      cases hkeep : keep key with
      | true => simp [hkeep]
      | false => simpa [hkeep] using ih
    · cases hkeep : keep head with
      | true => simpa [hkeep, List.lookup_cons, beq_false_of_ne hkey] using ih
      | false => simpa [hkeep, List.lookup_cons, beq_false_of_ne hkey] using ih

theorem get_filterMap {Result : Type*} (f : Key → Value → Option Result)
    (map : KeyedMap Key Value) (key : Key) :
    (map.filterMap f).get key = (map.get key).bind (f key) := by
  obtain ⟨entries⟩ := map
  induction entries with
  | nil => rfl
  | cons entry rest ih =>
    obtain ⟨head, value⟩ := entry
    have hrest : (filterMap f ⟨(head, value) :: rest⟩ : KeyedMap Key Result) =
        match f head value with
        | some result => (filterMap f ⟨rest⟩).insert head result
        | none => (filterMap f ⟨rest⟩).remove head := rfl
    rw [hrest]
    by_cases hkey : key = head
    · subst hkey
      cases hmade : f key value with
      | some result => simp [get, hmade, insert]
      | none => simpa [get, hmade] using get_remove_self (filterMap f ⟨rest⟩) key
    · have hlookup : get (⟨(head, value) :: rest⟩ : KeyedMap Key Value) key = get ⟨rest⟩ key := by
        simp [get, List.lookup_cons, beq_false_of_ne hkey]
      rw [hlookup, ← ih]
      cases f head value with
      | some result => exact get_insert_of_ne _ _ hkey
      | none => exact get_remove_of_ne _ hkey

section Traverse

variable {Reason Result : Type*} {f : Key → Value → Except Reason Result} {map : KeyedMap Key Value}

theorem mem_keys_iff {key : Key} :
    key ∈ map.entries.map Prod.fst ↔ ∃ value, map.get key = some value := by
  constructor
  · exact exists_get_of_mem_keys
  · rintro ⟨value, hvalue⟩
    exact List.mem_map_of_mem (mem_of_get hvalue)

theorem get_traverseKeys {keys : List Key} {made : KeyedMap Key Result}
    (h : traverseKeys f map keys = .ok made) (key : Key) :
    (made.get key).map .ok = if key ∈ keys then (map.get key).map (f key) else none := by
  induction keys generalizing made with
  | nil =>
    obtain rfl := Except.ok.inj h
    rfl
  | cons first rest ih =>
    unfold traverseKeys at h
    cases hvalue : map.get first with
    | none =>
      rw [hvalue] at h
      rw [ih h]
      by_cases hkey : key = first
      · simp [hkey, hvalue]
      · simp [hkey]
    | some value =>
      rw [hvalue] at h
      cases hresult : f first value with
      | error reason => simp [hresult] at h
      | ok result =>
        cases hrest : traverseKeys f map rest with
        | error reason => simp [hresult, hrest, Except.map] at h
        | ok others =>
          simp only [hresult, hrest, Except.map, Except.ok.injEq] at h
          obtain rfl := h
          by_cases hkey : key = first
          · subst hkey
            simp [hvalue, hresult]
          · rw [get_insert_of_ne _ _ hkey, ih hrest]
            simp [hkey]

/-- Each value of the map that is made is what the function makes of a value, and each value of the
map that it is made of gives one. -/
theorem get_traverse {made : KeyedMap Key Result} (h : map.traverse f = .ok made) (key : Key) :
    (made.get key).map .ok = (map.get key).map (f key) := by
  rw [get_traverseKeys h key]
  split_ifs with hkey
  · rfl
  · rw [mem_keys_iff] at hkey
    rw [Option.eq_none_iff_forall_ne_some.mpr fun value hvalue ↦ hkey ⟨value, hvalue⟩]
    rfl

theorem exists_traverseKeys {keys : List Key}
    (h : ∀ key value, map.get key = some value → ∃ result, f key value = .ok result) :
    ∃ made, traverseKeys f map keys = .ok made := by
  induction keys with
  | nil => exact ⟨empty, rfl⟩
  | cons first rest ih =>
    obtain ⟨others, hothers⟩ := ih
    unfold traverseKeys
    cases hvalue : map.get first with
    | none => exact ⟨others, hothers⟩
    | some value =>
      obtain ⟨result, hresult⟩ := h first value hvalue
      exact ⟨others.insert first result, by simp [hresult, hothers, Except.map]⟩

/-- A map is made if and only if the function fails for no entry. -/
theorem exists_traverse_iff :
    (∃ made, map.traverse f = .ok made) ↔
      ∀ key value, map.get key = some value → ∃ result, f key value = .ok result := by
  constructor
  · rintro ⟨made, hmade⟩ key value hvalue
    have hget := get_traverse hmade key
    rw [hvalue, Option.map_some] at hget
    obtain ⟨result, -, hresult⟩ := Option.map_eq_some_iff.mp hget
    exact ⟨result, hresult.symm⟩
  · exact exists_traverseKeys

end Traverse

theorem get_insertSome_self (map : KeyedMap Key Value) (key : Key) (value : Option Value) :
    (map.insertSome key value).get key = value.or (map.get key) := by
  cases value with
  | none => rfl
  | some value => exact get_insert_self map key value

theorem get_insertSome_of_ne (map : KeyedMap Key Value) {key other : Key} (value : Option Value)
    (h : other ≠ key) : (map.insertSome key value).get other = map.get other := by
  cases value with
  | none => rfl
  | some value => exact get_insert_of_ne map value h

theorem get_insertMissing_of_not_mem {default : Key → Option Value} {keys : List Key}
    {map : KeyedMap Key Value} {other : Key} (h : other ∉ keys) :
    (insertMissing default keys map).get other = map.get other := by
  induction keys generalizing map with
  | nil => rfl
  | cons key rest ih =>
    rw [List.mem_cons, not_or] at h
    refine (ih h.2).trans ?_
    beta_reduce
    split_ifs
    · rfl
    · exact get_insertSome_of_ne map _ h.1

section InsertEach

variable {Item : Type*} {key : Item → Key} {value : Item → Option Value} {items : List Item}
  {map : KeyedMap Key Value} {other : Key}

theorem get_insertEach_of_not_mem (h : ∀ item ∈ items, key item ≠ other) :
    (insertEach key value items map).get other = map.get other := by
  induction items generalizing map with
  | nil => rfl
  | cons item rest ih =>
    refine (ih fun later hlater ↦ h later (List.mem_cons_of_mem _ hlater)).trans ?_
    exact get_insertSome_of_ne map _ (h item List.mem_cons_self).symm

/-- Items with one key have one value: it is what is found there, if there is one. -/
theorem get_insertEach_of_mem {result : Option Value}
    (hsame : ∀ item ∈ items, key item = other → value item = result)
    (hmem : ∃ item ∈ items, key item = other) :
    (insertEach key value items map).get other = result.or (map.get other) := by
  induction items generalizing map with
  | nil =>
    obtain ⟨item, hitem, -⟩ := hmem
    cases hitem
  | cons item rest ih =>
    have hrest := fun later hlater ↦ hsame later (List.mem_cons_of_mem item hlater)
    have hfirst (hkey : key item = other) :
        (map.insertSome (key item) (value item)).get other = result.or (map.get other) := by
      rw [hsame item List.mem_cons_self hkey, hkey]
      exact get_insertSome_self map other result
    by_cases hlater : ∃ later ∈ rest, key later = other
    · refine (ih hrest hlater).trans ?_
      by_cases hkey : key item = other
      · rw [hfirst hkey]
        cases result with
        | none => rfl
        | some found => rfl
      · rw [get_insertSome_of_ne map _ (Ne.symm hkey)]
    · refine (get_insertEach_of_not_mem fun later hmemLater hkey ↦
        hlater ⟨later, hmemLater, hkey⟩).trans ?_
      obtain ⟨found, hfound, hkey⟩ := hmem
      rcases List.mem_cons.mp hfound with rfl | hfoundRest
      · exact hfirst hkey
      · exact absurd ⟨found, hfoundRest, hkey⟩ hlater

end InsertEach

section Keys

variable {map : KeyedMap Key Value} {key other : Key} {value : Value}

theorem ofEntries_of_nodup {entries : List (Key × Value)}
    (h : (entries.map Prod.fst).Nodup) : ofEntries entries = ⟨entries⟩ := by
  induction entries with
  | nil => rfl
  | cons entry rest ih =>
    obtain ⟨hfirst, hrest⟩ := List.nodup_cons.mp h
    have hkept := congrArg KeyedMap.entries (ih hrest)
    simp only [ofEntries] at hkept ⊢
    rw [List.foldr_cons, hkept, if_neg hfirst]

theorem nodup_keys_remove (h : (map.entries.map Prod.fst).Nodup) (key : Key) :
    ((map.remove key).entries.map Prod.fst).Nodup :=
  h.sublist (List.filter_sublist.map Prod.fst)

theorem nodup_keys_insert (h : (map.entries.map Prod.fst).Nodup) (key : Key) (value : Value) :
    ((map.insert key value).entries.map Prod.fst).Nodup := by
  refine List.nodup_cons.mpr ⟨?_, nodup_keys_remove h key⟩
  intro hmem
  obtain ⟨found, hfound⟩ := exists_get_of_mem_keys hmem
  rw [get_remove_self] at hfound
  cases hfound

end Keys

end KeyedMap

end MaRuntime
