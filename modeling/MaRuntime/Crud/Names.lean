import MaRuntime.Dispatch.Delivery
import MaRuntime.Library.Parsing
import MaRuntime.Plugin.Worker

/-!
# Names of entities and their addresses

An entity is read and deleted at the path `/entities/` with its name, and messaged at the runtime's
DID with its name as the fragment. Names come from guests, checked by `validate_entity_fragment`,
and from the paths of CRUD upserts, checked by the handler. The first check lets a name have a `/`,
where the path is cut; the second lets it have a `#`, which the first refuses.

Main definitions: `parsePath`, `Accepted`, `NamesAddressable`.
Main results: `parsePath_entities_iff`, `namesAddressable_iff`.

Scope. `Did::try_from` comes with another crate and is a parameter; the base of a DID has no `#`.
-/

set_option autoImplicit false
set_option relaxedAutoImplicit false

namespace MaRuntime.Crud

open Dispatch Plugin

/-! ### Paths -/

/-- The namespace of a request's path and the segments behind it. -/
def parsePath (path : String) : Except String (String × List String) :=
  match stripPrefix "/" path with
  | none => .error ("CRUD path must start with '/' — got: " ++ path)
  | some body =>
    let (ns, rest) := (splitOnce '/' body).getD (body, "")
    if ns.isEmpty then .error ("CRUD path has no handler segment: " ++ path)
    else .ok (ns, nonemptyParts '/' rest)

/-- The path of the entity with this name. -/
def entityPath (name : String) : String := "/entities/" ++ name

theorem parsePath_entityPath (name : String) :
    parsePath (entityPath name) = .ok ("entities", nonemptyParts '/' name) := by
  have hprefix : stripPrefix "/" (entityPath name) = some ("entities/" ++ name) := by
    rw [stripPrefix_eq_some_iff, entityPath, ← String.append_assoc]
    rfl
  have hsplit : splitOnce '/' ("entities/" ++ name) = some ("entities", name) := by
    rw [splitOnce_eq_some_iff, String.toList_append]
    exact ⟨rfl, by decide⟩
  simp only [parsePath, hprefix, hsplit, Option.getD_some]
  rfl

/-- A name is the one segment of its entity's path if and only if it is a segment at all. -/
theorem parsePath_entities_iff {name : String} :
    parsePath (entityPath name) = .ok ("entities", [name]) ↔ name ≠ "" ∧ '/' ∉ name.toList := by
  rw [parsePath_entityPath, ← nonemptyParts_eq_singleton_iff]
  simp

theorem of_mem_parsePath {path ns name : String} {rest : List String}
    (h : parsePath path = .ok (ns, rest)) (hname : name ∈ rest) :
    name ≠ "" ∧ '/' ∉ name.toList := by
  unfold parsePath at h
  split at h
  · cases h
  · simp only at h
    split_ifs at h
    obtain ⟨-, hrest⟩ := Prod.mk.inj (Except.ok.inj h)
    exact of_mem_nonemptyParts (hrest ▸ hname)

/-- A path has its namespace and the segments behind it, whatever the number of slashes between
them. -/
theorem nonemptyParts_of_parsePath {path ns : String} {rest : List String}
    (h : parsePath path = .ok (ns, rest)) : nonemptyParts '/' path = ns :: rest := by
  unfold parsePath at h
  cases hbody : stripPrefix "/" path with
  | none =>
    rw [hbody] at h
    cases h
  | some body =>
    simp only [hbody] at h
    split_ifs at h with hempty
    obtain ⟨rfl, rfl⟩ := Prod.mk.inj (Except.ok.inj h)
    have hslash : splitOnce '/' path = some ("", body) := by
      rw [splitOnce_eq_some_iff, stripPrefix_eq_some_iff.mp hbody, String.toList_append]
      exact ⟨rfl, List.not_mem_nil⟩
    have hbehind : nonemptyParts '/' path = nonemptyParts '/' body :=
      nonemptyParts_of_splitOnce hslash
    rw [hbehind]
    rw [String.isEmpty_iff] at hempty
    cases hsplit : splitOnce '/' body with
    | none =>
      rw [hsplit, Option.getD_none] at hempty
      exact nonemptyParts_eq_singleton_iff.mpr ⟨hempty, splitOnce_eq_none_iff.mp hsplit⟩
    | some parts =>
      rw [hsplit, Option.getD_some] at hempty
      have hfront : [parts.1].filter (· ≠ "") = [parts.1] :=
        List.filter_cons_of_pos (decide_eq_true hempty)
      rw [nonemptyParts_of_splitOnce hsplit, hfront]
      rfl

/-! ### The checks of a name -/

/-- What a CRUD upsert asks of the name that its path has. -/
def checkUpsertName (name : String) : Except String Unit :=
  if name.toList.any isControl then .error "entity-name-invalid"
  else if reservedEntityNames.contains name then .error "reserved-entity-name"
  else .ok ()

/-- A CRUD upsert at some path goes on with this name. -/
def UpsertAccepts (name : String) : Prop :=
  (∃ path, parsePath path = .ok ("entities", [name])) ∧ checkUpsertName name = .ok ()

/-- A name with which an entity can be created, by a guest or by a CRUD upsert. -/
def Accepted (name : String) : Prop :=
  validateEntityFragment name = .ok () ∨ UpsertAccepts name

theorem checkUpsertName_eq_ok_iff {name : String} :
    checkUpsertName name = .ok () ↔
      name.toList.any isControl = false ∧ name ∉ reservedEntityNames := by
  unfold checkUpsertName
  split_ifs with hcontrol hreserved
  · simp [hcontrol]
  · simpa using fun _ ↦ hreserved
  · exact iff_of_true rfl ⟨Bool.eq_false_iff.mpr hcontrol, by simpa using hreserved⟩

theorem validateEntityFragment_eq_ok_iff {name : String} :
    validateEntityFragment name = .ok () ↔
      name ≠ "" ∧ '#' ∉ name.toList ∧ checkUpsertName name = .ok () := by
  rw [checkUpsertName_eq_ok_iff]
  unfold validateEntityFragment
  split_ifs with hinvalid hhash hreserved
  · refine iff_of_false (by simp) ?_
    rintro ⟨hne, -, hcontrol, -⟩
    simp [hne, hcontrol] at hinvalid
  · refine iff_of_false (by simp) ?_
    rintro ⟨-, hmem, -⟩
    exact hmem (List.contains_iff_mem.mp hhash)
  · refine iff_of_false (by simp) ?_
    rintro ⟨-, -, -, hmem⟩
    exact hmem (List.contains_iff_mem.mp hreserved)
  · rw [Bool.or_eq_true, not_or] at hinvalid
    exact iff_of_true rfl ⟨by simpa using hinvalid.1, by simpa using hhash,
      Bool.eq_false_iff.mpr hinvalid.2, by simpa using hreserved⟩

theorem UpsertAccepts.segment {name : String} (h : UpsertAccepts name) :
    name ≠ "" ∧ '/' ∉ name.toList := by
  obtain ⟨⟨path, hpath⟩, -⟩ := h
  exact of_mem_parsePath hpath (List.mem_singleton_self name)

theorem Accepted.ne_empty {name : String} (h : Accepted name) : name ≠ "" := by
  rcases h with hcreate | hupsert
  · exact (validateEntityFragment_eq_ok_iff.mp hcreate).1
  · exact hupsert.segment.1

/-! ### Addresses -/

section Addresses

variable (parseDid : String → Option Did) (ourDid : String)

/-- Every one of these names leads to its entity, on paths and in DID-URLs, no two of them share an
address, and those that an upsert goes on with pass the check of a guest's names. -/
structure NamesAddressable (names : Set String) : Prop where
  path : ∀ name ∈ names, parsePath (entityPath name) = .ok ("entities", [name])
  checked : ∀ name ∈ names, UpsertAccepts name → validateEntityFragment name = .ok ()
  url : ∀ name ∈ names, splitOnce '#' (localActorUrl parseDid ourDid name) =
    some (localBaseDid parseDid ourDid, name)
  path_ne : ∀ first ∈ names, ∀ second ∈ names, first ≠ second →
    parsePath (entityPath first) ≠ parsePath (entityPath second)
  url_ne : ∀ first ∈ names, ∀ second ∈ names, first ≠ second →
    localActorUrl parseDid ourDid first ≠ localActorUrl parseDid ourDid second

variable {parseDid ourDid} {names : Set String}

theorem splitOnce_localActorUrl (hbase : '#' ∉ (localBaseDid parseDid ourDid).toList)
    (name : String) :
    splitOnce '#' (localActorUrl parseDid ourDid name) =
      some (localBaseDid parseDid ourDid, name) := by
  rw [splitOnce_eq_some_iff, localActorUrl, String.toList_append, String.toList_append,
    List.append_assoc]
  exact ⟨rfl, hbase⟩

theorem localActorUrl_injective : Function.Injective (localActorUrl parseDid ourDid) := by
  intro first second h
  exact (String.append_right_inj (localBaseDid parseDid ourDid ++ "#")).mp h

/-- Names that entities are created with are addressable if and only if none of them has a `/` or
a `#`. -/
theorem namesAddressable_iff
    (hbase : ∀ text did, parseDid text = some did → '#' ∉ did.base.toList)
    (hours : (parseDid ourDid).isSome) (hnames : ∀ name ∈ names, Accepted name) :
    NamesAddressable parseDid ourDid names ↔
      ∀ name ∈ names, '/' ∉ name.toList ∧ '#' ∉ name.toList := by
  have hour : '#' ∉ (localBaseDid parseDid ourDid).toList := by
    obtain ⟨did, hdid⟩ := Option.isSome_iff_exists.mp hours
    simpa only [localBaseDid, hdid] using hbase ourDid did hdid
  constructor
  · intro h name hname
    refine ⟨(parsePath_entities_iff.mp (h.path name hname)).2, ?_⟩
    rcases hnames name hname with hcreate | hupsert
    · exact (validateEntityFragment_eq_ok_iff.mp hcreate).2.1
    · exact (validateEntityFragment_eq_ok_iff.mp (h.checked name hname hupsert)).2.1
  · intro h
    have hpath (name : String) (hname : name ∈ names) :
        parsePath (entityPath name) = .ok ("entities", [name]) :=
      parsePath_entities_iff.mpr ⟨(hnames name hname).ne_empty, (h name hname).1⟩
    refine ⟨hpath, ?_, fun name _ ↦ splitOnce_localActorUrl hour name, ?_, ?_⟩
    · intro name hname hupsert
      exact validateEntityFragment_eq_ok_iff.mpr ⟨hupsert.segment.1, (h name hname).2, hupsert.2⟩
    · intro first hfirst second hsecond hne heq
      rw [hpath first hfirst, hpath second hsecond] at heq
      simp [hne] at heq
    · intro first _ second _ hne heq
      exact hne (localActorUrl_injective heq)

end Addresses

theorem not_mem_base_parseDidUrl {url : String} {did : Did} (h : parseDidUrl url = some did) :
    '#' ∉ did.base.toList := by
  unfold parseDidUrl at h
  split at h
  · rename_i base fragment hsplit
    obtain rfl := Option.some.inj h
    exact (splitOnce_eq_some_iff.mp hsplit).2
  · rename_i hsplit
    obtain rfl := Option.some.inj h
    exact splitOnce_eq_none_iff.mp hsplit

theorem namesAddressable_iff_room :
    NamesAddressable parseDidUrl "did:ma:us" {"room"} ↔
      ∀ name ∈ ({"room"} : Set String), '/' ∉ name.toList ∧ '#' ∉ name.toList := by
  refine namesAddressable_iff (fun _ _ ↦ not_mem_base_parseDidUrl) rfl fun name hname ↦ .inl ?_
  rw [Set.mem_singleton_iff.mp hname]
  rfl

/-- A guest may create `a/b`, whose path names the field `b` of `a`; an upsert goes on with `a#b`,
which a guest may not create. -/
theorem accepted_not_addressable :
    Accepted "a/b" ∧ parsePath (entityPath "a/b") = .ok ("entities", ["a", "b"]) ∧
      UpsertAccepts "a#b" ∧
      validateEntityFragment "a#b" = .error "entity fragment must not contain '#'" ∧
      ¬NamesAddressable parseDidUrl "did:ma:us" {name | Accepted name} := by
  have haccepted : Accepted "a/b" := .inl rfl
  refine ⟨haccepted, rfl, ⟨⟨"/entities/a#b", rfl⟩, rfl⟩, rfl, ?_⟩
  intro h
  exact (parsePath_entities_iff.mp (h.path "a/b" haccepted)).2 (by decide)

end MaRuntime.Crud
