import Mathlib.Data.List.TakeWhile
import Mathlib.Data.Set.Finite.Basic
import MaRuntime.Acl.CheckFull
import MaRuntime.Library.KeyedMap
import MaRuntime.Library.Parsing

/-!
# Grants to owners

The owners of a runtime are a list of texts (`isOwner`), and `grant_owners_in_acl` gives each of
them every capability in the root ACL (`grantOwners`). Groups of an ACL are looked up in a cache
(`resolveGroup`).

`DocumentedAcl` is what is documented of `normalize_principal` and `check_cap` for callers that are
DIDs: the fragment is taken off, and a capability is looked up in the entry of the caller, or in
that of the wildcard if the caller has none. Under it, `isOk_checkFull_iff_of_did` says which calls
of `check_full` succeed, and `isOk_checkFull_congr` which entries of the ACL they depend on. The
grants to owners give a caller everything, or make no difference to it (`GrantReaches`).

Main definitions: `AclMap.insert`, `grantOwners`, `isOwner`, `DocumentedAcl`, `GrantReaches`.
Main results: `get_grantOwners`, `isOk_checkFull_iff_of_did`, `isOk_checkFull_congr`,
`isOk_checkFull_of_grantReaches`, `isOk_checkFull_of_not_grantReaches`.
-/

set_option autoImplicit false
set_option relaxedAutoImplicit false

namespace MaRuntime.Acl

/-! ### Entries -/

namespace AclMap

/-- The ACL without entries, which allows nobody anything. -/
def empty : AclMap := ⟨[], List.nodup_nil⟩

/-- The ACL with an entry at a key, in place of the entry it had there. -/
def insert (acl : AclMap) (key : String) (entry : CapabilityEntry) : AclMap where
  entries := (key, entry) :: acl.entries.filter fun other ↦ other.1 ≠ key
  distinct := by
    rw [List.map_cons, List.nodup_cons]
    constructor
    · intro hmem
      obtain ⟨other, hother, hkey⟩ := List.mem_map.mp hmem
      exact of_decide_eq_true (List.mem_filter.mp hother).2 hkey
    · exact acl.distinct.sublist (List.filter_sublist.map Prod.fst)

@[simp] theorem get_empty (key : String) : empty.get key = none := rfl

theorem get_insert (acl : AclMap) (key other : String) (entry : CapabilityEntry) :
    (acl.insert key entry).get other = if other = key then some entry else acl.get other :=
  KeyedMap.get_insert ⟨acl.entries⟩ key other entry

end AclMap

/-- Whether an entry allows a capability. -/
def CapabilityEntry.allows (entry : CapabilityEntry) (cap : String) : Bool :=
  match entry with
  | .deny => false
  | .allow capSet => capSet.contains cap || capSet.contains "*"

/-- The entry that allows every capability. -/
def CapabilityEntry.everything : CapabilityEntry := .allow ["*"]

@[simp] theorem allows_everything (cap : String) :
    CapabilityEntry.everything.allows cap = true := by
  simp [CapabilityEntry.everything, CapabilityEntry.allows]

/-- `grant_owners_in_acl`. -/
def grantOwners (acl : AclMap) (owners : List String) : AclMap :=
  owners.foldl (fun map owner ↦ map.insert owner .everything) acl

theorem get_grantOwners (acl : AclMap) (owners : List String) (key : String) :
    (grantOwners acl owners).get key =
      if key ∈ owners then some .everything else acl.get key := by
  unfold grantOwners
  induction owners generalizing acl with
  | nil => simp
  | cons owner rest ih =>
    rw [List.foldl_cons, ih, AclMap.get_insert]
    by_cases hrest : key ∈ rest
    · simp [hrest]
    · simp [hrest]

/-- Grants to owners on top of earlier ones are grants to all of them. -/
theorem get_grantOwners_append {live acl : AclMap} {granted : List String}
    (h : ∀ key, live.get key = if key ∈ granted then some .everything else acl.get key)
    (owners : List String) (key : String) :
    (grantOwners live owners).get key =
      if key ∈ granted ++ owners then some .everything else acl.get key := by
  rw [get_grantOwners, h key]
  by_cases howner : key ∈ owners
  · rw [if_pos howner, if_pos (List.mem_append_right granted howner)]
  · simp only [List.mem_append, howner, or_false, if_false]

/-- What a grant leaves denied was denied. -/
theorem get_eq_deny_of_grantOwners {acl : AclMap} {owners : List String} {key : String}
    (h : (grantOwners acl owners).get key = some .deny) : acl.get key = some .deny := by
  rw [get_grantOwners] at h
  by_cases howner : key ∈ owners
  · rw [if_pos howner] at h
    cases h
  · rwa [if_neg howner] at h

/-! ### Owners and groups -/

/-- The members of a group in the cache, of which an unknown group has none. -/
def resolveGroup {Failure : Type} (cache : KeyedMap String (List String)) (key : String) :
    Except Failure (List String) :=
  .ok ((cache.get ((stripPrefix "+" key).getD key)).getD [])

section Owners

variable (normalizePrincipal : String → String)

def isOwner (owners : List String) (caller : String) : Bool :=
  owners.any fun o ↦ normalizePrincipal o == normalizePrincipal caller

variable {normalizePrincipal}

theorem isOwner_iff {owners : List String} {caller : String} :
    isOwner normalizePrincipal owners caller = true ↔
      ∃ o ∈ owners, normalizePrincipal o = normalizePrincipal caller := by
  simp [isOwner]

end Owners

/-! ### Callers that are DIDs -/

def isDid (text : String) : Bool := "did:".toList.isPrefixOf text.toList

/-- A DID-URL without its fragment. -/
def withoutFragment (url : String) : String := ((splitOnce '#' url).map Prod.fst).getD url

theorem ne_wildcard_of_isDid {text : String} (h : isDid text = true) : text ≠ "*" := by
  rintro rfl
  exact absurd h (by decide)

section Documented

variable {Failure : Type} (normalizePrincipal : String → String)
  (checkCap : AclMap → String → String → Except Failure Unit)

/-- What is documented of `normalize_principal` and `check_cap`, for callers that are DIDs. -/
structure DocumentedAcl : Prop where
  normalize : ∀ caller, isDid caller = true → normalizePrincipal caller = withoutFragment caller
  checkCap : ∀ acl caller cap, isDid caller = true →
    (checkCap acl caller cap).isOk =
      ((acl.get (normalizePrincipal caller)).or (acl.get "*")).any fun entry ↦ entry.allows cap

/-- The caller is allowed one of the capabilities through a group. -/
def AllowedByGroup (acl : AclMap) (caller : String) (caps : List String)
    (resolve : String → Except Failure (List String)) : Prop :=
  ∃ key entry cap, isGroupKey key = true ∧ acl.get key = some entry ∧
    isMember normalizePrincipal resolve caller key = true ∧ cap ∈ caps ∧ entry.allows cap = true

/-- The grants of owners reach a caller: nothing denies it, and it is an owner, or a group that is
one has it as a member. -/
def GrantReaches (acl : AclMap) (owners : List String) (caller : String)
    (resolve : String → Except Failure (List String)) : Prop :=
  ¬DeniedDirectly normalizePrincipal (grantOwners acl owners) caller ∧
    (normalizePrincipal caller ∈ owners ∨
      ¬DeniedByGroup normalizePrincipal (grantOwners acl owners) caller resolve ∧
        ∃ key ∈ owners, isGroupKey key = true ∧
          isMember normalizePrincipal resolve caller key = true)

variable {normalizePrincipal checkCap} {acl other : AclMap} {caller : String} {caps : List String}
  {resolve : String → Except Failure (List String)}

theorem any_allowsThroughGroup_iff :
    acl.entries.any (allowsThroughGroup normalizePrincipal resolve caller caps) = true ↔
      AllowedByGroup normalizePrincipal acl caller caps resolve := by
  rw [List.any_eq_true]
  constructor
  · rintro ⟨⟨key, entry⟩, hmem, hallows⟩
    cases entry with
    | deny => cases hallows
    | allow capSet =>
      simp only [allowsThroughGroup, Bool.and_eq_true, List.any_eq_true] at hallows
      obtain ⟨⟨hgroup, hmember⟩, cap, hcap, hentry⟩ := hallows
      exact ⟨key, .allow capSet, cap, hgroup, AclMap.get_of_mem hmem, hmember, hcap, hentry⟩
  · rintro ⟨key, entry, cap, hgroup, hget, hmember, hcap, hentry⟩
    refine ⟨(key, entry), AclMap.mem_of_get hget, ?_⟩
    cases entry with
    | deny => cases hentry
    | allow capSet =>
      simp only [allowsThroughGroup, Bool.and_eq_true, List.any_eq_true]
      exact ⟨⟨hgroup, hmember⟩, cap, hcap, hentry⟩

/-- The calls that succeed for a caller that is a DID. -/
theorem isOk_checkFull_iff_of_did (hacl : DocumentedAcl normalizePrincipal checkCap)
    (hdid : isDid caller = true) :
    (checkFull normalizePrincipal checkCap acl caller caps resolve).isOk = true ↔
      ¬DeniedDirectly normalizePrincipal acl caller ∧
      ((∃ cap ∈ caps, ((acl.get (normalizePrincipal caller)).or (acl.get "*")).any
          (fun entry ↦ entry.allows cap) = true) ∨
        ¬DeniedByGroup normalizePrincipal acl caller resolve ∧
          AllowedByGroup normalizePrincipal acl caller caps resolve) := by
  rw [isOk_checkFull, any_allowsThroughGroup_iff]
  simp only [GrantedWithoutGroups, hacl.checkCap acl caller _ hdid]

/-- A call that succeeds does so with more capabilities. -/
theorem isOk_checkFull_of_subset {more : List String} (hsubset : caps ⊆ more)
    (h : (checkFull normalizePrincipal checkCap acl caller caps resolve).isOk = true) :
    (checkFull normalizePrincipal checkCap acl caller more resolve).isOk = true := by
  rw [isOk_checkFull, any_allowsThroughGroup_iff] at h ⊢
  obtain ⟨hdirect, ⟨cap, hcap, hgranted⟩ |
    ⟨hgroup, key, entry, cap, hkey, hget, hmember, hcap, hentry⟩⟩ := h
  · exact ⟨hdirect, .inl ⟨cap, hsubset hcap, hgranted⟩⟩
  · exact ⟨hdirect, .inr ⟨hgroup, key, entry, cap, hkey, hget, hmember, hsubset hcap, hentry⟩⟩

/-- Nobody has one of no capabilities. -/
theorem isOk_checkFull_nil :
    (checkFull normalizePrincipal checkCap acl caller [] resolve).isOk = false := by
  refine Bool.eq_false_iff.mpr fun h ↦ ?_
  rw [isOk_checkFull, any_allowsThroughGroup_iff] at h
  obtain ⟨-, ⟨cap, hcap, -⟩ | ⟨-, key, entry, cap, -, -, -, hcap, -⟩⟩ := h
  · cases hcap
  · cases hcap

/-- Assumes: every capability alone is allowed. So is any list with a capability in it. -/
theorem isOk_checkFull_of_each
    (h : ∀ cap, (checkFull normalizePrincipal checkCap acl caller [cap] resolve).isOk = true)
    (caps : List String) :
    (checkFull normalizePrincipal checkCap acl caller caps resolve).isOk = !caps.isEmpty := by
  cases caps with
  | nil => exact isOk_checkFull_nil
  | cons cap rest => exact isOk_checkFull_of_subset (by simp) (h cap)

/-- A caller whose principal or the wildcard is denied does not pass. -/
theorem isOk_checkFull_of_denied (hdenied : DeniedDirectly normalizePrincipal acl caller) :
    (checkFull normalizePrincipal checkCap acl caller caps resolve).isOk = false := by
  refine Bool.eq_false_iff.mpr fun h ↦ ?_
  rw [isOk_checkFull] at h
  exact h.1 hdenied

/-- A caller whose entry allows everything passes, unless the wildcard is denied. -/
theorem isOk_checkFull_of_everything (hacl : DocumentedAcl normalizePrincipal checkCap)
    (hdid : isDid caller = true)
    (hentry : acl.get (normalizePrincipal caller) = some .everything)
    (hwildcard : acl.get "*" ≠ some .deny) {cap : String} :
    (checkFull normalizePrincipal checkCap acl caller [cap] resolve).isOk = true := by
  refine (isOk_checkFull_iff_of_did hacl hdid).mpr ⟨?_, .inl ⟨cap, List.mem_singleton_self _, ?_⟩⟩
  · rintro (hcaller | hdenied)
    · rw [hentry] at hcaller
      cases hcaller
    · exact hwildcard hdenied
  · rw [hentry]
    exact allows_everything cap

/-- A call depends on the entries of the caller, of the wildcard and of the caller's
groups alone. -/
theorem isOk_checkFull_congr (hacl : DocumentedAcl normalizePrincipal checkCap)
    (hdid : isDid caller = true)
    (hcaller : acl.get (normalizePrincipal caller) = other.get (normalizePrincipal caller))
    (hwildcard : acl.get "*" = other.get "*")
    (hgroups : ∀ key, isGroupKey key = true →
      isMember normalizePrincipal resolve caller key = true → acl.get key = other.get key) :
    (checkFull normalizePrincipal checkCap acl caller caps resolve).isOk =
      (checkFull normalizePrincipal checkCap other caller caps resolve).isOk := by
  have hdenied : DeniedByGroup normalizePrincipal acl caller resolve ↔
      DeniedByGroup normalizePrincipal other caller resolve := by
    refine exists_congr fun key ↦ exists_congr fun members ↦ and_congr_right fun hgroup ↦ ?_
    constructor
    · rintro ⟨hget, hmembers⟩
      exact ⟨hgroups key hgroup (isMember_iff.mpr ⟨members, hmembers⟩) ▸ hget, hmembers⟩
    · rintro ⟨hget, hmembers⟩
      exact ⟨hgroups key hgroup (isMember_iff.mpr ⟨members, hmembers⟩) ▸ hget, hmembers⟩
  have hallowed : AllowedByGroup normalizePrincipal acl caller caps resolve ↔
      AllowedByGroup normalizePrincipal other caller caps resolve := by
    refine exists_congr fun key ↦ exists_congr fun entry ↦ exists_congr fun cap ↦
      and_congr_right fun hgroup ↦ ?_
    constructor
    · rintro ⟨hget, hmember, hcap⟩
      exact ⟨hgroups key hgroup hmember ▸ hget, hmember, hcap⟩
    · rintro ⟨hget, hmember, hcap⟩
      exact ⟨hgroups key hgroup hmember ▸ hget, hmember, hcap⟩
  rw [Bool.eq_iff_iff, isOk_checkFull_iff_of_did hacl hdid, isOk_checkFull_iff_of_did hacl hdid,
    DeniedDirectly, DeniedDirectly, hcaller, hwildcard, hdenied, hallowed]

/-- The normal form of a DID is a DID. -/
theorem DocumentedAcl.isDid_normalize (hacl : DocumentedAcl normalizePrincipal checkCap)
    (hdid : isDid caller = true) : isDid (normalizePrincipal caller) = true := by
  rw [hacl.normalize caller hdid]
  unfold withoutFragment
  cases hsplit : splitOnce '#' caller with
  | none => exact hdid
  | some parts =>
    obtain ⟨front, back⟩ := parts
    obtain ⟨htext, -⟩ := splitOnce_eq_some_iff.mp hsplit
    obtain ⟨rest, hrest⟩ := List.isPrefixOf_iff_prefix.mp hdid
    rw [isDid, List.isPrefixOf_iff_prefix]
    -- the separator is not among the characters of the beginning
    rw [htext, show "did:".toList = ['d', 'i', 'd', ':'] by rfl] at hrest
    rw [Option.map_some, Option.getD_some, show "did:".toList = ['d', 'i', 'd', ':'] by rfl]
    match hfront : front.toList with
    | [] => simp [hfront] at hrest
    | [_] => simp [hfront] at hrest
    | [_, _] => simp [hfront] at hrest
    | [_, _, _] => simp [hfront] at hrest
    | a :: b :: c :: d :: tail =>
      simp only [hfront, List.cons_append, List.cons.injEq] at hrest
      obtain ⟨rfl, rfl, rfl, rfl, -⟩ := hrest
      exact List.prefix_append _ _

/-- Whom the grants of owners reach is allowed everything. -/
theorem isOk_checkFull_of_grantReaches (hacl : DocumentedAcl normalizePrincipal checkCap)
    (hdid : isDid caller = true) {owners : List String}
    (h : GrantReaches normalizePrincipal acl owners caller resolve) (cap : String) :
    (checkFull normalizePrincipal checkCap (grantOwners acl owners) caller [cap] resolve).isOk =
      true := by
  obtain ⟨hdenied, howner | ⟨hgroup, key, hkey, hisGroup, hmember⟩⟩ := h
  · have hentry : (grantOwners acl owners).get (normalizePrincipal caller) = some .everything := by
      rw [get_grantOwners, if_pos howner]
    exact isOk_checkFull_of_everything hacl hdid hentry fun hwildcard ↦ hdenied (.inr hwildcard)
  · have hentry : (grantOwners acl owners).get key = some .everything := by
      rw [get_grantOwners, if_pos hkey]
    exact (isOk_checkFull_iff_of_did hacl hdid).mpr ⟨hdenied, .inr ⟨hgroup, key, .everything, cap,
      hisGroup, hentry, hmember, List.mem_singleton_self _, allows_everything cap⟩⟩

/-- Whom the grants of owners do not reach is allowed what it is allowed without them, the
wildcard's apart. -/
theorem isOk_checkFull_of_not_grantReaches (hacl : DocumentedAcl normalizePrincipal checkCap)
    (hdid : isDid caller = true) {owners : List String}
    (h : ¬GrantReaches normalizePrincipal acl owners caller resolve) (caps : List String) :
    (checkFull normalizePrincipal checkCap (grantOwners acl owners) caller caps resolve).isOk =
      (checkFull normalizePrincipal checkCap
        (grantOwners acl (owners.filter fun owner ↦ owner = "*")) caller caps resolve).isOk := by
  have hgranted : ∀ key, (grantOwners acl owners).get key =
      if key ∈ owners then some .everything else acl.get key := get_grantOwners acl owners
  have hwithout : ∀ key, key ≠ "*" →
      (grantOwners acl (owners.filter fun owner ↦ owner = "*")).get key = acl.get key := by
    intro key hkey
    have hnot : key ∉ owners.filter fun owner ↦ owner = "*" := fun hmem ↦
      hkey (of_decide_eq_true (List.mem_filter.mp hmem).2)
    rw [get_grantOwners, if_neg hnot]
  have hwildcard : (grantOwners acl owners).get "*" =
      (grantOwners acl (owners.filter fun owner ↦ owner = "*")).get "*" := by
    rw [hgranted, get_grantOwners]
    simp [List.mem_filter]
  have hcaller : normalizePrincipal caller ≠ "*" := ne_wildcard_of_isDid (hacl.isDid_normalize hdid)
  by_cases hdenied : DeniedDirectly normalizePrincipal (grantOwners acl owners) caller
  · -- what denies the caller is no grant
    have hwithoutDenied : DeniedDirectly normalizePrincipal
        (grantOwners acl (owners.filter fun owner ↦ owner = "*")) caller := by
      obtain hprincipal | hstar := hdenied
      · left
        rw [hwithout _ hcaller]
        exact get_eq_deny_of_grantOwners hprincipal
      · exact .inr (hwildcard ▸ hstar)
    rw [isOk_checkFull_of_denied hdenied, isOk_checkFull_of_denied hwithoutDenied]
  · have howner : normalizePrincipal caller ∉ owners := fun hmem ↦ h ⟨hdenied, .inl hmem⟩
    have hsame : (grantOwners acl owners).get (normalizePrincipal caller) =
        (grantOwners acl (owners.filter fun owner ↦ owner = "*")).get
          (normalizePrincipal caller) := by
      rw [hgranted, if_neg howner, hwithout _ hcaller]
    have hkeys : ∀ key, isGroupKey key = true → key ≠ "*" := by
      rintro key hkey rfl
      cases hkey
    by_cases hgroup : DeniedByGroup normalizePrincipal (grantOwners acl owners) caller resolve
    · have hwithoutGroup : DeniedByGroup normalizePrincipal
          (grantOwners acl (owners.filter fun owner ↦ owner = "*")) caller resolve := by
        obtain ⟨key, members, hkey, hentry, hmembers⟩ := hgroup
        refine ⟨key, members, hkey, ?_, hmembers⟩
        rw [hwithout key (hkeys key hkey)]
        exact get_eq_deny_of_grantOwners hentry
      rw [Bool.eq_iff_iff, isOk_checkFull_iff_of_did hacl hdid, isOk_checkFull_iff_of_did hacl hdid,
        DeniedDirectly, DeniedDirectly, hsame, hwildcard]
      simp only [hgroup, hwithoutGroup, not_true, false_and]
    · have hmember : ∀ key, isGroupKey key = true →
          isMember normalizePrincipal resolve caller key = true →
            (grantOwners acl owners).get key =
              (grantOwners acl (owners.filter fun owner ↦ owner = "*")).get key := by
        intro key hkey hmember
        rw [hgranted, hwithout key (hkeys key hkey), if_neg]
        exact fun howners ↦ h ⟨hdenied, .inr ⟨hgroup, key, howners, hkey, hmember⟩⟩
      exact isOk_checkFull_congr hacl hdid hsame hwildcard hmember

/-- A normal form is its own. -/
theorem DocumentedAcl.normalize_normalize (hacl : DocumentedAcl normalizePrincipal checkCap)
    (hdid : isDid caller = true) :
    normalizePrincipal (normalizePrincipal caller) = normalizePrincipal caller := by
  rw [hacl.normalize _ (hacl.isDid_normalize hdid), hacl.normalize caller hdid]
  unfold withoutFragment
  cases hsplit : splitOnce '#' caller with
  | none => simp [hsplit]
  | some parts =>
    obtain ⟨front, back⟩ := parts
    obtain ⟨-, hfront⟩ := splitOnce_eq_some_iff.mp hsplit
    simp only [Option.map_some, Option.getD_some]
    cases hagain : splitOnce '#' front with
    | none => rfl
    | some again =>
      obtain ⟨first, second⟩ := again
      obtain ⟨htext, -⟩ := splitOnce_eq_some_iff.mp hagain
      exact absurd (htext ▸ List.mem_append_right _ List.mem_cons_self) hfront

/-- There is a DID that is none of the owners. -/
theorem DocumentedAcl.exists_not_isOwner (hacl : DocumentedAcl normalizePrincipal checkCap)
    (owners : List String) :
    ∃ did, isDid did = true ∧ isOwner normalizePrincipal owners did = false := by
  let fresh (n : ℕ) : String := "did:" ++ String.ofList (List.replicate n 'a')
  have hchars : ∀ n, (fresh n).toList = ['d', 'i', 'd', ':'] ++ List.replicate n 'a' := by
    intro n
    simp [fresh]
  have hdid : ∀ n, isDid (fresh n) = true := by
    intro n
    rw [isDid, hchars]
    exact List.isPrefixOf_iff_prefix.mpr (List.prefix_append _ _)
  have hnormal : ∀ n, normalizePrincipal (fresh n) = fresh n := by
    intro n
    have hmem : '#' ∉ (fresh n).toList := by
      rw [hchars, List.mem_append, List.mem_replicate]
      simp
    rw [hacl.normalize _ (hdid n), withoutFragment, splitOnce_eq_none_iff.mpr hmem]
    rfl
  have hinjective : Function.Injective fresh := by
    intro m n heq
    have hlength := congrArg (fun text : String ↦ text.toList.length) heq
    simpa [hchars] using hlength
  -- infinitely many DIDs are their own normal forms, and the owners have finitely many
  obtain ⟨did, ⟨n, rfl⟩, hfresh⟩ :=
    (Set.infinite_range_of_injective hinjective).exists_notMem_finset
    (owners.map normalizePrincipal).toFinset
  refine ⟨fresh n, hdid n, Bool.eq_false_iff.mpr fun howner ↦ hfresh ?_⟩
  obtain ⟨o, ho, hsame⟩ := isOwner_iff.mp howner
  rw [List.mem_toFinset, ← hnormal n, ← hsame]
  exact List.mem_map_of_mem ho

end Documented

theorem isOk_checkCapByEntry (acl : AclMap) (caller cap : String) :
    (checkCapByEntry acl caller cap).isOk =
      ((acl.get (principalOf caller)).or (acl.get "*")).any fun entry ↦ entry.allows cap := by
  unfold checkCapByEntry
  cases (acl.get (principalOf caller)).or (acl.get "*") with
  | none => rfl
  | some entry =>
    cases entry with
    | deny => rfl
    | allow capSet =>
      simp only [Option.any_some, CapabilityEntry.allows]
      split_ifs with h
      · rw [h]
        rfl
      · rw [Bool.not_eq_true] at h
        rw [h]
        rfl

/-- The principal of a DID-URL and the check by entries are as documented. -/
theorem documentedAcl_byEntry : DocumentedAcl principalOf checkCapByEntry where
  normalize := by
    intro caller _
    unfold withoutFragment principalOf
    cases hsplit : splitOnce '#' caller with
    | none =>
      have hmem : '#' ∉ caller.toList := splitOnce_eq_none_iff.mp hsplit
      rw [Option.map_none, Option.getD_none, List.takeWhile_eq_self_iff.mpr, String.ofList_toList]
      exact fun c hc ↦ decide_eq_true fun heq ↦ hmem (heq ▸ hc)
    | some parts =>
      obtain ⟨front, back⟩ := parts
      obtain ⟨htext, hfront⟩ := splitOnce_eq_some_iff.mp hsplit
      have hall : ∀ c ∈ front.toList, decide (c ≠ '#') = true := fun c hc ↦
        decide_eq_true fun heq ↦ hfront (heq ▸ hc)
      rw [htext, List.takeWhile_append_of_pos hall]
      simp
  checkCap acl caller cap _ := isOk_checkCapByEntry acl caller cap

end MaRuntime.Acl
