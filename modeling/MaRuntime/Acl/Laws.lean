import MaRuntime.Acl.Grants

/-!
# Laws of the access check

How the answer of `checkFull` changes with the ACL, the capabilities and the caller. Of `check_cap`
it is assumed that it goes by the first entry there is among the keys of a list that depends on the
principal (`CheckedByKeys`). The answer then depends on the entries of the ACL and not on their
order, it depends on the caller through its principal alone, more allowances never take it back and
more denials never give it (`isOk_checkFull_mono`, `checkFull_laws`).

A group that is new in the ACL is an allowance, unless `check_cap` looks at its key: there the new
entry comes before that of the wildcard (`newGroup_refuses`).

Main definitions: `CheckedByKeys`.
Main results: `isOk_checkFull_mono`, `checkFull_laws`.
-/

set_option autoImplicit false
set_option relaxedAutoImplicit false

namespace MaRuntime.Acl

section Laws

variable {Failure : Type} (normalizePrincipal : String → String)
  (checkCap : AclMap → String → String → Except Failure Unit)

/-- What is assumed of `check_cap`: it goes by the first entry that is present among the keys for
the caller's principal, the first of which is the principal and the last the wildcard. -/
structure CheckedByKeys (keys : String → List String) : Prop where
  first : ∀ principal, (keys principal).head? = some principal
  last : ∀ principal, (keys principal).getLast? = some "*"
  checkCap : ∀ acl caller cap, (checkCap acl caller cap).isOk =
    ((keys (normalizePrincipal caller)).findSome? acl.get).any fun entry ↦ entry.allows cap

variable {normalizePrincipal checkCap} {keys : String → List String} {acl other : AclMap}
  {caller : String} {caps : List String} {resolve : String → Except Failure (List String)}

theorem isOk_checkFull_iff_keys (h : CheckedByKeys normalizePrincipal checkCap keys) :
    (checkFull normalizePrincipal checkCap acl caller caps resolve).isOk = true ↔
      ¬DeniedDirectly normalizePrincipal acl caller ∧
      ((∃ cap ∈ caps, ((keys (normalizePrincipal caller)).findSome? acl.get).any
          (fun entry ↦ entry.allows cap) = true) ∨
        ¬DeniedByGroup normalizePrincipal acl caller resolve ∧
          AllowedByGroup normalizePrincipal acl caller caps resolve) := by
  rw [isOk_checkFull, any_allowsThroughGroup_iff]
  simp only [GrantedWithoutGroups, h.checkCap]

/-- The first entry of some keys allows a capability still, when each entry stays, or is one that
allows it and becomes another one that does, or did not allow it. -/
theorem any_findSome?_mono {list : List String} {get get' : String → Option CapabilityEntry}
    {cap : String}
    (hentries : ∀ key ∈ list, get key = get' key ∨ ∃ entry, get key = some entry ∧
      (entry.allows cap = true → ∃ entry', get' key = some entry' ∧ entry'.allows cap = true))
    (h : (list.findSome? get).any (fun entry ↦ entry.allows cap) = true) :
    (list.findSome? get').any (fun entry ↦ entry.allows cap) = true := by
  induction list with
  | nil => exact h
  | cons key rest ih =>
    have hrest := ih fun later hlater ↦ hentries later (List.mem_cons_of_mem key hlater)
    rcases hentries key List.mem_cons_self with hsame | ⟨entry, hget, hallows⟩
    · cases hget : get key with
      | none =>
        rw [List.findSome?_cons_of_isNone (by simp [hget])] at h
        rw [List.findSome?_cons_of_isNone (by simp [← hsame, hget])]
        exact hrest h
      | some entry =>
        simp only [List.findSome?_cons, hget] at h
        simpa only [List.findSome?_cons, ← hsame, hget] using h
    · simp only [List.findSome?_cons, hget] at h
      obtain ⟨entry', hget', hallows'⟩ := hallows h
      simp only [List.findSome?_cons, hget']
      exact hallows'

/-- An ACL with no further denials, in which nothing that allowed a capability is taken back or
stands behind another entry, lets pass whom the first one did. -/
theorem isOk_checkFull_mono (h : CheckedByKeys normalizePrincipal checkCap keys)
    (hdeny : ∀ key, other.get key = some .deny → acl.get key = some .deny)
    (hkeys : ∀ key ∈ keys (normalizePrincipal caller),
      acl.get key = other.get key ∨ ∃ entry, acl.get key = some entry)
    (hallow : ∀ key entry cap, acl.get key = some entry → entry.allows cap = true →
      ∃ entry', other.get key = some entry' ∧ entry'.allows cap = true)
    (hok : (checkFull normalizePrincipal checkCap acl caller caps resolve).isOk = true) :
    (checkFull normalizePrincipal checkCap other caller caps resolve).isOk = true := by
  rw [isOk_checkFull_iff_keys h] at hok ⊢
  obtain ⟨hdirect, hallowed⟩ := hok
  refine ⟨fun hdenied ↦ hdirect (hdenied.imp (hdeny _) (hdeny _)), ?_⟩
  rcases hallowed with ⟨cap, hcap, hentry⟩ | ⟨hgroup, key, entry, cap, hkey, hget, hmember, hrest⟩
  · refine .inl ⟨cap, hcap, any_findSome?_mono (fun key hkey ↦ ?_) hentry⟩
    rcases hkeys key hkey with hsame | ⟨entry, hget⟩
    · exact .inl hsame
    · exact .inr ⟨entry, hget, hallow key entry cap hget⟩
  · obtain ⟨hcap, hentry⟩ := hrest
    obtain ⟨entry', hget', hentry'⟩ := hallow key entry cap hget hentry
    refine .inr ⟨?_, key, entry', cap, hkey, hget', hmember, hcap, hentry'⟩
    rintro ⟨denied, members, hdenied, hgetDenied, hmembers⟩
    exact hgroup ⟨denied, members, hdenied, hdeny denied hgetDenied, hmembers⟩

/-- ACLs with the same entries answer in the same way. -/
theorem isOk_checkFull_perm (h : CheckedByKeys normalizePrincipal checkCap keys)
    (hperm : acl.entries.Perm other.entries)
    (hok : (checkFull normalizePrincipal checkCap acl caller caps resolve).isOk = true) :
    (checkFull normalizePrincipal checkCap other caller caps resolve).isOk = true := by
  have hget (key : String) : acl.get key = other.get key := by
    apply Option.ext
    intro entry
    constructor
    · intro hentry
      exact AclMap.get_of_mem (hperm.mem_iff.mp (AclMap.mem_of_get hentry))
    · intro hentry
      exact AclMap.get_of_mem (hperm.mem_iff.mpr (AclMap.mem_of_get hentry))
  refine isOk_checkFull_mono h (fun key hdeny ↦ (hget key).trans hdeny)
    (fun key _ ↦ .inl (hget key)) (fun key entry cap hentry hallows ↦ ?_) hok
  exact ⟨entry, (hget key).symm.trans hentry, hallows⟩

/-- A capability that is added to an entry takes nothing back. -/
theorem isOk_checkFull_addCapability (h : CheckedByKeys normalizePrincipal checkCap keys)
    {key added : String} {capSet : List String} (hentry : acl.get key = some (.allow capSet))
    (hok : (checkFull normalizePrincipal checkCap acl caller caps resolve).isOk = true) :
    (checkFull normalizePrincipal checkCap (acl.insert key (.allow (added :: capSet))) caller caps
      resolve).isOk = true := by
  refine isOk_checkFull_mono h ?_ ?_ ?_ hok
  · intro other hdeny
    rw [AclMap.get_insert] at hdeny
    split_ifs at hdeny
    · cases hdeny
    · exact hdeny
  · intro other _
    rw [AclMap.get_insert]
    split_ifs with hother
    · exact .inr ⟨_, hother ▸ hentry⟩
    · exact .inl rfl
  · intro other entry cap hget hallows
    rw [AclMap.get_insert]
    split_ifs with hother
    · subst hother
      obtain rfl := Option.some.inj (hentry.symm.trans hget)
      refine ⟨_, rfl, ?_⟩
      simp only [CapabilityEntry.allows, Bool.or_eq_true, List.contains_iff_mem,
        List.mem_cons] at hallows ⊢
      exact hallows.imp .inr .inr
    · exact ⟨entry, hget, hallows⟩

/-- A group that is added to the allowances takes nothing back, when `check_cap` does not look
at it. -/
theorem isOk_checkFull_addGroup (h : CheckedByKeys normalizePrincipal checkCap keys)
    {key : String} {capSet : List String} (hnew : acl.get key = none)
    (hkey : key ∉ keys (normalizePrincipal caller))
    (hok : (checkFull normalizePrincipal checkCap acl caller caps resolve).isOk = true) :
    (checkFull normalizePrincipal checkCap (acl.insert key (.allow capSet)) caller caps
      resolve).isOk = true := by
  refine isOk_checkFull_mono h ?_ ?_ ?_ hok
  · intro other hdeny
    rw [AclMap.get_insert] at hdeny
    split_ifs at hdeny
    · cases hdeny
    · exact hdeny
  · intro other hother
    rw [AclMap.get_insert, if_neg]
    · exact .inl rfl
    · rintro rfl
      exact hkey hother
  · intro other entry cap hget hallows
    rw [AclMap.get_insert, if_neg]
    · exact ⟨entry, hget, hallows⟩
    · rintro rfl
      cases hnew.symm.trans hget

/-- A denial that is added, or takes the place of another entry, gives nothing. -/
theorem isOk_checkFull_of_addDenial (h : CheckedByKeys normalizePrincipal checkCap keys)
    {key : String}
    (hok : (checkFull normalizePrincipal checkCap (acl.insert key .deny) caller caps
      resolve).isOk = true) :
    (checkFull normalizePrincipal checkCap acl caller caps resolve).isOk = true := by
  refine isOk_checkFull_mono h ?_ ?_ ?_ hok
  · intro other hdeny
    rw [AclMap.get_insert]
    split_ifs
    · rfl
    · exact hdeny
  · intro other _
    rw [AclMap.get_insert]
    split_ifs
    · exact .inr ⟨.deny, rfl⟩
    · exact .inl rfl
  · intro other entry cap hget hallows
    rw [AclMap.get_insert] at hget
    split_ifs at hget
    · obtain rfl := Option.some.inj hget
      cases hallows
    · exact ⟨entry, hget, hallows⟩

/-- A caller passes as its principal does. -/
theorem isOk_checkFull_of_same_principal (h : CheckedByKeys normalizePrincipal checkCap keys)
    {second : String} (hsame : normalizePrincipal second = normalizePrincipal caller) :
    (checkFull normalizePrincipal checkCap acl second caps resolve).isOk =
      (checkFull normalizePrincipal checkCap acl caller caps resolve).isOk := by
  rw [Bool.eq_iff_iff, isOk_checkFull_iff_keys h, isOk_checkFull_iff_keys h]
  simp only [DeniedDirectly, DeniedByGroup, AllowedByGroup, isMember, hsame]

/-- The answer does not depend on the order of the entries, nor on the order or the repetition of
the capabilities; a capability more in the list or in an entry, or a new allowed group that
`check_cap` does not look at, never turns it into a refusal; a new denial never turns a refusal into
a success; and callers with one principal get one answer. -/
theorem checkFull_laws (h : CheckedByKeys normalizePrincipal checkCap keys) (acl : AclMap)
    (caller : String) (caps : List String) (resolve : String → Except Failure (List String)) :
    (∀ (other : AclMap) (otherCaps : List String), acl.entries.Perm other.entries →
      (∀ cap, cap ∈ caps ↔ cap ∈ otherCaps) →
      (checkFull normalizePrincipal checkCap acl caller caps resolve).isOk =
        (checkFull normalizePrincipal checkCap other caller otherCaps resolve).isOk) ∧
    ((checkFull normalizePrincipal checkCap acl caller caps resolve).isOk = true →
      (∀ cap, (checkFull normalizePrincipal checkCap acl caller (cap :: caps) resolve).isOk =
        true) ∧
      (∀ key cap capSet, acl.get key = some (.allow capSet) →
        (checkFull normalizePrincipal checkCap (acl.insert key (.allow (cap :: capSet))) caller
          caps resolve).isOk = true) ∧
      (∀ key capSet, isGroupKey key = true → acl.get key = none →
        key ∉ keys (normalizePrincipal caller) →
        (checkFull normalizePrincipal checkCap (acl.insert key (.allow capSet)) caller caps
          resolve).isOk = true)) ∧
    (∀ key, acl.get key = none →
      (checkFull normalizePrincipal checkCap acl caller caps resolve).isOk = false →
      (checkFull normalizePrincipal checkCap (acl.insert key .deny) caller caps resolve).isOk =
        false) ∧
    (∀ second, normalizePrincipal second = normalizePrincipal caller →
      (checkFull normalizePrincipal checkCap acl second caps resolve).isOk =
        (checkFull normalizePrincipal checkCap acl caller caps resolve).isOk) := by
  refine ⟨?_, ?_, ?_, ?_⟩
  · intro other otherCaps hperm hcaps
    rw [Bool.eq_iff_iff]
    constructor
    · intro hok
      exact isOk_checkFull_of_subset (fun cap ↦ (hcaps cap).mp) (isOk_checkFull_perm h hperm hok)
    · intro hok
      exact isOk_checkFull_of_subset (fun cap ↦ (hcaps cap).mpr)
        (isOk_checkFull_perm h hperm.symm hok)
  · intro hok
    refine ⟨?_, ?_, ?_⟩
    · intro cap
      exact isOk_checkFull_of_subset (List.subset_cons_self cap caps) hok
    · intro key cap capSet hentry
      exact isOk_checkFull_addCapability h hentry hok
    · intro key capSet _ hnew hkey
      exact isOk_checkFull_addGroup h hnew hkey hok
  · intro key _ hrefused
    refine Bool.eq_false_iff.mpr fun hok ↦ ?_
    exact Bool.eq_false_iff.mp hrefused (isOk_checkFull_of_addDenial h hok)
  · intro second hsame
    exact isOk_checkFull_of_same_principal h hsame

end Laws

/-- The check by entries looks at the principal's and then at the wildcard's. -/
theorem checkedByKeys_byEntry :
    CheckedByKeys principalOf checkCapByEntry fun principal ↦ [principal, "*"] where
  first _ := rfl
  last _ := rfl
  checkCap acl caller cap := by
    have hfirst : [principalOf caller, "*"].findSome? acl.get =
        (acl.get (principalOf caller)).or (acl.get "*") := by
      simp only [List.findSome?_cons, List.findSome?_nil]
      cases acl.get (principalOf caller) with
      | none =>
        cases acl.get "*" with
        | none => rfl
        | some entry => rfl
      | some entry => rfl
    rw [hfirst]
    exact isOk_checkCapByEntry acl caller cap

/-- An ACL that lets everybody read. -/
def openAcl : AclMap := ⟨[("*", .allow ["read"])], by decide⟩

/-- The laws for the check by entries, a caller that is a DID and the open ACL. -/
theorem checkFull_laws_openAcl :
    (checkFull principalOf checkCapByEntry (openAcl.insert "+staff" (.allow ["write"]))
      "did:ma:alice" ["read"] fun _ ↦ .ok []).isOk = true := by
  have hlaws := checkFull_laws checkedByKeys_byEntry openAcl "did:ma:alice" ["read"] fun _ ↦ .ok []
  exact (hlaws.2.1 (by decide)).2.2 "+staff" ["write"] (by decide) (by decide) (by decide)

/-- A caller that has the name of a group passes by the wildcard's entry, and is refused when the
group is allowed something else. -/
theorem newGroup_refuses :
    CheckedByKeys principalOf checkCapByEntry (fun principal ↦ [principal, "*"]) ∧
    isGroupKey "+staff" = true ∧ openAcl.get "+staff" = none ∧
    (checkFull principalOf checkCapByEntry openAcl "+staff" ["read"] fun _ ↦ .ok []).isOk = true ∧
    (checkFull principalOf checkCapByEntry (openAcl.insert "+staff" (.allow ["write"])) "+staff"
      ["read"] fun _ ↦ .ok []).isOk = false :=
  ⟨checkedByKeys_byEntry, by decide, by decide, by decide, by decide⟩

end MaRuntime.Acl
