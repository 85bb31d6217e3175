import Mathlib.Data.List.Basic
import Mathlib.Data.List.Nodup

/-!
# Access control

`check_full` of `acl.rs` decides whether a caller has one of a list of capabilities under an ACL: a
map from principals, the wildcard and groups to a denial or to a set of allowed capabilities. The
phases are those of the source: the caller's own denial and that of the wildcard; the entries that
`check_cap` reads; the groups that are denied; the groups that are allowed (`checkFull`).
`isOk_checkFull` says which calls succeed.

A caller is denied by an ACL when its principal, the wildcard or one of its groups is (`DeniedBy`).
`isError_checkFull_iff` says which denied callers are refused: a denied group is looked at after
`check_cap`, so a member of the group is refused only if `check_cap` grants nothing.

Scope. `normalize_principal` and `check_cap` come with `ma_core` and are parameters. A group
resolver is a function of the key: the keys of a map are distinct, so a call resolves each key at
most once.
-/

set_option autoImplicit false
set_option relaxedAutoImplicit false

namespace MaRuntime.Acl

/-- What an ACL says of a key. -/
inductive CapabilityEntry
  | deny
  | allow (capSet : List String)
deriving DecidableEq

/-- An ACL: an entry for each of its keys. -/
structure AclMap where
  entries : List (String × CapabilityEntry)
  distinct : (entries.map Prod.fst).Nodup := by decide

namespace AclMap

def get (acl : AclMap) (key : String) : Option CapabilityEntry := acl.entries.lookup key

theorem mem_of_get {acl : AclMap} {key : String} {entry : CapabilityEntry}
    (h : acl.get key = some entry) : (key, entry) ∈ acl.entries := by
  obtain ⟨front, back, hsplit, -⟩ := List.lookup_eq_some_iff.mp h
  rw [hsplit]
  exact List.mem_append_right _ List.mem_cons_self

theorem get_of_mem {acl : AclMap} {key : String} {entry : CapabilityEntry}
    (h : (key, entry) ∈ acl.entries) : acl.get key = some entry := by
  obtain ⟨front, back, hsplit⟩ := List.append_of_mem h
  refine List.lookup_eq_some_iff.mpr ⟨front, back, hsplit, fun other hother ↦ ?_⟩
  have hdistinct := acl.distinct
  rw [hsplit, List.map_append, List.map_cons, List.nodup_middle, List.nodup_cons] at hdistinct
  have hfront : other.1 ∈ front.map Prod.fst := List.mem_map_of_mem hother
  exact bne_iff_ne.mpr fun heq ↦ hdistinct.1 (List.mem_append_left _ (heq ▸ hfront))

end AclMap

/-- The keys of groups begin with `GROUP_PREFIX`. -/
def isGroupKey (key : String) : Bool := key.toList.head? == some '+'

/-- The refusals of `check_full`: the caller's denial, that of the wildcard, that of a group, and a
caller that nothing allows any of the capabilities. -/
inductive AccessDenied
  | principal (caller : String)
  | wildcard (caller : String)
  | group (caller key : String)
  | nonePermitted (caller : String) (caps : List String)
deriving DecidableEq

section Check

variable {Failure : Type*} (normalizePrincipal : String → String)
  (checkCap : AclMap → String → String → Except Failure Unit)

/-- The members of a group; a group that cannot be resolved has none. -/
def membersOf (resolveGroup : String → Except Failure (List String)) (key : String) : List String :=
  match resolveGroup key with
  | .ok members => members
  | .error _ => []

/-- Whether a caller is a member of the group of a key. -/
def isMember (resolveGroup : String → Except Failure (List String)) (caller key : String) : Bool :=
  (membersOf resolveGroup key).any fun member ↦
    normalizePrincipal member == normalizePrincipal caller

/-- An entry that denies the caller through a group. -/
def deniesThroughGroup (resolveGroup : String → Except Failure (List String)) (caller : String) :
    String × CapabilityEntry → Bool
  | (key, .deny) => isGroupKey key && isMember normalizePrincipal resolveGroup caller key
  | (_, .allow _) => false

/-- An entry that allows the caller one of the capabilities through a group. -/
def allowsThroughGroup (resolveGroup : String → Except Failure (List String)) (caller : String)
    (caps : List String) : String × CapabilityEntry → Bool
  | (_, .deny) => false
  | (key, .allow capSet) =>
    isGroupKey key && isMember normalizePrincipal resolveGroup caller key &&
      caps.any fun cap ↦ capSet.contains cap || capSet.contains "*"

/-- The group phases of `check_full`: the groups that are denied, then those that are allowed. -/
def checkGroups (acl : AclMap) (caller : String) (caps : List String)
    (resolveGroup : String → Except Failure (List String)) : Except AccessDenied Unit :=
  match acl.entries.find? (deniesThroughGroup normalizePrincipal resolveGroup caller) with
  | some (key, _) => .error (.group caller key)
  | none =>
    if acl.entries.any (allowsThroughGroup normalizePrincipal resolveGroup caller caps) then .ok ()
    else .error (.nonePermitted caller caps)

/-- `check_full`: whether a caller has one of the capabilities. -/
def checkFull (acl : AclMap) (caller : String) (caps : List String)
    (resolveGroup : String → Except Failure (List String)) : Except AccessDenied Unit :=
  let normalized := normalizePrincipal caller
  if acl.get normalized = some .deny then .error (.principal caller)
  else if acl.get "*" = some .deny then .error (.wildcard caller)
  else if caps.any fun cap ↦ (checkCap acl caller cap).isOk then .ok ()
  else checkGroups normalizePrincipal acl caller caps resolveGroup

/-! ### Denials -/

/-- The denials of a caller's principal and of the wildcard. -/
def DeniedDirectly (acl : AclMap) (caller : String) : Prop :=
  acl.get (normalizePrincipal caller) = some .deny ∨ acl.get "*" = some .deny

/-- The denial of a group that resolves and has the caller as a member. -/
def DeniedByGroup (acl : AclMap) (caller : String)
    (resolveGroup : String → Except Failure (List String)) : Prop :=
  ∃ key members, isGroupKey key = true ∧ acl.get key = some .deny ∧
    resolveGroup key = .ok members ∧
    ∃ member ∈ members, normalizePrincipal member = normalizePrincipal caller

/-- The caller is denied by the ACL, in one of the three ways. -/
def DeniedBy (acl : AclMap) (caller : String)
    (resolveGroup : String → Except Failure (List String)) : Prop :=
  DeniedDirectly normalizePrincipal acl caller ∨
    DeniedByGroup normalizePrincipal acl caller resolveGroup

/-- One of the capabilities is granted to the caller by `check_cap`, which does not look
at groups. -/
def GrantedWithoutGroups (acl : AclMap) (caller : String) (caps : List String) : Prop :=
  ∃ cap ∈ caps, (checkCap acl caller cap).isOk = true

variable {normalizePrincipal checkCap} {acl : AclMap} {caller : String} {caps : List String}
  {resolveGroup : String → Except Failure (List String)}

theorem isMember_iff {key : String} :
    isMember normalizePrincipal resolveGroup caller key = true ↔
      ∃ members, resolveGroup key = .ok members ∧
        ∃ member ∈ members, normalizePrincipal member = normalizePrincipal caller := by
  unfold isMember membersOf
  cases resolveGroup key with
  | ok members => simp
  | error failure => simp

/-- The source's search for a denied group finds one exactly when there is one. -/
theorem any_deniesThroughGroup_iff :
    acl.entries.any (deniesThroughGroup normalizePrincipal resolveGroup caller) = true ↔
      DeniedByGroup normalizePrincipal acl caller resolveGroup := by
  rw [List.any_eq_true]
  constructor
  · rintro ⟨⟨key, entry⟩, hmem, hdenies⟩
    cases entry with
    | allow capSet => cases hdenies
    | deny =>
      obtain ⟨hgroup, hmember⟩ := Bool.and_eq_true_iff.mp hdenies
      obtain ⟨members, hmembers, hcaller⟩ := isMember_iff.mp hmember
      exact ⟨key, members, hgroup, AclMap.get_of_mem hmem, hmembers, hcaller⟩
  · rintro ⟨key, members, hgroup, hentry, hmembers, hcaller⟩
    refine ⟨(key, .deny), AclMap.mem_of_get hentry, Bool.and_eq_true_iff.mpr ⟨hgroup, ?_⟩⟩
    exact isMember_iff.mpr ⟨members, hmembers, hcaller⟩

theorem isOk_checkGroups :
    (checkGroups normalizePrincipal acl caller caps resolveGroup).isOk = true ↔
      ¬DeniedByGroup normalizePrincipal acl caller resolveGroup ∧
        acl.entries.any
          (allowsThroughGroup normalizePrincipal resolveGroup caller caps) = true := by
  unfold checkGroups
  cases hfind : acl.entries.find? (deniesThroughGroup normalizePrincipal resolveGroup caller) with
  | some entry =>
    have hdenied : DeniedByGroup normalizePrincipal acl caller resolveGroup :=
      any_deniesThroughGroup_iff.mp
        (List.any_eq_true.mpr ⟨entry, List.mem_of_find?_eq_some hfind, List.find?_some hfind⟩)
    exact ⟨fun h ↦ Bool.noConfusion h, fun h ↦ absurd hdenied h.1⟩
  | none =>
    have hnot : ¬DeniedByGroup normalizePrincipal acl caller resolveGroup := by
      rw [← any_deniesThroughGroup_iff, List.any_eq_true]
      rintro ⟨entry, hmem, hdenies⟩
      exact List.find?_eq_none.mp hfind entry hmem hdenies
    dsimp only
    split_ifs with hallowed
    · exact ⟨fun _ ↦ ⟨hnot, hallowed⟩, fun _ ↦ rfl⟩
    · exact ⟨fun h ↦ Bool.noConfusion h, fun h ↦ absurd h.2 hallowed⟩

/-- The calls that succeed: there is no direct denial, and `check_cap` grants a capability or,
without a denied group, an allowed group does. -/
theorem isOk_checkFull :
    (checkFull normalizePrincipal checkCap acl caller caps resolveGroup).isOk = true ↔
      ¬DeniedDirectly normalizePrincipal acl caller ∧
      (GrantedWithoutGroups checkCap acl caller caps ∨
        ¬DeniedByGroup normalizePrincipal acl caller resolveGroup ∧
          acl.entries.any
            (allowsThroughGroup normalizePrincipal resolveGroup caller caps) = true) := by
  unfold checkFull
  dsimp only
  split_ifs with hprincipal hwildcard hgranted
  · exact ⟨fun h ↦ Bool.noConfusion h, fun h ↦ absurd (.inl hprincipal) h.1⟩
  · exact ⟨fun h ↦ Bool.noConfusion h, fun h ↦ absurd (.inr hwildcard) h.1⟩
  · refine ⟨fun _ ↦ ⟨?_, .inl (List.any_eq_true.mp hgranted)⟩, fun _ ↦ rfl⟩
    rintro (h | h)
    · exact hprincipal h
    · exact hwildcard h
  · rw [isOk_checkGroups]
    constructor
    · rintro ⟨hnot, hallowed⟩
      refine ⟨?_, .inr ⟨hnot, hallowed⟩⟩
      rintro (h | h)
      · exact hprincipal h
      · exact hwildcard h
    · rintro ⟨-, h | h⟩
      · exact absurd (List.any_eq_true.mpr h) hgranted
      · exact h

/-- Assumes: the caller is denied by the ACL. The call is refused if and only if the denial is the
principal's or the wildcard's, or `check_cap` grants the caller none of the capabilities. -/
theorem isError_checkFull_iff (hdenied : DeniedBy normalizePrincipal acl caller resolveGroup) :
    (∃ refusal, checkFull normalizePrincipal checkCap acl caller caps resolveGroup =
      .error refusal) ↔
      DeniedDirectly normalizePrincipal acl caller ∨
        ∀ cap ∈ caps, (checkCap acl caller cap).isOk = false := by
  have hrefused : (∃ refusal,
      checkFull normalizePrincipal checkCap acl caller caps resolveGroup = .error refusal) ↔
      ¬(checkFull normalizePrincipal checkCap acl caller caps resolveGroup).isOk = true := by
    cases checkFull normalizePrincipal checkCap acl caller caps resolveGroup with
    | ok value => simp [Except.isOk, Except.toBool]
    | error refusal => simp [Except.isOk, Except.toBool]
  have hgrants : (∀ cap ∈ caps, (checkCap acl caller cap).isOk = false) ↔
      ¬GrantedWithoutGroups checkCap acl caller caps := by
    simp only [GrantedWithoutGroups, not_exists, not_and, Bool.not_eq_true]
  rw [hrefused, hgrants, isOk_checkFull]
  constructor
  · intro hnot
    by_cases hdirect : DeniedDirectly normalizePrincipal acl caller
    · exact .inl hdirect
    · exact .inr fun hgranted ↦ hnot ⟨hdirect, .inl hgranted⟩
  · rintro (hdirect | hnone) ⟨hnotDirect, hallowed⟩
    · exact hnotDirect hdirect
    · obtain hgranted | ⟨hnotGroup, -⟩ := hallowed
      · exact hnone hgranted
      · exact hdenied.elim hnotDirect hnotGroup

end Check

/-! ### Two calls with a denied group -/

/-- The principal of a DID-URL: the part before its fragment. -/
def principalOf (did : String) : String := String.ofList (did.toList.takeWhile (· ≠ '#'))

/-- A capability check by the principal's entry or else by the wildcard's. -/
def checkCapByEntry (acl : AclMap) (caller cap : String) : Except Unit Unit :=
  match (acl.get (principalOf caller)).or (acl.get "*") with
  | some (.allow capSet) => if capSet.contains cap || capSet.contains "*" then .ok () else .error ()
  | _ => .error ()

/-- A member of a denied and of an allowed group, without an entry of its own, is refused. -/
theorem isError_checkFull_friend_and_enemy :
    ∃ refusal, checkFull principalOf checkCapByEntry
      ⟨[("+alice.enemies", .deny), ("+alice.friends", .allow ["fortune"])], by decide⟩
      "did:ma:alice" ["fortune"] (fun _ ↦ .ok ["did:ma:alice"]) = .error refusal := by
  refine (isError_checkFull_iff (.inr ?_)).mpr (.inr (by decide))
  exact ⟨"+alice.enemies", ["did:ma:alice"], by decide, by decide, rfl, "did:ma:alice",
    by decide, rfl⟩

/-- A caller that is allowed by its own entry passes although it is a member of a denied group. -/
theorem isOk_checkFull_allowed_enemy :
    DeniedBy principalOf
      ⟨[("did:ma:alice", .allow ["*"]), ("+alice.enemies", .deny)], by decide⟩
      "did:ma:alice" (fun _ ↦ (.ok ["did:ma:alice"] : Except Unit (List String))) ∧
    checkFull principalOf checkCapByEntry
      ⟨[("did:ma:alice", .allow ["*"]), ("+alice.enemies", .deny)], by decide⟩
      "did:ma:alice" ["fortune"] (fun _ ↦ .ok ["did:ma:alice"]) = .ok () := by
  refine ⟨.inr ⟨"+alice.enemies", ["did:ma:alice"], by decide, by decide, rfl, "did:ma:alice",
    by decide, rfl⟩, ?_⟩
  rfl

end MaRuntime.Acl
