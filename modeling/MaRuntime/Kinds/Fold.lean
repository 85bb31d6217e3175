import MaRuntime.Kinds.Resolvable

/-!
# What a kind is resolved to

`resolveKindExtends` merges the bases of a kind one after the other into what it has merged so far,
from the kind itself towards the last base. What comes out is said here from the other end: for each
field, as a function of the kind and of the list of its bases (`MergedFrom`). The two agree because
the union of host functions is associative (`addMissing_addMissing`) and because a merged kind has
no behaviour when its chain of behaviours is empty (`ownBehaviours_mergeOver`).

Main definitions: `BasesOf`, `MergedFrom`.
Main results: `exists_resolveKindExtends_iff`, `resolveKindExtends_fold`.
-/

set_option autoImplicit false
set_option relaxedAutoImplicit false

namespace MaRuntime.Kinds

open Manifest

variable {Cid : Type}

/-! ### The bases of a kind -/

/-- The kinds that are reached from what a kind extends, up to one that extends nothing. -/
inductive BasesOf (fetch : Cid → Except String (KindNode Cid)) (kinds : KindTree Cid) :
    Option String → List (KindNode Cid) → Prop
  | root : BasesOf fetch kinds none []
  | base {name : String} {link : IpldLink Cid} {base : KindNode Cid} {rest : List (KindNode Cid)}
      (hlink : kinds.getProtocol name = some link) (hfetch : fetch link.cid = .ok base)
      (hrest : BasesOf fetch kinds base.extendsProtocol rest) :
      BasesOf fetch kinds (some name) (base :: rest)

/-- One round of the loop of `resolve_kind_extends`. -/
def mergeOver (base derived : KindNode Cid) : KindNode Cid :=
  { mergeKindOverBase base derived with extendsProtocol := base.extendsProtocol }

/-- The rounds of the loop for a list of bases. -/
def mergeBases : KindNode Cid → List (KindNode Cid) → KindNode Cid
  | kind, [] => kind
  | kind, base :: rest => mergeBases (mergeOver base kind) rest

/-- A list of functions with those of another one behind it that it does not have. -/
def addMissing (functions more : List String) : List String :=
  more.foldl (fun functions f ↦ if f ∈ functions then functions else functions ++ [f]) functions

/-- The host functions of the last base, then of each kind before it those not already present. -/
def unitedFunctions : KindNode Cid → List (KindNode Cid) → List String
  | kind, [] => kind.hostFunctions
  | kind, base :: rest => addMissing (unitedFunctions base rest) kind.hostFunctions

/-- A kind is what another one is with its bases, of which there is at least one. -/
structure MergedFrom (kind : KindNode Cid) (bases : List (KindNode Cid))
    (resolved : KindNode Cid) : Prop where
  protocol : resolved.protocol = kind.protocol
  kindType : resolved.kindType = kind.kindType
  extendsProtocol : resolved.extendsProtocol = none
  cid : resolved.cid = (kind :: bases).findSome? fun k ↦ k.cid
  behaviour : resolved.behaviour = (kind :: bases).findSome? fun k ↦ k.behaviour
  attributes : ∀ key,
    resolved.attributes.get key = (kind :: bases).findSome? fun k ↦ k.attributes.get key
  behaviourChain : resolved.behaviourChain = (kind :: bases).reverse.filterMap fun k ↦ k.behaviour
  hostFunctions : resolved.hostFunctions = unitedFunctions kind bases

section Fold

variable {fetch : Cid → Except String (KindNode Cid)} {kinds : KindTree Cid}
  {kind base derived resolved : KindNode Cid} {bases : List (KindNode Cid)} {name : Option String}
  {hops : Nat}

theorem BasesOf.unique {others : List (KindNode Cid)} (h : BasesOf fetch kinds name bases)
    (hothers : BasesOf fetch kinds name others) : bases = others := by
  induction h generalizing others with
  | root =>
    cases hothers
    rfl
  | base hlink hfetch _ ih =>
    cases hothers with
    | base hlink' hfetch' hrest' =>
      obtain rfl := Option.some.inj (hlink.symm.trans hlink')
      obtain rfl := Except.ok.inj (hfetch.symm.trans hfetch')
      rw [ih hrest']

/-- A resolution merges the bases, when there are not too many. -/
theorem extendOver_of_basesOf (h : BasesOf fetch kinds kind.extendsProtocol bases)
    (hlength : bases.length ≤ hops) :
    extendOver fetch kinds hops kind = .ok (mergeBases kind bases) := by
  induction bases generalizing kind hops with
  | nil =>
    cases hname : kind.extendsProtocol with
    | none => exact extendOver_none hname
    | some base =>
      rw [hname] at h
      cases h
  | cons base rest ih =>
    cases hname : kind.extendsProtocol with
    | none =>
      rw [hname] at h
      cases h
    | some base =>
      rw [hname] at h
      cases h with
      | base hlink hfetch hrest =>
        obtain ⟨more, rfl⟩ := Nat.exists_eq_add_of_le' (Nat.zero_lt_of_lt hlength)
        rw [extendOver_some hname hlink hfetch]
        exact ih hrest (Nat.le_of_succ_le_succ hlength)

/-- A resolution that succeeds has found all the bases. -/
theorem exists_basesOf_of_extendOver (h : extendOver fetch kinds hops kind = .ok resolved) :
    ∃ bases, BasesOf fetch kinds kind.extendsProtocol bases ∧ bases.length ≤ hops := by
  induction hops generalizing kind with
  | zero =>
    cases hname : kind.extendsProtocol with
    | none => exact ⟨[], .root, Nat.le_refl 0⟩
    | some base =>
      obtain ⟨rest, -, -, hhops, -⟩ := exists_of_extendOver hname h
      cases hhops
  | succ hops ih =>
    cases hname : kind.extendsProtocol with
    | none => exact ⟨[], .root, Nat.zero_le _⟩
    | some base =>
      obtain ⟨rest, link, below, hhops, hlink, hfetch, hbelow⟩ := exists_of_extendOver hname h
      obtain rfl := Nat.succ.inj hhops
      obtain ⟨bases, hbases, hlength⟩ := ih hbelow
      exact ⟨below :: bases, .base hlink hfetch hbases, Nat.succ_le_succ hlength⟩

theorem exists_resolveKindExtends_iff :
    (∃ resolved, resolveKindExtends fetch kinds kind = .ok resolved) ↔
      ∃ bases, BasesOf fetch kinds kind.extendsProtocol bases ∧ bases.length ≤ maxDepth := by
  constructor
  · rintro ⟨resolved, h⟩
    exact exists_basesOf_of_extendOver h
  · rintro ⟨bases, hbases, hlength⟩
    exact ⟨_, extendOver_of_basesOf hbases hlength⟩

end Fold

/-! ### Unions of host functions -/

section Functions

variable {functions more rest : List String} {f : String}

theorem addMissing_cons : addMissing functions (f :: more) =
    addMissing (if f ∈ functions then functions else functions ++ [f]) more := rfl

theorem addMissing_append :
    addMissing functions (more ++ rest) = addMissing (addMissing functions more) rest :=
  List.foldl_append

theorem mem_addMissing : f ∈ addMissing functions more ↔ f ∈ functions ∨ f ∈ more := by
  induction more generalizing functions with
  | nil => simp [addMissing]
  | cons g more ih =>
    rw [addMissing_cons, ih]
    split_ifs with hg
    · constructor
      · exact Or.imp_right (List.mem_cons_of_mem g)
      · rintro (h | h)
        · exact .inl h
        · rcases List.mem_cons.mp h with rfl | h
          · exact .inl hg
          · exact .inr h
    · simp [or_assoc]

/-- It does not matter which of two unions is made first. -/
theorem addMissing_addMissing (functions more rest : List String) :
    addMissing functions (addMissing more rest) =
      addMissing (addMissing functions more) rest := by
  induction rest generalizing more with
  | nil => rfl
  | cons f rest ih =>
    rw [addMissing_cons, addMissing_cons, ih]
    by_cases hf : f ∈ more
    · rw [if_pos hf, if_pos (mem_addMissing.mpr (.inr hf))]
    · rw [if_neg hf, addMissing_append]
      rfl

end Functions

/-! ### The fields of a merged kind -/

section Fields

variable {kind base derived : KindNode Cid} {bases : List (KindNode Cid)}

/-- The behaviours of a kind, with those it has taken over. -/
def ownBehaviours (kind : KindNode Cid) : List (IpldLink Cid) :=
  if kind.behaviourChain.isEmpty then kind.behaviour.toList else kind.behaviourChain

theorem behaviourChain_mergeOver : (mergeOver base derived).behaviourChain =
    ownBehaviours base ++ ownBehaviours derived := rfl

/-- A kind without behaviours of its own or taken over has no behaviour. -/
theorem behaviour_eq_none (h : ownBehaviours kind = []) : kind.behaviour = none := by
  unfold ownBehaviours at h
  split_ifs at h with hchain
  · exact Option.toList_eq_nil_iff.mp h
  · exact absurd (List.isEmpty_iff.mpr h) hchain

theorem ownBehaviours_mergeOver :
    ownBehaviours (mergeOver base derived) = ownBehaviours base ++ ownBehaviours derived := by
  rw [ownBehaviours, behaviourChain_mergeOver]
  split_ifs with hchain
  · have hnil := List.isEmpty_iff.mp hchain
    obtain ⟨hbase, hderived⟩ := List.append_eq_nil_iff.mp hnil
    have hnone : (mergeOver base derived).behaviour = none := by
      show derived.behaviour.or base.behaviour = none
      rw [behaviour_eq_none hbase, behaviour_eq_none hderived]
      rfl
    rw [hnil, hnone]
    rfl
  · rfl

theorem get_extendAttributes (attributes derived : KeyedMap String YamlValue) (key : String) :
    (extendAttributes attributes derived).get key = (derived.get key).or (attributes.get key) := by
  obtain ⟨entries⟩ := derived
  induction entries with
  | nil => rfl
  | cons entry rest ih =>
    obtain ⟨name, value⟩ := entry
    show ((extendAttributes attributes ⟨rest⟩).insert name value).get key = _
    rw [KeyedMap.get_insert, ih]
    by_cases hkey : key = name
    · subst hkey
      simp [KeyedMap.get]
    · simp [KeyedMap.get, List.lookup_cons, beq_false_of_ne hkey, hkey]

theorem protocol_mergeBases : (mergeBases kind bases).protocol = kind.protocol := by
  induction bases generalizing kind with
  | nil => rfl
  | cons base rest ih => exact ih

theorem kindType_mergeBases : (mergeBases kind bases).kindType = kind.kindType := by
  induction bases generalizing kind with
  | nil => rfl
  | cons base rest ih => exact ih

/-- A field that is taken over where it is missing comes from the first kind that has it. -/
theorem firstOf_mergeBases {Value : Type} (field : KindNode Cid → Option Value)
    (hmerge : ∀ base derived, field (mergeOver base derived) = (field derived).or (field base)) :
    field (mergeBases kind bases) = (kind :: bases).findSome? field := by
  induction bases generalizing kind with
  | nil => simp [mergeBases]
  | cons base rest ih =>
    refine ih.trans ?_
    simp only [List.findSome?_cons, hmerge]
    cases field kind with
    | some value => rfl
    | none => rfl

theorem ownBehaviours_mergeBases : ownBehaviours (mergeBases kind bases) =
    (kind :: bases).reverse.flatMap ownBehaviours := by
  induction bases generalizing kind with
  | nil => simp [mergeBases]
  | cons base rest ih =>
    refine ih.trans ?_
    simp [ownBehaviours_mergeOver]

theorem hostFunctions_mergeBases :
    (mergeBases kind bases).hostFunctions = unitedFunctions kind bases := by
  induction bases generalizing kind with
  | nil => rfl
  | cons base rest ih =>
    refine ih.trans ?_
    cases rest with
    | nil => rfl
    | cons next rest => exact addMissing_addMissing _ _ _

/-- A kind that was merged over a base holds all its behaviours in its chain. -/
theorem behaviourChain_mergeBases (h : bases ≠ []) :
    (mergeBases kind bases).behaviourChain = ownBehaviours (mergeBases kind bases) := by
  induction bases generalizing kind with
  | nil => exact absurd rfl h
  | cons base rest ih =>
    cases rest with
    | nil => exact behaviourChain_mergeOver.trans ownBehaviours_mergeOver.symm
    | cons next rest => exact ih (List.cons_ne_nil next rest)

theorem extendsProtocol_mergeBases {fetch : Cid → Except String (KindNode Cid)}
    {kinds : KindTree Cid} (h : BasesOf fetch kinds kind.extendsProtocol bases) :
    (mergeBases kind bases).extendsProtocol = none := by
  induction bases generalizing kind with
  | nil =>
    show kind.extendsProtocol = none
    generalize kind.extendsProtocol = name at h
    cases h
    rfl
  | cons base rest ih =>
    generalize kind.extendsProtocol = name at h
    cases h with
    | base _ _ hrest => exact ih hrest

/-- Kinds as they are published have no chain of behaviours. -/
theorem flatMap_ownBehaviours {list : List (KindNode Cid)}
    (hraw : ∀ kind ∈ list, kind.behaviourChain = []) :
    list.flatMap ownBehaviours = list.filterMap fun kind ↦ kind.behaviour := by
  induction list with
  | nil => rfl
  | cons kind rest ih =>
    have hown : ownBehaviours kind = kind.behaviour.toList :=
      if_pos (List.isEmpty_iff.mpr (hraw kind List.mem_cons_self))
    rw [List.flatMap_cons, hown, ih fun other hother ↦ hraw other (List.mem_cons_of_mem kind hother)]
    cases hbehaviour : kind.behaviour with
    | none => simp [hbehaviour]
    | some link => simp [hbehaviour]

theorem mergedFrom_mergeBases {fetch : Cid → Except String (KindNode Cid)} {kinds : KindTree Cid}
    (h : BasesOf fetch kinds kind.extendsProtocol bases) (hne : bases ≠ [])
    (hraw : ∀ k ∈ kind :: bases, k.behaviourChain = []) :
    MergedFrom kind bases (mergeBases kind bases) where
  protocol := protocol_mergeBases
  kindType := kindType_mergeBases
  extendsProtocol := extendsProtocol_mergeBases h
  cid := firstOf_mergeBases (fun k ↦ k.cid) fun _ _ ↦ rfl
  behaviour := firstOf_mergeBases (fun k ↦ k.behaviour) fun _ _ ↦ rfl
  attributes key := firstOf_mergeBases (fun k ↦ k.attributes.get key) fun base derived ↦
    get_extendAttributes base.attributes derived.attributes key
  behaviourChain := by
    rw [behaviourChain_mergeBases hne, ownBehaviours_mergeBases]
    exact flatMap_ownBehaviours fun k hk ↦ hraw k (List.mem_reverse.mp hk)
  hostFunctions := hostFunctions_mergeBases

end Fields

/-! ### Resolutions -/

section Resolutions

variable {fetch : Cid → Except String (KindNode Cid)} {kinds : KindTree Cid}
  {kind resolved : KindNode Cid} {bases : List (KindNode Cid)} {name : Option String}

theorem BasesOf.behaviourChain_eq_nil (h : BasesOf fetch kinds name bases)
    (hfetched : ∀ cid base, fetch cid = .ok base → base.behaviourChain = []) :
    ∀ base ∈ bases, base.behaviourChain = [] := by
  induction h with
  | root =>
    intro base hbase
    cases hbase
  | base hlink hfetch _ ih =>
    intro other hother
    rcases List.mem_cons.mp hother with rfl | hrest
    · exact hfetched _ _ hfetch
    · exact ih other hrest

/-- A resolution succeeds when the chain of the bases is complete and has at most eight of them, and
then its result is the fold of the kind and its bases. -/
theorem resolveKindExtends_fold (hraw : kind.behaviourChain = [])
    (hfetched : ∀ cid base, fetch cid = .ok base → base.behaviourChain = []) :
    ((∃ resolved, resolveKindExtends fetch kinds kind = .ok resolved) ↔
      ∃ bases, BasesOf fetch kinds kind.extendsProtocol bases ∧ bases.length ≤ 8) ∧
    ∀ bases resolved, BasesOf fetch kinds kind.extendsProtocol bases →
      resolveKindExtends fetch kinds kind = .ok resolved →
      (bases = [] → resolved = kind) ∧ (bases ≠ [] → MergedFrom kind bases resolved) := by
  refine ⟨exists_resolveKindExtends_iff, fun bases resolved hbases hresolved ↦ ?_⟩
  have hmerged : resolved = mergeBases kind bases := by
    obtain ⟨others, hothers, hlength⟩ := exists_resolveKindExtends_iff.mp ⟨resolved, hresolved⟩
    obtain rfl := hbases.unique hothers
    exact Except.ok.inj (hresolved.symm.trans (extendOver_of_basesOf hbases hlength))
  subst hmerged
  constructor
  · rintro rfl
    rfl
  · intro hne
    refine mergedFrom_mergeBases hbases hne fun k hk ↦ ?_
    rcases List.mem_cons.mp hk with rfl | hbase
    · exact hraw
    · exact hbases.behaviourChain_eq_nil hfetched k hbase

end Resolutions

/-- A kind with one base is resolved. -/
theorem resolveKindExtends_fold_derived :
    ((∃ resolved, resolveKindExtends fetchKind twoKinds.kinds
        (kindOf derivedPath (some basePath)) = .ok resolved) ↔
      ∃ bases, BasesOf fetchKind twoKinds.kinds (some basePath.protocolId) bases ∧
        bases.length ≤ 8) ∧
    ∀ bases resolved, BasesOf fetchKind twoKinds.kinds (some basePath.protocolId) bases →
      resolveKindExtends fetchKind twoKinds.kinds (kindOf derivedPath (some basePath)) =
        .ok resolved →
      (bases = [] → resolved = kindOf derivedPath (some basePath)) ∧
      (bases ≠ [] → MergedFrom (kindOf derivedPath (some basePath)) bases resolved) := by
  have hfetched (cid : ℕ) (base : KindNode ℕ) (h : fetchKind cid = .ok base) :
      base.behaviourChain = [] := by
    unfold fetchKind at h
    split at h
    · exact Except.ok.inj h ▸ rfl
    · exact Except.ok.inj h ▸ rfl
    · exact Except.ok.inj h ▸ rfl
    · cases h
  have hraw : (kindOf derivedPath (some basePath)).behaviourChain = [] := rfl
  exact resolveKindExtends_fold hraw hfetched

end MaRuntime.Kinds
