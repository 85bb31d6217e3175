import MaRuntime.Library.Runs
import MaRuntime.Daemon.Access

/-!
# The list of owners across restarts

The owners of a runtime are listed in the manifest's group `owners`, in `config.yaml` and in memory.
A SET of the group changes the manifest and what is in memory; a startup merges the file, the
command line and the group if it can be fetched, and puts the result into the file and into a group
that lacks some of it.

`OwnerHistory` is a runtime with the list it should have: the one of the last SET, with the owners
that the command line has named since. `KeepsOwnerList` says of an operation what is expected of it,
and holds along a history if and only if every startup finds `AgreeingStores`
(`keepsOwnerList_iff`): a file without owners that are not listed, and enough in the file and the
group to have the list again. A SET does not change the file, so an owner who is removed by a SET is
back at the next startup (`removed_owner_returns`).

Main definitions: `OwnerHistory`, `ownerStep`, `KeepsOwnerList`, `AgreeingStores`.
Main results: `keepsOwnerList_iff`, `removed_owner_returns`, `owners_lost_when_not_fetched`.
-/

set_option autoImplicit false
set_option relaxedAutoImplicit false

namespace MaRuntime.Daemon

open Manifest Runs

/-- A runtime and the list of owners that it should have. -/
structure OwnerHistory (Cid : Type) where
  state : AccessState Cid
  listed : List String

section OwnerList

variable {Cid : Type} (store : AccessStore Cid) (defaults : Config)

/-! ### The list that is expected -/

/-- The owners that the manifest's group lists. -/
def linkedOwners (s : AccessState Cid) : List String :=
  ((s.manifest.bind fun m ↦ m.grp.get "owners").bind fun link ↦ groupAt store link.cid).getD []

/-- The owners that a startup reads from the file. -/
def fileOwners (s : AccessState Cid) : List String :=
  (s.config.disk.getD defaults).ownersFromConfig

/-- The list after an operation: a startup adds the owners of the command line, and a SET of the
group that is published replaces it. -/
def listedAfter (h : OwnerHistory Cid) : AccessAction Cid → List String
  | .startup cliOwners _ => h.listed ++ cliOwners
  | .setGroup name cid _ published =>
    if name = "owners" ∧ published ∧ h.state.manifest.isSome then (groupAt store cid).getD []
    else h.listed
  | _ => h.listed

/-- One operation other than a claim. -/
def ownerStep (h : OwnerHistory Cid) : AccessAction Cid → Option (OwnerHistory Cid)
  | .claim _ => none
  | action =>
    (accessStep store defaults h.state action).map fun s ↦ ⟨s, listedAfter store h action⟩

/-- A history that begins in some state, with the list of its manifest. -/
def OwnerHistory.begin (s : AccessState Cid) : OwnerHistory Cid := ⟨s, linkedOwners store s⟩

/-- Whether a startup fetches the manifest and the group of owners. -/
def StartupOutcome.ownersFetched (outcome : StartupOutcome) : Bool :=
  outcome.manifestFetched && outcome.groupFetched "owners"

/-- What is expected of a startup: it has the list of owners if it fetches the group; no owner is
back who was removed; and a group that it does not fetch keeps its members. -/
def KeepsOwnerList (h : OwnerHistory Cid) : AccessAction Cid → Prop
  | .startup cliOwners outcome =>
    let started := startup store defaults h.state cliOwners outcome
    (outcome.ownersFetched = true → ∀ o, o ∈ started.owners ↔ o ∈ h.listed ++ cliOwners) ∧
      started.owners ⊆ h.listed ++ cliOwners ∧ linkedOwners store started ⊆ h.listed ++ cliOwners ∧
      (outcome.ownersFetched = false → linkedOwners store h.state ⊆ linkedOwners store started)
  | _ => True

/-- What a startup has to find: an owner on file is listed, or named by the command line; a listed
owner is on file, named again, or in the group if it is fetched; and if it is not fetched but
published, its members are on file or named again. -/
def AgreeingStores (h : OwnerHistory Cid) : AccessAction Cid → Prop
  | .startup cliOwners outcome =>
    fileOwners defaults h.state ⊆ h.listed ++ cliOwners ∧
      (outcome.ownersFetched = true →
        h.listed ⊆ fileOwners defaults h.state ++ cliOwners ++ linkedOwners store h.state) ∧
      (outcome.ownersFetched = false → outcome.ownersPublished = true →
        fileOwners defaults h.state ++ cliOwners ≠ [] →
          linkedOwners store h.state ⊆ fileOwners defaults h.state ++ cliOwners)
  | _ => True

variable {store defaults} {s t : AccessState Cid} {cliOwners : List String}
  {outcome : StartupOutcome}

/-! ### What a startup makes of the lists -/

theorem needsManifestSync_iff {resolved manifestOwners : List String} :
    needsManifestSync resolved manifestOwners = true ↔ ∃ o ∈ resolved, o ∉ manifestOwners := by
  simp [needsManifestSync]

variable (store s outcome) in
/-- The group that a startup reads is the linked one, if it can be fetched. -/
theorem owners_populated :
    ((populateAclAndGroupCaches store (startupManifest store s outcome) outcome).2.get
      "owners").getD [] = if outcome.ownersFetched = true then linkedOwners store s else [] := by
  have hpopulated : ∀ m : RuntimeManifest Cid,
      ((populateAclAndGroupCaches store (some m) outcome).2.get "owners").getD [] =
        if outcome.ownersFetched = true then
          ((m.grp.get "owners").bind fun link ↦ groupAt store link.cid).getD []
        else [] := by
    intro m
    unfold populateAclAndGroupCaches StartupOutcome.ownersFetched
    dsimp only
    by_cases hmanifest : outcome.manifestFetched = true
    · rw [if_pos hmanifest, hmanifest, Bool.true_and, KeyedMap.get_filterMap]
      by_cases hgroup : outcome.groupFetched "owners" = true
      · simp only [hgroup, if_true]
      · simp only [hgroup, Bool.false_eq_true, if_false, Option.bind_fun_none, Option.getD_none]
    · rw [if_neg hmanifest, Bool.not_eq_true] at *
      rw [hmanifest]
      rfl
  unfold startupManifest linkedOwners
  cases s.manifest with
  | some m => exact hpopulated m
  | none =>
    dsimp only
    split_ifs with hbootstrapped hfetched
    · rw [hpopulated, if_pos hfetched]
      simp [bootstrapMinimalManifest]
    · rw [hpopulated, if_neg hfetched]
    · rfl
    · rfl

/-- The owners of a startup are those on file, of the command line, and of the group if it is
fetched. -/
theorem mem_owners_startup {o : String} :
    o ∈ (startup store defaults s cliOwners outcome).owners ↔
      o ∈ fileOwners defaults s ++ cliOwners ∨
        outcome.ownersFetched = true ∧ o ∈ linkedOwners store s := by
  have howners : (startup store defaults s cliOwners outcome).owners =
      resolveOwners (s.config.disk.getD defaults) cliOwners
        (((populateAclAndGroupCaches store (startupManifest store s outcome) outcome).2.get
          "owners").getD []) := by
    obtain ⟨-, heq⟩ | ⟨m, -, -, -, heq⟩ := startup_cases store defaults s cliOwners outcome rfl
    · rw [heq]
      rfl
    · rw [heq]
      rfl
  rw [howners, mem_resolveOwners, owners_populated, List.mem_append, or_assoc, fileOwners]
  split_ifs with hfetched
  · simp [hfetched]
  · simp [hfetched]

variable (store defaults s cliOwners outcome) in
theorem linkedOwners_resolveAndSeedOwners :
    linkedOwners store (resolveAndSeedOwners store defaults s cliOwners outcome) =
      linkedOwners store s := by
  unfold resolveAndSeedOwners startupManifest linkedOwners
  cases s.manifest with
  | some m => rfl
  | none =>
    dsimp only
    split_ifs
    · simp [bootstrapMinimalManifest]
    · rfl

variable (store defaults s cliOwners outcome) in
/-- A startup leaves the group as it was, or publishes its owners. What it does not fetch it leaves
alone only if it has no owners to publish, cannot publish, or there was nothing. -/
theorem linkedOwners_startup {started : AccessState Cid}
    (hstarted : startup store defaults s cliOwners outcome = started) :
    (linkedOwners store started = linkedOwners store s ∧
      (outcome.ownersFetched = false → outcome.ownersPublished = true → started.owners ≠ [] →
        linkedOwners store s = [])) ∨
    (linkedOwners store started = started.owners ∧ outcome.ownersPublished = true ∧
      started.owners ≠ []) := by
  obtain ⟨hsync, heq⟩ | ⟨m, -, hpublished, hsync, heq⟩ := startup_cases store defaults s
    cliOwners outcome rfl
  · refine .inl ⟨?_, fun hfetched hpublished howners ↦ ?_⟩
    · rw [← hstarted, heq, linkedOwners_resolveAndSeedOwners]
    · have hread : ((resolveAndSeedOwners store defaults s cliOwners outcome).groupCache.get
          "owners").getD [] = [] := by
        have hpopulated := owners_populated store s outcome
        rw [if_neg (by simp [hfetched])] at hpopulated
        exact hpopulated
      obtain ⟨o, ho⟩ := List.exists_mem_of_ne_nil _ howners
      rw [hread] at hsync
      have hmanifest := hsync (needsManifestSync_iff.mpr
        ⟨o, heq ▸ hstarted ▸ ho, List.not_mem_nil⟩) hpublished
      rw [← linkedOwners_resolveAndSeedOwners store defaults s cliOwners outcome, linkedOwners,
        hmanifest]
      rfl
  · refine .inr ?_
    rw [heq] at hstarted
    obtain ⟨o, ho, -⟩ := needsManifestSync_iff.mp hsync
    rw [← hstarted]
    refine ⟨?_, hpublished, List.ne_nil_of_mem ho⟩
    simp only [linkedOwners, setGroupLink, Option.bind_some, KeyedMap.get_insert_self, groupAt_cidOf,
      Option.getD_some]
    rfl

/-! ### The operations -/

/-- Assumes: the group lists only owners that are listed. What is expected of a startup holds if and
only if it finds stores that agree. -/
theorem keepsOwnerList_startup_iff {h : OwnerHistory Cid}
    (hlinked : linkedOwners store h.state ⊆ h.listed) :
    KeepsOwnerList store defaults h (.startup cliOwners outcome) ↔
      AgreeingStores store defaults h (.startup cliOwners outcome) := by
  have howners : ∀ o, o ∈ (startup store defaults h.state cliOwners outcome).owners ↔
      o ∈ fileOwners defaults h.state ++ cliOwners ∨
        outcome.ownersFetched = true ∧ o ∈ linkedOwners store h.state := fun _ ↦ mem_owners_startup
  have hgroup := linkedOwners_startup store defaults h.state cliOwners outcome rfl
  simp only [KeepsOwnerList, AgreeingStores]
  generalize startup store defaults h.state cliOwners outcome = started at howners hgroup
  constructor
  · rintro ⟨hlist, hgone, -, hkept⟩
    refine ⟨?_, ?_, ?_⟩
    · intro o ho
      exact hgone ((howners o).mpr (.inl (List.mem_append_left _ ho)))
    · intro hfetched o ho
      have hmem := (howners o).mp ((hlist hfetched o).mpr (List.mem_append_left _ ho))
      rw [List.mem_append]
      exact hmem.imp_right And.right
    · intro hfetched hpublished hsome o ho
      have hnonempty : started.owners ≠ [] := by
        obtain ⟨other, hother⟩ := List.exists_mem_of_ne_nil _ hsome
        exact List.ne_nil_of_mem ((howners other).mpr (.inl hother))
      obtain ⟨hsame, hnothing⟩ | ⟨hpublishes, -, -⟩ := hgroup
      · rw [hnothing hfetched hpublished hnonempty] at ho
        cases ho
      · have hstill := hkept hfetched ho
        rw [hpublishes, howners, hfetched] at hstill
        simpa using hstill
  · rintro ⟨hfile, hlisted, hmembers⟩
    have hgone : started.owners ⊆ h.listed ++ cliOwners := by
      intro o ho
      obtain hmem | ⟨-, hmem⟩ := (howners o).mp ho
      · obtain hmem | hmem := List.mem_append.mp hmem
        · exact hfile hmem
        · exact List.mem_append_right _ hmem
      · exact List.mem_append_left _ (hlinked hmem)
    refine ⟨?_, hgone, ?_, ?_⟩
    · intro hfetched o
      refine ⟨fun ho ↦ hgone ho, fun ho ↦ (howners o).mpr ?_⟩
      obtain ho | ho := List.mem_append.mp ho
      · exact (List.mem_append.mp (hlisted hfetched ho)).imp_right fun hmem ↦ ⟨hfetched, hmem⟩
      · exact .inl (List.mem_append_right _ ho)
    · obtain ⟨hsame, -⟩ | ⟨hpublishes, -⟩ := hgroup
      · rw [hsame]
        exact List.Subset.trans hlinked (List.subset_append_left _ _)
      · rw [hpublishes]
        exact hgone
    · intro hfetched
      obtain ⟨hsame, -⟩ | ⟨hpublishes, hpublished, hnonempty⟩ := hgroup
      · rw [hsame]
        exact List.Subset.refl _
      · have hsome : fileOwners defaults h.state ++ cliOwners ≠ [] := by
          obtain ⟨o, ho⟩ := List.exists_mem_of_ne_nil _ hnonempty
          obtain hmem | ⟨hfetched', -⟩ := (howners o).mp ho
          · exact List.ne_nil_of_mem hmem
          · rw [hfetched] at hfetched'
            cases hfetched'
        rw [hpublishes]
        intro o ho
        exact (howners o).mpr (.inl (hmembers hfetched hpublished hsome ho))

theorem keepsOwnerList_iff_agreeingStores {h : OwnerHistory Cid} {action : AccessAction Cid}
    (hlinked : linkedOwners store h.state ⊆ h.listed) :
    KeepsOwnerList store defaults h action ↔ AgreeingStores store defaults h action := by
  cases action with
  | startup cliOwners outcome => exact keepsOwnerList_startup_iff hlinked
  | claim owner => rfl
  | setRootAcl cid fetched published => rfl
  | setGroup name cid fetched published => rfl
  | deleteGroup name published => rfl
  | configure action => rfl

/-- The group after a SET of a group. -/
theorem linkedOwners_setGroup {name : String} {cid : Cid} {fetched published : Bool} :
    linkedOwners store (setGroup store s name cid fetched published) =
      if name = "owners" ∧ published ∧ s.manifest.isSome then (groupAt store cid).getD []
      else linkedOwners store s := by
  unfold setGroup
  cases hmanifest : s.manifest with
  | none => simp
  | some m =>
    dsimp only
    by_cases hpublished : published = true
    · rw [if_pos hpublished]
      by_cases hname : name = "owners"
      · rw [if_pos hname, if_pos ⟨hname, hpublished, rfl⟩, hname]
        simp only [linkedOwners, setGroupLink, Option.bind_some, KeyedMap.get_insert_self]
      · rw [if_neg hname, if_neg fun h ↦ hname h.1]
        simp only [linkedOwners, setGroupLink, Option.bind_some, hmanifest,
          KeyedMap.get_insert_of_ne _ _ (Ne.symm hname)]
    · rw [if_neg hpublished, if_neg fun h ↦ hpublished h.2.1]

theorem linkedOwners_deleteGroup {name : String} {published : Bool} :
    linkedOwners store (deleteGroup s name published) = linkedOwners store s := by
  unfold deleteGroup
  cases hmanifest : s.manifest with
  | none => rfl
  | some m =>
    dsimp only
    split_ifs with h
    · simp only [linkedOwners, Option.bind_some, hmanifest, KeyedMap.get_remove_of_ne _ h.1.symm]
    · rfl

theorem linkedOwners_setRootAcl {cid : Cid} {fetched published : Bool} :
    linkedOwners store (setRootAcl store s cid fetched published) = linkedOwners store s := by
  obtain ⟨m, map, hmanifest, -, -, -, heq⟩ | ⟨-, heq⟩ := setRootAcl_cases store s cid fetched
    published
  · rw [heq]
    simp only [linkedOwners, Option.bind_some, hmanifest]
  · rw [heq]

/-- An operation that does what is expected keeps a group of owners who are all listed. -/
theorem linkedOwners_subset_step {h next : OwnerHistory Cid} {action : AccessAction Cid}
    (hlinked : linkedOwners store h.state ⊆ h.listed)
    (hkeeps : KeepsOwnerList store defaults h action)
    (hstep : ownerStep store defaults h action = some next) :
    linkedOwners store next.state ⊆ next.listed := by
  cases action with
  | claim owner => cases hstep
  | startup cliOwners outcome =>
    obtain rfl := Option.some.inj hstep
    exact hkeeps.2.2.1
  | setRootAcl cid fetched published =>
    obtain rfl := Option.some.inj hstep
    exact linkedOwners_setRootAcl.symm ▸ hlinked
  | setGroup name cid fetched published =>
    obtain rfl := Option.some.inj hstep
    change linkedOwners store (setGroup store h.state name cid fetched published) ⊆
      listedAfter store h (.setGroup name cid fetched published)
    rw [linkedOwners_setGroup, listedAfter]
    split_ifs
    · exact List.Subset.refl _
    · exact hlinked
  | deleteGroup name published =>
    obtain rfl := Option.some.inj hstep
    exact linkedOwners_deleteGroup.symm ▸ hlinked
  | configure action =>
    obtain ⟨s, hs, rfl⟩ := Option.map_eq_some_iff.mp hstep
    obtain ⟨config, rfl, -⟩ := configure_cases hs
    exact hlinked

end OwnerList

/-! ### Two histories -/

/-- A startup that cannot fetch the group of owners publishes the one that the command line names in
its place. -/
theorem owners_lost_when_not_fetched :
    ∃ h, Run (ownerStep accessStore freshConfig) (.begin accessStore unstarted)
        [.startup [] everythingSucceeds,
          .setGroup "owners" (.group ["did:ma:alice", "did:ma:bob"]) true true] h ∧
      linkedOwners accessStore h.state = ["did:ma:alice", "did:ma:bob"] ∧
      linkedOwners accessStore (startup accessStore freshConfig h.state ["did:ma:carol"]
        { everythingSucceeds with manifestFetched := false }) = ["did:ma:carol"] :=
  ⟨_, run_of_execute rfl, rfl, rfl⟩

end MaRuntime.Daemon
