import MaRuntime.Manifest.Head

/-!
# The root in the statistics

Everybody but the writer reads the root of the runtime from the statistics. A mutation copies the
writer's new root there while it holds the writer's lock, one await after the writer has it; the
shutdown copies the root it has saved there again, without the lock.

`statsRoot_eq` says that the two roots are the same whenever the lock is free, and that the root in
the statistics never moves back, along every run in which no handler is cancelled between the two
copies, and the shutdown finds in the statistics the root that it is about to write (`KeepsHead`).
A cancellation in between leaves the statistics behind the writer (`statsRoot_behind`), and a
mutation that ends before the shutdown's own copy is taken back from the statistics
(`statsRoot_taken_back`).

Main definitions: `HeadEffect`, `KeepsHead`.
Main results: `headEffect_of_step`, `statsRoot_eq`, `statsRoot_behind`, `statsRoot_taken_back`.
-/

set_option autoImplicit false
set_option relaxedAutoImplicit false

namespace MaRuntime.Manifest

open Runs

variable {Cid Replies : Type} {store : Store Cid} {w w' : WriterState Cid Replies}
  {s t : HeadState Cid Replies} {i : Nat} {task : Task Cid Replies} {newCid : Cid}

/-! ### What a step does to the roots -/

/-- What a step does to the writer's root and to the one in the statistics, with its number. -/
inductive HeadEffect (s t : HeadState Cid Replies) : HeadAction Cid Replies → Prop
  | keep {action : HeadAction Cid Replies} (hwriter : t.writer = s.writer)
    (hpublished : t.published = s.published) (hnumber : t.rootNumber = s.rootNumber) :
    HeadEffect s t action
  | pass {action : HeadAction Cid Replies} {i : Nat} {task : Task Cid Replies}
    (hpasses : Passes s.writer t.writer i task)
    (hpublished : t.published = s.published) (hnumber : t.rootNumber = s.rootNumber) :
    HeadEffect s t action
  | publish {action : HeadAction Cid Replies} {i : Nat} {task : Task Cid Replies} {newCid : Cid}
    (hbefore : holdsLock (s.writer.tasks i) = true) (hafter : statsCid (some task) = some newCid)
    (htasks : t.writer.tasks = Function.update s.writer.tasks i (some task))
    (hcid : t.writer.cid = newCid) (hrootCid : t.writer.rootCid = s.writer.rootCid)
    (hlock : t.writer.lock = s.writer.lock) (hpublished : t.published = s.published ++ [newCid])
    (hnumber : t.rootNumber = s.rootNumber) : HeadEffect s t action
  | stats {action : HeadAction Cid Replies} {i : Nat} {task : Task Cid Replies} {newCid : Cid}
    (hbefore : statsCid (s.writer.tasks i) = some newCid)
    (htasks : t.writer.tasks = Function.update s.writer.tasks i (some task))
    (hafter : holdsLock (some task) = false) (hcid : t.writer.cid = s.writer.cid)
    (hrootCid : t.writer.rootCid = some newCid) (hlock : t.writer.lock = none)
    (hpublished : t.published = s.published) (hnumber : t.rootNumber = s.lastNumber) :
    HeadEffect s t action
  | cancel {i : Nat} {newCid : Cid} (hbefore : statsCid (s.writer.tasks i) = some newCid)
    (hwriter : t.writer = s.writer.release i .failed) (hpublished : t.published = s.published)
    (hnumber : t.rootNumber = s.rootNumber) : HeadEffect s t (.cancel i)
  | write {rc : Snapshot Cid} {saved : Head Cid} {succeeds : Bool}
    (hshutdown : s.shutdown = .writingStats rc saved)
    (hwriter : t.writer = { s.writer with rootCid := some saved.cid })
    (hpublished : t.published = s.published)
    (hnumber : s.writer.rootCid = some saved.cid → t.rootNumber = s.rootNumber) :
    HeadEffect s t (.shutdownNext succeeds)

theorem headEffect_afterWriter {action : WriterAction Cid Replies}
    {headAction : HeadAction Cid Replies} (h : RootStep s.writer w action) :
    HeadEffect s (s.afterWriter action w) headAction := by
  cases h with
  | pass task hpasses hunpinned hstats =>
    cases action with
    | reply i succeeds =>
      refine .pass hpasses ?_ rfl
      simp only [HeadState.afterWriter, hunpinned i succeeds rfl, Option.toList_none,
        List.append_nil]
    | stats i => exact absurd rfl (hstats i)
    | call i call | lock i | closure i replies => exact .pass hpasses rfl rfl
  | publish hpinned hholds htasks hcid hrootCid hlock =>
    refine .publish hholds rfl htasks hcid hrootCid hlock ?_ rfl
    simp only [HeadState.afterWriter, hpinned, Option.toList_some]
  | stats hstats htasks hafter hcid hrootCid hlock =>
    exact .stats hstats htasks hafter hcid hrootCid hlock rfl rfl

/-- A call that begins is a step that passes. -/
theorem passes_of_call {call : WriterCall Cid Replies}
    (h : writerStep store w (.call i call) = some w') : ∃ task, Passes w w' i task := by
  cases rootStep_writerStep h with
  | pass task hpasses _ _ => exact ⟨task, hpasses⟩

theorem headEffect_cancelTask (h : s.cancelTask i = some t) : HeadEffect s t (.cancel i) := by
  unfold HeadState.cancelTask at h
  split at h
  · rename_i _ htask
    obtain rfl := Option.some.inj h
    exact .pass (passes_setTask s.writer (by rw [htask]; rfl) rfl) rfl rfl
  · rename_i _ htask
    obtain rfl := Option.some.inj h
    exact .pass (passes_setTask s.writer (by rw [htask]; rfl) rfl) rfl rfl
  · rename_i mutation oldCid phase _ htask
    obtain rfl := Option.some.inj h
    cases hstats : statsCid (s.writer.tasks i) with
    | none =>
      have hlock : HasLock s.writer s.writer i := .self (by rw [htask]; rfl) hstats
      exact .pass (hlock.release s.writer.manifest rfl) rfl rfl
    | some newCid => exact .cancel hstats rfl rfl rfl
  · cases h

section Steps

variable [DecidableEq Cid]

theorem persistRootCid_shared (s : HeadState Cid Replies) (root : Snapshot Cid) (saves : Bool) :
    (s.persistRootCid root saves).writer = s.writer ∧
      (s.persistRootCid root saves).published = s.published ∧
      (s.persistRootCid root saves).rootNumber = s.rootNumber := by
  unfold HeadState.persistRootCid
  split_ifs
  all_goals exact ⟨rfl, rfl, rfl⟩

theorem headEffect_shutdownNext {succeeds : Bool} (h : s.shutdownNext succeeds = some t) :
    HeadEffect s t (.shutdownNext succeeds) := by
  unfold HeadState.shutdownNext at h
  split at h
  · split at h
    · obtain rfl := Option.some.inj h
      exact .keep rfl rfl rfl
    · cases h
  · rename_i rc saved hshutdown
    obtain rfl := Option.some.inj h
    exact .write hshutdown rfl rfl fun hsame ↦ if_pos hsame
  · obtain rfl := Option.some.inj h
    exact .keep rfl rfl rfl
  · rename_i latest _
    obtain rfl := Option.some.inj h
    obtain ⟨hwriter, hpublished, hnumber⟩ := persistRootCid_shared s latest succeeds
    exact .keep hwriter hpublished hnumber
  · split_ifs at h
    · obtain rfl := Option.some.inj h
      exact .keep rfl rfl rfl
    · obtain rfl := Option.some.inj h
      exact .keep rfl rfl rfl
  · cases h
  · cases h

theorem headEffect_republishNext {succeeds : Bool} (h : s.republishNext succeeds = some t) :
    HeadEffect s t (.republishNext succeeds) := by
  unfold HeadState.republishNext at h
  split at h
  · obtain rfl := Option.some.inj h
    exact .keep rfl rfl rfl
  · split_ifs at h
    all_goals
      obtain rfl := Option.some.inj h
      exact .keep rfl rfl rfl
  · rename_i latest _
    obtain rfl := Option.some.inj h
    obtain ⟨hwriter, hpublished, hnumber⟩ := persistRootCid_shared s latest succeeds
    exact .keep hwriter hpublished hnumber
  · cases h

/-- What every step does to the roots. -/
theorem headEffect_of_step {action : HeadAction Cid Replies}
    (h : headStep store s action = some t) : HeadEffect s t action := by
  cases action with
  | writer action =>
    obtain ⟨writer, hwriter, rfl⟩ := Option.map_eq_some_iff.mp h
    exact headEffect_afterWriter (rootStep_writerStep hwriter)
  | crud i call =>
    obtain ⟨writer, hwriter, rfl⟩ := Option.map_eq_some_iff.mp h
    obtain ⟨task, hpasses⟩ := passes_of_call hwriter
    exact .pass hpasses rfl rfl
  | cancel i => exact headEffect_cancelTask h
  | shutdown i save hasEntities =>
    simp only [headStep] at h
    split at h
    · obtain rfl := Option.some.inj h
      exact .keep rfl rfl rfl
    · split_ifs at h
      · obtain ⟨writer, hwriter, rfl⟩ := Option.map_eq_some_iff.mp h
        obtain ⟨task, hpasses⟩ := passes_of_call hwriter
        exact .pass hpasses rfl rfl
      · obtain rfl := Option.some.inj h
        exact .keep rfl rfl rfl
    · cases h
  | shutdownNext succeeds => exact headEffect_shutdownNext h
  | tick cacheWarm builds =>
    simp only [headStep] at h
    split at h
    · obtain rfl := Option.some.inj h
      exact .keep rfl rfl rfl
    · split_ifs at h
      all_goals
        obtain rfl := Option.some.inj h
        exact .keep rfl rfl rfl
    · cases h
  | republishNext succeeds => exact headEffect_republishNext h
  | request id =>
    simp only [headStep] at h
    split at h
    · obtain rfl := Option.some.inj h
      exact .keep rfl rfl rfl
    · obtain rfl := Option.some.inj h
      exact .keep rfl rfl rfl
    · cases h
  | requestNext id succeeds =>
    simp only [headStep] at h
    split at h
    · split_ifs at h
      · obtain rfl := Option.some.inj h
        exact .keep rfl rfl rfl
      · obtain rfl := Option.some.inj h
        exact .keep rfl rfl rfl
    · cases h

end Steps

/-! ### The condition and the invariant -/

/-- A shutdown that is about to write the root it has saved to the statistics finds it there. -/
def FindsSaved (s : HeadState Cid Replies) : HeadAction Cid Replies → Prop
  | .shutdownNext _ => ∀ rc saved, s.shutdown = .writingStats rc saved →
      s.writer.rootCid = some saved.cid
  | _ => True

/-- No handler is cancelled between the writer's new root and its copy in the statistics, unless the
copy is there already; and the shutdown finds what it has saved. -/
structure KeepsHead (s : HeadState Cid Replies) (action : HeadAction Cid Replies) : Prop where
  copied : ∀ i newCid, action = .cancel i → statsCid (s.writer.tasks i) = some newCid →
    s.writer.rootCid = some newCid
  saved : FindsSaved s action

/-- The task that has the lock is the only one, and a root that is about to be copied to the
statistics is the writer's. -/
structure Locked (w : WriterState Cid Replies) : Prop where
  holder : ∀ i, holdsLock (w.tasks i) = true → w.lock = some i
  writing : ∀ i newCid, statsCid (w.tasks i) = some newCid → w.cid = newCid

/-- The roots are the same when none is about to be copied. -/
def Current (w : WriterState Cid Replies) : Prop :=
  (∀ i, statsCid (w.tasks i) = none) → w.rootCid = some w.cid

/-- The writer's root was published last, and the one in the statistics under its number. -/
structure Numbered (s : HeadState Cid Replies) : Prop where
  last : s.published.getLast? = some s.writer.cid
  root : s.published[s.rootNumber]? = s.writer.rootCid
  isSome : s.writer.rootCid ≠ none

theorem holdsLock_of_statsCid {task : Option (Task Cid Replies)}
    (h : statsCid task = some newCid) : holdsLock task = true := by
  unfold statsCid at h
  split at h
  · rfl
  · cases h

/-- Where one task has the lock, the others do not. -/
theorem Locked.not_holdsLock (hw : Locked w) {other : Nat} (hholds : holdsLock (w.tasks i) = true)
    (hother : other ≠ i) : holdsLock (w.tasks other) = false := by
  rw [← Bool.not_eq_true]
  intro hboth
  exact hother (Option.some.inj ((hw.holder other hboth).symm.trans (hw.holder i hholds)))

theorem Locked.pass (hw : Locked w) (h : Passes w w' i task) : Locked w' := by
  constructor
  · intro other hother
    rw [h.tasks] at hother
    by_cases hsame : other = i
    · subst hsame
      rw [Function.update_self] at hother
      rcases h.lock with ⟨-, ⟨hlock, -⟩ | ⟨hlock, hholds⟩⟩ | ⟨hnot, -⟩
      · exact hlock
      · exact hlock.trans (hw.holder other hholds)
      · rw [hother] at hnot
        cases hnot
    · rw [Function.update_of_ne hsame] at hother
      have hlock := hw.holder other hother
      rcases h.lock with ⟨-, ⟨-, hfree⟩ | ⟨hkept, -⟩⟩ | ⟨-, ⟨-, hholds⟩ | hkept⟩
      · cases hfree.symm.trans hlock
      · exact hkept.trans hlock
      · exact absurd (Option.some.inj (hlock.symm.trans (hw.holder i hholds))) hsame
      · exact hkept.trans hlock
  · intro other newCid hstats
    rw [h.tasks] at hstats
    rw [h.cid]
    by_cases hsame : other = i
    · rw [hsame, Function.update_self, h.after] at hstats
      cases hstats
    · rw [Function.update_of_ne hsame] at hstats
      exact hw.writing other newCid hstats

/-- A step of the task that has the lock. -/
theorem Locked.of_holder (hw : Locked w) (hholds : holdsLock (w.tasks i) = true)
    (htasks : w'.tasks = Function.update w.tasks i (some task))
    (hlock : holdsLock (some task) = true → w'.lock = some i)
    (hwriting : ∀ newCid, statsCid (some task) = some newCid → w'.cid = newCid) : Locked w' := by
  constructor
  · intro other hother
    rw [htasks] at hother
    by_cases hsame : other = i
    · rw [hsame, Function.update_self] at hother
      rw [hsame]
      exact hlock hother
    · rw [Function.update_of_ne hsame, hw.not_holdsLock hholds hsame] at hother
      cases hother
  · intro other newCid hstats
    rw [htasks] at hstats
    by_cases hsame : other = i
    · rw [hsame, Function.update_self] at hstats
      exact hwriting newCid hstats
    · rw [Function.update_of_ne hsame] at hstats
      have hnot := hw.not_holdsLock hholds hsame
      rw [holdsLock_of_statsCid hstats] at hnot
      cases hnot

theorem Locked.step {action : HeadAction Cid Replies} (hw : Locked s.writer)
    (h : HeadEffect s t action) : Locked t.writer := by
  cases h with
  | keep hwriter hpublished hnumber =>
    rw [hwriter]
    exact hw
  | pass hpasses hpublished hnumber => exact hw.pass hpasses
  | publish hbefore hafter htasks hcid hrootCid hlock hpublished hnumber =>
    refine hw.of_holder hbefore htasks (fun _ ↦ hlock.trans (hw.holder _ hbefore)) ?_
    intro newCid hstats
    exact hcid.trans (Option.some.inj (hafter.symm.trans hstats))
  | stats hbefore htasks hafter hcid hrootCid hlock hpublished hnumber =>
    refine hw.of_holder (holdsLock_of_statsCid hbefore) htasks ?_ ?_
    · intro hholds
      cases hafter.symm.trans hholds
    · intro newCid hstats
      cases hafter.symm.trans (holdsLock_of_statsCid hstats)
  | cancel hbefore hwriter hpublished hnumber =>
    rw [hwriter]
    exact hw.of_holder (holdsLock_of_statsCid hbefore) rfl (fun hholds ↦ (nomatch hholds))
      fun _ hstats ↦ (nomatch hstats)
  | write hshutdown hwriter hpublished hnumber =>
    rw [hwriter]
    exact ⟨hw.holder, hw.writing⟩

theorem Current.pass (hs : Current w) (h : Passes w w' i task) : Current w' := by
  intro hnone
  rw [h.rootCid, h.cid]
  refine hs fun other ↦ ?_
  by_cases hsame : other = i
  · rw [hsame]
    exact h.before
  · have hafter := hnone other
    rwa [h.tasks, Function.update_of_ne hsame] at hafter

theorem Current.step {action : HeadAction Cid Replies} (hs : Current s.writer)
    (hw : Locked s.writer) (hkeeps : KeepsHead s action) (h : HeadEffect s t action) :
    Current t.writer := by
  cases h with
  | keep hwriter hpublished hnumber =>
    rw [hwriter]
    exact hs
  | pass hpasses hpublished hnumber => exact hs.pass hpasses
  | @publish _ i task newCid hbefore hafter htasks hcid hrootCid hlock hpublished hnumber =>
    intro hnone
    have hself := hnone i
    rw [htasks, Function.update_self, hafter] at hself
    cases hself
  | stats hbefore htasks hafter hcid hrootCid hlock hpublished hnumber =>
    intro _
    rw [hrootCid, hcid, hw.writing _ _ hbefore]
  | cancel hbefore hwriter hpublished hnumber =>
    intro _
    rw [hwriter]
    exact (hkeeps.copied _ _ rfl hbefore).trans (congrArg some (hw.writing _ _ hbefore).symm)
  | write hshutdown hwriter hpublished hnumber =>
    rw [hwriter, ← hkeeps.saved _ _ hshutdown]
    exact hs

theorem Numbered.lt_length (hs : Numbered s) : s.rootNumber < s.published.length := by
  by_contra hge
  have hnone := List.getElem?_eq_none (Nat.le_of_not_lt hge)
  exact hs.isSome (hs.root.symm.trans hnone)

theorem Numbered.step {action : HeadAction Cid Replies} (hs : Numbered s) (hw : Locked s.writer)
    (hfinds : FindsSaved s action) (h : HeadEffect s t action) :
    Numbered t ∧ s.rootNumber ≤ t.rootNumber := by
  have hsame (hcid : t.writer.cid = s.writer.cid) (hrootCid : t.writer.rootCid = s.writer.rootCid)
      (hpublished : t.published = s.published) (hnumber : t.rootNumber = s.rootNumber) :
      Numbered t ∧ s.rootNumber ≤ t.rootNumber := by
    refine ⟨⟨?_, ?_, ?_⟩, Nat.le_of_eq hnumber.symm⟩
    · rw [hpublished, hcid]
      exact hs.last
    · rw [hpublished, hnumber, hrootCid]
      exact hs.root
    · rw [hrootCid]
      exact hs.isSome
  cases h with
  | keep hwriter hpublished hnumber =>
    exact hsame (congrArg WriterState.cid hwriter) (congrArg WriterState.rootCid hwriter) hpublished
      hnumber
  | pass hpasses hpublished hnumber => exact hsame hpasses.cid hpasses.rootCid hpublished hnumber
  | publish hbefore hafter htasks hcid hrootCid hlock hpublished hnumber =>
    refine ⟨⟨?_, ?_, ?_⟩, Nat.le_of_eq hnumber.symm⟩
    · rw [hpublished, List.getLast?_concat, hcid]
    · rw [hpublished, hnumber, hrootCid, List.getElem?_append_left hs.lt_length]
      exact hs.root
    · rw [hrootCid]
      exact hs.isSome
  | stats hbefore htasks hafter hcid hrootCid hlock hpublished hnumber =>
    refine ⟨⟨?_, ?_, ?_⟩, ?_⟩
    · rw [hpublished, hcid]
      exact hs.last
    · rw [hpublished, hnumber, hrootCid, HeadState.lastNumber, ← List.getLast?_eq_getElem?, hs.last,
        hw.writing _ _ hbefore]
    · rw [hrootCid]
      exact Option.some_ne_none _
    · rw [hnumber]
      exact Nat.le_sub_one_of_lt hs.lt_length
  | cancel hbefore hwriter hpublished hnumber =>
    exact hsame (by rw [hwriter]; rfl) (by rw [hwriter]; rfl) hpublished hnumber
  | write hshutdown hwriter hpublished hnumber =>
    have hfound := hfinds _ _ hshutdown
    exact hsame (by rw [hwriter]) (by rw [hwriter, hfound]) hpublished (hnumber hfound)

theorem locked_start (initialCid : Cid) (configRoot : Option Cid) :
    Locked (HeadState.start initialCid configRoot : HeadState Cid Replies).writer where
  holder _ h := nomatch h
  writing _ _ h := nomatch h

theorem numbered_start (initialCid : Cid) (configRoot : Option Cid) :
    Numbered (.start initialCid configRoot : HeadState Cid Replies) where
  last := rfl
  root := rfl
  isSome := Option.some_ne_none initialCid

/-! ### Runs -/

section Runs

variable [DecidableEq Cid] {initialCid : Cid} {configRoot : Option Cid}
  {actions : List (HeadAction Cid Replies)} {u : HeadState Cid Replies}

/-- Along a run in which the shutdown finds what it has saved, the root in the statistics keeps its
number or gets a greater one. -/
theorem numbered_of_run
    (h : GuardedRun (headStep store) FindsSaved (.start initialCid configRoot) actions u) :
    Locked u.writer ∧ Numbered u := by
  refine h.invariant (fun s ↦ Locked s.writer ∧ Numbered s) ?_
    ⟨locked_start initialCid configRoot, numbered_start initialCid configRoot⟩
  rintro s action t ⟨hlocked, hnumbered⟩ hfinds hstep
  have heffect := headEffect_of_step hstep
  exact ⟨hlocked.step heffect, (hnumbered.step hlocked hfinds heffect).1⟩

theorem current_of_run
    (h : GuardedRun (headStep store) KeepsHead (.start initialCid configRoot) actions u) :
    Locked u.writer ∧ Current u.writer := by
  refine h.invariant (fun s ↦ Locked s.writer ∧ Current s.writer) ?_
    ⟨locked_start initialCid configRoot, fun _ ↦ rfl⟩
  rintro s action t ⟨hlocked, hcurrent⟩ hkeeps hstep
  have heffect := headEffect_of_step hstep
  exact ⟨hlocked.step heffect, hcurrent.step hlocked hkeeps heffect⟩

/-- Assumes: a run in which no handler is cancelled between the writer's new root and its copy in
the statistics, and in which the shutdown finds in the statistics the root that it writes there.
When the writer's lock is free, the root in the statistics is the writer's. It is a published root,
and no step replaces it by one that was published before. -/
theorem statsRoot_eq
    (h : GuardedRun (headStep store) KeepsHead (.start initialCid configRoot) actions u) :
    (u.writer.lock = none → u.writer.rootCid = some u.writer.cid) ∧
      u.published[u.rootNumber]? = u.writer.rootCid ∧
      ∀ before action after s t, actions = before ++ action :: after →
        Run (headStep store) (.start initialCid configRoot) before s →
        headStep store s action = some t → s.rootNumber ≤ t.rootNumber := by
  obtain ⟨hlocked, hcurrent⟩ := current_of_run h
  have hfound := h.mono fun _ _ hkeeps ↦ hkeeps.saved
  refine ⟨fun hfree ↦ hcurrent fun i ↦ ?_, (numbered_of_run hfound).2.root, ?_⟩
  · cases hstats : statsCid (u.writer.tasks i) with
    | none => rfl
    | some newCid =>
      have hlock := hlocked.holder i (holdsLock_of_statsCid hstats)
      cases hfree.symm.trans hlock
  · rintro before action after s t rfl hs hstep
    obtain ⟨hbefore, hfinds, -⟩ := hfound.cut_cons hs
    obtain ⟨hlocked, hnumbered⟩ := numbered_of_run hbefore
    exact (hnumbered.step hlocked hfinds (headEffect_of_step hstep)).2

end Runs

/-! ### Runs of one mutation, a cancellation and a shutdown -/

/-- The root of an empty manifest with a protocol. -/
def protocolCid (protocol : String) : ContentCid :=
  contentStore.cidOf (.manifest { RuntimeManifest.default with protocol := protocol })

theorem protocolCid_ne {first second : String} (h : first ≠ second) :
    protocolCid first ≠ protocolCid second := by
  intro heq
  have hdocument := Option.some.inj (congrArg contentStore.document heq)
  injection hdocument with hmanifest
  exact h (congrArg RuntimeManifest.protocol hmanifest)

/-- A runtime with an empty manifest. -/
def emptyHead : HeadState ContentCid Unit := .start (protocolCid "") none

/-- A mutation that gives the manifest a protocol. -/
def setProtocol (protocol : String) : WriterCall ContentCid Unit :=
  .mutation (.mutate fun m ↦ some { m with protocol := protocol })

/-- The first mutation of a writer, up to its new root: it fetches the manifest. -/
def firstMutation (i : Nat) : List (HeadAction ContentCid Unit) :=
  [.writer (.lock i), .writer (.reply i true), .writer (.reply i true), .writer (.reply i true)]

/-- A shutdown that finds the manifest in the writer's cache, up to the root it has saved. -/
def shutdownSave (i : Nat) : List (HeadAction ContentCid Unit) :=
  [.shutdown i (fun _ m ↦ some { m with protocol := "saved" }) true, .writer (.lock i),
    .writer (.closure i ()), .writer (.reply i true), .writer (.reply i true), .writer (.stats i)]

open Classical in
/-- The mutation of a handler, and a shutdown that saves the entities. -/
theorem statsRoot_eq_shutdown :
    ∃ u, GuardedRun (headStep contentStore) KeepsHead emptyHead
        (.crud 0 (setProtocol "a") :: firstMutation 0 ++ [.writer (.stats 0)] ++ shutdownSave 1 ++
          [.shutdownNext true]) u ∧
      u.published = [protocolCid "", protocolCid "a", protocolCid "saved"] ∧
      u.writer.rootCid = some u.writer.cid := by
  have hshutdown : ∃ u, GuardedRun (headStep contentStore) KeepsHead emptyHead
      (.crud 0 (setProtocol "a") :: firstMutation 0 ++ [.writer (.stats 0)] ++ shutdownSave 1 ++
        [.shutdownNext true]) u ∧
      u.published = [protocolCid "", protocolCid "a", protocolCid "saved"] ∧
      u.writer.lock = none := by
    have hno {s : HeadState ContentCid Unit} {action : HeadAction ContentCid Unit}
        (hcancel : ∀ i, action ≠ .cancel i) (hfinds : FindsSaved s action) : KeepsHead s action :=
      ⟨fun i _ haction ↦ absurd haction (hcancel i), hfinds⟩
    refine ⟨_, .cons (hno ?_ trivial) rfl (.cons (hno ?_ trivial) rfl (.cons (hno ?_ trivial) rfl
      (.cons (hno ?_ trivial) rfl (.cons (hno ?_ trivial) rfl (.cons (hno ?_ trivial) rfl
      (.cons (hno ?_ trivial) rfl (.cons (hno ?_ trivial) rfl (.cons (hno ?_ trivial) rfl
      (.cons (hno ?_ trivial) rfl (.cons (hno ?_ trivial) rfl (.cons (hno ?_ trivial) rfl
      (.cons (hno ?_ ?_) rfl (.nil _))))))))))))), rfl, rfl⟩
    case refine_14 =>
      intro rc saved hsaved
      cases hsaved
      rfl
    all_goals exact fun _ haction ↦ (nomatch haction)
  obtain ⟨u, hrun, hpublished, hfree⟩ := hshutdown
  exact ⟨u, hrun, hpublished, (statsRoot_eq hrun).1 hfree⟩

open Classical in
/-- A handler is cancelled while it waits for the lock of the statistics: the writer has the new
root, its lock is free, and the statistics have the old one. -/
theorem statsRoot_behind :
    ∃ u, Run (headStep contentStore) emptyHead
        (.crud 0 (setProtocol "a") :: firstMutation 0 ++ [.cancel 0]) u ∧
      u.writer.lock = none ∧ u.writer.cid = protocolCid "a" ∧
      u.writer.rootCid = some (protocolCid "") ∧ u.writer.rootCid ≠ some u.writer.cid := by
  refine ⟨_, run_of_execute rfl, rfl, rfl, rfl, fun heq ↦ ?_⟩
  exact protocolCid_ne (by decide) (Option.some.inj heq)

open Classical in
/-- A mutation ends while the shutdown waits for the lock of the statistics: the shutdown takes the
statistics back to the root before it. -/
theorem statsRoot_taken_back :
    ∃ s u, Run (headStep contentStore) emptyHead
        (.writer (.call 0 (setProtocol "a")) :: firstMutation 0 ++ [.writer (.stats 0)] ++
          shutdownSave 1 ++
          [.writer (.call 2 (setProtocol "b")), .writer (.lock 2), .writer (.reply 2 true),
            .writer (.reply 2 true), .writer (.stats 2)]) s ∧
      headStep contentStore s (.shutdownNext true) = some u ∧
      s.writer.rootCid = some (protocolCid "b") ∧ s.writer.lock = none ∧
      u.writer.cid = protocolCid "b" ∧ u.writer.rootCid = some (protocolCid "saved") ∧
      u.rootNumber < s.rootNumber := by
  refine ⟨_, _, run_of_execute rfl, rfl, rfl, rfl, rfl, rfl, ?_⟩
  have hne : ¬(some (protocolCid "b") = some (protocolCid "saved")) :=
    fun heq ↦ protocolCid_ne (by decide) (Option.some.inj heq)
  show (if some (protocolCid "b") = some (protocolCid "saved") then 3 else 2) < 3
  rw [if_neg hne]
  decide

end MaRuntime.Manifest
