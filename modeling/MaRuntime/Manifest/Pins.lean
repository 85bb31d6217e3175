import Mathlib.Data.Finset.Basic
import Mathlib.Data.List.Infix
import MaRuntime.Manifest.Serialisable
import MaRuntime.Manifest.SharedHead

/-!
# The pin of the root

A publication moves Kubo's recursive pin from the writer's root to the new one. A move that fails is
logged, and the writer goes on with a root that is not pinned; the next publication cannot move the
pin from there and falls back to `pin/add`, which adds a pin and removes none. The root that was
pinned last keeps its pin for good. So the pins are those of the current root after every move that
returns `Ok`, along a run of any calls on the writer, exactly when each such move starts from the
root that was pinned last or goes back to it (`pins_exact_iff`). Without failures they always are
(`pins_eq_of_served`).

Main definitions: `pinUpdate`, `pinAdd`, `pinnedStep`, `PinsExact`, `MovesLastPinned`.
Main results: `pinUpdate_singleton`, `pins_exact_iff`, `pins_eq_of_served`.

Scope. Kubo's pins are those of the roots; a request that fails has no effect. The list of the roots
and the root that was pinned last are not part of the program: they record what was published.
-/

set_option autoImplicit false
set_option relaxedAutoImplicit false

namespace MaRuntime.Manifest

open Runs

variable {Cid Replies : Type}

/-! ### Kubo's pins -/

/-- What becomes of a request: Kubo serves it, answers with another failure, or does not answer. -/
inductive Fate
  | served
  | refused (body : String)
  | lost
deriving DecidableEq

/-- The fates of the requests that a `pin_update` may make. -/
structure PinFates where
  update : Fate
  add : Fate
deriving DecidableEq

/-- An answer of Kubo. -/
inductive KuboAnswer
  | success
  | failure (body : String)

/-- What Kubo answers where the old root has no pin. -/
def notPinnedAlready : String := "not recursively pinned already"

/-- Whether an answer of Kubo says that the old root was not pinned. -/
def saysNotPinned (body : String) : Bool :=
  decide ("not recursively pinned".toList <:+: body.toList) ||
    decide ("not pinned".toList <:+: body.toList)

theorem saysNotPinned_notPinnedAlready : saysNotPinned notPinnedAlready = true := by
  decide

section Requests

variable [DecidableEq Cid]

/-- Kubo's `pin/update` with `unpin`, with its answer and the pins after it. -/
def kuboPinUpdate (pins : Finset Cid) (oldCid newCid : Cid) :
    Fate → Option KuboAnswer × Finset Cid
  | .served =>
    if oldCid ∈ pins then (some .success, insert newCid (pins.erase oldCid))
    else (some (.failure notPinnedAlready), pins)
  | .refused body => (some (.failure body), pins)
  | .lost => (none, pins)

/-- Kubo's `pin/add`. -/
def kuboPinAdd (pins : Finset Cid) (cid : Cid) : Fate → Option KuboAnswer × Finset Cid
  | .served => (some .success, insert cid pins)
  | .refused body => (some (.failure body), pins)
  | .lost => (none, pins)

/-- `pin_add`, with whether it returns `Ok`. -/
def pinAdd (pins : Finset Cid) (cid : Cid) (fate : Fate) : Bool × Finset Cid :=
  match kuboPinAdd pins cid fate with
  | (some .success, pins) => (true, pins)
  | (some (.failure _), pins) | (none, pins) => (false, pins)

/-- `pin_update`, with whether it returns `Ok`. -/
def pinUpdate (pins : Finset Cid) (oldCid newCid : Cid) (fates : PinFates) : Bool × Finset Cid :=
  match kuboPinUpdate pins oldCid newCid fates.update with
  | (some .success, pins) => (true, pins)
  | (some (.failure body), pins) =>
    if saysNotPinned body then pinAdd pins newCid fates.add else (false, pins)
  | (none, pins) => (false, pins)

/-- Some request of a `pin_update` pins the new root. -/
def Moves (pins : Finset Cid) (oldCid : Cid) (fates : PinFates) : Prop :=
  match fates.update with
  | .served => oldCid ∈ pins ∨ fates.add = .served
  | .refused body => saysNotPinned body = true ∧ fates.add = .served
  | .lost => False

variable {pins : Finset Cid} {oldCid newCid : Cid} {fates : PinFates}

theorem pinAdd_eq (pins : Finset Cid) (cid : Cid) (fate : Fate) :
    pinAdd pins cid fate = if fate = .served then (true, insert cid pins) else (false, pins) := by
  cases fate with
  | served => rfl
  | refused body => rfl
  | lost => rfl

/-- The pins after a `pin_update`: the old root's is moved, the new root's is added, or nothing has
happened and an error is returned. -/
theorem pinUpdate_eq (pins : Finset Cid) (oldCid newCid : Cid) (fates : PinFates) :
    (Moves pins oldCid fates ∧ pinUpdate pins oldCid newCid fates =
      (true, if fates.update = .served ∧ oldCid ∈ pins then insert newCid (pins.erase oldCid)
        else insert newCid pins)) ∨
    (¬Moves pins oldCid fates ∧ pinUpdate pins oldCid newCid fates = (false, pins)) := by
  obtain ⟨update, add⟩ := fates
  cases update with
  | served =>
    by_cases hpinned : oldCid ∈ pins
    · exact .inl ⟨.inl hpinned, by simp [pinUpdate, kuboPinUpdate, hpinned]⟩
    · by_cases hadd : add = .served
      · exact .inl ⟨.inr hadd, by
          simp [pinUpdate, kuboPinUpdate, hpinned, saysNotPinned_notPinnedAlready, pinAdd_eq, hadd]⟩
      · exact .inr ⟨by simp [Moves, hpinned, hadd], by
          simp [pinUpdate, kuboPinUpdate, hpinned, saysNotPinned_notPinnedAlready, pinAdd_eq, hadd]⟩
  | refused body =>
    by_cases hmentions : saysNotPinned body = true
    · by_cases hadd : add = .served
      · exact .inl ⟨⟨hmentions, hadd⟩, by simp [pinUpdate, kuboPinUpdate, hmentions, pinAdd_eq, hadd]⟩
      · exact .inr ⟨fun h ↦ hadd h.2, by simp [pinUpdate, kuboPinUpdate, hmentions, pinAdd_eq, hadd]⟩
    · exact .inr ⟨fun h ↦ hmentions h.1, by simp [pinUpdate, kuboPinUpdate, hmentions]⟩
  | lost => exact .inr ⟨id, rfl⟩

/-- A `pin_update` returns `Ok` if and only if a request pins the new root. -/
theorem pinUpdate_fst_iff : (pinUpdate pins oldCid newCid fates).1 = true ↔
    Moves pins oldCid fates := by
  rcases pinUpdate_eq pins oldCid newCid fates with ⟨hmoves, heq⟩ | ⟨hstays, heq⟩
  · exact iff_of_true (by rw [heq]) hmoves
  · exact iff_of_false (by simp [heq]) hstays

theorem pinUpdate_of_not_moves (h : ¬Moves pins oldCid fates) :
    pinUpdate pins oldCid newCid fates = (false, pins) := by
  rcases pinUpdate_eq pins oldCid newCid fates with ⟨hmoves, -⟩ | ⟨-, heq⟩
  · exact absurd hmoves h
  · exact heq

/-- Where one root is pinned, its pin is moved if it is the old one, and kept otherwise. -/
theorem pinUpdate_singleton {pinned : Cid} (h : Moves {pinned} oldCid fates) :
    pinUpdate {pinned} oldCid newCid fates =
      (true, if fates.update = .served ∧ oldCid = pinned then {newCid} else {newCid, pinned}) := by
  rcases pinUpdate_eq {pinned} oldCid newCid fates with ⟨-, heq⟩ | ⟨hstays, -⟩
  · simp only [heq, Finset.mem_singleton, Prod.mk.injEq, true_and]
    split_ifs with hmoved
    · rw [hmoved.2, Finset.erase_singleton]
      rfl
    · rfl
  · exact absurd h hstays

end Requests

/-! ### The writer and the pins -/

/-- The writer, the pins of its roots, the roots that were published with the initial one, and the
root of the last publication whose `pin_update` returned `Ok`. -/
structure PinnedState (Cid Replies : Type) where
  writer : WriterState Cid Replies
  pins : Finset Cid
  roots : List Cid
  lastPinned : Cid

/-- A writer of a root that is pinned. -/
def PinnedState.start (initialCid : Cid) : PinnedState Cid Replies where
  writer := .new initialCid
  pins := {initialCid}
  roots := [initialCid]
  lastPinned := initialCid

/-- The `pin_update` that an action is the end of, from the old root to the new one. -/
def pinCall (w : WriterState Cid Replies) : WriterAction Cid Replies → Option (Cid × Cid)
  | .reply t _ =>
    match w.tasks t with
    | some (.holding _ oldCid (.updatePin _ newCid)) => some (oldCid, newCid)
    | _ => none
  | .call _ _ | .lock _ | .closure _ _ | .stats _ => none

/-- A step of the writer, and with it the `pin_update` of a publication. -/
def pinnedStep [DecidableEq Cid] (store : Store Cid) (s : PinnedState Cid Replies)
    (a : WriterAction Cid Replies × PinFates) : Option (PinnedState Cid Replies) :=
  (writerStep store s.writer a.1).map fun writer ↦
    match pinCall s.writer a.1 with
    | some (oldCid, newCid) =>
      let (ok, pins) := pinUpdate s.pins oldCid newCid a.2
      { writer, pins
        roots := s.roots ++ [newCid]
        lastPinned := if ok then newCid else s.lastPinned }
    | none => { s with writer }

/-- After a publication whose `pin_update` returns `Ok`, the pins among the roots are that of the
current root. -/
def PinsExact [DecidableEq Cid] (store : Store Cid) (s : PinnedState Cid Replies)
    (a : WriterAction Cid Replies × PinFates) : Prop :=
  ∀ oldCid newCid t, pinCall s.writer a.1 = some (oldCid, newCid) →
    (pinUpdate s.pins oldCid newCid a.2).1 = true → pinnedStep store s a = some t →
      ∀ root ∈ t.roots, root ∈ t.pins ↔ root = t.writer.cid

/-- A publication that pins its root starts from the root that was pinned last, or goes back to
it. -/
def MovesLastPinned (s : PinnedState Cid Replies) (a : WriterAction Cid Replies × PinFates) :
    Prop :=
  ∀ oldCid newCid, pinCall s.writer a.1 = some (oldCid, newCid) →
    Moves s.pins s.writer.cid a.2 →
      (a.2.update = .served ∧ s.writer.cid = s.lastPinned) ∨ newCid = s.lastPinned

section Runs

variable {store : Store Cid} {initialCid : Cid} {s t : PinnedState Cid Replies}
  {a : WriterAction Cid Replies × PinFates} {oldCid newCid : Cid}

/-- One root is pinned, and it is the one that was pinned last. -/
structure OnePin (store : Store Cid) (initialCid : Cid) (s : PinnedState Cid Replies) : Prop where
  writer : WriterInvariant store initialCid s.writer
  pins : s.pins = {s.lastPinned}
  published : s.lastPinned ∈ s.roots

theorem onePin_start (store : Store Cid) (initialCid : Cid) :
    OnePin store initialCid (.start initialCid : PinnedState Cid Replies) :=
  ⟨writerInvariant_new store initialCid, rfl, List.mem_singleton_self _⟩

theorem WriterInvariant.cid_of_pinCall {w : WriterState Cid Replies}
    {action : WriterAction Cid Replies} (hw : WriterInvariant store initialCid w)
    (h : pinCall w action = some (oldCid, newCid)) : w.cid = oldCid := by
  unfold pinCall at h
  split at h
  · split at h
    · rename_i htask
      cases h
      obtain ⟨-, base, -, hunpublished, -⟩ := hw.held htask
      exact hunpublished.1
    · cases h
  all_goals cases h

/-- A publication whose `pin_update` has come to its end goes on, and the new root is current. -/
theorem exists_writerStep_of_pinCall {w : WriterState Cid Replies}
    {action : WriterAction Cid Replies} (store : Store Cid)
    (hcall : pinCall w action = some (oldCid, newCid)) :
    ∃ w', writerStep store w action = some w' ∧ w'.cid = newCid := by
  unfold pinCall at hcall
  split at hcall
  · split at hcall
    · rename_i htask
      cases hcall
      simp only [writerStep, htask, replyHeld]
      exact ⟨_, rfl, rfl⟩
    · cases hcall
  all_goals cases hcall

/-- The current root changes with a publication only. -/
theorem cid_of_pinCall_eq_none {w w' : WriterState Cid Replies} {action : WriterAction Cid Replies}
    (hcall : pinCall w action = none) (h : writerStep store w action = some w') :
    w'.cid = w.cid := by
  cases rootStep_writerStep h with
  | pass task hpasses hunpinned hstats => exact hpasses.cid
  | publish hpinned hholds htasks hcid hrootCid hlock =>
    unfold pinnedCid at hpinned
    split at hpinned
    · rename_i htask
      simp [pinCall, htask] at hcall
    · cases hpinned
  | stats hstats htasks hafter hcid hrootCid hlock => exact hcid

variable [DecidableEq Cid]

/-- The state after a publication. -/
def PinnedState.publish (s : PinnedState Cid Replies) (writer : WriterState Cid Replies)
    (oldCid newCid : Cid) (fates : PinFates) : PinnedState Cid Replies where
  writer := writer
  pins := (pinUpdate s.pins oldCid newCid fates).2
  roots := s.roots ++ [newCid]
  lastPinned := if (pinUpdate s.pins oldCid newCid fates).1 then newCid else s.lastPinned

theorem pinnedStep_of_pinCall (store : Store Cid)
    (hcall : pinCall s.writer a.1 = some (oldCid, newCid)) :
    ∃ writer, writerStep store s.writer a.1 = some writer ∧ writer.cid = newCid ∧
      pinnedStep store s a = some (s.publish writer oldCid newCid a.2) := by
  obtain ⟨writer, hwriter, hcid⟩ := exists_writerStep_of_pinCall store hcall
  refine ⟨writer, hwriter, hcid, ?_⟩
  rw [pinnedStep, hwriter, Option.map_some, hcall]
  rfl

theorem pinsExact_iff_of_pinCall (hcall : pinCall s.writer a.1 = some (oldCid, newCid)) :
    PinsExact store s a ↔ (Moves s.pins oldCid a.2 → ∀ root ∈ s.roots ++ [newCid],
      root ∈ (pinUpdate s.pins oldCid newCid a.2).2 ↔ root = newCid) := by
  obtain ⟨writer, -, hcid, hstep⟩ := pinnedStep_of_pinCall store hcall
  constructor
  · intro hexact hmoves root hroot
    have hroots := hexact oldCid newCid _ hcall (pinUpdate_fst_iff.mpr hmoves) hstep root hroot
    simpa only [PinnedState.publish, hcid] using hroots
  · intro hexact oldCid' newCid' t hcall' hok hnext root hroot
    cases hcall.symm.trans hcall'
    obtain rfl := Option.some.inj (hstep.symm.trans hnext)
    exact hcid.symm ▸ hexact (pinUpdate_fst_iff.mp hok) root hroot

/-- A move away from the pin of one root leaves the pins of the roots exact if and only if it takes
that pin along, or goes back to it. -/
theorem exact_singleton_iff {pinned : Cid} {roots : List Cid} {fates : PinFates}
    (hmoves : Moves {pinned} oldCid fates) (hmem : pinned ∈ roots) :
    (∀ root ∈ roots ++ [newCid], root ∈ (pinUpdate {pinned} oldCid newCid fates).2 ↔
        root = newCid) ↔
      (fates.update = .served ∧ oldCid = pinned) ∨ newCid = pinned := by
  rw [pinUpdate_singleton hmoves]
  dsimp only
  split_ifs with hmoved
  · exact iff_of_true (fun root _ ↦ Finset.mem_singleton) (.inl hmoved)
  · rw [or_iff_right hmoved]
    constructor
    · intro hexact
      exact ((hexact pinned (List.mem_append_left _ hmem)).mp (by simp)).symm
    · rintro rfl root -
      simp

/-- Where one root is pinned, a publication leaves the pins of the roots exact if and only if it
moves the last pin. -/
theorem OnePin.pinsExact_iff (hs : OnePin store initialCid s) :
    PinsExact store s a ↔ MovesLastPinned s a := by
  cases hcall : pinCall s.writer a.1 with
  | none => simp [PinsExact, MovesLastPinned, hcall]
  | some call =>
    obtain ⟨oldCid, newCid⟩ := call
    have hold := hs.writer.cid_of_pinCall hcall
    rw [pinsExact_iff_of_pinCall hcall, hs.pins]
    simp only [MovesLastPinned, hcall, Option.some.injEq, Prod.mk.injEq, hold, hs.pins]
    constructor
    · rintro hexact _ _ ⟨rfl, rfl⟩ hmoves
      exact (exact_singleton_iff hmoves hs.published).mp (hexact hmoves)
    · intro hguard hmoves
      exact (exact_singleton_iff hmoves hs.published).mpr (hguard _ _ ⟨rfl, rfl⟩ hmoves)

theorem OnePin.step (hs : OnePin store initialCid s) (hguard : MovesLastPinned s a)
    (h : pinnedStep store s a = some t) : OnePin store initialCid t := by
  cases hcall : pinCall s.writer a.1 with
  | none =>
    rw [pinnedStep, hcall] at h
    obtain ⟨writer, hwriter, rfl⟩ := Option.map_eq_some_iff.mp h
    exact ⟨hs.writer.step hwriter, hs.pins, hs.published⟩
  | some call =>
    obtain ⟨oldCid, newCid⟩ := call
    obtain ⟨writer, hwriter, -, hstep⟩ := pinnedStep_of_pinCall store hcall
    obtain rfl := Option.some.inj (hstep.symm.trans h)
    have hinvariant := hs.writer.step hwriter
    have hold := hs.writer.cid_of_pinCall hcall
    by_cases hmoves : Moves s.pins oldCid a.2
    · have hlast := hguard oldCid newCid hcall (hold ▸ hmoves)
      rw [hs.pins] at hmoves
      have hupdate : pinUpdate s.pins oldCid newCid a.2 = (true, {newCid}) := by
        rw [hs.pins, pinUpdate_singleton hmoves]
        split_ifs with hmoved
        · rfl
        · rw [or_iff_right (hold ▸ hmoved)] at hlast
          rw [hlast, Finset.pair_eq_singleton]
      refine ⟨hinvariant, ?_, ?_⟩
      · simp [PinnedState.publish, hupdate]
      · simp [PinnedState.publish, hupdate]
    · have hupdate : pinUpdate s.pins oldCid newCid a.2 = (false, s.pins) :=
        pinUpdate_of_not_moves hmoves
      refine ⟨hinvariant, ?_, ?_⟩
      · simp only [PinnedState.publish, hupdate, Bool.false_eq_true, if_false]
        exact hs.pins
      · simp [PinnedState.publish, hupdate, hs.published]

/-- Along every run of calls on the writer, the pins among the roots are that of the current root
after each publication whose `pin_update` returns `Ok`, if and only if each publication that pins
its root starts from the root that was pinned last, or goes back to it. -/
theorem pins_exact_iff {actions : List (WriterAction Cid Replies × PinFates)}
    (h : Run (pinnedStep store) (.start initialCid) actions s) :
    (∀ before a after t, actions = before ++ a :: after →
        Run (pinnedStep store) (.start initialCid) before t → PinsExact store t a) ↔
      GuardedRun (pinnedStep store) MovesLastPinned (.start initialCid) actions s := by
  rw [← guardedRun_iff_forall_split h]
  refine guardedRun_congr_of_invariant (OnePin store initialCid) (onePin_start store initialCid)
    (fun s a hs ↦ hs.pinsExact_iff) fun s a t hs hexact hstep ↦ ?_
  exact hs.step (hs.pinsExact_iff.mp hexact) hstep

/-- When Kubo serves every request, the current root is the one that is pinned. -/
theorem pins_eq_of_served {actions : List (WriterAction Cid Replies × PinFates)}
    (h : GuardedRun (pinnedStep store) (fun _ a ↦ a.2.update = .served) (.start initialCid)
      actions s) : s.pins = {s.writer.cid} := by
  have hboth : OnePin store initialCid s ∧ s.writer.cid = s.lastPinned := by
    refine h.invariant (fun s ↦ OnePin store initialCid s ∧ s.writer.cid = s.lastPinned) ?_
      ⟨onePin_start store initialCid, rfl⟩
    rintro s a t ⟨hs, hlast⟩ hserved hstep
    refine ⟨hs.step (fun _ _ _ _ ↦ .inl ⟨hserved, hlast⟩) hstep, ?_⟩
    cases hcall : pinCall s.writer a.1 with
    | none =>
      rw [pinnedStep, hcall] at hstep
      obtain ⟨writer, hwriter, rfl⟩ := Option.map_eq_some_iff.mp hstep
      exact (cid_of_pinCall_eq_none hcall hwriter).trans hlast
    | some call =>
      obtain ⟨oldCid, newCid⟩ := call
      obtain ⟨writer, -, hcid, hnext⟩ := pinnedStep_of_pinCall store hcall
      obtain rfl := Option.some.inj (hnext.symm.trans hstep)
      have hpinned : oldCid ∈ s.pins := by
        rw [hs.pins, ← hlast, hs.writer.cid_of_pinCall hcall]
        exact Finset.mem_singleton_self _
      have hok : (pinUpdate s.pins oldCid newCid a.2).1 = true := by
        rw [pinUpdate_fst_iff, Moves, hserved]
        exact .inl hpinned
      simp [PinnedState.publish, hok, hcid]
  rw [hboth.1.pins, hboth.2]

end Runs

/-! ### Runs of two publications -/

/-- The fates of two requests that Kubo serves. -/
def bothServed : PinFates := ⟨.served, .served⟩

/-- A call that gives the first manifest a protocol, up to its `pin_update`. -/
def publishFirst : List (WriterAction ContentCid Unit × PinFates) :=
  [(.call 0 (setProtocol "a"), bothServed), (.lock 0, bothServed), (.reply 0 true, bothServed),
    (.reply 0 true, bothServed)]

open Classical in
theorem pins_exact_iff_publishFirst :
    ∃ t, Run (pinnedStep contentStore) (.start (protocolCid "")) publishFirst t ∧
      PinsExact contentStore t (.reply 0 true, bothServed) := by
  have hquiet {s : PinnedState ContentCid Unit} {a : WriterAction ContentCid Unit × PinFates}
      (hcall : pinCall s.writer a.1 = none) : MovesLastPinned s a := by
    intro oldCid newCid hsome
    cases hcall.symm.trans hsome
  have hguarded : ∃ u, GuardedRun (pinnedStep contentStore) MovesLastPinned
      (.start (protocolCid "")) (publishFirst ++ [(.reply 0 true, bothServed)]) u := by
    refine ⟨_, .cons (hquiet rfl) rfl (.cons (hquiet rfl) rfl (.cons (hquiet rfl) rfl
      (.cons (hquiet rfl) rfl (.cons ?_ rfl (.nil _)))))⟩
    exact fun _ _ _ _ ↦ .inl ⟨rfl, rfl⟩
  obtain ⟨u, hrun⟩ := hguarded
  obtain ⟨t, hfirst, -⟩ := guardedRun_append.mp hrun
  exact ⟨t, hfirst.run, (pins_exact_iff hrun.run).mpr hrun publishFirst _ [] t rfl hfirst.run⟩

/-- The first call with a `pin_update` that gets no answer, and a second one up to its own. -/
def publishAfterLost : List (WriterAction ContentCid Unit × PinFates) :=
  publishFirst ++
    [(.reply 0 true, ⟨.lost, .served⟩), (.stats 0, bothServed),
      (.call 1 (setProtocol "b"), bothServed), (.lock 1, bothServed), (.reply 1 true, bothServed)]

open Classical in
/-- The second `pin_update` returns `Ok`, and the initial root is pinned still. -/
theorem not_pinsExact_after_lost :
    ¬ ∀ before a after t,
      publishAfterLost ++ [(.reply 1 true, bothServed)] = before ++ a :: after →
        Run (pinnedStep contentStore) (.start (protocolCid "")) before t →
          PinsExact contentStore t a := by
  intro h
  obtain ⟨t, ht⟩ : ∃ t, execute (pinnedStep contentStore) (.start (protocolCid ""))
      publishAfterLost = some t := ⟨_, rfl⟩
  have hlast := h publishAfterLost (.reply 1 true, bothServed) [] t rfl (run_of_execute ht)
  cases ht
  have hmoves : Moves {protocolCid ""} (protocolCid "a") bothServed := .inr rfl
  have hexact := (pinsExact_iff_of_pinCall rfl).mp hlast hmoves
  rcases (exact_singleton_iff hmoves List.mem_cons_self).mp hexact with ⟨-, heq⟩ | heq
  · exact protocolCid_ne (by decide) heq
  · exact protocolCid_ne (by decide) heq

end MaRuntime.Manifest
