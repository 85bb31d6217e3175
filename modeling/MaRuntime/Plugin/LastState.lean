import MaRuntime.Plugin.Savers

/-!
# The last state of an entity

When an entity is settled, with no saver in progress, no dispatch result on its way and nothing
pending, the manifest should link the last state that was queued (`LastStateLinked`). It does after
every run whose steps meet `KeepsLastState`: a saver links an older state only while the last one is
pending or held by another saver, and a pending state is acknowledged only while it is linked or
held (`lastState_linked`). After a step that does not meet it, the last state is neither pending,
held nor linked (`newestKept_iff_guardedRun`).

The code does not see to that. A dispatch hands its own pending state to the background loop, which
links it without a look at the worker, so a dispatch whose result comes late has the loop link a
state that another loop has replaced meanwhile (`lastState_overwritten`).

Main definitions: `LastStateLinked`, `KeepsLastState`.
Main results: `lastState_linked`, `newestKept_iff_guardedRun`, `lastState_overwritten`.
-/

set_option autoImplicit false
set_option relaxedAutoImplicit false

namespace MaRuntime.Plugin

open Runs Manifest WriteBack

variable {Cid : Type}

/-- No saver of the entity is in progress, no result of a dispatch is with its caller, and no state
is pending. -/
structure Settled (s : EntityState Cid) : Prop where
  savers : ∀ id, (s.plugin.savers id).inProgress = false
  results : s.plugin.results = []
  pending : s.plugin.thread.state.pending = none

theorem Settled.held {s : EntityState Cid} (h : Settled s) (id : Nat) : s.cell.held id = none :=
  Saver.hand_of_not_inProgress (h.savers id)

section Property

variable (store : Store Cid)

/-- The manifest links the last state that changed the pending one. -/
def LastStateLinked (s : EntityState Cid) : Prop :=
  ∀ bytes, s.plugin.thread.queued.getLast? = some bytes → s.link = some (stateCid store bytes)

/-- A step that keeps the last state queued: what it links or gives up leaves the last state
pending, linked or held by another saver, and a pending state that it acknowledges is linked or
held. -/
def KeepsLastState (s : EntityState Cid) (action : EntityAction) : Prop :=
  s.cell.KeepsNewest (stateCid store) (entityEvent s action)

end Property

variable {store : Store Cid}

/-- The lifecycle signals of a load queue states at most. -/
theorem queuesOnly_signals (ts : WasmThreadState) (signals : List GuestCall) :
    QueuesOnly ts (signals.foldl (fun ts guest ↦ (ts.call guest).1) ts) := by
  induction signals generalizing ts with
  | nil => exact .of_state_eq rfl rfl rfl
  | cons guest rest ih => exact (queuesOnly_call ts guest).trans (ih (ts.call guest).1)

/-- An entity that was just loaded has its last state pending. -/
theorem newestKept_load (fragment : String) (initState : Bytes) (signals : List GuestCall)
    (link : Option Cid) :
    (⟨.load fragment initState signals, link⟩ : EntityState Cid).cell.NewestKept
      (stateCid store) := by
  have hqueues := queuesOnly_signals (buildWasmPlugin fragment initState) signals
  rcases hqueues.pending with ⟨hpending, hqueued⟩ | ⟨bytes, hpending, hlast⟩
  · refine ⟨fun bytes hbytes ↦ ?_, fun _ bytes hbytes ↦ ?_⟩
    · exact nomatch hpending.symm.trans hbytes
    · exact nomatch (congrArg List.getLast? hqueued).symm.trans hbytes
  · refine ⟨fun other hother ↦ ?_, fun hnone ↦ ?_⟩
    · obtain rfl := Option.some.inj (hpending.symm.trans hother)
      exact hlast
    · exact nomatch hpending.symm.trans hnone

/-- In every state of a run the last state that was queued is pending, held by a saver or linked, if
and only if the steps of the run meet the condition. -/
theorem newestKept_iff_guardedRun {fragment : String} {initState : Bytes} {signals : List GuestCall}
    {link : Option Cid} {actions : List EntityAction} {s : EntityState Cid}
    (h : Run (entityStep store) ⟨.load fragment initState signals, link⟩ actions s) :
    (∀ before after t, actions = before ++ after →
      Run (entityStep store) ⟨.load fragment initState signals, link⟩ before t →
        t.cell.NewestKept (stateCid store)) ↔
    GuardedRun (entityStep store) (KeepsLastState store) ⟨.load fragment initState signals, link⟩
      actions s :=
  guardedRun_iff_forall_prefix _ h (newestKept_load fragment initState signals link)
    (fun _ _ _ hs hkeeps hstep ↦ hs.step hkeeps (entityStep_effect hstep))
    fun _ _ _ hs hstep ht ↦ ht.keepsNewest (stateCid_injective store) hs (entityStep_effect hstep)

/-- Assumes: every step of the run meets `KeepsLastState`. When the entity is settled, the manifest
links the last state that was queued. -/
theorem lastState_linked {fragment : String} {initState : Bytes} {signals : List GuestCall}
    {link : Option Cid} {actions : List EntityAction} {s : EntityState Cid}
    (h : GuardedRun (entityStep store) (KeepsLastState store)
      ⟨.load fragment initState signals, link⟩ actions s)
    (hsettled : Settled s) : LastStateLinked store s := by
  have hkept : s.cell.NewestKept (stateCid store) :=
    h.invariant (fun s ↦ s.cell.NewestKept (stateCid store))
      (fun _ _ _ hs hguard hstep ↦ hs.step hguard (entityStep_effect hstep))
      (newestKept_load fragment initState signals link)
  intro bytes hbytes
  exact hkept.linked hsettled.pending hsettled.held hbytes

/-- A call in which the guest sets its state. -/
def setsState (bytes : Bytes) : GuestCall := ⟨[.maSetState bytes], some []⟩

/-- A call in which the guest does nothing. -/
def doesNothing : GuestCall := ⟨[], some []⟩

/-- An entity without a state. -/
def freshEntity : EntityState ContentCid := ⟨.load "room" [] [], none⟩

/-- The steps of a loop that finds nothing newer, from its upload to its end. -/
def loopActions (id : Nat) : List EntityAction :=
  [.advance id true, .advance id true, .advance id true, .work doesNothing, .advance id true,
    .work doesNothing, .advance id true, .advance id true, .work doesNothing]

/-- One dispatch, and the loop that its result starts. -/
theorem lastState_linked_one_dispatch :
    ∃ u, GuardedRun (entityStep contentStore) (KeepsLastState contentStore) freshEntity
        ([.send, .work (setsState [1]), .spawnStatePersist 0 0] ++ loopActions 0) u ∧
      u.plugin.thread.queued = [[1]] ∧ Settled u ∧ LastStateLinked contentStore u := by
  have hrun : GuardedRun (entityStep contentStore) (KeepsLastState contentStore) freshEntity
      ([.send, .work (setsState [1]), .spawnStatePersist 0 0] ++ loopActions 0) _ :=
    .cons trivial rfl <| .cons trivial rfl <| .cons trivial rfl <| .cons trivial rfl <|
      .cons (fun hnone ↦ nomatch hnone) rfl <| .cons trivial rfl <|
      .cons (fun _ ↦ .inl rfl) rfl <| .cons trivial rfl <| .cons trivial rfl <|
      .cons trivial rfl <| .cons trivial rfl <| .cons trivial rfl <| .nil _
  refine ⟨_, hrun, rfl, ?_, lastState_linked hrun ?_⟩
  · exact ⟨fun | 0 => rfl | _ + 1 => rfl, rfl, rfl⟩
  · exact ⟨fun | 0 => rfl | _ + 1 => rfl, rfl, rfl⟩

/-- Two dispatches, of which the first has its result reach its caller when the second one's state
is saved: the first state is linked in the end. -/
theorem lastState_overwritten :
    ∃ u, Run (entityStep contentStore) freshEntity
        ([.send, .work (setsState [1]), .send, .work (setsState [2]), .spawnStatePersist 1 0] ++
          loopActions 0 ++ [.spawnStatePersist 0 1] ++ loopActions 1) u ∧
      Settled u ∧ ¬LastStateLinked contentStore u := by
  refine ⟨_, run_of_execute rfl, ⟨fun | 0 => rfl | 1 => rfl | _ + 2 => rfl, rfl, rfl⟩, ?_⟩
  intro hlinked
  have hlink := hlinked [2] rfl
  cases hlink

end MaRuntime.Plugin
