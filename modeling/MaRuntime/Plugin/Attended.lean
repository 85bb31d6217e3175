import MaRuntime.Plugin.Bookkeeping
import MaRuntime.Plugin.LastState

/-!
# The background loop strands no state

A dispatch whose result carries a pending state calls `spawn_state_persist`, which starts the
background loop of the entity unless the flag `state_persist_in_flight` is set. The loop clears the
flag when it finds nothing pending, looks once more, and starts itself again if a state came in
between. This is the machine `entityStep` with dispatches and loops only, where no dispatch fails,
no result is dropped, the mailbox has room and every question is answered (`Undisturbed`).

Then a pending state is always attended (`Attended`): the result of a dispatch waits to call
`spawn_state_persist`, or a loop is in progress; and the flag is set only while a loop owns it. A
loop ends only by an answer that nothing is pending, or where the flag shows that another one owns
it. So no state is pending when the flag is clear, every loop has ended and no result waits
(`noneStranded`).

Main definitions: `Undisturbed`, `Attended`.
Main results: `Attended.step`, `noneStranded`.

Scope. The plugin is ended by the runtime when a call takes too long, so one call queues fewer
states than the counter of states can count.
-/

set_option autoImplicit false
set_option relaxedAutoImplicit false

namespace MaRuntime.Plugin

open Runs Manifest

variable {Cid : Type} {store : Store Cid} {s t : EntityState Cid}

/-! ### What a dispatch tells of its state -/

/-- A dispatch that succeeds, and queues fewer states than the counter can count. -/
structure DispatchSucceeds (ts : WasmThreadState) (guest : GuestCall) : Prop where
  result : (executeDispatch ts guest).2 ≠ none
  queued : (executeDispatch ts guest).1.queued.length < ts.queued.length + UInt64.size

/-- A dispatch that succeeds leaves the pending state as it was, or carries one. -/
theorem pendingState_executeDispatch {ts : WasmThreadState} {guest : GuestCall}
    (h : DispatchSucceeds ts guest) :
    (executeDispatch ts guest).1.state.pending = ts.state.pending ∨
      ∃ result bytes, (executeDispatch ts guest).2 = some result ∧
        result.pendingState = some bytes := by
  have hqueues := queues_call ts guest
  cases hcall : ts.call guest with
  | mk after output =>
    cases output with
    | none => exact absurd (congrArg Prod.snd (executeDispatch_of_trap hcall)) h.result
    | some output =>
      rw [hcall] at hqueues
      obtain ⟨hstate, hqueued, result, hresult, hpendingState⟩ := executeDispatch_of_call hcall
      rcases hqueues.state with ⟨-, hsame⟩ | ⟨hcount, -, hpending⟩
      · left
        rw [hstate, hsame]
      · right
        obtain ⟨bytes, hbytes⟩ := Option.ne_none_iff_exists'.mp hpending
        refine ⟨result, bytes, hresult, ?_⟩
        have hlt : ts.state.changes (stateOps ts guest.hostCalls) < UInt64.size := by
          have hlength : after.queued.length =
              ts.queued.length + ts.state.changes (stateOps ts guest.hostCalls) := hqueues.queued
          have hbound := h.queued
          rw [hqueued] at hbound
          omega
        rw [hpendingState, hqueues.pendingState_eq hlt, if_neg hcount, hbytes]

/-! ### The condition and the invariant -/

namespace Saver

/-- The loops that have set the flag and not cleared it. -/
def ownsFlag : Saver → Bool
  | .loopAdd _ | .loopLink _ | .loopMark _ | .loopAsk | .loopAwait _ | .loopClear => true
  | _ => false

/-- The savers that are no background loops. -/
def direct : Saver → Bool
  | .ask _ | .await _ | .add _ | .mark _ | .link _ => true
  | _ => false

theorem inProgress_of_ownsFlag {saver : Saver} (h : saver.ownsFlag = true) :
    saver.inProgress = true := by
  cases saver with
  | loopAdd | loopLink | loopMark | loopAsk | loopAwait | loopClear => rfl
  | idle | finalAsk | finalAwait | respawn | ask | await | add | mark | link | ended => cases h

/-- A loop that is answered stays one, keeps the flag if it has it, and ends only if nothing is
pending. -/
theorem receive_pending (ticket : Nat) (pending : Option Bytes) {saver : Saver}
    (h : saver.direct = false) :
    (saver.receive ticket (.ok pending)).direct = false ∧
      (saver.ownsFlag = true → (saver.receive ticket (.ok pending)).ownsFlag = true) ∧
      (saver.inProgress = true → pending ≠ none →
        (saver.receive ticket (.ok pending)).inProgress = true) := by
  cases saver with
  | loopAwait waiting | finalAwait waiting =>
    by_cases hticket : waiting = ticket
    · cases pending with
      | none => simp [receive, hticket, direct, ownsFlag]
      | some bytes => simp [receive, hticket, direct, ownsFlag, inProgress]
    · simp [receive, hticket, direct, inProgress]
  | ask | await | add | mark | link => cases h
  | idle | loopAdd | loopLink | loopMark | loopAsk | loopClear | finalAsk | respawn | ended =>
    exact ⟨rfl, id, fun hprogress _ ↦ hprogress⟩

end Saver

/-- The messages of dispatches and of background loops. -/
def EntityMsg.ofLoops : EntityMsg → Bool
  | .dispatch | .takePending _ | .markSaved _ => true
  | .shutdown _ _ | .terminate => false

/-- An entity that has nothing pending, and no loop, message or result under way. -/
structure Quiet (s : EntityState Cid) : Prop where
  pending : s.plugin.thread.state.pending = none
  alive : s.plugin.alive = true
  mailbox : s.plugin.mailbox = []
  inFlight : s.plugin.statePersistInFlight = false
  savers : ∀ id, s.plugin.savers id = .idle
  results : s.plugin.results = []

/-- A step of dispatches and background loops: dispatches succeed, their results are not dropped,
the mailbox has room, and the worker is neither given up on nor ended. -/
def Undisturbed (s : EntityState Cid) : EntityAction → Prop
  | .send | .spawnStatePersist _ _ => True
  | .work guest => s.plugin.mailbox.head? = some .dispatch → DispatchSucceeds s.plugin.thread guest
  | .advance _ _ => s.plugin.mailbox.length < entityMailboxCapacity
  | .forget _ | .save _ _ | .timeout _ | .terminate => False

/-- A pending state is attended: a result waits to call `spawn_state_persist`, or a loop is in
progress; and a loop owns the flag where it is set. -/
structure Attended (s : EntityState Cid) : Prop where
  alive : s.plugin.alive = true
  mailbox : ∀ message ∈ s.plugin.mailbox, message.ofLoops = true
  savers : ∀ id, (s.plugin.savers id).direct = false
  inFlight : s.plugin.statePersistInFlight = true → ∃ id, (s.plugin.savers id).ownsFlag = true
  pending : s.plugin.thread.state.pending ≠ none →
    s.plugin.results ≠ [] ∨ ∃ id, (s.plugin.savers id).inProgress = true

theorem Quiet.attended (hs : Quiet s) : Attended s where
  alive := hs.alive
  mailbox := by simp [hs.mailbox]
  savers id := by rw [hs.savers id]; rfl
  inFlight h := nomatch hs.inFlight.symm.trans h
  pending h := absurd hs.pending h

/-! ### Steps of the loops -/

/-- What a step of a loop leaves: its next phase, in which it is in progress unless the flag shows
another loop, and owns the flag unless another one does or nobody. -/
structure LoopStep (s t : EntityState Cid) (id : Nat) (saver : Saver) : Prop where
  thread : t.plugin.thread = s.plugin.thread
  alive : t.plugin.alive = s.plugin.alive
  mailbox : ∀ message ∈ t.plugin.mailbox, message ∈ s.plugin.mailbox ∨ message.ofLoops = true
  savers : t.plugin.savers = Function.update s.plugin.savers id saver
  loop : saver.direct = false
  inFlight : t.plugin.statePersistInFlight = true → saver.ownsFlag = true ∨
    s.plugin.statePersistInFlight = true ∧ (s.plugin.savers id).ownsFlag = false
  inProgress : saver.inProgress = true ∨ t.plugin.statePersistInFlight = true

theorem Attended.loopStep {id : Nat} {saver : Saver} (hs : Attended s)
    (h : LoopStep s t id saver) : Attended t := by
  have howner (hflag : t.plugin.statePersistInFlight = true) :
      ∃ other, (t.plugin.savers other).ownsFlag = true := by
    rw [h.savers]
    rcases h.inFlight hflag with howns | ⟨hbefore, hnot⟩
    · exact ⟨id, by rw [Function.update_self]; exact howns⟩
    · obtain ⟨other, hother⟩ := hs.inFlight hbefore
      refine ⟨other, ?_⟩
      rw [Function.update_of_ne]
      · exact hother
      · rintro rfl
        rw [hnot] at hother
        cases hother
  refine ⟨h.alive.trans hs.alive, ?_, ?_, howner, fun _ ↦ .inr ?_⟩
  · intro message hmem
    exact (h.mailbox message hmem).elim (hs.mailbox message) fun hloop ↦ hloop
  · intro other
    rw [h.savers]
    by_cases hother : other = id
    · rw [hother, Function.update_self]
      exact h.loop
    · rw [Function.update_of_ne hother]
      exact hs.savers other
  · rcases h.inProgress with hprogress | hflag
    · exact ⟨id, by rw [h.savers, Function.update_self]; exact hprogress⟩
    · obtain ⟨other, hother⟩ := howner hflag
      exact ⟨other, Saver.inProgress_of_ownsFlag hother⟩

/-- A message is taken where the mailbox has room. -/
theorem trySend_of_room {e : EntityPlugin} (message : EntityMsg) (halive : e.alive = true)
    (hroom : e.mailbox.length < entityMailboxCapacity) :
    e.trySend message = some { e with mailbox := e.mailbox ++ [message] } := by
  simp only [EntityPlugin.trySend, halive, hroom, decide_true, Bool.and_self, if_true]

theorem ofLoops_of_mem_append {message : EntityMsg} {e : EntityPlugin}
    (hmessage : message.ofLoops = true) :
    ∀ other ∈ e.mailbox ++ [message], other ∈ e.mailbox ∨ other.ofLoops = true := by
  intro other hmem
  rcases List.mem_append.mp hmem with hold | hnew
  · exact .inl hold
  · exact .inr (List.mem_singleton.mp hnew ▸ hmessage)

/-- A loop that asks where the mailbox has room waits for the answer. -/
theorem loopStep_askWorker (s : EntityState Cid) {id : Nat} {waiting : Nat → Saver}
    {refused : Saver} (halive : s.plugin.alive = true)
    (hroom : s.plugin.mailbox.length < entityMailboxCapacity)
    (hloop : (waiting s.plugin.tickets).direct = false)
    (hprogress : (waiting s.plugin.tickets).inProgress = true)
    (howns : s.plugin.statePersistInFlight = true → (s.plugin.savers id).ownsFlag = true →
      (waiting s.plugin.tickets).ownsFlag = true) :
    LoopStep s { s with plugin := s.plugin.askWorker id .takePending waiting refused } id
      (waiting s.plugin.tickets) := by
  have hsent := trySend_of_room (.takePending ⟨id, s.plugin.tickets⟩) halive hroom
  unfold EntityPlugin.askWorker
  rw [hsent]
  refine ⟨rfl, rfl, ofLoops_of_mem_append rfl, rfl, hloop, fun hflag ↦ ?_, .inl hprogress⟩
  by_cases hown : (s.plugin.savers id).ownsFlag = true
  · exact .inl (howns hflag hown)
  · exact .inr ⟨hflag, Bool.eq_false_iff.mpr hown⟩

/-- Where the flag is set the spawner goes on, and where it is clear it becomes the loop. -/
theorem loopStep_spawnStatePersist (e : EntityPlugin) (link : Option Cid) {id : Nat}
    {bytes : Bytes} (skipped : Saver) (hloop : skipped.direct = false)
    (hnot : (e.savers id).ownsFlag = false) :
    ∃ saver, LoopStep ⟨e, link⟩ ⟨e.spawnStatePersist id bytes skipped, link⟩ id saver := by
  unfold EntityPlugin.spawnStatePersist
  split_ifs with hflag
  · exact ⟨skipped, rfl, rfl, fun _ hmem ↦ .inl hmem, rfl, hloop, fun _ ↦ .inr ⟨hflag, hnot⟩,
      .inr hflag⟩
  · exact ⟨.loopAdd bytes, rfl, rfl, fun _ hmem ↦ .inl hmem, rfl, rfl, fun _ ↦ .inl rfl,
      .inl rfl⟩

/-- A step of a loop. -/
theorem loopStep_advance {id : Nat} {succeeds : Bool} (hs : Attended s)
    (hroom : s.plugin.mailbox.length < entityMailboxCapacity)
    (h : advance store s id succeeds = some t) : ∃ saver, LoopStep s t id saver := by
  have hkept {saver : Saver} (hthread : t.plugin.thread = s.plugin.thread)
      (halive : t.plugin.alive = s.plugin.alive) (hmailbox : t.plugin.mailbox = s.plugin.mailbox)
      (hsavers : t.plugin.savers = Function.update s.plugin.savers id saver)
      (hloop : saver.direct = false) (howns : saver.ownsFlag = true) :
      LoopStep s t id saver :=
    ⟨hthread, halive, fun message hmem ↦ .inl (hmailbox ▸ hmem), hsavers, hloop,
      fun _ ↦ .inl howns, .inl (Saver.inProgress_of_ownsFlag howns)⟩
  have hloop := hs.savers id
  unfold advance at h
  cases hsaver : s.plugin.savers id with
  | loopAdd bytes | loopLink bytes =>
    rw [hsaver] at h
    cases succeeds with
    | true =>
      obtain rfl := Option.some.inj h
      exact ⟨_, hkept rfl rfl rfl rfl rfl rfl⟩
    | false =>
      obtain rfl := Option.some.inj h
      exact ⟨_, hkept rfl rfl rfl rfl rfl rfl⟩
  | loopMark bytes =>
    rw [hsaver] at h
    obtain rfl := Option.some.inj h
    have hsent : s.plugin.markSaved bytes =
        { s.plugin with mailbox := s.plugin.mailbox ++ [.markSaved bytes] } := by
      unfold EntityPlugin.markSaved EntityPlugin.send
      rw [trySend_of_room _ hs.alive hroom, Option.getD_some]
    rw [hsent]
    exact ⟨.loopAsk, rfl, rfl, ofLoops_of_mem_append rfl, rfl, rfl, fun _ ↦ .inl rfl, .inl rfl⟩
  | loopAsk =>
    rw [hsaver] at h
    obtain rfl := Option.some.inj h
    exact ⟨_, loopStep_askWorker s hs.alive hroom rfl rfl fun _ _ ↦ rfl⟩
  | loopClear =>
    rw [hsaver] at h
    obtain rfl := Option.some.inj h
    exact ⟨.finalAsk, rfl, rfl, fun _ hmem ↦ .inl hmem, rfl, rfl, fun hflag ↦ (nomatch hflag),
      .inl rfl⟩
  | finalAsk =>
    have hnot : (s.plugin.savers id).ownsFlag = false := by rw [hsaver]; rfl
    rw [hsaver] at h
    obtain rfl := Option.some.inj h
    exact ⟨_, loopStep_askWorker s hs.alive hroom rfl rfl fun _ hown ↦ nomatch hnot.symm.trans hown⟩
  | respawn bytes =>
    have hnot : (s.plugin.savers id).ownsFlag = false := by rw [hsaver]; rfl
    rw [hsaver] at h
    obtain rfl := Option.some.inj h
    exact loopStep_spawnStatePersist s.plugin s.link (.ended true) rfl hnot
  | ask | add | mark | link =>
    rw [hsaver] at hloop
    cases hloop
  | idle | loopAwait | finalAwait | await | ended =>
    rw [hsaver] at h
    cases h

/-! ### Steps of the worker -/

/-- What the worker makes of a message of dispatches and loops. -/
theorem Attended.work {guest : GuestCall} (hs : Attended s)
    (hdispatch : s.plugin.mailbox.head? = some .dispatch →
      DispatchSucceeds s.plugin.thread guest)
    {worked : EntityPlugin} (h : s.plugin.work guest = some worked) :
    Attended { s with plugin := worked } := by
  unfold EntityPlugin.work at h
  split at h
  case h_1 rest halive hmailbox =>
    have hterminate := hs.mailbox .terminate (by rw [hmailbox]; exact List.mem_cons_self)
    cases hterminate
  case h_3 => cases h
  case h_2 message rest hnot halive hmailbox =>
    obtain rfl := Option.some.inj h
    have hrest : ∀ other ∈ rest, other.ofLoops = true := by
      intro other hmem
      exact hs.mailbox other (by rw [hmailbox]; exact List.mem_cons_of_mem _ hmem)
    have hmessage := hs.mailbox message (by rw [hmailbox]; exact List.mem_cons_self)
    cases message with
    | dispatch =>
      have hsucceeds := hdispatch (by rw [hmailbox]; rfl)
      refine ⟨hs.alive, hrest, hs.savers, hs.inFlight, fun hpending ↦ ?_⟩
      rcases pendingState_executeDispatch hsucceeds with hsame | ⟨result, bytes, hresult, hbytes⟩
      · have hpendingBefore : s.plugin.thread.state.pending ≠ none := hsame ▸ hpending
        rcases hs.pending hpendingBefore with hresults | hprogress
        · left
          simp only [EntityPlugin.answer, serve]
          exact List.append_ne_nil_of_left_ne_nil hresults _
        · exact .inr hprogress
      · left
        simp [EntityPlugin.answer, serve, hresult, hbytes]
    | takePending reply =>
      obtain ⟨hloop, howns, hprogress⟩ :=
        Saver.receive_pending reply.ticket s.plugin.thread.state.pending (hs.savers reply.saver)
      refine ⟨hs.alive, hrest, fun other ↦ ?_, fun hflag ↦ ?_, fun hpending ↦ ?_⟩
      · exact savers_update (fun saver ↦ saver.direct = false) (fun _ ↦ hloop) other
          (hs.savers other)
      · obtain ⟨other, hother⟩ := hs.inFlight hflag
        exact ⟨other, savers_update (fun saver ↦ saver.ownsFlag = true) howns other hother⟩
      · refine (hs.pending hpending).imp_right ?_
        rintro ⟨other, hother⟩
        exact ⟨other, savers_update (fun saver ↦ saver.inProgress = true)
          (fun hbefore ↦ hprogress hbefore hpending) other hother⟩
    | markSaved bytes =>
      refine ⟨hs.alive, hrest, hs.savers, hs.inFlight, fun hpending ↦ hs.pending ?_⟩
      have hafter : (s.plugin.thread.state.markSaved bytes).pending ≠ none := hpending
      rw [StateCtx.pending_markSaved] at hafter
      split_ifs at hafter
      · exact absurd rfl hafter
      · exact hafter
    | shutdown => cases hmessage
    | terminate => cases hmessage

/-! ### Runs -/

/-- Every step that is undisturbed keeps pending states attended. -/
theorem Attended.step {action : EntityAction} (hs : Attended s) (hguard : Undisturbed s action)
    (h : entityStep store s action = some t) : Attended t := by
  cases action with
  | send =>
    obtain ⟨plugin, hsent, rfl⟩ := Option.map_eq_some_iff.mp h
    unfold EntityPlugin.trySend at hsent
    split_ifs at hsent
    obtain rfl := Option.some.inj hsent
    refine ⟨hs.alive, fun message hmem ↦ ?_, hs.savers, hs.inFlight, hs.pending⟩
    exact (ofLoops_of_mem_append rfl message hmem).elim (hs.mailbox message) fun hloop ↦ hloop
  | work guest =>
    obtain ⟨plugin, hwork, rfl⟩ := Option.map_eq_some_iff.mp h
    exact hs.work hguard hwork
  | spawnStatePersist result id =>
    simp only [entityStep] at h
    split at h
    · rename_i bytes _ hidle
      obtain rfl := Option.some.inj h
      have hnot : (s.plugin.savers id).ownsFlag = false := by
        rw [hidle]
        rfl
      obtain ⟨saver, hspawned⟩ := loopStep_spawnStatePersist
        { s.plugin with results := s.plugin.results.eraseIdx result } s.link .idle rfl hnot
      exact hs.loopStep ⟨hspawned.thread, hspawned.alive, hspawned.mailbox, hspawned.savers,
        hspawned.loop, hspawned.inFlight, hspawned.inProgress⟩
    · cases h
  | advance id succeeds =>
    obtain ⟨saver, hloop⟩ := loopStep_advance hs hguard h
    exact hs.loopStep hloop
  | forget | save | timeout | terminate => cases hguard

theorem attended_of_run {actions : List EntityAction} {u : EntityState Cid} (hs : Quiet s)
    (h : GuardedRun (entityStep store) Undisturbed s actions u) : Attended u :=
  h.invariant Attended (fun _ _ _ hs hguard hstep ↦ hs.step hguard hstep) hs.attended

/-- Assumes: an entity that starts with nothing pending, and a run of dispatches and background
loops in which dispatches succeed, their results are not dropped, the mailbox has room and the
worker answers. When no loop is in progress and no result waits to call `spawn_state_persist`, the
flag is clear and no state is pending. -/
theorem noneStranded {actions : List EntityAction} {u : EntityState Cid} (hs : Quiet s)
    (h : GuardedRun (entityStep store) Undisturbed s actions u)
    (hloops : ∀ id, (u.plugin.savers id).inProgress = false) (hresults : u.plugin.results = []) :
    u.plugin.statePersistInFlight = false ∧ u.plugin.thread.state.pending = none := by
  have hattended := attended_of_run hs h
  constructor
  · rw [← Bool.not_eq_true]
    intro hflag
    obtain ⟨id, howns⟩ := hattended.inFlight hflag
    have hprogress := Saver.inProgress_of_ownsFlag howns
    rw [hloops id] at hprogress
    cases hprogress
  · by_contra hpending
    rcases hattended.pending hpending with hwaits | ⟨id, hprogress⟩
    · exact hwaits hresults
    · rw [hloops id] at hprogress
      cases hprogress

theorem dispatchSucceeds_setsState (ts : WasmThreadState) (bytes : Bytes) :
    DispatchSucceeds ts (setsState bytes) := by
  obtain ⟨-, hqueued, result, hresult, -⟩ :=
    executeDispatch_of_call (rfl : ts.call (setsState bytes) = (_, some []))
  refine ⟨by rw [hresult]; exact Option.some_ne_none result, ?_⟩
  have hsize : 1 < UInt64.size := by decide
  rw [hqueued]
  dsimp only
  split_ifs
  · rw [List.length_append, List.length_singleton]
    omega
  · omega

/-- The second dispatch queues its state while the loop of the first is at its upload, which fails;
the loop finds the second state, and saves it. -/
theorem noneStranded_two_dispatches :
    ∃ u, GuardedRun (entityStep contentStore) Undisturbed freshEntity
        ([.send, .work (setsState [1]), .spawnStatePersist 0 0, .send, .work (setsState [2]),
          .spawnStatePersist 0 1, .advance 0 false, .advance 0 true, .work doesNothing] ++
          loopActions 0) u ∧
      u.plugin.thread.queued = [[1], [2]] ∧ u.plugin.thread.state.pending = none := by
  have hrun : GuardedRun (entityStep contentStore) Undisturbed freshEntity
      ([.send, .work (setsState [1]), .spawnStatePersist 0 0, .send, .work (setsState [2]),
        .spawnStatePersist 0 1, .advance 0 false, .advance 0 true, .work doesNothing] ++
        loopActions 0) _ :=
    .cons trivial rfl <| .cons (fun _ ↦ dispatchSucceeds_setsState _ _) rfl <| .cons trivial rfl <|
      .cons trivial rfl <|
      .cons (fun _ ↦ dispatchSucceeds_setsState _ _) rfl <| .cons trivial rfl <|
      .cons (Nat.le_of_ble_eq_true rfl) rfl <| .cons (Nat.le_of_ble_eq_true rfl) rfl <|
      .cons (fun h ↦ nomatch h) rfl <| .cons (Nat.le_of_ble_eq_true rfl) rfl <|
      .cons (Nat.le_of_ble_eq_true rfl) rfl <| .cons (Nat.le_of_ble_eq_true rfl) rfl <|
      .cons (fun h ↦ nomatch h) rfl <| .cons (Nat.le_of_ble_eq_true rfl) rfl <|
      .cons (fun h ↦ nomatch h) rfl <| .cons (Nat.le_of_ble_eq_true rfl) rfl <|
      .cons (Nat.le_of_ble_eq_true rfl) rfl <| .cons (fun h ↦ nomatch h) rfl <| .nil _
  refine ⟨_, hrun, rfl, (noneStranded ?_ hrun ?_ rfl).2⟩
  · exact ⟨rfl, rfl, rfl, rfl, fun _ ↦ rfl, rfl⟩
  · exact fun | 0 => rfl | 1 => rfl | _ + 2 => rfl

end MaRuntime.Plugin
