import MaRuntime.Dispatch.Delivery
import MaRuntime.Library.Runs

/-!
# The queue of envelopes

What the plugins send goes through one bounded queue, which the event loop drains at each tick, a
limited number of envelopes at a time. An envelope for an entity of this runtime waits for one of
the permits of local dispatches, and with it the event loop; one for another runtime is handed to a
task of its own or dropped when too many of them run. A plugin never waits: where the queue is full
its envelope is dropped.

The plugins, the loop and the tasks take their steps in any order (`outboundStep`). Each envelope
that was accepted has one fate, in the order in which they were accepted, and queue and tasks keep
within their limits (`inOrder_run`). No plugin can starve another one: an envelope has its fate
after as many ticks as its place in the queue asks for, whatever is sent behind it
(`fate_within_ticks`).

Main definitions: `OutboundState`, `outboundStep`, `InOrder`.
Main results: `inOrder_run`, `fate_within_ticks`.

Scope. What the tasks do is in `Dispatch/Delivery.lean` and `Outbox/Connections.lean`. The gates are
never closed. Building a message is code of another crate, and so are the message types and the
protocols: they are parameters.
-/

set_option autoImplicit false
set_option relaxedAutoImplicit false

namespace MaRuntime.Dispatch

open Runs

/-! ### The queue -/

def pluginOutboxDrainBudget : ℕ := 64
def localPluginDispatchLimit : ℕ := 16
def remotePluginDeliveryLimit : ℕ := 16

/-- An envelope with the fragment of its sender. -/
abbrev Queued := String × SendEnvelope

/-- Why an envelope is dropped. -/
inductive DropReason
  | localReply
  | recipientInvalid
  | notBuilt
  | remoteLimit
deriving DecidableEq

/-- What becomes of an envelope that was accepted. -/
inductive EnvelopeFate
  | dispatched (targetFragment : String)
  | delivered (recipient : Did) (protocol : String)
  | dropped (reason : DropReason)
deriving DecidableEq

/-- Where the event loop stands: outside `drain_plugin_envelopes`; in it, with what is left of the
budget; before it has a permit for a local dispatch. -/
inductive DrainPhase
  | idle
  | drains (left : ℕ)
  | acquires (envelope : Queued) (targetFragment : String) (left : ℕ)
deriving DecidableEq

/-- The channel, the event loop and the tasks that hold permits. For the properties only: the
envelopes that the channel has accepted, and the fates of those that were taken out. -/
structure OutboundState where
  queue : List Queued
  phase : DrainPhase
  localRunning : ℕ
  remoteRunning : ℕ
  accepted : List Queued
  fates : List (Queued × EnvelopeFate)
deriving DecidableEq

def OutboundState.new : OutboundState := ⟨[], .idle, 0, 0, [], []⟩

/-- The texts of other crates. -/
structure MessageTypes where
  message : String
  ipfsRequest : String
  identityPublishRequest : String
  crud : String
  crudReply : String
  ipfsProtocol : String
  crudProtocol : String
  inboxProtocol : String

/-- `protocol_for`. -/
def protocolFor (types : MessageTypes) (messageType : String) : String :=
  if messageType = types.ipfsRequest ∨ messageType = types.identityPublishRequest then
    types.ipfsProtocol
  else if messageType = types.crud ∨ messageType = types.crudReply then types.crudProtocol
  else types.inboxProtocol

/-- What stays the same over a run; `builds` tells whether a message can be built of an envelope. -/
structure OutboundSetup where
  parseDid : String → Option Did
  builds : Queued → Bool
  types : MessageTypes
  ourDid : String
  capacity : ℕ

/-- The entity of this runtime that an envelope is for. -/
def localTarget (setup : OutboundSetup) (envelope : Queued) : Option String :=
  localTargetFragment setup.parseDid envelope.2.toUrl setup.ourDid

/-- What the event loop does with an envelope: a local dispatch waits for a permit, and anything
else has its fate. -/
def routeEnvelope (setup : OutboundSetup) (remoteRunning : ℕ) (envelope : Queued) :
    String ⊕ EnvelopeFate :=
  match localTarget setup envelope with
  | some targetFragment =>
    if envelope.2.replyTo.isSome then .inr (.dropped .localReply) else .inl targetFragment
  | none =>
    match setup.parseDid envelope.2.toUrl with
    | none => .inr (.dropped .recipientInvalid)
    | some recipient =>
      if setup.builds envelope then
        if remoteRunning < remotePluginDeliveryLimit then
          .inr (.delivered recipient
            (protocolFor setup.types (envelope.2.messageType.getD setup.types.message)))
        else .inr (.dropped .remoteLimit)
      else .inr (.dropped .notBuilt)

/-- A plugin sends, a tick begins, the loop goes on, and a task ends. -/
inductive OutboundAction
  | enqueue (envelope : Queued)
  | tick
  | drain
  | localEnds
  | remoteEnds
deriving DecidableEq

/-- The state when an envelope has its fate. -/
def OutboundState.settle (s : OutboundState) (envelope : Queued) (fate : EnvelopeFate)
    (left : ℕ) : OutboundState :=
  { s with
    phase := .drains left
    localRunning := match fate with
      | .dispatched _ => s.localRunning + 1
      | _ => s.localRunning
    remoteRunning := match fate with
      | .delivered _ _ => s.remoteRunning + 1
      | _ => s.remoteRunning
    fates := s.fates ++ [(envelope, fate)] }

/-- One step of an interleaving of the plugins, the event loop and its tasks. -/
def outboundStep (setup : OutboundSetup) (s : OutboundState) :
    OutboundAction → Option OutboundState
  | .enqueue envelope =>
    if s.queue.length < setup.capacity then
      some { s with queue := s.queue ++ [envelope], accepted := s.accepted ++ [envelope] }
    else some s
  | .tick =>
    match s.phase with
    | .idle => some { s with phase := .drains pluginOutboxDrainBudget }
    | _ => none
  | .drain =>
    match s.phase with
    | .idle => none
    | .drains 0 => some { s with phase := .idle }
    | .drains (left + 1) =>
      match s.queue with
      | [] => some { s with phase := .idle }
      | envelope :: rest =>
        match routeEnvelope setup s.remoteRunning envelope with
        | .inl targetFragment =>
          some { s with queue := rest, phase := .acquires envelope targetFragment left }
        | .inr fate => some ({ s with queue := rest }.settle envelope fate left)
    | .acquires envelope targetFragment left =>
      if s.localRunning < localPluginDispatchLimit then
        some (s.settle envelope (.dispatched targetFragment) left)
      else none
  | .localEnds => if 0 < s.localRunning then some { s with localRunning := s.localRunning - 1 }
    else none
  | .remoteEnds => if 0 < s.remoteRunning then some { s with remoteRunning := s.remoteRunning - 1 }
    else none

/-! ### The invariant -/

/-- The envelope that the loop holds while it waits for a permit. -/
def OutboundState.held (s : OutboundState) : List Queued :=
  match s.phase with
  | .acquires envelope _ _ => [envelope]
  | .idle | .drains _ => []

/-- What is left of the budget. -/
def OutboundState.left (s : OutboundState) : ℕ :=
  match s.phase with
  | .acquires _ _ left | .drains left => left
  | .idle => 0

section Runs

variable (setup : OutboundSetup)

/-- When an envelope may have a fate. Only one for another runtime is dropped where a limit is
reached. -/
def IsFate (envelope : Queued) : EnvelopeFate → Prop
  | .dispatched targetFragment =>
    localTarget setup envelope = some targetFragment ∧ envelope.2.replyTo = none
  | .delivered recipient protocol =>
    localTarget setup envelope = none ∧ setup.parseDid envelope.2.toUrl = some recipient ∧
      setup.builds envelope = true ∧
      protocol = protocolFor setup.types (envelope.2.messageType.getD setup.types.message)
  | .dropped .localReply =>
    (localTarget setup envelope).isSome ∧ envelope.2.replyTo ≠ none
  | .dropped .recipientInvalid =>
    localTarget setup envelope = none ∧ setup.parseDid envelope.2.toUrl = none
  | .dropped .notBuilt =>
    localTarget setup envelope = none ∧ setup.builds envelope = false
  | .dropped .remoteLimit =>
    localTarget setup envelope = none ∧ setup.builds envelope = true

/-- The envelopes that have left the channel had their turns in the order in which they were
accepted and have fates that are theirs, and channel and tasks keep within their limits. -/
structure InOrder (s : OutboundState) : Prop where
  order : s.fates.map Prod.fst ++ s.held ++ s.queue = s.accepted
  fates : ∀ entry ∈ s.fates, IsFate setup entry.1 entry.2
  waits : ∀ envelope targetFragment left, s.phase = .acquires envelope targetFragment left →
    IsFate setup envelope (.dispatched targetFragment)
  queue : s.queue.length ≤ setup.capacity
  localRunning : s.localRunning ≤ localPluginDispatchLimit
  remoteRunning : s.remoteRunning ≤ remotePluginDeliveryLimit

variable {setup}

theorem routeEnvelope_inl {remoteRunning : ℕ} {envelope : Queued} {targetFragment : String}
    (h : routeEnvelope setup remoteRunning envelope = .inl targetFragment) :
    IsFate setup envelope (.dispatched targetFragment) := by
  unfold routeEnvelope at h
  split at h
  · rename_i target htarget
    split at h
    · cases h
    · rename_i hreply
      obtain rfl := Sum.inl.inj h
      exact ⟨htarget, by simpa using hreply⟩
  · split at h
    · cases h
    · split_ifs at h

theorem routeEnvelope_inr {remoteRunning : ℕ} {envelope : Queued} {fate : EnvelopeFate}
    (h : routeEnvelope setup remoteRunning envelope = .inr fate) :
    IsFate setup envelope fate ∧
      (∀ targetFragment, fate ≠ .dispatched targetFragment) ∧
      ∀ recipient protocol, fate = .delivered recipient protocol →
        remoteRunning < remotePluginDeliveryLimit := by
  unfold routeEnvelope at h
  split at h
  · rename_i target htarget
    split at h
    · rename_i hreply
      obtain rfl := Sum.inr.inj h
      exact ⟨⟨by rw [htarget]; rfl, Option.isSome_iff_ne_none.mp hreply⟩, by simp, by simp⟩
    · cases h
  · rename_i hremote
    split at h
    · rename_i hinvalid
      obtain rfl := Sum.inr.inj h
      exact ⟨⟨hremote, hinvalid⟩, by simp, by simp⟩
    · rename_i recipient hrecipient
      split at h
      · rename_i hbuilds
        split at h
        · rename_i hroom
          obtain rfl := Sum.inr.inj h
          exact ⟨⟨hremote, hrecipient, hbuilds, rfl⟩, by simp, fun _ _ _ ↦ hroom⟩
        · obtain rfl := Sum.inr.inj h
          exact ⟨⟨hremote, hbuilds⟩, by simp, by simp⟩
      · rename_i hbuilds
        obtain rfl := Sum.inr.inj h
        exact ⟨⟨hremote, Bool.eq_false_iff.mpr hbuilds⟩, by simp, by simp⟩

/-- What becomes of an envelope that is not dispatched here keeps the tasks within their limits. -/
theorem settle_of_routeEnvelope {s : OutboundState} {envelope : Queued} {fate : EnvelopeFate}
    (left : ℕ) (h : routeEnvelope setup s.remoteRunning envelope = .inr fate)
    (hremote : s.remoteRunning ≤ remotePluginDeliveryLimit) :
    (s.settle envelope fate left).localRunning = s.localRunning ∧
      (s.settle envelope fate left).remoteRunning ≤ remotePluginDeliveryLimit := by
  obtain ⟨-, hdispatched, hdelivered⟩ := routeEnvelope_inr h
  cases fate with
  | dispatched targetFragment => exact absurd rfl (hdispatched targetFragment)
  | delivered recipient protocol => exact ⟨rfl, hdelivered recipient protocol rfl⟩
  | dropped reason => exact ⟨rfl, hremote⟩

/-- What a step does to the queue and to the fates: an envelope is accepted at the end of the queue,
one is taken from its head, or one that was taken has its fate. A turn of the loop begins with a
whole budget, and it ends when the budget or the queue is used up. -/
inductive OutboundMove (setup : OutboundSetup) (s t : OutboundState) : OutboundAction → Prop
  | accepted (envelope : Queued) (hroom : s.queue.length < setup.capacity)
      (hphase : t.phase = s.phase) (hqueue : t.queue = s.queue ++ [envelope])
      (haccepted : t.accepted = s.accepted ++ [envelope]) (hfates : t.fates = s.fates) :
      OutboundMove setup s t (.enqueue envelope)
  | refused (envelope : Queued) (ht : t = s) : OutboundMove setup s t (.enqueue envelope)
  | begins (hidle : s.phase = .idle)
      (ht : t = { s with phase := .drains pluginOutboxDrainBudget }) :
      OutboundMove setup s t .tick
  | ends (left : ℕ) (hphase : s.phase = .drains left) (hdone : left = 0 ∨ s.queue = [])
      (ht : t = { s with phase := .idle }) : OutboundMove setup s t .drain
  | takes (envelope : Queued) (targetFragment : String) (left : ℕ)
      (hphase : s.phase = .drains (left + 1)) (hqueue : s.queue = envelope :: t.queue)
      (hfate : IsFate setup envelope (.dispatched targetFragment))
      (ht : t.phase = .acquires envelope targetFragment left)
      (haccepted : t.accepted = s.accepted) (hfates : t.fates = s.fates) :
      OutboundMove setup s t .drain
  | settles (envelope : Queued) (fate : EnvelopeFate) (left : ℕ)
      (hhead : (s.phase = .drains (left + 1) ∧ s.queue = envelope :: t.queue ∧
          IsFate setup envelope fate) ∨
        ∃ targetFragment, s.phase = .acquires envelope targetFragment left ∧
          t.queue = s.queue ∧ fate = .dispatched targetFragment)
      (ht : t.phase = .drains left) (haccepted : t.accepted = s.accepted)
      (hfates : t.fates = s.fates ++ [(envelope, fate)]) : OutboundMove setup s t .drain
  | localEnds (hphase : t.phase = s.phase) (hqueue : t.queue = s.queue)
      (haccepted : t.accepted = s.accepted) (hfates : t.fates = s.fates) :
      OutboundMove setup s t .localEnds
  | remoteEnds (hphase : t.phase = s.phase) (hqueue : t.queue = s.queue)
      (haccepted : t.accepted = s.accepted) (hfates : t.fates = s.fates) :
      OutboundMove setup s t .remoteEnds

theorem outboundMove_of_step {s t : OutboundState} {action : OutboundAction}
    (h : outboundStep setup s action = some t) :
    OutboundMove setup s t action := by
  cases action with
  | enqueue envelope =>
    simp only [outboundStep] at h
    split at h
    · rename_i hroom
      obtain rfl := Option.some.inj h
      exact .accepted envelope hroom rfl rfl rfl rfl
    · obtain rfl := Option.some.inj h
      exact .refused envelope rfl
  | tick =>
    simp only [outboundStep] at h
    split at h
    · rename_i hidle
      exact .begins hidle (Option.some.inj h).symm
    · cases h
  | drain =>
    simp only [outboundStep] at h
    split at h
    · cases h
    · rename_i hphase
      exact .ends 0 hphase (.inl rfl) (Option.some.inj h).symm
    · rename_i left hphase
      split at h
      · rename_i hqueue
        exact .ends (left + 1) hphase (.inr hqueue) (Option.some.inj h).symm
      · rename_i envelope rest hqueue
        split at h
        · rename_i targetFragment hroute
          obtain rfl := Option.some.inj h
          exact .takes envelope targetFragment left hphase hqueue (routeEnvelope_inl hroute)
            rfl rfl rfl
        · rename_i fate hroute
          obtain rfl := Option.some.inj h
          have hfate := (routeEnvelope_inr hroute).1
          exact .settles envelope fate left (.inl ⟨hphase, hqueue, hfate⟩) rfl rfl rfl
    · rename_i envelope targetFragment left hphase
      split at h
      · obtain rfl := Option.some.inj h
        exact .settles envelope (.dispatched targetFragment) left
          (.inr ⟨targetFragment, hphase, rfl, rfl⟩) rfl rfl rfl
      · cases h
  | localEnds =>
    simp only [outboundStep] at h
    split at h
    · obtain rfl := Option.some.inj h
      exact .localEnds rfl rfl rfl rfl
    · cases h
  | remoteEnds =>
    simp only [outboundStep] at h
    split at h
    · obtain rfl := Option.some.inj h
      exact .remoteEnds rfl rfl rfl rfl
    · cases h

/-- The tasks that hold permits stay within their limits. -/
theorem running_of_step {s t : OutboundState} {action : OutboundAction}
    (hlocal : s.localRunning ≤ localPluginDispatchLimit)
    (hremote : s.remoteRunning ≤ remotePluginDeliveryLimit)
    (h : outboundStep setup s action = some t) :
    t.localRunning ≤ localPluginDispatchLimit ∧ t.remoteRunning ≤ remotePluginDeliveryLimit := by
  cases action with
  | enqueue envelope =>
    simp only [outboundStep] at h
    split at h <;> obtain rfl := Option.some.inj h <;> exact ⟨hlocal, hremote⟩
  | tick =>
    simp only [outboundStep] at h
    split at h
    · obtain rfl := Option.some.inj h
      exact ⟨hlocal, hremote⟩
    · cases h
  | drain =>
    simp only [outboundStep] at h
    split at h
    · cases h
    · obtain rfl := Option.some.inj h
      exact ⟨hlocal, hremote⟩
    · split at h
      · obtain rfl := Option.some.inj h
        exact ⟨hlocal, hremote⟩
      · split at h
        · obtain rfl := Option.some.inj h
          exact ⟨hlocal, hremote⟩
        · rename_i left _ _ _ _ _ _ _ hroute
          obtain rfl := Option.some.inj h
          obtain ⟨hl, hr⟩ := settle_of_routeEnvelope left hroute hremote
          exact ⟨hl.trans_le hlocal, hr⟩
    · split at h
      · rename_i hpermit
        obtain rfl := Option.some.inj h
        exact ⟨hpermit, hremote⟩
      · cases h
  | localEnds =>
    simp only [outboundStep] at h
    split at h
    · obtain rfl := Option.some.inj h
      exact ⟨(Nat.sub_le _ _).trans hlocal, hremote⟩
    · cases h
  | remoteEnds =>
    simp only [outboundStep] at h
    split at h
    · obtain rfl := Option.some.inj h
      exact ⟨hlocal, (Nat.sub_le _ _).trans hremote⟩
    · cases h

theorem held_congr {s t : OutboundState} (h : t.phase = s.phase) : t.held = s.held := by
  unfold OutboundState.held
  rw [h]

theorem left_congr {s t : OutboundState} (h : t.phase = s.phase) : t.left = s.left := by
  unfold OutboundState.left
  rw [h]

theorem inOrder_new : InOrder setup .new where
  order := rfl
  fates := by simp [OutboundState.new]
  waits := by simp [OutboundState.new]
  queue := Nat.zero_le _
  localRunning := Nat.zero_le _
  remoteRunning := Nat.zero_le _

theorem order_of_move {s t : OutboundState} {action : OutboundAction}
    (hs : s.fates.map Prod.fst ++ s.held ++ s.queue = s.accepted)
    (h : OutboundMove setup s t action) :
    t.fates.map Prod.fst ++ t.held ++ t.queue = t.accepted := by
  cases h with
  | accepted envelope _ hphase hqueue haccepted hfates =>
    rw [held_congr hphase, hqueue, haccepted, hfates, ← hs, List.append_assoc _ s.queue]
  | refused _ ht => rwa [ht]
  | begins hidle ht =>
    subst ht
    simpa [OutboundState.held, hidle] using hs
  | ends left hphase _ ht =>
    subst ht
    simpa [OutboundState.held, hphase] using hs
  | takes envelope targetFragment left hphase hqueue _ ht haccepted hfates =>
    rw [haccepted, hfates, ← hs]
    simp [OutboundState.held, hphase, ht, hqueue]
  | settles envelope fate left hhead ht haccepted hfates =>
    rw [haccepted, hfates, ← hs]
    rcases hhead with ⟨hphase, hqueue, -⟩ | ⟨targetFragment, hphase, hqueue, -⟩ <;>
      simp [OutboundState.held, hphase, ht, hqueue]
  | localEnds hphase hqueue haccepted hfates =>
    rwa [held_congr hphase, hqueue, haccepted, hfates]
  | remoteEnds hphase hqueue haccepted hfates =>
    rwa [held_congr hphase, hqueue, haccepted, hfates]

theorem queue_of_move {s t : OutboundState} {action : OutboundAction}
    (hs : s.queue.length ≤ setup.capacity) (h : OutboundMove setup s t action) :
    t.queue.length ≤ setup.capacity := by
  cases h with
  | accepted envelope hroom _ hqueue =>
    rw [hqueue, List.length_append]
    exact hroom
  | refused _ ht | begins _ ht | ends _ _ _ ht => rwa [ht]
  | takes envelope _ _ _ hqueue =>
    rw [hqueue, List.length_cons] at hs
    exact (Nat.le_succ _).trans hs
  | settles envelope _ _ hhead =>
    rcases hhead with ⟨-, hqueue, -⟩ | ⟨-, -, hqueue, -⟩
    · rw [hqueue, List.length_cons] at hs
      exact (Nat.le_succ _).trans hs
    · rwa [hqueue]
  | localEnds _ hqueue | remoteEnds _ hqueue => rwa [hqueue]

/-- An envelope that waits for its permit, and one that has its fate, was routed to it. -/
theorem routed_of_move {s t : OutboundState} {action : OutboundAction}
    (hs : InOrder setup s)
    (h : OutboundMove setup s t action) :
    (∀ entry ∈ t.fates, IsFate setup entry.1 entry.2) ∧
      ∀ envelope targetFragment left, t.phase = .acquires envelope targetFragment left →
        IsFate setup envelope (.dispatched targetFragment) := by
  have hfates := hs.fates
  have hwaits := hs.waits
  cases h with
  | accepted envelope _ hphase _ _ hsame => exact ⟨hsame ▸ hfates, hphase ▸ hwaits⟩
  | refused _ ht => exact ht ▸ ⟨hfates, hwaits⟩
  | begins _ ht | ends _ _ _ ht =>
    subst ht
    exact ⟨hfates, by simp⟩
  | takes envelope targetFragment left _ _ hfate ht _ hsame =>
    refine ⟨hsame ▸ hfates, fun other target rest hphase ↦ ?_⟩
    rw [ht, DrainPhase.acquires.injEq] at hphase
    obtain ⟨rfl, rfl, -⟩ := hphase
    exact hfate
  | settles envelope fate left hhead ht _ hsame =>
    refine ⟨hsame ▸ fun entry hentry ↦ ?_, by simp [ht]⟩
    rcases List.mem_append.mp hentry with hearlier | hnew
    · exact hfates entry hearlier
    · obtain rfl := List.mem_singleton.mp hnew
      rcases hhead with ⟨-, -, hfate⟩ | ⟨targetFragment, hphase, -, rfl⟩
      · exact hfate
      · exact hwaits envelope targetFragment left hphase
  | localEnds hphase _ _ hsame | remoteEnds hphase _ _ hsame =>
    exact ⟨hsame ▸ hfates, hphase ▸ hwaits⟩

theorem inOrder_of_step {s t : OutboundState} {action : OutboundAction}
    (hs : InOrder setup s)
    (h : outboundStep setup s action = some t) :
    InOrder setup t := by
  have hmove := outboundMove_of_step h
  obtain ⟨hlocal, hremote⟩ := running_of_step hs.localRunning hs.remoteRunning h
  obtain ⟨hfates, hwaits⟩ := routed_of_move hs hmove
  exact ⟨order_of_move hs.order hmove, hfates, hwaits, queue_of_move hs.queue hmove, hlocal,
    hremote⟩

theorem inOrder_of_run {s t : OutboundState} {actions : List OutboundAction}
    (h : Run (outboundStep setup) s actions t)
    (hs : InOrder setup s) : InOrder setup t :=
  h.invariant (InOrder setup) (fun _ _ _ hs _ ↦ inOrder_of_step hs) hs

/-! ### How long an envelope waits -/

def ticks (actions : List OutboundAction) : ℕ := actions.count .tick

/-- What a number of ticks have done for the envelopes that were in the queue of a state in which
the loop was idle: nothing has come before them, and the turns that began have handled them all, or
as many as the budgets say, up to what is left of the last one. -/
structure Drained (s : OutboundState) (ticks : ℕ) (t : OutboundState) : Prop where
  prior : s.fates.map Prod.fst ++ s.queue <+: t.accepted
  handled : s.fates.length + min (pluginOutboxDrainBudget * ticks) s.queue.length ≤
    t.fates.length + t.held.length + t.left

theorem length_accepted {s : OutboundState} (hs : InOrder setup s) :
    s.accepted.length = s.fates.length + s.held.length + s.queue.length := by
  rw [← hs.order, List.length_append, List.length_append, List.length_map]

theorem Drained.step {s t u : OutboundState} {action : OutboundAction} {n : ℕ}
    (hdrained : Drained s n t) (ht : InOrder setup t)
    (h : OutboundMove setup t u action) : Drained s (n + ticks [action]) u := by
  obtain ⟨hprior, hhandled⟩ := hdrained
  cases h with
  | accepted envelope _ hphase _ haccepted hfates =>
    refine ⟨haccepted ▸ hprior.trans (List.prefix_append _ _), ?_⟩
    rw [held_congr hphase, left_congr hphase, hfates]
    exact hhandled
  | refused _ hu => exact hu ▸ ⟨hprior, hhandled⟩
  | begins hidle hu =>
    subst hu
    refine ⟨hprior, ?_⟩
    simp only [OutboundState.held, OutboundState.left, hidle, List.length_nil] at hhandled ⊢
    simp only [ticks, List.count_singleton_self, Nat.mul_succ]
    omega
  | ends left hphase hdone hu =>
    subst hu
    refine ⟨hprior, ?_⟩
    have hlength := length_accepted ht
    have hle := hprior.length_le
    rw [List.length_append, List.length_map] at hle
    simp only [OutboundState.held, OutboundState.left, hphase, List.length_nil]
      at hhandled hlength ⊢
    rcases hdone with rfl | hempty
    · exact hhandled
    · -- the queue is used up, and nothing that was in it is left
      rw [hempty, List.length_nil] at hlength
      omega
  | takes envelope targetFragment left hphase hqueue _ hu haccepted hfates =>
    refine ⟨haccepted ▸ hprior, ?_⟩
    simp only [OutboundState.held, OutboundState.left, hphase, hu, hfates, List.length_nil,
      List.length_singleton] at hhandled ⊢
    exact hhandled.trans (by omega)
  | settles envelope fate left hhead hu haccepted hfates =>
    refine ⟨haccepted ▸ hprior, ?_⟩
    rcases hhead with ⟨hphase, -⟩ | ⟨targetFragment, hphase, -⟩ <;>
      simp only [OutboundState.held, OutboundState.left, hphase, hu, hfates, List.length_nil,
        List.length_append, List.length_singleton] at hhandled ⊢ <;>
      exact hhandled.trans (by omega)
  | localEnds hphase _ haccepted hfates | remoteEnds hphase _ haccepted hfates =>
    refine ⟨haccepted ▸ hprior, ?_⟩
    rw [held_congr hphase, left_congr hphase, hfates]
    exact hhandled

theorem Drained.run {s t u : OutboundState} {actions : List OutboundAction} {n : ℕ}
    (h : Run (outboundStep setup) t actions u)
    (hdrained : Drained s n t) (ht : InOrder setup t) :
    Drained s (n + ticks actions) u := by
  induction h generalizing n with
  | nil t => exact hdrained
  | @cons t v u action rest _ hstep _ ih =>
    have hnext := ih (hdrained.step ht (outboundMove_of_step hstep)) (inOrder_of_step ht hstep)
    rwa [Nat.add_assoc, ticks, ticks, ← List.count_append] at hnext

theorem Drained.refl {s : OutboundState} (hs : InOrder setup s) (hidle : s.phase = .idle) :
    Drained s 0 s := by
  have hheld : s.held = [] := by rw [OutboundState.held, hidle]
  have horder := hs.order
  rw [hheld, List.append_nil] at horder
  refine ⟨horder ▸ List.prefix_rfl, ?_⟩
  rw [Nat.mul_zero, Nat.zero_min, Nat.add_zero, hheld]
  exact (Nat.le_add_right _ _).trans (Nat.le_add_right _ _)

/-! ### The results

The witnesses are about a turn of the loop in which an entity sends to another one of its runtime,
as a reply to it, and to another runtime. -/

def lampText : Queued := ("clock", ⟨"did:ma:here#lamp", "text/plain", none, [111, 110], none⟩)
def lampReply : Queued :=
  ("clock", ⟨"did:ma:here#lamp", "text/plain", none, [111, 110], some "id"⟩)
def remoteText : Queued := ("clock", ⟨"did:ma:there", "text/plain", none, [111, 110], none⟩)

def threeEnvelopes : List Queued := [lampText, lampReply, remoteText]

def messageTypes : MessageTypes where
  message := "message"
  ipfsRequest := "ipfs-request"
  identityPublishRequest := "identity-publish-request"
  crud := "crud"
  crudReply := "crud-reply"
  ipfsProtocol := "/ma/ipfs/0.0.1"
  crudProtocol := "/ma/crud/0.0.1"
  inboxProtocol := "/ma/inbox/0.0.1"

/-- One more envelope is sent while the first one waits for its permit. -/
def firstHalf : List OutboundAction := [.tick, .drain, .enqueue lampText, .drain, .drain]

def secondHalf : List OutboundAction := [.localEnds, .drain, .drain, .drain, .drain]

def sampleSetup : OutboundSetup where
  parseDid := parseDidUrl
  builds _ := true
  types := messageTypes
  ourDid := "did:ma:here"
  capacity := 8

def threeSent : OutboundState := ⟨threeEnvelopes, .idle, 0, 0, threeEnvelopes, []⟩

def duringTurn : OutboundState where
  queue := [remoteText, lampText]
  phase := .drains 62
  localRunning := 1
  remoteRunning := 0
  accepted := threeEnvelopes ++ [lampText]
  fates := [(lampText, .dispatched "lamp"), (lampReply, .dropped .localReply)]

def afterTurn : OutboundState where
  queue := []
  phase := .idle
  localRunning := 1
  remoteRunning := 1
  accepted := threeEnvelopes ++ [lampText]
  fates := duringTurn.fates ++ [(remoteText, .delivered ⟨"did:ma:there", none⟩ "/ma/inbox/0.0.1"),
    (lampText, .dispatched "lamp")]

theorem run_threeSent :
    Run (outboundStep sampleSetup) .new (threeEnvelopes.map .enqueue) threeSent :=
  run_of_execute (by decide +kernel)

theorem run_firstHalf : Run (outboundStep sampleSetup) threeSent firstHalf duringTurn :=
  run_of_execute (by decide +kernel)

theorem run_secondHalf : Run (outboundStep sampleSetup) duringTurn secondHalf afterTurn :=
  run_of_execute (by decide +kernel)

/-- Whatever the plugins send, and in whatever order the plugins, the loop and the tasks take their
steps: each accepted envelope has been taken out in the order of acceptance or waits, and neither
queue nor tasks exceed their limits. -/
theorem inOrder_run {t : OutboundState} {actions : List OutboundAction}
    (h : Run (outboundStep setup) .new actions t) :
    InOrder setup t :=
  inOrder_of_run h inOrder_new

/-- The invariant in the middle of a turn. -/
theorem inOrder_duringTurn : InOrder sampleSetup duringTurn :=
  inOrder_run (run_threeSent.append run_firstHalf)

/-- An envelope that waits behind `k` others in a state in which the loop is idle has had its fate,
and the others before it, once the loop is idle again after more than `k / 64` ticks. -/
theorem fate_within_ticks {s t : OutboundState} {before after : List OutboundAction} {k : ℕ}
    {envelope : Queued}
    (hbefore : Run (outboundStep setup) .new before s)
    (hafter : Run (outboundStep setup) s after t)
    (hs : s.phase = .idle) (ht : t.phase = .idle) (hk : s.queue[k]? = some envelope)
    (hticks : k < pluginOutboxDrainBudget * ticks after) :
    ∃ fate, t.fates[s.fates.length + k]? = some (envelope, fate) := by
  have hinOrder := inOrder_of_run hbefore inOrder_new
  obtain ⟨hprior, hhandled⟩ := Drained.run hafter (Drained.refl hinOrder hs) hinOrder
  have horder := (inOrder_of_run hafter hinOrder).order
  have hlt : k < s.queue.length := (List.getElem?_eq_some_iff.mp hk).1
  have hheld : t.held = [] := by rw [OutboundState.held, ht]
  have hleft : t.left = 0 := by rw [OutboundState.left, ht]
  rw [hheld, hleft, Nat.zero_add] at hhandled
  rw [hheld, List.append_nil] at horder
  have hplace : s.fates.length + k < t.fates.length := by
    have hmin : k < min (pluginOutboxDrainBudget * ticks after) s.queue.length :=
      lt_min hticks hlt
    exact Nat.lt_of_lt_of_le (Nat.add_lt_add_left hmin _) hhandled
  have hsame : (t.fates.map Prod.fst)[s.fates.length + k]? = some envelope := by
    have hfirst : s.fates.length + k < (t.fates.map Prod.fst).length := by
      rwa [List.length_map]
    have hwhole : (t.fates.map Prod.fst ++ t.queue)[s.fates.length + k]? =
        (t.fates.map Prod.fst)[s.fates.length + k]? := List.getElem?_append_left hfirst
    obtain ⟨rest, hrest⟩ := hprior
    rw [← hwhole, horder, ← hrest, List.append_assoc,
      List.getElem?_append_right (by simp), List.length_map,
      Nat.add_sub_cancel_left, List.getElem?_append_left hlt, hk]
  rw [List.getElem?_map, Option.map_eq_some_iff] at hsame
  obtain ⟨⟨first, fate⟩, hfate, rfl⟩ := hsame
  exact ⟨fate, hfate⟩

/-- The envelope for the other runtime has its fate at the end of the turn. -/
theorem fate_of_remoteText : ∃ fate, afterTurn.fates[0 + 2]? = some (remoteText, fate) :=
  fate_within_ticks run_threeSent (run_firstHalf.append run_secondHalf) rfl rfl rfl (by decide)

end Runs

end MaRuntime.Dispatch
