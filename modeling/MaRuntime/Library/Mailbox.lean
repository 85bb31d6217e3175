import Mathlib.Data.List.Nodup
import Mathlib.Logic.Function.Basic
import MaRuntime.Library.Runs

/-!
# A mailbox and its server

Callers put messages into a mailbox that holds so many, and one server takes them out and serves
them, one after the other. A caller whose message is not taken is told so at once; the others wait
for their answer and may give up meanwhile. The server ends at a message that tells it to, or fails,
and then everyone who waits is told that there will be no answer.

Whatever the callers and the server do, it is as if the messages had been served in the order in
which they were accepted, each once at most (`Linearised`, `linearised_of_run`), and a caller waits
for no more messages than the mailbox holds (`told_of_run`).

Main definitions: `Mailbox`, `mailboxStep`, `Linearised`.
Main results: `linearised_of_run`, `last_of_run`, `told_of_run`, `exists_waiting`.
-/

set_option autoImplicit false
set_option relaxedAutoImplicit false

namespace MaRuntime.Mailboxes

open Runs

variable {State Message Work Reply : Type*}

/-! ### The mailbox -/

/-- A message with the number of its call. -/
structure Entry (Message : Type*) where
  call : ℕ
  message : Message

/-- What has become of a call. -/
inductive Fate (Reply : Type*)
  | waiting
  | refused
  | served (reply : Option Reply)
  | dropped
  | givenUp

/-- The server and the mailbox, with the fates of the calls that were made. The messages that were
accepted, and those that were served with what came of it, are histories. -/
structure Mailbox (State Message Work Reply : Type*) where
  server : State
  isOpen : Bool
  queue : List (Entry Message)
  fates : ℕ → Option (Fate Reply)
  accepted : List (Entry Message)
  executed : List (Entry Message × Work)

/-- The steps: a call is made, the server takes a message or fails at one, a caller gives up. What
is up to the work on a message comes with the step. -/
inductive MailboxAction (Message Work : Type*)
  | send (call : ℕ) (message : Message)
  | work (work : Work)
  | fail
  | giveUp (call : ℕ)

namespace Mailbox

def start (server : State) : Mailbox State Message Work Reply :=
  ⟨server, true, [], fun _ ↦ none, [], []⟩

variable (s : Mailbox State Message Work Reply)

/-- The fates when a message has been served: the caller is told if it still waits. -/
def settle (call : ℕ) (fate : Fate Reply) : ℕ → Option (Fate Reply) :=
  Function.update s.fates call <|
    match s.fates call with
    | some .waiting => some fate
    | told => told

/-- The mailbox without its server: everyone who waits is told. -/
def close : Mailbox State Message Work Reply :=
  { s with
    isOpen := false
    queue := []
    fates := fun call ↦
      match s.fates call with
      | some .waiting => some .dropped
      | fate => fate }

end Mailbox

section Steps

variable (capacity : ℕ) (serve : State → Work → Message → State × Option Reply)
  (ends : Message → Bool)

/-- The server takes a message, and ends if the message tells it to. -/
def Mailbox.take (s : Mailbox State Message Work Reply) (work : Work) (entry : Entry Message)
    (rest : List (Entry Message)) : Mailbox State Message Work Reply :=
  let served := serve s.server work entry.message
  let t : Mailbox State Message Work Reply :=
    { s with
      server := served.1
      queue := rest
      fates := s.settle entry.call (.served served.2)
      executed := s.executed ++ [(entry, work)] }
  if ends entry.message then t.close else t

def mailboxStep (s : Mailbox State Message Work Reply) :
    MailboxAction Message Work → Option (Mailbox State Message Work Reply)
  | .send call message =>
    match s.fates call with
    | some _ => none
    | none =>
      if s.isOpen && s.queue.length < capacity then
        some { s with
          queue := s.queue ++ [⟨call, message⟩]
          accepted := s.accepted ++ [⟨call, message⟩]
          fates := Function.update s.fates call (some .waiting) }
      else some { s with fates := Function.update s.fates call (some .refused) }
  | .work work =>
    match s.queue with
    | entry :: rest => some (s.take serve ends work entry rest)
    | [] => none
  | .fail =>
    match s.queue with
    | _ :: _ => some s.close
    | [] => none
  | .giveUp call =>
    match s.fates call with
    | some .waiting => some { s with fates := Function.update s.fates call (some .givenUp) }
    | _ => none

/-- The server after it has served messages. -/
def serverAfter (start : State) (executed : List (Entry Message × Work)) : State :=
  executed.foldl (fun server done ↦ (serve server done.2 done.1.message).1) start

/-- What the steps do: a call is accepted or refused, a message is taken, the server fails at one,
or a caller gives up. -/
inductive MailboxMove (s : Mailbox State Message Work Reply) :
    MailboxAction Message Work → Mailbox State Message Work Reply → Prop
  | accepts (call : ℕ) (message : Message) (hnew : s.fates call = none) (hopen : s.isOpen = true)
      (hroom : s.queue.length < capacity) :
      MailboxMove s (.send call message)
        { s with
          queue := s.queue ++ [⟨call, message⟩]
          accepted := s.accepted ++ [⟨call, message⟩]
          fates := Function.update s.fates call (some .waiting) }
  | refuses (call : ℕ) (message : Message) (hnew : s.fates call = none) :
      MailboxMove s (.send call message)
        { s with fates := Function.update s.fates call (some .refused) }
  | takes (work : Work) (entry : Entry Message) (rest : List (Entry Message))
      (hqueue : s.queue = entry :: rest) :
      MailboxMove s (.work work) (s.take serve ends work entry rest)
  | fails (entry : Entry Message) (rest : List (Entry Message)) (hqueue : s.queue = entry :: rest) :
      MailboxMove s .fail s.close
  | givesUp (call : ℕ) (hwaiting : s.fates call = some .waiting) :
      MailboxMove s (.giveUp call)
        { s with fates := Function.update s.fates call (some .givenUp) }

variable {capacity serve ends}

theorem move_of_step {s t : Mailbox State Message Work Reply} {action : MailboxAction Message Work}
    (h : mailboxStep capacity serve ends s action = some t) :
    MailboxMove capacity serve ends s action t := by
  cases action with
  | send call message =>
    simp only [mailboxStep] at h
    split at h
    · cases h
    · rename_i hnew
      split_ifs at h with haccepts
      · obtain rfl := Option.some.inj h
        obtain ⟨hopen, hroom⟩ := Bool.and_eq_true_iff.mp haccepts
        exact .accepts call message hnew hopen (of_decide_eq_true hroom)
      · obtain rfl := Option.some.inj h
        exact .refuses call message hnew
  | work work =>
    simp only [mailboxStep] at h
    split at h
    · rename_i entry rest hqueue
      obtain rfl := Option.some.inj h
      exact .takes work entry rest hqueue
    · cases h
  | fail =>
    simp only [mailboxStep] at h
    split at h
    · rename_i entry rest hqueue
      obtain rfl := Option.some.inj h
      exact .fails entry rest hqueue
    · cases h
  | giveUp call =>
    simp only [mailboxStep] at h
    split at h
    · rename_i hwaiting
      obtain rfl := Option.some.inj h
      exact .givesUp call hwaiting
    · cases h

end Steps

/-! ### The order -/

section Order

variable (serve : State → Work → Message → State × Option Reply) (start : State)

/-- What the fate of a call says: a call that waits has its message in the queue; an answer is that
of the call's own message, served after the ones before it; a call that was refused, or dropped, was
not served. -/
def Mailbox.Tells (s : Mailbox State Message Work Reply) (call : ℕ) : Option (Fate Reply) → Prop
  | none | some .refused => call ∉ s.accepted.map Entry.call
  | some .waiting => call ∈ s.queue.map Entry.call
  | some (.served reply) =>
    ∃ before entry work after, s.executed = before ++ (entry, work) :: after ∧
      entry.call = call ∧ reply = (serve (serverAfter serve start before) work entry.message).2
  | some .dropped =>
    s.isOpen = false ∧ call ∈ s.accepted.map Entry.call ∧
      call ∉ s.executed.map fun done ↦ done.1.call
  | some .givenUp => call ∈ s.accepted.map Entry.call

/-- The messages were served in the order in which they were accepted, each once at most, and those
that were not served yet are in the queue in this order. -/
structure Linearised (s : Mailbox State Message Work Reply) : Prop where
  order : s.executed.map Prod.fst ++ s.queue <+: s.accepted
  complete : s.isOpen = true → s.executed.map Prod.fst ++ s.queue = s.accepted
  closed : s.isOpen = false → s.queue = []
  server : s.server = serverAfter serve start s.executed
  once : (s.accepted.map Entry.call).Nodup
  fates : ∀ call, s.Tells serve start call (s.fates call)

variable {serve : State → Work → Message → State × Option Reply} {start : State}
  {s t : Mailbox State Message Work Reply}

theorem serverAfter_append (executed : List (Entry Message × Work)) (entry : Entry Message)
    (work : Work) :
    serverAfter serve start (executed ++ [(entry, work)]) =
      (serve (serverAfter serve start executed) work entry.message).1 :=
  List.foldl_append

namespace Linearised

theorem of_start :
    Linearised serve start (Mailbox.start start : Mailbox State Message Work Reply) where
  order := List.nil_prefix
  complete _ := rfl
  closed := nofun
  server := rfl
  once := List.nodup_nil
  fates _ := List.not_mem_nil

/-- Nothing that is in the queue was served. -/
theorem not_mem_executed (h : Linearised serve start s) {call : ℕ}
    (hqueue : call ∈ s.queue.map Entry.call) :
    call ∈ s.accepted.map Entry.call ∧ call ∉ s.executed.map fun done ↦ done.1.call := by
  have horder := h.order.map Entry.call
  rw [List.map_append, List.map_map] at horder
  refine ⟨horder.subset (List.mem_append_right _ hqueue), fun hexecuted ↦ ?_⟩
  exact (List.nodup_append.mp (h.once.sublist horder.sublist)).2.2 call hexecuted call hqueue rfl

theorem close (h : Linearised serve start s) : Linearised serve start s.close where
  order := by
    have horder := (List.prefix_append (s.executed.map Prod.fst) s.queue).trans h.order
    rw [show s.close.queue = [] from rfl, List.append_nil]
    exact horder
  complete := nofun
  closed _ := rfl
  server := h.server
  once := h.once
  fates call := by
    have htells := h.fates call
    unfold Mailbox.close
    dsimp only
    cases hfate : s.fates call with
    | none =>
      rw [hfate] at htells
      exact htells
    | some fate =>
      rw [hfate] at htells
      cases fate with
      | waiting => exact ⟨rfl, h.not_mem_executed htells⟩
      | dropped => exact ⟨rfl, htells.2⟩
      | refused | served | givenUp => exact htells

/-- A new call that is accepted. -/
theorem accept (h : Linearised serve start s) {call : ℕ} (message : Message)
    (hnew : s.fates call = none) (hopen : s.isOpen = true) :
    Linearised serve start
      { s with
        queue := s.queue ++ [⟨call, message⟩]
        accepted := s.accepted ++ [⟨call, message⟩]
        fates := Function.update s.fates call (some .waiting) } := by
  have horder : s.executed.map Prod.fst ++ (s.queue ++ [⟨call, message⟩]) =
      s.accepted ++ [⟨call, message⟩] := by
    rw [← List.append_assoc, h.complete hopen]
  have hnone : call ∉ s.accepted.map Entry.call := by
    have htells := h.fates call
    rw [hnew] at htells
    exact htells
  refine ⟨horder ▸ List.prefix_rfl, fun _ ↦ horder, ?_, h.server, ?_, fun other ↦ ?_⟩
  · intro hclosed
    cases hopen.symm.trans hclosed
  · rw [List.map_append, List.map_singleton]
    refine List.nodup_append.mpr ⟨h.once, List.nodup_singleton _, fun other hother new hmem ↦ ?_⟩
    obtain rfl := List.mem_singleton.mp hmem
    exact ne_of_mem_of_not_mem hother hnone
  · by_cases hother : other = call
    · subst hother
      dsimp only
      rw [Function.update_self]
      simp [Mailbox.Tells]
    · have htells := h.fates other
      dsimp only
      rw [Function.update_of_ne hother]
      cases hfate : s.fates other with
      | none =>
        rw [hfate] at htells
        simpa [Mailbox.Tells, hother] using htells
      | some fate =>
        rw [hfate] at htells
        cases fate with
        | served => exact htells
        | dropped => cases hopen.symm.trans htells.1
        | waiting | refused | givenUp => simpa [Mailbox.Tells, hother] using htells

/-- A call that is told its fate otherwise than by an answer. -/
theorem update (h : Linearised serve start s) {call : ℕ} {fate : Option (Fate Reply)}
    (htells : s.Tells serve start call fate) :
    Linearised serve start { s with fates := Function.update s.fates call fate } := by
  refine ⟨h.order, h.complete, h.closed, h.server, h.once, fun other ↦ ?_⟩
  by_cases hother : other = call
  · subst hother
    dsimp only
    rw [Function.update_self]
    cases fate with
    | none => exact htells
    | some fate => cases fate <;> exact htells
  · have hother' := h.fates other
    dsimp only
    rw [Function.update_of_ne hother]
    cases hfate : s.fates other with
    | none =>
      rw [hfate] at hother'
      exact hother'
    | some fate =>
      rw [hfate] at hother'
      cases fate <;> exact hother'

/-- A mailbox with a message in it is open. -/
theorem isOpen_of_queue (h : Linearised serve start s) {entry : Entry Message}
    {rest : List (Entry Message)} (hqueue : s.queue = entry :: rest) : s.isOpen = true := by
  by_contra hnot
  cases hqueue.symm.trans (h.closed (Bool.eq_false_iff.mpr hnot))

/-- An answer stays that of its message when another message is served. -/
theorem tells_served {call : ℕ} {reply : Option Reply} {done : Entry Message × Work}
    (hexecuted : t.executed = s.executed ++ [done])
    (htells : s.Tells serve start call (some (.served reply))) :
    t.Tells serve start call (some (.served reply)) := by
  obtain ⟨before, entry, work, after, hserved, hanswer⟩ := htells
  exact ⟨before, entry, work, after ++ [done], by simp [hexecuted, hserved], hanswer⟩

/-- The first message of the queue is served. -/
theorem serves (h : Linearised serve start s) (work : Work) {entry : Entry Message}
    {rest : List (Entry Message)} (hqueue : s.queue = entry :: rest) :
    Linearised serve start
      { s with
        server := (serve s.server work entry.message).1
        queue := rest
        fates := s.settle entry.call (.served (serve s.server work entry.message).2)
        executed := s.executed ++ [(entry, work)] } := by
  have hopen : s.isOpen = true := h.isOpen_of_queue hqueue
  have horder : (s.executed ++ [(entry, work)]).map Prod.fst ++ rest = s.accepted := by
    rw [List.map_append, List.append_assoc, ← h.complete hopen, hqueue]
    rfl
  have hmem : entry.call ∈ s.accepted.map Entry.call :=
    (h.not_mem_executed (hqueue ▸ List.mem_cons_self)).1
  refine ⟨horder ▸ List.prefix_rfl, fun _ ↦ horder, ?_, ?_, h.once, fun call ↦ ?_⟩
  · intro hclosed
    cases hopen.symm.trans hclosed
  · rw [serverAfter_append, ← h.server]
  · have htells := h.fates call
    dsimp only
    by_cases hcall : call = entry.call
    · subst hcall
      unfold Mailbox.settle
      rw [Function.update_self]
      cases hfate : s.fates entry.call with
      | none =>
        rw [hfate] at htells
        exact absurd hmem htells
      | some fate =>
        rw [hfate] at htells
        cases fate with
        | waiting => exact ⟨s.executed, entry, work, [], rfl, rfl, by rw [h.server]⟩
        | refused => exact absurd hmem htells
        | dropped => cases hopen.symm.trans htells.1
        | served => exact tells_served rfl htells
        | givenUp => exact htells
    · unfold Mailbox.settle
      rw [Function.update_of_ne hcall]
      cases hfate : s.fates call with
      | none =>
        rw [hfate] at htells
        exact htells
      | some fate =>
        rw [hfate] at htells
        cases fate with
        | waiting =>
          have hqueued : call ∈ s.queue.map Entry.call := htells
          rw [hqueue] at hqueued
          exact (List.mem_cons.mp hqueued).resolve_left hcall
        | refused | givenUp => exact htells
        | dropped => cases hopen.symm.trans htells.1
        | served => exact tells_served rfl htells

end Linearised

variable {capacity : ℕ} {ends : Message → Bool} {action : MailboxAction Message Work}
  {actions : List (MailboxAction Message Work)}

/-- A step keeps the order. -/
theorem Linearised.step (h : Linearised serve start s)
    (hstep : mailboxStep capacity serve ends s action = some t) : Linearised serve start t := by
  cases move_of_step hstep with
  | accepts call message hnew hopen _ => exact h.accept message hnew hopen
  | refuses call message hnew =>
    have htells := h.fates call
    rw [hnew] at htells
    exact h.update htells
  | takes work entry rest hqueue =>
    unfold Mailbox.take
    dsimp only
    split_ifs
    · exact (h.serves work hqueue).close
    · exact h.serves work hqueue
  | fails => exact h.close
  | givesUp call hwaiting =>
    have htells := h.fates call
    rw [hwaiting] at htells
    exact h.update (h.not_mem_executed htells).1

/-- Whatever the callers and the server do, the messages are served in the order in which they were
accepted. -/
theorem linearised_of_run (h : Run (mailboxStep capacity serve ends) (.start start) actions s) :
    Linearised serve start s :=
  h.invariant (Linearised serve start) (fun _ _ _ h _ hstep ↦ h.step hstep) .of_start

/-- While the server runs it has served no message that ends it, and it serves none after one. -/
def Mailbox.EndsLast (ends : Message → Bool) (s : Mailbox State Message Work Reply) : Prop :=
  (s.isOpen = true → ∀ done ∈ s.executed, ends done.1.message = false) ∧
    ∀ done ∈ s.executed.dropLast, ends done.1.message = false

theorem Linearised.endsLast_step (h : Linearised serve start s) (hs : s.EndsLast ends)
    (hstep : mailboxStep capacity serve ends s action = some t) : t.EndsLast ends := by
  cases move_of_step hstep with
  | takes work entry rest hqueue =>
    have hbefore := hs.1 (h.isOpen_of_queue hqueue)
    unfold Mailbox.take
    dsimp only
    split_ifs with hends
    · refine ⟨nofun, fun done hdone ↦ ?_⟩
      simp only [Mailbox.close, List.dropLast_concat] at hdone
      exact hbefore done hdone
    · refine ⟨fun _ done hdone ↦ ?_, fun done hdone ↦ ?_⟩
      · simp only [List.mem_append, List.mem_singleton] at hdone
        obtain hdone | rfl := hdone
        · exact hbefore done hdone
        · exact eq_false_of_ne_true hends
      · simp only [List.dropLast_concat] at hdone
        exact hbefore done hdone
  | fails => exact ⟨nofun, hs.2⟩
  | accepts | refuses | givesUp => exact hs

/-- A message that ends the server is the last one that is served. -/
theorem last_of_run (h : Run (mailboxStep capacity serve ends) (.start start) actions s)
    {before after : List (Entry Message × Work)} {done : Entry Message × Work}
    (hexecuted : s.executed = before ++ done :: after) (hends : ends done.1.message = true) :
    after = [] ∧ s.isOpen = false := by
  have hlast : Linearised serve start s ∧ s.EndsLast ends :=
    h.invariant (fun s ↦ Linearised serve start s ∧ s.EndsLast ends)
      (fun _ _ _ h _ hstep ↦ ⟨h.1.step hstep, h.1.endsLast_step h.2 hstep⟩)
      ⟨.of_start, nofun, nofun⟩
  constructor
  · by_contra hafter
    have hmem : done ∈ s.executed.dropLast := by
      rw [hexecuted, List.dropLast_append_cons, List.dropLast_cons_of_ne_nil hafter]
      simp
    cases hends.symm.trans (hlast.2.2 done hmem)
  · by_contra hopen
    have hmem : done ∈ s.executed := by
      rw [hexecuted]
      simp
    cases hends.symm.trans (hlast.2.1 (eq_true_of_ne_false hopen) done hmem)

/-- The message that a call sends. -/
def MailboxAction.sent : MailboxAction Message Work → Option (Entry Message)
  | .send call message => some ⟨call, message⟩
  | _ => none

/-- What a step accepts is what it sends. -/
theorem accepted_of_step (hstep : mailboxStep capacity serve ends s action = some t) :
    ∃ new, t.accepted = s.accepted ++ new ∧ new.Sublist action.sent.toList := by
  have hnothing : ∃ new, s.accepted = s.accepted ++ new ∧ new.Sublist action.sent.toList :=
    ⟨[], (List.append_nil _).symm, List.nil_sublist _⟩
  cases move_of_step hstep with
  | accepts => exact ⟨_, rfl, List.Sublist.refl _⟩
  | takes =>
    unfold Mailbox.take
    dsimp only
    split_ifs
    · exact hnothing
    · exact hnothing
  | refuses | fails | givesUp => exact hnothing

/-- What was accepted was sent, in the same order. -/
theorem accepted_sublist_of_run
    (h : Run (mailboxStep capacity serve ends) (.start start) actions s) :
    s.accepted.Sublist (actions.filterMap MailboxAction.sent) := by
  have hgeneral : ∀ s t : Mailbox State Message Work Reply, ∀ actions,
      Run (mailboxStep capacity serve ends) s actions t →
        ∃ new, t.accepted = s.accepted ++ new ∧
          new.Sublist (actions.filterMap MailboxAction.sent) := by
    intro s t actions h
    induction h with
    | nil s => exact ⟨[], (List.append_nil _).symm, List.nil_sublist _⟩
    | @cons s middle t action actions _ hstep _ ih =>
      obtain ⟨first, hfirst, hsent⟩ := accepted_of_step hstep
      obtain ⟨rest, hrest, hrestSent⟩ := ih
      refine ⟨first ++ rest, by rw [hrest, hfirst, List.append_assoc], ?_⟩
      have hsplit : (action :: actions).filterMap MailboxAction.sent =
          action.sent.toList ++ actions.filterMap MailboxAction.sent := by
        rw [List.filterMap_cons]
        cases action.sent <;> rfl
      rw [hsplit]
      exact hsent.append hrestSent
  obtain ⟨new, hnew, hsent⟩ := hgeneral _ s actions h
  rw [hnew]
  exact hsent

end Order

/-! ### Waiting -/

section Waiting

variable {capacity : ℕ} {serve : State → Work → Message → State × Option Reply}
  {ends : Message → Bool} {start : State} {s t : Mailbox State Message Work Reply} {call : ℕ}
  {action : MailboxAction Message Work} {before actions : List (MailboxAction Message Work)}

/-- A call that was made does not wait any more. -/
def Mailbox.Told (s : Mailbox State Message Work Reply) (call : ℕ) : Prop :=
  ∃ fate, s.fates call = some fate ∧ fate ≠ .waiting

/-- The server takes a message, to serve it or to fail at it. -/
def MailboxAction.takes : MailboxAction Message Work → Bool
  | .work _ | .fail => true
  | _ => false

/-- Fewer than so many messages are before that of a call. -/
def Mailbox.Near (s : Mailbox State Message Work Reply) (call k : ℕ) : Prop :=
  ∃ front entry back, s.queue = front ++ entry :: back ∧ entry.call = call ∧ front.length < k

theorem told_close (h : (s.fates call).isSome = true) : s.close.Told call := by
  unfold Mailbox.close Mailbox.Told
  dsimp only
  split
  · exact ⟨_, rfl, nofun⟩
  · rename_i hnot
    obtain ⟨fate, hfate⟩ := Option.isSome_iff_exists.mp h
    refine ⟨fate, hfate, ?_⟩
    rintro rfl
    exact hnot hfate

theorem Mailbox.Told.close (h : s.Told call) : s.close.Told call := by
  obtain ⟨fate, hfate, -⟩ := h
  exact told_close (by rw [hfate]; rfl)

theorem told_settle {entry : Entry Message} {fate : Fate Reply} (hfate : fate ≠ .waiting)
    (h : s.Told call ∨ entry.call = call ∧ (s.fates call).isSome = true) :
    ∃ told, s.settle entry.call fate call = some told ∧ told ≠ .waiting := by
  unfold Mailbox.settle
  by_cases hcall : call = entry.call
  · subst hcall
    rw [Function.update_self]
    cases hbefore : s.fates entry.call with
    | none => simp [Mailbox.Told, hbefore] at h
    | some told =>
      cases told with
      | waiting => exact ⟨fate, rfl, hfate⟩
      | refused | served | dropped | givenUp => exact ⟨_, rfl, nofun⟩
  · rw [Function.update_of_ne hcall]
    exact h.resolve_right fun heq ↦ hcall heq.1.symm

/-- A call that was told its fate keeps it. -/
theorem Mailbox.Told.step (h : s.Told call)
    (hstep : mailboxStep capacity serve ends s action = some t) : t.Told call := by
  obtain ⟨fate, hfate, hnot⟩ := h
  have hother : ∀ {other : ℕ} {told : Fate Reply}, call ≠ other →
      ∃ kept, Function.update s.fates other (some told) call = some kept ∧ kept ≠ .waiting :=
    fun hne ↦ ⟨fate, (Function.update_of_ne hne _ _).trans hfate, hnot⟩
  cases move_of_step hstep with
  | accepts other _ hnew | refuses other _ hnew =>
    refine hother ?_
    rintro rfl
    cases hnew.symm.trans hfate
  | takes =>
    unfold Mailbox.take
    dsimp only
    split_ifs
    · exact Mailbox.Told.close (told_settle nofun (.inl ⟨fate, hfate, hnot⟩))
    · exact told_settle nofun (.inl ⟨fate, hfate, hnot⟩)
  | fails => exact Mailbox.Told.close ⟨fate, hfate, hnot⟩
  | givesUp other hwaiting =>
    refine hother ?_
    rintro rfl
    exact hnot (Option.some.inj (hfate.symm.trans hwaiting))

/-- A call whose message is in the queue was made. -/
theorem Linearised.isSome_of_near {k : ℕ} (h : Linearised serve start s) (hnear : s.Near call k) :
    (s.fates call).isSome = true := by
  obtain ⟨front, entry, back, hqueue, rfl, -⟩ := hnear
  have hmem : entry.call ∈ s.accepted.map Entry.call :=
    (h.not_mem_executed (by simp [hqueue])).1
  have htells := h.fates entry.call
  cases hfate : s.fates entry.call with
  | none =>
    rw [hfate] at htells
    exact absurd hmem htells
  | some fate => rfl

theorem isSome_settle {entry : Entry Message} {fate : Fate Reply}
    (h : (s.fates call).isSome = true) : (s.settle entry.call fate call).isSome = true := by
  unfold Mailbox.settle
  by_cases hcall : call = entry.call
  · rw [hcall, Function.update_self]
    rw [hcall] at h
    split
    · rfl
    · exact h
  · rw [Function.update_of_ne hcall]
    exact h

/-- The message of a call comes nearer with each message that the server takes. -/
theorem Linearised.near_step {k : ℕ} (h : Linearised serve start s)
    (hstep : mailboxStep capacity serve ends s action = some t)
    (hnear : s.Near call (k + action.takes.toNat)) : t.Told call ∨ t.Near call k := by
  have hmade := h.isSome_of_near hnear
  obtain ⟨front, entry, back, hqueue, rfl, hfront⟩ := hnear
  cases move_of_step hstep with
  | accepts other message =>
    exact .inr ⟨front, entry, back ++ [⟨other, message⟩], by simp [hqueue], rfl, hfront⟩
  | refuses | givesUp => exact .inr ⟨front, entry, back, hqueue, rfl, hfront⟩
  | fails => exact .inl (told_close hmade)
  | takes work first rest hfirst =>
    unfold Mailbox.take
    dsimp only
    rw [hqueue] at hfirst
    cases front with
    | nil =>
      obtain ⟨rfl, rfl⟩ := List.cons.inj hfirst
      have htold := told_settle (s := s) (nofun :
        (.served (serve s.server work entry.message).2 : Fate Reply) ≠ .waiting)
        (.inr ⟨rfl, hmade⟩)
      split_ifs
      · exact .inl (Mailbox.Told.close htold)
      · exact .inl htold
    | cons _ front =>
      obtain ⟨rfl, rfl⟩ := List.cons.inj hfirst
      split_ifs
      · exact .inl (told_close (isSome_settle hmade))
      · exact .inr ⟨front, entry, back, rfl, rfl, Nat.succ_lt_succ_iff.mp hfront⟩

/-- A call is told its fate once the server has taken the messages before its own, and its own. -/
theorem Linearised.told_of_near (h : Linearised serve start s)
    (hrun : Run (mailboxStep capacity serve ends) s actions t)
    (hnear : s.Near call (actions.filter MailboxAction.takes).length) : t.Told call := by
  induction hrun with
  | nil s =>
    obtain ⟨front, _, _, _, _, hfront⟩ := hnear
    cases hfront
  | @cons s middle t action rest _ hstep hrest ih =>
    have hcount : ((action :: rest).filter MailboxAction.takes).length =
        (rest.filter MailboxAction.takes).length + action.takes.toNat := by
      rw [List.filter_cons]
      cases action.takes <;> rfl
    rw [hcount] at hnear
    obtain htold | hnear := h.near_step hstep hnear
    · exact hrest.invariant (fun s ↦ s.Told call) (fun _ _ _ h _ hstep ↦ h.step hstep) htold
    · exact ih (h.step hstep) hnear

/-- The mailbox never holds more than its capacity. -/
theorem length_queue_le (h : Run (mailboxStep capacity serve ends) (.start start) actions s) :
    s.queue.length ≤ capacity := by
  refine h.invariant (fun s ↦ s.queue.length ≤ capacity) (fun s action t hs _ hstep ↦ ?_)
    (Nat.zero_le _)
  cases move_of_step hstep with
  | accepts _ _ _ _ hroom =>
    rw [List.length_append, List.length_singleton]
    exact hroom
  | takes _ _ rest hqueue =>
    rw [hqueue, List.length_cons] at hs
    have hrest : rest.length ≤ capacity := by omega
    unfold Mailbox.take
    dsimp only
    split_ifs
    · exact Nat.zero_le _
    · exact hrest
  | fails => exact Nat.zero_le _
  | refuses | givesUp => exact hs

/-- A call waits for no more messages than the mailbox holds. -/
theorem told_of_run (h : Run (mailboxStep capacity serve ends) (.start start) before s)
    (hwaiting : s.fates call = some .waiting)
    (hrun : Run (mailboxStep capacity serve ends) s actions t)
    (htakes : capacity ≤ (actions.filter MailboxAction.takes).length) : t.Told call := by
  have hs := linearised_of_run h
  have hcapacity := length_queue_le h
  have htells := hs.fates call
  rw [hwaiting] at htells
  obtain ⟨entry, hentry, hcall⟩ := List.mem_map.mp htells
  obtain ⟨front, back, hqueue⟩ := List.append_of_mem hentry
  refine hs.told_of_near hrun ⟨front, entry, back, hqueue, hcall, ?_⟩
  rw [hqueue, List.length_append, List.length_cons] at hcapacity
  omega

/-- A mailbox with the messages of the first calls. -/
theorem exists_run_of_sends (server : State) (message : Message) {n : ℕ} (hn : n ≤ capacity) :
    ∃ s, Run (mailboxStep capacity serve ends)
        (.start server : Mailbox State Message Work Reply)
        ((List.range n).map fun call ↦ .send call message) s ∧
      s.isOpen = true ∧ s.queue = (List.range n).map (fun call ↦ ⟨call, message⟩) ∧
      ∀ call, s.fates call = if call < n then some .waiting else none := by
  induction n with
  | zero => exact ⟨_, .nil _, rfl, rfl, fun _ ↦ rfl⟩
  | succ n ih =>
    obtain ⟨s, hrun, hopen, hqueue, hfates⟩ := ih (Nat.le_of_succ_le hn)
    have hroom : s.queue.length < capacity := by
      rw [hqueue, List.length_map, List.length_range]
      exact hn
    let t : Mailbox State Message Work Reply :=
      { s with
        queue := s.queue ++ [⟨n, message⟩]
        accepted := s.accepted ++ [⟨n, message⟩]
        fates := Function.update s.fates n (some .waiting) }
    have hstep : mailboxStep capacity serve ends s (.send n message) = some t := by
      have hnew : s.fates n = none := (hfates n).trans (if_neg (Nat.lt_irrefl n))
      simp only [mailboxStep, hnew, hopen, hroom, decide_true, Bool.and_self, if_true, t]
    refine ⟨t, ?_, hopen, ?_, fun call ↦ ?_⟩
    · rw [List.range_succ, List.map_append]
      exact hrun.append (.cons trivial hstep (.nil t))
    · rw [List.range_succ, List.map_append, ← hqueue]
      rfl
    · dsimp only [t]
      by_cases hcall : call = n
      · subst hcall
        rw [Function.update_self, if_pos (Nat.lt_succ_self _)]
      · rw [Function.update_of_ne hcall, hfates]
        exact if_congr (by omega) rfl rfl

/-- While the server takes the messages of others, a call waits on. -/
theorem exists_run_of_takes {message : Message} (hends : ends message = false) (work : Work)
    {others : List ℕ} {s : Mailbox State Message Work Reply} (hcall : call ∉ others)
    (hqueue : s.queue = (others ++ [call]).map fun call ↦ ⟨call, message⟩) :
    ∃ t, Run (mailboxStep capacity serve ends) s (List.replicate others.length (.work work)) t ∧
      t.fates call = s.fates call := by
  induction others generalizing s with
  | nil => exact ⟨s, .nil s, rfl⟩
  | cons other others ih =>
    obtain ⟨hne, hothers⟩ := not_or.mp (mt List.mem_cons.mpr hcall)
    have hstep : mailboxStep capacity serve ends s (.work work) =
        some (s.take serve ends work ⟨other, message⟩
          ((others ++ [call]).map fun call ↦ ⟨call, message⟩)) := by
      simp only [mailboxStep, hqueue]
      rfl
    obtain ⟨t, hrun, hfate⟩ := ih (s := s.take serve ends work ⟨other, message⟩
      ((others ++ [call]).map fun call ↦ ⟨call, message⟩)) hothers (by simp [Mailbox.take, hends])
    refine ⟨t, .cons trivial hstep hrun, hfate.trans ?_⟩
    simp [Mailbox.take, hends, Mailbox.settle, Function.update_of_ne hne]

/-- A call may wait for as many messages as there are before its own in a full mailbox. -/
theorem exists_waiting {k : ℕ} (hk : k < capacity) (server : State) {message : Message}
    (hends : ends message = false) (work : Work) :
    ∃ (before actions : List (MailboxAction Message Work)) (s t : Mailbox State Message Work Reply),
      Run (mailboxStep capacity serve ends) (.start server) before s ∧
      s.fates k = some .waiting ∧ Run (mailboxStep capacity serve ends) s actions t ∧
      (actions.filter MailboxAction.takes).length = k ∧ t.fates k = some .waiting := by
  have hsends : ∃ s, Run (mailboxStep capacity serve ends) (.start server)
      ((List.range (k + 1)).map fun call ↦ .send call message) s ∧
      s.isOpen = true ∧ s.queue = (List.range (k + 1)).map (fun call ↦ ⟨call, message⟩) ∧
      ∀ call, s.fates call = if call < k + 1 then some .waiting else none :=
    exists_run_of_sends server message hk
  obtain ⟨s, hbefore, -, hqueue, hfates⟩ := hsends
  have hwaiting : s.fates k = some .waiting := (hfates k).trans (if_pos (Nat.lt_succ_self k))
  rw [List.range_succ] at hqueue
  have htakes : ∃ t, Run (mailboxStep capacity serve ends) s
      (List.replicate (List.range k).length (.work work)) t ∧ t.fates k = s.fates k :=
    exists_run_of_takes hends work List.not_mem_range_self hqueue
  obtain ⟨t, hrun, hfate⟩ := htakes
  refine ⟨_, _, s, t, hbefore, hwaiting, hrun, ?_, hfate.trans hwaiting⟩
  rw [List.length_range, List.filter_eq_self.mpr, List.length_replicate]
  intro action haction
  rw [List.eq_of_mem_replicate haction]
  rfl

end Waiting

end MaRuntime.Mailboxes
