import MaRuntime.Library.Pools
import MaRuntime.Library.Runs
import MaRuntime.Outbox.Backoff

/-!
# The opening of outboxes

Replies and envelopes for other runtimes are delivered by tasks that run beside each other, and each
of them opens an outbox: it asks whether the outbox is blocked, connects to the endpoint of the
cached document, and when that fails, resolves the document anew and connects once more. A
connection that was made ends the backoff of all outboxes of the DID, and one that failed at last
marks its outbox; a document that cannot be resolved does neither.

Between any two of these calls other tasks take theirs (`connectionStep`). The cache is always the
one that some sequence of marks and clears leads to, in which each mark stands for one connection
that failed at last and each clear for one that was made or for a contact of the peer
(`Accounted`). So an outbox is blocked only by connections to it that failed
(`backoff_of_failed_connections`).

Main definitions: `Opening`, `Opening.step`, `connectionStep`, `Accounted`.
Main results: `accounted_run`, `backoff_of_failed_connections`.

Scope. Resolving and connecting are code of other crates: what they come to is part of an action,
and a timeout is a failure. The parsing of the sender of a message as a DID and the endpoint of a
document for a protocol are parameters.
-/

set_option autoImplicit false
set_option relaxedAutoImplicit false

namespace MaRuntime.Outbox

open Clock Escalation Runs Pools

/-! ### One opening -/

/-- Where a call of `actoutbox_for_did` stands: before it asks whether the outbox is blocked;
before the cached document is resolved; before it connects to an endpoint of that document; before
the document is resolved anew; before it connects to an endpoint of the new one; before the DID is
cleared; before the outbox is marked; with an outbox, or with an error. -/
inductive OpenPhase
  | checks
  | resolvesCached
  | connectsCached (endpoint : String)
  | resolves
  | connects (endpoint : String)
  | clears
  | marks
  | opened
  | refused
deriving DecidableEq

structure Opening where
  targetBase : String
  protocol : String
  phase : OpenPhase
deriving DecidableEq

namespace Opening

def key (o : Opening) : OutboxKey := (o.targetBase, o.protocol)

end Opening

/-- What an opening does next, with what it gets: the time, a document, whether it was connected. -/
inductive OpenAction (Document : Type)
  | unreachableFor (now : Instant)
  | resolved (document : Option Document)
  | connected (success : Bool)
  | clearUnreachable
  | markUnreachable (now : Instant)

variable {Document : Type} (endpointFor : Document → String → Option String)

/-- The next phase of an opening. -/
def Opening.step (cache : OutboxCache) (o : Opening) (action : OpenAction Document) :
    Option OpenPhase :=
  match o.phase, action with
  | .checks, .unreachableFor now =>
    match cache.unreachableFor o.targetBase o.protocol now with
    | some _ => some .refused
    | none => some .resolvesCached
  | .resolvesCached, .resolved document =>
    match document.bind (endpointFor · o.protocol) with
    | some endpoint => some (.connectsCached endpoint)
    | none => some .resolves
  | .connectsCached _, .connected success => some (if success then .clears else .resolves)
  | .resolves, .resolved document =>
    match document.bind (endpointFor · o.protocol) with
    | some endpoint => some (.connects endpoint)
    | none => some .refused
  | .connects _, .connected success => some (if success then .clears else .marks)
  | .clears, .clearUnreachable => some .opened
  | .marks, .markUnreachable _ => some .refused
  | _, _ => none

/-- The call of the cache in which an action of an opening consists, if it changes the cache. -/
def Opening.call (o : Opening) : OpenAction Document → Option Call
  | .clearUnreachable => some (.clearUnreachable o.targetBase)
  | .markUnreachable now => some (.markUnreachable o.targetBase o.protocol now)
  | .unreachableFor _ | .resolved _ | .connected _ => none

/-! ### The openings of a runtime -/

/-- The cache and the openings. For the properties only: the calls that changed the cache, the
outboxes whose last connection failed, and the DIDs that were connected to or that made contact. -/
structure ConnectionState where
  cache : OutboxCache
  openings : List Opening
  calls : List Call
  failed : List OutboxKey
  reached : List String

def ConnectionState.new (attempts : UInt64) : ConnectionState := ⟨.new attempts, [], [], [], []⟩

/-- A task that opens an outbox, an action of one of them, a message that comes in, and a change of
the setting. -/
inductive ConnectionAction (Document : Type)
  | opens (targetBase protocol : String)
  | acts (i : ℕ) (action : OpenAction Document)
  | contact (sender : String)
  | setBackoffAttempts (attempts : UInt64)

/-- The connections that failed at last, with an action of an opening. -/
def Opening.fails (o : Opening) : OpenAction Document → List OutboxKey
  | .connected false => match o.phase with
    | .connects _ => [o.key]
    | _ => []
  | _ => []

/-- The DIDs that were reached, with an action of an opening. -/
def Opening.reaches (o : Opening) : OpenAction Document → List String
  | .connected true => [o.targetBase]
  | _ => []

/-- One step of an interleaving of the openings with contacts and changes of the setting. -/
def connectionStep (baseId : String → Option String) (s : ConnectionState) :
    ConnectionAction Document → Option ConnectionState
  | .opens targetBase protocol =>
    some { s with openings := s.openings ++ [⟨targetBase, protocol, .checks⟩] }
  | .acts i action =>
    match s.openings[i]? with
    | none => none
    | some o => (o.step endpointFor s.cache action).map fun phase ↦ { s with
        cache := run s.cache (o.call action).toList
        openings := advance s.openings i { o with phase }
        calls := s.calls ++ (o.call action).toList
        failed := s.failed ++ o.fails action
        reached := s.reached ++ o.reaches action }
  | .contact sender => some { s with
      cache := s.cache.recordInboundContact baseId sender
      calls := s.calls ++ (baseId sender).toList.map .clearUnreachable
      reached := s.reached ++ (baseId sender).toList }
  | .setBackoffAttempts attempts => some { s with
      cache := s.cache.setBackoffAttempts attempts
      calls := s.calls ++ [.setBackoffAttempts attempts] }

/-! ### The accounts -/

/-- The calls that mark an outbox. -/
def marksOf (calls : List Call) (key : OutboxKey) : ℕ :=
  calls.countP fun
    | .markUnreachable did protocol _ => (did, protocol) = key
    | _ => false

/-- The calls that clear a DID. -/
def clearsOf (calls : List Call) (did : String) : ℕ :=
  calls.countP fun
    | .clearUnreachable other => other = did
    | _ => false

/-- The openings that are about to mark an outbox. -/
def marking (openings : List Opening) (key : OutboxKey) : ℕ :=
  openings.countP fun o ↦ o.phase = .marks ∧ o.key = key

/-- The openings that are about to clear a DID. -/
def clearing (openings : List Opening) (did : String) : ℕ :=
  openings.countP fun o ↦ o.phase = .clears ∧ o.targetBase = did

/-- The cache is the one the calls lead to, every connection that failed at last has marked its
outbox or is about to, and every one that was made and every contact has cleared the DID or is
about to. -/
structure Accounted (attempts : UInt64) (s : ConnectionState) : Prop where
  cache : s.cache = run (.new attempts) s.calls
  marks : ∀ key, marksOf s.calls key + marking s.openings key = s.failed.count key
  clears : ∀ did, clearsOf s.calls did + clearing s.openings did = s.reached.count did

/-! ### One action -/

/-- What an action of an opening does. -/
inductive OpenMove (o : Opening) : OpenAction Document → OpenPhase → Prop
  | suppress (now : Instant) (h : o.phase = .checks) : OpenMove o (.unreachableFor now) .refused
  | proceed (now : Instant) (h : o.phase = .checks) :
    OpenMove o (.unreachableFor now) .resolvesCached
  | useCached (document : Option Document) (endpoint : String) (h : o.phase = .resolvesCached) :
    OpenMove o (.resolved document) (.connectsCached endpoint)
  | missCached (document : Option Document) (h : o.phase = .resolvesCached) :
    OpenMove o (.resolved document) .resolves
  | use (document : Option Document) (endpoint : String) (h : o.phase = .resolves) :
    OpenMove o (.resolved document) (.connects endpoint)
  | miss (document : Option Document) (h : o.phase = .resolves) :
    OpenMove o (.resolved document) .refused
  | connectCached (endpoint : String) (h : o.phase = .connectsCached endpoint) :
    OpenMove o (.connected true) .clears
  | fallBack (endpoint : String) (h : o.phase = .connectsCached endpoint) :
    OpenMove o (.connected false) .resolves
  | connect (endpoint : String) (h : o.phase = .connects endpoint) :
    OpenMove o (.connected true) .clears
  | fail (endpoint : String) (h : o.phase = .connects endpoint) :
    OpenMove o (.connected false) .marks
  | clear (h : o.phase = .clears) : OpenMove o .clearUnreachable .opened
  | mark (now : Instant) (h : o.phase = .marks) : OpenMove o (.markUnreachable now) .refused

section Balance

variable {endpointFor} {cache : OutboxCache} {o : Opening} {action : OpenAction Document}
  {phase : OpenPhase}

theorem openMove_of_step (h : o.step endpointFor cache action = some phase) :
    OpenMove o action phase := by
  unfold Opening.step at h
  split at h
  case h_1 now hphase =>
    split at h
    all_goals obtain rfl := Option.some.inj h
    · exact .suppress now hphase
    · exact .proceed now hphase
  case h_2 document hphase =>
    split at h
    all_goals obtain rfl := Option.some.inj h
    · exact .useCached document _ hphase
    · exact .missCached document hphase
  case h_3 endpoint success hphase =>
    obtain rfl := Option.some.inj h
    cases success with
    | true => exact .connectCached endpoint hphase
    | false => exact .fallBack endpoint hphase
  case h_4 document hphase =>
    split at h
    all_goals obtain rfl := Option.some.inj h
    · exact .use document _ hphase
    · exact .miss document hphase
  case h_5 endpoint success hphase =>
    obtain rfl := Option.some.inj h
    cases success with
    | true => exact .connect endpoint hphase
    | false => exact .fail endpoint hphase
  case h_6 hphase =>
    obtain rfl := Option.some.inj h
    exact .clear hphase
  case h_7 now hphase =>
    obtain rfl := Option.some.inj h
    exact .mark now hphase
  case h_8 => cases h

/-- A mark is made by an opening that is about to, and one is about to when its last connection has
failed. -/
theorem marks_of_move (key : OutboxKey) (h : OpenMove o action phase) :
    marksOf (o.call action).toList key + marking [{ o with phase }] key =
      (o.fails action).count key + marking [o] key := by
  cases h with
  | fail endpoint hphase =>
    simp [marksOf, marking, Opening.call, Opening.fails, Opening.key, hphase, List.count_singleton]
  | mark now hphase => simp [marksOf, marking, Opening.call, Opening.fails, hphase, Opening.key]
  | clear hphase => simp [marksOf, marking, Opening.call, Opening.fails, hphase]
  | connectCached endpoint hphase | connect endpoint hphase | fallBack endpoint hphase =>
    simp [marksOf, marking, Opening.call, Opening.fails, hphase]
  | suppress now hphase | proceed now hphase | useCached document endpoint hphase
  | missCached document hphase | use document endpoint hphase | miss document hphase =>
    simp [marksOf, marking, Opening.call, Opening.fails, hphase]

/-- A clear is made by an opening that is about to, and one is about to when it is connected. -/
theorem clears_of_move (did : String) (h : OpenMove o action phase) :
    clearsOf (o.call action).toList did + clearing [{ o with phase }] did =
      (o.reaches action).count did + clearing [o] did := by
  cases h with
  | connectCached endpoint hphase | connect endpoint hphase =>
    simp [clearsOf, clearing, Opening.call, Opening.reaches, hphase, List.count_singleton]
  | clear hphase => simp [clearsOf, clearing, Opening.call, Opening.reaches, hphase]
  | fail endpoint hphase | fallBack endpoint hphase =>
    simp [clearsOf, clearing, Opening.call, Opening.reaches, hphase]
  | mark now hphase | suppress now hphase | proceed now hphase
  | useCached document endpoint hphase | missCached document hphase
  | use document endpoint hphase | miss document hphase =>
    simp [clearsOf, clearing, Opening.call, Opening.reaches, hphase]

end Balance

/-! ### Runs -/

section Runs

variable {endpointFor} {baseId : String → Option String} {attempts : UInt64}
  {s t : ConnectionState} {action : ConnectionAction Document}
  {actions : List (ConnectionAction Document)}

theorem marksOf_append (calls more : List Call) (key : OutboxKey) :
    marksOf (calls ++ more) key = marksOf calls key + marksOf more key :=
  List.countP_append

theorem clearsOf_append (calls more : List Call) (did : String) :
    clearsOf (calls ++ more) did = clearsOf calls did + clearsOf more did :=
  List.countP_append

theorem run_append (cache : OutboxCache) (calls more : List Call) :
    run cache (calls ++ more) = run (run cache calls) more :=
  List.foldl_append

theorem accounted_new (attempts : UInt64) : Accounted attempts (.new attempts) :=
  ⟨rfl, fun _ ↦ rfl, fun _ ↦ rfl⟩

/-- A contact clears the DID of its sender and marks nothing. -/
theorem accounted_contact (hs : Accounted attempts s) (sender : Option String) :
    Accounted attempts { s with
      cache := run s.cache (sender.toList.map .clearUnreachable)
      calls := s.calls ++ sender.toList.map .clearUnreachable
      reached := s.reached ++ sender.toList } := by
  refine ⟨?_, fun key ↦ ?_, fun did ↦ ?_⟩
  · rw [run_append, ← hs.cache]
  · rw [marksOf_append, ← hs.marks key]
    cases sender <;> simp [marksOf]
  · rw [clearsOf_append, List.count_append, ← hs.clears did]
    cases sender with
    | none => simp [clearsOf]
    | some did' =>
      simp only [clearsOf, Option.toList_some, List.map_singleton, List.countP_singleton,
        List.count_singleton, decide_eq_true_eq, beq_iff_eq]
      omega

/-- An action of an opening keeps the accounts. -/
theorem accounted_acts {i : ℕ} {o : Opening} {act : OpenAction Document} {phase : OpenPhase}
    (hs : Accounted attempts s) (hi : s.openings[i]? = some o) (h : OpenMove o act phase) :
    Accounted attempts { s with
      cache := run s.cache (o.call act).toList
      openings := advance s.openings i { o with phase }
      calls := s.calls ++ (o.call act).toList
      failed := s.failed ++ o.fails act
      reached := s.reached ++ o.reaches act } := by
  refine ⟨?_, fun key ↦ ?_, fun did ↦ ?_⟩
  · rw [run_append, ← hs.cache]
  · have hpool := countP_advance (fun o ↦ decide (o.phase = .marks ∧ o.key = key))
      { o with phase } hi
    have hmove := marks_of_move key h
    have hmarks := hs.marks key
    rw [marksOf_append, List.count_append]
    simp only [marking] at hmove hmarks ⊢
    omega
  · have hpool := countP_advance
      (fun o ↦ decide (o.phase = .clears ∧ o.targetBase = did)) { o with phase } hi
    have hmove := clears_of_move did h
    have hclears := hs.clears did
    rw [clearsOf_append, List.count_append]
    simp only [clearing] at hmove hclears ⊢
    omega

theorem accounted_step (hs : Accounted attempts s)
    (h : connectionStep endpointFor baseId s action = some t) : Accounted attempts t := by
  cases action with
  | opens targetBase protocol =>
    obtain rfl := Option.some.inj h
    refine ⟨hs.cache, fun key ↦ ?_, fun did ↦ ?_⟩
    · rw [← hs.marks key]
      simp [marking]
    · rw [← hs.clears did]
      simp [clearing]
  | acts i act =>
    simp only [connectionStep] at h
    split at h
    case h_1 => cases h
    case h_2 o hi =>
      obtain ⟨phase, hphase, rfl⟩ := Option.map_eq_some_iff.mp h
      exact accounted_acts hs hi (openMove_of_step hphase)
  | contact sender =>
    obtain rfl := Option.some.inj h
    rw [recordInboundContact_eq_run]
    exact accounted_contact hs (baseId sender)
  | setBackoffAttempts attempts =>
    obtain rfl := Option.some.inj h
    refine ⟨?_, fun key ↦ ?_, fun did ↦ ?_⟩
    · rw [run_append_singleton, ← hs.cache]
      rfl
    · rw [marksOf_append, ← hs.marks key]
      rfl
    · rw [clearsOf_append, ← hs.clears did]
      rfl

theorem accounted_run (h : Run (connectionStep endpointFor baseId) (.new attempts) actions s) :
    Accounted attempts s :=
  h.invariant (Accounted attempts) (fun _ _ _ hs _ hstep ↦ accounted_step hs hstep)
    (accounted_new attempts)

/-- Marks that count are marks that were made. -/
theorem length_marksSinceClear_le (attempts : UInt64) (calls : List Call) (key : OutboxKey) :
    (marksSinceClear attempts calls key).length ≤ marksOf calls key := by
  induction calls using List.reverseRecOn with
  | nil => exact Nat.zero_le _
  | append_singleton calls call ih =>
    rw [marksSinceClear, history_append_singleton, limitsSince_append, marksOf_append]
    rw [marksSinceClear] at ih
    cases call with
    | markUnreachable did protocol now =>
      by_cases hkey : (did, protocol) = key
      · subst hkey
        have hone : marksOf [.markUnreachable did protocol now] (did, protocol) = 1 := by
          simp [marksOf]
        split_ifs
        · simp only [Call.events, List.foldl_cons, List.foldl_nil, note, if_true,
            List.length_append, List.length_singleton]
          omega
        · exact Nat.le_trans ih (Nat.le_add_right _ _)
      · split_ifs
        · simp only [Call.events, List.foldl_cons, List.foldl_nil, note, if_neg hkey]
          exact Nat.le_trans ih (Nat.le_add_right _ _)
        · exact Nat.le_trans ih (Nat.le_add_right _ _)
    | clearUnreachable did =>
      simp only [Call.returns, if_true, Call.events, List.foldl_cons, List.foldl_nil, note]
      split_ifs
      · exact Nat.zero_le _
      · exact Nat.le_trans ih (Nat.le_add_right _ _)
    | setBackoffAttempts attempts =>
      simp only [Call.returns, if_true, Call.events, List.foldl_nil]
      exact Nat.le_trans ih (Nat.le_add_right _ _)

/-- In whatever order openings, contacts and changes of the setting interleave, the calls of the
cache are accounted for, and an outbox that was marked is at a step of its backoff that is at most
the number of its marks since its DID was last cleared, which in turn is at most the number of
connections to it that failed at last. -/
theorem backoff_of_failed_connections
    (h : Run (connectionStep endpointFor baseId) (.new attempts) actions s) :
    Accounted attempts s ∧
      ∀ key backoff, s.cache.unreachable.get key = some backoff →
        ∃ step, 0 < step ∧ backoff.progress = delaysAt step ∧
          step ≤ (marksSinceClear attempts s.calls key).length ∧
          (marksSinceClear attempts s.calls key).length ≤ s.failed.count key := by
  have haccounts := accounted_run h
  refine ⟨haccounts, fun key backoff hbackoff ↦ ?_⟩
  have hprogress := progress_run attempts s.calls key
  rw [← haccounts.cache, hbackoff] at hprogress
  obtain ⟨step, hstep, hdelays⟩ := Option.map_eq_some_iff.mp hprogress.symm
  refine ⟨step, pos_of_levelAfter hstep, hdelays.symm, le_length_of_levelAfter hstep, ?_⟩
  calc (marksSinceClear attempts s.calls key).length
      ≤ marksOf s.calls key := length_marksSinceClear_le attempts s.calls key
    _ ≤ marksOf s.calls key + marking s.openings key := Nat.le_add_right _ _
    _ = s.failed.count key := haccounts.marks key

end Runs

/-- A connection that fails at last. -/
def failedOpening : List (ConnectionAction Unit) :=
  [.opens "did:ma:peer" "/ma/inbox/0.0.1", .acts 0 (.unreachableFor .origin),
    .acts 0 (.resolved none), .acts 0 (.resolved (some ())), .acts 0 (.connected false),
    .acts 0 (.markUnreachable .origin)]

theorem backoff_of_failedOpening :
    ∃ s, Run (connectionStep (fun _ _ ↦ some "endpoint") some) (.new 30) failedOpening s ∧
      Accounted 30 s ∧
      ∀ key backoff, s.cache.unreachable.get key = some backoff →
        ∃ step, 0 < step ∧ backoff.progress = delaysAt step ∧
          step ≤ (marksSinceClear 30 s.calls key).length ∧
          (marksSinceClear 30 s.calls key).length ≤ s.failed.count key := by
  obtain ⟨s, hs⟩ := Option.isSome_iff_exists.mp (by decide +kernel :
    (execute (connectionStep (fun _ _ ↦ some "endpoint") some) (.new 30)
      failedOpening).isSome = true)
  exact ⟨s, run_of_execute hs, backoff_of_failed_connections (run_of_execute hs)⟩

end MaRuntime.Outbox
