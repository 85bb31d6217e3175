import Mathlib.Data.Nat.Fib.Basic
import MaRuntime.Library.Clock
import MaRuntime.Library.Escalation
import MaRuntime.Library.KeyedMap

/-!
# The backoff of unreachable outboxes

The outbox of a DID for a protocol that could not be reached is blocked for a while. The delay is
derived from the two delays before it and grows in Fibonacci steps, one step with each mark as far
as the limit of the moment allows: a step that is reached is kept when the limit is lowered, and a
raised limit lets the steps go on from where they are (`delays_follow_steps`). With an unchanged
limit the step is the number of marks or the limit, whichever is less. The marks of other outboxes
do not matter, and a contact of the peer ends the backoff of all its outboxes.

Main definitions: `OutboxCache`, `OutboxCache.markUnreachable`, `run`, `history`.
Main results: `progress_run`, `delays_follow_steps`.

Scope. The clock is read once for a mark, at any instant. A mark panics where the clock has no
instant that is the delay later; nothing is stored then and the lock is released, so the cache goes
on as it was. The parsing of the sender of a message as a DID is a parameter.
-/

set_option autoImplicit false
set_option relaxedAutoImplicit false

namespace MaRuntime.Outbox

open Clock Escalation

/-! ### The cache -/

/-- A DID and a protocol. -/
abbrev OutboxKey := String × String

/-- `OUTBOX_BACKOFF_INITIAL`. -/
def outboxBackoffInitial : Duration := .ofSecs 1

structure UnreachableOutbox where
  retryAt : Instant
  previousDelay : Duration
  currentDelay : Duration
  attempts : UInt64
deriving DecidableEq

structure OutboxCache where
  unreachable : KeyedMap OutboxKey UnreachableOutbox
  backoffAttempts : UInt64
deriving DecidableEq

namespace OutboxCache

def new (backoffAttempts : UInt64) : OutboxCache := ⟨.empty, max backoffAttempts 1⟩

def setBackoffAttempts (cache : OutboxCache) (attempts : UInt64) : OutboxCache :=
  { cache with backoffAttempts := max attempts 1 }

def unreachableFor (cache : OutboxCache) (did protocol : String) (now : Instant) :
    Option Duration :=
  match cache.unreachable.get (did, protocol) with
  | some backoff =>
    if backoff.retryAt.nanos > now.nanos then some (backoff.retryAt.durationSince now) else none
  | none => none

/-- The limit that `mark_unreachable` loads. -/
def maxAttempts (cache : OutboxCache) : UInt64 := max cache.backoffAttempts 1

/-- The previous delay, the current delay and the attempts that `mark_unreachable` stores. -/
def nextBackoff (maxAttempts : UInt64) : Option UnreachableOutbox → Duration × Duration × UInt64
  | none => (.zero, outboxBackoffInitial, 1)
  | some backoff =>
    if backoff.attempts ≥ maxAttempts then
      (backoff.previousDelay, backoff.currentDelay, backoff.attempts)
    else
      (backoff.currentDelay, backoff.previousDelay.saturatingAdd backoff.currentDelay,
        backoff.attempts + 1)

/-- `mark_unreachable`, with the delay it returns. It panics where `now + current_delay` does. -/
def markUnreachable (cache : OutboxCache) (did protocol : String) (now : Instant) :
    Option (Duration × OutboxCache) :=
  let key := (did, protocol)
  let (previousDelay, currentDelay, attempts) :=
    nextBackoff cache.maxAttempts (cache.unreachable.get key)
  (now.checkedAdd currentDelay).map fun retryAt ↦
    (currentDelay, { cache with
      unreachable :=
        cache.unreachable.insert key { retryAt, previousDelay, currentDelay, attempts } })

def clearUnreachable (cache : OutboxCache) (did : String) : OutboxCache :=
  { cache with unreachable := cache.unreachable.retain fun key ↦ key.1 != did }

/-- `record_inbound_contact`; a sender that is no DID has no base. -/
def recordInboundContact (baseId : String → Option String) (cache : OutboxCache)
    (sender : String) : OutboxCache :=
  match baseId sender with
  | some did => cache.clearUnreachable did
  | none => cache

end OutboxCache

/-! ### Sequences of calls -/

inductive Call
  | markUnreachable (did protocol : String) (now : Instant)
  | clearUnreachable (did : String)
  | setBackoffAttempts (attempts : UInt64)

namespace Call

/-- Whether a call returns. -/
def returns (cache : OutboxCache) : Call → Bool
  | .markUnreachable did protocol now => (cache.markUnreachable did protocol now).isSome
  | .clearUnreachable _ | .setBackoffAttempts _ => true

/-- The cache after a call. -/
def apply (cache : OutboxCache) : Call → OutboxCache
  | .markUnreachable did protocol now =>
    match cache.markUnreachable did protocol now with
    | some (_, after) => after
    | none => cache
  | .clearUnreachable did => cache.clearUnreachable did
  | .setBackoffAttempts attempts => cache.setBackoffAttempts attempts

/-- What a call does to the steps of the outboxes, when a limit is in force. -/
def events (limit : UInt64) : Call → List (Event OutboxKey String)
  | .markUnreachable did protocol _ => [.raised (did, protocol) limit.toNat]
  | .clearUnreachable did => [.reset did]
  | .setBackoffAttempts _ => []

/-- The limit that is in force after a call. -/
def limitAfter (limit : UInt64) : Call → UInt64
  | .setBackoffAttempts attempts => max attempts 1
  | .markUnreachable _ _ _ | .clearUnreachable _ => limit

/-- Whether a call is one about an outbox. -/
def concerns (key : OutboxKey) : Call → Prop
  | .markUnreachable did protocol _ => (did, protocol) = key
  | .clearUnreachable did => did = key.1
  | .setBackoffAttempts _ => False

end Call

/-- The cache after some calls. -/
def run (cache : OutboxCache) (calls : List Call) : OutboxCache := calls.foldl Call.apply cache

/-- The marks that return, each with the limit in force, and the clears. -/
def history (cache : OutboxCache) : List Call → List (Event OutboxKey String)
  | [] => []
  | call :: rest =>
    (if call.returns cache then call.events cache.maxAttempts else []) ++
      history (call.apply cache) rest

/-- The limit that is in force after some calls. -/
def limitInForce (attempts : UInt64) (calls : List Call) : UInt64 :=
  calls.foldl Call.limitAfter (max attempts 1)

/-- The limits at the marks of an outbox that returned since its DID was cleared. -/
def marksSinceClear (attempts : UInt64) (calls : List Call) (key : OutboxKey) : List Nat :=
  limitsSince Prod.fst key (history (.new attempts) calls)

@[simp] theorem run_append_singleton (cache : OutboxCache) (calls : List Call) (call : Call) :
    run cache (calls ++ [call]) = call.apply (run cache calls) :=
  List.foldl_concat _ _ _ _

theorem history_append_singleton (cache : OutboxCache) (calls : List Call) (call : Call) :
    history cache (calls ++ [call]) = history cache calls ++
      if call.returns (run cache calls) then call.events (run cache calls).maxAttempts else [] := by
  induction calls generalizing cache with
  | nil => exact List.append_nil _
  | cons first rest ih =>
    rw [List.cons_append, history, ih, history, List.append_assoc]
    rfl

/-! ### The limit in force -/

theorem toNat_max (a b : UInt64) : (max a b).toNat = max a.toNat b.toNat := by
  have hmax : max a b = if a ≤ b then b else a := rfl
  rw [hmax, Nat.max_def]
  simp only [UInt64.le_iff_toNat_le]
  split_ifs with hle
  · rfl
  · rfl

/-- A mark leaves the cache, or stores an entry of its outbox. -/
theorem apply_markUnreachable (cache : OutboxCache) (did protocol : String) (now : Instant) :
    Call.apply cache (.markUnreachable did protocol now) = cache ∨
      ∃ backoff, Call.apply cache (.markUnreachable did protocol now) =
        { cache with unreachable := cache.unreachable.insert (did, protocol) backoff } := by
  simp only [Call.apply]
  cases hmark : cache.markUnreachable did protocol now with
  | none => exact .inl rfl
  | some result =>
    obtain ⟨retryAt, -, rfl⟩ := Option.map_eq_some_iff.mp hmark
    exact .inr ⟨_, rfl⟩

theorem backoffAttempts_apply (cache : OutboxCache) (call : Call) :
    (call.apply cache).backoffAttempts = call.limitAfter cache.backoffAttempts := by
  cases call with
  | markUnreachable did protocol now =>
    rcases apply_markUnreachable cache did protocol now with hsame | ⟨backoff, hstored⟩
    · rw [hsame]
      rfl
    · rw [hstored]
      rfl
  | clearUnreachable did => rfl
  | setBackoffAttempts attempts => rfl

theorem backoffAttempts_run (attempts : UInt64) (calls : List Call) :
    (run (.new attempts) calls).backoffAttempts = limitInForce attempts calls := by
  induction calls using List.reverseRecOn with
  | nil => rfl
  | append_singleton calls call ih =>
    rw [run_append_singleton, backoffAttempts_apply, ih, limitInForce, limitInForce,
      List.foldl_concat]

theorem one_le_limitInForce (attempts : UInt64) (calls : List Call) :
    1 ≤ (limitInForce attempts calls).toNat := by
  have hmax (limit : UInt64) : 1 ≤ (max limit 1).toNat := by
    rw [toNat_max]
    exact le_max_right _ _
  induction calls using List.reverseRecOn with
  | nil => exact hmax attempts
  | append_singleton calls call ih =>
    rw [limitInForce, List.foldl_concat]
    cases call with
    | markUnreachable did protocol now => exact ih
    | clearUnreachable did => exact ih
    | setBackoffAttempts next => exact hmax next

/-- The limit that a mark loads is the last one that was set. -/
theorem maxAttempts_run (attempts : UInt64) (calls : List Call) :
    (run (.new attempts) calls).maxAttempts = limitInForce attempts calls := by
  rw [OutboxCache.maxAttempts, backoffAttempts_run]
  refine UInt64.toNat_inj.mp ?_
  rw [toNat_max]
  exact max_eq_left (one_le_limitInForce attempts calls)

/-! ### What a mark and a clear do -/

section Operations

variable {cache after : OutboxCache} {did protocol : String} {now : Instant} {delay : Duration}

open OutboxCache

theorem markUnreachable_eq_some_iff :
    cache.markUnreachable did protocol now = some (delay, after) ↔
      ∃ previousDelay attempts retryAt,
        nextBackoff cache.maxAttempts (cache.unreachable.get (did, protocol)) =
          (previousDelay, delay, attempts) ∧
        now.checkedAdd delay = some retryAt ∧
        after = { cache with
          unreachable := cache.unreachable.insert (did, protocol)
            { retryAt, previousDelay, currentDelay := delay, attempts } } := by
  rcases hnext : nextBackoff cache.maxAttempts (cache.unreachable.get (did, protocol)) with
    ⟨previousDelay, currentDelay, attempts⟩
  simp only [markUnreachable, hnext, Option.map_eq_some_iff, Prod.mk.injEq]
  constructor
  · rintro ⟨retryAt, hretry, rfl, rfl⟩
    exact ⟨_, _, retryAt, ⟨rfl, rfl, rfl⟩, hretry, rfl⟩
  · rintro ⟨_, _, retryAt, ⟨rfl, rfl, rfl⟩, hretry, rfl⟩
    exact ⟨retryAt, hretry, rfl, rfl⟩

theorem get_clearUnreachable (cache : OutboxCache) (did : String) (key : OutboxKey) :
    (cache.clearUnreachable did).unreachable.get key =
      if key.1 = did then none else cache.unreachable.get key := by
  rw [clearUnreachable, KeyedMap.get_retain]
  by_cases hdid : key.1 = did
  · simp [hdid]
  · simp [hdid]

/-- A contact clears the DID of its sender, if that is one. -/
theorem recordInboundContact_eq_run (baseId : String → Option String) (cache : OutboxCache)
    (sender : String) :
    recordInboundContact baseId cache sender =
      run cache ((baseId sender).toList.map Call.clearUnreachable) := by
  unfold recordInboundContact
  cases baseId sender with
  | none => rfl
  | some did => rfl

end Operations

/-! ### The steps -/

/-- What an entry says about the steps: the delays and how many there were. -/
def UnreachableOutbox.progress (backoff : UnreachableOutbox) : Duration × Duration × Nat :=
  (backoff.previousDelay, backoff.currentDelay, backoff.attempts.toNat)

/-- The delays at a step: the Fibonacci number before it, and its own. -/
def delaysAt (step : Nat) : Duration × Duration × Nat :=
  (.ofSecs (Nat.fib (step - 1)), .ofSecs (Nat.fib step), step)

theorem delaysAt_one : delaysAt 1 = (.zero, outboxBackoffInitial, 1) := by
  decide

theorem delaysAt_succ {step : Nat} (h : 0 < step) :
    delaysAt (step + 1) =
      ((delaysAt step).2.1, (delaysAt step).1.saturatingAdd (delaysAt step).2.1, step + 1) := by
  obtain ⟨before, rfl⟩ := Nat.exists_eq_add_one.mpr h
  simp only [delaysAt, Nat.add_sub_cancel, Duration.saturatingAdd_ofSecs]
  rw [Nat.fib_add_two]

/-- A mark takes the step that a raise under its limit takes. -/
theorem nextBackoff_eq {limit attempts : UInt64} {entry : Option UnreachableOutbox}
    {limits : List Nat} {previousDelay currentDelay : Duration}
    (hentry : entry.map UnreachableOutbox.progress = (levelAfter limits).map delaysAt)
    (hnext : OutboxCache.nextBackoff limit entry = (previousDelay, currentDelay, attempts)) :
    (previousDelay, currentDelay, attempts.toNat) =
      delaysAt (raise limit.toNat (levelAfter limits)) := by
  cases entry with
  | none =>
    rw [Option.map_none, eq_comm, Option.map_eq_none_iff] at hentry
    cases hnext
    rw [hentry]
    exact delaysAt_one.symm
  | some backoff =>
    obtain ⟨step, hstep, hprogress⟩ := Option.map_eq_some_iff.mp hentry.symm
    have hpos := pos_of_levelAfter hstep
    have hattempts : backoff.attempts.toNat = step := congrArg (·.2.2) hprogress.symm
    simp only [OutboxCache.nextBackoff, ge_iff_le, UInt64.le_iff_toNat_le, hattempts] at hnext
    simp only [hstep, raise]
    split_ifs at hnext ⊢ with hreached
    · cases hnext
      exact hprogress.symm
    · cases hnext
      have hfits : (backoff.attempts + 1).toNat = step + 1 := by
        have hlimit := limit.toNat_lt
        rw [UInt64.toNat_add, hattempts]
        exact Nat.mod_eq_of_lt (by simp only [UInt64.toNat_one]; omega)
      rw [delaysAt_succ hpos, hfits, hprogress]
      rfl

/-- What a call leaves of the entry of an outbox. -/
theorem get_apply (cache : OutboxCache) (call : Call) (key : OutboxKey) (limits : List Nat)
    (hentry : (cache.unreachable.get key).map UnreachableOutbox.progress =
      (levelAfter limits).map delaysAt) :
    (((call.apply cache).unreachable.get key).map UnreachableOutbox.progress) =
      (levelAfter ((if call.returns cache then call.events cache.maxAttempts else []).foldl
        (note Prod.fst key) limits)).map delaysAt := by
  cases call with
  | markUnreachable did protocol now =>
    cases hmark : cache.markUnreachable did protocol now with
    | none => simpa [Call.apply, Call.returns, hmark] using hentry
    | some result =>
      obtain ⟨delay, after⟩ := result
      obtain ⟨previousDelay, attempts, retryAt, hnext, -, rfl⟩ :=
        markUnreachable_eq_some_iff.mp hmark
      simp only [Call.apply, Call.returns, hmark, Option.isSome_some, if_true, Call.events,
        List.foldl_cons, List.foldl_nil, note]
      by_cases hkey : (did, protocol) = key
      · subst hkey
        rw [KeyedMap.get_insert_self, if_pos rfl, levelAfter_append_singleton]
        exact congrArg some (nextBackoff_eq hentry hnext)
      · rw [KeyedMap.get_insert_of_ne _ _ (Ne.symm hkey), if_neg hkey]
        exact hentry
  | clearUnreachable did =>
    simp only [Call.apply, Call.returns, if_true, Call.events, List.foldl_cons, List.foldl_nil,
      note, get_clearUnreachable]
    by_cases hdid : key.1 = did
    · simp [hdid]
    · simpa [hdid, Ne.symm hdid] using hentry
  | setBackoffAttempts attempts => exact hentry

/-- After any calls, the entry of an outbox says which step its marks have reached. -/
theorem progress_run (attempts : UInt64) (calls : List Call) (key : OutboxKey) :
    ((run (.new attempts) calls).unreachable.get key).map UnreachableOutbox.progress =
      (levelAfter (marksSinceClear attempts calls key)).map delaysAt := by
  induction calls using List.reverseRecOn with
  | nil => rfl
  | append_singleton calls call ih =>
    rw [run_append_singleton, get_apply _ call key _ ih, marksSinceClear, marksSinceClear,
      history_append_singleton, limitsSince_append]

/-! ### The delays -/

/-- An outbox is blocked for exactly a delay from an instant, whenever it is asked. -/
def BlockedFor (cache : OutboxCache) (key : OutboxKey) (now : Instant) (delay : Duration) : Prop :=
  ∀ asked : Instant, (cache.unreachableFor key.1 key.2 asked).map (fun left ↦ (left.nanos : Int)) =
    if asked.nanos < now.nanos + delay.nanos then some (now.nanos + delay.nanos - asked.nanos)
    else none

theorem blockedFor_of_get {cache : OutboxCache} {key : OutboxKey} {now : Instant}
    {delay : Duration} {backoff : UnreachableOutbox}
    (hget : cache.unreachable.get key = some backoff)
    (hretry : now.checkedAdd delay = some backoff.retryAt) : BlockedFor cache key now delay := by
  intro asked
  rw [Instant.checkedAdd_eq_some_iff] at hretry
  simp only [OutboxCache.unreachableFor, hget, hretry, gt_iff_lt]
  split_ifs with hblocked
  · simp only [Instant.durationSince, hretry, Option.map_some, Option.some.injEq]
    omega
  · rfl

/-- What a call leaves of the entry of an outbox that it is not about. -/
theorem get_apply_of_not_concerns {cache : OutboxCache} {call : Call} {key : OutboxKey}
    (h : ¬ call.concerns key) :
    (call.apply cache).unreachable.get key = cache.unreachable.get key := by
  cases call with
  | markUnreachable did protocol now =>
    rcases apply_markUnreachable cache did protocol now with hsame | ⟨backoff, hstored⟩
    · rw [hsame]
    · rw [hstored]
      exact KeyedMap.get_insert_of_ne _ _ (Ne.symm h)
  | clearUnreachable did =>
    refine (get_clearUnreachable cache did key).trans (if_neg ?_)
    exact Ne.symm h
  | setBackoffAttempts attempts => rfl

theorem get_run_of_not_concerns {cache : OutboxCache} {calls : List Call} {key : OutboxKey}
    (h : ∀ call ∈ calls, ¬ call.concerns key) :
    (run cache calls).unreachable.get key = cache.unreachable.get key := by
  induction calls using List.reverseRecOn with
  | nil => rfl
  | append_singleton calls call ih =>
    rw [run_append_singleton, get_apply_of_not_concerns (h call (by simp))]
    exact ih fun other hother ↦ h other (List.mem_append_left _ hother)

/-- A mark takes the next step under the limit in force, and its delay is that of the step. -/
theorem markUnreachable_run {attempts : UInt64} {calls : List Call} {did protocol : String}
    {now : Instant} {delay : Duration} {after : OutboxCache}
    (h : (run (.new attempts) calls).markUnreachable did protocol now = some (delay, after)) :
    delay = .ofSecs (Nat.fib (raise (limitInForce attempts calls).toNat
      (levelAfter (marksSinceClear attempts calls (did, protocol))))) := by
  obtain ⟨previousDelay, stored, retryAt, hnext, -, -⟩ := markUnreachable_eq_some_iff.mp h
  have hprogress := nextBackoff_eq (progress_run attempts calls (did, protocol)) hnext
  rw [maxAttempts_run] at hprogress
  exact congrArg (·.2.1) hprogress

/-- A delay that a clock can be moved on by from its start or later is not cut off. -/
theorem nanos_of_checkedAdd {now retryAt : Instant} {secs : Nat} (hnow : 0 ≤ now.nanos)
    (h : now.checkedAdd (.ofSecs secs) = some retryAt) :
    (Duration.ofSecs secs).nanos = secs * nanosPerSec := by
  have hfits := Instant.isSome_checkedAdd.mp (Option.isSome_of_eq_some h)
  rw [Duration.ofSecs, Duration.nanos_ofNanos] at hfits ⊢
  omega

/-- After any calls, a mark that returns has the delay of the step that the marks of its outbox
since the last clear have reached, each under the limit in force, and blocks the outbox for exactly
that delay. With one limit the step is the number of the marks or the limit. A clear resets all
outboxes of its DID and no other one. -/
theorem delays_follow_steps (attempts : UInt64) (calls : List Call) :
    (∀ did protocol now delay after,
      (run (.new attempts) calls).markUnreachable did protocol now = some (delay, after) →
        let limit := (limitInForce attempts calls).toNat
        let limits := marksSinceClear attempts calls (did, protocol) ++ [limit]
        ∃ step, levelAfter limits = some step ∧ delay = .ofSecs (Nat.fib step) ∧
          (0 ≤ now.nanos → delay.nanos = Nat.fib step * nanosPerSec) ∧
          ((∀ earlier ∈ limits, earlier = limit) → step = min limits.length limit) ∧
          ∀ later, (∀ call ∈ later, ¬ Call.concerns (did, protocol) call) →
            BlockedFor (run after later) (did, protocol) now delay) ∧
      ∀ did key, ((run (.new attempts) calls).clearUnreachable did).unreachable.get key =
        if key.1 = did then none else (run (.new attempts) calls).unreachable.get key := by
  refine ⟨?_, get_clearUnreachable _⟩
  intro did protocol now delay after hmark limit limits
  obtain ⟨previousDelay, stored, retryAt, -, hretry, hafter⟩ := markUnreachable_eq_some_iff.mp hmark
  have hdelay := markUnreachable_run hmark
  refine ⟨_, levelAfter_append_singleton _ _, hdelay, ?_, ?_, ?_⟩
  · intro hnow
    rw [hdelay] at hretry ⊢
    exact nanos_of_checkedAdd hnow hretry
  · intro hsame
    have hlimit : 0 < limit := one_le_limitInForce attempts calls
    have hlevel := levelAfter_of_forall_eq hlimit (by simp [limits]) hsame
    rw [levelAfter_append_singleton] at hlevel
    exact Option.some.inj hlevel
  · intro later hlater
    have hentry : (run after later).unreachable.get (did, protocol) =
        some { retryAt, previousDelay, currentDelay := delay, attempts := stored } := by
      rw [get_run_of_not_concerns hlater, hafter, KeyedMap.get_insert_self]
    exact blockedFor_of_get hentry hretry

/-! ### A limit that is lowered -/

/-- Every delay is the one of the number of the marks or of the limit in force. -/
def ClosedForm (attempts : UInt64) (calls : List Call) : Prop :=
  ∀ did protocol now delay after,
    (run (.new attempts) calls).markUnreachable did protocol now = some (delay, after) →
      delay = .ofSecs (Nat.fib (min ((marksSinceClear attempts calls (did, protocol)).length + 1)
        (limitInForce attempts calls).toNat))

/-- Three marks of an outbox, after which the limit is lowered to one. -/
def loweredLimit : List Call :=
  List.replicate 3 (.markUnreachable "did:ma:peer" "/ma/inbox/0.0.1" .origin) ++
    [.setBackoffAttempts 1]

theorem delays_follow_steps_loweredLimit :
    ∃ after, (run (.new 30) loweredLimit).markUnreachable "did:ma:peer" "/ma/inbox/0.0.1" .origin =
        some (.ofSecs 2, after) ∧
      BlockedFor after ("did:ma:peer", "/ma/inbox/0.0.1") .origin (.ofSecs 2) := by
  obtain ⟨⟨delay, after⟩, hmark⟩ := Option.isSome_iff_exists.mp (by decide +kernel :
    ((run (.new 30) loweredLimit).markUnreachable "did:ma:peer" "/ma/inbox/0.0.1" .origin).isSome =
      true)
  obtain ⟨step, hstep, rfl, -, -, hblocked⟩ :=
    (delays_follow_steps 30 loweredLimit).1 _ _ _ _ _ hmark
  obtain rfl : 3 = step := Option.some.inj (hstep.symm.trans (by decide +kernel)).symm
  exact ⟨after, hmark, hblocked [] (by simp)⟩

/-- The step of the third mark is kept, though the limit is one. -/
theorem not_closedForm_loweredLimit : ¬ ClosedForm 30 loweredLimit := by
  intro h
  obtain ⟨⟨delay, after⟩, hmark⟩ := Option.isSome_iff_exists.mp (by decide +kernel :
    ((run (.new 30) loweredLimit).markUnreachable "did:ma:peer" "/ma/inbox/0.0.1" .origin).isSome =
      true)
  have hstep := markUnreachable_run hmark
  rw [h _ _ _ _ _ hmark] at hstep
  revert hstep
  decide +kernel

end MaRuntime.Outbox
