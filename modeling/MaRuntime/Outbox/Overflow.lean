import MaRuntime.Daemon.Claim
import MaRuntime.Library.Runs
import MaRuntime.Outbox.Backoff

/-!
# The arithmetic of the backoff

Neither the attempts nor the sum of the two delays overflow before the clock does, and the clock
does: a limit may be any positive number, and the delay of the ninety-third step is more seconds
than an instant has. Adding it to the clock panics (`everyMark_fits_iff`). With no limit above
ninety-two there is room for every delay on a clock that is not far from its start
(`everyMark_fits_of_limits_le`).

Main definitions: `EveryMark`, `MarkFits`, `stepOfMark`, `DelayFits`.
Main results: `everyMark_fits_iff`, `everyMark_fits_of_limits_le`.

Scope. The marks are those of any sequence of calls, also of calls that overlap: each holds the lock
from reading an entry to storing it.
-/

set_option autoImplicit false
set_option relaxedAutoImplicit false

namespace MaRuntime.Outbox

open Clock Escalation Runs

/-- What holds of every mark among some calls, of the calls before it, its outbox and its clock. -/
def EveryMark (property : List Call → OutboxKey → Instant → Prop) (calls : List Call) : Prop :=
  ∀ before did protocol now after, calls = before ++ .markUnreachable did protocol now :: after →
    property before (did, protocol) now

/-- The sum of the stored delays, the attempts and the instant of the retry are representable where
a mark computes them, and the mark returns. -/
structure MarkFits (cache : OutboxCache) (key : OutboxKey) (now : Instant) : Prop where
  sum : ∀ backoff, cache.unreachable.get key = some backoff →
    backoff.attempts < cache.maxAttempts →
      backoff.previousDelay.nanos + backoff.currentDelay.nanos < 2 ^ 64 * nanosPerSec
  attempts : ∀ backoff, cache.unreachable.get key = some backoff →
    backoff.attempts < cache.maxAttempts → backoff.attempts.toNat + 1 < 2 ^ 64
  returns : (cache.markUnreachable key.1 key.2 now).isSome = true

/-! ### The condition -/

/-- The marks, each with the limit in force, and the clears, when a limit is in force before. -/
def attempted (limit : UInt64) : List Call → List (Event OutboxKey String)
  | [] => []
  | call :: rest => call.events limit ++ attempted (call.limitAfter limit) rest

/-- The limits at the marks of an outbox since its DID was cleared. -/
def marksAttempted (attempts : UInt64) (calls : List Call) (key : OutboxKey) : List Nat :=
  limitsSince Prod.fst key (attempted (max attempts 1) calls)

/-- The step that a mark of an outbox takes after some calls. -/
def stepOfMark (attempts : UInt64) (calls : List Call) (key : OutboxKey) : Nat :=
  raise (limitInForce attempts calls).toNat (levelAfter (marksAttempted attempts calls key))

/-- The seconds of a step make a duration, and the clock has an instant that much later. -/
def DelayFits (now : Instant) (step : Nat) : Prop :=
  Nat.fib step < 2 ^ 64 ∧ now.nanos + Nat.fib step * nanosPerSec < 2 ^ 63 * nanosPerSec

instance (now : Instant) (step : Nat) : Decidable (DelayFits now step) :=
  inferInstanceAs (Decidable (_ ∧ _))

theorem attempted_append_singleton (limit : UInt64) (calls : List Call) (call : Call) :
    attempted limit (calls ++ [call]) =
      attempted limit calls ++ call.events (calls.foldl Call.limitAfter limit) := by
  induction calls generalizing limit with
  | nil => exact List.append_nil _
  | cons first rest ih => simp only [List.cons_append, attempted, ih, List.append_assoc, List.foldl]

theorem marksAttempted_append_singleton (attempts : UInt64) (calls : List Call) (call : Call)
    (key : OutboxKey) :
    marksAttempted attempts (calls ++ [call]) key =
      (call.events (limitInForce attempts calls)).foldl (note Prod.fst key)
        (marksAttempted attempts calls key) := by
  rw [marksAttempted, attempted_append_singleton, limitsSince_append]
  rfl

/-- Under an unchanged limit, the step is the number of the marks or the limit. -/
theorem stepOfMark_eq_min {attempts : UInt64} {calls : List Call} {key : OutboxKey}
    (h : ∀ limit ∈ marksAttempted attempts calls key,
      limit = (limitInForce attempts calls).toNat) :
    stepOfMark attempts calls key =
      min ((marksAttempted attempts calls key).length + 1) (limitInForce attempts calls).toNat := by
  have hall : ∀ limit ∈ marksAttempted attempts calls key ++
      [(limitInForce attempts calls).toNat], limit = (limitInForce attempts calls).toNat :=
    List.forall_mem_append.mpr ⟨h, by simp⟩
  have hlevel := levelAfter_of_forall_eq (one_le_limitInForce attempts calls) (by simp) hall
  rw [levelAfter_append_singleton, Option.some.injEq, List.length_append] at hlevel
  exact hlevel

/-! ### One call more -/

theorem everyMark_iff {property : List Call → OutboxKey → Instant → Prop} {calls : List Call} :
    EveryMark property calls ↔ ∀ before call after, calls = before ++ call :: after →
      ∀ did protocol now, call = .markUnreachable did protocol now →
        property before (did, protocol) now := by
  constructor
  · rintro h before _ after hsplit did protocol now rfl
    exact h before did protocol now after hsplit
  · intro h before did protocol now after hsplit
    exact h before _ after hsplit did protocol now rfl

theorem everyMark_append_singleton {property : List Call → OutboxKey → Instant → Prop}
    {calls : List Call} {call : Call} :
    EveryMark property (calls ++ [call]) ↔ EveryMark property calls ∧
      ∀ did protocol now, call = .markUnreachable did protocol now →
        property calls (did, protocol) now := by
  simp only [everyMark_iff]
  exact forall_split_append_singleton

/-! ### Runs in which every delay fits -/

/-- Every mark among some calls returned, and no delay was cut off. -/
structure Exact (attempts : UInt64) (calls : List Call) : Prop where
  history : history (.new attempts) calls = attempted (max attempts 1) calls
  fits : ∀ key step, levelAfter (marksAttempted attempts calls key) = some step →
    Nat.fib step < 2 ^ 64

section Exact

variable {attempts : UInt64} {calls : List Call} {key : OutboxKey} {now : Instant}

theorem exact_nil (attempts : UInt64) : Exact attempts [] := ⟨rfl, fun _ _ h ↦ nomatch h⟩

theorem Exact.progress (h : Exact attempts calls) (key : OutboxKey) :
    ((run (.new attempts) calls).unreachable.get key).map UnreachableOutbox.progress =
      (levelAfter (marksAttempted attempts calls key)).map delaysAt := by
  rw [progress_run, marksSinceClear, h.history]
  rfl

/-- The sum of the delays of a step is that of the next one, where its own are not cut off. -/
theorem sum_lt_iff {backoff : UnreachableOutbox} {step : Nat} (hpos : 0 < step)
    (hprogress : delaysAt step = backoff.progress) (hfits : Nat.fib step < 2 ^ 64) :
    backoff.previousDelay.nanos + backoff.currentDelay.nanos < 2 ^ 64 * nanosPerSec ↔
      Nat.fib (step + 1) < 2 ^ 64 := by
  obtain ⟨before, rfl⟩ := Nat.exists_eq_add_one.mpr hpos
  have hprevious : Duration.ofSecs (Nat.fib before) = backoff.previousDelay :=
    congrArg (·.1) hprogress
  have hcurrent : Duration.ofSecs (Nat.fib (before + 1)) = backoff.currentDelay :=
    congrArg (·.2.1) hprogress
  have hle : Nat.fib before ≤ Nat.fib (before + 1) := Nat.fib_le_fib_succ
  rw [← hprevious, ← hcurrent, Nat.fib_add_two]
  simp only [Duration.ofSecs, Duration.nanos_ofNanos, nanosPerSec]
  omega

theorem Exact.isSome_markUnreachable (h : Exact attempts calls) :
    ((run (.new attempts) calls).markUnreachable key.1 key.2 now).isSome = true ↔
      now.nanos + (Duration.ofSecs (Nat.fib (stepOfMark attempts calls key))).nanos <
        2 ^ 63 * nanosPerSec := by
  rcases hnext : OutboxCache.nextBackoff (run (.new attempts) calls).maxAttempts
    ((run (.new attempts) calls).unreachable.get key) with ⟨previousDelay, currentDelay, stored⟩
  have hdelay := congrArg (·.2.1) (nextBackoff_eq (h.progress key) hnext)
  rw [maxAttempts_run] at hdelay
  simp only [OutboxCache.markUnreachable, hnext, Option.isSome_map, Instant.isSome_checkedAdd]
  rw [show currentDelay = _ from hdelay]
  rfl

/-- The delays that a mark adds are representable if and only if that of its step is. -/
theorem Exact.sum_iff (h : Exact attempts calls) :
    (∀ backoff, (run (.new attempts) calls).unreachable.get key = some backoff →
      backoff.attempts < (run (.new attempts) calls).maxAttempts →
        backoff.previousDelay.nanos + backoff.currentDelay.nanos < 2 ^ 64 * nanosPerSec) ↔
      Nat.fib (stepOfMark attempts calls key) < 2 ^ 64 := by
  have hprogress := h.progress key
  rw [maxAttempts_run, stepOfMark]
  cases hlevel : levelAfter (marksAttempted attempts calls key) with
  | none =>
    rw [hlevel, Option.map_none, Option.map_eq_none_iff] at hprogress
    simp [hprogress, raise]
  | some level =>
    rw [hlevel, Option.map_some] at hprogress
    obtain ⟨backoff, hget, hlast⟩ := Option.map_eq_some_iff.mp hprogress
    have hattempts : backoff.attempts.toNat = level := congrArg (·.2.2) hlast
    have hfits := h.fits key level hlevel
    have hsum := sum_lt_iff (pos_of_levelAfter hlevel) hlast.symm hfits
    simp only [hget, Option.some.injEq, forall_eq', UInt64.lt_iff_toNat_lt, hattempts, raise]
    split_ifs with hreached
    · exact iff_of_true (fun hbelow ↦ absurd hbelow (Nat.not_lt.mpr hreached)) hfits
    · rw [hsum]
      exact forall_prop_of_true (Nat.lt_of_not_le hreached)

/-- Where every delay before it did fit, a mark fits if and only if its own delay does. -/
theorem Exact.markFits_iff (h : Exact attempts calls) :
    MarkFits (run (.new attempts) calls) key now ↔
      DelayFits now (stepOfMark attempts calls key) := by
  have hreturns (hfits : Nat.fib (stepOfMark attempts calls key) < 2 ^ 64) :
      ((run (.new attempts) calls).markUnreachable key.1 key.2 now).isSome = true ↔
        now.nanos + Nat.fib (stepOfMark attempts calls key) * nanosPerSec <
          2 ^ 63 * nanosPerSec := by
    have hexact : (Duration.ofSecs (Nat.fib (stepOfMark attempts calls key))).nanos =
        Nat.fib (stepOfMark attempts calls key) * nanosPerSec := by
      simp only [Duration.ofSecs, Duration.nanos_ofNanos, nanosPerSec]
      omega
    rw [h.isSome_markUnreachable, hexact, Nat.cast_mul]
  constructor
  · intro hmark
    have hfits := h.sum_iff.mp hmark.sum
    exact ⟨hfits, (hreturns hfits).mp hmark.returns⟩
  · rintro ⟨hfits, hclock⟩
    refine ⟨h.sum_iff.mpr hfits, ?_, (hreturns hfits).mpr hclock⟩
    intro backoff _ hbelow
    exact Nat.lt_of_le_of_lt (UInt64.lt_iff_toNat_lt.mp hbelow) (UInt64.toNat_lt _)

theorem Exact.append_singleton {call : Call} (h : Exact attempts calls)
    (hcall : ∀ did protocol now, call = .markUnreachable did protocol now →
      DelayFits now (stepOfMark attempts calls (did, protocol))) :
    Exact attempts (calls ++ [call]) := by
  have hreturns : call.returns (run (.new attempts) calls) = true := by
    cases call with
    | markUnreachable did protocol now => exact (h.markFits_iff.mpr (hcall _ _ _ rfl)).returns
    | clearUnreachable did => rfl
    | setBackoffAttempts next => rfl
  constructor
  · rw [history_append_singleton, attempted_append_singleton, h.history, if_pos hreturns,
      maxAttempts_run]
    rfl
  · intro key step hstep
    rw [marksAttempted_append_singleton] at hstep
    cases call with
    | markUnreachable did protocol now =>
      simp only [Call.events, List.foldl_cons, List.foldl_nil, note] at hstep
      split_ifs at hstep with hkey
      · subst hkey
        rw [levelAfter_append_singleton, Option.some.injEq] at hstep
        exact hstep ▸ (hcall _ _ _ rfl).1
      · exact h.fits key step hstep
    | clearUnreachable did =>
      simp only [Call.events, List.foldl_cons, List.foldl_nil, note] at hstep
      split_ifs at hstep with hdid
      · cases hstep
      · exact h.fits key step hstep
    | setBackoffAttempts next => exact h.fits key step hstep

end Exact

theorem everyMark_fits_and_exact (attempts : UInt64) (calls : List Call) :
    (EveryMark (fun before key now ↦ MarkFits (run (.new attempts) before) key now) calls ↔
      EveryMark (fun before key now ↦ DelayFits now (stepOfMark attempts before key)) calls) ∧
    (EveryMark (fun before key now ↦ DelayFits now (stepOfMark attempts before key)) calls →
      Exact attempts calls) := by
  induction calls using List.reverseRecOn with
  | nil => exact ⟨by simp [EveryMark], fun _ ↦ exact_nil attempts⟩
  | append_singleton calls call ih =>
    obtain ⟨hiff, hexact⟩ := ih
    simp only [everyMark_append_singleton, hiff]
    refine ⟨and_congr_right fun hbefore ↦ ?_, fun h ↦ (hexact h.1).append_singleton h.2⟩
    simp only [(hexact hbefore).markFits_iff]

/-- Nothing overflows at any mark, and every mark returns, if and only if the delay of each step can
be added to the clock that the mark reads. -/
theorem everyMark_fits_iff (attempts : UInt64) (calls : List Call) :
    EveryMark (fun before key now ↦ MarkFits (run (.new attempts) before) key now) calls ↔
      EveryMark (fun before key now ↦ DelayFits now (stepOfMark attempts before key)) calls :=
  (everyMark_fits_and_exact attempts calls).1

/-- A limit of ninety-three is accepted, and the ninety-third mark of an outbox panics. -/
theorem not_everyMark_fits_ninetyThree :
    Daemon.outboxBackoffAttempts (.number 93) = .ok 93 ∧
      ¬ EveryMark (fun before key now ↦ MarkFits (run (.new 93) before) key now)
        (List.replicate 93 (.markUnreachable "did:ma:peer" "/ma/inbox/0.0.1" .origin)) := by
  refine ⟨rfl, fun h ↦ ?_⟩
  have hlast := (h (List.replicate 92 _) _ _ _ [] List.replicate_succ').returns
  revert hlast
  decide +kernel

/-! ### Small limits -/

theorem le_of_mem_marksAttempted {attempts : UInt64} {calls : List Call} {key : OutboxKey}
    {bound limit : Nat}
    (hbound : ∀ before after, calls = before ++ after →
      (limitInForce attempts before).toNat ≤ bound)
    (hmem : limit ∈ marksAttempted attempts calls key) : limit ≤ bound := by
  induction calls using List.reverseRecOn with
  | nil => cases hmem
  | append_singleton calls call ih =>
    have hbefore := ih fun before after hsplit ↦ hbound before (after ++ [call]) (by simp [hsplit])
    rw [marksAttempted_append_singleton] at hmem
    cases call with
    | markUnreachable did protocol now =>
      simp only [Call.events, List.foldl_cons, List.foldl_nil, note] at hmem
      split_ifs at hmem with hkey
      · rcases List.mem_append.mp hmem with hearlier | hlast
        · exact hbefore hearlier
        · exact List.mem_singleton.mp hlast ▸ hbound calls _ rfl
      · exact hbefore hmem
    | clearUnreachable did =>
      simp only [Call.events, List.foldl_cons, List.foldl_nil, note] at hmem
      split_ifs at hmem with hdid
      · cases hmem
      · exact hbefore hmem
    | setBackoffAttempts next => exact hbefore hmem

/-- A step is at most the greatest limit that was in force. -/
theorem stepOfMark_le {attempts : UInt64} {calls : List Call} {key : OutboxKey} {bound : Nat}
    (hbound : ∀ before after, calls = before ++ after →
      (limitInForce attempts before).toNat ≤ bound) :
    stepOfMark attempts calls key ≤ bound := by
  have hlast := hbound calls [] (List.append_nil _).symm
  have hpos := one_le_limitInForce attempts calls
  rcases exists_le_of_levelAfter (levelAfter_append_singleton
      (marksAttempted attempts calls key) (limitInForce attempts calls).toNat) with
    hone | ⟨limit, hmem, hle⟩
  · rw [stepOfMark, hone]
    omega
  · refine hle.trans ?_
    rcases List.mem_append.mp hmem with hearlier | hlimit
    · exact le_of_mem_marksAttempted hbound hearlier
    · exact List.mem_singleton.mp hlimit ▸ hlast

/-- With no limit above ninety-two, every mark fits on a clock that has room for the delay of that
step. -/
theorem everyMark_fits_of_limits_le {attempts : UInt64} {calls : List Call}
    (hlimits : ∀ before after, calls = before ++ after → (limitInForce attempts before).toNat ≤ 92)
    (hclock : EveryMark (fun _ _ now ↦
      now.nanos + Nat.fib 92 * nanosPerSec < 2 ^ 63 * nanosPerSec) calls) :
    EveryMark (fun before key now ↦ MarkFits (run (.new attempts) before) key now) calls := by
  refine (everyMark_fits_and_exact attempts calls).1.mpr ?_
  intro before did protocol now after hsplit
  have hstep : stepOfMark attempts before (did, protocol) ≤ 92 :=
    stepOfMark_le fun first second hfirst ↦
      hlimits first (second ++ .markUnreachable did protocol now :: after)
        (by simp [hsplit, hfirst])
  have hfib : Nat.fib (stepOfMark attempts before (did, protocol)) ≤ Nat.fib 92 :=
    Nat.fib_mono hstep
  have hroom := hclock before did protocol now after hsplit
  have hgreatest : Nat.fib 92 < 2 ^ 64 := by decide +kernel
  have hcast : ((Nat.fib (stepOfMark attempts before (did, protocol)) : Nat) : Int) ≤
      (Nat.fib 92 : Nat) := Int.ofNat_le.mpr hfib
  simp only [nanosPerSec] at hroom
  refine ⟨hfib.trans_lt hgreatest, ?_⟩
  simp only [nanosPerSec]
  omega

end MaRuntime.Outbox
