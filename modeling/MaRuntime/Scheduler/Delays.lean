import Mathlib.Algebra.Group.Nat.Defs
import MaRuntime.Scheduler.Request

/-!
# Delays of one-shot schedules

A one-shot schedule fires after a delay that is computed in `i64` milliseconds from the clock: what
is left of the timestamp of `:at`, and for `:in` what is left of the timestamp that its seconds make
when it is registered. The timestamp of `:in` saturates, and the delay is exact. The subtraction of
the clock does not saturate: a timestamp more than `2 ^ 63` milliseconds before the clock, which is
long over, wraps to a delay of millions of years (`delays_exact_iff`).

Main definitions: `nowMs`, `inTimestamp`, `addAtJobDelay`, `ExactDelay`.
Main results: `timestamp_range_of_parseScheduleRequest`, `delays_exact_iff`.

Scope. Arithmetic wraps, as in a release build; the clock is read once when a schedule is registered
and once when its job is added.
-/

set_option autoImplicit false
set_option relaxedAutoImplicit false

namespace MaRuntime.Scheduler

/-- The greatest `i64`. -/
def i64Max : Int := 2 ^ 63 - 1

/-- Whether an integer is an `i64`. -/
def IsI64 (n : Int) : Prop := -(2 ^ 63) ≤ n ∧ n ≤ i64Max

instance (n : Int) : Decidable (IsI64 n) := inferInstanceAs (Decidable (_ ∧ _))

/-! ### The delay -/

/-- `now_ms`, when so many milliseconds have passed since the epoch. -/
def nowMs (millis : Nat) : Int := if (millis : Int) ≤ i64Max then millis else i64Max

/-- The timestamp of `:in`: `now_ms().saturating_add(..)` of `secs.saturating_mul(1000)`. -/
def inTimestamp (now : Int) (secs : UInt64) : Int :=
  let millis := min (secs.toNat * 1000) (2 ^ 64 - 1)
  let delta := if (millis : Int) ≤ i64Max then (millis : Int) else i64Max
  max (-(2 ^ 63)) (min (now + delta) i64Max)

/-- The milliseconds after which the job of `add_at_job` runs. -/
def addAtJobDelay (timestampMs now : Int) : Nat := (max ((timestampMs - now).bmod (2 ^ 64)) 0).toNat

/-- The subtraction of `add_at_job` does not overflow. -/
def SubtractionFits (timestampMs now : Int) : Prop := IsI64 (timestampMs - now)

instance (timestampMs now : Int) : Decidable (SubtractionFits timestampMs now) :=
  inferInstanceAs (Decidable (IsI64 (timestampMs - now)))

/-- A one-shot schedule that is registered at one reading of the clock, and whose job is added at
another one, has the exact delay, and nothing overflows. -/
def ExactDelay (request : Schedule) (registered added : Nat) : Prop :=
  match request with
  | .at timestampMs _ =>
    SubtractionFits timestampMs (nowMs added) ∧
      (addAtJobDelay timestampMs (nowMs added) : Int) = max 0 (timestampMs - nowMs added)
  | .in secs _ =>
    SubtractionFits (inTimestamp (nowMs registered) secs) (nowMs added) ∧
      (registered = added →
        (addAtJobDelay (inTimestamp (nowMs registered) secs) (nowMs added) : Int) =
          min (1000 * (secs.toNat : Int)) (i64Max - nowMs registered))
  | .cron _ _ | .interval _ _ | .random _ _ => True

/-- The clock is not more than `2 ^ 63` milliseconds after the timestamp of `:at`. -/
def NotLongOver (request : Schedule) (added : Nat) : Prop :=
  match request with
  | .at timestampMs _ => nowMs added - timestampMs ≤ 2 ^ 63
  | .in _ _ | .cron _ _ | .interval _ _ | .random _ _ => True

section Delays

variable {debug : DebugFormat} {codec : CborCodec} {timestampMs now : Int}

theorem nowMs_range (millis : Nat) : 0 ≤ nowMs millis ∧ nowMs millis ≤ i64Max := by
  unfold nowMs i64Max
  split_ifs
  · omega
  · omega

/-- The timestamp of `:in` is the exact one up to the greatest timestamp. -/
theorem inTimestamp_eq (hnow : 0 ≤ now ∧ now ≤ i64Max) (secs : UInt64) :
    inTimestamp now secs = min (now + 1000 * secs.toNat) i64Max := by
  unfold inTimestamp i64Max at *
  have hsecs := secs.toNat_lt
  dsimp only
  split_ifs
  · omega
  · omega

theorem addAtJobDelay_eq (h : SubtractionFits timestampMs now) :
    (addAtJobDelay timestampMs now : Int) = max 0 (timestampMs - now) := by
  obtain ⟨hlow, hhigh⟩ := h
  unfold i64Max at hhigh
  unfold addAtJobDelay
  rw [Int.bmod_eq_of_le (by omega) (by omega)]
  omega

theorem timestamp_range_of_scheduleOf {type : String} {spec : CborValue}
    {content encoded : Dispatch.Bytes}
    (h : scheduleOf debug type spec encoded = .ok (.at timestampMs content)) :
    IsI64 timestampMs := by
  have hduration {form : UInt64 → Schedule} {value : Except String UInt64}
      (hform : ∀ secs, form secs ≠ .at timestampMs content) :
      (do return form (← value)) ≠ (.ok (.at timestampMs content) : Except String Schedule) := by
    intro hbind
    obtain ⟨secs, -, hsecs⟩ := bind_eq_ok hbind
    exact hform secs (Except.ok.inj hsecs)
  unfold scheduleOf at h
  split at h
  · split at h
    · cases h
    · cases h
  · exact absurd h (hduration fun secs hsecs ↦ by cases hsecs)
  · split at h
    · split_ifs at h with hrange
      obtain ⟨rfl, -⟩ := Schedule.at.inj (Except.ok.inj h)
      exact ⟨hrange.1, Int.le_sub_one_of_lt hrange.2⟩
    · cases h
  · exact absurd h (hduration fun secs hsecs ↦ by cases hsecs)
  · split at h
    · cases h
    · cases h
  · cases h

/-- The timestamp of an `:at` request that is accepted is an `i64`. -/
theorem timestamp_range_of_parseScheduleRequest {term : CborValue} {fromUrl : String}
    {req : ParsedRequest} (h : parseScheduleRequest debug codec term fromUrl = .ok req)
    {content : Dispatch.Bytes} (hat : req.request = .at timestampMs content) :
    IsI64 timestampMs := by
  unfold parseScheduleRequest at h
  split at h
  · obtain ⟨name, -, h⟩ := bind_eq_ok h
    obtain ⟨type, -, h⟩ := bind_eq_ok h
    obtain ⟨fragment, -, h⟩ := bind_eq_ok h
    obtain ⟨encoded, -, h⟩ := bind_eq_ok h
    obtain ⟨request, hrequest, h⟩ := bind_eq_ok h
    obtain rfl := Except.ok.inj h
    obtain rfl : request = .at timestampMs content := hat
    exact timestamp_range_of_scheduleOf hrequest
  · cases h
  · cases h

/-- The delay of an accepted schedule is exact, at any two readings of the clock, if and only if it
is not one of `:at` that is over for more than `2 ^ 63` milliseconds. -/
theorem delays_exact_iff {term : CborValue} {fromUrl : String} {req : ParsedRequest}
    (h : parseScheduleRequest debug codec term fromUrl = .ok req) (registered added : Nat) :
    ExactDelay req.request registered added ↔ NotLongOver req.request added := by
  have hadded := nowMs_range added
  match hrequest : req.request with
  | .at timestampMs content =>
    obtain ⟨-, htimestamp⟩ := timestamp_range_of_parseScheduleRequest h hrequest
    have hfits : SubtractionFits timestampMs (nowMs added) ↔
        nowMs added - timestampMs ≤ 2 ^ 63 := by
      unfold SubtractionFits IsI64 i64Max at *
      omega
    refine Iff.trans ?_ hfits
    exact ⟨fun hexact ↦ hexact.1, fun hsub ↦ ⟨hsub, addAtJobDelay_eq hsub⟩⟩
  | .in secs content =>
    have hregistered := nowMs_range registered
    have hsub : SubtractionFits (inTimestamp (nowMs registered) secs) (nowMs added) := by
      rw [inTimestamp_eq hregistered]
      unfold SubtractionFits IsI64 i64Max at *
      omega
    refine iff_of_true ⟨hsub, ?_⟩ trivial
    rintro rfl
    rw [addAtJobDelay_eq hsub, inTimestamp_eq hregistered]
    unfold i64Max at *
    omega
  | .cron spec content => exact iff_of_true trivial trivial
  | .interval secs content => exact iff_of_true trivial trivial
  | .random maxSecs content => exact iff_of_true trivial trivial

end Delays

/-- A codec that encodes every content as no bytes. -/
def emptyCodec : CborCodec := ⟨fun _ ↦ none, fun _ ↦ some []⟩

/-- A request for a one-shot schedule at a time. -/
def wakeRequest (timestampMs : Int) : CborValue :=
  .array [.text "wake", .text ":at", .integer timestampMs, .text ":wake"]

/-- What is read from it when `a` of `did:ma:x` sends it. -/
def wakeParsed (timestampMs : Int) : ParsedRequest where
  scheduleKey := "did:ma:x#a-wake"
  fragment := "a"
  request := .at timestampMs []

theorem delays_exact_iff_wakeRequest :
    ExactDelay (wakeParsed 1500).request 1000 1001 ↔
      NotLongOver (wakeParsed 1500).request 1001 := by
  have hparse : parseScheduleRequest ⟨fun _ ↦ "", id, fun _ ↦ ""⟩ emptyCodec (wakeRequest 1500)
      "did:ma:x#a" = .ok (wakeParsed 1500) := by decide
  exact delays_exact_iff hparse 1000 1001

/-- A schedule for the least timestamp, which is over, is given the greatest delay. -/
theorem delay_of_least_timestamp :
    parseScheduleRequest ⟨fun _ ↦ "", id, fun _ ↦ ""⟩ emptyCodec
        (wakeRequest (-9223372036854775808)) "did:ma:x#a" =
          .ok (wakeParsed (-9223372036854775808)) ∧
      addAtJobDelay (-9223372036854775808) (nowMs 1) = 9223372036854775807 ∧
      ¬ExactDelay (wakeParsed (-9223372036854775808)).request 1 1 := by
  refine ⟨by decide, by decide, fun h ↦ ?_⟩
  obtain ⟨hfits, -⟩ := h
  exact absurd hfits (by decide)

end MaRuntime.Scheduler
