import Mathlib.Algebra.Group.Int.Defs
import Mathlib.Algebra.Group.Nat.Defs
import Mathlib.Data.Int.Basic

/-!
# Durations and instants

A `Duration` is a length of time of 64 bits of seconds and the nanoseconds below a second, and an
`Instant` is a point on a clock with signed 64 bits of seconds. Both are counted in nanoseconds here
and carry their range. The sum of two durations saturates (`saturatingAdd`), and an instant after a
duration is one that may not exist (`checkedAdd`).

Main definitions: `Duration`, `Duration.saturatingAdd`, `Instant`, `Instant.checkedAdd`,
`Instant.durationSince`.
Main results: `saturatingAdd_ofNanos`, `checkedAdd_eq_some_iff`.
-/

set_option autoImplicit false
set_option relaxedAutoImplicit false

namespace MaRuntime.Clock

/-- The nanoseconds of a second. -/
def nanosPerSec : Nat := 1000000000

/-- A length of time. -/
structure Duration where
  nanos : Nat
  inRange : nanos < 2 ^ 64 * nanosPerSec
deriving DecidableEq

namespace Duration

/-- The longest duration. -/
def max : Duration := ⟨2 ^ 64 * nanosPerSec - 1, by decide⟩

/-- No time. -/
def zero : Duration := ⟨0, by decide⟩

/-- So many nanoseconds, or the longest duration where they are more. -/
def ofNanos (nanos : Nat) : Duration :=
  if h : nanos < 2 ^ 64 * nanosPerSec then ⟨nanos, h⟩ else max

/-- So many seconds, or the longest duration where they are more. -/
def ofSecs (secs : Nat) : Duration := ofNanos (secs * nanosPerSec)

/-- The sum of two durations, or the longest duration where it is longer. -/
def saturatingAdd (a b : Duration) : Duration := ofNanos (a.nanos + b.nanos)

@[ext] theorem ext {a b : Duration} (h : a.nanos = b.nanos) : a = b := by
  cases a
  cases b
  congr

theorem nanos_ofNanos (nanos : Nat) :
    (ofNanos nanos).nanos = min nanos (2 ^ 64 * nanosPerSec - 1) := by
  unfold ofNanos
  split_ifs with h
  · simp only
    omega
  · simp only [max]
    omega

/-- Saturating along the way is saturating at the end. -/
theorem saturatingAdd_ofNanos (a b : Nat) :
    (ofNanos a).saturatingAdd (ofNanos b) = ofNanos (a + b) := by
  ext
  simp only [saturatingAdd, nanos_ofNanos]
  omega

theorem saturatingAdd_ofSecs (a b : Nat) :
    (ofSecs a).saturatingAdd (ofSecs b) = ofSecs (a + b) := by
  unfold ofSecs
  rw [saturatingAdd_ofNanos, Nat.add_mul]

end Duration

/-- A point on a clock. -/
structure Instant where
  nanos : Int
  inRange : -(2 ^ 63 * nanosPerSec) ≤ nanos ∧ nanos < 2 ^ 63 * nanosPerSec
deriving DecidableEq

namespace Instant

/-- The start of the clock. -/
def origin : Instant := ⟨0, by decide⟩

/-- The instant a duration later, if there is one. -/
def checkedAdd (i : Instant) (d : Duration) : Option Instant :=
  if h : i.nanos + d.nanos < 2 ^ 63 * nanosPerSec then
    some ⟨i.nanos + d.nanos, by have := i.inRange; omega⟩
  else none

/-- The time from an earlier instant, which is none if that instant is later. -/
def durationSince (later earlier : Instant) : Duration where
  nanos := (later.nanos - earlier.nanos).toNat
  inRange := by
    have := later.inRange
    have := earlier.inRange
    omega

theorem checkedAdd_eq_some_iff {i j : Instant} {d : Duration} :
    i.checkedAdd d = some j ↔ j.nanos = i.nanos + d.nanos := by
  unfold checkedAdd
  split_ifs with h
  · obtain ⟨nanos, hrange⟩ := j
    simp [eq_comm]
  · have := j.inRange
    refine iff_of_false (by simp) ?_
    omega

theorem isSome_checkedAdd {i : Instant} {d : Duration} :
    (i.checkedAdd d).isSome = true ↔ i.nanos + d.nanos < 2 ^ 63 * nanosPerSec := by
  unfold checkedAdd
  split_ifs with h
  · simpa using h
  · simpa using h

end Instant

end MaRuntime.Clock
