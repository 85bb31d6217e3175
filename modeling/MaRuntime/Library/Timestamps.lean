import Mathlib.Algebra.Order.Field.Rat
import Mathlib.Data.Nat.Digits.Defs
import Mathlib.Data.Prod.Lex
import Mathlib.Tactic.FieldSimp
import Mathlib.Tactic.Linarith
import Mathlib.Tactic.NormNum

/-!
# Timestamps

A `Timestamp` is a point in time as RFC 3339 writes it: a date of the Gregorian calendar, a time of
day with a fraction of a second or without one, and the offset of the clock from UTC. Its `text` is
what is written, and its `instant` is the time it denotes: the minute that UTC has, and the seconds
within that minute, of which there may be more than sixty.

The order of the texts is that of the instants for timestamps of one format, with the same offset
and the same number of digits behind the second (`SameFormat.text_lt_iff`). It is not in general:
`10:00:00.5Z` is later than `10:00:00Z` and comes first as a text.

Main definitions: `Timestamp`, `Timestamp.text`, `Timestamp.instant`.
Main results: `digits_append_lt_iff`, `SameFormat.text_lt_iff`.
-/

set_option autoImplicit false
set_option relaxedAutoImplicit false

namespace MaRuntime.Timestamps

/-! ### Numbers with several places -/

section Places

/-- Numbers in consecutive intervals are compared by the intervals first. -/
theorem place_lt_iff (start width : ℕ → ℕ) (hstep : ∀ k, start k + width k ≤ start (k + 1))
    (a b : ℕ) {r s : ℕ} (hr : r < width a) (hs : s < width b) :
    start a + r < start b + s ↔ a < b ∨ a = b ∧ r < s := by
  have hmono : Monotone start :=
    monotone_nat_of_le_succ fun k ↦ le_trans (Nat.le_add_right _ _) (hstep k)
  have hbefore {c d : ℕ} (hlt : c < d) : start c + width c ≤ start d :=
    (hstep c).trans (hmono hlt)
  rcases lt_trichotomy a b with hlt | rfl | hgt
  · have := hbefore hlt
    exact iff_of_true (by omega) (.inl hlt)
  · simp
  · have := hbefore hgt
    exact iff_of_false (by omega) (by omega)

theorem place_eq_iff (start width : ℕ → ℕ) (hstep : ∀ k, start k + width k ≤ start (k + 1))
    (a b : ℕ) {r s : ℕ} (hr : r < width a) (hs : s < width b) :
    start a + r = start b + s ↔ a = b ∧ r = s := by
  have hlt := place_lt_iff start width hstep a b hr hs
  have hgt := place_lt_iff start width hstep b a hs hr
  constructor
  · intro heq
    have hnotLt := hlt.not.mp (by omega)
    have hnotGt := hgt.not.mp (by omega)
    omega
  · rintro ⟨rfl, rfl⟩
    rfl

/-- The decimal digits of a number, of which there are as many as the width says. -/
def digits : ℕ → ℕ → List Char
  | 0, _ => []
  | width + 1, n => (n / 10 ^ width).digitChar :: digits width (n % 10 ^ width)

theorem digitChar_lt_iff {a b : ℕ} (ha : a < 10) (hb : b < 10) :
    a.digitChar < b.digitChar ↔ a < b := by
  have h : ∀ a < 10, ∀ b < 10, a.digitChar < b.digitChar ↔ a < b := by decide
  exact h a ha b hb

theorem digitChar_eq_iff {a b : ℕ} (ha : a < 10) (hb : b < 10) :
    a.digitChar = b.digitChar ↔ a = b := by
  have h : ∀ a < 10, ∀ b < 10, a.digitChar = b.digitChar ↔ a = b := by decide
  exact h a ha b hb

/-- Texts that begin with numbers of one width are compared by the numbers first. -/
theorem digits_append_lt_iff {width n m : ℕ} {front back : List Char} (hn : n < 10 ^ width)
    (hm : m < 10 ^ width) :
    digits width n ++ front < digits width m ++ back ↔ n < m ∨ n = m ∧ front < back := by
  induction width generalizing n m with
  | zero =>
    obtain rfl : n = 0 := by simpa using hn
    obtain rfl : m = 0 := by simpa using hm
    simp [digits]
  | succ width ih =>
    have hpos : 0 < 10 ^ width := Nat.pow_pos (by decide)
    have hplace (k : ℕ) (hk : k < 10 ^ (width + 1)) : k / 10 ^ width < 10 :=
      Nat.div_lt_of_lt_mul (by rwa [← Nat.pow_succ])
    have hstep (k : ℕ) : 10 ^ width * k + 10 ^ width ≤ 10 ^ width * (k + 1) := le_refl _
    have hlt := place_lt_iff (10 ^ width * ·) (fun _ ↦ 10 ^ width) hstep (n / 10 ^ width)
      (m / 10 ^ width) (Nat.mod_lt n hpos) (Nat.mod_lt m hpos)
    have heq := place_eq_iff (10 ^ width * ·) (fun _ ↦ 10 ^ width) hstep (n / 10 ^ width)
      (m / 10 ^ width) (Nat.mod_lt n hpos) (Nat.mod_lt m hpos)
    rw [Nat.div_add_mod, Nat.div_add_mod] at hlt heq
    simp only [digits, List.cons_append, List.cons_lt_cons_iff,
      digitChar_lt_iff (hplace n hn) (hplace m hm), digitChar_eq_iff (hplace n hn) (hplace m hm),
      ih (Nat.mod_lt n hpos) (Nat.mod_lt m hpos), hlt, heq]
    tauto

end Places

/-! ### The calendar -/

def isLeapYear (year : ℕ) : Bool := year % 4 == 0 && (year % 100 != 0 || year % 400 == 0)

def daysInMonth (year : ℕ) : ℕ → ℕ
  | 1 | 3 | 5 | 7 | 8 | 10 | 12 => 31
  | 4 | 6 | 9 | 11 => 30
  | 2 => if isLeapYear year then 29 else 28
  | _ => 0

def daysBeforeMonth (year : ℕ) : ℕ → ℕ
  | 0 => 0
  | month + 1 => daysBeforeMonth year month + daysInMonth year month

def daysInYear (year : ℕ) : ℕ := daysBeforeMonth year 13

def daysBeforeYear : ℕ → ℕ
  | 0 => 0
  | year + 1 => daysBeforeYear year + daysInYear year

theorem monotone_daysBeforeMonth (year : ℕ) : Monotone (daysBeforeMonth year) :=
  monotone_nat_of_le_succ fun _ ↦ Nat.le_add_right _ _

/-! ### Timestamps -/

/-- How the clock of a timestamp stands to UTC: `Z`, which may be written small, or hours and
minutes to the east or to the west. -/
inductive Offset
  | zulu (lower : Bool)
  | shift (west : Bool) (hours : Fin 24) (minutes : Fin 60)
deriving DecidableEq

namespace Offset

def toMinutes : Offset → ℤ
  | .zulu _ => 0
  | .shift west hours minutes =>
    (if west then -1 else 1) * (60 * (hours.val : ℤ) + (minutes.val : ℤ))

def text : Offset → List Char
  | .zulu lower => [if lower then 'z' else 'Z']
  | .shift west hours minutes =>
    (if west then '-' else '+') :: (digits 2 hours ++ ':' :: digits 2 minutes)

end Offset

/-- A date and a time of day on a clock with an offset. A minute may have a leap second. The
fraction of the second is written with a number of digits, which may be none. -/
structure Timestamp where
  year : ℕ
  month : ℕ
  day : ℕ
  hour : ℕ
  minute : ℕ
  second : ℕ
  fraction : ℕ
  fractionDigits : ℕ
  offset : Offset
  lowerT : Bool
  year_lt : year < 10 ^ 4 := by decide
  month_mem : 1 ≤ month ∧ month ≤ 12 := by decide
  day_mem : 1 ≤ day ∧ day ≤ daysInMonth year month := by decide
  hour_lt : hour < 24 := by decide
  minute_lt : minute < 60 := by decide
  second_le : second ≤ 60 := by decide
  fraction_lt : fraction < 10 ^ fractionDigits := by decide

namespace Timestamp

/-- The fraction of the second, as it is written. -/
def fractionText (t : Timestamp) : List Char :=
  if t.fractionDigits = 0 then [] else '.' :: digits t.fractionDigits t.fraction

/-- What is written. -/
def text (t : Timestamp) : String :=
  String.ofList <|
    digits 4 t.year ++ '-' :: (digits 2 t.month ++ '-' :: (digits 2 t.day ++
      (if t.lowerT then 't' else 'T') :: (digits 2 t.hour ++ ':' :: (digits 2 t.minute ++
        ':' :: (digits 2 t.second ++ (t.fractionText ++ t.offset.text))))))

def dayOfYear (t : Timestamp) : ℕ := daysBeforeMonth t.year t.month + (t.day - 1)

def dayNumber (t : Timestamp) : ℕ := daysBeforeYear t.year + t.dayOfYear

/-- The minutes that the clock counts from the beginning of the year 0. -/
def clockMinute (t : Timestamp) : ℕ := 60 * (24 * t.dayNumber + t.hour) + t.minute

/-- The point in time: the minute of UTC, and the seconds within it. -/
def instant (t : Timestamp) : ℤ ×ₗ ℚ :=
  toLex ((t.clockMinute : ℤ) - t.offset.toMinutes,
    (t.second : ℚ) + (t.fraction : ℚ) / 10 ^ t.fractionDigits)

end Timestamp

/-! ### Timestamps of one format -/

/-- Two timestamps have the same offset and the same number of digits behind the second, and are
written with the same letters. -/
structure SameFormat (s t : Timestamp) : Prop where
  offset : s.offset = t.offset
  fractionDigits : s.fractionDigits = t.fractionDigits
  lowerT : s.lowerT = t.lowerT

/-- The clock of a first timestamp shows an earlier time than that of a second one. -/
def ClockBefore (s t : Timestamp) : Prop :=
  s.year < t.year ∨ s.year = t.year ∧ (s.month < t.month ∨ s.month = t.month ∧
    (s.day < t.day ∨ s.day = t.day ∧ (s.hour < t.hour ∨ s.hour = t.hour ∧
      (s.minute < t.minute ∨ s.minute = t.minute ∧
        (s.second < t.second ∨ s.second = t.second ∧ s.fraction < t.fraction)))))

namespace Timestamp

variable {s t : Timestamp}

theorem clockMinute_congr (hyear : s.year = t.year) (hmonth : s.month = t.month)
    (hday : s.day = t.day) (hhour : s.hour = t.hour) (hminute : s.minute = t.minute) :
    s.clockMinute = t.clockMinute := by
  unfold clockMinute dayNumber dayOfYear
  rw [hyear, hmonth, hday, hhour, hminute]

theorem month_lt (t : Timestamp) : t.month < 10 ^ 2 := by
  have := t.month_mem
  omega

theorem daysInMonth_le (year month : ℕ) : daysInMonth year month ≤ 31 := by
  unfold daysInMonth
  split
  all_goals first
    | omega
    | split_ifs <;> omega

theorem day_lt (t : Timestamp) : t.day < 10 ^ 2 := by
  have hle := t.day_mem.2.trans (daysInMonth_le t.year t.month)
  omega

theorem dayOfYear_lt (t : Timestamp) : t.dayOfYear < daysInYear t.year := by
  have hnext : daysBeforeMonth t.year (t.month + 1) ≤ daysInYear t.year :=
    monotone_daysBeforeMonth t.year (Nat.succ_le_succ t.month_mem.2)
  have hday := t.day_mem
  have hmonth : daysBeforeMonth t.year (t.month + 1) =
      daysBeforeMonth t.year t.month + daysInMonth t.year t.month := rfl
  unfold dayOfYear
  omega

end Timestamp

namespace SameFormat

variable {s t : Timestamp}

theorem fractionText_append_lt_iff (h : SameFormat s t) :
    s.fractionText ++ s.offset.text < t.fractionText ++ t.offset.text ↔
      s.fraction < t.fraction := by
  have hs := s.fraction_lt
  have ht := t.fraction_lt
  unfold Timestamp.fractionText
  rw [h.offset, h.fractionDigits] at *
  split_ifs with hnone
  · rw [hnone] at hs ht
    refine iff_of_false (List.lt_irrefl _) (by omega)
  · simp only [List.cons_append, List.cons_lt_cons_self]
    rw [digits_append_lt_iff hs ht]
    simp [List.lt_irrefl]

/-- Texts of one format are compared as the clocks are. -/
theorem text_lt_iff_clockBefore (h : SameFormat s t) :
    s.text < t.text ↔ ClockBefore s t := by
  have hhour (t : Timestamp) : t.hour < 10 ^ 2 := t.hour_lt.trans (by decide)
  have hminute (t : Timestamp) : t.minute < 10 ^ 2 := t.minute_lt.trans (by decide)
  have hsecond (t : Timestamp) : t.second < 10 ^ 2 := t.second_le.trans_lt (by decide)
  show s.text.toList < t.text.toList ↔ _
  simp only [Timestamp.text, String.toList_ofList, h.lowerT, List.cons_lt_cons_self,
    digits_append_lt_iff s.year_lt t.year_lt,
    digits_append_lt_iff s.month_lt t.month_lt, digits_append_lt_iff s.day_lt t.day_lt,
    digits_append_lt_iff (hhour s) (hhour t), digits_append_lt_iff (hminute s) (hminute t),
    digits_append_lt_iff (hsecond s) (hsecond t), h.fractionText_append_lt_iff, ClockBefore]

theorem dayNumber_lt_iff : s.dayNumber < t.dayNumber ↔ s.year < t.year ∨
    s.year = t.year ∧ (s.month < t.month ∨ s.month = t.month ∧ s.day < t.day) := by
  refine (place_lt_iff daysBeforeYear daysInYear (fun _ ↦ le_refl _) s.year t.year s.dayOfYear_lt
    t.dayOfYear_lt).trans (or_congr_right (and_congr_right fun hyear ↦ ?_))
  have hs := s.day_mem
  have ht := t.day_mem
  unfold Timestamp.dayOfYear
  rw [hyear] at hs ⊢
  rw [place_lt_iff (daysBeforeMonth t.year) (daysInMonth t.year) (fun _ ↦ le_refl _) s.month t.month
    (by omega) (by omega)]
  omega

theorem dayNumber_eq_iff : s.dayNumber = t.dayNumber ↔
    s.year = t.year ∧ s.month = t.month ∧ s.day = t.day := by
  refine (place_eq_iff daysBeforeYear daysInYear (fun _ ↦ le_refl _) s.year t.year s.dayOfYear_lt
    t.dayOfYear_lt).trans (and_congr_right fun hyear ↦ ?_)
  have hs := s.day_mem
  have ht := t.day_mem
  unfold Timestamp.dayOfYear
  rw [hyear] at hs ⊢
  rw [place_eq_iff (daysBeforeMonth t.year) (daysInMonth t.year) (fun _ ↦ le_refl _) s.month t.month
    (by omega) (by omega)]
  omega

theorem second_lt_iff (h : SameFormat s t) :
    (s.second : ℚ) + (s.fraction : ℚ) / 10 ^ s.fractionDigits <
      (t.second : ℚ) + (t.fraction : ℚ) / 10 ^ t.fractionDigits ↔
    s.second < t.second ∨ s.second = t.second ∧ s.fraction < t.fraction := by
  have hs := s.fraction_lt
  have ht := t.fraction_lt
  rw [h.fractionDigits] at hs ⊢
  have hpos : (0 : ℚ) < 10 ^ t.fractionDigits := by positivity
  rw [← place_lt_iff (10 ^ t.fractionDigits * ·) (fun _ ↦ 10 ^ t.fractionDigits)
    (fun _ ↦ le_refl _) s.second t.second hs ht, ← mul_lt_mul_iff_right₀ hpos, mul_add, mul_add,
    mul_div_cancel₀ _ hpos.ne', mul_div_cancel₀ _ hpos.ne']
  exact_mod_cast Iff.rfl

/-- Instants of one format are compared as the clocks are. -/
theorem instant_lt_iff_clockBefore (h : SameFormat s t) :
    s.instant < t.instant ↔ ClockBefore s t := by
  have hhour := place_lt_iff (24 * ·) (fun _ ↦ 24) (fun _ ↦ le_refl _) s.dayNumber t.dayNumber
    s.hour_lt t.hour_lt
  have hhourEq := place_eq_iff (24 * ·) (fun _ ↦ 24) (fun _ ↦ le_refl _) s.dayNumber t.dayNumber
    s.hour_lt t.hour_lt
  have hminute := place_lt_iff (60 * ·) (fun _ ↦ 60) (fun _ ↦ le_refl _)
    (24 * s.dayNumber + s.hour) (24 * t.dayNumber + t.hour) s.minute_lt t.minute_lt
  have hminuteEq := place_eq_iff (60 * ·) (fun _ ↦ 60) (fun _ ↦ le_refl _)
    (24 * s.dayNumber + s.hour) (24 * t.dayNumber + t.hour) s.minute_lt t.minute_lt
  unfold Timestamp.instant
  rw [Prod.Lex.toLex_lt_toLex, h.second_lt_iff, h.offset, sub_lt_sub_iff_right, sub_left_inj,
    Nat.cast_lt, Nat.cast_inj]
  unfold Timestamp.clockMinute ClockBefore
  rw [hminute, hminuteEq, hhour, hhourEq, dayNumber_lt_iff, dayNumber_eq_iff]
  simp only [and_or_left, or_assoc, and_assoc]

/-- Timestamps of one format are in the order of their texts. -/
theorem text_lt_iff (h : SameFormat s t) : s.text < t.text ↔ s.instant < t.instant :=
  h.text_lt_iff_clockBefore.trans h.instant_lt_iff_clockBefore.symm

end SameFormat

end MaRuntime.Timestamps
