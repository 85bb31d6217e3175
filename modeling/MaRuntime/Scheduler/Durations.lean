import Mathlib.Algebra.GroupWithZero.Nat
import MaRuntime.Scheduler.Request

/-!
# Durations

A duration is a text such as `1h30m`: numbers, each with a unit, whose seconds are added. The parser
computes with `u64` and does not look whether a product or a sum fits. It is exact as long as no
part of the text from its beginning, made of whole items, comes to `2 ^ 64` seconds or more
(`parseDuration_exact_iff`). Behind such a part the sum has wrapped, so that a text may be read as
a duration of another length, or be refused as one of length zero.

A number of `2 ^ 64` or more is refused before anything is computed with it, so only items with
smaller numbers count.

Main definitions: `DurationItem`, `overflows`, `ExactDuration`, `PrefixesFit`, `ReadsAs`.
Main results: `parseDurationFrom_ok_iff`, `overflowsFrom_eq_false_iff`, `parseDuration_exact_iff`.
-/

set_option autoImplicit false
set_option relaxedAutoImplicit false

namespace MaRuntime.Scheduler

/-! ### Items -/

/-- The number that some decimal digits stand for. -/
def decimal (digits : List Char) : Nat :=
  digits.foldl (fun n c ↦ 10 * n + (c.toNat - '0'.toNat)) 0

/-- The seconds of a unit. -/
def unitFactor (unit : Char) : Option Nat :=
  match unit with
  | 's' => some 1
  | 'm' => some 60
  | 'h' => some 3600
  | 'd' => some 86400
  | _ => none

/-- A number with a unit. -/
structure DurationItem where
  digits : List Char
  unit : Char

namespace DurationItem

structure Valid (item : DurationItem) : Prop where
  ne_nil : item.digits ≠ []
  isDigit : ∀ c ∈ item.digits, c.isDigit = true
  unit : (unitFactor item.unit).isSome = true

def number (item : DurationItem) : Nat := decimal item.digits

def secs (item : DurationItem) : Nat := item.number * (unitFactor item.unit).getD 0

def chars (item : DurationItem) : List Char := item.digits ++ [item.unit]

end DurationItem

/-- The exact seconds of some items. -/
def itemsSecs (items : List DurationItem) : Nat := (items.map DurationItem.secs).sum

def concatenation (items : List DurationItem) : List Char := items.flatMap DurationItem.chars

@[simp] theorem itemsSecs_nil : itemsSecs [] = 0 := rfl

@[simp] theorem itemsSecs_cons (item : DurationItem) (items : List DurationItem) :
    itemsSecs (item :: items) = item.secs + itemsSecs items := rfl

@[simp] theorem concatenation_nil : concatenation [] = [] := rfl

@[simp] theorem concatenation_cons (item : DurationItem) (items : List DurationItem) :
    concatenation (item :: items) = item.digits ++ item.unit :: concatenation items := by
  simp [concatenation, DurationItem.chars]

/-! ### Overflows -/

/-- Whether a product or a sum does not fit in a `u64` in the loop of `parse_duration`. -/
def overflowsFrom (totalSecs : UInt64) (numBuf : List Char) : List Char → Bool
  | [] => false
  | ch :: rest =>
    if ch.isDigit then overflowsFrom totalSecs (numBuf ++ [ch]) rest
    else
      match parseU64 numBuf, unitFactor ch with
      | some n, some factor =>
        decide (UInt64.size ≤ n.toNat * factor) ||
          decide (UInt64.size ≤ totalSecs.toNat + n.toNat * factor) ||
          overflowsFrom (totalSecs + n * .ofNat factor) [] rest
      | _, _ => false

def overflows (s : String) : Bool := overflowsFrom 0 [] s.toList

/-- `parse_duration` reads exactly the texts of items whose seconds are positive and fit in a `u64`,
as a duration of so many seconds, and nothing overflows. -/
structure ExactDuration (debug : DebugFormat) (s : String) : Prop where
  fits : overflows s = false
  ok_iff : ∀ d, parseDuration debug s = .ok d ↔
    ∃ items, items ≠ [] ∧ (∀ item ∈ items, item.Valid) ∧ s.toList = concatenation items ∧
      0 < itemsSecs items ∧ itemsSecs items < 2 ^ 64 ∧ d.toNat = itemsSecs items

section Loop

variable {debug : DebugFormat} {s : String} {totalSecs n : UInt64} {numBuf chars rest : List Char}
  {ch : Char} {item : DurationItem} {items : List DurationItem} {factor : Nat}

theorem unitSecs_eq (unit : Char) (n : UInt64) :
    unitSecs unit n = (unitFactor unit).map fun factor ↦ n * .ofNat factor := by
  unfold unitSecs unitFactor
  split
  · simp
  · rfl
  · rfl
  · rfl
  · simp

theorem of_unitFactor (h : unitFactor ch = some factor) :
    ch.isDigit = false ∧ 0 < factor ∧ factor < UInt64.size := by
  unfold unitFactor at h
  split at h
  · obtain rfl := Option.some.inj h
    decide
  · obtain rfl := Option.some.inj h
    decide
  · obtain rfl := Option.some.inj h
    decide
  · obtain rfl := Option.some.inj h
    decide
  · cases h

theorem DurationItem.Valid.exists_factor (h : item.Valid) :
    ∃ factor, unitFactor item.unit = some factor ∧ item.secs = item.number * factor := by
  obtain ⟨factor, hfactor⟩ := Option.isSome_iff_exists.mp h.unit
  exact ⟨factor, hfactor, by rw [DurationItem.secs, hfactor, Option.getD_some]⟩

theorem DurationItem.Valid.number_le_secs (h : item.Valid) : item.number ≤ item.secs := by
  obtain ⟨factor, hfactor, hsecs⟩ := h.exists_factor
  rw [hsecs]
  exact Nat.le_mul_of_pos_right _ (of_unitFactor hfactor).2.1

theorem DurationItem.Valid.parseU64 (h : item.Valid) (hnumber : item.number < UInt64.size) :
    parseU64 item.digits = some (.ofNat item.number) :=
  if_neg (not_or.mpr ⟨h.ne_nil, Nat.not_le.mpr hnumber⟩)

theorem toNat_of_parseU64 (h : parseU64 numBuf = some n) :
    numBuf ≠ [] ∧ decimal numBuf = n.toNat := by
  unfold parseU64 at h
  dsimp only at h
  split_ifs at h with hbad
  obtain ⟨hne, hlt⟩ := not_or.mp hbad
  obtain rfl := Option.some.inj h
  exact ⟨hne, (UInt64.toNat_ofNat_of_lt' (Nat.not_le.mp hlt)).symm⟩

/-- Digits and what stops them are read off a text in one way. -/
theorem digits_append_inj {digits digits' back back' : List Char} {stop stop' : Char}
    (hdigits : ∀ c ∈ digits, c.isDigit = true) (hdigits' : ∀ c ∈ digits', c.isDigit = true)
    (hstop : stop.isDigit = false) (hstop' : stop'.isDigit = false)
    (h : digits ++ stop :: back = digits' ++ stop' :: back') :
    digits = digits' ∧ stop = stop' ∧ back = back' := by
  induction digits generalizing digits' with
  | nil =>
    cases digits' with
    | nil =>
      obtain ⟨rfl, rfl⟩ := List.cons.inj h
      exact ⟨rfl, rfl, rfl⟩
    | cons c rest' =>
      obtain ⟨rfl, -⟩ := List.cons.inj h
      rw [hdigits' stop List.mem_cons_self] at hstop
      cases hstop
  | cons c rest ih =>
    cases digits' with
    | nil =>
      obtain ⟨rfl, -⟩ := List.cons.inj h
      rw [hdigits c List.mem_cons_self] at hstop'
      cases hstop'
    | cons c' rest' =>
      obtain ⟨rfl, hrest⟩ := List.cons.inj h
      obtain ⟨rfl, rfl, rfl⟩ := ih (fun d hd ↦ hdigits d (List.mem_cons_of_mem c hd))
        (fun d hd ↦ hdigits' d (List.mem_cons_of_mem c hd)) hrest
      exact ⟨rfl, rfl, rfl⟩

/-- The first item of a text of which some digits and a unit are read. -/
theorem DurationItem.Valid.of_append (h : item.Valid)
    (hdigits : ∀ c ∈ numBuf, c.isDigit = true) (hch : ch.isDigit = false) {tail : List Char}
    (heq : item.digits ++ item.unit :: tail = numBuf ++ ch :: rest) :
    item.digits = numBuf ∧ item.unit = ch ∧ tail = rest := by
  obtain ⟨factor, hfactor, -⟩ := h.exists_factor
  exact digits_append_inj h.isDigit hdigits (of_unitFactor hfactor).1 hch heq

/-- The first of some items with which a text begins. -/
theorem DurationItem.Valid.of_prefix (h : item.Valid)
    (hdigits : ∀ c ∈ numBuf, c.isDigit = true) (hch : ch.isDigit = false)
    (hbegins : concatenation (item :: items) <+: numBuf ++ ch :: rest) :
    item.digits = numBuf ∧ item.unit = ch ∧ concatenation items <+: rest := by
  obtain ⟨back, hback⟩ := hbegins
  rw [concatenation_cons, List.append_assoc, List.cons_append] at hback
  obtain ⟨hnumBuf, hunit, hrest⟩ := h.of_append hdigits hch hback
  exact ⟨hnumBuf, hunit, back, hrest⟩

/-- There is no item in a text of digits alone. -/
theorem DurationItem.Valid.not_append (h : item.Valid) (hdigits : ∀ c ∈ numBuf, c.isDigit = true)
    {tail : List Char} : item.digits ++ item.unit :: tail ≠ numBuf := by
  rintro rfl
  obtain ⟨factor, hfactor, -⟩ := h.exists_factor
  have hdigit := hdigits item.unit (List.mem_append_right _ List.mem_cons_self)
  rw [(of_unitFactor hfactor).1] at hdigit
  cases hdigit

theorem toNat_mul_ofNat (hfactor : factor < UInt64.size) (h : n.toNat * factor < UInt64.size) :
    (n * .ofNat factor).toNat = n.toNat * factor := by
  rw [UInt64.toNat_mul, UInt64.toNat_ofNat_of_lt' hfactor]
  exact Nat.mod_eq_of_lt h

theorem toNat_add_mul (hfactor : factor < UInt64.size)
    (h : totalSecs.toNat + n.toNat * factor < UInt64.size) :
    (totalSecs + n * .ofNat factor).toNat = totalSecs.toNat + n.toNat * factor := by
  have hproduct : n.toNat * factor < UInt64.size := Nat.lt_of_le_of_lt (Nat.le_add_left _ _) h
  rw [UInt64.toNat_add, toNat_mul_ofNat hfactor hproduct]
  exact Nat.mod_eq_of_lt h

/-- The item that the digits and a unit make. -/
theorem valid_of_parseU64 (hdigits : ∀ c ∈ numBuf, c.isDigit = true) (hn : parseU64 numBuf = some n)
    (hfactor : unitFactor ch = some factor) :
    DurationItem.Valid ⟨numBuf, ch⟩ ∧ DurationItem.number ⟨numBuf, ch⟩ = n.toNat ∧
      DurationItem.secs ⟨numBuf, ch⟩ = n.toNat * factor := by
  obtain ⟨hne, hdecimal⟩ := toNat_of_parseU64 hn
  refine ⟨⟨hne, hdigits, Option.isSome_of_eq_some hfactor⟩, hdecimal, ?_⟩
  rw [DurationItem.secs, DurationItem.number, hdecimal, hfactor, Option.getD_some]

theorem isDigit_append_singleton (hdigits : ∀ c ∈ numBuf, c.isDigit = true)
    (hch : ch.isDigit = true) : ∀ c ∈ numBuf ++ [ch], c.isDigit = true :=
  List.forall_mem_append.mpr ⟨hdigits, List.forall_mem_singleton.mpr hch⟩

/-- One item of the loop, where its number and its unit are read. -/
theorem overflowsFrom_cons_eq_false_iff (hch : ch.isDigit = false)
    (hn : parseU64 numBuf = some n) (hfactor : unitFactor ch = some factor) :
    overflowsFrom totalSecs numBuf (ch :: rest) = false ↔
      totalSecs.toNat + n.toNat * factor < UInt64.size ∧
        overflowsFrom (totalSecs + n * .ofNat factor) [] rest = false := by
  simp only [overflowsFrom, hch, Bool.false_eq_true, if_false, hn, hfactor, Bool.or_eq_false_iff,
    decide_eq_false_iff_not, Nat.not_le]
  constructor
  · rintro ⟨⟨-, hsum⟩, hrest⟩
    exact ⟨hsum, hrest⟩
  · rintro ⟨hsum, hrest⟩
    exact ⟨⟨Nat.lt_of_le_of_lt (Nat.le_add_left _ _) hsum, hsum⟩, hrest⟩

/-! ### The items that a text begins with -/

/-- No items that a text begins with come to too many seconds, together with those before it; only
numbers that fit in a `u64` count. -/
def PrefixesFit (before : Nat) (chars : List Char) : Prop :=
  ∀ items : List DurationItem, (∀ item ∈ items, item.Valid ∧ item.number < UInt64.size) →
    concatenation items <+: chars → before + itemsSecs items < UInt64.size

/-- A text that does not begin with an item. -/
theorem prefixesFit_of_no_item {before : Nat} (hbefore : before < UInt64.size)
    (h : ∀ item more, item.Valid → item.number < UInt64.size →
      ¬concatenation (item :: more) <+: chars) : PrefixesFit before chars := by
  intro items hitems hbegins
  cases items with
  | nil => exact hbefore
  | cons item more =>
    obtain ⟨hvalid, hnumber⟩ := hitems item List.mem_cons_self
    exact absurd hbegins (h item more hvalid hnumber)

/-- A text that begins with an item. -/
theorem prefixesFit_append_cons {before : Nat} (hdigits : ∀ c ∈ numBuf, c.isDigit = true)
    (hn : parseU64 numBuf = some n) (hfactor : unitFactor ch = some factor) :
    PrefixesFit before (numBuf ++ ch :: rest) ↔
      before + n.toNat * factor < UInt64.size ∧ PrefixesFit (before + n.toNat * factor) rest := by
  obtain ⟨hvalid, hnumber, hsecs⟩ := valid_of_parseU64 hdigits hn hfactor
  have hitem : DurationItem.Valid ⟨numBuf, ch⟩ ∧ DurationItem.number ⟨numBuf, ch⟩ < UInt64.size :=
    ⟨hvalid, hnumber ▸ n.toNat_lt⟩
  constructor
  · intro hall
    have hsum : before + n.toNat * factor < UInt64.size := by
      have hone := hall [⟨numBuf, ch⟩] (List.forall_mem_singleton.mpr hitem) ⟨rest, by simp⟩
      rwa [itemsSecs_cons, itemsSecs_nil, Nat.add_zero, hsecs] at hone
    refine ⟨hsum, fun items hitems hbegins ↦ ?_⟩
    obtain ⟨back, rfl⟩ := hbegins
    have hmore := hall (⟨numBuf, ch⟩ :: items) (List.forall_mem_cons.mpr ⟨hitem, hitems⟩)
      ⟨back, by simp⟩
    rwa [itemsSecs_cons, hsecs, ← Nat.add_assoc] at hmore
  · rintro ⟨hsum, hrest⟩ items hitems hbegins
    cases items with
    | nil => exact Nat.lt_of_le_of_lt (Nat.le_add_right _ _) hsum
    | cons item more =>
      obtain ⟨⟨hfirst, -⟩, hlater⟩ := List.forall_mem_cons.mp hitems
      obtain ⟨rfl, rfl, hmore⟩ := hfirst.of_prefix hdigits (of_unitFactor hfactor).1 hbegins
      rw [itemsSecs_cons, hsecs, ← Nat.add_assoc]
      exact hrest more hlater hmore

/-- Nothing overflows exactly when the items that the text begins with fit. -/
theorem overflowsFrom_eq_false_iff (hdigits : ∀ c ∈ numBuf, c.isDigit = true) :
    overflowsFrom totalSecs numBuf chars = false ↔
      PrefixesFit totalSecs.toNat (numBuf ++ chars) := by
  induction chars generalizing totalSecs numBuf with
  | nil =>
    refine iff_of_true rfl (prefixesFit_of_no_item totalSecs.toNat_lt ?_)
    rintro item more hvalid - ⟨back, hback⟩
    rw [concatenation_cons, List.append_assoc, List.cons_append, List.append_nil] at hback
    exact hvalid.not_append hdigits hback
  | cons ch rest ih =>
    cases hch : ch.isDigit with
    | true =>
      have hstep : overflowsFrom totalSecs numBuf (ch :: rest) =
          overflowsFrom totalSecs (numBuf ++ [ch]) rest := by
        simp only [overflowsFrom, hch, if_true]
      rw [hstep, ih (isDigit_append_singleton hdigits hch), List.append_assoc,
        List.singleton_append]
    | false =>
      cases hn : parseU64 numBuf with
      | none =>
        refine iff_of_true (by simp [overflowsFrom, hch, hn])
          (prefixesFit_of_no_item totalSecs.toNat_lt fun item more hvalid hnumber hbegins ↦ ?_)
        obtain ⟨rfl, -, -⟩ := hvalid.of_prefix hdigits hch hbegins
        cases hn.symm.trans (hvalid.parseU64 hnumber)
      | some n =>
        cases hfactor : unitFactor ch with
        | none =>
          refine iff_of_true (by simp [overflowsFrom, hch, hn, hfactor])
            (prefixesFit_of_no_item totalSecs.toNat_lt fun item more hvalid hnumber hbegins ↦ ?_)
          obtain ⟨-, rfl, -⟩ := hvalid.of_prefix hdigits hch hbegins
          obtain ⟨factor, hsome, -⟩ := hvalid.exists_factor
          cases hfactor.symm.trans hsome
        | some factor =>
          rw [overflowsFrom_cons_eq_false_iff hch hn hfactor,
            prefixesFit_append_cons hdigits hn hfactor]
          refine and_congr_right fun hsum ↦ ?_
          rw [ih (List.forall_mem_nil _), toNat_add_mul (of_unitFactor hfactor).2.2 hsum]
          rfl

/-! ### The duration of a text -/

/-- A text is one of items which, together with those before it, come to a duration. -/
def ReadsAs (before : Nat) (chars : List Char) (secs : Nat) : Prop :=
  ∃ items : List DurationItem, (∀ item ∈ items, item.Valid) ∧ chars = concatenation items ∧
    0 < before + itemsSecs items ∧ before + itemsSecs items < UInt64.size ∧
    secs = before + itemsSecs items

/-- A text of which some digits and a unit are read begins with the item that they make, if it is
one of items. -/
theorem exists_item_of_append (hdigits : ∀ c ∈ numBuf, c.isDigit = true) (hch : ch.isDigit = false)
    (hvalid : ∀ item ∈ items, item.Valid) (heq : numBuf ++ ch :: rest = concatenation items) :
    ∃ item more, items = item :: more ∧ item.Valid ∧ item.digits = numBuf ∧ item.unit = ch ∧
      rest = concatenation more := by
  cases items with
  | nil => simp at heq
  | cons item more =>
    have hitem := hvalid item List.mem_cons_self
    rw [concatenation_cons] at heq
    obtain ⟨hnumBuf, hunit, hrest⟩ := hitem.of_append hdigits hch heq.symm
    exact ⟨item, more, rfl, hitem, hnumBuf, hunit, hrest.symm⟩

/-- Digits alone are a text of items only when there are none. -/
theorem readsAs_digits_iff {before secs : Nat} (hdigits : ∀ c ∈ numBuf, c.isDigit = true)
    (hbefore : before < UInt64.size) :
    ReadsAs before numBuf secs ↔ numBuf = [] ∧ 0 < before ∧ secs = before := by
  constructor
  · rintro ⟨items, hvalid, heq, hpos, -, hsecs⟩
    cases items with
    | nil => exact ⟨heq, hpos, hsecs⟩
    | cons item more =>
      rw [concatenation_cons] at heq
      exact absurd heq.symm ((hvalid item List.mem_cons_self).not_append hdigits)
  · rintro ⟨rfl, hpos, hsecs⟩
    exact ⟨[], List.forall_mem_nil _, rfl, hpos, hbefore, hsecs⟩

/-- A text of items that begins with an item. -/
theorem readsAs_append_cons {before secs : Nat} (hdigits : ∀ c ∈ numBuf, c.isDigit = true)
    (hn : parseU64 numBuf = some n) (hfactor : unitFactor ch = some factor) :
    ReadsAs before (numBuf ++ ch :: rest) secs ↔ ReadsAs (before + n.toNat * factor) rest secs := by
  obtain ⟨hvalid, -, hsecs⟩ := valid_of_parseU64 hdigits hn hfactor
  constructor
  · rintro ⟨items, hitems, heq, hbounds⟩
    obtain ⟨item, more, rfl, -, rfl, rfl, hmore⟩ :=
      exists_item_of_append hdigits (of_unitFactor hfactor).1 hitems heq
    rw [itemsSecs_cons, hsecs, ← Nat.add_assoc] at hbounds
    exact ⟨more, (List.forall_mem_cons.mp hitems).2, hmore, hbounds⟩
  · rintro ⟨items, hitems, rfl, hbounds⟩
    refine ⟨⟨numBuf, ch⟩ :: items, List.forall_mem_cons.mpr ⟨hvalid, hitems⟩, ?_, ?_⟩
    · rw [concatenation_cons]
    rw [itemsSecs_cons, hsecs, ← Nat.add_assoc]
    exact hbounds

/-- What the loop reads at its end. -/
theorem parseDurationFrom_nil_ok_iff (d : UInt64) :
    parseDurationFrom debug s totalSecs numBuf [] = .ok d ↔
      numBuf = [] ∧ 0 < totalSecs.toNat ∧ d.toNat = totalSecs.toNat := by
  unfold parseDurationFrom
  split_ifs with hnumBuf hzero
  · exact iff_of_false (by simp) fun h ↦ hnumBuf h.1
  · refine iff_of_false (by simp) ?_
    rintro ⟨-, hpos, -⟩
    rw [hzero] at hpos
    exact absurd hpos (by decide)
  · rw [ne_eq, not_not] at hnumBuf
    have hpos : 0 < totalSecs.toNat :=
      Nat.pos_of_ne_zero fun hnat ↦ hzero (UInt64.toNat_inj.mp hnat)
    rw [Except.ok.injEq, ← UInt64.toNat_inj, eq_comm]
    exact ⟨fun h ↦ ⟨hnumBuf, hpos, h⟩, fun h ↦ h.2.2⟩

/-- What the loop reads where nothing overflows. -/
theorem parseDurationFrom_ok_iff (hdigits : ∀ c ∈ numBuf, c.isDigit = true)
    (hfits : overflowsFrom totalSecs numBuf chars = false) (d : UInt64) :
    parseDurationFrom debug s totalSecs numBuf chars = .ok d ↔
      ReadsAs totalSecs.toNat (numBuf ++ chars) d.toNat := by
  induction chars generalizing totalSecs numBuf with
  | nil =>
    rw [List.append_nil, readsAs_digits_iff hdigits totalSecs.toNat_lt]
    exact parseDurationFrom_nil_ok_iff d
  | cons ch rest ih =>
    cases hch : ch.isDigit with
    | true =>
      have hfits' : overflowsFrom totalSecs (numBuf ++ [ch]) rest = false := by
        simpa only [overflowsFrom, hch, if_true] using hfits
      have hstep : parseDurationFrom debug s totalSecs numBuf (ch :: rest) =
          parseDurationFrom debug s totalSecs (numBuf ++ [ch]) rest := by
        simp only [parseDurationFrom, hch, if_true]
      rw [hstep, ih (isDigit_append_singleton hdigits hch) hfits', List.append_assoc,
        List.singleton_append]
    | false =>
      cases hn : parseU64 numBuf with
      | none =>
        refine iff_of_false (by simp [parseDurationFrom, hch, hn]) ?_
        rintro ⟨items, hvalid, heq, -, hlt, -⟩
        obtain ⟨item, more, rfl, hitem, rfl, -, -⟩ :=
          exists_item_of_append hdigits hch hvalid heq
        -- a number that is refused would make the sum too large
        have hnumber : item.number < UInt64.size := by
          refine Nat.lt_of_le_of_lt (hitem.number_le_secs.trans ?_) hlt
          rw [itemsSecs_cons]
          exact (Nat.le_add_right _ _).trans (Nat.le_add_left _ _)
        cases hn.symm.trans (hitem.parseU64 hnumber)
      | some n =>
        cases hfactor : unitFactor ch with
        | none =>
          refine iff_of_false (by simp [parseDurationFrom, hch, hn, unitSecs_eq, hfactor]) ?_
          rintro ⟨items, hvalid, heq, -⟩
          obtain ⟨item, more, -, hitem, -, rfl, -⟩ := exists_item_of_append hdigits hch hvalid heq
          obtain ⟨factor, hsome, -⟩ := hitem.exists_factor
          cases hfactor.symm.trans hsome
        | some factor =>
          obtain ⟨hsum, hrest⟩ := (overflowsFrom_cons_eq_false_iff hch hn hfactor).mp hfits
          have hstep : parseDurationFrom debug s totalSecs numBuf (ch :: rest) =
              parseDurationFrom debug s (totalSecs + n * .ofNat factor) [] rest := by
            simp [parseDurationFrom, hch, hn, unitSecs_eq, hfactor]
          rw [hstep, ih (List.forall_mem_nil _) hrest,
            toNat_add_mul (of_unitFactor hfactor).2.2 hsum, readsAs_append_cons hdigits hn hfactor]
          rfl

end Loop

/-- `parse_duration` is exact for a text if and only if no items that it begins with, each with a
number that fits in a `u64`, come to `2 ^ 64` seconds or more. -/
theorem parseDuration_exact_iff {debug : DebugFormat} {s : String} :
    ExactDuration debug s ↔
      ∀ items : List DurationItem, (∀ item ∈ items, item.Valid ∧ item.number < 2 ^ 64) →
        concatenation items <+: s.toList → itemsSecs items < 2 ^ 64 := by
  have hdigits : ∀ c ∈ ([] : List Char), c.isDigit = true := List.forall_mem_nil _
  have hfits : overflows s = false ↔
      ∀ items : List DurationItem, (∀ item ∈ items, item.Valid ∧ item.number < 2 ^ 64) →
        concatenation items <+: s.toList → itemsSecs items < 2 ^ 64 := by
    refine (overflowsFrom_eq_false_iff hdigits).trans ?_
    simp only [PrefixesFit, UInt64.toNat_zero, Nat.zero_add, List.nil_append]
    rfl
  rw [← hfits]
  constructor
  · exact ExactDuration.fits
  · intro h
    refine ⟨h, fun d ↦ (parseDurationFrom_ok_iff hdigits h d).trans ?_⟩
    simp only [ReadsAs, UInt64.toNat_zero, Nat.zero_add, List.nil_append]
    constructor
    · rintro ⟨items, hvalid, heq, hpos, hlt, hd⟩
      refine ⟨items, ?_, hvalid, heq, hpos, hlt, hd⟩
      rintro rfl
      exact absurd hpos (by decide)
    · rintro ⟨items, -, hrest⟩
      exact ⟨items, hrest⟩

/-- A product that does not fit is read as a duration of another length. -/
theorem not_exactDuration :
    parseDuration ⟨fun _ ↦ "", id, fun _ ↦ ""⟩ "18446744073709551615m" =
        .ok 18446744073709551556 ∧
      overflows "18446744073709551615m" = true ∧
      ¬ExactDuration ⟨fun _ ↦ "", id, fun _ ↦ ""⟩ "18446744073709551615m" := by
  refine ⟨by decide, by decide, fun h ↦ ?_⟩
  exact absurd h.fits (by decide)

end MaRuntime.Scheduler
