import Mathlib.Algebra.Group.Int.Defs
import Mathlib.Data.List.Basic
import Mathlib.Tactic.SplitIfs

/-!
# Reading requests

What a reader of requests builds on: the values of a CBOR document with a codec for their bytes;
texts that are cut at a character (`splitOnce`, `nonemptyParts`) or taken behind a given beginning
(`stripPrefix`); and a chain of steps each of which may fail. `splitOnce_eq_some_iff`,
`stripPrefix_eq_some_iff` and `bind_eq_ok` say what a success means.
-/

set_option autoImplicit false
set_option relaxedAutoImplicit false

namespace MaRuntime

/-! ### CBOR values -/

/-- A CBOR value. A float is kept as its text. -/
inductive CborValue
  | integer (value : Int)
  | bytes (content : List UInt8)
  | float (text : String)
  | text (value : String)
  | bool (value : Bool)
  | null
  | tag (number : Nat) (value : CborValue)
  | array (items : List CborValue)
  | map (entries : List (CborValue × CborValue))

/-- A reader and a writer of CBOR values, each of which may fail. -/
structure CborCodec where
  decode : List UInt8 → Option CborValue
  encode : CborValue → Option (List UInt8)

/-! ### Texts -/

/-- The parts of a list before and after the first occurrence of a character. -/
def splitChars (separator : Char) : List Char → Option (List Char × List Char)
  | [] => none
  | c :: rest =>
    if c = separator then some ([], rest)
    else (splitChars separator rest).map fun parts ↦ (c :: parts.1, parts.2)

/-- The parts of a text before and after the first occurrence of a character. -/
def splitOnce (separator : Char) (text : String) : Option (String × String) :=
  (splitChars separator text.toList).map fun parts ↦
    (String.ofList parts.1, String.ofList parts.2)

/-- What follows a given beginning of a text. -/
def stripPrefix (beginning text : String) : Option String :=
  if beginning.toList.isPrefixOf text.toList then
    some (String.ofList (text.toList.drop beginning.toList.length))
  else none

theorem splitChars_eq_some_iff {separator : Char} {chars front back : List Char} :
    splitChars separator chars = some (front, back) ↔
      chars = front ++ separator :: back ∧ separator ∉ front := by
  induction chars generalizing front with
  | nil => simp [splitChars]
  | cons c rest ih =>
    by_cases hc : c = separator
    · subst hc
      cases front with
      | nil => simp [splitChars]
      | cons head front =>
        simp only [splitChars, if_true, Option.some.injEq, Prod.mk.injEq, List.cons_append,
          List.cons.injEq, List.mem_cons, not_or]
        constructor
        · rintro ⟨h, -⟩
          cases h
        · rintro ⟨⟨rfl, -⟩, h, -⟩
          exact absurd rfl h
    · cases front with
      | nil => simp [splitChars, hc]
      | cons head front =>
        simp only [splitChars, if_neg hc, Option.map_eq_some_iff, Prod.exists, Prod.mk.injEq,
          List.cons_append, List.cons.injEq, List.mem_cons, not_or]
        constructor
        · rintro ⟨first, second, h, ⟨rfl, rfl⟩, rfl⟩
          obtain ⟨hrest, hfront⟩ := ih.mp h
          exact ⟨⟨rfl, hrest⟩, Ne.symm hc, hfront⟩
        · rintro ⟨⟨rfl, hrest⟩, -, hfront⟩
          exact ⟨front, back, ih.mpr ⟨hrest, hfront⟩, ⟨rfl, rfl⟩, rfl⟩

theorem splitOnce_eq_some_iff {separator : Char} {text front back : String} :
    splitOnce separator text = some (front, back) ↔
      text.toList = front.toList ++ separator :: back.toList ∧ separator ∉ front.toList := by
  rw [← splitChars_eq_some_iff]
  unfold splitOnce
  constructor
  · intro h
    obtain ⟨⟨first, second⟩, hsplit, hparts⟩ := Option.map_eq_some_iff.mp h
    obtain ⟨rfl, rfl⟩ := Prod.mk.inj hparts
    simpa using hsplit
  · intro h
    simp [h]

theorem splitOnce_eq_none_iff {separator : Char} {text : String} :
    splitOnce separator text = none ↔ separator ∉ text.toList := by
  constructor
  · intro hnone hmem
    obtain ⟨front, back, htext, hfront⟩ := List.eq_append_cons_of_mem hmem
    have hsome : splitOnce separator text = some (String.ofList front, String.ofList back) :=
      splitOnce_eq_some_iff.mpr (by simpa using ⟨htext, hfront⟩)
    rw [hnone] at hsome
    cases hsome
  · intro hmem
    cases hsplit : splitOnce separator text with
    | none => rfl
    | some parts =>
      obtain ⟨htext, -⟩ := splitOnce_eq_some_iff.mp hsplit
      exact absurd (htext ▸ List.mem_append_right _ List.mem_cons_self) hmem

theorem stripPrefix_eq_some_iff {beginning text rest : String} :
    stripPrefix beginning text = some rest ↔ text = beginning ++ rest := by
  unfold stripPrefix
  constructor
  · intro h
    split_ifs at h with hbeginning
    obtain ⟨tail, htail⟩ := List.isPrefixOf_iff_prefix.mp hbeginning
    obtain rfl := Option.some.inj h
    rw [← String.toList_inj, String.toList_append, String.toList_ofList, ← htail,
      List.drop_left]
  · rintro rfl
    rw [String.toList_append, if_pos (List.isPrefixOf_iff_prefix.mpr (List.prefix_append _ _)),
      List.drop_left, String.ofList_toList]

/-- The parts of a text between the occurrences of a character, without the empty ones. -/
def nonemptyParts (separator : Char) (text : String) : List String :=
  ((text.toList.splitOn separator).map String.ofList).filter (· ≠ "")

theorem not_mem_of_mem_splitOn {separator : Char} {part chars : List Char}
    (h : part ∈ chars.splitOn separator) : separator ∉ part := by
  induction chars generalizing part with
  | nil =>
    rw [List.splitOn_nil, List.mem_singleton] at h
    simp [h]
  | cons c rest ih =>
    rw [List.splitOn_cons_eq_if_modifyHead] at h
    split_ifs at h with hc
    · rcases List.mem_cons.mp h with rfl | hrest
      · simp
      · exact ih hrest
    · cases hparts : rest.splitOn separator with
      | nil => exact absurd hparts (List.splitOn_ne_nil separator rest)
      | cons first others =>
        rw [hparts, List.modifyHead_cons] at h
        rcases List.mem_cons.mp h with rfl | hother
        · rw [List.mem_cons, not_or]
          exact ⟨fun heq ↦ hc (beq_iff_eq.mpr heq.symm), ih (hparts ▸ List.mem_cons_self)⟩
        · exact ih (hparts ▸ List.mem_cons_of_mem first hother)

theorem of_mem_nonemptyParts {separator : Char} {part text : String}
    (h : part ∈ nonemptyParts separator text) : part ≠ "" ∧ separator ∉ part.toList := by
  obtain ⟨hpart, hne⟩ := List.mem_filter.mp h
  obtain ⟨chars, hchars, rfl⟩ := List.mem_map.mp hpart
  rw [String.toList_ofList]
  exact ⟨of_decide_eq_true hne, not_mem_of_mem_splitOn hchars⟩

theorem nonemptyParts_eq_singleton_iff {separator : Char} {text : String} :
    nonemptyParts separator text = [text] ↔ text ≠ "" ∧ separator ∉ text.toList := by
  constructor
  · intro h
    exact of_mem_nonemptyParts (h ▸ List.mem_singleton_self text)
  · rintro ⟨hne, hmem⟩
    simp [nonemptyParts, List.splitOn_eq_singleton hmem, hne]

/-- A text that is cut has the part before the cut, if it is not empty, and those behind it. -/
theorem nonemptyParts_of_splitOnce {separator : Char} {text front back : String}
    (h : splitOnce separator text = some (front, back)) :
    nonemptyParts separator text =
      [front].filter (· ≠ "") ++ nonemptyParts separator back := by
  obtain ⟨htext, hfront⟩ := splitOnce_eq_some_iff.mp h
  unfold nonemptyParts
  rw [htext, List.splitOn_append_cons_self_of_not_mem hfront, List.map_cons, String.ofList_toList,
    ← List.filter_append]
  rfl

/-! ### Steps that may fail -/

theorem bind_eq_ok {Reason Value Result : Type} {value : Except Reason Value}
    {next : Value → Except Reason Result} {result : Result} (h : value >>= next = .ok result) :
    ∃ found, value = .ok found ∧ next found = .ok result := by
  cases value with
  | error reason => cases h
  | ok found => exact ⟨found, rfl, h⟩

theorem map_eq_ok {Reason Value Result : Type} {value : Except Reason Value} {f : Value → Result}
    {result : Result} (h : value.map f = .ok result) :
    ∃ found, value = .ok found ∧ f found = result := by
  cases value with
  | error reason => cases h
  | ok found => exact ⟨found, rfl, Except.ok.inj h⟩

theorem toOption_eq_some {Reason Value : Type} {value : Except Reason Value} {found : Value} :
    value.toOption = some found ↔ value = .ok found := by
  cases value with
  | error reason => simp [Except.toOption]
  | ok other => simp [Except.toOption]

end MaRuntime
