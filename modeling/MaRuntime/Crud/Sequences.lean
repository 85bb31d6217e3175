import Mathlib.Data.Nat.Pairing
import MaRuntime.Library.FirstOccurrences
import MaRuntime.Library.Parsing
import MaRuntime.Library.Yaml

/-!
# Sequences of a setting

`cbor_to_yaml` of `crud/config.rs` makes the YAML value of a setting from the CBOR value of a
request. A sequence is a set there: of the converted elements of an array only the first ones stay,
where elements count as one when they have one text, their key: a text is its own key, the key of
another value is its debug form (`yamlKey`).

Main result: every array that a conversion meets keeps the first of its equal elements exactly when
in every such array no element is taken for another one, and no repetition is overlooked
(`keepsFirst_iff`). A text is taken for a value of another type when it spells the debug form of
that value (`Clash`); a repetition is overlooked when it is a mapping with its entries in another
order, or has one in it. The condition is about the elements as they are with every set exact
(`setForm`).

Scope. The debug form is a parameter: what is known of it is that it tells apart the values that
are no texts, and its words for null and the booleans (`DebugForm`). A float is the text of its
digits.
-/

set_option autoImplicit false
set_option relaxedAutoImplicit false

namespace MaRuntime

namespace Crud

open YamlValue

/-! ### The conversion -/

/-- The lowercase hexadecimal digits of bytes. -/
def hexText (content : List UInt8) : String :=
  String.ofList (content.flatMap fun byte ↦
    [Nat.digitChar (byte.toNat / 16), Nat.digitChar (byte.toNat % 16)])

/-- An integer within the unsigned or the signed 64-bit numbers, and null for any other. -/
def integerToYaml (value : Int) : YamlValue :=
  if -2 ^ 63 ≤ value ∧ value < 2 ^ 64 then .number value else .null

/-- `Mapping::insert`: the entry of a key gets the value where it stands, a new key goes last. -/
def insertEntry (key value : YamlValue) :
    List (YamlValue × YamlValue) → List (YamlValue × YamlValue)
  | [] => [(key, value)]
  | entry :: rest =>
    if entry.1.same key then (entry.1, value) :: rest else entry :: insertEntry key value rest

mutual

/-- `cbor_to_yaml`, with `collect` for what becomes of the converted elements of an array. -/
def yamlWith (collect : List YamlValue → List YamlValue) : CborValue → YamlValue
  | .bool value => .bool value
  | .integer value => integerToYaml value
  | .float text => .float text
  | .text value => .string value
  | .bytes content => .string (hexText content)
  | .array items => .sequence (collect (itemsWith collect items))
  | .map entries => .mapping (entriesWith collect [] entries)
  | .tag _ inner => yamlWith collect inner
  | .null => .null

def itemsWith (collect : List YamlValue → List YamlValue) : List CborValue → List YamlValue
  | [] => []
  | item :: rest => yamlWith collect item :: itemsWith collect rest

/-- The entries with a text for a key, inserted one after the other. -/
def entriesWith (collect : List YamlValue → List YamlValue)
    (mapping : List (YamlValue × YamlValue)) :
    List (CborValue × CborValue) → List (YamlValue × YamlValue)
  | [] => mapping
  | (.text key, value) :: rest =>
    entriesWith collect (insertEntry (.string key) (yamlWith collect value) mapping) rest
  | _ :: rest => entriesWith collect mapping rest

end

/-- The key of a converted element: a text itself, and the debug form of any other value. -/
def yamlKey (debug : YamlValue → String) : YamlValue → String
  | .string text => text
  | other => debug other

/-- `cbor_to_yaml`: of the elements of an array those whose key was not seen. -/
def cborToYaml (debug : YamlValue → String) : CborValue → YamlValue :=
  yamlWith (dropSeen (yamlKey debug) [])

/-- A value with every array as the set it stands for: its elements without those that are equal to
an earlier one. -/
def setForm : CborValue → YamlValue := yamlWith (keepFirst same)

/-- The arrays that the conversion of a value meets. -/
inductive Meets : CborValue → List CborValue → Prop
  | array (items : List CborValue) : Meets (.array items) items
  | item {x : CborValue} {items inner : List CborValue} (hx : x ∈ items) (h : Meets x inner) :
    Meets (.array items) inner
  | entry {key : String} {value : CborValue} {entries : List (CborValue × CborValue)}
    {inner : List CborValue} (hvalue : (.text key, value) ∈ entries) (h : Meets value inner) :
    Meets (.map entries) inner
  | tag {number : Nat} {value : CborValue} {inner : List CborValue} (h : Meets value inner) :
    Meets (.tag number value) inner

theorem itemsWith_eq_map (collect : List YamlValue → List YamlValue) (items : List CborValue) :
    itemsWith collect items = items.map (yamlWith collect) := by
  induction items with
  | nil => rfl
  | cons item rest ih => rw [itemsWith, ih, List.map_cons]

@[simp] theorem yamlWith_array (collect : List YamlValue → List YamlValue)
    (items : List CborValue) :
    yamlWith collect (.array items) = .sequence (collect (items.map (yamlWith collect))) := by
  rw [yamlWith, itemsWith_eq_map]

theorem Meets.trans {value x : CborValue} {items inner : List CborValue}
    (h : Meets value items) (hx : x ∈ items) (hinner : Meets x inner) : Meets value inner := by
  induction h with
  | array => exact .item hx hinner
  | item hmem _ ih => exact .item hmem (ih hx)
  | entry hmem _ ih => exact .entry hmem (ih hx)
  | tag _ ih => exact .tag (ih hx)

/-! ### Two ways to collect

A conversion is settled by what becomes of the elements of the arrays it meets. -/

section Collect

variable {first second : List YamlValue → List YamlValue}

mutual

/-- Two ways to collect that agree on every array a conversion meets give one value. -/
theorem yamlWith_congr : ∀ value : CborValue,
    (∀ items, Meets value items →
      first (items.map (yamlWith second)) = second (items.map (yamlWith second))) →
    yamlWith first value = yamlWith second value
  | .bool _, _ | .integer _, _ | .float _, _ | .text _, _ | .bytes _, _ | .null, _ => by
    simp only [yamlWith]
  | .array items, h => by
    have hitems := itemsWith_congr items fun x hx inner hinner ↦ h inner (.item hx hinner)
    simp only [itemsWith_eq_map] at hitems
    rw [yamlWith_array, yamlWith_array, hitems, h items (.array items)]
  | .map entries, h => by
    have hentries := entriesWith_congr entries [] fun _ _ hvalue inner hinner ↦
      h inner (.entry hvalue hinner)
    rw [yamlWith, yamlWith, hentries]
  | .tag _ inner, h => by
    rw [yamlWith, yamlWith, yamlWith_congr inner fun items hitems ↦ h items (.tag hitems)]

theorem itemsWith_congr : ∀ items : List CborValue,
    (∀ x ∈ items, ∀ inner, Meets x inner →
      first (inner.map (yamlWith second)) = second (inner.map (yamlWith second))) →
    itemsWith first items = itemsWith second items
  | [], _ => rfl
  | item :: rest, h => by
    rw [itemsWith, itemsWith, yamlWith_congr item (h item List.mem_cons_self),
      itemsWith_congr rest fun x hx ↦ h x (List.mem_cons_of_mem _ hx)]

theorem entriesWith_congr : ∀ (entries : List (CborValue × CborValue))
    (mapping : List (YamlValue × YamlValue)),
    (∀ key value, (.text key, value) ∈ entries → ∀ inner, Meets value inner →
      first (inner.map (yamlWith second)) = second (inner.map (yamlWith second))) →
    entriesWith first mapping entries = entriesWith second mapping entries
  | [], _, _ => rfl
  | (.text key, value) :: rest, _, h => by
    rw [entriesWith, entriesWith, yamlWith_congr value (h key value List.mem_cons_self),
      entriesWith_congr rest _ fun k v hv ↦ h k v (List.mem_cons_of_mem _ hv)]
  | (.bool _, _) :: rest, _, h | (.integer _, _) :: rest, _, h | (.float _, _) :: rest, _, h
  | (.bytes _, _) :: rest, _, h | (.array _, _) :: rest, _, h | (.map _, _) :: rest, _, h
  | (.tag _ _, _) :: rest, _, h | (.null, _) :: rest, _, h => by
    simp only [entriesWith]
    exact entriesWith_congr rest _ fun k v hv ↦ h k v (List.mem_cons_of_mem _ hv)

end

/-- The elements of an array that a conversion meets, where two ways to collect agree on every array
it meets. -/
theorem map_yamlWith_congr {value : CborValue} {items : List CborValue}
    (h : ∀ items, Meets value items →
      first (items.map (yamlWith second)) = second (items.map (yamlWith second)))
    (hitems : Meets value items) :
    items.map (yamlWith first) = items.map (yamlWith second) :=
  List.map_congr_left fun x hx ↦
    yamlWith_congr x fun inner hinner ↦ h inner (hitems.trans hx hinner)

/-- Two ways to collect agree on the arrays that one of the conversions meets when they agree on
those of the other. -/
theorem collect_agree_iff (value : CborValue) :
    (∀ items, Meets value items →
      first (items.map (yamlWith first)) = second (items.map (yamlWith first))) ↔
    ∀ items, Meets value items →
      first (items.map (yamlWith second)) = second (items.map (yamlWith second)) := by
  constructor
  · intro h items hitems
    have hmap := map_yamlWith_congr (fun items hitems ↦ (h items hitems).symm) hitems
    rw [hmap, h items hitems]
  · intro h items hitems
    rw [map_yamlWith_congr h hitems, h items hitems]

end Collect

/-! ### The debug form -/

/-- What is known of the debug form of a value: the words for null and for the booleans, and that
it tells apart the values that are no texts. -/
structure DebugForm (debug : YamlValue → String) : Prop where
  null : debug .null = "Null"
  bool : ∀ value, debug (.bool value) = if value then "Bool(true)" else "Bool(false)"
  injective : ∀ {first second : YamlValue}, first.asStr = none → second.asStr = none →
    debug first = debug second → first = second

/-- One of two values is a text, the other is none, and the text is the debug form of the other. -/
def Clash (debug : YamlValue → String) (first second : YamlValue) : Prop :=
  first.asStr = some (debug second) ∧ second.asStr = none ∨
    second.asStr = some (debug first) ∧ first.asStr = none

/-- The keys of the elements of a list do their work: a text that is taken for an earlier value, or
a value that is taken for an earlier text, repeats an earlier element all the same, and a value that
is equal to an earlier one is an earlier one with its entries in their order, or is taken for
one. -/
structure KeysTell (debug : YamlValue → String) (values : List YamlValue) : Prop where
  dropped : ∀ before x after, values = before ++ x :: after →
    (∃ y ∈ before, Clash debug y x) → ∃ y ∈ before, y.same x
  kept : ∀ before x after, values = before ++ x :: after →
    (∃ y ∈ before, y.same x) → ∃ y ∈ before, y = x ∨ Clash debug y x

section Keys

variable {debug : YamlValue → String}

theorem yamlKey_of_asStr_eq_none {value : YamlValue} (h : value.asStr = none) :
    yamlKey debug value = debug value := by
  cases value with
  | string => cases h
  | _ => rfl

/-- Two values have one key when they are one value or clash. -/
theorem yamlKey_eq_iff (hdebug : DebugForm debug) (first second : YamlValue) :
    yamlKey debug first = yamlKey debug second ↔ first = second ∨ Clash debug first second := by
  cases hfirst : first.asStr with
  | none =>
    rw [yamlKey_of_asStr_eq_none hfirst]
    cases hsecond : second.asStr with
    | none =>
      rw [yamlKey_of_asStr_eq_none hsecond]
      refine ⟨fun h ↦ .inl (hdebug.injective hfirst hsecond h), ?_⟩
      rintro (rfl | ⟨h, -⟩ | ⟨h, -⟩)
      · rfl
      · rw [hfirst] at h
        cases h
      · rw [hsecond] at h
        cases h
    | some text =>
      obtain ⟨rfl⟩ : second = .string text := by
        cases second <;> cases hsecond
        rfl
      constructor
      · intro h
        exact .inr (.inr ⟨congrArg some h.symm, hfirst⟩)
      · rintro (rfl | ⟨-, h⟩ | ⟨h, -⟩)
        · cases hfirst
        · cases h
        · exact (Option.some.inj h).symm
  | some text =>
    obtain ⟨rfl⟩ : first = .string text := by
      cases first <;> cases hfirst
      rfl
    cases hsecond : second.asStr with
    | none =>
      rw [yamlKey_of_asStr_eq_none hsecond]
      constructor
      · intro h
        exact .inr (.inl ⟨congrArg some h, hsecond⟩)
      · rintro (rfl | ⟨h, -⟩ | ⟨-, h⟩)
        · cases hsecond
        · exact Option.some.inj h
        · cases h
    | some other =>
      obtain ⟨rfl⟩ : second = .string other := by
        cases second <;> cases hsecond
        rfl
      constructor
      · rintro rfl
        exact .inl rfl
      · rintro (h | ⟨-, h⟩ | ⟨-, h⟩)
        · exact YamlValue.string.inj h
        · cases h
        · cases h

/-- Keys and equality leave the same elements of a list exactly when the keys do their work. -/
theorem dropSeen_eq_keepFirst_same_iff (hdebug : DebugForm debug) (values : List YamlValue) :
    dropSeen (yamlKey debug) [] values = keepFirst same values ↔ KeysTell debug values := by
  rw [dropSeen_eq_keepFirst, keepFirst_eq_iff]
  simp only [AgreeFrom, List.append_nil, decide_eq_true_eq, yamlKey_eq_iff hdebug]
  constructor
  · intro h
    refine ⟨fun before x after hsplit ↦ ?_, fun before x after hsplit ↦ (h _ _ _ hsplit).mpr⟩
    rintro ⟨y, hy, hclash⟩
    exact (h _ _ _ hsplit).mp ⟨y, hy, .inr hclash⟩
  · intro h before x after hsplit
    refine ⟨?_, h.kept before x after hsplit⟩
    rintro ⟨y, hy, rfl | hclash⟩
    · exact ⟨y, hy, same_refl y⟩
    · exact h.dropped before x after hsplit ⟨y, hy, hclash⟩

end Keys

/-! ### A debug form

Numbers that tell values apart, and a debug form that writes them in unary. -/

/-- A number for a list of numbers. -/
def codeList : List Nat → Nat
  | [] => 0
  | x :: rest => Nat.pair x (codeList rest) + 1

def codeText (text : String) : Nat := codeList (text.toList.map Char.toNat)

mutual

/-- A number for a value. -/
def codeValue : YamlValue → Nat
  | .null => Nat.pair 0 0
  | .bool value => Nat.pair 1 value.toNat
  | .number value => Nat.pair 2 (Nat.pair value.toNat (-value).toNat)
  | .float text => Nat.pair 3 (codeText text)
  | .string value => Nat.pair 4 (codeText value)
  | .sequence items => Nat.pair 5 (codeItems items)
  | .mapping entries => Nat.pair 6 (codeEntries entries)

def codeItems : List YamlValue → Nat
  | [] => 0
  | x :: rest => Nat.pair (codeValue x) (codeItems rest) + 1

def codeEntries : List (YamlValue × YamlValue) → Nat
  | [] => 0
  | (key, value) :: rest =>
    Nat.pair (Nat.pair (codeValue key) (codeValue value)) (codeEntries rest) + 1

end

theorem codeList_injective : Function.Injective codeList := by
  intro first
  induction first with
  | nil =>
    intro second h
    cases second with
    | nil => rfl
    | cons => simp [codeList] at h
  | cons x rest ih =>
    intro second h
    cases second with
    | nil => simp [codeList] at h
    | cons y second =>
      simp only [codeList, Nat.add_right_cancel_iff, Nat.pair_eq_pair] at h
      rw [h.1, ih h.2]

theorem codeText_injective : Function.Injective codeText := by
  intro first second h
  have hchars := List.map_injective_iff.mpr (fun _ _ ↦ Char.toNat_inj.mp) (codeList_injective h)
  exact String.toList_injective hchars

mutual

theorem codeValue_injective : ∀ first second : YamlValue,
    codeValue first = codeValue second → first = second
  | .null, second, h => by cases second <;> simp_all [codeValue, Nat.pair_eq_pair]
  | .bool value, second, h => by
    cases second with
    | bool other => cases value <;> cases other <;> simp_all [codeValue, Nat.pair_eq_pair]
    | _ => simp [codeValue, Nat.pair_eq_pair] at h
  | .number value, second, h => by
    cases second <;> simp_all [codeValue, Nat.pair_eq_pair]
    omega
  | .float text, second, h => by
    cases second <;> simp_all [codeValue, Nat.pair_eq_pair, codeText_injective.eq_iff]
  | .string value, second, h => by
    cases second <;> simp_all [codeValue, Nat.pair_eq_pair, codeText_injective.eq_iff]
  | .sequence items, second, h => by
    cases second <;> simp only [codeValue, Nat.pair_eq_pair] at h <;> try omega
    rw [codeItems_injective _ _ h.2]
  | .mapping entries, second, h => by
    cases second <;> simp only [codeValue, Nat.pair_eq_pair] at h <;> try omega
    rw [codeEntries_injective _ _ h.2]

theorem codeItems_injective : ∀ first second : List YamlValue,
    codeItems first = codeItems second → first = second
  | [], [], _ => rfl
  | [], _ :: _, h | _ :: _, [], h => by simp [codeItems] at h
  | x :: first, y :: second, h => by
    simp only [codeItems, Nat.add_right_cancel_iff, Nat.pair_eq_pair] at h
    rw [codeValue_injective x y h.1, codeItems_injective first second h.2]

theorem codeEntries_injective : ∀ first second : List (YamlValue × YamlValue),
    codeEntries first = codeEntries second → first = second
  | [], [], _ => rfl
  | [], _ :: _, h | _ :: _, [], h => by simp [codeEntries] at h
  | (key, value) :: first, (other, held) :: second, h => by
    simp only [codeEntries, Nat.add_right_cancel_iff, Nat.pair_eq_pair] at h
    rw [codeValue_injective key other h.1.1, codeValue_injective value held h.1.2,
      codeEntries_injective first second h.2]

end

/-- The word for null or a boolean. -/
def wordOf : YamlValue → Option String
  | .null => some "Null"
  | .bool value => some (if value then "Bool(true)" else "Bool(false)")
  | _ => none

/-- The debug form that writes the number of any other value in strokes. -/
def strokes (value : YamlValue) : String :=
  (wordOf value).getD (String.ofList (List.replicate (codeValue value) '|'))

theorem wordOf_injective {first second : YamlValue} {word : String}
    (hfirst : wordOf first = some word) (hsecond : wordOf second = some word) :
    first = second := by
  have hwords : wordOf first = wordOf second := hfirst.trans hsecond.symm
  cases first with
  | null =>
    cases second with
    | null => rfl
    | bool value => cases value <;> simp [wordOf] at hwords
    | _ => cases hsecond
  | bool value =>
    cases second with
    | null => cases value <;> simp [wordOf] at hwords
    | bool other => cases value <;> cases other <;> first | rfl | simp [wordOf] at hwords
    | _ => cases hsecond
  | _ => cases hfirst

/-- No word is made of strokes. -/
theorem ne_strokes_of_wordOf {value : YamlValue} {word : String} (h : wordOf value = some word)
    (n : Nat) : word ≠ String.ofList (List.replicate n '|') := by
  rintro rfl
  have hall : ∀ word ∈ wordOf value, ∃ c ∈ word.toList, c ≠ '|' := by
    cases value with
    | null => simp [wordOf]
    | bool value => cases value <;> simp [wordOf]
    | _ => simp [wordOf]
  obtain ⟨c, hc, hne⟩ := hall _ h
  rw [String.toList_ofList] at hc
  exact hne (List.eq_of_mem_replicate hc)

theorem strokes_injective : Function.Injective strokes := by
  intro first second h
  cases hfirst : wordOf first with
  | none =>
    cases hsecond : wordOf second with
    | none =>
      simp only [strokes, hfirst, hsecond, Option.getD_none] at h
      have hlength := congrArg List.length (String.ofList_injective h)
      simp only [List.length_replicate] at hlength
      exact codeValue_injective first second hlength
    | some word =>
      simp only [strokes, hfirst, hsecond, Option.getD_none, Option.getD_some] at h
      exact absurd h.symm (ne_strokes_of_wordOf hsecond _)
  | some word =>
    cases hsecond : wordOf second with
    | none =>
      simp only [strokes, hfirst, hsecond, Option.getD_none, Option.getD_some] at h
      exact absurd h (ne_strokes_of_wordOf hfirst _)
    | some other =>
      simp only [strokes, hfirst, hsecond, Option.getD_some] at h
      subst h
      exact wordOf_injective hfirst hsecond

theorem debugForm_strokes : DebugForm strokes where
  null := rfl
  bool _ := rfl
  injective _ _ h := strokes_injective h

/-! ### The first of equal elements -/

/-- Every array that a conversion meets becomes the sequence of its converted elements without those
equal to an earlier one exactly when in every such array the keys do their work. -/
theorem keepsFirst_iff {debug : YamlValue → String} (hdebug : DebugForm debug) (value : CborValue) :
    (∀ items, Meets value items →
      cborToYaml debug (.array items) =
        .sequence (keepFirst same (items.map (cborToYaml debug)))) ↔
    ∀ items, Meets value items → KeysTell debug (items.map setForm) := by
  simp only [cborToYaml, yamlWith_array, YamlValue.sequence.injEq]
  rw [collect_agree_iff]
  exact forall₂_congr fun items _ ↦ dropSeen_eq_keepFirst_same_iff hdebug _

/-- An array of booleans and a text keeps its first elements. -/
theorem keepsFirst_iff_switch :
    cborToYaml strokes (.array [.bool true, .text "on", .bool true]) =
      .sequence (keepFirst same
        ([.bool true, .text "on", .bool true].map (cborToYaml strokes))) := by
  refine (keepsFirst_iff debugForm_strokes (.array [.bool true, .text "on", .bool true])).mpr ?_
    _ (.array _)
  rintro items (_ | ⟨hx, h⟩)
  · exact (dropSeen_eq_keepFirst_same_iff debugForm_strokes _).mp rfl
  · simp only [List.mem_cons, List.not_mem_nil, or_false] at hx
    obtain rfl | rfl | rfl := hx <;> cases h

/-- The text `Null` makes a null behind it a repetition, and a mapping stays behind one that is
equal to it when its entries come in another order. -/
theorem null_dropped_behind_text :
    DebugForm strokes ∧
      cborToYaml strokes (.array [.text "Null", .null]) ≠
        .sequence (keepFirst same ([.text "Null", .null].map (cborToYaml strokes))) ∧
      cborToYaml strokes (.array [.map [(.text "a", .null), (.text "b", .null)],
          .map [(.text "b", .null), (.text "a", .null)]]) ≠
        .sequence (keepFirst same ([.map [(.text "a", .null), (.text "b", .null)],
          .map [(.text "b", .null), (.text "a", .null)]].map (cborToYaml strokes))) := by
  refine ⟨debugForm_strokes, ?_, ?_⟩
  · intro h
    have hlength := congrArg List.length (YamlValue.sequence.inj h)
    exact absurd hlength (by decide)
  · intro h
    have hkeys : strokes (.mapping [(.string "b", .null), (.string "a", .null)]) ≠
        strokes (.mapping [(.string "a", .null), (.string "b", .null)]) := fun heq ↦ by
      simpa using strokes_injective heq
    have hboth : dropSeen (yamlKey strokes) []
        [.mapping [(.string "a", .null), (.string "b", .null)],
          .mapping [(.string "b", .null), (.string "a", .null)]] =
        [.mapping [(.string "a", .null), (.string "b", .null)],
          .mapping [(.string "b", .null), (.string "a", .null)]] := by
      simp only [dropSeen, yamlKey, List.not_mem_nil, if_false, List.mem_singleton, if_neg hkeys]
    have hlength := congrArg List.length (hboth.symm.trans (YamlValue.sequence.inj h))
    exact absurd hlength (by decide)

end Crud

end MaRuntime
