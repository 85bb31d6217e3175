import Mathlib.Algebra.Group.Int.Defs
import Mathlib.Data.List.Basic

/-!
# YAML values

The values of a YAML document, and their readings as a text, a boolean or an unsigned 64-bit number.
`same` is their equality, for which the entries of a mapping have no order (`same_refl`). `trim`
takes the white space of Unicode from both ends of a text.
-/

set_option autoImplicit false
set_option relaxedAutoImplicit false

namespace MaRuntime

/-- A YAML value. A number that is not an integer is kept as its text. -/
inductive YamlValue
  | null
  | bool (value : Bool)
  | number (value : Int)
  | float (text : String)
  | string (value : String)
  | sequence (items : List YamlValue)
  | mapping (entries : List (YamlValue × YamlValue))

namespace YamlValue

def asStr : YamlValue → Option String
  | .string value => some value
  | _ => none

def asBool : YamlValue → Option Bool
  | .bool value => some value
  | _ => none

def asU64 : YamlValue → Option Nat
  | .number value => if 0 ≤ value ∧ value < 2 ^ 64 then some value.toNat else none
  | _ => none

/-- The sequence of a list of texts. -/
def ofTexts (texts : List String) : YamlValue := .sequence (texts.map .string)

/-- The texts among the items of a sequence. -/
def textsOf (items : List YamlValue) : List String := items.filterMap asStr

@[simp] theorem textsOf_map_string (texts : List String) :
    textsOf (texts.map .string) = texts := by
  induction texts with
  | nil => rfl
  | cons text rest ih => simpa [textsOf, asStr] using ih

/-! ### Equality -/

mutual

/-- Whether two values are equal: sequences item by item, mappings whatever the order of their
entries. A mapping holds a key once, so an entry with this key and value is the entry of the key. -/
def same : YamlValue → YamlValue → Bool
  | .null, .null => true
  | .bool first, .bool second => first == second
  | .number first, .number second => first == second
  | .float first, .float second => first == second
  | .string first, .string second => first == second
  | .sequence first, .sequence second => sameItems first second
  | .mapping first, .mapping second =>
    first.length == second.length && sameEntries first second
  | _, _ => false

def sameItems : List YamlValue → List YamlValue → Bool
  | [], [] => true
  | x :: first, y :: second => same x y && sameItems first second
  | _, _ => false

def sameEntries : List (YamlValue × YamlValue) → List (YamlValue × YamlValue) → Bool
  | [], _ => true
  | (key, value) :: first, second =>
    (second.any fun entry ↦ same key entry.1 && same value entry.2) && sameEntries first second

end

mutual

theorem same_refl : ∀ value : YamlValue, same value value
  | .null => rfl
  | .bool _ | .number _ | .float _ | .string _ => by simp [same]
  | .sequence items => by simp [same, sameItems_refl items]
  | .mapping entries => by
    simpa [same] using sameEntries_of_subset entries entries (fun _ h ↦ h)

theorem sameItems_refl : ∀ items : List YamlValue, sameItems items items
  | [] => rfl
  | x :: rest => by simp [sameItems, same_refl x, sameItems_refl rest]

theorem sameEntries_of_subset : ∀ (first second : List (YamlValue × YamlValue)),
    first ⊆ second → sameEntries first second
  | [], _, _ => rfl
  | (key, value) :: rest, second, h => by
    rw [sameEntries, Bool.and_eq_true]
    refine ⟨List.any_eq_true.mpr ⟨_, h List.mem_cons_self, ?_⟩, ?_⟩
    · simp [same_refl key, same_refl value]
    · exact sameEntries_of_subset rest second fun _ hx ↦ h (List.mem_cons_of_mem _ hx)

end

end YamlValue

/-- The characters of Unicode's property White_Space. -/
def isWhiteSpace (c : Char) : Bool :=
  let code := c.toNat
  (0x09 ≤ code && code ≤ 0x0d) || code == 0x20 || code == 0x85 || code == 0xa0 ||
    code == 0x1680 || (0x2000 ≤ code && code ≤ 0x200a) || code == 0x2028 || code == 0x2029 ||
    code == 0x202f || code == 0x205f || code == 0x3000

/-- A text without the white space at its ends. -/
def trim (text : String) : String :=
  String.ofList ((text.toList.dropWhile isWhiteSpace).reverse.dropWhile isWhiteSpace).reverse

/-- A text that begins and ends with other characters than white space is not trimmed. -/
theorem trim_eq_self {text : String} {first last : Char} {middle : List Char}
    (htext : text.toList = first :: (middle ++ [last])) (hfirst : isWhiteSpace first = false)
    (hlast : isWhiteSpace last = false) : trim text = text := by
  unfold trim
  rw [htext, List.dropWhile_cons_of_neg (by simp [hfirst])]
  simp only [List.reverse_cons, List.reverse_append, List.reverse_nil, List.nil_append,
    List.cons_append]
  rw [List.dropWhile_cons_of_neg (by simp [hlast])]
  simp only [List.reverse_cons, List.reverse_append, List.reverse_reverse, List.reverse_nil,
    List.nil_append, List.cons_append]
  rw [← htext, String.ofList_toList]

end MaRuntime
