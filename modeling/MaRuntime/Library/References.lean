import MaRuntime.Library.KeyedMap

/-!
# Entries that refer to one another

The values of a map may each refer to a key of the same map. `RefsLive` says that no reference
dangles. An insertion keeps it when what is inserted refers to an entry, its own included
(`refsLive_insert`); a removal, when no other entry refers to the one that goes (`refsLive_remove`).
Where no reference dangled before, these conditions are exact.
-/

set_option autoImplicit false
set_option relaxedAutoImplicit false

namespace MaRuntime

variable {Key Value : Type*} [DecidableEq Key]

/-- Every key that a value of the map refers to has an entry. -/
def RefsLive (ref : Value → Option Key) (map : KeyedMap Key Value) : Prop :=
  ∀ key value target, map.get key = some value → ref value = some target →
    (map.get target).isSome = true

/-- No entry but that of a key refers to the key. -/
def Unreferenced (ref : Value → Option Key) (map : KeyedMap Key Value) (key : Key) : Prop :=
  ∀ other value, other ≠ key → map.get other = some value → ref value ≠ some key

variable {ref : Value → Option Key} {map : KeyedMap Key Value}

theorem isSome_get_insert {key other : Key} {value : Value} :
    ((map.insert key value).get other).isSome = true ↔
      other = key ∨ (map.get other).isSome = true := by
  rw [KeyedMap.get_insert]
  by_cases hother : other = key
  · simp [hother]
  · simp [hother]

theorem isSome_get_remove {key other : Key} :
    ((map.remove key).get other).isSome = true ↔
      other ≠ key ∧ (map.get other).isSome = true := by
  rw [KeyedMap.get_remove]
  by_cases hother : other = key
  · simp [hother]
  · simp [hother]

/-- Where no value refers to anything, no reference dangles. -/
theorem refsLive_of_forall_eq_none (h : ∀ entry ∈ map.entries, ref entry.2 = none) :
    RefsLive ref map := by
  intro key value target hvalue htarget
  have hnone := h (key, value) (KeyedMap.mem_of_get hvalue)
  rw [hnone] at htarget
  cases htarget

/-- An insertion keeps references live if and only if the new value refers to an entry that was
there, or to its own. -/
theorem refsLive_insert (h : RefsLive ref map) {key : Key} {value : Value} :
    RefsLive ref (map.insert key value) ↔
      ∀ target, ref value = some target → target = key ∨ (map.get target).isSome = true := by
  constructor
  · intro hafter target htarget
    exact isSome_get_insert.mp (hafter key value target (KeyedMap.get_insert_self ..) htarget)
  · intro hvalue other found target hfound htarget
    apply isSome_get_insert.mpr
    obtain ⟨-, rfl⟩ | ⟨-, hbefore⟩ := KeyedMap.get_insert_eq_some_iff.mp hfound
    · exact hvalue target htarget
    · exact .inr (h other found target hbefore htarget)

/-- A removal keeps references live if and only if no other entry refers to the one that goes. -/
theorem refsLive_remove (h : RefsLive ref map) {key : Key} :
    RefsLive ref (map.remove key) ↔ Unreferenced ref map key := by
  constructor
  · intro hafter other value hother hvalue hrefers
    have hlive := hafter other value key (KeyedMap.get_remove_eq_some_iff.mpr ⟨hother, hvalue⟩)
      hrefers
    exact (isSome_get_remove.mp hlive).1 rfl
  · intro hunreferenced other value target hvalue htarget
    obtain ⟨hother, hbefore⟩ := KeyedMap.get_remove_eq_some_iff.mp hvalue
    apply isSome_get_remove.mpr
    refine ⟨?_, h other value target hbefore htarget⟩
    rintro rfl
    exact hunreferenced other value hother hbefore htarget

end MaRuntime
