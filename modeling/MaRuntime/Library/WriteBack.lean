import Mathlib.Data.Option.Basic

/-!
# Write-back cells

A cell takes values into memory and has them published later, by savers that run beside each other.
What is queued is the pending value; a saver takes it into its hands, publishes it by setting the
link to its address, and acknowledges it, in an order of its own, and the acknowledged value is the
persisted one from then on and no longer pending. A saver may also give up what it holds.

Neither the pending value nor the persisted one says by itself where the published link stands. Two
invariants do: `NewestKept`, that the last value queued is pending, held or linked, and
`PersistedKept`, that the persisted value is linked or held unless another value is pending. Each is
preserved by exactly the steps of a condition on the state before the step, `KeepsNewest` and
`KeepsPersisted`: the condition is enough (`NewestKept.step`, `PersistedKept.step`), and it is
needed (`NewestKept.keepsNewest`, `PersistedKept.keepsPersisted`). Where no saver holds anything and
nothing is pending, they leave the link only one value (`NewestKept.linked`,
`PersistedKept.linked`).
-/

set_option autoImplicit false
set_option relaxedAutoImplicit false

namespace MaRuntime.WriteBack

/-- A cell, with the value each saver holds and the link that is published. `newest` is the last
value that was queued, and `acknowledged` says whether any was acknowledged. -/
structure Cell (Saver Value Address : Type*) where
  pending : Option Value
  persisted : Option Value
  newest : Option Value
  acknowledged : Bool
  held : Saver → Option Value
  link : Option Address

/-- What a step does to a cell. -/
inductive Event (Saver Value : Type*)
  | work
  | acknowledge (value : Value)
  | publish (saver : Saver) (value : Value)
  | giveUp (saver : Saver) (value : Value)

variable {Saver Value Address : Type*}

namespace Cell

/-- Some saver holds a value. -/
def Holds (s : Cell Saver Value Address) (value : Value) : Prop :=
  ∃ saver, s.held saver = some value

/-- Some saver besides one holds a value. -/
def HeldBeside (s : Cell Saver Value Address) (saver : Saver) (value : Value) : Prop :=
  ∃ other, other ≠ saver ∧ s.held other = some value

end Cell

/-- The steps of a cell. Work may queue a value and may fill the hands of savers, but takes nothing
out of them. -/
inductive Effect (address : Value → Address) (s : Cell Saver Value Address) :
    Event Saver Value → Cell Saver Value Address → Prop
  | work {pending newest : Option Value} {held : Saver → Option Value}
      (hqueue : (pending = s.pending ∧ newest = s.newest) ∨
        ∃ value, pending = some value ∧ newest = some value)
      (hheld : ∀ saver value, s.held saver = some value → held saver = some value) :
      Effect address s .work { s with pending := pending, newest := newest, held := held }
  | acknowledge {value : Value} {pending : Option Value}
      (hsame : s.pending = some value → pending = none)
      (hother : s.pending ≠ some value → pending = s.pending) :
      Effect address s (.acknowledge value)
        { s with pending := pending, persisted := some value, acknowledged := true }
  | publish {saver : Saver} {value : Value} {held : Saver → Option Value}
      (hholds : s.held saver = some value)
      (hheld : ∀ other, other ≠ saver → held other = s.held other) (hnothing : held saver = none) :
      Effect address s (.publish saver value)
        { s with held := held, link := some (address value) }
  | giveUp {saver : Saver} {value : Value} {held : Saver → Option Value}
      (hholds : s.held saver = some value)
      (hheld : ∀ other, other ≠ saver → held other = s.held other) (hnothing : held saver = none) :
      Effect address s (.giveUp saver value) { s with held := held }

variable {address : Value → Address} {s t : Cell Saver Value Address} {event : Event Saver Value}

/-- A step that changes none of the rest is work. -/
theorem Effect.of_work (hpersisted : t.persisted = s.persisted)
    (hacknowledged : t.acknowledged = s.acknowledged) (hlink : t.link = s.link)
    (hqueue : (t.pending = s.pending ∧ t.newest = s.newest) ∨
      ∃ value, t.pending = some value ∧ t.newest = some value)
    (hheld : ∀ saver value, s.held saver = some value → t.held saver = some value) :
    Effect address s .work t := by
  obtain ⟨pending, persisted, newest, acknowledged, held, link⟩ := t
  dsimp only at hpersisted hacknowledged hlink
  subst hpersisted hacknowledged hlink
  exact .work hqueue hheld

/-- What is still held after a saver has let go of a value was held beside it. -/
theorem Cell.heldBeside_of_holds {saver : Saver} {value : Value} (h : t.Holds value)
    (hheld : ∀ other, other ≠ saver → t.held other = s.held other)
    (hnothing : t.held saver = none) : s.HeldBeside saver value := by
  obtain ⟨holder, hholder⟩ := h
  have hother : holder ≠ saver := by
    rintro rfl
    rw [hnothing] at hholder
    cases hholder
  exact ⟨holder, hother, (hheld holder hother).symm.trans hholder⟩

/-! ### The last value queued -/

/-- The pending value is the last one queued, and when nothing is pending the last one queued is
linked or held. -/
structure Cell.NewestKept (address : Value → Address) (s : Cell Saver Value Address) : Prop where
  pending : ∀ value, s.pending = some value → s.newest = some value
  settled : s.pending = none → ∀ value, s.newest = some value →
    s.link = some (address value) ∨ s.Holds value

/-- The steps that keep the last value queued. A saver that publishes or gives up an earlier value,
or gives up the last one, leaves the last one pending, linked or held by another saver; and the
pending value is acknowledged while it is linked or held. -/
def Cell.KeepsNewest (address : Value → Address) (s : Cell Saver Value Address) :
    Event Saver Value → Prop
  | .work => True
  | .acknowledge value =>
    s.pending = some value → s.link = some (address value) ∨ s.Holds value
  | .publish saver value =>
    s.pending = none → ∀ newest, s.newest = some newest →
      newest = value ∨ s.HeldBeside saver newest
  | .giveUp saver value =>
    s.pending = none → s.newest = some value →
      s.link = some (address value) ∨ s.HeldBeside saver value

theorem Cell.NewestKept.step (hs : s.NewestKept address)
    (hkeeps : s.KeepsNewest address event) (heffect : Effect address s event t) :
    t.NewestKept address := by
  cases heffect with
  | @work pending newest held hqueue hheld =>
    rcases hqueue with ⟨rfl, rfl⟩ | ⟨value, rfl, rfl⟩
    · refine ⟨hs.pending, fun hnone value hnewest ↦ ?_⟩
      rcases hs.settled hnone value hnewest with hlink | ⟨saver, hsaver⟩
      · exact .inl hlink
      · exact .inr ⟨saver, hheld saver value hsaver⟩
    · exact ⟨fun _ h ↦ h, fun hnone ↦ nomatch hnone⟩
  | @acknowledge value pending hsame hother =>
    by_cases hpending : s.pending = some value
    · obtain rfl := hsame hpending
      refine ⟨fun other h ↦ (nomatch h), fun _ newest hnewest ↦ ?_⟩
      obtain rfl := Option.some.inj (hnewest.symm.trans (hs.pending value hpending))
      exact hkeeps hpending
    · obtain rfl := hother hpending
      exact ⟨hs.pending, hs.settled⟩
  | @publish saver value held hholds hheld hnothing =>
    refine ⟨hs.pending, fun hnone newest hnewest ↦ ?_⟩
    rcases hkeeps hnone newest hnewest with rfl | ⟨other, hother, hholder⟩
    · exact .inl rfl
    · exact .inr ⟨other, (hheld other hother).trans hholder⟩
  | @giveUp saver value held hholds hheld hnothing =>
    refine ⟨hs.pending, fun hnone newest hnewest ↦ ?_⟩
    have hkept : s.link = some (address newest) ∨ s.HeldBeside saver newest := by
      rcases hs.settled hnone newest hnewest with hlink | ⟨holder, hholder⟩
      · exact .inl hlink
      · by_cases hsame : holder = saver
        · subst hsame
          obtain rfl := Option.some.inj (hholds.symm.trans hholder)
          exact hkeeps hnone hnewest
        · exact .inr ⟨holder, hsame, hholder⟩
    rcases hkept with hlink | ⟨other, hother, hholder⟩
    · exact .inl hlink
    · exact .inr ⟨other, (hheld other hother).trans hholder⟩

/-- A step that keeps the last value queued meets the condition, if no two values have
one address. -/
theorem Cell.NewestKept.keepsNewest (haddress : Function.Injective address)
    (ht : t.NewestKept address) (hs : s.NewestKept address) (heffect : Effect address s event t) :
    s.KeepsNewest address event := by
  cases heffect with
  | work => trivial
  | @acknowledge value pending hsame hother =>
    intro hpending
    exact ht.settled (hsame hpending) value (hs.pending value hpending)
  | @publish saver value held hholds hheld hnothing =>
    intro hpending newest hnewest
    rcases ht.settled hpending newest hnewest with hlink | hholds'
    · exact .inl (haddress (Option.some.inj hlink)).symm
    · exact .inr (heldBeside_of_holds hholds' hheld hnothing)
  | @giveUp saver value held hholds hheld hnothing =>
    intro hpending hnewest
    rcases ht.settled hpending value hnewest with hlink | hholds'
    · exact .inl hlink
    · exact .inr (heldBeside_of_holds hholds' hheld hnothing)

/-- Where nothing is pending and no saver holds a value, the last value queued is linked. -/
theorem Cell.NewestKept.linked (hs : s.NewestKept address) (hpending : s.pending = none)
    (hheld : ∀ saver, s.held saver = none) {value : Value} (hnewest : s.newest = some value) :
    s.link = some (address value) := by
  rcases hs.settled hpending value hnewest with hlink | ⟨saver, hsaver⟩
  · exact hlink
  · exact nomatch (hheld saver).symm.trans hsaver

/-! ### The persisted value -/

/-- When nothing is pending, the persisted value is linked or held, or nothing was ever linked and
nothing acknowledged. -/
def Cell.PersistedKept (address : Value → Address) (s : Cell Saver Value Address) : Prop :=
  s.pending = none → ∀ value, s.persisted = some value →
    s.link = some (address value) ∨ s.Holds value ∨ (s.acknowledged = false ∧ s.link = none)

/-- The steps that keep the persisted value. A saver publishes another value than the persisted one,
or gives the persisted one up, while a value is pending or another saver holds the persisted one;
and a value is acknowledged while it is linked or held, unless another one stays pending. -/
def Cell.KeepsPersisted (address : Value → Address) (s : Cell Saver Value Address) :
    Event Saver Value → Prop
  | .work => True
  | .acknowledge value =>
    (s.pending = none ∨ s.pending = some value) → s.link = some (address value) ∨ s.Holds value
  | .publish saver value =>
    s.pending = none → ∀ persisted, s.persisted = some persisted →
      persisted = value ∨ s.HeldBeside saver persisted
  | .giveUp saver value =>
    s.pending = none → s.persisted = some value →
      s.link = some (address value) ∨ s.HeldBeside saver value ∨
        (s.acknowledged = false ∧ s.link = none)

theorem Cell.PersistedKept.step (hs : s.PersistedKept address)
    (hkeeps : s.KeepsPersisted address event) (heffect : Effect address s event t) :
    t.PersistedKept address := by
  cases heffect with
  | @work pending newest held hqueue hheld =>
    rcases hqueue with ⟨rfl, rfl⟩ | ⟨value, rfl, rfl⟩
    · intro hnone value hpersisted
      rcases hs hnone value hpersisted with hlink | ⟨saver, hsaver⟩ | hnothing
      · exact .inl hlink
      · exact .inr (.inl ⟨saver, hheld saver value hsaver⟩)
      · exact .inr (.inr hnothing)
    · exact fun hnone ↦ nomatch hnone
  | @acknowledge value pending hsame hother =>
    intro hnone persisted hpersisted
    obtain rfl := Option.some.inj hpersisted
    have hsettled : s.pending = none ∨ s.pending = some value := by
      by_cases hpending : s.pending = some value
      · exact .inr hpending
      · exact .inl ((hother hpending).symm.trans hnone)
    rcases hkeeps hsettled with hlink | hholds
    · exact .inl hlink
    · exact .inr (.inl hholds)
  | @publish saver value held hholds hheld hnothing =>
    intro hnone persisted hpersisted
    rcases hkeeps hnone persisted hpersisted with rfl | ⟨other, hother, hholder⟩
    · exact .inl rfl
    · exact .inr (.inl ⟨other, (hheld other hother).trans hholder⟩)
  | @giveUp saver value held hholds hheld hnothing =>
    intro hnone persisted hpersisted
    have hkept : s.link = some (address persisted) ∨ s.HeldBeside saver persisted ∨
        (s.acknowledged = false ∧ s.link = none) := by
      rcases hs hnone persisted hpersisted with hlink | ⟨holder, hholder⟩ | hnothing
      · exact .inl hlink
      · by_cases hsame : holder = saver
        · subst hsame
          obtain rfl := Option.some.inj (hholds.symm.trans hholder)
          exact hkeeps hnone hpersisted
        · exact .inr (.inl ⟨holder, hsame, hholder⟩)
      · exact .inr (.inr hnothing)
    rcases hkept with hlink | ⟨other, hother, hholder⟩ | hnothing
    · exact .inl hlink
    · exact .inr (.inl ⟨other, (hheld other hother).trans hholder⟩)
    · exact .inr (.inr hnothing)

/-- A step that keeps the persisted value meets the condition, if no two values have one address. -/
theorem Cell.PersistedKept.keepsPersisted (haddress : Function.Injective address)
    (ht : t.PersistedKept address) (heffect : Effect address s event t) :
    s.KeepsPersisted address event := by
  cases heffect with
  | work => trivial
  | @acknowledge value pending hsame hother =>
    intro hpending
    have hnone : pending = none := by
      by_cases hvalue : s.pending = some value
      · exact hsame hvalue
      · exact (hother hvalue).trans (hpending.resolve_right hvalue)
    rcases ht hnone value rfl with hlink | hholds | ⟨hacknowledged, -⟩
    · exact .inl hlink
    · exact .inr hholds
    · cases hacknowledged
  | @publish saver value held hholds hheld hnothing =>
    intro hpending persisted hpersisted
    rcases ht hpending persisted hpersisted with hlink | hholds' | ⟨-, hlink⟩
    · exact .inl (haddress (Option.some.inj hlink)).symm
    · exact .inr (heldBeside_of_holds hholds' hheld hnothing)
    · cases hlink
  | @giveUp saver value held hholds hheld hnothing =>
    intro hpending hpersisted
    rcases ht hpending value hpersisted with hlink | hholds' | hneither
    · exact .inl hlink
    · exact .inr (.inl (heldBeside_of_holds hholds' hheld hnothing))
    · exact .inr (.inr hneither)

/-- Where nothing is pending and no saver holds a value, the persisted value is linked, or nothing
was ever acknowledged and nothing is linked. -/
theorem Cell.PersistedKept.linked (hs : s.PersistedKept address) (hpending : s.pending = none)
    (hheld : ∀ saver, s.held saver = none) {value : Value} (hpersisted : s.persisted = some value) :
    s.link = some (address value) ∨ (s.acknowledged = false ∧ s.link = none) := by
  rcases hs hpending value hpersisted with hlink | ⟨saver, hsaver⟩ | hnothing
  · exact .inl hlink
  · exact nomatch (hheld saver).symm.trans hsaver
  · exact .inr hnothing

end MaRuntime.WriteBack
