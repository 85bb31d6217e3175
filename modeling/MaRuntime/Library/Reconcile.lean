import Mathlib.Logic.Function.Basic

/-!
# Installed and linked values

Values are linked under names, and tasks that run beside each other install under each name the
value that is linked for it. A link that changes, or a value that is taken away, leaves the two
apart for a time, and a task that is to reconcile them owes the name.

A name agrees when the value installed under it is the one that is linked (`State.Agrees`), and it
is settled when it agrees or is owed (`State.Settled`). The steps that keep every name settled are
exactly those of a condition on the state before the step, `State.Keeps`: `State.Settled.step` has
that it is enough, and `State.keeps_of_settled` that it is needed. Where no task owes a name, a
settled name agrees (`State.Settled.agrees`).
-/

set_option autoImplicit false
set_option relaxedAutoImplicit false

namespace MaRuntime.Reconcile

/-- What is installed and what is linked under each name, and the name that each task owes. -/
structure State (Task Name Value : Type*) where
  installed : Name → Option Value
  linked : Name → Option Value
  owed : Task → Option Name

/-- What a step does to a state: a task installs a value, or removes it, and owes nothing any more;
the link of a name changes, and a task owes the name; a name is unlinked; a task gives up what it
owes. -/
inductive Event (Task Name Value : Type*)
  | work
  | install (task : Task) (name : Name) (value : Option Value)
  | link (task : Task) (name : Name)
  | unlink (name : Name)
  | giveUp (task : Task) (name : Name)

variable {Task Name Value : Type*}

namespace State

/-- The value installed under a name, if there is one, is the value linked for it. -/
def Agrees (s : State Task Name Value) (name : Name) : Prop :=
  ∀ value, s.installed name = some value → s.linked name = some value

/-- Some task owes a name. -/
def Owed (s : State Task Name Value) (name : Name) : Prop := ∃ task, s.owed task = some name

/-- Some task besides one owes a name. -/
def OwedBeside (s : State Task Name Value) (task : Task) (name : Name) : Prop :=
  ∃ other, other ≠ task ∧ s.owed other = some name

/-- A name agrees, or a task owes it. -/
def Settled (s : State Task Name Value) (name : Name) : Prop := s.Agrees name ∨ s.Owed name

/-- The steps that keep every name settled: a value is installed while it is the linked one, a name
is unlinked while nothing is installed under it, and a name is given up while it agrees; or else
another task owes the name. -/
def Keeps (s : State Task Name Value) : Event Task Name Value → Prop
  | .work | .link _ _ => True
  | .install task name value =>
    (∀ installed, value = some installed → s.linked name = some installed) ∨ s.OwedBeside task name
  | .unlink name => s.installed name = none ∨ s.Owed name
  | .giveUp task name => s.Agrees name ∨ s.OwedBeside task name

end State

/-- The steps of a state. -/
inductive Effect [DecidableEq Name] (s t : State Task Name Value) : Event Task Name Value → Prop
  | work (hinstalled : t.installed = s.installed) (hlinked : t.linked = s.linked)
      (howed : ∀ task name, s.owed task = some name → t.owed task = some name) : Effect s t .work
  | install {task : Task} {name : Name} {value : Option Value}
      (hinstalled : t.installed = Function.update s.installed name value)
      (hlinked : t.linked = s.linked) (howed : ∀ other, other ≠ task → t.owed other = s.owed other)
      (hbefore : ∀ owed, s.owed task = some owed → owed = name) (hafter : t.owed task = none) :
      Effect s t (.install task name value)
  | link {task : Task} {name : Name} (hinstalled : t.installed = s.installed)
      (hlinked : ∀ other, other ≠ name → t.linked other = s.linked other)
      (howed : ∀ other, other ≠ task → t.owed other = s.owed other)
      (hbefore : s.owed task = none) (hafter : t.owed task = some name) :
      Effect s t (.link task name)
  | unlink {name : Name} (hinstalled : t.installed = s.installed)
      (hlinked : t.linked = Function.update s.linked name none) (howed : t.owed = s.owed) :
      Effect s t (.unlink name)
  | giveUp {task : Task} {name : Name} (hinstalled : t.installed = s.installed)
      (hlinked : t.linked = s.linked) (howed : ∀ other, other ≠ task → t.owed other = s.owed other)
      (hbefore : s.owed task = some name) (hafter : t.owed task = none) :
      Effect s t (.giveUp task name)

namespace State

variable {s t : State Task Name Value}

theorem Agrees.congr {name : Name} (h : s.Agrees name)
    (hinstalled : t.installed name = s.installed name)
    (hlinked : t.linked name = s.linked name) : t.Agrees name := by
  intro value hvalue
  rw [hlinked]
  exact h value (hinstalled ▸ hvalue)

/-- What is owed beside a task stays owed when only that task changes. -/
theorem OwedBeside.owed {task : Task} {name : Name} (h : s.OwedBeside task name)
    (howed : ∀ other, other ≠ task → t.owed other = s.owed other) : t.Owed name := by
  obtain ⟨other, hother, hname⟩ := h
  exact ⟨other, (howed other hother).trans hname⟩

/-- A name that is owed is owed by a task, or beside it. -/
theorem Owed.beside {task : Task} {name : Name} (h : s.Owed name) :
    s.owed task = some name ∨ s.OwedBeside task name := by
  obtain ⟨other, hname⟩ := h
  by_cases hsame : other = task
  · subst hsame
    exact .inl hname
  · exact .inr ⟨other, hsame, hname⟩

/-- What is still owed when a task owes nothing any more was owed beside it. -/
theorem Owed.beside_of_none {task : Task} {name : Name} (h : t.Owed name)
    (howed : ∀ other, other ≠ task → t.owed other = s.owed other) (hafter : t.owed task = none) :
    s.OwedBeside task name := by
  obtain ⟨other, hname⟩ := h
  have hother : other ≠ task := by
    rintro rfl
    rw [hafter] at hname
    cases hname
  exact ⟨other, hother, (howed other hother).symm.trans hname⟩

/-- Where no task owes anything, a settled name agrees. -/
theorem Settled.agrees {name : Name} (h : s.Settled name) (howed : ∀ task, s.owed task = none) :
    s.Agrees name := by
  rcases h with hagrees | ⟨task, hname⟩
  · exact hagrees
  · rw [howed task] at hname
    cases hname

variable [DecidableEq Name] {event : Event Task Name Value}

/-- A step that meets the condition keeps every name settled. -/
theorem Settled.step (hs : ∀ name, s.Settled name) (hkeeps : s.Keeps event)
    (heffect : Effect s t event) (name : Name) : t.Settled name := by
  cases heffect with
  | work hinstalled hlinked howed =>
    rcases hs name with hagrees | ⟨task, hname⟩
    · exact .inl (hagrees.congr (by rw [hinstalled]) (by rw [hlinked]))
    · exact .inr ⟨task, howed task name hname⟩
  | @install task installed value hinstalled hlinked howed hbefore hafter =>
    by_cases hsame : name = installed
    · subst hsame
      rcases hkeeps with hvalue | hbeside
      · left
        intro found hfound
        rw [hinstalled, Function.update_self] at hfound
        rw [hlinked]
        exact hvalue found hfound
      · exact .inr (hbeside.owed howed)
    · rcases hs name with hagrees | howes
      · refine .inl (hagrees.congr ?_ (by rw [hlinked]))
        rw [hinstalled, Function.update_of_ne hsame]
      · rcases howes.beside with hname | hbeside
        · exact absurd (hbefore name hname) hsame
        · exact .inr (hbeside.owed howed)
  | @link task linked hinstalled hlinked howed hbefore hafter =>
    by_cases hsame : name = linked
    · subst hsame
      exact .inr ⟨task, hafter⟩
    · rcases hs name with hagrees | howes
      · exact .inl (hagrees.congr (by rw [hinstalled]) (hlinked name hsame))
      · rcases howes.beside with hname | hbeside
        · rw [hbefore] at hname
          cases hname
        · exact .inr (hbeside.owed howed)
  | @unlink unlinked hinstalled hlinked howed =>
    have howes (h : s.Owed name) : t.Settled name := by
      obtain ⟨task, hname⟩ := h
      exact .inr ⟨task, (congrFun howed task).trans hname⟩
    by_cases hsame : name = unlinked
    · subst hsame
      rcases hkeeps with hnone | howed'
      · left
        intro value hvalue
        rw [hinstalled, hnone] at hvalue
        cases hvalue
      · exact howes howed'
    · rcases hs name with hagrees | howed'
      · refine .inl (hagrees.congr (by rw [hinstalled]) ?_)
        rw [hlinked, Function.update_of_ne hsame]
      · exact howes howed'
  | @giveUp task given hinstalled hlinked howed hbefore hafter =>
    have hkept (h : s.Agrees name ∨ s.OwedBeside task name) : t.Settled name := by
      rcases h with hagrees | hbeside
      · exact .inl (hagrees.congr (by rw [hinstalled]) (by rw [hlinked]))
      · exact .inr (hbeside.owed howed)
    rcases hs name with hagrees | howes
    · exact hkept (.inl hagrees)
    · rcases howes.beside with hname | hbeside
      · obtain rfl := Option.some.inj (hbefore.symm.trans hname)
        exact hkept hkeeps
      · exact hkept (.inr hbeside)

/-- A step after which every name is settled meets the condition. -/
theorem keeps_of_settled (heffect : Effect s t event) (ht : ∀ name, t.Settled name) :
    s.Keeps event := by
  cases heffect with
  | work | link => trivial
  | @install task name value hinstalled hlinked howed hbefore hafter =>
    rcases ht name with hagrees | howes
    · left
      rintro installed rfl
      rw [← hlinked]
      exact hagrees installed (by rw [hinstalled, Function.update_self])
    · exact .inr (howes.beside_of_none howed hafter)
  | @unlink name hinstalled hlinked howed =>
    rcases ht name with hagrees | ⟨task, hname⟩
    · left
      cases hvalue : s.installed name with
      | none => rfl
      | some value =>
        have hunlinked := hagrees value ((congrFun hinstalled name).trans hvalue)
        rw [hlinked, Function.update_self] at hunlinked
        cases hunlinked
    · exact .inr ⟨task, (congrFun howed task).symm.trans hname⟩
  | @giveUp task name hinstalled hlinked howed hbefore hafter =>
    rcases ht name with hagrees | howes
    · exact .inl (hagrees.congr (by rw [hinstalled]) (by rw [hlinked]))
    · exact .inr (howes.beside_of_none howed hafter)

end State

end MaRuntime.Reconcile
