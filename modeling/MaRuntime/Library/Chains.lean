import Mathlib.Tactic.TypeStar

/-!
# Chains of references

A partial map `next : Node → Option (Option Node)` says of each node that exists whether it refers
to a further one: `none` for a node that is missing, `some none` for one that refers to nothing.
`EndsIn next node n` says that the chain from a node ends after `n` references. `Leads next target
node n c` says that it comes to a first node of a set after `n` references, and `EndsFrom` is
`EndsIn` for what a node refers to.

`NodesFrom` has the nodes of such a chain.

`EndsIn.transfer` compares the chains of two maps that agree outside of a set of nodes, and
`Leads.endsIn` and `Leads.rest` cut a chain at the first node of the set.
-/

set_option autoImplicit false
set_option relaxedAutoImplicit false

namespace MaRuntime.Chains

variable {Node : Type*} {next next' : Node → Option (Option Node)} {target : Node → Prop}
  {node c c' : Node} {n m : Nat}

/-- The chain from a node ends after a number of references. -/
inductive EndsIn (next : Node → Option (Option Node)) : Node → Nat → Prop
  | last {node : Node} (h : next node = some none) : EndsIn next node 0
  | refer {node base : Node} {n : Nat} (h : next node = some (some base))
    (hrest : EndsIn next base n) : EndsIn next node (n + 1)

/-- The chain from a node comes, after a number of references, to a first node of a set. -/
inductive Leads (next : Node → Option (Option Node)) (target : Node → Prop) :
    Node → Nat → Node → Prop
  | here {node : Node} (h : target node) : Leads next target node 0 node
  | refer {node base c : Node} {n : Nat} (hnot : ¬target node) (h : next node = some (some base))
    (hrest : Leads next target base n c) : Leads next target node (n + 1) c

/-- What a node refers to, if to anything, leads to an end after a number of references. -/
def EndsFrom (next : Node → Option (Option Node)) : Option Node → Nat → Prop
  | none, n => n = 0
  | some base, n => ∃ m, EndsIn next base m ∧ n = m + 1

/-- The nodes of the chain from what a node refers to, up to one that refers to nothing. -/
inductive NodesFrom (next : Node → Option (Option Node)) : Option Node → List Node → Prop
  | root : NodesFrom next none []
  | refer {node : Node} {base : Option Node} {rest : List Node} (h : next node = some base)
    (hrest : NodesFrom next base rest) : NodesFrom next (some node) (node :: rest)

theorem endsIn_iff : EndsIn next node n ↔ ∃ base, next node = some base ∧ EndsFrom next base n := by
  constructor
  · intro h
    cases h with
    | last h => exact ⟨none, h, rfl⟩
    | refer h hrest => exact ⟨some _, h, _, hrest, rfl⟩
  · rintro ⟨base, h, hends⟩
    cases base with
    | none =>
      obtain rfl := hends
      exact .last h
    | some base =>
      obtain ⟨m, hrest, rfl⟩ := hends
      exact .refer h hrest

/-- Nodes that refer to the same have the same chain. -/
theorem EndsIn.congr {other : Node} (hsame : next other = next node) (h : EndsIn next node n) :
    EndsIn next other n := by
  obtain ⟨base, hbase, hrest⟩ := endsIn_iff.mp h
  exact endsIn_iff.mpr ⟨base, hsame.trans hbase, hrest⟩

theorem EndsIn.unique (hn : EndsIn next node n) (hm : EndsIn next node m) : n = m := by
  induction hn generalizing m with
  | last h =>
    cases hm with
    | last => rfl
    | refer h' => cases h.symm.trans h'
  | refer h _ ih =>
    cases hm with
    | last h' => cases h.symm.trans h'
    | refer h' hrest =>
      obtain rfl := Option.some.inj (Option.some.inj (h.symm.trans h'))
      exact congrArg (· + 1) (ih hrest)

theorem EndsIn.base {base : Node} (h : EndsIn next node n) (hnext : next node = some (some base)) :
    ∃ rest, EndsIn next base rest ∧ n = rest + 1 := by
  obtain ⟨found, hfound, hends⟩ := endsIn_iff.mp h
  obtain rfl := Option.some.inj (hnext.symm.trans hfound)
  exact hends

theorem NodesFrom.unique {base : Option Node} {nodes others : List Node}
    (h : NodesFrom next base nodes) (hothers : NodesFrom next base others) : nodes = others := by
  induction h generalizing others with
  | root =>
    cases hothers
    rfl
  | refer hnext _ ih =>
    cases hothers with
    | refer hnext' hrest' =>
      obtain rfl := Option.some.inj (hnext.symm.trans hnext')
      rw [ih hrest']

/-- The chain from a node on it is what is left of it. -/
theorem NodesFrom.suffix {base : Option Node} {before after : List Node}
    (h : NodesFrom next base (before ++ node :: after)) :
    ∃ further, next node = some further ∧ NodesFrom next further after := by
  induction before generalizing base with
  | nil =>
    cases h with
    | refer hnext hrest => exact ⟨_, hnext, hrest⟩
  | cons first before ih =>
    cases h with
    | refer _ hrest => exact ih hrest

/-- A chain that ends does not come to two nodes that refer to the same. -/
theorem NodesFrom.next_ne {base : Option Node} {before between after : List Node} {other : Node}
    (h : NodesFrom next base (before ++ node :: (between ++ other :: after))) :
    next node ≠ next other := by
  intro heq
  obtain ⟨further, hnext, hrest⟩ := h.suffix
  obtain ⟨further', hnext', hafter⟩ := hrest.suffix
  obtain rfl := Option.some.inj (hnext.symm.trans (heq.trans hnext'))
  have hlength := congrArg List.length (hrest.unique hafter)
  simp only [List.length_append, List.length_cons] at hlength
  omega

/-- A chain that ends does not come to a node that refers to the same as its first one. -/
theorem NodesFrom.next_ne_head {base : Option Node} {between after : List Node} {other : Node}
    (h : NodesFrom next base (node :: (between ++ other :: after))) : next node ≠ next other := by
  have hnodes : NodesFrom next base ([] ++ node :: (between ++ other :: after)) := h
  exact hnodes.next_ne

/-- A chain that ends leads to a set when one of its nodes is in it. -/
theorem NodesFrom.exists_leads_iff {nodes : List Node} (h : NodesFrom next (some node) nodes) :
    (∃ i c, Leads next target node i c) ↔ ∃ c ∈ nodes, target c := by
  induction nodes generalizing node with
  | nil => cases h
  | cons first rest ih =>
    cases h with
    | @refer _ base _ hnext hrest =>
      constructor
      · rintro ⟨i, c, hleads⟩
        cases hleads with
        | here htarget => exact ⟨_, List.mem_cons_self, htarget⟩
        | refer _ hnext' hleads =>
          obtain rfl := Option.some.inj (hnext.symm.trans hnext')
          obtain ⟨c, hmem, htarget⟩ := (ih hrest).mp ⟨_, _, hleads⟩
          exact ⟨c, List.mem_cons_of_mem _ hmem, htarget⟩
      · rintro ⟨c, hmem, htarget⟩
        by_cases hfirst : target first
        · exact ⟨0, first, .here hfirst⟩
        · rcases List.mem_cons.mp hmem with rfl | hmem
          · exact absurd htarget hfirst
          · cases base with
            | none =>
              cases hrest
              cases hmem
            | some base =>
              obtain ⟨i, c, hleads⟩ := (ih hrest).mpr ⟨c, hmem, htarget⟩
              exact ⟨i + 1, c, .refer hfirst hnext hleads⟩

/-- Two nodes that refer to each other have chains without an end. -/
theorem not_endsIn_of_cycle {other : Node} (hnode : next node = some (some other))
    (hother : next other = some (some node)) :
    (∀ n, ¬EndsIn next node n) ∧ ∀ n, ¬EndsIn next other n := by
  have hshort {n : Nat} (h : EndsIn next other n) : EndsIn next other (n + 2) :=
    .refer hother (.refer hnode h)
  have hnever (n : Nat) (h : EndsIn next other n) : False := by
    have heq := h.unique (hshort h)
    omega
  exact ⟨fun n h ↦ hnever (n + 1) (.refer hother h), hnever⟩

/-- A chain goes on in a map that has all the references of another one. -/
theorem EndsIn.mono (hle : ∀ node base, next node = some base → next' node = some base)
    (h : EndsIn next node n) : EndsIn next' node n := by
  induction h with
  | last h => exact .last (hle _ _ h)
  | refer h _ ih => exact .refer (hle _ _ h) ih

theorem Leads.mem (h : Leads next target node n c) : target c := by
  induction h with
  | here h => exact h
  | refer _ _ _ ih => exact ih

theorem Leads.unique (h : Leads next target node n c) (h' : Leads next target node m c') :
    n = m ∧ c = c' := by
  induction h generalizing m c' with
  | here h =>
    cases h' with
    | here => exact ⟨rfl, rfl⟩
    | refer hnot => exact absurd h hnot
  | refer hnot h _ ih =>
    cases h' with
    | here h' => exact absurd h' hnot
    | refer _ h' hrest =>
      obtain rfl := Option.some.inj (Option.some.inj (h.symm.trans h'))
      obtain ⟨rfl, rfl⟩ := ih hrest
      exact ⟨rfl, rfl⟩

/-- A chain to a node whose chain ends. -/
theorem Leads.endsIn (h : Leads next target node n c) (hend : EndsIn next c m) :
    EndsIn next node (n + m) := by
  induction h with
  | here => exact (Nat.zero_add m).symm ▸ hend
  | refer _ h _ ih => exact (Nat.succ_add _ m).symm ▸ .refer h (ih hend)

/-- What is left of a chain that ends, at a node it comes to. -/
theorem Leads.rest (h : Leads next target node n c) (hend : EndsIn next node m) :
    ∃ rest, EndsIn next c rest ∧ m = n + rest := by
  induction h generalizing m with
  | here => exact ⟨m, hend, (Nat.zero_add m).symm⟩
  | refer _ h _ ih =>
    cases hend with
    | last h' => cases h.symm.trans h'
    | refer h' hrest =>
      obtain rfl := Option.some.inj (Option.some.inj (h.symm.trans h'))
      obtain ⟨rest, hc, rfl⟩ := ih hrest
      exact ⟨rest, hc, (Nat.succ_add _ rest).symm⟩

/-- A chain that ends, in a map that agrees on its nodes outside of a set: it ends there as well, or
comes to the set in both. -/
theorem EndsIn.transfer (h : EndsIn next node n)
    (hsame : ∀ node m, EndsIn next node m → m ≤ n → ¬target node → next' node = next node) :
    EndsIn next' node n ∨ ∃ i c, Leads next target node i c ∧ Leads next' target node i c := by
  by_cases htarget : target node
  · exact .inr ⟨0, node, .here htarget, .here htarget⟩
  · induction h with
    | last h => exact .inl (.last ((hsame _ 0 (.last h) (Nat.le_refl 0) htarget).trans h))
    | @refer node base n h hrest ih =>
      have hnext := (hsame _ _ (.refer h hrest) (Nat.le_refl _) htarget).trans h
      by_cases hbase : target base
      · exact .inr ⟨1, base, .refer htarget h (.here hbase), .refer htarget hnext (.here hbase)⟩
      · have hrest' := ih (fun node m hend hle ↦ hsame node m hend (Nat.le_succ_of_le hle)) hbase
        rcases hrest' with hend | ⟨i, c, hleads, hleads'⟩
        · exact .inl (.refer hnext hend)
        · exact .inr ⟨i + 1, c, .refer htarget h hleads, .refer htarget hnext hleads'⟩

/-- A way to a set is the same in a map that has its references outside of the set. -/
theorem Leads.mono (hle : ∀ node base, ¬target node → next node = some (some base) →
    next' node = some (some base)) (h : Leads next target node n c) :
    Leads next' target node n c := by
  induction h with
  | here h => exact .here h
  | refer hnot h _ ih => exact .refer hnot (hle _ _ hnot h) ih

end MaRuntime.Chains
