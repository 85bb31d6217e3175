import Mathlib.Data.List.DropRight

/-!
# Paths of directories

A path is a list of symbols, which a separator splits into components. An empty component and a dot
stay in the directory they stand in, two dots leave it, and every other component enters a directory
of its name (`enter`). `resolve` is the directory in which a path ends.

What is joined to a path by a separator ends below it, unless it has a component of two dots
(`resolve_prefix_append`).

Main definitions: `enter`, `walk`, `resolve`.
Main results: `resolve_append`, `resolve_prefix_append`, `resolve_rdropWhile`.
-/

set_option autoImplicit false
set_option relaxedAutoImplicit false

namespace MaRuntime.Paths

variable {Symbol : Type*} [DecidableEq Symbol]

/-- The directory that a component leads to, given by the names on the way to it. -/
def enter (dot : Symbol) (directory : List (List Symbol)) (component : List Symbol) :
    List (List Symbol) :=
  if component = [] ∨ component = [dot] then directory
  else if component = [dot, dot] then directory.dropLast
  else directory ++ [component]

/-- The directory that some components lead to, one after the other. -/
def walk (dot : Symbol) (directory components : List (List Symbol)) : List (List Symbol) :=
  components.foldl (enter dot) directory

/-- The directory in which a path ends that begins at the top. -/
def resolve (separator dot : Symbol) (path : List Symbol) : List (List Symbol) :=
  walk dot [] (path.splitOn separator)

variable {separator dot : Symbol} {directory components : List (List Symbol)}

theorem prefix_enter {component : List Symbol} (h : component ≠ [dot, dot]) :
    directory <+: enter dot directory component := by
  unfold enter
  split_ifs
  · exact List.prefix_refl _
  · exact List.prefix_append _ _

theorem prefix_walk (h : [dot, dot] ∉ components) :
    directory <+: walk dot directory components := by
  induction components generalizing directory with
  | nil => exact List.prefix_refl _
  | cons component rest ih =>
    rw [List.mem_cons, not_or] at h
    exact (prefix_enter (Ne.symm h.1)).trans (ih h.2)

theorem walk_append (more : List (List Symbol)) :
    walk dot directory (components ++ more) = walk dot (walk dot directory components) more :=
  List.foldl_append

theorem resolve_append (path rest : List Symbol) :
    resolve separator dot (path ++ separator :: rest) =
      walk dot (resolve separator dot path) (rest.splitOn separator) := by
  rw [resolve, List.splitOn_append_cons_self, walk_append]
  rfl

theorem resolve_prefix_append (path : List Symbol) {rest : List Symbol}
    (h : [dot, dot] ∉ rest.splitOn separator) :
    resolve separator dot path <+: resolve separator dot (path ++ separator :: rest) := by
  rw [resolve_append]
  exact prefix_walk h

/-- Separators at the end of a path lead nowhere. -/
theorem resolve_rdropWhile (path : List Symbol) :
    resolve separator dot (path.rdropWhile (· == separator)) = resolve separator dot path := by
  induction path using List.reverseRecOn with
  | nil => rfl
  | append_singleton rest symbol ih =>
    rw [List.rdropWhile_concat]
    split_ifs with hsymbol
    · obtain rfl := beq_iff_eq.mp hsymbol
      rw [ih, resolve_append, List.splitOn_nil]
      simp [walk, enter]
    · rfl

end MaRuntime.Paths
