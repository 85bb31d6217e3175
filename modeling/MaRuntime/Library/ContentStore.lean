import MaRuntime.Library.KeyedMap

/-!
# Content-addressed stores

A store of documents in which the identifier of a document is a function of its content. What a
reader gets for the identifier of a document is the document (`ContentStore.document_cidOf`), so two
documents with one identifier are the same (`ContentStore.cidOf_injective`). Putting a document
changes nothing that a reader could have seen before, so the store is no part of a state.

A cache `Mirrors` a table of links when it has for each link what the link leads to, and nothing
else. An insertion and a removal on both sides keep it (`Mirrors.insert`, `Mirrors.remove`).
-/

set_option autoImplicit false
set_option relaxedAutoImplicit false

namespace MaRuntime

/-- Identifiers of documents by their content. -/
structure ContentStore (Document Cid : Type*) where
  cidOf : Document → Cid
  document : Cid → Option Document
  document_cidOf : ∀ d, document (cidOf d) = some d

namespace ContentStore

variable {Document Cid : Type*} (store : ContentStore Document Cid)

attribute [simp] document_cidOf

theorem cidOf_injective : Function.Injective store.cidOf := by
  intro first second h
  have hsome : some first = some second := by
    rw [← store.document_cidOf first, h, store.document_cidOf]
  exact Option.some.inj hsome

end ContentStore

section Mirrors

variable {Name Key Link Content : Type*} [DecidableEq Name] [DecidableEq Key]
  {read : Link → Option Content} {keyOf : Name → Key} {links : KeyedMap Name Link}
  {cache : KeyedMap Key Content}

variable (read keyOf links cache) in
/-- A cache has, under the key of each name with a link, what the link leads to, and nothing under
the key of a name without a link. -/
def Mirrors : Prop :=
  ∀ name, (links.get name).map read = (cache.get (keyOf name)).map some

theorem Mirrors.insert (h : Mirrors read keyOf links cache) (hkey : Function.Injective keyOf)
    (name : Name) (link : Link) {content : Content} (hread : read link = some content) :
    Mirrors read keyOf (links.insert name link) (cache.insert (keyOf name) content) := by
  intro other
  by_cases hother : other = name
  · subst hother
    rw [KeyedMap.get_insert_self, KeyedMap.get_insert_self, Option.map_some, Option.map_some, hread]
  · rw [KeyedMap.get_insert_of_ne _ _ hother, KeyedMap.get_insert_of_ne _ _ (hkey.ne hother)]
    exact h other

theorem Mirrors.remove (h : Mirrors read keyOf links cache) (hkey : Function.Injective keyOf)
    (name : Name) :
    Mirrors read keyOf (links.remove name) (cache.remove (keyOf name)) := by
  intro other
  by_cases hother : other = name
  · subst hother
    rw [KeyedMap.get_remove_self, KeyedMap.get_remove_self]
    rfl
  · rw [KeyedMap.get_remove_of_ne _ hother, KeyedMap.get_remove_of_ne _ (hkey.ne hother)]
    exact h other

/-- A table with the same links has the same mirrors. -/
theorem Mirrors.congr_links {others : KeyedMap Name Link} (h : Mirrors read keyOf links cache)
    (hlinks : ∀ name, others.get name = links.get name) : Mirrors read keyOf others cache := by
  intro name
  rw [hlinks]
  exact h name

end Mirrors

end MaRuntime
