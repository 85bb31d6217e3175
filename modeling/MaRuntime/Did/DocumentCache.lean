import MaRuntime.Library.KeyedMap
import MaRuntime.Library.Runs
import MaRuntime.Library.Timestamps

/-!
# The cache of DID documents

A runtime keeps the DID documents it knows, each under the DID without path and fragment. A document
that was received is put there as it is (`insertKnown`). One that a resolver answers with is merged:
it takes the place of an older one (`mergeResolved`). Calls run side by side, and a resolver may
take any time for its answer and answer with any document.

Which of two documents is the older one is read from the texts of their timestamps. A merge is right
where the texts are in the order of the instants (`OrderedTexts`), which they are in one format
(`lawful_of_sameFormat`), and wrong elsewhere (`merges_lawful_iff`): a document with a fraction of a
second is not taken over one from the beginning of that second (`fraction_not_newer`).

Main definitions: `mergeResolved`, `resolverStep`, `Lawful`, `OrderedTexts`.
Main results: `merges_lawful_iff`, `lawful_of_sameFormat`.

Scope. `Did::try_from` with `base_id` comes with `ma_core` and is the parameter `baseId`; a text
that is no DID has none. The documents are a type with timestamps, those of RFC 3339.
-/

set_option autoImplicit false
set_option relaxedAutoImplicit false

namespace MaRuntime.Did

open Runs Timestamps

/-- A call of `resolve` or `refresh`: not made, waiting for its resolver, or at its end with a
document or with an error. -/
inductive Call (Doc : Type)
  | idle
  | awaiting (did : String)
  | returned (result : Option Doc)

/-- The cache, and the calls that were made. -/
structure ResolverState (Doc : Type) where
  documents : KeyedMap String Doc
  calls : ℕ → Call Doc

/-- `RuntimeDidResolver::new` -/
def ResolverState.new {Doc : Type} : ResolverState Doc := ⟨.empty, fun _ ↦ .idle⟩

/-- A lock section of the cache. The resolver of a call answers with a document or an error. -/
inductive ResolverAction (Doc : Type)
  | insertKnown (did : String) (document : Doc)
  | resolve (call : ℕ) (did : String)
  | refresh (call : ℕ) (did : String)
  | answer (call : ℕ) (document : Option Doc)

section Cache

variable {Doc : Type} (baseId : String → Option String) (updatedAt : Doc → Timestamp)

/-- `DocumentCache::get` -/
def cachedFor (documents : KeyedMap String Doc) (did : String) : Option (Option Doc) :=
  (baseId did).map fun base ↦ documents.get base

/-- `DocumentCache::insert_published` -/
def insertPublished (documents : KeyedMap String Doc) (did : String) (document : Doc) :
    Option (KeyedMap String Doc) :=
  (baseId did).map fun base ↦ documents.insert base document

/-- `DocumentCache::merge_resolved`: the document that is returned, and the cache. -/
def mergeResolved (documents : KeyedMap String Doc) (did : String) (document : Doc) :
    Option (Doc × KeyedMap String Doc) :=
  (baseId did).map fun base ↦
    match documents.get base with
    | some cached =>
      if (updatedAt document).text ≤ (updatedAt cached).text then (cached, documents)
      else (document, documents.insert base document)
    | none => (document, documents.insert base document)

/-- The state with a call at another place. -/
def ResolverState.setCall (s : ResolverState Doc) (call : ℕ) (value : Call Doc) :
    ResolverState Doc :=
  { s with calls := Function.update s.calls call value }

/-- A step of `insert_known`, `resolve` or `refresh`. -/
def resolverStep (s : ResolverState Doc) : ResolverAction Doc → Option (ResolverState Doc)
  | .insertKnown did document =>
    match insertPublished baseId s.documents did document with
    | some documents => some { s with documents := documents }
    | none => some s
  | .resolve call did =>
    match s.calls call with
    | .idle =>
      match cachedFor baseId s.documents did with
      | none => some (s.setCall call (.returned none))
      | some (some document) => some (s.setCall call (.returned (some document)))
      | some none => some (s.setCall call (.awaiting did))
    | _ => none
  | .refresh call did =>
    match s.calls call with
    | .idle => some (s.setCall call (.awaiting did))
    | _ => none
  | .answer call document =>
    match s.calls call with
    | .awaiting did =>
      match document.bind (mergeResolved baseId updatedAt s.documents did) with
      | some (kept, documents) =>
        some (ResolverState.setCall { s with documents := documents } call (.returned (some kept)))
      | none => some (s.setCall call (.returned none))
    | _ => none

/-! ### What a step should do -/

/-- There is no cached document, or it is from an earlier instant. -/
def IsNewer (cached : Option Doc) (document : Doc) : Prop :=
  ∀ old, cached = some old → (updatedAt old).instant < (updatedAt document).instant

/-- A step does what it should: a document from a resolver is cached for its DID exactly if it is
newer, the call returns what is cached then, a document that is inserted is cached, and nothing
changes for other DIDs, nor in the other steps. -/
def Lawful (s : ResolverState Doc) (action : ResolverAction Doc) (t : ResolverState Doc) : Prop :=
  match action with
  | .insertKnown did document =>
    (∀ base, baseId did = some base → t.documents.get base = some document) ∧
      ∀ other, baseId did ≠ some other → t.documents.get other = s.documents.get other
  | .answer call (some document) => ∀ did, s.calls call = .awaiting did →
    (∀ base, baseId did = some base →
      (IsNewer updatedAt (s.documents.get base) document →
        t.documents.get base = some document) ∧
      (¬IsNewer updatedAt (s.documents.get base) document →
        t.documents.get base = s.documents.get base) ∧
      t.calls call = .returned (t.documents.get base)) ∧
    ∀ other, baseId did ≠ some other → t.documents.get other = s.documents.get other
  | _ => t.documents = s.documents

/-- The condition on a step: the timestamps of a document from a resolver and of the cached one have
texts in the order of their instants. -/
def OrderedTexts (s : ResolverState Doc) : ResolverAction Doc → Prop
  | .answer call (some document) => ∀ did base cached, s.calls call = .awaiting did →
    baseId did = some base → s.documents.get base = some cached →
    ((updatedAt cached).text < (updatedAt document).text ↔
      (updatedAt cached).instant < (updatedAt document).instant)
  | _ => True

end Cache

section Steps

variable {Doc : Type} {baseId : String → Option String} {updatedAt : Doc → Timestamp}
  {s t : ResolverState Doc} {action : ResolverAction Doc} {documents : KeyedMap String Doc}
  {did base : String} {document cached : Doc} {call : ℕ}

theorem not_text_le_iff {first second : Timestamp} :
    ¬second.text ≤ first.text ↔ first.text < second.text := not_not

/-- What is cached and returned after the answer of a resolver, for a DID. -/
theorem exists_kept_of_answer (hcall : s.calls call = .awaiting did)
    (hbase : baseId did = some base)
    (hstep : resolverStep baseId updatedAt s (.answer call (some document)) = some t) :
    ∃ kept, t.documents.get base = some kept ∧ t.calls call = .returned (some kept) ∧
      (∀ other, other ≠ base → t.documents.get other = s.documents.get other) ∧
      ((∀ old, s.documents.get base = some old →
        (updatedAt old).text < (updatedAt document).text) → kept = document) ∧
      (∀ old, s.documents.get base = some old →
        ¬(updatedAt old).text < (updatedAt document).text → kept = old) := by
  simp only [resolverStep, hcall, Option.bind_some, mergeResolved, hbase, Option.map_some] at hstep
  cases hcached : s.documents.get base with
  | none =>
    rw [hcached] at hstep
    obtain rfl := Option.some.inj hstep
    refine ⟨document, KeyedMap.get_insert_self _ _ _, Function.update_self _ _ _, ?_, ?_, ?_⟩
    · exact fun other hother ↦ KeyedMap.get_insert_of_ne _ _ hother
    · exact fun _ ↦ rfl
    · intro old hold
      cases hold
  | some cached =>
    rw [hcached] at hstep
    by_cases hle : (updatedAt document).text ≤ (updatedAt cached).text
    · simp only [if_pos hle] at hstep
      obtain rfl := Option.some.inj hstep
      refine ⟨cached, hcached, Function.update_self _ _ _, fun _ _ ↦ rfl, ?_, ?_⟩
      · exact fun hnewer ↦ absurd hle (not_text_le_iff.mpr (hnewer cached rfl))
      · exact fun old hold _ ↦ Option.some.inj hold
    · simp only [if_neg hle] at hstep
      obtain rfl := Option.some.inj hstep
      refine ⟨document, KeyedMap.get_insert_self _ _ _, Function.update_self _ _ _, ?_, ?_, ?_⟩
      · exact fun other hother ↦ KeyedMap.get_insert_of_ne _ _ hother
      · exact fun _ ↦ rfl
      · intro old hold hnot
        obtain rfl := Option.some.inj hold
        exact absurd (not_text_le_iff.mp hle) hnot

/-- An answer for a text that is no DID changes no document. -/
theorem documents_of_answer (hcall : s.calls call = .awaiting did) (hbase : baseId did = none)
    (hstep : resolverStep baseId updatedAt s (.answer call (some document)) = some t) :
    t.documents = s.documents := by
  simp only [resolverStep, hcall, Option.bind_some, mergeResolved, hbase, Option.map_none] at hstep
  obtain rfl := Option.some.inj hstep
  rfl

/-- An answer of a resolver does what it should exactly where the texts are in order. -/
theorem lawful_answer_iff
    (hstep : resolverStep baseId updatedAt s (.answer call (some document)) = some t) :
    Lawful baseId updatedAt s (.answer call (some document)) t ↔
      OrderedTexts baseId updatedAt s (.answer call (some document)) := by
  constructor
  · intro hlawful did base cached hcall hbase hcached
    obtain ⟨kept, hkept, -, -, hreplaced, hold⟩ := exists_kept_of_answer hcall hbase hstep
    obtain ⟨hnewer, hnotNewer, -⟩ := (hlawful did hcall).1 base hbase
    have hiff : IsNewer updatedAt (s.documents.get base) document ↔
        (updatedAt cached).instant < (updatedAt document).instant := by
      unfold IsNewer
      rw [hcached]
      exact ⟨fun h ↦ h cached rfl, fun h old hcachedOld ↦ Option.some.inj hcachedOld ▸ h⟩
    -- the document that was not to be kept is the other one, so the two are not in one order
    constructor
    · intro htext
      by_contra hinstant
      have hsame := hnotNewer (mt hiff.mp hinstant)
      have hdocument := hreplaced fun old hcachedOld ↦ by
        obtain rfl := Option.some.inj (hcached.symm.trans hcachedOld)
        exact htext
      rw [hkept, hcached, hdocument] at hsame
      rw [Option.some.inj hsame] at htext
      exact String.lt_irrefl _ htext
    · intro hinstant
      by_contra htext
      have hsame := hnewer (hiff.mpr hinstant)
      have hcachedKept := hold cached hcached htext
      rw [hkept, hcachedKept] at hsame
      rw [Option.some.inj hsame] at hinstant
      exact lt_irrefl _ hinstant
  · intro hordered did hcall
    refine ⟨fun base hbase ↦ ?_, fun other hother ↦ ?_⟩
    · obtain ⟨kept, hkept, hreturned, -, hreplaced, hold⟩ := exists_kept_of_answer hcall hbase hstep
      refine ⟨fun hnewer ↦ ?_, fun hnotNewer ↦ ?_, hreturned.trans (congrArg _ hkept.symm)⟩
      · have hdocument := hreplaced fun old hcached ↦
          (hordered did base old hcall hbase hcached).mpr (hnewer old hcached)
        rw [hkept, hdocument]
      · simp only [IsNewer, not_forall] at hnotNewer
        obtain ⟨old, hcached, hinstant⟩ := hnotNewer
        have htext := mt (hordered did base old hcall hbase hcached).mp hinstant
        rw [hkept, hcached, hold old hcached htext]
    · cases hbase : baseId did with
      | none => rw [documents_of_answer hcall hbase hstep]
      | some base =>
        obtain ⟨-, -, -, hothers, -⟩ := exists_kept_of_answer hcall hbase hstep
        refine hothers other ?_
        rintro rfl
        exact hother hbase

/-- A document that is inserted is cached, and no other one changes. -/
theorem lawful_insertKnown
    (hstep : resolverStep baseId updatedAt s (.insertKnown did document) = some t) :
    Lawful baseId updatedAt s (.insertKnown did document) t := by
  cases hbase : baseId did with
  | none =>
    simp only [resolverStep, insertPublished, hbase, Option.map_none] at hstep
    obtain rfl := Option.some.inj hstep
    constructor
    · intro base hbase'
      cases hbase.symm.trans hbase'
    · intro other _
      rfl
  | some base =>
    simp only [resolverStep, insertPublished, hbase, Option.map_some] at hstep
    obtain rfl := Option.some.inj hstep
    constructor
    · intro base' hbase'
      obtain rfl := Option.some.inj (hbase.symm.trans hbase')
      exact KeyedMap.get_insert_self _ _ _
    · intro other hother
      refine KeyedMap.get_insert_of_ne _ _ ?_
      rintro rfl
      exact hother hbase

/-- A call that begins, or ends with the error of its resolver, changes no document. -/
theorem documents_of_call (hstep : resolverStep baseId updatedAt s action = some t)
    (hcall : (∃ call did, action = .resolve call did) ∨ (∃ call did, action = .refresh call did) ∨
      ∃ call, action = .answer call none) : t.documents = s.documents := by
  rcases hcall with ⟨call, did, rfl⟩ | ⟨call, did, rfl⟩ | ⟨call, rfl⟩
  · simp only [resolverStep] at hstep
    split at hstep
    · split at hstep
      all_goals
        obtain rfl := Option.some.inj hstep
        rfl
    · cases hstep
  · simp only [resolverStep] at hstep
    split at hstep
    · obtain rfl := Option.some.inj hstep
      rfl
    · cases hstep
  · simp only [resolverStep, Option.bind_none] at hstep
    split at hstep
    · obtain rfl := Option.some.inj hstep
      rfl
    · cases hstep

/-- A step does what it should exactly where it meets the condition. -/
theorem lawful_iff (hstep : resolverStep baseId updatedAt s action = some t) :
    Lawful baseId updatedAt s action t ↔ OrderedTexts baseId updatedAt s action := by
  cases action with
  | insertKnown did document => exact iff_of_true (lawful_insertKnown hstep) trivial
  | resolve call did =>
    exact iff_of_true (documents_of_call hstep (.inl ⟨call, did, rfl⟩)) trivial
  | refresh call did =>
    exact iff_of_true (documents_of_call hstep (.inr (.inl ⟨call, did, rfl⟩))) trivial
  | answer call document =>
    cases document with
    | none => exact iff_of_true (documents_of_call hstep (.inr (.inr ⟨call, rfl⟩))) trivial
    | some document => exact lawful_answer_iff hstep

/-- All steps of a run do what they should, if and only if every document that a resolver answers
with has a timestamp whose text is in order with that of the cached one. -/
theorem merges_lawful_iff {actions : List (ResolverAction Doc)} {u : ResolverState Doc}
    (h : Run (resolverStep baseId updatedAt) .new actions u) :
    (∀ before action after s t, actions = before ++ action :: after →
      Run (resolverStep baseId updatedAt) .new before s →
      resolverStep baseId updatedAt s action = some t → Lawful baseId updatedAt s action t) ↔
    GuardedRun (resolverStep baseId updatedAt) (OrderedTexts baseId updatedAt) .new actions u := by
  rw [guardedRun_iff_forall_split h]
  constructor
  · intro hlawful before action after s hsplit hs
    obtain ⟨-, -, t, hstep, -⟩ := GuardedRun.cut_cons (hsplit ▸ h) hs
    exact (lawful_iff hstep).mp (hlawful before action after s t hsplit hs hstep)
  · intro hordered before action after s t hsplit hs hstep
    exact (lawful_iff hstep).mpr (hordered before action after s hsplit hs)

/-- Where all timestamps are in one format, every step does what it should. -/
theorem lawful_of_sameFormat
    (hformat : ∀ first second : Doc, SameFormat (updatedAt first) (updatedAt second))
    (hstep : resolverStep baseId updatedAt s action = some t) :
    Lawful baseId updatedAt s action t := by
  refine (lawful_iff hstep).mpr ?_
  unfold OrderedTexts
  split
  · intro did base cached _ _ _
    exact (hformat cached _).text_lt_iff
  · trivial

end Steps

/-! ### A fraction of a second -/

/-- Ten o'clock on a day, with tenths of a second. -/
def atTen (fraction fractionDigits : ℕ)
    (fraction_lt : fraction < 10 ^ fractionDigits := by decide) : Timestamp where
  year := 2026
  month := 8
  day := 24
  hour := 10
  minute := 0
  second := 0
  fraction := fraction
  fractionDigits := fractionDigits
  offset := .zulu false
  lowerT := false
  fraction_lt := fraction_lt

/-- A document is not known, and is resolved. -/
def resolveActions : List (ResolverAction Timestamp) :=
  [.resolve 0 "did:ma:a", .answer 0 (some (atTen 0 0))]

theorem merges_lawful_resolved :
    ∃ u, ((∀ before action after s t, resolveActions = before ++ action :: after →
        Run (resolverStep some id) .new before s → resolverStep some id s action = some t →
        Lawful some id s action t) ↔
      GuardedRun (resolverStep some id) (OrderedTexts some id) .new resolveActions u) :=
  ⟨_, merges_lawful_iff (run_of_execute rfl)⟩

/-- The state in which a document is known and a refresh waits for its answer. -/
def refreshing (known : Timestamp) : ResolverState Timestamp :=
  ResolverState.setCall ⟨.insert .empty "did:ma:a" known, fun _ ↦ .idle⟩ 0 (.awaiting "did:ma:a")

/-- The document that is half a second newer is not taken. -/
theorem fraction_not_newer :
    (atTen 0 0).instant < (atTen 5 1).instant ∧
    Run (resolverStep some id) .new
      [.insertKnown "did:ma:a" (atTen 0 0), .refresh 0 "did:ma:a"] (refreshing (atTen 0 0)) ∧
    ∃ t, resolverStep some id (refreshing (atTen 0 0)) (.answer 0 (some (atTen 5 1))) = some t ∧
      t.documents.get "did:ma:a" = some (atTen 0 0) ∧
      ¬Lawful some id (refreshing (atTen 0 0)) (.answer 0 (some (atTen 5 1))) t := by
  have hinstant : (atTen 0 0).instant < (atTen 5 1).instant := by
    have hminute : (atTen 0 0).clockMinute = (atTen 5 1).clockMinute :=
      Timestamp.clockMinute_congr rfl rfl rfl rfl rfl
    unfold Timestamp.instant
    rw [hminute]
    exact Prod.Lex.toLex_lt_toLex.mpr (.inr ⟨rfl, by norm_num [atTen]⟩)
  have htext : ¬(atTen 0 0).text < (atTen 5 1).text := by decide
  have hcached : (refreshing (atTen 0 0)).documents.get "did:ma:a" = some (atTen 0 0) :=
    KeyedMap.get_insert_self _ _ _
  have hcall : (refreshing (atTen 0 0)).calls 0 = .awaiting "did:ma:a" := rfl
  obtain ⟨t, hstep⟩ : ∃ t, resolverStep some id (refreshing (atTen 0 0))
      (.answer 0 (some (atTen 5 1))) = some t := by
    simp only [resolverStep, hcall, Option.bind_some, mergeResolved, Option.map_some]
    exact ⟨_, rfl⟩
  obtain ⟨kept, hkept, -, -, -, hold⟩ := exists_kept_of_answer hcall rfl hstep
  refine ⟨hinstant, run_of_execute rfl, t, hstep, ?_, fun hlawful ↦ ?_⟩
  · rw [hkept, hold (atTen 0 0) hcached htext]
  · have hordered := (lawful_answer_iff hstep).mp hlawful
    exact htext ((hordered "did:ma:a" "did:ma:a" (atTen 0 0) hcall rfl hcached).mpr hinstant)

end MaRuntime.Did
