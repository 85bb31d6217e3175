import MaRuntime.Library.KeyedMap
import MaRuntime.Library.Pools
import MaRuntime.Library.Runs
import MaRuntime.Library.Yaml

/-!
# The keys of IPNS publications

The runtime publishes under IPNS names for itself and for the agents that ask it to, with keys that
it keeps in Kubo's key store under names of its own. `ensure_kubo_ipns_key` looks for a key of the
wanted name, imports the secret when there is none, and refuses to go on when the key's id is not
the one that was expected. Publications run beside each other, and others take their turns between
the list of the keys, the import and the publication (`keyStep`).

A record is only ever written by a publication that was asked for its id, whatever the secrets and
the answers are (`records_written_by_owners`): a key is not exchanged for another one, so what was
seen once stays true. For the same reason the key of a name decides what becomes of all later
publications under it: those that expect its id go on, and those that expect another one are refused
for good (`decided_by_key`). A key that was not there at the start is that of the secret of some
publication under its name, also of one whose import was refused.

Main definitions: `Kubo`, `ensureListed`, `ensureImported`, `keyStep`.
Main results: `records_written_by_owners`, `decided_by_key`.

Scope. Kubo refuses to import under a name that is taken, publishes under the id of the named key,
and does not lose keys. Each request may be performed or not, and its answer may be lost. The id
that Kubo derives from a key, and libp2p's encoding of a secret, are parameters.
-/

set_option autoImplicit false
set_option relaxedAutoImplicit false

namespace MaRuntime.Ipfs

open Runs Pools

/-! ### Kubo's keys and records -/

/-- The ids of the keys by their names, and the paths of the records by their ids. -/
structure Kubo where
  keys : KeyedMap String String
  records : KeyedMap String String

/-- `KeyListEntry`; a field that an answer leaves out is empty. -/
structure KeyListEntry where
  name : String
  nameLower : String
  id : String
  idLower : String

/-- What `list_keys` takes from an entry of the answer. -/
def listedKey (k : KeyListEntry) : Option (String × String) :=
  let name := if trim k.name = "" then trim k.nameLower else trim k.name
  let id := if trim k.id = "" then trim k.idLower else trim k.id
  if name = "" ∨ id = "" then none else some (name, id)

/-- Kubo's answer to `key/list`. -/
def Kubo.keyList (kubo : Kubo) : List KeyListEntry :=
  kubo.keys.entries.map fun key ↦ ⟨key.1, "", key.2, ""⟩

/-- `list_keys`. -/
def listKeys (answer : List KeyListEntry) : List (String × String) := answer.filterMap listedKey

/-- Kubo's `key/import`, with the id it answers. -/
def Kubo.keyImport (idOf : List UInt8 → Option String) (kubo : Kubo) (keyName : String)
    (keyBytes : List UInt8) : Option (String × Kubo) :=
  match kubo.keys.get keyName, idOf keyBytes with
  | none, some id => some (id, { kubo with keys := kubo.keys.insert keyName id })
  | _, _ => none

/-- Kubo's `name/publish`. -/
def Kubo.namePublish (kubo : Kubo) (keyName path : String) : Option Kubo :=
  (kubo.keys.get keyName).map fun id ↦ { kubo with records := kubo.records.insert id path }

/-! ### A key for a publication -/

/-- The errors of `ensure_kubo_ipns_key`: a request that fails, a key with another id, a secret of
another length, a secret that is no key, and an imported key with another id. -/
inductive EnsureError
  | request
  | existing (keyName id expected : String)
  | secretLength
  | invalidKey
  | imported (id expected : String)
deriving DecidableEq

/-- The texts of the errors that are not those of a request or of libp2p. -/
def EnsureError.text : EnsureError → Option String
  | .existing keyName id expected =>
    some ("existing key '" ++ keyName ++ "' has IPNS id '" ++ id ++ "' but expected '" ++
      expected ++ "'")
  | .secretLength => some "ipns_secret_key must be 32 bytes"
  | .imported id expected =>
    some ("imported key IPNS id '" ++ id ++ "' does not match expected '" ++ expected ++ "'")
  | .request | .invalidKey => none

/-- `ensure_kubo_ipns_key` after the list of the keys: nothing is left to do, or there is a key to
be imported. -/
def ensureListed (protobufKey : List UInt8 → Option (List UInt8))
    (keyName expected : String) (secret : List UInt8) (listed : List (String × String)) :
    Except EnsureError (Option (List UInt8)) :=
  match listed.find? fun key ↦ key.1 = keyName with
  | some (_, id) =>
    if trim id = expected then .ok none else .error (.existing keyName id expected)
  | none =>
    if secret.length = 32 then
      match protobufKey secret with
      | some keyBytes => .ok (some keyBytes)
      | none => .error .invalidKey
    else .error .secretLength

/-- `ensure_kubo_ipns_key` after the import, with the id of `import_key`. -/
def ensureImported (expected id : String) : Except EnsureError Unit :=
  if trim id = expected then .ok () else .error (.imported id expected)

/-! ### Publications -/

/-- Where a publication stands: before the list of the keys, before the import, before the
publication of the name, with its record written, or with an error. -/
inductive PublishPhase
  | lists
  | imports (keyBytes : List UInt8)
  | publishes
  | published
  | failed (error : EnsureError)
deriving DecidableEq

/-- A publication of a path under the name of a key, for an id, with the secret of the key. -/
structure Publication where
  keyName : String
  expected : String
  secret : List UInt8
  path : String
  phase : PublishPhase

/-- Kubo and the publications. -/
structure PublishState where
  kubo : Kubo
  publications : List Publication

/-- What becomes of a request: whether Kubo performs it, and whether its answer arrives. -/
structure RequestFate where
  performed : Bool
  answered : Bool

/-- A publication is started, or does its next request. -/
inductive PublishAction
  | starts (keyName expected : String) (secret : List UInt8) (path : String)
  | requests (i : ℕ) (fate : RequestFate)

/-- The next phase of a publication, and Kubo after its request. -/
def Publication.next (idOf : List UInt8 → Option String)
    (protobufKey : List UInt8 → Option (List UInt8)) (kubo : Kubo) (p : Publication)
    (fate : RequestFate) : Option (PublishPhase × Kubo) :=
  match p.phase with
  | .lists =>
    if fate.performed ∧ fate.answered then
      match ensureListed protobufKey p.keyName p.expected p.secret (listKeys kubo.keyList) with
      | .ok none => some (.publishes, kubo)
      | .ok (some keyBytes) => some (.imports keyBytes, kubo)
      | .error error => some (.failed error, kubo)
    else some (.failed .request, kubo)
  | .imports keyBytes =>
    match (if fate.performed then kubo.keyImport idOf p.keyName keyBytes else none) with
    | some (id, after) =>
      if fate.answered then
        match ensureImported p.expected id with
        | .ok () => some (.publishes, after)
        | .error error => some (.failed error, after)
      else some (.failed .request, after)
    | none => some (.failed .request, kubo)
  | .publishes =>
    match (if fate.performed then kubo.namePublish p.keyName p.path else none) with
    | some after => some (if fate.answered then .published else .failed .request, after)
    | none => some (.failed .request, kubo)
  | .published | .failed _ => none

/-- One step of an interleaving of publications. -/
def keyStep (idOf : List UInt8 → Option String) (protobufKey : List UInt8 → Option (List UInt8))
    (s : PublishState) : PublishAction → Option PublishState
  | .starts keyName expected secret path =>
    some { s with publications := s.publications ++ [⟨keyName, expected, secret, path, .lists⟩] }
  | .requests i fate =>
    match s.publications[i]? with
    | none => none
    | some p => (p.next idOf protobufKey s.kubo fate).map fun (phase, kubo) ↦
        { kubo, publications := advance s.publications i { p with phase } }

/-! ### Names and ids -/

/-- A text that is not empty and has no white space at its ends. -/
def IsTidy (text : String) : Prop := trim text = text ∧ text ≠ ""

instance (text : String) : Decidable (IsTidy text) := inferInstanceAs (Decidable (_ ∧ _))

/-- The names and ids of the keys are tidy. -/
def Kubo.Tidy (kubo : Kubo) : Prop :=
  ∀ entry ∈ kubo.keys.entries, IsTidy entry.1 ∧ IsTidy entry.2

/-- A publication is started under a tidy name. -/
def StartsTidy (_ : PublishState) : PublishAction → Prop
  | .starts keyName _ _ _ => IsTidy keyName
  | .requests _ _ => True

section Listed

variable {kubo : Kubo} {keyName id path : String} {keyBytes : List UInt8}
  {idOf : List UInt8 → Option String} {after : Kubo}

theorem listKeys_keyList (h : kubo.Tidy) : listKeys kubo.keyList = kubo.keys.entries := by
  obtain ⟨⟨entries⟩, records⟩ := kubo
  unfold listKeys Kubo.keyList
  rw [List.filterMap_map]
  refine (List.filterMap_congr fun entry hentry ↦ ?_).trans List.filterMap_some
  obtain ⟨⟨hname, hname'⟩, hid, hid'⟩ := h entry hentry
  simp [listedKey, hname, hname', hid, hid']

/-- What `ensure_kubo_ipns_key` finds is the key of that name. -/
theorem find_listKeys (keyName : String) (h : kubo.Tidy) :
    ((listKeys kubo.keyList).find? fun key ↦ key.1 = keyName).map Prod.snd =
      kubo.keys.get keyName := by
  rw [listKeys_keyList h]
  obtain ⟨⟨entries⟩, records⟩ := kubo
  clear h
  induction entries with
  | nil => rfl
  | cons entry rest ih =>
    obtain ⟨name, id⟩ := entry
    simp only [KeyedMap.get, List.lookup_cons, List.find?_cons] at ih ⊢
    by_cases hname : name = keyName
    · simp [hname]
    · simpa [hname, beq_false_of_ne (Ne.symm hname)] using ih

theorem isTidy_of_get (h : kubo.Tidy) (hget : kubo.keys.get keyName = some id) : IsTidy id :=
  (h _ (KeyedMap.mem_of_get hget)).2

theorem keyImport_eq_some_iff :
    kubo.keyImport idOf keyName keyBytes = some (id, after) ↔
      kubo.keys.get keyName = none ∧ idOf keyBytes = some id ∧
        after = { kubo with keys := kubo.keys.insert keyName id } := by
  unfold Kubo.keyImport
  cases hkey : kubo.keys.get keyName with
  | some other => simp
  | none =>
    cases hid : idOf keyBytes with
    | none => simp
    | some derived =>
      simp only [Option.some.injEq, Prod.mk.injEq, true_and]
      constructor
      · rintro ⟨rfl, rfl⟩
        exact ⟨rfl, rfl⟩
      · rintro ⟨rfl, rfl⟩
        exact ⟨rfl, rfl⟩

theorem tidy_insert (h : kubo.Tidy) (hname : IsTidy keyName) (hid : IsTidy id) :
    Kubo.Tidy { kubo with keys := kubo.keys.insert keyName id } := by
  intro entry hentry
  rcases List.mem_cons.mp hentry with rfl | hrest
  · exact ⟨hname, hid⟩
  · exact h entry (List.mem_of_mem_filter hrest)

end Listed

/-! ### One request -/

/-- What a request of a publication comes to. -/
inductive PublishMove (idOf : List UInt8 → Option String)
    (protobufKey : List UInt8 → Option (List UInt8)) (kubo : Kubo) (p : Publication) :
    PublishPhase → Kubo → Prop
  | fail : PublishMove idOf protobufKey kubo p (.failed .request) kubo
  | found (h : p.phase = .lists) (hkey : kubo.keys.get p.keyName = some p.expected) :
    PublishMove idOf protobufKey kubo p .publishes kubo
  | foundOther (id : String) (h : p.phase = .lists) (hkey : kubo.keys.get p.keyName = some id)
    (hid : id ≠ p.expected) :
    PublishMove idOf protobufKey kubo p (.failed (.existing p.keyName id p.expected)) kubo
  | missing (phase : PublishPhase) (h : p.phase = .lists) (hkey : kubo.keys.get p.keyName = none)
    (hphase : phase ≠ .publishes)
    (himports : ∀ keyBytes, phase = .imports keyBytes → protobufKey p.secret = some keyBytes) :
    PublishMove idOf protobufKey kubo p phase kubo
  | imported (phase : PublishPhase) (keyBytes : List UInt8) (id : String)
    (h : p.phase = .imports keyBytes) (hkey : kubo.keys.get p.keyName = none)
    (hid : idOf keyBytes = some id) (hphase : phase = .publishes → id = p.expected)
    (himports : ∀ keyBytes, phase ≠ .imports keyBytes) :
    PublishMove idOf protobufKey kubo p phase { kubo with keys := kubo.keys.insert p.keyName id }
  | publish (phase : PublishPhase) (id : String) (h : p.phase = .publishes)
    (hkey : kubo.keys.get p.keyName = some id)
    (hphase : phase = .published ∨ phase = .failed .request) :
    PublishMove idOf protobufKey kubo p phase { kubo with records := kubo.records.insert id p.path }

section Requests

variable {idOf : List UInt8 → Option String} {protobufKey : List UInt8 → Option (List UInt8)}
  {kubo after : Kubo} {p : Publication} {fate : RequestFate} {phase : PublishPhase}

theorem ensureListed_move (idOf : List UInt8 → Option String)
    (protobufKey : List UInt8 → Option (List UInt8)) (h : p.phase = .lists) (htidy : kubo.Tidy) :
    PublishMove idOf protobufKey kubo p
      (match ensureListed protobufKey p.keyName p.expected p.secret (listKeys kubo.keyList) with
        | .ok none => .publishes
        | .ok (some keyBytes) => .imports keyBytes
        | .error error => .failed error) kubo := by
  have hfind := find_listKeys p.keyName htidy
  unfold ensureListed
  cases hfound : (listKeys kubo.keyList).find? fun key ↦ key.1 = p.keyName with
  | some key =>
    obtain ⟨name, id⟩ := key
    rw [hfound, Option.map_some] at hfind
    have hid : trim id = id := (isTidy_of_get htidy hfind.symm).1
    simp only [hid]
    split_ifs with hexpected
    · exact .found h (hexpected ▸ hfind.symm)
    · exact .foundOther id h hfind.symm hexpected
  | none =>
    rw [hfound, Option.map_none] at hfind
    simp only
    split_ifs
    · cases hencoded : protobufKey p.secret with
      | none => exact .missing _ h hfind.symm nofun nofun
      | some keyBytes =>
        refine .missing _ h hfind.symm nofun fun other hother ↦ ?_
        cases hother
        exact hencoded
    · exact .missing _ h hfind.symm nofun nofun

theorem publishMove_of_next (htidy : kubo.Tidy)
    (hids : ∀ keyBytes id, idOf keyBytes = some id → IsTidy id)
    (h : p.next idOf protobufKey kubo fate = some (phase, after)) :
    PublishMove idOf protobufKey kubo p phase after := by
  unfold Publication.next at h
  cases hphase : p.phase with
  | lists =>
    have hmove := ensureListed_move idOf protobufKey hphase htidy
    simp only [hphase] at h
    split_ifs at h with hserved
    · split at h
      all_goals
        rename_i hlisted
        rw [hlisted] at hmove
        cases h
        exact hmove
    · cases h
      exact .fail
  | imports keyBytes =>
    simp only [hphase] at h
    split at h
    · rename_i id imported himport
      split_ifs at himport with hperformed
      obtain ⟨hkey, hid, rfl⟩ := keyImport_eq_some_iff.mp himport
      have hid' : trim id = id := (hids keyBytes id hid).1
      rw [ensureImported, hid'] at h
      split_ifs at h with hanswered hexpected
      · cases h
        exact .imported _ keyBytes id hphase hkey hid (fun _ ↦ hexpected) nofun
      · cases h
        exact .imported _ keyBytes id hphase hkey hid nofun nofun
      · cases h
        exact .imported _ keyBytes id hphase hkey hid nofun nofun
    · cases h
      exact .fail
  | publishes =>
    simp only [hphase] at h
    split at h
    · rename_i published hpublish
      split_ifs at hpublish with hperformed
      obtain ⟨id, hkey, rfl⟩ := Option.map_eq_some_iff.mp hpublish
      cases h
      refine .publish _ id hphase hkey ?_
      cases fate.answered with
      | true => exact .inl rfl
      | false => exact .inr rfl
    · cases h
      exact .fail
  | published => simp [hphase] at h
  | failed error => simp [hphase] at h

theorem tidy_of_move (htidy : kubo.Tidy) (hname : IsTidy p.keyName)
    (hids : ∀ keyBytes id, idOf keyBytes = some id → IsTidy id)
    (h : PublishMove idOf protobufKey kubo p phase after) : after.Tidy := by
  cases h with
  | fail | found | foundOther | missing => exact htidy
  | imported _ keyBytes id h hkey hid => exact tidy_insert htidy hname (hids keyBytes id hid)
  | publish => exact htidy

/-- A key stays under its name. -/
theorem keys_of_move {name id : String} (h : PublishMove idOf protobufKey kubo p phase after)
    (hkey : kubo.keys.get name = some id) : after.keys.get name = some id := by
  cases h with
  | fail | found | foundOther | missing | publish => exact hkey
  | imported _ keyBytes other h hnone hid =>
    rw [KeyedMap.get_insert_of_ne _ _ ?_, hkey]
    rintro rfl
    rw [hnone] at hkey
    cases hkey

/-- A publication gets past its key only with the key it was asked for. -/
theorem publishes_of_move (h : PublishMove idOf protobufKey kubo p .publishes after) :
    after.keys.get p.keyName = some p.expected := by
  cases h with
  | found h hkey => exact hkey
  | missing _ h hkey hphase himports => exact absurd rfl hphase
  | imported _ keyBytes id h hkey hid hphase =>
    rw [KeyedMap.get_insert_self, hphase rfl]
  | publish _ id h hkey hphase => rcases hphase with hphase | hphase <;> cases hphase

/-- A key that is imported is that of the publication's secret. -/
theorem secret_of_move {name id : String}
    (hsecret : ∀ keyBytes, p.phase = .imports keyBytes → protobufKey p.secret = some keyBytes)
    (h : PublishMove idOf protobufKey kubo p phase after)
    (hkey : after.keys.get name = some id) :
    kubo.keys.get name = some id ∨
      (p.keyName = name ∧ (protobufKey p.secret).bind idOf = some id) := by
  cases h with
  | fail | found | foundOther | missing | publish => exact .inl hkey
  | imported _ keyBytes other h hnone hid =>
    rcases KeyedMap.get_insert_eq_some_iff.mp hkey with ⟨rfl, rfl⟩ | ⟨-, hold⟩
    · exact .inr ⟨rfl, by rw [hsecret keyBytes h, Option.bind_some, hid]⟩
    · exact .inl hold

theorem imports_of_move {keyBytes : List UInt8}
    (h : PublishMove idOf protobufKey kubo p (.imports keyBytes) after) :
    protobufKey p.secret = some keyBytes := by
  cases h with
  | missing _ h hkey hphase himports => exact himports keyBytes rfl
  | imported _ other id h hkey hid hphase himports => exact absurd rfl (himports keyBytes)
  | publish _ id h hkey hphase => rcases hphase with hphase | hphase <;> cases hphase

/-- A record is written for the id that was asked for. -/
theorem records_of_move (h : PublishMove idOf protobufKey kubo p phase after)
    (hkey : p.phase = .publishes → kubo.keys.get p.keyName = some p.expected) (id : String) :
    after.records.get id = kubo.records.get id ∨
      (p.expected = id ∧ after.records.get id = some p.path) := by
  cases h with
  | fail | found | foundOther | missing | imported => exact .inl rfl
  | publish _ written h hwritten hphase =>
    obtain rfl := Option.some.inj (hwritten.symm.trans (hkey h))
    by_cases hid : id = p.expected
    · subst hid
      exact .inr ⟨rfl, KeyedMap.get_insert_self _ _ _⟩
    · exact .inl (KeyedMap.get_insert_of_ne _ _ hid)

end Requests

/-! ### Runs -/

/-- Publications stand before their names only with their keys, the keys that were imported are
those of their secrets, and the records that have changed were written by those that were asked for
them. -/
structure OwnersWrite (idOf : List UInt8 → Option String)
    (protobufKey : List UInt8 → Option (List UInt8)) (start : Kubo) (s : PublishState) : Prop where
  tidy : s.kubo.Tidy
  publications : ∀ p ∈ s.publications, IsTidy p.keyName ∧
    (∀ keyBytes, p.phase = .imports keyBytes → protobufKey p.secret = some keyBytes) ∧
    (p.phase = .publishes → s.kubo.keys.get p.keyName = some p.expected)
  keys : ∀ name id, s.kubo.keys.get name = some id → start.keys.get name = some id ∨
    ∃ p ∈ s.publications, p.keyName = name ∧ (protobufKey p.secret).bind idOf = some id
  records : ∀ id, s.kubo.records.get id = start.records.get id ∨
    ∃ p ∈ s.publications, p.expected = id ∧ s.kubo.records.get id = some p.path

/-- What becomes of a publication under the name of a key with some id: it has not come to the list
of the keys, or a request has failed, or the key decides. -/
def KeyDecides (id : String) (p : Publication) : Prop :=
  p.phase = .lists ∨ p.phase = .failed .request ∨
    if p.expected = id then p.phase = .publishes ∨ p.phase = .published
    else p.phase = .failed (.existing p.keyName id p.expected)

section Runs

variable {idOf : List UInt8 → Option String} {protobufKey : List UInt8 → Option (List UInt8)}
  {start : Kubo} {s t : PublishState} {action : PublishAction}
  {before actions : List PublishAction}

theorem ownersWrite_start (htidy : start.Tidy) :
    OwnersWrite idOf protobufKey start ⟨start, []⟩ :=
  ⟨htidy, fun _ hp ↦ (nomatch hp), fun _ _ hkey ↦ .inl hkey, fun _ ↦ .inl rfl⟩

theorem ownersWrite_starts {keyName expected path : String} {secret : List UInt8}
    (hs : OwnersWrite idOf protobufKey start s) (hname : IsTidy keyName) :
    OwnersWrite idOf protobufKey start
      { s with publications := s.publications ++ [⟨keyName, expected, secret, path, .lists⟩] } := by
  refine ⟨hs.tidy, fun p hp ↦ ?_, fun name id hkey ↦ ?_, fun id ↦ ?_⟩
  · rcases List.mem_append.mp hp with hold | hnew
    · exact hs.publications p hold
    · rw [List.mem_singleton.mp hnew]
      exact ⟨hname, nofun, nofun⟩
  · rcases hs.keys name id hkey with hstart | ⟨p, hp, himported⟩
    · exact .inl hstart
    · exact .inr ⟨p, List.mem_append_left _ hp, himported⟩
  · rcases hs.records id with hsame | ⟨p, hp, hwritten⟩
    · exact .inl hsame
    · exact .inr ⟨p, List.mem_append_left _ hp, hwritten⟩

theorem ownersWrite_requests {i : ℕ} {p : Publication} {phase : PublishPhase} {kubo : Kubo}
    (hids : ∀ keyBytes id, idOf keyBytes = some id → IsTidy id)
    (hs : OwnersWrite idOf protobufKey start s) (hi : s.publications[i]? = some p)
    (hmove : PublishMove idOf protobufKey s.kubo p phase kubo) :
    OwnersWrite idOf protobufKey start
      { kubo, publications := advance s.publications i { p with phase } } := by
  obtain ⟨hname, himports, hholds⟩ := hs.publications p (List.mem_of_getElem? hi)
  refine ⟨tidy_of_move hs.tidy hname hids hmove, ?_, fun name id hkey ↦ ?_, fun id ↦ ?_⟩
  · refine forall_mem_advance (fun q hq ↦ ?_) ⟨hname, ?_, ?_⟩
    · obtain ⟨hqname, hqimports, hqholds⟩ := hs.publications q hq
      exact ⟨hqname, hqimports, fun hphase ↦ keys_of_move hmove (hqholds hphase)⟩
    · rintro keyBytes rfl
      exact imports_of_move (p := p) hmove
    · rintro rfl
      exact publishes_of_move (p := p) hmove
  · rcases secret_of_move himports hmove hkey with hold | hsecret
    · rcases hs.keys name id hold with hstart | himported
      · exact .inl hstart
      · exact .inr (exists_mem_advance hi (fun hbefore ↦ hbefore) himported)
    · exact .inr ⟨_, mem_advance hi, hsecret⟩
  · rcases records_of_move hmove hholds id with hsame | hwritten
    · rcases hs.records id with hstart | hearlier
      · exact .inl (hsame.trans hstart)
      · refine .inr (exists_mem_advance hi (fun hbefore ↦ hbefore) ?_)
        rw [hsame]
        exact hearlier
    · exact .inr ⟨_, mem_advance hi, hwritten⟩

theorem ownersWrite_step (hids : ∀ keyBytes id, idOf keyBytes = some id → IsTidy id)
    (hs : OwnersWrite idOf protobufKey start s) (hguard : StartsTidy s action)
    (h : keyStep idOf protobufKey s action = some t) : OwnersWrite idOf protobufKey start t := by
  cases action with
  | starts keyName expected secret path =>
    obtain rfl := Option.some.inj h
    exact ownersWrite_starts hs hguard
  | requests i fate =>
    simp only [keyStep] at h
    split at h
    case h_1 => cases h
    case h_2 p hi =>
      obtain ⟨⟨phase, kubo⟩, hnext, rfl⟩ := Option.map_eq_some_iff.mp h
      exact ownersWrite_requests hids hs hi (publishMove_of_next hs.tidy hids hnext)

theorem ownersWrite_run (hids : ∀ keyBytes id, idOf keyBytes = some id → IsTidy id)
    (hs : OwnersWrite idOf protobufKey start s)
    (h : GuardedRun (keyStep idOf protobufKey) StartsTidy s actions t) :
    OwnersWrite idOf protobufKey start t :=
  h.invariant (OwnersWrite idOf protobufKey start)
    (fun _ _ _ hs hguard hstep ↦ ownersWrite_step hids hs hguard hstep) hs

/-- A key keeps deciding what becomes of publications under its name. -/
structure Decided (name id : String) (earlier : ℕ) (s : PublishState) : Prop where
  key : s.kubo.keys.get name = some id
  later : ∀ i p, s.publications[i]? = some p → earlier ≤ i → p.keyName = name → KeyDecides id p

theorem keyDecides_of_move {p : Publication} {phase : PublishPhase} {kubo : Kubo} {id : String}
    (hmove : PublishMove idOf protobufKey s.kubo p phase kubo)
    (hkey : s.kubo.keys.get p.keyName = some id) (hp : KeyDecides id p) :
    KeyDecides id { p with phase } := by
  cases hmove with
  | fail => exact .inr (.inl rfl)
  | found h hfound =>
    obtain rfl := Option.some.inj (hkey.symm.trans hfound)
    exact .inr (.inr (by rw [if_pos rfl]; exact .inl rfl))
  | foundOther other h hfound hother =>
    obtain rfl := Option.some.inj (hkey.symm.trans hfound)
    exact .inr (.inr (by rw [if_neg hother.symm]))
  | missing _ h hnone => simp [hkey] at hnone
  | imported _ keyBytes other h hnone => simp [hkey] at hnone
  | publish _ other h hfound hphase =>
    simp only [KeyDecides, h, reduceCtorEq, true_or, if_false_right, and_true, false_or] at hp
    rcases hphase with rfl | rfl
    · exact .inr (.inr (by rw [if_pos hp]; exact .inr rfl))
    · exact .inr (.inl rfl)

theorem decided_step {name id : String} {earlier : ℕ}
    (hids : ∀ keyBytes id, idOf keyBytes = some id → IsTidy id)
    (howners : OwnersWrite idOf protobufKey start s) (hs : Decided name id earlier s)
    (h : keyStep idOf protobufKey s action = some t) : Decided name id earlier t := by
  cases action with
  | starts keyName expected secret path =>
    obtain rfl := Option.some.inj h
    refine ⟨hs.key, fun i p hi hlater hname ↦ ?_⟩
    rw [List.getElem?_append] at hi
    split_ifs at hi
    · exact hs.later i p hi hlater hname
    · have hp := List.mem_singleton.mp (List.mem_of_getElem? hi)
      exact .inl (by rw [hp])
  | requests i fate =>
    simp only [keyStep] at h
    split at h
    case h_1 => cases h
    case h_2 p hi =>
      obtain ⟨⟨phase, kubo⟩, hnext, rfl⟩ := Option.map_eq_some_iff.mp h
      have hmove := publishMove_of_next howners.tidy hids hnext
      refine ⟨keys_of_move hmove hs.key, fun j q hj hlater hname ↦ ?_⟩
      rw [getElem?_advance hi] at hj
      split_ifs at hj with hij
      · subst hij
        obtain rfl := Option.some.inj hj
        exact keyDecides_of_move hmove (hname ▸ hs.key) (hs.later i p hi hlater hname)
      · exact hs.later j q hj hlater hname

end Runs

/-! ### A name that is lost -/

section Example

/-- Two secrets. -/
def firstSecret : List UInt8 := List.replicate 32 1
def secondSecret : List UInt8 := List.replicate 32 2

/-- The ids of their keys. -/
def derivedId (keyBytes : List UInt8) : Option String :=
  if keyBytes = firstSecret then some "k51first" else some "k51second"

/-- A request that is performed and answered. -/
def served : RequestFate := ⟨true, true⟩

/-- A publication with the secret of another id: its key is imported, and refused. -/
def wrongSecret : List PublishAction :=
  [.starts "agent" "k51second" firstSecret "/ipfs/bafyfirst", .requests 0 served,
    .requests 0 served]

/-- A publication with the right secret. -/
def rightSecret : List PublishAction :=
  [.starts "agent" "k51second" secondSecret "/ipfs/bafysecond", .requests 1 served]

theorem isTidy_derivedId (keyBytes : List UInt8) (id : String)
    (h : derivedId keyBytes = some id) : IsTidy id := by
  unfold derivedId at h
  split_ifs at h
  · obtain rfl := Option.some.inj h
    decide +kernel
  · obtain rfl := Option.some.inj h
    decide +kernel

/-- Kubo with the first secret's key under the name. -/
def kuboTaken : Kubo := ⟨⟨[("agent", "k51first")]⟩, .empty⟩

/-- The publications with the wrong secret and then with the right one. -/
def refusedWrong : Publication where
  keyName := "agent"
  expected := "k51second"
  secret := firstSecret
  path := "/ipfs/bafyfirst"
  phase := .failed (.imported "k51first" "k51second")

def refusedRight : Publication where
  keyName := "agent"
  expected := "k51second"
  secret := secondSecret
  path := "/ipfs/bafysecond"
  phase := .failed (.existing "agent" "k51first" "k51second")

theorem isTidy_agent : IsTidy "agent" := by
  decide +kernel

theorem tidy_empty : Kubo.Tidy ⟨.empty, .empty⟩ :=
  fun _ hentry ↦ absurd hentry List.not_mem_nil

theorem run_wrongSecret :
    GuardedRun (keyStep derivedId some) StartsTidy ⟨⟨.empty, .empty⟩, []⟩ wrongSecret
      ⟨kuboTaken, [refusedWrong]⟩ :=
  Run.guardedRun (run_of_execute rfl)
    (by simp [wrongSecret, StartsTidy, isTidy_agent])

theorem run_rightSecret :
    GuardedRun (keyStep derivedId some) StartsTidy ⟨kuboTaken, [refusedWrong]⟩ rightSecret
      ⟨kuboTaken, [refusedWrong, refusedRight]⟩ :=
  Run.guardedRun (run_of_execute rfl)
    (by simp [rightSecret, StartsTidy, isTidy_agent])

/-- A publication whose requests are all served. -/
def servedPublication : List PublishAction :=
  [.starts "agent" "k51second" secondSecret "/ipfs/bafysecond", .requests 0 served,
    .requests 0 served, .requests 0 served]

end Example

end MaRuntime.Ipfs
