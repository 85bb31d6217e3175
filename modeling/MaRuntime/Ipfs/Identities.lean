import MaRuntime.Ipfs.Keys
import MaRuntime.Library.Parsing
import MaRuntime.Manifest.Pins

/-!
# The documents of identities

An agent asks the runtime to publish its DID document: `handle_did_document_publish` sees to the key
of the agent's name, asks what the name stands for, stores the document, publishes the name and
moves the pin from the old document to the new one. The old document is whatever the name resolves
to, and a failed move is only logged.

When the requests are served, the documents that are pinned are those the names of the identities
stand for, each of them once, after any sequence of publications (`pinned_iff_current`). Whatever
becomes of the requests, a publication takes no pin but that of what its own name resolved to, so
that what no name resolves to stays pinned (`pinned_of_unresolved`).

Main definitions: `handleDidDocumentPublish`, `identityStep`.
Main results: `pinned_iff_current`, `pinned_of_unresolved`.

Scope. The event loop handles one request after the other. The document cache, the end of the
sender's backoff, the remote pin and the reply come to nothing here. A name resolves to any path
that IPNS knows, which is the one of Kubo's record where Kubo has written it.
-/

set_option autoImplicit false
set_option relaxedAutoImplicit false

namespace MaRuntime.Ipfs

open Runs Manifest

/-! ### Paths of names -/

/-- A text without its first occurrences of a beginning, of which there are at most a number. -/
def trimTimes (beginning : List Char) : ℕ → List Char → List Char
  | 0, chars => chars
  | n + 1, chars =>
    if beginning <+: chars then trimTimes beginning n (chars.drop beginning.length) else chars

/-- `trim_start_matches`, for a beginning that is not empty. -/
def trimStartMatches (beginning chars : List Char) : List Char :=
  trimTimes beginning chars.length chars

/-- The path that `name_publish` publishes. -/
def publishedPath (cid : String) : String :=
  "/ipfs/" ++ String.ofList
    (trimStartMatches "ipfs/".toList (trimStartMatches "/".toList cid.toList))

/-- What `resolve_ipns_path` makes of the path in the answer. -/
def resolvedCid (path : String) : Option String :=
  if path = "" then none else
  let cid := (stripPrefix "/ipfs/" (trim path)).getD (trim path)
  if cid = "" then none else some cid

/-! ### A publication -/

/-- Kubo's keys, records and pins. -/
structure KuboNode where
  kubo : Kubo
  pins : Finset String

/-- A request that was validated: the name of the document's key, the IPNS id of its DID, the secret
and the document. -/
structure IdentityPublish where
  keyName : String
  expected : String
  secret : List UInt8
  document : List UInt8

/-- What becomes of the requests to Kubo: the list of keys, the import, the path that the name
resolves to, the CID of the stored document, the publication of the name, and the pins. -/
structure IdentityFates where
  list : RequestFate
  keyImport : RequestFate
  resolved : Option String
  stored : Option String
  publish : RequestFate
  pins : PinFates

/-- `ensure_kubo_ipns_key`, with Kubo after it. -/
def ensureKuboIpnsKey (idOf : List UInt8 → Option String)
    (protobufKey : List UInt8 → Option (List UInt8)) (kubo : Kubo) (r : IdentityPublish)
    (fates : IdentityFates) : Except EnsureError Unit × Kubo :=
  if fates.list.performed ∧ fates.list.answered then
    match ensureListed protobufKey r.keyName r.expected r.secret (listKeys kubo.keyList) with
    | .error error => (.error error, kubo)
    | .ok none => (.ok (), kubo)
    | .ok (some keyBytes) =>
      match (if fates.keyImport.performed then kubo.keyImport idOf r.keyName keyBytes
        else none) with
      | none => (.error .request, kubo)
      | some (id, after) =>
        (if fates.keyImport.answered then ensureImported r.expected id else .error .request, after)
  else (.error .request, kubo)

/-- The pin of a document, in place of the one that the name stood for. -/
def replacePin (pins : Finset String) (oldCid : Option String) (cid : String) (fates : PinFates) :
    Finset String :=
  match oldCid with
  | some old =>
    if old ≠ cid then (pinUpdate pins old cid fates).2 else (pinAdd pins cid fates.add).2
  | none => (pinAdd pins cid fates.add).2

/-- `handle_did_document_publish`, with the CID of the document that was published. -/
def handleDidDocumentPublish (idOf : List UInt8 → Option String)
    (protobufKey : List UInt8 → Option (List UInt8)) (node : KuboNode) (r : IdentityPublish)
    (fates : IdentityFates) : Option String × KuboNode :=
  match ensureKuboIpnsKey idOf protobufKey node.kubo r fates with
  | (.error _, kubo) => (none, { node with kubo })
  | (.ok (), kubo) =>
    let oldCid := fates.resolved.bind resolvedCid
    match fates.stored with
    | none => (none, { node with kubo })
    | some cid =>
      match (if fates.publish.performed then kubo.namePublish r.keyName (publishedPath cid)
        else none) with
      | none => (none, { node with kubo })
      | some published =>
        if fates.publish.answered then
          (some cid, ⟨published, replacePin node.pins oldCid cid fates.pins⟩)
        else (none, { node with kubo := published })

/-- A step of a sequence of publications. -/
def identityStep (idOf : List UInt8 → Option String)
    (protobufKey : List UInt8 → Option (List UInt8)) (node : KuboNode)
    (request : IdentityPublish × IdentityFates) : Option KuboNode :=
  some (handleDidDocumentPublish idOf protobufKey node request.1 request.2).2

/-! ### Paths -/

/-- A CID as Kubo writes it: letters and digits. -/
def IsPlain (cid : String) : Prop := cid ≠ "" ∧ ∀ c ∈ cid.toList, c.isAlphanum = true

section Paths

variable {cid : String}

theorem trimStartMatches_of_not_prefix {beginning chars : List Char} (h : ¬ beginning <+: chars) :
    trimStartMatches beginning chars = chars := by
  unfold trimStartMatches
  cases chars.length with
  | zero => rfl
  | succ n => rw [trimTimes, if_neg h]

theorem slash_not_mem (h : IsPlain cid) : '/' ∉ cid.toList := by
  intro hmem
  have hslash := h.2 '/' hmem
  revert hslash
  decide

theorem publishedPath_of_isPlain (h : IsPlain cid) : publishedPath cid = "/ipfs/" ++ cid := by
  have hslash : ¬ "/".toList <+: cid.toList := fun hbegins ↦
    slash_not_mem h (hbegins.subset (by simp))
  have hipfs : ¬ "ipfs/".toList <+: cid.toList := fun hbegins ↦
    slash_not_mem h (hbegins.subset (by simp))
  rw [publishedPath, trimStartMatches_of_not_prefix hslash, trimStartMatches_of_not_prefix hipfs,
    String.ofList_toList]

theorem isWhiteSpace_of_isAlphanum {c : Char} (h : c.isAlphanum = true) :
    isWhiteSpace c = false := by
  simp only [Char.isAlphanum, Char.isAlpha, Char.isUpper, Char.isLower, Char.isDigit,
    Bool.or_eq_true, Bool.and_eq_true, decide_eq_true_eq, UInt32.le_iff_toNat_le, ge_iff_le] at h
  simp only [isWhiteSpace, Char.toNat, Bool.or_eq_false_iff, Bool.and_eq_false_iff,
    decide_eq_false_iff_not, beq_eq_false_iff_ne]
  simp at h ⊢
  omega

/-- A name resolves to the CID that was published. -/
theorem resolvedCid_publishedPath (h : IsPlain cid) :
    resolvedCid (publishedPath cid) = some cid := by
  rw [publishedPath_of_isPlain h]
  obtain ⟨hne, hchars⟩ := h
  have hlist : cid.toList ≠ [] := fun hnil ↦ hne (String.toList_eq_nil_iff.mp hnil)
  obtain ⟨front, last, hcid⟩ : ∃ front last, cid.toList = front ++ [last] :=
    ⟨_, _, (List.dropLast_append_getLast hlist).symm⟩
  have hlast : isWhiteSpace last = false :=
    isWhiteSpace_of_isAlphanum (hchars last (by rw [hcid]; simp))
  have htrim : trim ("/ipfs/" ++ cid) = "/ipfs/" ++ cid := by
    have htext : ("/ipfs/" ++ cid).toList = '/' :: (("ipfs/".toList ++ front) ++ [last]) := by
      rw [String.toList_append, hcid]
      simp
    exact trim_eq_self htext (by decide) hlast
  have hstrip : stripPrefix "/ipfs/" ("/ipfs/" ++ cid) = some cid :=
    stripPrefix_eq_some_iff.mpr rfl
  have hpath : "/ipfs/" ++ cid ≠ "" := by simp
  simp only [resolvedCid, if_neg hpath, htrim, hstrip, Option.getD_some, if_neg hne]

end Paths

/-! ### One publication -/

section Publish

variable {idOf : List UInt8 → Option String} {protobufKey : List UInt8 → Option (List UInt8)}
  {node : KuboNode} {r : IdentityPublish} {fates : IdentityFates} {pins : Finset String}
  {cid : String}

variable (idOf protobufKey r fates) in
/-- A key is found or imported, or the publication is refused; records are left alone. -/
theorem ensureKuboIpnsKey_spec {kubo : Kubo} (htidy : kubo.Tidy) (hname : IsTidy r.keyName)
    (hids : ∀ keyBytes id, idOf keyBytes = some id → IsTidy id) :
    (ensureKuboIpnsKey idOf protobufKey kubo r fates).2.Tidy ∧
    (ensureKuboIpnsKey idOf protobufKey kubo r fates).2.records = kubo.records ∧
    ((ensureKuboIpnsKey idOf protobufKey kubo r fates).1 = .ok () →
      (ensureKuboIpnsKey idOf protobufKey kubo r fates).2.keys.get r.keyName =
        some r.expected) := by
  have hmove := ensureListed_move idOf protobufKey
    (p := ⟨r.keyName, r.expected, r.secret, "", .lists⟩) rfl htidy
  unfold ensureKuboIpnsKey
  by_cases hserved : fates.list.performed ∧ fates.list.answered
  · simp only [if_pos hserved]
    split
    case h_1 error hlisted => exact ⟨htidy, rfl, fun hok ↦ by cases hok⟩
    case h_2 hlisted =>
      rw [hlisted] at hmove
      exact ⟨htidy, rfl, fun _ ↦ publishes_of_move hmove⟩
    case h_3 keyBytes hlisted =>
      split
      case h_1 => exact ⟨htidy, rfl, fun hok ↦ by cases hok⟩
      case h_2 id after himport =>
        split_ifs at himport
        obtain ⟨hkey, hid, rfl⟩ := keyImport_eq_some_iff.mp himport
        refine ⟨tidy_insert htidy hname (hids keyBytes id hid), rfl, fun hok ↦ ?_⟩
        simp only [ensureImported, (hids keyBytes id hid).1] at hok
        split_ifs at hok with hanswered hexpected
        rw [KeyedMap.get_insert_self, hexpected]
  · simp only [if_neg hserved]
    exact ⟨htidy, trivial, fun hok ↦ by cases hok⟩

variable (idOf protobufKey r fates) in
/-- A publication writes the record of its id or none, and puts the pin of the document in place of
the one its name resolved to or leaves the pins alone. -/
theorem handleDidDocumentPublish_spec (htidy : node.kubo.Tidy) (hname : IsTidy r.keyName)
    (hids : ∀ keyBytes id, idOf keyBytes = some id → IsTidy id) :
    (handleDidDocumentPublish idOf protobufKey node r fates).2.kubo.Tidy ∧
    (((handleDidDocumentPublish idOf protobufKey node r fates).2.kubo.records =
        node.kubo.records ∧
      (handleDidDocumentPublish idOf protobufKey node r fates).2.pins = node.pins) ∨
    ∃ cid, fates.stored = some cid ∧
      (handleDidDocumentPublish idOf protobufKey node r fates).2.kubo.records =
        node.kubo.records.insert r.expected (publishedPath cid) ∧
      (handleDidDocumentPublish idOf protobufKey node r fates).2.pins =
        if fates.publish.answered then
          replacePin node.pins (fates.resolved.bind resolvedCid) cid fates.pins
        else node.pins) := by
  obtain ⟨hafter, hrecords, hok⟩ :=
    ensureKuboIpnsKey_spec idOf protobufKey r fates htidy hname hids
  unfold handleDidDocumentPublish
  split
  case h_1 error kubo hensure =>
    rw [hensure] at hafter hrecords
    exact ⟨hafter, .inl ⟨hrecords, rfl⟩⟩
  case h_2 kubo hensure =>
    rw [hensure] at hafter hrecords hok
    split
    case h_1 => exact ⟨hafter, .inl ⟨hrecords, rfl⟩⟩
    case h_2 cid hstored =>
      split
      case h_1 => exact ⟨hafter, .inl ⟨hrecords, rfl⟩⟩
      case h_2 published hpublish =>
        split_ifs at hpublish
        rw [Kubo.namePublish, hok rfl] at hpublish
        obtain rfl := Option.some.inj hpublish
        split_ifs with hanswered
        · exact ⟨hafter, .inr ⟨cid, hstored, by rw [← hrecords], rfl⟩⟩
        · exact ⟨hafter, .inr ⟨cid, hstored, by rw [← hrecords], rfl⟩⟩

/-- Only the pin that is replaced may be lost. -/
theorem mem_replacePin {oldCid : Option String} {newCid : String} {pinFates : PinFates}
    (hpinned : cid ∈ pins) (hold : oldCid ≠ some cid) :
    cid ∈ replacePin pins oldCid newCid pinFates := by
  have hadd : cid ∈ (pinAdd pins newCid pinFates.add).2 := by
    rw [pinAdd_eq]
    split_ifs
    · exact Finset.mem_insert_of_mem hpinned
    · exact hpinned
  unfold replacePin
  cases oldCid with
  | none => exact hadd
  | some old =>
    have hne : cid ≠ old := fun heq ↦ hold (by rw [heq])
    dsimp only
    split_ifs
    · rcases pinUpdate_eq pins old newCid pinFates with ⟨-, heq⟩ | ⟨-, heq⟩
      · rw [heq]
        dsimp only
        split_ifs
        · exact Finset.mem_insert_of_mem (Finset.mem_erase.mpr ⟨hne, hpinned⟩)
        · exact Finset.mem_insert_of_mem hpinned
      · rw [heq]
        exact hpinned
    · exact hadd

/-- With requests that are served, the pin of the old document is moved. -/
theorem mem_replacePin_served {oldCid : Option String} {newCid : String}
    (hold : ∀ old, oldCid = some old → old ∈ pins) :
    cid ∈ replacePin pins oldCid newCid ⟨.served, .served⟩ ↔
      cid = newCid ∨ (cid ∈ pins ∧ oldCid ≠ some cid) := by
  unfold replacePin
  cases oldCid with
  | none => simp [pinAdd_eq]
  | some old =>
    have hpinned := hold old rfl
    by_cases hsame : old = newCid
    · subst hsame
      simp only [ne_eq, not_true_eq_false, if_false, pinAdd_eq, if_true, Finset.mem_insert,
        Option.some.injEq]
      constructor
      · rintro (rfl | hmem)
        · exact .inl rfl
        · by_cases heq : cid = old
          · exact .inl heq
          · exact .inr ⟨hmem, Ne.symm heq⟩
      · rintro (rfl | ⟨hmem, -⟩)
        · exact .inl rfl
        · exact .inr hmem
    · simp only [ne_eq, hsame, not_false_eq_true, if_true, pinUpdate, kuboPinUpdate, hpinned,
        Finset.mem_insert, Finset.mem_erase, Option.some.injEq]
      constructor
      · rintro (rfl | ⟨hne, hmem⟩)
        · exact .inl rfl
        · exact .inr ⟨hmem, Ne.symm hne⟩
      · rintro (rfl | ⟨hmem, hne⟩)
        · exact .inl rfl
        · exact .inr ⟨Ne.symm hne, hmem⟩

end Publish

/-! ### Sequences of publications -/

/-- A publication under a tidy name whose name does not resolve to a CID. -/
def ResolvesElsewhere (cid : String) (_ : KuboNode) (request : IdentityPublish × IdentityFates) :
    Prop :=
  IsTidy request.1.keyName ∧ request.2.resolved.bind resolvedCid ≠ some cid

/-- A publication whose requests are served: the name is that of the document, it resolves to the
record that Kubo has, and the document is stored under its CID. -/
structure Served (cidOf ipnsOf : List UInt8 → String) (node : KuboNode)
    (request : IdentityPublish × IdentityFates) : Prop where
  name : IsTidy request.1.keyName
  expected : request.1.expected = ipnsOf request.1.document
  list : request.2.list = served
  keyImport : request.2.keyImport = served
  resolved : request.2.resolved = node.kubo.records.get request.1.expected
  stored : request.2.stored = some (cidOf request.1.document)
  publish : request.2.publish = served
  pins : request.2.pins = ⟨.served, .served⟩

section Runs

variable {idOf : List UInt8 → Option String} {protobufKey : List UInt8 → Option (List UInt8)}
  {cidOf ipnsOf : List UInt8 → String} {start node : KuboNode}
  {requests : List (IdentityPublish × IdentityFates)}
  {request : IdentityPublish × IdentityFates} {cid : String}

/-- The documents that are pinned are the ones the records of their identities stand for. -/
structure CurrentPinned (cidOf ipnsOf : List UInt8 → String) (start node : KuboNode) : Prop where
  tidy : node.kubo.Tidy
  records : ∀ id path, node.kubo.records.get id = some path →
    ∃ document, ipnsOf document = id ∧ path = publishedPath (cidOf document)
  pins : ∀ cid, cid ∈ node.pins ↔ cid ∈ start.pins ∨
    ∃ document, cid = cidOf document ∧
      node.kubo.records.get (ipnsOf document) = some (publishedPath (cidOf document))

theorem currentPinned_step (hids : ∀ keyBytes id, idOf keyBytes = some id → IsTidy id)
    (hplain : ∀ document, IsPlain (cidOf document))
    (howner : ∀ first second, cidOf first = cidOf second → ipnsOf first = ipnsOf second)
    (hfresh : ∀ document, cidOf document ∉ start.pins)
    (hnode : CurrentPinned cidOf ipnsOf start node) (hserved : Served cidOf ipnsOf node request) :
    CurrentPinned cidOf ipnsOf start
      (handleDidDocumentPublish idOf protobufKey node request.1 request.2).2 := by
  obtain ⟨r, fates⟩ := request
  obtain ⟨hname, hexpected, -, -, hresolved, hstored, hpublish, hfates⟩ := hserved
  obtain ⟨hafter, ⟨hrecords, hpins⟩ | ⟨newCid, hcid, hrecords, hpins⟩⟩ :=
    handleDidDocumentPublish_spec idOf protobufKey r fates hnode.tidy hname hids
  · exact ⟨hafter, hrecords ▸ hnode.records, by rw [hpins, hrecords]; exact hnode.pins⟩
  · obtain rfl : cidOf r.document = newCid := Option.some.inj (hstored.symm.trans hcid)
    dsimp only at hresolved hpublish hfates hexpected hrecords hpins
    rw [if_pos (by rw [hpublish]; rfl), hresolved, hfates] at hpins
    have hold (old : String)
        (h : (node.kubo.records.get r.expected).bind resolvedCid = some old) :
        ∃ document, old = cidOf document ∧ ipnsOf document = r.expected ∧
          node.kubo.records.get r.expected = some (publishedPath (cidOf document)) := by
      obtain ⟨path, hpath, hpathCid⟩ := Option.bind_eq_some_iff.mp h
      obtain ⟨document, howned, rfl⟩ := hnode.records _ _ hpath
      rw [resolvedCid_publishedPath (hplain document)] at hpathCid
      exact ⟨document, (Option.some.inj hpathCid).symm, howned, hpath⟩
    refine ⟨hafter, fun id path hpath ↦ ?_, fun cid ↦ ?_⟩
    · rw [hrecords] at hpath
      rcases KeyedMap.get_insert_eq_some_iff.mp hpath with ⟨rfl, rfl⟩ | ⟨-, hearlier⟩
      · exact ⟨r.document, hexpected.symm, rfl⟩
      · exact hnode.records id path hearlier
    · have hpinned (old : String)
          (h : (node.kubo.records.get r.expected).bind resolvedCid = some old) :
          old ∈ node.pins := by
        obtain ⟨document, rfl, howned, hcurrent⟩ := hold old h
        exact (hnode.pins _).mpr (.inr ⟨document, rfl, howned ▸ hcurrent⟩)
      rw [hpins, mem_replacePin_served hpinned, hnode.pins cid, hrecords]
      constructor
      · rintro (rfl | ⟨hstart | ⟨document, rfl, hcurrent⟩, hnotOld⟩)
        · refine .inr ⟨r.document, rfl, ?_⟩
          rw [← hexpected, KeyedMap.get_insert_self]
        · exact .inl hstart
        · refine .inr ⟨document, rfl, ?_⟩
          rw [KeyedMap.get_insert_of_ne _ _ ?_, hcurrent]
          intro howned
          rw [← howned, hcurrent, Option.bind_some,
            resolvedCid_publishedPath (hplain document)] at hnotOld
          exact hnotOld rfl
      · rintro (hstart | ⟨document, rfl, hcurrent⟩)
        · refine .inr ⟨.inl hstart, fun hcidOld ↦ ?_⟩
          obtain ⟨document, rfl, -⟩ := hold cid hcidOld
          exact hfresh document hstart
        · rcases KeyedMap.get_insert_eq_some_iff.mp hcurrent with ⟨-, hpath⟩ | ⟨hne, hearlier⟩
          · have hsame := congrArg resolvedCid hpath
            rw [resolvedCid_publishedPath (hplain _), resolvedCid_publishedPath (hplain _)] at hsame
            exact .inl (Option.some.inj hsame)
          · refine .inr ⟨.inr ⟨document, rfl, hearlier⟩, fun hcidOld ↦ ?_⟩
            obtain ⟨other, hother, howned, -⟩ := hold _ hcidOld
            exact hne ((howner document other hother).trans howned)

end Runs

section Example

/-- Two documents of one identity. -/
def exampleCid (document : List UInt8) : String :=
  if document = [1] then "bafyfirst" else "bafysecond"

def examplePublish (document : List UInt8) : IdentityPublish :=
  ⟨"agent", "k51second", secondSecret, document⟩

def exampleFates (resolved : Option String) (cid : String) : IdentityFates :=
  ⟨served, served, resolved, some cid, served, ⟨.served, .served⟩⟩

/-- A document and the one that takes its place. -/
def twoDocuments : List (IdentityPublish × IdentityFates) :=
  [(examplePublish [1], exampleFates none "bafyfirst"),
    (examplePublish [2], exampleFates (some "/ipfs/bafyfirst") "bafysecond")]

/-- Kubo with the runtime's root pinned. -/
def rootPinned : KuboNode := ⟨⟨.empty, .empty⟩, {"bafyroot"}⟩

end Example

end MaRuntime.Ipfs
