import MaRuntime.Crud.Footprint

/-!
# What a CRUD request changes

A path addresses a resource by its namespace and its segments, whatever the number of slashes
between them (`Owns`): the root ACL, a named ACL, a group, the kinds or one kind, a setting or an
entity. A request changes no part of another resource, but for what follows from it by design
(`Follows`): the owners of the group `owners` are granted everything in the live root ACL, and the
kinds that depend on an updated one go into the registry again, with a reload of their entities. A
request that writes, and whose path addresses no resource, is answered with an error and changes
nothing. So a run of requests keeps a part that none of them addresses or brings along
(`kept_of_run`).

In `owners_granted_in_root_acl` what follows a resource comes about, and the file of the daemon's
settings is written with what the memory has of the others.

Main definitions: `Owns`, `Follows`, `Confined`.
Main results: `dispatchManagement_confined`, `kept_of_run`, `owners_granted_in_root_acl`.

Scope. As in `Crud.Management`. A SET of `/acl` with segments behind it, and the links of the kinds
below one that is SET, are left open here (`LeftOpen`).
-/

set_option autoImplicit false
set_option relaxedAutoImplicit false

namespace MaRuntime.Crud

open Acl Daemon Kinds Manifest Runs

variable {Cid : Type}

/-! ### Paths and parts -/

/-- The namespaces that are no keys of settings. -/
def namespaces : List String := ["entities", "kinds", "config", "acl", "acls", "grp"]

/-- A path addresses the resource of a part. `/kinds` addresses every kind, and `/entities/<name>`
and its field `acl` the entity. The manifest's protocol and its translations have no path. -/
def Owns (path : CrudPath) : Part → Prop
  | .aclLink | .aclEntry _ => path.ns = "acl" ∧ path.rest = []
  | .namedAcl name => path.ns = "acls" ∧ path.rest = [name]
  | .group name => path.ns = "grp" ∧ path.rest = [name]
  | .kindLink protocol => path.ns = "kinds" ∧ (path.rest = [] ∨ segments protocol = path.rest)
  | .kindRegistered protocol =>
    path.ns = "kinds" ∧ (path.rest = [] ∨ protocol = protocolId path.rest)
  | .setting key =>
    path.ns = "config" ∧ path.rest = [key] ∨ path.ns = key ∧ key ∉ namespaces ∧ path.rest = []
  | .entity name | .entityReload name =>
    path.ns = "entities" ∧ (path.rest = [name] ∨ path.rest = [name, "acl"])
  | .protocol | .translations _ => False

/-- A request at a path of kinds updates a kind: the one at the path, or one of the tree that it
names for `/kinds`. -/
def Updates (services : Services Cid) (op : CrudOp) (path : CrudPath) (s : ManagedState Cid)
    (protocol : String) : Prop :=
  path.rest ≠ [] ∧ protocol = protocolId path.rest ∨
    path.rest = [] ∧ ∃ raw, op.args = [.text raw] ∧ TreeUpdates services raw s protocol

/-- A kind depends on updated ones, or is one of them, with the kinds that a manifest links. -/
def AffectedBy (services : Services Cid) (op : CrudOp) (path : CrudPath) (s : ManagedState Cid)
    (m : RuntimeManifest Cid) (protocol : String) : Prop :=
  ∃ updatedProtocols, (∀ updated ∈ updatedProtocols, Updates services op path s updated) ∧
    protocol ∈ affectedKindProtocolsFor updatedProtocols (loadRawKindNodes services.fetchKind m)

/-- A part follows the resource that a path addresses: the entries of the new owners in the live
root ACL follow the group of the owners; what is registered of the affected kinds, and the reloads
of their entities, follow the kinds. -/
def Follows (services : Services Cid) (op : CrudOp) (path : CrudPath) (s t : ManagedState Cid) :
    Part → Prop
  | .aclEntry principal => path.ns = "grp" ∧ path.rest = ["owners"] ∧ principal ∈ t.owners
  | .kindRegistered protocol =>
    path.ns = "kinds" ∧ ∃ m, t.manifest = some m ∧ AffectedBy services op path s m protocol
  | .entityReload name =>
    path.ns = "kinds" ∧ ∃ m kind, t.manifest = some m ∧ linkedKind services m name = some kind ∧
      AffectedBy services op path s m kind
  | _ => False

/-- The parts that nothing is said of: for a SET of `/acl` with segments behind it the root ACL, and
for a SET of a kind the links of the kinds below it. -/
def LeftOpen (op : CrudOp) (path : CrudPath) : Part → Prop
  | .aclLink | .aclEntry _ => op.args ≠ [] ∧ path.ns = "acl" ∧ path.rest ≠ []
  | .kindLink protocol => op.args ≠ [] ∧ path.ns = "kinds" ∧ path.rest <+: segments protocol
  | _ => False

/-- The request is answered with an error. -/
def IsRefused : Except String (CrudReply Cid) → Prop
  | .ok reply => reply.isOk = false
  | .error _ => True

/-- A request at a path keeps every part but those of the resource it addresses and what follows
them; if it writes, and its path addresses no resource, it is answered with an error and changes
nothing. -/
structure Confined (services : Services Cid) (guarded : GuardedConfig) (op : CrudOp)
    (path : CrudPath) (s : ManagedState Cid) (ended : Ended Cid) : Prop where
  kept : ∀ part, ¬Owns path part → ¬Follows services op path s ended.2 part →
    ¬LeftOpen op path part → Kept guarded s ended.2 part
  unaddressed : op.tail ≠ none → (∀ part, ¬Owns path part) → (path.ns = "acl" → op.args = []) →
    IsRefused ended.1 ∧ ended.2 = s

/-! ### The dispatch -/

section Dispatch

variable {services : Services Cid} {answers : Answers} {guarded : GuardedConfig}
  {s : ManagedState Cid} {op : CrudOp} {path : CrudPath} {ended : Ended Cid}

/-- A request that changes nothing, and is answered with an error if it writes. -/
theorem Confined.of_unchanged (h : ended.2 = s) (hrefused : op.tail ≠ none → IsRefused ended.1) :
    Confined services guarded op path s ended where
  kept part _ _ _ := by
    rw [h]
    exact .refl guarded s part
  unaddressed hwrites _ _ := ⟨hrefused hwrites, h⟩

theorem Confined.refuse (reason : String) (args : List (String × String)) :
    Confined services guarded op path s (s.refuse reason args) :=
  .of_unchanged rfl fun _ ↦ rfl

theorem Confined.fail (reason : String) : Confined services guarded op path s (s.fail reason) :=
  .of_unchanged rfl fun _ ↦ trivial

theorem Confined.read (hread : op.tail = none) :
    Confined services guarded op path s s.read :=
  .of_unchanged rfl fun hwrites ↦ absurd hread hwrites

/-- A request at a path that addresses a resource. -/
theorem Confined.of_owned (part : Part) (howned : Owns path part)
    (hkept : ∀ part, ¬Owns path part → ¬Follows services op path s ended.2 part →
      ¬LeftOpen op path part → Kept guarded s ended.2 part) :
    Confined services guarded op path s ended where
  kept := hkept
  unaddressed _ hnone _ := absurd howned (hnone part)

theorem confined_handleRootAcl (hns : path.ns = "acl") :
    Confined services guarded op path s (handleRootAcl services answers s op.tail op.args) := by
  cases op with
  | get => exact .read rfl
  | delete => exact .refuse _ _
  | set _ value =>
    cases value with
    | text raw =>
      simp only [CrudOp.tail, CrudOp.args, handleRootAcl]
      cases services.cidv1Ref raw with
      | none => exact .refuse _ _
      | some cid =>
        refine ⟨fun part howns _ hopen ↦ ?_, fun _ _ hargs ↦ ?_⟩
        · have hpart : part ≠ .aclLink ∧ ∀ principal, part ≠ .aclEntry principal := by
            by_cases hrest : path.rest = []
            · constructor
              · rintro rfl
                exact howns ⟨hns, hrest⟩
              · rintro principal rfl
                exact howns ⟨hns, hrest⟩
            · constructor
              · rintro rfl
                exact hopen ⟨List.cons_ne_nil _ _, hns, hrest⟩
              · rintro principal rfl
                exact hopen ⟨List.cons_ne_nil _ _, hns, hrest⟩
          exact kept_setRootAcl s _ cid _ _ hpart.1 hpart.2
        · cases hargs hns
    | _ => exact .fail _

theorem confined_handleRootAcls (hns : path.ns = "acls") :
    Confined services guarded op path s
      (handleRootAcls services answers s path.rest op.tail op.args) := by
  cases hrest : path.rest with
  | nil =>
    cases op with
    | get => exact .read rfl
    | delete => exact .fail _
    | set => exact .fail _
  | cons name rest =>
    cases rest with
    | cons => cases op <;> exact .fail _
    | nil =>
      cases op with
      | get => exact .read rfl
      | delete =>
        simp only [CrudOp.tail, CrudOp.args, handleRootAcls]
        split
        · exact .fail _
        · split_ifs
          · exact .refuse _ _
          · refine .of_owned (.namedAcl name) ⟨hns, hrest⟩ fun part howns _ _ ↦ ?_
            refine kept_deleteNamedAcl s name _ ?_
            rintro rfl
            exact howns ⟨hns, hrest⟩
      | set _ value =>
        cases value with
        | text raw =>
          simp only [CrudOp.tail, CrudOp.args, handleRootAcls]
          cases services.cidv1Ref raw with
          | none => exact .refuse _ _
          | some cid =>
            refine .of_owned (.namedAcl name) ⟨hns, hrest⟩ fun part howns _ _ ↦ ?_
            refine kept_setNamedAcl s _ name cid _ _ ?_
            rintro rfl
            exact howns ⟨hns, hrest⟩
        | _ => exact .fail _

theorem confined_handleRootGrp (hns : path.ns = "grp") :
    Confined services guarded op path s
      (handleRootGrp services answers s path.rest op.tail op.args) := by
  cases hrest : path.rest with
  | nil =>
    cases op with
    | get => exact .read rfl
    | delete => exact .fail _
    | set => exact .fail _
  | cons name rest =>
    cases rest with
    | cons => cases op <;> exact .fail _
    | nil =>
      cases op with
      | get => exact .read rfl
      | delete =>
        simp only [CrudOp.tail, CrudOp.args, handleRootGrp]
        split
        · exact .refuse _ _
        · split
          · exact .fail _
          · split_ifs
            · exact .refuse _ _
            · refine .of_owned (.group name) ⟨hns, hrest⟩ fun part howns _ _ ↦ ?_
              refine kept_deleteGroup s name _ ?_
              rintro rfl
              exact howns ⟨hns, hrest⟩
      | set _ value =>
        cases value with
        | text raw =>
          simp only [CrudOp.tail, CrudOp.args, handleRootGrp]
          cases services.cidv1Ref raw with
          | none => exact .refuse _ _
          | some cid =>
            refine .of_owned (.group name) ⟨hns, hrest⟩ fun part howns hfollows _ ↦ ?_
            refine kept_setGroup s _ name cid _ _ ?_ ?_
            · rintro rfl
              exact howns ⟨hns, hrest⟩
            · rintro principal rfl rfl hmem
              exact hfollows ⟨hns, hrest, hmem⟩
        | _ => exact .fail _

section KindHandlers

variable {requested raw : String}

/-- A SET of `/kinds`. -/
theorem confined_applyKindsTreeAt [DecidableEq Cid] (hns : path.ns = "kinds")
    (hrest : path.rest = []) :
    Confined services guarded (.set requested (.text raw)) path s
      (s.settle (applyKindsTreeAt services answers s raw)) := by
  refine .of_owned (.kindLink "") ⟨hns, .inl hrest⟩ fun part howns hfollows _ ↦ ?_
  refine kept_settle fun reply t h ↦ kept_applyKindsTreeAt h ?_ ?_
  · rintro protocol rfl
    exact howns ⟨hns, .inl hrest⟩
  · intro m updatedProtocols hmanifest htree
    have hupdates (updated : String) (hmem : updated ∈ updatedProtocols) :
        Updates services (.set requested (.text raw)) path s updated :=
      .inr ⟨hrest, raw, rfl, htree updated hmem⟩
    rw [h] at hfollows
    cases part with
    | kindRegistered protocol => exact absurd ⟨hns, .inl hrest⟩ howns
    | entityReload name =>
      intro kind hkind haffected
      exact hfollows ⟨hns, m, kind, hmanifest, hkind, updatedProtocols, hupdates, haffected⟩
    | _ => trivial

/-- A SET of a kind. -/
theorem confined_setKindAt (hns : path.ns = "kinds") (hrest : path.rest ≠ []) :
    Confined services guarded (.set requested (.text raw)) path s
      (s.settle (setKindAt services answers s ⟨path.rest, hrest, path.isSegment⟩ raw)) := by
  refine .of_owned (.kindRegistered (protocolId path.rest)) ⟨hns, .inr rfl⟩
    fun part howns hfollows hopen ↦ kept_settle fun reply t h ↦ kept_setKindAt h ?_ ?_ ?_
  · rintro protocol rfl hunder
    exact hopen ⟨List.cons_ne_nil _ _, hns, hunder⟩
  · rintro rfl
    exact howns ⟨hns, .inr rfl⟩
  · intro m hmanifest
    have hupdates : ∀ updated ∈ [protocolId path.rest],
        Updates services (.set requested (.text raw)) path s updated := by
      intro updated hmem
      exact .inl ⟨hrest, List.mem_singleton.mp hmem⟩
    rw [h] at hfollows
    cases part with
    | kindRegistered protocol =>
      exact fun haffected ↦ hfollows ⟨hns, m, hmanifest, _, hupdates, haffected⟩
    | entityReload name =>
      intro kind hkind haffected
      exact hfollows ⟨hns, m, kind, hmanifest, hkind, _, hupdates, haffected⟩
    | _ => trivial

/-- A DELETE of a kind. -/
theorem confined_deleteKindAt (hns : path.ns = "kinds") (hrest : path.rest ≠ []) :
    Confined services guarded op path s
      (s.settle (deleteKindAt answers s ⟨path.rest, hrest, path.isSegment⟩)) := by
  refine .of_owned (.kindRegistered (protocolId path.rest)) ⟨hns, .inr rfl⟩
    fun part howns _ _ ↦ kept_settle fun reply t h ↦ kept_deleteKindAt h ?_ ?_
  · rintro protocol rfl hsegments
    exact howns ⟨hns, .inr hsegments⟩
  · rintro rfl
    exact howns ⟨hns, .inr rfl⟩

end KindHandlers

theorem confined_handleKinds [DecidableEq Cid] (hns : path.ns = "kinds") :
    Confined services guarded op path s (handleKinds services answers s path op.tail op.args) := by
  unfold handleKinds
  by_cases hrest : path.rest = []
  · rw [dif_pos hrest]
    cases op with
    | get => exact .read rfl
    | delete => exact .refuse _ _
    | set requested value =>
      cases value with
      | text raw => exact confined_applyKindsTreeAt hns hrest
      | _ => exact .fail _
  · rw [dif_neg hrest]
    cases op with
    | get => exact .read rfl
    | delete => exact confined_deleteKindAt hns hrest
    | set requested value =>
      cases value with
      | text raw => exact confined_setKindAt hns hrest
      | _ => exact .fail _

/-- The handler of a setting's key, at a path that addresses the setting. -/
theorem confined_handleConfig {rest : List String}
    (howned : ∀ key, rest = [key] → Owns path (.setting key)) :
    Confined services guarded op path s (handleConfig services answers s rest op.tail op.args) := by
  cases rest with
  | nil =>
    cases op with
    | get => exact .read rfl
    | delete => exact .refuse _ _
    | set => exact .refuse _ _
  | cons key rest =>
    cases rest with
    | cons => cases op <;> exact .fail _
    | nil =>
      unfold handleConfig
      dsimp only
      split_ifs
      · exact .refuse _ _
      · cases op with
        | get => exact .read rfl
        | delete =>
          refine .of_owned (.setting key) (howned key rfl) fun part howns _ _ ↦ ?_
          refine kept_handleConfigKeyDelete key ?_
          rintro rfl
          exact howns (howned key rfl)
        | set _ value =>
          refine .of_owned (.setting key) (howned key rfl) fun part howns _ _ ↦ ?_
          refine kept_handleConfigKeySet key _ ?_
          rintro rfl
          exact howns (howned key rfl)

theorem confined_handleEntityAclField {name : String} {subPath : List String}
    (hns : path.ns = "entities") (hrest : path.rest = name :: "acl" :: subPath) :
    Confined services guarded op path s
      (handleEntityAclField services answers s name subPath op.tail op.args) := by
  unfold handleEntityAclField
  by_cases hsub : subPath = []
  · subst hsub
    rw [if_neg (not_not.mpr rfl)]
    have hkept (aclName : String) : Confined services guarded op path s
        (setEntityAcl services answers s name aclName) := by
      refine .of_owned (.entity name) ⟨hns, .inr hrest⟩ fun part howns _ _ ↦ ?_
      refine kept_setEntityAcl name aclName ?_ ?_
      · rintro rfl
        exact howns ⟨hns, .inr hrest⟩
      · rintro rfl
        exact howns ⟨hns, .inr hrest⟩
    cases op with
    | get => exact .read rfl
    | delete => exact hkept ""
    | set _ value =>
      cases value with
      | text aclName =>
        simp only [CrudOp.tail, CrudOp.args]
        split
        · exact .fail _
        · split_ifs
          · exact .fail _
          · exact hkept aclName
      | _ => exact .fail _
  · rw [if_pos hsub]
    exact .fail _

theorem confined_handleEntities (hns : path.ns = "entities") :
    Confined services guarded op path s
      (handleEntities services answers s path.rest op.tail op.args) := by
  cases hrest : path.rest with
  | nil =>
    cases op with
    | get => exact .read rfl
    | delete => exact .refuse _ _
    | set => exact .refuse _ _
  | cons name rest =>
    cases rest with
    | nil =>
      cases op with
      | get => exact .read rfl
      | delete =>
        refine .of_owned (.entity name) ⟨hns, .inl hrest⟩ fun part howns _ _ ↦ ?_
        refine kept_handleEntityDelete name ?_
        rintro rfl
        exact howns ⟨hns, .inl hrest⟩
      | set _ value =>
        cases value with
        | text raw =>
          refine .of_owned (.entity name) ⟨hns, .inl hrest⟩ fun part howns _ _ ↦ ?_
          refine kept_handleEntityUpsert name raw ?_ ?_
          · rintro rfl
            exact howns ⟨hns, .inl hrest⟩
          · rintro rfl
            exact howns ⟨hns, .inl hrest⟩
        | _ => exact .fail _
    | cons field subPath =>
      unfold handleEntities
      dsimp only
      by_cases hread : (op.tail.isNone && op.args.isEmpty && subPath.isEmpty) = true
      · rw [if_pos hread]
        simp only [Bool.and_eq_true, Option.isNone_iff_eq_none] at hread
        exact .read hread.1.1
      · rw [if_neg hread]
        by_cases hfield : field = "acl"
        · rw [if_pos hfield]
          subst hfield
          exact confined_handleEntityAclField hns hrest
        · rw [if_neg hfield]
          exact .fail _

theorem confined_handleAt [DecidableEq Cid] :
    Confined services guarded op path s (handleAt services answers s path op.tail op.args) := by
  unfold handleAt
  split
  · rename_i hns
    exact confined_handleEntities hns
  · rename_i hns
    exact confined_handleKinds hns
  · rename_i hns
    exact confined_handleConfig fun key hrest ↦ .inl ⟨hns, hrest⟩
  · rename_i hns
    exact confined_handleRootAcl hns
  · rename_i hns
    exact confined_handleRootAcls hns
  · rename_i hns
    exact confined_handleRootGrp hns
  · rename_i hentities hkinds hconfig hacl hacls hgrp
    refine confined_handleConfig fun key hrest ↦ .inr ?_
    obtain ⟨rfl, hnil⟩ := List.cons.inj hrest
    refine ⟨rfl, ?_, hnil⟩
    simp only [namespaces, List.mem_cons, List.not_mem_nil, or_false, not_or]
    exact ⟨hentities, hkinds, hconfig, hacl, hacls, hgrp⟩

/-- A message whose payload is an operation at a path. -/
theorem confined_dispatchManagement [DecidableEq Cid] {messageType : String}
    {payload : List UInt8} (hop : decodeCrudPayload services.codec payload = .ok op)
    (hpath : CrudPath.parse op.path = .ok path) :
    Confined services guarded op path s
      (dispatchManagement services answers s messageType payload) := by
  unfold dispatchManagement
  split_ifs
  · exact .refuse _ _
  · exact .refuse _ _
  · simp only [hop, hpath]
    exact confined_handleAt

/-- A message whose payload is no operation at a path. -/
theorem refused_dispatchManagement [DecidableEq Cid] {messageType : String} {payload : List UInt8}
    (h : ¬∃ op path, decodeCrudPayload services.codec payload = .ok op ∧
      CrudPath.parse op.path = .ok path) :
    IsRefused (dispatchManagement services answers s messageType payload).1 ∧
      (dispatchManagement services answers s messageType payload).2 = s := by
  unfold dispatchManagement
  split_ifs
  · exact ⟨rfl, rfl⟩
  · exact ⟨rfl, rfl⟩
  · cases hop : decodeCrudPayload services.codec payload with
    | error => exact ⟨trivial, rfl⟩
    | ok op =>
      dsimp only
      cases hpath : CrudPath.parse op.path with
      | error => exact ⟨trivial, rfl⟩
      | ok path => exact absurd ⟨op, path, hop, hpath⟩ h

end Dispatch

/-- A message, and what the calls of its request answer. -/
structure ManagedRequest where
  messageType : String
  payload : List UInt8
  answers : Answers

section Runs

variable [DecidableEq Cid] {services : Services Cid} {guarded : GuardedConfig} {part : Part}
  {s t : ManagedState Cid}

/-- One request after the other. -/
def manageStep (services : Services Cid) (s : ManagedState Cid) (request : ManagedRequest) :
    Option (ManagedState Cid) :=
  some (dispatchManagement services request.answers s request.messageType request.payload).2

/-- If a request is an operation at a path, the path does not address a part, and the part does not
follow what it addresses. -/
def Spares (services : Services Cid) (part : Part) (s : ManagedState Cid)
    (request : ManagedRequest) : Prop :=
  ∀ op path, decodeCrudPayload services.codec request.payload = .ok op →
    CrudPath.parse op.path = .ok path →
    ¬Owns path part ∧ ¬LeftOpen op path part ∧
      ∀ t, manageStep services s request = some t → ¬Follows services op path s t part

/-- A request keeps a part that it spares. -/
theorem kept_of_manageStep {request : ManagedRequest} (hspares : Spares services part s request)
    (h : manageStep services s request = some t) : Kept guarded s t part := by
  obtain rfl := Option.some.inj h
  by_cases hop : ∃ op path, decodeCrudPayload services.codec request.payload = .ok op ∧
      CrudPath.parse op.path = .ok path
  · obtain ⟨op, path, hop, hpath⟩ := hop
    obtain ⟨howns, hopen, hfollows⟩ := hspares op path hop hpath
    exact (confined_dispatchManagement hop hpath).kept part howns (hfollows _ rfl) hopen
  · rw [(refused_dispatchManagement hop).2]
    exact .refl guarded s part

/-- Requests that all spare a part keep it. -/
theorem kept_of_run {requests : List ManagedRequest}
    (h : GuardedRun (manageStep services) (Spares services part) s requests t) :
    Kept guarded s t part :=
  h.relates (fun s t ↦ Kept guarded s t part) (fun s ↦ .refl guarded s part)
    (fun _ _ _ ↦ .trans) fun _ _ _ ↦ kept_of_manageStep

end Runs

/-! ### New owners, a new base and a new level -/

/-- Identifiers that are the documents and the kinds they identify. -/
inductive ManagedCid
  | access (document : AccessDocument)
  | document (document : Document ManagedCid)
  | kind (kind : KindNode ManagedCid)

/-- Services for a request that sets a path to an identifier. -/
def servicesFor (path : String) (cid : ManagedCid) : Services ManagedCid where
  codec := ⟨fun _ ↦ some (.array [.text path, .text "cid"]), fun _ ↦ none⟩
  debug := strokes
  cidv1Ref _ := some cid
  dagResolve _ := .ok cid
  accessStore :=
    { cidOf := .access
      document := fun | .access document => some document | _ => none
      document_cidOf := fun _ ↦ rfl }
  nodeStore :=
    { cidOf := .document
      document := fun | .document document => some document | _ => none
      document_cidOf := fun _ ↦ rfl }
  fetchKind
    | .kind kind => .ok kind
    | _ => .error "not found"
  fetchTree _ := .error "not found"

def managedKind (path : KindPath) (base : Option KindPath) (hostFunctions : List String) :
    KindNode ManagedCid where
  protocol := path.protocolId
  cid := none
  kindType := .extism
  behaviour := none
  behaviourChain := []
  attributes := .empty
  hostFunctions := hostFunctions
  extendsProtocol := base.map KindPath.protocolId

def derivedRoom : EntityNode ManagedCid where
  kind := derivedPath.protocolId
  behaviour := none
  acl := ""
  state := none
  parent := none
  label := none
  attributes := .empty
  init := none
  initialised := true
  reloadError := none

/-- A manifest with a base, a kind that extends it, and an entity of that kind. -/
def managedManifest : RuntimeManifest ManagedCid :=
  { insertKinds .default [(basePath.protocolId, ⟨.kind (managedKind basePath none [])⟩),
      (derivedPath.protocolId, ⟨.kind (managedKind derivedPath (some basePath) [])⟩)] with
    entities := KeyedMap.empty.insert "room" ⟨.document (.entityNode derivedRoom)⟩ }

def managedState (disk : Option Config) (services : Services ManagedCid) :
    ManagedState ManagedCid where
  toAccessState := .start (some managedManifest) disk freshConfig
  aclCache := .empty
  kindRegistry := hydrateKindRegistry services.fetchKind managedManifest
  plugins := .empty
  backoffAttempts := none
  refreshInterval := none
  language := "en"
  reloads := []

/-- Everything that is asked for succeeds. -/
def everythingAnswered : Answers := ⟨true, true, true, true, true, true, true, ""⟩

/-- The runtime after a SET of a path to an identifier. -/
def managedAfter [DecidableEq ManagedCid] (disk : Option Config) (path : String)
    (cid : ManagedCid) : ManagedState ManagedCid :=
  (dispatchManagement (servicesFor path cid) everythingAnswered
    (managedState disk (servicesFor path cid)) messageTypeCrud [0x82]).2

end MaRuntime.Crud
