import MaRuntime.Crud.Agreement
import MaRuntime.Crud.Names
import MaRuntime.Crud.Settings
import MaRuntime.Daemon.Mirror
import MaRuntime.Kinds.Registry

/-!
# Management over CRUD

`dispatch_management` takes the payload of a message apart, and hands its operation to the handler
of the namespace that its path begins with. The handlers of the ACLs and groups, of the kinds and of
the daemon's settings are those of `Daemon.Mirror`, `Kinds.Registry` and `Crud.Settings`, here over
one state (`ManagedState`), with the answers; the handlers of the manifest's settings and of the
entities are added.

Main definitions: `ManagedState`, `dispatchManagement`.
Main results: `setKindAt_handleSet`, `handleConfig_writeDaemonKey`.

Scope. A handler runs to completion before the next one. The reloads of entities that it spawns are
kept as a list of names; what a reload does comes later. What other crates and services answer is
given with the runtime (`Services`) and with the request (`Answers`). The right of a sender to CRUD
is checked before, and an answer always reaches its sender. The manifest in force can be read.
-/

set_option autoImplicit false
set_option relaxedAutoImplicit false

namespace MaRuntime.Crud

open Acl Daemon Kinds Manifest

variable {Cid : Type}

/-! ### Paths -/

/-- A path as `parse_path` leaves it. -/
structure CrudPath where
  ns : String
  rest : List String
  isSegment : ∀ segment ∈ rest, segment ≠ "" ∧ '/' ∉ segment.toList

/-- `parse_path` -/
def CrudPath.parse (path : String) : Except String CrudPath :=
  match h : parsePath path with
  | .ok (ns, rest) => .ok ⟨ns, rest, fun _ hsegment ↦ of_mem_parsePath h hsegment⟩
  | .error reason => .error reason

theorem CrudPath.parse_eq_ok {path : String} {parsed : CrudPath} (h : parse path = .ok parsed) :
    nonemptyParts '/' path = parsed.ns :: parsed.rest := by
  unfold parse at h
  split at h
  · rename_i hparts
    obtain rfl := Except.ok.inj h
    exact nonemptyParts_of_parsePath hparts
  · cases h

/-! ### The state -/

/-- What requests manage: the manifest, the caches of ACLs and groups, the list of owners and the
configuration (`CachedState`), with the registries of kinds and entities, the outbox's limit and the
interval of the DID refresh, the language of the messages, and the entities whose reload was
spawned. -/
structure ManagedState (Cid : Type) extends CachedState Cid where
  kindRegistry : KeyedMap String (KindNode Cid)
  plugins : KeyedMap String RegisteredPlugin
  backoffAttempts : Option Nat
  refreshInterval : Option Nat
  language : String
  reloads : List String

/-- What the runtime builds on: the codec of CBOR, the debug form of YAML, the parser of CIDs, and
the documents of IPFS. -/
structure Services (Cid : Type) where
  codec : CborCodec
  debug : YamlValue → String
  cidv1Ref : String → Option Cid
  dagResolve : String → Except String Cid
  accessStore : AccessStore Cid
  nodeStore : Store Cid
  fetchKind : Cid → Except String (KindNode Cid)
  fetchTree : Cid → Except String (KindTree Cid)

/-- What the calls of one request answer: whether a document is fetched, a manifest published, the
configuration saved and the language loaded, whether the settings of plugins are there for a reload,
whether the sender has the capability that is asked for and is an owner, and the text of an
error. -/
structure Answers where
  fetched : Bool
  published : Bool
  saved : Bool
  translated : Bool
  configBuilt : Bool
  permitted : Bool
  isOwner : Bool
  error : String

/-- How a request ends. -/
abbrev Ended (Cid : Type) := Except String (CrudReply Cid) × ManagedState Cid

namespace ManagedState

variable (s : ManagedState Cid)

/-- A refusal, with which everything stays as it was. -/
def refuse (reason : String) (args : List (String × String)) : Ended Cid :=
  (.ok (.refused reason args), s)

/-- An error, with which everything stays as it was. -/
def fail (reason : String) : Ended Cid := (.error reason, s)

/-- The answer to a GET. -/
def read : Ended Cid := (.ok .data, s)

/-- The state behind a handler whose errors leave it as it was. -/
def settle (handled : Handled Cid (ManagedState Cid)) : Ended Cid :=
  match handled with
  | .ok (reply, t) => (.ok reply, t)
  | .error reason => (.error reason, s)

/-- The settings of the daemon, and those who are told of them. -/
def settings : SettingsState where
  toConfigState := s.config
  backoffAttempts := s.backoffAttempts
  refreshInterval := s.refreshInterval

def withSettings (settings : SettingsState) : ManagedState Cid :=
  { s with
    config := settings.toConfigState
    backoffAttempts := settings.backoffAttempts
    refreshInterval := settings.refreshInterval }

end ManagedState

/-- The settings of the manifest that may be written. -/
def manifestConfigKeys : List String :=
  ["root", "start", "operator", "name", "description", "i18n", "did_resolve_attempts",
    "did_resolve_attempt_timeout_secs", "did_document_publishing_interval_secs",
    "did_publish_cache_warm_secs", "did_document_publishing_timeout_secs",
    "did_document_publishing_lifetime_hours", "ipns_publish_lifetime_hours",
    "ipns_publish_timeout_secs", "ipns_publish_resolve", "ipns_publish_allow_offline",
    "plugin_envelope_queue_capacity"]

/-- `plugin_envelope_queue_capacity` of a given value. -/
def pluginEnvelopeQueueCapacity (value : YamlValue) : Except String Nat :=
  match value.asU64 with
  | none => .error "plugin_envelope_queue_capacity must be a positive integer"
  | some 0 => .error "plugin_envelope_queue_capacity must be greater than zero"
  | some (n + 1) => .ok (n + 1)

def noManifest : String := "no manifest root CID available"

section Handlers

variable (services : Services Cid) (answers : Answers) (s : ManagedState Cid)

/-! ### ACLs and groups -/

/-- The answer to a write of the manifest behind a document that has to be there. -/
def written (found : Bool) (reply : CrudReply Cid) : Except String (CrudReply Cid) :=
  if found && s.manifest.isSome && answers.published then .ok reply else .error answers.error

/-- `handle_root_acl` -/
def handleRootAcl (tail : Option String) (args : List CborValue) : Ended Cid :=
  match tail, args with
  | none, [] => s.read
  | some "", [.text raw] =>
    match services.cidv1Ref raw with
    | none => s.refuse "cidv1-required" []
    | some cid =>
      let found := answers.fetched && (aclAt services.accessStore cid).isSome
      (written answers s found (.okCid cid),
        { s with
          toAccessState := setRootAcl services.accessStore s.toAccessState cid answers.fetched
            answers.published })
  | some "", [] => s.refuse "refuse-delete-root" []
  | _, _ => s.fail "unknown :acl operation"

/-- `handle_root_acls` -/
def handleRootAcls (rest : List String) (tail : Option String) (args : List CborValue) :
    Ended Cid :=
  match rest, tail, args with
  | [], none, [] => s.read
  | [_], none, [] => s.read
  | [aclName], some "", [.text raw] =>
    match services.cidv1Ref raw with
    | none => s.refuse "cidv1-required" []
    | some cid =>
      let found := answers.fetched && (aclAt services.accessStore cid).isSome
      (written answers s found (.okCid cid),
        { s with
          toCachedState := setNamedAcl services.accessStore s.toCachedState aclName cid
            answers.fetched answers.published })
  | [aclName], some "", [] =>
    match s.manifest with
    | none => s.fail noManifest
    | some m =>
      if (m.acls.get aclName).isNone then s.refuse "acl-not-found" []
      else
        (written answers s true .okRoot,
          { s with toCachedState := deleteNamedAcl s.toCachedState aclName answers.published })
  | _, _, _ => s.fail "unknown :acls operation"

/-- `handle_root_grp` -/
def handleRootGrp (rest : List String) (tail : Option String) (args : List CborValue) :
    Ended Cid :=
  match rest, tail, args with
  | [], none, [] => s.read
  | [_], none, [] => s.read
  | [name], some "", [.text raw] =>
    match services.cidv1Ref raw with
    | none => s.refuse "cidv1-required" []
    | some cid =>
      (written answers s true (.okCid cid),
        { s with
          toAccessState := setGroup services.accessStore s.toAccessState name cid answers.fetched
            answers.published })
  | [name], some "", [] =>
    if name = "owners" then s.refuse "refuse-delete-root" []
    else
      match s.manifest with
      | none => s.fail noManifest
      | some m =>
        if (m.grp.get name).isNone then s.refuse "group-not-found" []
        else
          (written answers s true .okRoot,
            { s with toAccessState := deleteGroup s.toAccessState name answers.published })
  | _, _, _ => s.fail "unknown /grp operation"

/-! ### Kinds -/

/-- The kind of the node that a manifest links for an entity. -/
def linkedKind (m : RuntimeManifest Cid) (name : String) : Option String :=
  (m.entityNodeAt services.nodeStore name).map EntityNode.kind

/-- `spawn_kind_dependency_reloads_for`: the affected kinds go into the registry, and the entities
of these kinds are reloaded. -/
def spawnReloadsFor (updatedProtocols : List String) (m : RuntimeManifest Cid)
    (t : ManagedState Cid) : ManagedState Cid :=
  let affected :=
    affectedKindProtocolsFor updatedProtocols (loadRawKindNodes services.fetchKind m)
  { t with
    kindRegistry :=
      spawnKindDependencyReloadsFor services.fetchKind updatedProtocols m t.kindRegistry
    reloads := t.reloads ++ (m.entities.entries.map Prod.fst).filter fun name ↦
      (linkedKind services m name).any affected.contains }

/-- `handle_kinds_ns`, a SET of a kind. -/
def setKindAt (path : KindPath) (raw : String) : Handled Cid (ManagedState Cid) :=
  match services.dagResolve raw, s.manifest with
  | .error reason, _ => .error reason
  | .ok cid, none =>
    -- the node is fetched before the manifest is looked for
    match withContext s!"fetching kind node for '{path.protocolId}'" (services.fetchKind cid) with
    | .error reason => .error reason
    | .ok _ => .error noManifest
  | .ok cid, some m =>
    match setKind services.fetchKind m path cid with
    | .error reason => .error reason
    | .ok (manifest, kindNode) =>
      if answers.published then
        let t : ManagedState Cid :=
          { s with
            manifest := some manifest
            kindRegistry := s.kindRegistry.insert path.protocolId kindNode }
        .ok (.okCid cid,
          if answers.configBuilt then spawnReloadsFor services [path.protocolId] manifest t else t)
      else .error answers.error

/-- `handle_kinds_ns`, a DELETE of a kind. -/
def deleteKindAt (path : KindPath) : Handled Cid (ManagedState Cid) :=
  match s.manifest with
  | none => .error noManifest
  | some m =>
    match handleDelete ⟨m, s.kindRegistry⟩ path with
    | .error reason => .ok (.refused reason [], s)
    | .ok kinds =>
      if answers.published then
        .ok (.ok, { s with manifest := some kinds.manifest, kindRegistry := kinds.registry })
      else .error answers.error

/-- `apply_kinds_tree` -/
def applyKindsTreeAt [DecidableEq Cid] (raw : String) : Handled Cid (ManagedState Cid) :=
  match services.dagResolve raw with
  | .error reason => .error reason
  | .ok cid =>
    match services.fetchTree cid, s.manifest with
    | .error reason, _ => .error reason
    | .ok _, none => .error answers.error
    | .ok overlay, some m =>
      match applyKindsTreeOverlay services.fetchKind m overlay with
      | .error reason => .error reason
      | .ok (manifest, changedProtocols) =>
        if answers.published then
          let t : ManagedState Cid := { s with manifest := some manifest }
          .ok (.okCid cid,
            if changedProtocols.isEmpty || !answers.configBuilt then t
            else spawnReloadsFor services changedProtocols manifest t)
        else .error answers.error

/-- `handle_kinds_ns` -/
def handleKinds [DecidableEq Cid] (path : CrudPath) (tail : Option String)
    (args : List CborValue) : Ended Cid :=
  if hrest : path.rest = [] then
    match tail, args with
    | none, [] => s.read
    | some "", [] => s.refuse "refuse-delete-root" []
    | some "", [.text raw] => s.settle (applyKindsTreeAt services answers s raw)
    | _, _ => s.fail "unknown kinds root operation"
  else
    let kindPath : KindPath := ⟨path.rest, hrest, path.isSegment⟩
    match tail, args with
    | none, [] => s.read
    | some "", [.text raw] => s.settle (setKindAt services answers s kindPath raw)
    | some "", [] => s.settle (deleteKindAt answers s kindPath)
    | _, _ => s.fail "unknown kinds operation"

/-! ### Settings -/

/-- The manifest with a setting. -/
def setManifestConfig (m : RuntimeManifest Cid) (key : String) (val : YamlValue) :
    RuntimeManifest Cid :=
  { m with config := m.config.insert key val }

/-- `handle_config_key_set` for the settings of the manifest. -/
def setManifestKey (key : String) (val : YamlValue) : Ended Cid :=
  if !manifestConfigKeys.contains key then s.refuse "config-key-not-manifest" [("key", key)]
  else
    match announced pluginEnvelopeQueueCapacity "plugin_envelope_queue_capacity" key val,
      s.manifest with
    | .error reason, _ => s.fail reason
    | .ok _, none => s.fail answers.error
    | .ok _, some m =>
      if answers.published then
        (.ok (((val.asStr.bind services.cidv1Ref).map CrudReply.okCid).getD .okRoot),
          { s with
            manifest := some (setManifestConfig m key val)
            language := if key = "i18n" && answers.translated then val.asStr.getD s.language
              else s.language })
      else s.fail answers.error

/-- `handle_config_key_delete` for the settings of the manifest. -/
def deleteManifestKey (key : String) : Ended Cid :=
  match s.manifest with
  | none => s.fail noManifest
  | some m =>
    if (m.config.get key).isNone then s.refuse "config-not-found" []
    else if answers.published then
      (.ok .ok, { s with manifest := some { m with config := m.config.remove key } })
    else s.fail answers.error

/-- `handle_config_key_set` -/
def handleConfigKeySet (key : String) (val : YamlValue) : Ended Cid :=
  if daemonConfigKeys.contains key then
    match setDaemonKey s.settings key val answers.saved with
    | .ok (reply, settings) => (.ok reply, s.withSettings settings)
    | .error reason => s.fail reason
  else setManifestKey services answers s key val

/-- `handle_config_key_delete` -/
def handleConfigKeyDelete (key : String) : Ended Cid :=
  if daemonConfigKeys.contains key then s.refuse "config-key-no-delete" [("key", key)]
  else deleteManifestKey answers s key

/-- `handle_config_ns` -/
def handleConfig (rest : List String) (tail : Option String) (args : List CborValue) :
    Ended Cid :=
  match rest with
  | [] =>
    match tail, args with
    | none, [] => s.read
    | some "", _ => s.refuse "refuse-delete-root" []
    | _, _ => s.fail "unknown config operation"
  | [key] =>
    if isProtectedConfigKey key then s.refuse "config-key-protected" [("key", key)]
    else
      match tail, args with
      | none, [] => s.read
      | some "", [] => handleConfigKeyDelete answers s key
      | some "", [value] =>
        handleConfigKeySet services answers s key (cborToYaml services.debug value)
      | _, _ => s.fail ("unknown config." ++ key ++ " operation")
  | _ => s.fail "unknown config operation"

/-! ### Entities -/

/-- `handle_entity_delete` -/
def handleEntityDelete (name : String) : Ended Cid :=
  if !answers.permitted then s.fail answers.error
  else
    match s.manifest with
    | none => s.fail noManifest
    | some m =>
      if (m.entities.get name).isNone then s.refuse "entity-not-found" []
      else
        let t : ManagedState Cid := { s with plugins := s.plugins.remove name }
        if answers.published then
          (.ok .ok, { t with manifest := some { m with entities := m.entities.remove name } })
        else t.fail answers.error

/-- `resolve_kind_node_for_upsert` -/
def resolveKindNodeForUpsert (entityKind : String) : Except String (Option (KindNode Cid)) :=
  match s.kindRegistry.get entityKind, s.manifest with
  | some kind, _ => .ok (some kind)
  | none, none => .error noManifest
  | none, some m =>
    match m.kinds.getProtocol entityKind with
    | none => .ok none
    | some link => do
      let rawKind ← withContext s!"fetching kind node for '{entityKind}'"
        (services.fetchKind link.cid)
      let resolved ← resolveKind services.fetchKind m.kinds rawKind
      return some resolved

/-- The manifest that links an entity, and the reload of the entity if the settings of plugins are
there. -/
def linkAndReload (m : RuntimeManifest Cid) (name : String) (cid : Cid) : Ended Cid :=
  if answers.published then
    let t : ManagedState Cid :=
      { s with manifest := some { m with entities := m.entities.insert name ⟨cid⟩ } }
    if answers.configBuilt then (.ok (.okCid cid), { t with reloads := t.reloads ++ [name] })
    else t.fail answers.error
  else s.fail answers.error

/-- `handle_entity_upsert` -/
def handleEntityUpsert (name raw : String) : Ended Cid :=
  match checkUpsertName name, services.cidv1Ref raw with
  | .error reason, _ =>
    s.refuse reason (if reason = "reserved-entity-name" then [("name", name)] else [])
  | .ok _, none => s.refuse "cidv1-required" []
  | .ok _, some cid =>
    match if answers.fetched then nodeAt services.nodeStore cid else none with
    | none => s.fail answers.error
    | some node =>
      if !answers.permitted then s.fail answers.error
      else
        match resolveKindNodeForUpsert services s node.kind with
        | .error reason => s.fail reason
        | .ok kind =>
          match upsertNode (fun _ ↦ kind.map KindNode.toKindNode) node answers.isOwner,
            s.manifest with
          | none, _ => s.refuse "genesis-kind-owner-only" []
          | some _, none => s.fail answers.error
          | some _, some m => linkAndReload answers s m name cid

/-- `handle_entity_acl_field`, which gives an entity another ACL name. -/
def setEntityAcl (name aclName : String) : Ended Cid :=
  match s.manifest with
  | none => s.fail noManifest
  | some m =>
    match m.entities.get name with
    | none => s.fail ("entity not found: " ++ name)
    | some link =>
      match if answers.fetched then nodeAt services.nodeStore link.cid else none with
      | none => s.fail answers.error
      | some node =>
        linkAndReload answers s m name
          (services.nodeStore.cidOf (.entityNode { node with acl := aclName }))

/-- `handle_entity_acl_field` -/
def handleEntityAclField (name : String) (subPath : List String) (tail : Option String)
    (args : List CborValue) : Ended Cid :=
  if subPath ≠ [] then
    s.fail ("entity field 'acl' sub-path '" ++ ".".intercalate subPath ++ "' not yet implemented")
  else
    match tail, args with
    | none, [] => s.read
    | some "", [.text aclName] =>
      match s.manifest with
      | none => s.fail noManifest
      | some m =>
        if (m.acls.get aclName).isNone then s.fail answers.error
        else setEntityAcl services answers s name aclName
    | some "", [] => setEntityAcl services answers s name ""
    | _, _ => s.fail ("unknown entities." ++ name ++ ".acl operation")

/-- `handle_entities_ns`, with `handle_single_entity` and `handle_entity_field`. -/
def handleEntities (rest : List String) (tail : Option String) (args : List CborValue) :
    Ended Cid :=
  match rest with
  | [] =>
    match tail, args with
    | none, [] => s.read
    | some "", _ => s.refuse "refuse-delete-root" []
    | _, _ => s.fail "unknown entities operation"
  | [name] =>
    match tail, args with
    | none, [] => s.read
    | some "", [] => handleEntityDelete answers s name
    | some "", [.text raw] => handleEntityUpsert services answers s name raw
    | _, _ => s.fail ("unknown entities." ++ name ++ " operation")
  | name :: field :: subPath =>
    if tail.isNone && args.isEmpty && subPath.isEmpty then s.read
    else if field = "acl" then handleEntityAclField services answers s name subPath tail args
    else s.fail ("unknown entity field '" ++ field ++ "' in entity." ++ name)

/-! ### The dispatch -/

/-- The handler of a path's namespace. A namespace of another name begins the path of a setting. -/
def handleAt [DecidableEq Cid] (path : CrudPath) (tail : Option String) (args : List CborValue) :
    Ended Cid :=
  match path.ns with
  | "entities" => handleEntities services answers s path.rest tail args
  | "kinds" => handleKinds services answers s path tail args
  | "config" => handleConfig services answers s path.rest tail args
  | "acl" => handleRootAcl services answers s tail args
  | "acls" => handleRootAcls services answers s path.rest tail args
  | "grp" => handleRootGrp services answers s path.rest tail args
  | ns => handleConfig services answers s (ns :: path.rest) tail args

def messageTypeCrud : String := "application/vnd.ma.crud.request"

/-- `dispatch_management` -/
def dispatchManagement [DecidableEq Cid] (messageType : String) (payload : List UInt8) :
    Ended Cid :=
  if messageType ≠ messageTypeCrud then s.refuse "wrong-crud-protocol" [("type", messageType)]
  else if payload.isEmpty then s.refuse "empty CRUD payload" []
  else
    match decodeCrudPayload services.codec payload with
    | .error reason => s.fail reason
    | .ok op =>
      match CrudPath.parse op.path with
      | .error reason => s.fail reason
      | .ok path => handleAt services answers s path op.tail op.args

end Handlers

/-! ### The handlers by themselves -/

section Alone

variable {services : Services Cid} {answers : Answers} {s : ManagedState Cid}
  {m : RuntimeManifest Cid} {raw : String} {cid : Cid}

/-- A SET of a kind that succeeds does to the manifest and the registry what `handleSet` does. -/
theorem setKindAt_handleSet (path : KindPath) (hcid : services.dagResolve raw = .ok cid)
    (hmanifest : s.manifest = some m) (hpublished : answers.published = true)
    (hbuilt : answers.configBuilt = true) :
    (setKindAt services answers s path raw).map
        (fun result ↦ (result.2.manifest, result.2.kindRegistry)) =
      (handleSet services.fetchKind ⟨m, s.kindRegistry⟩ path cid).map
        fun kinds ↦ (some kinds.manifest, kinds.registry) := by
  unfold setKindAt handleSet
  rw [hcid, hmanifest]
  dsimp only
  cases setKind services.fetchKind m path cid with
  | error => rfl
  | ok result =>
    simp only [hpublished, hbuilt, if_true]
    rfl

/-- A SET of `/kinds` that succeeds does to them what `applyKindsTree` does. -/
theorem applyKindsTreeAt_applyKindsTree [DecidableEq Cid] {kinds : KindTree Cid}
    (hcid : services.dagResolve raw = .ok cid) (htree : services.fetchTree cid = .ok kinds)
    (hmanifest : s.manifest = some m) (hpublished : answers.published = true)
    (hbuilt : answers.configBuilt = true) :
    (applyKindsTreeAt services answers s raw).map
        (fun result ↦ (result.2.manifest, result.2.kindRegistry)) =
      (applyKindsTree services.fetchKind ⟨m, s.kindRegistry⟩ kinds).map
        fun kinds ↦ (some kinds.manifest, kinds.registry) := by
  unfold applyKindsTreeAt applyKindsTree
  rw [hcid, hmanifest]
  dsimp only
  rw [htree]
  dsimp only
  cases applyKindsTreeOverlay services.fetchKind m kinds with
  | error => rfl
  | ok result =>
    simp only [hpublished, hbuilt, if_true, Bool.not_true, Bool.or_false]
    by_cases hchanged : result.2.isEmpty = true
    · rw [if_pos hchanged]
      exact congrArg (fun registry ↦ Except.ok (some result.1, registry)) (if_pos hchanged).symm
    · rw [if_neg hchanged]
      exact congrArg (fun registry ↦ Except.ok (some result.1, registry)) (if_neg hchanged).symm

/-- A write of a daemon's setting that is not protected ends as `writeDaemonKey` does. -/
theorem handleConfig_writeDaemonKey {key : String} (hkey : key ∈ daemonConfigKeys)
    (hopen : isProtectedConfigKey key = false) (value : CborValue) (path : String) :
    handleConfig services answers s [key] (some "") (CrudOp.ofPair path value).args =
      match writeDaemonKey services.debug s.settings key answers.saved
        (CrudOp.ofPair path value).args with
      | .ok (reply, settings) => (.ok reply, s.withSettings settings)
      | .error reason => s.fail reason := by
  have hcontains : daemonConfigKeys.contains key = true := List.contains_iff_mem.mpr hkey
  unfold handleConfig
  simp only [hopen, Bool.false_eq_true, if_false]
  obtain ⟨-, hargs⟩ | ⟨-, hargs⟩ := CrudOp.args_ofPair path value
  · rw [hargs]
    simp only [handleConfigKeyDelete, hcontains, if_true]
    rfl
  · rw [hargs]
    simp only [handleConfigKeySet, hcontains, if_true, writeDaemonKey]
    cases setDaemonKey s.settings key (cborToYaml services.debug value) answers.saved with
    | ok => rfl
    | error => rfl

end Alone

end MaRuntime.Crud
