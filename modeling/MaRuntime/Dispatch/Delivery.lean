import MaRuntime.Acl.Grants
import MaRuntime.Library.Yaml

/-!
# Deliveries to entities

A message reaches an entity's `on_message` on three paths: from the inbox (`dispatchActorMessage`),
from another entity of the runtime through `ma_send` (`dispatchEnvelope`), and from a schedule
(`dispatchScheduled`). The first path asks the entity's ACL (`enforceEntityAcl`), which refuses
every message of an entity whose ACL is empty or not cached. The second path does not ask it.

`EntityAclGuards` says that a message runs `on_message` only where the entity's ACL allows its
sender the verb. It does if and only if the message is from the inbox, or it is an envelope that is
not handed to an entity which refuses it (`entityAclGuards_iff`).

Main definitions: `classifyTarget`, `enforceEntityAcl`, `deliver`, `EntityAclGuards`.
Main results: `entityAclGuards_iff`, `envelope_bypasses_acl`.

Scope. `Did::try_from`, `normalize_principal`, `check_cap` and the CBOR codec come with other crates
and are parameters, and so is the type of a message that has none. A dispatch reads the registry and
the caches at one moment; of the lookups of an envelope's target, which are repeated while there is
no entity, it is the last one. Replies, and what is done with an envelope for another runtime, are
left out.
-/

set_option autoImplicit false
set_option relaxedAutoImplicit false

namespace MaRuntime.Dispatch

open Acl

abbrev Bytes := List UInt8

/-! ### Routing -/

/-- A DID with the fragment of its DID-URL. -/
structure Did where
  base : String
  fragment : Option String
deriving DecidableEq

inductive TargetRoute
  | localFragment (fragment : String)
  | localRuntime
  | remote (did : Did)
  | invalid
deriving DecidableEq

section Routing

variable (parseDid : String → Option Did)

def localBaseDid (ourDid : String) : String :=
  match parseDid ourDid with
  | some did => did.base
  | none => trim ourDid

def classifyTarget (target ourDid : String) : TargetRoute :=
  match parseDid (trim target) with
  | none => .invalid
  | some targetDid =>
    if targetDid.base ≠ localBaseDid parseDid ourDid then .remote targetDid
    else
      match targetDid.fragment with
      | some fragment => if fragment = "" then .localRuntime else .localFragment fragment
      | none => .localRuntime

def localTargetFragment (target ourDid : String) : Option String :=
  match classifyTarget parseDid target ourDid with
  | .localFragment fragment => some fragment
  | _ => none

def localActorUrl (ourDid fragment : String) : String :=
  localBaseDid parseDid ourDid ++ "#" ++ fragment

end Routing

/-! ### Messages and entities -/

/-- A message, from the sender to the entity with these DID-URLs. -/
structure LocalMessage where
  id : String
  fromUrl : String
  toUrl : String
  createdAt : Nat
  exp : Nat
  replyTo : Option String
  messageType : String
  contentType : String
  content : Bytes
deriving DecidableEq

/-- What a guest hands to `ma_send`. -/
structure SendEnvelope where
  toUrl : String
  contentType : String
  messageType : Option String
  content : Bytes
  replyTo : Option String
deriving DecidableEq

/-- An entity of the registry, as a dispatch reads it. -/
structure EntityPlugin where
  fragment : String
  acl : String
  parent : Option String
  native : Bool
deriving DecidableEq

/-- What a dispatch reads of the runtime. -/
structure DispatchCtx where
  ourDid : String
  entityRegistry : KeyedMap String EntityPlugin
  aclCache : KeyedMap String AclMap
  groupCache : KeyedMap String (List String)

/-- The verb of a term: the term itself, or the first item of an array. -/
def termVerb : CborValue → Option String
  | .text verb => some verb
  | .array (.text verb :: _) => some verb
  | _ => none

/-! ### The entity's ACL -/

/-- The refusals of an entity: it has no ACL, its ACL is not cached, or the ACL refuses
the caller. -/
inductive EntityAclRefusal
  | noAcl (fragment : String)
  | notCached (fragment aclName : String)
  | denied (fragment fromUrl : String) (verb : Option String) (cause : AccessDenied)
deriving DecidableEq

/-- A sender as an entity's ACL knows it: an entity of this runtime by its fragment alone. -/
def callerDid (ourDid fromUrl : String) : String :=
  match stripPrefix (ourDid ++ "#") fromUrl with
  | some frag => "#" ++ frag
  | none => fromUrl

theorem callerDid_of_local (ourDid frag : String) :
    callerDid ourDid (ourDid ++ "#" ++ frag) = "#" ++ frag := by
  have hlocal : stripPrefix (ourDid ++ "#") (ourDid ++ "#" ++ frag) = some frag :=
    stripPrefix_eq_some_iff.mpr rfl
  rw [callerDid, hlocal]

/-- A sender that begins with no `#` is known by its fragment only if it is an entity of this
runtime. -/
theorem callerDid_eq_fragment_iff {ourDid fromUrl frag : String}
    (hsender : fromUrl.toList.head? ≠ some '#') :
    callerDid ourDid fromUrl = "#" ++ frag ↔ fromUrl = ourDid ++ "#" ++ frag := by
  constructor
  · intro h
    unfold callerDid at h
    cases hstrip : stripPrefix (ourDid ++ "#") fromUrl with
    | none =>
      rw [hstrip] at h
      rw [show fromUrl = "#" ++ frag from h, String.toList_append] at hsender
      exact absurd rfl hsender
    | some rest =>
      rw [hstrip] at h
      have hrest : rest = frag := by
        have hlists := congrArg String.toList h
        rw [String.toList_append, String.toList_append] at hlists
        exact String.toList_inj.mp (List.append_cancel_left hlists)
      rw [← hrest]
      exact stripPrefix_eq_some_iff.mp hstrip
  · rintro rfl
    exact callerDid_of_local ourDid frag

section Paths

variable {Failure : Type} (parseDid : String → Option Did) (normalizePrincipal : String → String)
  (checkCap : AclMap → String → String → Except Failure Unit) (codec : CborCodec)
  (messageTypeMessage contentTypeTerm : String)

/-- `enforce_entity_acl`. -/
def enforceEntityAcl (ctx : DispatchCtx) (entity : EntityPlugin) (fromUrl : String)
    (verb : Option String) : Except EntityAclRefusal Unit :=
  if entity.acl = "" then .error (.noAcl entity.fragment)
  else
    match ctx.aclCache.get ("acls." ++ entity.acl) with
    | none => .error (.notCached entity.fragment entity.acl)
    | some aclMap =>
      match checkFull normalizePrincipal checkCap aclMap (callerDid ctx.ourDid fromUrl)
          [verb.getD "*", "*"] (resolveGroup ctx.groupCache) with
      | .ok () => .ok ()
      | .error cause => .error (.denied entity.fragment fromUrl verb cause)

/-! ### The paths -/

/-- What becomes of a message. -/
inductive Dispatched
  | dropped
  | rootPublish
  | ping
  | unknownEntity (fragment : String)
  | remote
  | refused (refusal : EntityAclRefusal)
  | onMessage (entity : EntityPlugin) (input : LocalMessage)
deriving DecidableEq

/-- `dispatch_entity_message`, to the call of the plugin. -/
def dispatchEntityMessage (ctx : DispatchCtx) (message : LocalMessage) (term : CborValue)
    (entity : EntityPlugin) : Dispatched :=
  match enforceEntityAcl normalizePrincipal checkCap ctx entity message.fromUrl (termVerb term) with
  | .error refusal => .refused refusal
  | .ok () =>
    match codec.encode term with
    | none => .dropped
    | some content => .onMessage entity { message with content := content }

/-- `dispatch_actor_message`: a message of the inbox. -/
def dispatchActorMessage (ctx : DispatchCtx) (message : LocalMessage) : Dispatched :=
  if message.content = [] then .dropped
  else
    match codec.decode message.content with
    | none => .dropped
    | some term =>
      match localTargetFragment parseDid message.toUrl ctx.ourDid with
      | none => .ping
      | some fragment =>
        if fragment = "root" ∧ termVerb term = some ":publish" then .rootPublish
        else
          match ctx.entityRegistry.get fragment with
          | none => .unknownEntity fragment
          | some entity =>
            dispatchEntityMessage normalizePrincipal checkCap codec ctx message term entity

/-- The identifier and the time that the runtime gives to a message of its own. -/
structure Stamp where
  id : String
  now : Nat
deriving DecidableEq

/-- `dispatch_local_plugin_envelope`, to the call of the plugin. -/
def dispatchLocalPluginEnvelope (ctx : DispatchCtx) (senderFragment targetFragment : String)
    (env : SendEnvelope) (stamp : Stamp) : Dispatched :=
  match ctx.entityRegistry.get targetFragment with
  | none => .unknownEntity targetFragment
  | some entity =>
    .onMessage entity
      { id := stamp.id
        fromUrl := localActorUrl parseDid ctx.ourDid senderFragment
        toUrl := localActorUrl parseDid ctx.ourDid targetFragment
        createdAt := stamp.now
        exp := 0
        replyTo := env.replyTo
        messageType := env.messageType.getD messageTypeMessage
        contentType := env.contentType
        content := env.content }

/-- An envelope of `ma_send` is handed to an entity of this runtime, unless it is a reply, or sent
on. -/
def dispatchEnvelope (ctx : DispatchCtx) (senderFragment : String) (env : SendEnvelope)
    (stamp : Stamp) : Dispatched :=
  match localTargetFragment parseDid env.toUrl ctx.ourDid with
  | none => .remote
  | some targetFragment =>
    if env.replyTo.isSome then .dropped
    else
      dispatchLocalPluginEnvelope parseDid messageTypeMessage ctx senderFragment targetFragment env
        stamp

/-- `dispatch_scheduled`, to the call of the plugin. -/
def dispatchScheduled (ctx : DispatchCtx) (fragment : String) (content : Bytes) (stamp : Stamp) :
    Dispatched :=
  match ctx.entityRegistry.get fragment with
  | none => .unknownEntity fragment
  | some entity =>
    .onMessage entity
      { id := stamp.id
        fromUrl := ctx.ourDid ++ "#scheduler"
        toUrl := ctx.ourDid ++ "#" ++ fragment
        createdAt := stamp.now
        exp := 0
        replyTo := none
        messageType := messageTypeMessage
        contentType := contentTypeTerm
        content := content }

/-- The messages that are not firings of a schedule: those of the inbox, and the envelopes that the
entities of this runtime send. -/
inductive Delivery
  | inbox (message : LocalMessage)
  | envelope (senderFragment : String) (env : SendEnvelope) (stamp : Stamp)

def deliver (ctx : DispatchCtx) : Delivery → Dispatched
  | .inbox message => dispatchActorMessage parseDid normalizePrincipal checkCap codec ctx message
  | .envelope senderFragment env stamp =>
    dispatchEnvelope parseDid messageTypeMessage ctx senderFragment env stamp

/-! ### The guard -/

/-- The principal a message is from. -/
def Delivery.principal (ctx : DispatchCtx) : Delivery → String
  | .inbox message => message.fromUrl
  | .envelope senderFragment _ _ => localActorUrl parseDid ctx.ourDid senderFragment

/-- The verb of a message; content that is no CBOR has none. -/
def Delivery.verb : Delivery → Option String
  | .inbox message => (codec.decode message.content).bind termVerb
  | .envelope _ env _ => (codec.decode env.content).bind termVerb

/-- A message runs `on_message` of an entity only if the entity's ACL allows it, and so of no entity
whose ACL is empty or not cached. -/
structure EntityAclGuards (ctx : DispatchCtx) (delivery : Delivery) : Prop where
  allowed : ∀ entity input,
    deliver parseDid normalizePrincipal checkCap codec messageTypeMessage ctx delivery =
      .onMessage entity input →
    (enforceEntityAcl normalizePrincipal checkCap ctx entity (delivery.principal parseDid ctx)
      (delivery.verb codec)).isOk = true
  failClosed : ∀ entity input,
    entity.acl = "" ∨ ctx.aclCache.get ("acls." ++ entity.acl) = none →
    deliver parseDid normalizePrincipal checkCap codec messageTypeMessage ctx delivery ≠
      .onMessage entity input

/-- An envelope that is handed to an entity is one that the entity's ACL allows. -/
def EnvelopeIsAllowed (ctx : DispatchCtx) : Delivery → Prop
  | .inbox _ => True
  | .envelope senderFragment env stamp =>
    ∀ targetFragment entity,
      localTargetFragment parseDid env.toUrl ctx.ourDid = some targetFragment →
      env.replyTo = none → ctx.entityRegistry.get targetFragment = some entity →
      (enforceEntityAcl normalizePrincipal checkCap ctx entity
        (localActorUrl parseDid ctx.ourDid senderFragment)
        ((Delivery.envelope senderFragment env stamp).verb codec)).isOk = true

variable {parseDid normalizePrincipal checkCap codec messageTypeMessage} {ctx : DispatchCtx}

/-- The entity's ACL allows nothing if it is empty or not cached. -/
theorem cached_of_isOk_enforceEntityAcl {entity : EntityPlugin} {fromUrl : String}
    {verb : Option String}
    (h : (enforceEntityAcl normalizePrincipal checkCap ctx entity fromUrl verb).isOk = true) :
    entity.acl ≠ "" ∧ ctx.aclCache.get ("acls." ++ entity.acl) ≠ none := by
  unfold enforceEntityAcl at h
  by_cases hacl : entity.acl = ""
  · rw [if_pos hacl] at h
    cases h
  · rw [if_neg hacl] at h
    refine ⟨hacl, fun hnone ↦ ?_⟩
    rw [hnone] at h
    cases h

/-- Of the two parts of the guard, the first implies the second. -/
theorem EntityAclGuards.of_allowed {delivery : Delivery}
    (h : ∀ entity input,
      deliver parseDid normalizePrincipal checkCap codec messageTypeMessage ctx delivery =
        .onMessage entity input →
      (enforceEntityAcl normalizePrincipal checkCap ctx entity (delivery.principal parseDid ctx)
        (delivery.verb codec)).isOk = true) :
    EntityAclGuards parseDid normalizePrincipal checkCap codec messageTypeMessage ctx delivery where
  allowed := h
  failClosed := by
    intro entity input hclosed hrun
    obtain ⟨hacl, hcached⟩ := cached_of_isOk_enforceEntityAcl (h entity input hrun)
    cases hclosed with
    | inl hempty => exact hacl hempty
    | inr hnone => exact hcached hnone

/-- A message of the inbox runs `on_message` only where the entity's ACL allows its
sender its verb. -/
theorem isOk_of_dispatchActorMessage {message : LocalMessage} {entity : EntityPlugin}
    {input : LocalMessage}
    (h : dispatchActorMessage parseDid normalizePrincipal checkCap codec ctx message =
      .onMessage entity input) :
    (enforceEntityAcl normalizePrincipal checkCap ctx entity message.fromUrl
      ((codec.decode message.content).bind termVerb)).isOk = true := by
  unfold dispatchActorMessage at h
  split_ifs at h with hempty
  cases hdecode : codec.decode message.content with
  | none =>
    rw [hdecode] at h
    cases h
  | some term =>
    rw [hdecode] at h
    dsimp only at h
    cases htarget : localTargetFragment parseDid message.toUrl ctx.ourDid with
    | none =>
      rw [htarget] at h
      cases h
    | some fragment =>
      rw [htarget] at h
      dsimp only at h
      split_ifs at h with hroot
      cases hentity : ctx.entityRegistry.get fragment with
      | none =>
        rw [hentity] at h
        cases h
      | some found =>
        rw [hentity] at h
        simp only [dispatchEntityMessage] at h
        cases henforce : enforceEntityAcl normalizePrincipal checkCap ctx found message.fromUrl
            (termVerb term) with
        | error refusal =>
          rw [henforce] at h
          cases h
        | ok value =>
          rw [henforce] at h
          dsimp only at h
          cases hencode : codec.encode term with
          | none =>
            rw [hencode] at h
            cases h
          | some content =>
            rw [hencode] at h
            obtain ⟨rfl, -⟩ := Dispatched.onMessage.inj h
            rw [Option.bind_some, henforce]
            rfl

/-- An envelope runs `on_message` of the entity it is addressed to, if there is one and it is no
reply. -/
theorem deliver_envelope_eq_onMessage_iff {senderFragment : String} {env : SendEnvelope}
    {stamp : Stamp} {entity : EntityPlugin} :
    (∃ input, deliver parseDid normalizePrincipal checkCap codec messageTypeMessage ctx
      (.envelope senderFragment env stamp) = .onMessage entity input) ↔
      ∃ targetFragment, localTargetFragment parseDid env.toUrl ctx.ourDid = some targetFragment ∧
        env.replyTo = none ∧ ctx.entityRegistry.get targetFragment = some entity := by
  simp only [deliver, dispatchEnvelope]
  cases htarget : localTargetFragment parseDid env.toUrl ctx.ourDid with
  | none => simp
  | some targetFragment =>
    cases hreply : env.replyTo with
    | some replyTo => simp
    | none =>
      simp only [dispatchLocalPluginEnvelope, Option.isSome_none, Bool.false_eq_true, if_false]
      cases hentity : ctx.entityRegistry.get targetFragment with
      | none => simp [hentity]
      | some found => simp [hentity]

/-- The entity's ACL guards a message that is not a firing of a schedule if and only if the
message is from the inbox, or it is an envelope which is handed to no entity, or to one whose
ACL allows it. -/
theorem entityAclGuards_iff (ctx : DispatchCtx) (delivery : Delivery) :
    EntityAclGuards parseDid normalizePrincipal checkCap codec messageTypeMessage ctx delivery ↔
      EnvelopeIsAllowed parseDid normalizePrincipal checkCap codec ctx delivery := by
  cases delivery with
  | inbox message =>
    exact ⟨fun _ ↦ trivial, fun _ ↦ .of_allowed fun entity input ↦ isOk_of_dispatchActorMessage⟩
  | envelope senderFragment env stamp =>
    constructor
    · intro h targetFragment entity htarget hreply hentity
      obtain ⟨input, hrun⟩ :=
        deliver_envelope_eq_onMessage_iff.mpr ⟨targetFragment, htarget, hreply, hentity⟩
      exact h.allowed entity input hrun
    · intro h
      refine .of_allowed fun entity input hrun ↦ ?_
      obtain ⟨targetFragment, htarget, hreply, hentity⟩ :=
        deliver_envelope_eq_onMessage_iff.mp ⟨input, hrun⟩
      exact h targetFragment entity htarget hreply hentity

end Paths

/-! ### An envelope to an entity without an ACL -/

/-- A DID-URL with its fragment, if it has one. -/
def parseDidUrl (url : String) : Option Did :=
  match splitOnce '#' url with
  | some (base, fragment) => some ⟨base, some fragment⟩
  | none => some ⟨url, none⟩

/-- The CBOR text `:look`. -/
def lookBytes : Bytes := [0x65, 0x3a, 0x6c, 0x6f, 0x6f, 0x6b]

/-- A codec of the CBOR text `:look`. -/
def lookCodec : CborCodec where
  decode content := if content = lookBytes then some (.text ":look") else none
  encode
    | .text ":look" => some lookBytes
    | _ => none

/-- A runtime with two entities, of which `safe` has no ACL. -/
def twoEntities : DispatchCtx where
  ourDid := "did:ma:us"
  entityRegistry :=
    ⟨[("safe", ⟨"safe", "", none, false⟩), ("guest", ⟨"guest", "open", none, false⟩)]⟩
  aclCache := .empty
  groupCache := .empty

/-- An entity without an ACL runs `on_message` for an envelope of another entity. -/
theorem envelope_bypasses_acl :
    ¬EntityAclGuards parseDidUrl principalOf checkCapByEntry lookCodec "message" twoEntities
      (.envelope "guest" ⟨"did:ma:us#safe", "term", none, lookBytes, none⟩ ⟨"id", 0⟩) := by
  intro h
  exact h.failClosed ⟨"safe", "", none, false⟩
    ⟨"id", "did:ma:us#guest", "did:ma:us#safe", 0, 0, none, "message", "term", lookBytes⟩ (.inl rfl)
    (by decide)

end MaRuntime.Dispatch
