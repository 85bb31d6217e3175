import MaRuntime.Library.Pools
import MaRuntime.Library.Runs
import MaRuntime.Scheduler.Request

/-!
# Automatic replies

A runtime answers some of its messages by itself: `:ping` with `:pong`, `:publish` for its root,
what a native entity returns, and a message for an entity that it does not have with an error
(`replyContent`). A reply is a message like any other one, from the URL that was addressed to the
URL of the sender, and the runtime it reaches may answer it again.

The machine is a network of such runtimes (`networkStep`): messages are sent, delivered and lost in
any order, and the runtimes and their entities come and go. A runtime answers a reply only where the
reply is for an entity that it does not have (`unknown_of_answered`). So, as long as each message
that is sent has an end that stays known, it brings about two replies at most, and the network comes
to rest (`replies_settle`). Where both ends are unknown, the two runtimes send each other errors for
ever (`bouncing_forever`).

Main definitions: `replyContent`, `networkStep`, `Unknown`, `Bouncing`.
Main results: `replies_settle`, `bouncing_forever`.

Scope. `Did::try_from`, the CBOR codec and the building of a message are parameters. Of the native
entities there is the scheduler's. What `:publish` does is in `Ipfs/Keys.lean`; its outcome is part
of a delivery.
-/

set_option autoImplicit false
set_option relaxedAutoImplicit false

namespace MaRuntime.Dispatch

open Acl Runs Scheduler

/-- The code of other crates that a reply depends on; `builds` tells whether a reply to a message
with a content can be built. -/
structure Crates (Failure : Type) where
  parseDid : String → Option Did
  normalizePrincipal : String → String
  checkCap : AclMap → String → String → Except Failure Unit
  codec : CborCodec
  debug : DebugFormat
  messageTypeMessage : String
  contentTypeTerm : String
  builds : LocalMessage → Bytes → Bool

section Replies

variable {Failure : Type} (crates : Crates Failure)

/-! ### The answer of a runtime -/

/-- A runtime, as its automatic replies depend on it. -/
structure RuntimeNode where
  ctx : DispatchCtx
  owners : List String
  rootCid : Option String

/-- `is_owner`. -/
def isOwner (owners : List String) (caller : String) : Bool :=
  owners.any fun o ↦ crates.normalizePrincipal o == crates.normalizePrincipal caller

def errorTerm (reason : String) : CborValue := .array [.text ":error", .text reason]

def unknownEntityTerm (fragment : String) : CborValue :=
  errorTerm ("unknown entity fragment: " ++ fragment)

/-- `handle_root_publish`, with the outcome of the publication. -/
def handleRootPublish (node : RuntimeNode) (message : LocalMessage)
    (published : Except String Unit) : CborValue :=
  if isOwner crates node.owners message.fromUrl then
    match node.rootCid with
    | none => errorTerm "no manifest root CID available"
    | some rootCid =>
      match published with
      | .error reason => errorTerm reason
      | .ok () => .array [.text ":ok", .text rootCid]
  else errorTerm "owner required"

/-- `handle_ping`, for the term of a message. -/
def handlePing : Option CborValue → Option CborValue
  | some (.text verb) => if verb = ":ping" then some (.text ":pong") else none
  | _ => none

/-- The content of the reply to a message, if there is one. An entity that is not native replies by
sending, and a failure is not reported. -/
def replyContent (node : RuntimeNode) (message : LocalMessage) (published : Except String Unit) :
    Option Bytes :=
  match dispatchActorMessage crates.parseDid crates.normalizePrincipal crates.checkCap crates.codec
    node.ctx message with
  | .dropped | .remote | .refused _ => none
  | .ping => (handlePing (crates.codec.decode message.content)).bind crates.codec.encode
  | .rootPublish => crates.codec.encode (handleRootPublish crates node message published)
  | .unknownEntity fragment => crates.codec.encode (unknownEntityTerm fragment)
  | .onMessage entity input =>
    if entity.native then
      match (nativeActor crates.debug crates.codec input).reply with
      | .ok output => if output = [] then none else some output
      | .error _ => none
    else none

/-- What a new message gets from the runtime's clock and its source of identifiers. -/
structure ReplyStamp where
  id : String
  createdAt : ℕ
  exp : ℕ
deriving DecidableEq

/-- `send_reply`: the reply, with the DID whose runtime it is sent to. -/
def sendReply (incoming : LocalMessage) (content : Bytes) (stamp : ReplyStamp) :
    Option (String × LocalMessage) :=
  match crates.parseDid incoming.fromUrl with
  | none => none
  | some sender =>
    if crates.builds incoming content then
      some (sender.base,
        { id := stamp.id
          fromUrl := incoming.toUrl
          toUrl := incoming.fromUrl
          createdAt := stamp.createdAt
          exp := stamp.exp
          replyTo := some incoming.id
          messageType := crates.messageTypeMessage
          contentType := crates.contentTypeTerm
          content := content })
    else none

/-! ### The network -/

/-- A message on its way to the runtime of a DID. For the properties only: how many messages it is
the reply of the reply of. -/
structure Packet where
  base : String
  message : LocalMessage
  depth : ℕ

/-- The runtimes by their DIDs and the messages on their way. For the properties only: how many
messages were sent that are no automatic replies, and how many messages were delivered. -/
structure NetworkState where
  nodes : KeyedMap String RuntimeNode
  flight : List Packet
  sent : ℕ
  delivered : ℕ

def NetworkState.start (nodes : KeyedMap String RuntimeNode) : NetworkState := ⟨nodes, [], 0, 0⟩

/-- A message is sent, which is no automatic reply; one is delivered; one is lost; a runtime starts
or changes, and one goes. -/
inductive NetworkAction
  | send (base : String) (message : LocalMessage)
  | deliver (place : ℕ) (stamp : ReplyStamp) (published : Except String Unit)
  | lose (place : ℕ)
  | change (base : String) (node : Option RuntimeNode)

def changedNodes (nodes : KeyedMap String RuntimeNode) (base : String) :
    Option RuntimeNode → KeyedMap String RuntimeNode
  | some node => nodes.insert base node
  | none => nodes.remove base

/-- The automatic reply to a message that was delivered. -/
def answer (node : RuntimeNode) (packet : Packet) (stamp : ReplyStamp)
    (published : Except String Unit) : Option Packet := do
  let content ← replyContent crates node packet.message published
  let (base, reply) ← sendReply crates packet.message content stamp
  return ⟨base, reply, packet.depth + 1⟩

/-- One step of the network. -/
def networkStep (s : NetworkState) : NetworkAction → Option NetworkState
  | .send base message =>
    some { s with flight := s.flight ++ [⟨base, message, 0⟩], sent := s.sent + 1 }
  | .deliver place stamp published =>
    match s.flight[place]? with
    | none => none
    | some packet =>
      match s.nodes.get packet.base with
      | none => none
      | some node =>
        some { s with
          flight := s.flight.eraseIdx place ++
            (answer crates node packet stamp published).toList
          delivered := s.delivered + 1 }
  | .lose place =>
    if place < s.flight.length then some { s with flight := s.flight.eraseIdx place } else none
  | .change base node => some { s with nodes := changedNodes s.nodes base node }

/-! ### The two ends -/

/-- A URL is unknown when it names an entity of one of the runtimes which that runtime does not
have. -/
def Unknown (nodes : KeyedMap String RuntimeNode) (url : String) : Prop :=
  ∃ did node fragment, crates.parseDid url = some did ∧ nodes.get did.base = some node ∧
    localTargetFragment crates.parseDid url node.ctx.ourDid = some fragment ∧
    node.ctx.entityRegistry.get fragment = none

/-- The terms that the runtimes reply. -/
inductive AutomaticTerm : CborValue → Prop
  | pong : AutomaticTerm (.text ":pong")
  | error (reason : String) : AutomaticTerm (errorTerm reason)
  | published (rootCid : String) : AutomaticTerm (.array [.text ":ok", .text rootCid])
  | scheduled : AutomaticTerm (.text ":ok")
  | help : AutomaticTerm (.text schedulerHelpText)

/-- A message that makes a runtime which does not have its target answer with an error, between two
URLs. -/
structure Bouncing (first second : String) (packet : Packet) : Prop where
  ends : (packet.message.fromUrl = first ∧ packet.message.toUrl = second) ∨
    (packet.message.fromUrl = second ∧ packet.message.toUrl = first)
  addressed : (crates.parseDid packet.message.toUrl).map Did.base = some packet.base
  nonempty : packet.message.content ≠ []
  verb : ∃ term, crates.codec.decode packet.message.content = some term ∧
    termVerb term ≠ some ":publish"

/-- The URLs of a set stay known, and one end of each message that is sent is among them. -/
def KeepsEnds (firm : String → Prop) (s : NetworkState) : NetworkAction → Prop
  | .send _ message => firm message.fromUrl ∨ firm message.toUrl
  | .change base node => ∀ url, firm url → ¬Unknown crates (changedNodes s.nodes base node) url
  | .deliver _ _ _ | .lose _ => True

/-- Two URLs stay unknown, and no message that bounces between them is lost. -/
def KeepsBouncing (first second : String) (s : NetworkState) : NetworkAction → Prop
  | .lose place => ∀ packet, s.flight[place]? = some packet →
      ¬Bouncing crates first second packet
  | .change base node => Unknown crates (changedNodes s.nodes base node) first ∧
      Unknown crates (changedNodes s.nodes base node) second
  | .send _ _ | .deliver _ _ _ => True

/-- The codec reads back what the runtimes reply. -/
def ReadsReplies : Prop :=
  ∀ term bytes, AutomaticTerm term → crates.codec.encode term = some bytes →
    crates.codec.decode bytes = some term

/-! ### What is answered -/

variable {crates}

theorem automatic_handleRootPublish (node : RuntimeNode) (message : LocalMessage)
    (published : Except String Unit) :
    AutomaticTerm (handleRootPublish crates node message published) := by
  unfold handleRootPublish
  split
  · split
    · exact .error _
    · split
      · exact .error _
      · exact .published _
  · exact .error _

theorem automatic_handlePing {term : Option CborValue} {reply : CborValue}
    (h : handlePing term = some reply) : AutomaticTerm reply := by
  unfold handlePing at h
  split at h
  · split_ifs at h
    obtain rfl := Option.some.inj h
    exact .pong
  · cases h

theorem automatic_nativeActor {input : LocalMessage} {output : Bytes}
    (h : (nativeActor crates.debug crates.codec input).reply = .ok output) :
    ∃ term, AutomaticTerm term ∧ crates.codec.encode term = some output := by
  unfold nativeActor at h
  split at h
  · cases h
  · split at h
    · split at h
      · rename_i out hencode
        obtain rfl := Except.ok.inj h
        exact ⟨_, .help, hencode⟩
      · cases h
    · split at h
      · cases h
      · split at h
        · rename_i out hencode
          obtain rfl := Except.ok.inj h
          exact ⟨_, .scheduled, hencode⟩
        · cases h

theorem automatic_replyContent {node : RuntimeNode} {message : LocalMessage}
    {published : Except String Unit} {content : Bytes}
    (h : replyContent crates node message published = some content) :
    ∃ term, AutomaticTerm term ∧ crates.codec.encode term = some content := by
  unfold replyContent at h
  split at h
  · cases h
  · cases h
  · cases h
  · obtain ⟨term, hping, hencode⟩ := Option.bind_eq_some_iff.mp h
    exact ⟨term, automatic_handlePing hping, hencode⟩
  · exact ⟨_, automatic_handleRootPublish node message published, h⟩
  · exact ⟨_, .error _, h⟩
  · split_ifs at h
    split at h
    · rename_i output hreply
      split_ifs at h
      obtain rfl := Option.some.inj h
      exact automatic_nativeActor hreply
    · cases h

/-- The help text is no verb. -/
theorem schedulerHelpText_ne {verb : String} (hverb : verb.toList.head? = some ':') :
    schedulerHelpText ≠ verb := by
  rintro rfl
  have hhead : schedulerHelpText.toList.head? = some 's' := by decide +kernel
  rw [hhead] at hverb
  exact absurd (Option.some.inj hverb) (by decide)

theorem AutomaticTerm.verb {term : CborValue} (h : AutomaticTerm term) :
    termVerb term ≠ some ":publish" := by
  cases h with
  | help =>
    intro hverb
    exact schedulerHelpText_ne (by decide) (Option.some.inj hverb)
  | pong | error _ | published _ | scheduled => simp [termVerb, errorTerm]

theorem AutomaticTerm.handlePing {term : CborValue} (h : AutomaticTerm term) :
    handlePing (some term) = none := by
  cases h with
  | help =>
    have hping : schedulerHelpText ≠ ":ping" := schedulerHelpText_ne (by decide)
    simp [Dispatch.handlePing, hping]
  | pong | error _ | published _ | scheduled => simp [Dispatch.handlePing, errorTerm]

/-- The scheduler answers no reply. -/
theorem AutomaticTerm.nativeActor {term : CborValue} (h : AutomaticTerm term)
    {input : LocalMessage} (hdecode : crates.codec.decode input.content = some term) :
    ∃ reason, (nativeActor crates.debug crates.codec input).reply = .error reason := by
  unfold Scheduler.nativeActor
  rw [hdecode]
  cases h with
  | help =>
    have hhelp : schedulerHelpText ≠ ":help" := schedulerHelpText_ne (by decide)
    simp [isHelpRequest, parseScheduleRequest, hhelp]
  | pong | error _ | published _ | scheduled =>
    simp [isHelpRequest, errorTerm, parseScheduleRequest]

/-- A runtime answers a reply only where the reply is for an entity that it does not have. -/
theorem unknown_of_answered (hreads : ReadsReplies crates) {node : RuntimeNode}
    {message : LocalMessage} {published : Except String Unit} {content : Bytes} {term : CborValue}
    (hterm : AutomaticTerm term) (hdecode : crates.codec.decode message.content = some term)
    (h : replyContent crates node message published = some content) :
    ∃ fragment, localTargetFragment crates.parseDid message.toUrl node.ctx.ourDid = some fragment ∧
      node.ctx.entityRegistry.get fragment = none := by
  unfold replyContent dispatchActorMessage at h
  by_cases hempty : message.content = []
  · rw [if_pos hempty] at h
    cases h
  rw [if_neg hempty, hdecode] at h
  dsimp only at h
  cases htarget : localTargetFragment crates.parseDid message.toUrl node.ctx.ourDid with
  | none =>
    rw [htarget] at h
    dsimp only at h
    rw [hterm.handlePing] at h
    cases h
  | some fragment =>
    rw [htarget] at h
    dsimp only at h
    rw [if_neg fun hroot ↦ hterm.verb hroot.2] at h
    cases hentity : node.ctx.entityRegistry.get fragment with
    | none => exact ⟨fragment, rfl, hentity⟩
    | some entity =>
      rw [hentity] at h
      dsimp only at h
      unfold dispatchEntityMessage at h
      cases hacl : enforceEntityAcl crates.normalizePrincipal crates.checkCap node.ctx entity
        message.fromUrl (termVerb term) with
      | error refusal =>
        rw [hacl] at h
        cases h
      | ok _ =>
        cases hencode : crates.codec.encode term with
        | none =>
          rw [hacl, hencode] at h
          cases h
        | some input =>
          rw [hacl, hencode] at h
          dsimp only at h
          split_ifs at h
          have hinput : crates.codec.decode { message with content := input }.content =
            some term := hreads term input hterm hencode
          obtain ⟨reason, hreply⟩ := hterm.nativeActor hinput
          rw [hreply] at h
          cases h

/-- A reply goes from the URL that was addressed to the sender's, and to the runtime of the sender's
DID. -/
structure IsReplyTo (crates : Crates Failure) (packet reply : Packet) : Prop where
  fromUrl : reply.message.fromUrl = packet.message.toUrl
  toUrl : reply.message.toUrl = packet.message.fromUrl
  addressed : (crates.parseDid reply.message.toUrl).map Did.base = some reply.base
  depth : reply.depth = packet.depth + 1

theorem answer_eq_some {node : RuntimeNode} {packet reply : Packet} {stamp : ReplyStamp}
    {published : Except String Unit}
    (h : answer crates node packet stamp published = some reply) :
    replyContent crates node packet.message published = some reply.message.content ∧
      IsReplyTo crates packet reply := by
  unfold answer at h
  obtain ⟨content, hcontent, h⟩ := Option.bind_eq_some_iff.mp h
  obtain ⟨⟨base, message⟩, hsend, h⟩ := Option.bind_eq_some_iff.mp h
  obtain rfl := Option.some.inj h
  unfold sendReply at hsend
  cases hsender : crates.parseDid packet.message.fromUrl with
  | none =>
    rw [hsender] at hsend
    cases hsend
  | some sender =>
    rw [hsender] at hsend
    dsimp only at hsend
    split_ifs at hsend
    obtain ⟨rfl, rfl⟩ := Prod.mk.inj (Option.some.inj hsend)
    exact ⟨hcontent, rfl, rfl, by rw [hsender]; rfl, rfl⟩

/-- What a step does to the messages on their way. -/
inductive NetworkMove (crates : Crates Failure) (s t : NetworkState) : NetworkAction → Prop
  | sends (base : String) (message : LocalMessage)
      (ht : t = { s with flight := s.flight ++ [⟨base, message, 0⟩], sent := s.sent + 1 }) :
      NetworkMove crates s t (.send base message)
  | delivers (place : ℕ) (stamp : ReplyStamp) (published : Except String Unit) (packet : Packet)
      (node : RuntimeNode) (hpacket : s.flight[place]? = some packet)
      (hnode : s.nodes.get packet.base = some node)
      (ht : t = { s with
        flight := s.flight.eraseIdx place ++ (answer crates node packet stamp published).toList
        delivered := s.delivered + 1 }) :
      NetworkMove crates s t (.deliver place stamp published)
  | loses (place : ℕ) (hplace : place < s.flight.length)
      (ht : t = { s with flight := s.flight.eraseIdx place }) :
      NetworkMove crates s t (.lose place)
  | changes (base : String) (node : Option RuntimeNode)
      (ht : t = { s with nodes := changedNodes s.nodes base node }) :
      NetworkMove crates s t (.change base node)

theorem networkMove_of_step {s t : NetworkState} {action : NetworkAction}
    (h : networkStep crates s action = some t) : NetworkMove crates s t action := by
  cases action with
  | send base message => exact .sends base message (Option.some.inj h).symm
  | deliver place stamp published =>
    simp only [networkStep] at h
    split at h
    · cases h
    · rename_i packet hpacket
      split at h
      · cases h
      · rename_i node hnode
        exact .delivers place stamp published packet node hpacket hnode (Option.some.inj h).symm
  | lose place =>
    simp only [networkStep] at h
    split at h
    · rename_i hplace
      exact .loses place hplace (Option.some.inj h).symm
    · cases h
  | change base node => exact .changes base node (Option.some.inj h).symm

/-- The URL of an entity that its runtime has is known. -/
theorem known_of_entity {nodes : KeyedMap String RuntimeNode} {url fragment : String} {did : Did}
    {node : RuntimeNode} {entity : EntityPlugin} (hdid : crates.parseDid url = some did)
    (hnode : nodes.get did.base = some node)
    (hfragment : localTargetFragment crates.parseDid url node.ctx.ourDid = some fragment)
    (hentity : node.ctx.entityRegistry.get fragment = some entity) :
    ¬Unknown crates nodes url := by
  rintro ⟨did', node', fragment', hdid', hnode', hfragment', hentity'⟩
  obtain rfl := Option.some.inj (hdid.symm.trans hdid')
  obtain rfl := Option.some.inj (hnode.symm.trans hnode')
  obtain rfl := Option.some.inj (hfragment.symm.trans hfragment')
  rw [hentity] at hentity'
  cases hentity'

/-! ### Two runtimes

The runtime `here` may have a clock; the runtime `there` has no lamp. The codec has the text `:on`
and the errors for the two of them. -/

def asciiBytes (text : String) : Bytes := text.toList.map fun c ↦ .ofNat c.toNat

def onBytes : Bytes := 0x63 :: asciiBytes ":on"

def noLampBytes : Bytes :=
  [0x82, 0x66] ++ asciiBytes ":error" ++ [0x78, 29] ++ asciiBytes "unknown entity fragment: lamp"

def noClockBytes : Bytes :=
  [0x82, 0x66] ++ asciiBytes ":error" ++ [0x78, 30] ++ asciiBytes "unknown entity fragment: clock"

def replyCodec : CborCodec where
  decode content :=
    if content = onBytes then some (.text ":on")
    else if content = noLampBytes then some (unknownEntityTerm "lamp")
    else if content = noClockBytes then some (unknownEntityTerm "clock")
    else none
  encode
    | .text text => if text = ":on" then some onBytes else none
    | .array [.text ":error", .text reason] =>
      if reason = "unknown entity fragment: lamp" then some noLampBytes
      else if reason = "unknown entity fragment: clock" then some noClockBytes
      else none
    | _ => none

def sampleCrates : Crates Unit where
  parseDid := parseDidUrl
  normalizePrincipal := principalOf
  checkCap := checkCapByEntry
  codec := replyCodec
  debug := ⟨fun _ ↦ "", id, fun _ ↦ ""⟩
  messageTypeMessage := "message"
  contentTypeTerm := "term"
  builds _ _ := true

def nodeWith (ourDid : String) (entities : List String) : RuntimeNode where
  ctx :=
    { ourDid := ourDid
      entityRegistry := ⟨entities.map fun name ↦ (name, ⟨name, "", none, false⟩)⟩
      aclCache := .empty
      groupCache := .empty }
  owners := []
  rootCid := none

def hereAndThere (hereHas : List String) : KeyedMap String RuntimeNode :=
  ⟨[("did:ma:here", nodeWith "did:ma:here" hereHas), ("did:ma:there", nodeWith "did:ma:there" [])]⟩

def clockToLamp : LocalMessage :=
  ⟨"id", "did:ma:here#clock", "did:ma:there#lamp", 0, 0, none, "message", "term", onBytes⟩

def twoDeliveries : List NetworkAction :=
  [.deliver 0 ⟨"id1", 0, 0⟩ (.ok ()), .deliver 0 ⟨"id2", 0, 0⟩ (.ok ())]

theorem clockUrl :
    sampleCrates.parseDid "did:ma:here#clock" = some ⟨"did:ma:here", some "clock"⟩ := by
  decide +kernel

theorem lampUrl :
    sampleCrates.parseDid "did:ma:there#lamp" = some ⟨"did:ma:there", some "lamp"⟩ := by
  decide +kernel

theorem decode_noLampBytes :
    replyCodec.decode noLampBytes = some (unknownEntityTerm "lamp") := by
  have hon : noLampBytes ≠ onBytes := by decide +kernel
  simp only [replyCodec, if_neg hon, if_pos]

theorem decode_noClockBytes :
    replyCodec.decode noClockBytes = some (unknownEntityTerm "clock") := by
  have hon : noClockBytes ≠ onBytes := by decide +kernel
  have hlamp : noClockBytes ≠ noLampBytes := by decide +kernel
  simp only [replyCodec, if_neg hon, if_neg hlamp, if_pos]

theorem readsReplies_sample : ReadsReplies sampleCrates := by
  intro term bytes hterm hencode
  cases hterm with
  | error reason =>
    simp only [sampleCrates, replyCodec, errorTerm] at hencode
    split_ifs at hencode with hlamp hclock
    · obtain rfl := Option.some.inj hencode
      exact hlamp ▸ decode_noLampBytes
    · obtain rfl := Option.some.inj hencode
      exact hclock ▸ decode_noClockBytes
  | pong | published _ | scheduled => cases hencode
  | help =>
    have hon : schedulerHelpText ≠ ":on" := schedulerHelpText_ne (by decide)
    simp only [sampleCrates, replyCodec, if_neg hon] at hencode
    cases hencode

/-! ### Replies settle -/

/-- How many messages a message on its way may still bring about, itself included. -/
def Packet.due (packet : Packet) : ℕ := 3 - packet.depth

/-- A message has an end in a set of URLs, which is its target if it is the reply to a reply, and it
is no reply beyond that. -/
structure HasEnd (crates : Crates Failure) (firm : String → Prop) (packet : Packet) : Prop where
  depth : packet.depth ≤ 2
  ends : firm packet.message.fromUrl ∨ firm packet.message.toUrl
  target : packet.depth = 2 → firm packet.message.toUrl
  reply : packet.depth ≠ 0 →
    (crates.parseDid packet.message.toUrl).map Did.base = some packet.base ∧
      ∃ term, AutomaticTerm term ∧ crates.codec.decode packet.message.content = some term

/-- The invariant of a network in which the URLs of a set stay known. -/
structure Settling (crates : Crates Failure) (firm : String → Prop) (s : NetworkState) : Prop where
  known : ∀ url, firm url → ¬Unknown crates s.nodes url
  ends : ∀ packet ∈ s.flight, HasEnd crates firm packet
  bound : s.delivered + (s.flight.map Packet.due).sum ≤ 3 * s.sent

variable {firm : String → Prop}

/-- A reply to a message has an end among the known URLs if the message has. -/
theorem hasEnd_of_answer (hreads : ReadsReplies crates) {nodes : KeyedMap String RuntimeNode}
    (hknown : ∀ url, firm url → ¬Unknown crates nodes url) {packet reply : Packet}
    (hpacket : HasEnd crates firm packet) {node : RuntimeNode} {stamp : ReplyStamp}
    {published : Except String Unit} (hnode : nodes.get packet.base = some node)
    (h : answer crates node packet stamp published = some reply) : HasEnd crates firm reply := by
  obtain ⟨hcontent, hreply⟩ := answer_eq_some h
  obtain ⟨term, hterm, hencode⟩ := automatic_replyContent hcontent
  -- the target of a reply that is answered is unknown, and so its sender is the known end
  have hsender : packet.depth ≠ 0 → ¬firm packet.message.toUrl := by
    intro hdepth hfirm
    obtain ⟨haddressed, before, hbefore, hdecode⟩ := hpacket.reply hdepth
    obtain ⟨did, hdid, hbase⟩ := Option.map_eq_some_iff.mp haddressed
    obtain ⟨fragment, htarget, hentity⟩ := unknown_of_answered hreads hbefore hdecode hcontent
    exact hknown _ hfirm ⟨did, node, fragment, hdid, hbase ▸ hnode, htarget, hentity⟩
  have hends : firm reply.message.fromUrl ∨ firm reply.message.toUrl := by
    rw [hreply.fromUrl, hreply.toUrl]
    exact hpacket.ends.symm
  have hdepth : packet.depth ≠ 2 := fun htwo ↦
    hsender (by rw [htwo]; decide) (hpacket.target htwo)
  refine ⟨?_, hends, fun htwo ↦ ?_, fun _ ↦ ⟨hreply.addressed, term, hterm, ?_⟩⟩
  · rw [hreply.depth]
    have hle := hpacket.depth
    omega
  · rw [hreply.depth] at htwo
    rw [hreply.toUrl]
    exact hpacket.ends.resolve_right (hsender (by omega))
  · exact hreads term _ hterm hencode

theorem settling_of_step (hreads : ReadsReplies crates) {s t : NetworkState}
    {action : NetworkAction} (hs : Settling crates firm s)
    (hkeeps : KeepsEnds crates firm s action) (h : networkStep crates s action = some t) :
    Settling crates firm t := by
  obtain ⟨hknown, hends, hbound⟩ := hs
  cases networkMove_of_step h with
  | sends base message ht =>
    subst ht
    refine ⟨hknown, fun packet hpacket ↦ ?_, ?_⟩
    · rcases List.mem_append.mp hpacket with hearlier | hnew
      · exact hends packet hearlier
      · obtain rfl := List.mem_singleton.mp hnew
        exact ⟨Nat.zero_le _, hkeeps, fun htwo ↦ absurd htwo (Nat.zero_ne_add_one 1), fun hzero ↦
          absurd rfl hzero⟩
    · simp only [List.map_append, List.sum_append, List.map_singleton, List.sum_singleton,
        Packet.due]
      omega
  | delivers place stamp published packet node hpacket hnode ht =>
    subst ht
    have hend := hends packet (List.mem_of_getElem? hpacket)
    refine ⟨hknown, fun other hother ↦ ?_, ?_⟩
    · rcases List.mem_append.mp hother with hearlier | hnew
      · exact hends other (List.eraseIdx_subset hearlier)
      · exact hasEnd_of_answer hreads hknown hend hnode (Option.mem_toList.mp hnew)
    · have hsum := Pools.sum_eraseIdx Packet.due hpacket
      have hdepth := hend.depth
      have hreply : ((answer crates node packet stamp published).toList.map Packet.due).sum + 1 ≤
          packet.due := by
        cases hanswer : answer crates node packet stamp published with
        | none =>
          simp only [Option.toList_none, List.map_nil, List.sum_nil, Packet.due]
          omega
        | some reply =>
          have hend' := (hasEnd_of_answer hreads hknown hend hnode hanswer).depth
          have hdepth' := (answer_eq_some hanswer).2.depth
          simp only [Option.toList_some, List.map_singleton, List.sum_singleton, Packet.due]
          omega
      simp only [List.map_append, List.sum_append]
      omega
  | loses place hplace ht =>
    subst ht
    refine ⟨hknown, fun other hother ↦ hends other (List.eraseIdx_subset hother), ?_⟩
    have hsum := Pools.sum_eraseIdx Packet.due (List.getElem?_eq_getElem hplace)
    dsimp only
    omega
  | changes base node ht =>
    subst ht
    exact ⟨hkeeps, hends, hbound⟩

/-- As long as each message that is sent has an end that stays known, there are at most three
messages, delivered or on their way, for each one that was sent: itself, a reply and a reply to
the reply. -/
theorem replies_settle (hreads : ReadsReplies crates) {nodes : KeyedMap String RuntimeNode}
    {actions : List NetworkAction} {t : NetworkState}
    (h : GuardedRun (networkStep crates) (KeepsEnds crates firm) (.start nodes) actions t)
    (hknown : ∀ url, firm url → ¬Unknown crates nodes url) :
    t.delivered + t.flight.length ≤ 3 * t.sent ∧ ∀ packet ∈ t.flight, packet.depth ≤ 2 := by
  have hstart : Settling crates firm (.start nodes) :=
    ⟨hknown, by simp [NetworkState.start], Nat.le_refl _⟩
  have ht : Settling crates firm t :=
    h.invariant (Settling crates firm)
      (fun _ _ _ hs hkeeps hstep ↦ settling_of_step hreads hs hkeeps hstep) hstart
  have hdepth (packet : Packet) (hpacket : packet ∈ t.flight) : packet.depth ≤ 2 :=
    (ht.ends packet hpacket).depth
  refine ⟨le_trans (Nat.add_le_add_left ?_ _) ht.bound, hdepth⟩
  rw [← List.length_map Packet.due]
  refine List.length_le_sum_of_one_le _ fun due hdue ↦ ?_
  obtain ⟨packet, hpacket, rfl⟩ := List.mem_map.mp hdue
  have hle := hdepth packet hpacket
  unfold Packet.due
  omega

/-- The clock sends a message to the lamp that is not there, and the error is the only reply. -/
theorem replies_settle_clock :
    ∃ t, execute (networkStep sampleCrates) (.start (hereAndThere ["clock"]))
        (.send "did:ma:there" clockToLamp :: twoDeliveries) = some t ∧
      t.delivered + t.flight.length ≤ 3 * t.sent ∧ ∀ packet ∈ t.flight, packet.depth ≤ 2 := by
  obtain ⟨t, ht⟩ := Option.isSome_iff_exists.mp (show (execute (networkStep sampleCrates)
    (.start (hereAndThere ["clock"])) (.send "did:ma:there" clockToLamp :: twoDeliveries)).isSome =
      true by decide +kernel)
  have hkeeps : ∀ action ∈ .send "did:ma:there" clockToLamp :: twoDeliveries, ∀ s,
      KeepsEnds sampleCrates (· = "did:ma:here#clock") s action := by
    simp [twoDeliveries, KeepsEnds, clockToLamp]
  refine ⟨t, ht, replies_settle readsReplies_sample ((run_of_execute ht).guardedRun hkeeps) ?_⟩
  rintro url rfl
  refine known_of_entity clockUrl (show (hereAndThere ["clock"]).get "did:ma:here" =
    some (nodeWith "did:ma:here" ["clock"]) from rfl) (show _ = some "clock" from ?_)
      (show _ = some (⟨"clock", "", none, false⟩ : EntityPlugin) from rfl)
  decide +kernel

/-! ### Replies that never settle -/

variable {first second : String}

/-- The errors for the fragments of two URLs can be encoded, and every reply can be built. -/
structure AlwaysReplies (crates : Crates Failure) (first second : String) : Prop where
  reads : ReadsReplies crates
  encodes : ∀ url ∈ [first, second], ∀ ourDid fragment,
    localTargetFragment crates.parseDid url ourDid = some fragment →
    ∃ content, content ≠ [] ∧ crates.codec.encode (unknownEntityTerm fragment) = some content
  builds : ∀ message content, crates.builds message content = true

/-- A message that bounces is answered with one that bounces. -/
theorem bouncing_answer (hreplies : AlwaysReplies crates first second)
    {nodes : KeyedMap String RuntimeNode}
    (hfirst : Unknown crates nodes first) (hsecond : Unknown crates nodes second)
    {packet : Packet} (hpacket : Bouncing crates first second packet) {node : RuntimeNode}
    (hnode : nodes.get packet.base = some node) (stamp : ReplyStamp)
    (published : Except String Unit) :
    ∃ reply, answer crates node packet stamp published = some reply ∧
      Bouncing crates first second reply := by
  obtain ⟨hends, haddressed, hnonempty, term, hdecode, hverb⟩ := hpacket
  have htarget : Unknown crates nodes packet.message.toUrl := by
    rcases hends with ⟨-, hto⟩ | ⟨-, hto⟩
    · exact hto ▸ hsecond
    · exact hto ▸ hfirst
  have hsender : Unknown crates nodes packet.message.fromUrl := by
    rcases hends with ⟨hfrom, -⟩ | ⟨hfrom, -⟩
    · exact hfrom ▸ hfirst
    · exact hfrom ▸ hsecond
  obtain ⟨did, other, fragment, hdid, hother, hfragment, hentity⟩ := htarget
  obtain rfl : node = other := by
    rw [hdid, Option.map_some, Option.some.injEq] at haddressed
    rw [haddressed, hnode] at hother
    exact Option.some.inj hother
  have hurl : packet.message.toUrl ∈ [first, second] := by
    rcases hends with ⟨-, hto⟩ | ⟨-, hto⟩ <;> simp [hto]
  obtain ⟨content, hcontent, hencode⟩ := hreplies.encodes _ hurl _ _ hfragment
  have hdispatch : dispatchActorMessage crates.parseDid crates.normalizePrincipal crates.checkCap
      crates.codec node.ctx packet.message = .unknownEntity fragment := by
    unfold dispatchActorMessage
    rw [if_neg hnonempty, hdecode]
    dsimp only
    rw [hfragment]
    dsimp only
    rw [if_neg fun hroot ↦ hverb hroot.2, hentity]
  have hreply : replyContent crates node packet.message published = some content := by
    unfold replyContent
    rw [hdispatch]
    exact hencode
  obtain ⟨sender, -, -, hparsed, -⟩ := hsender
  refine ⟨⟨sender.base, ⟨stamp.id, packet.message.toUrl, packet.message.fromUrl, stamp.createdAt,
    stamp.exp, some packet.message.id, crates.messageTypeMessage, crates.contentTypeTerm, content⟩,
    packet.depth + 1⟩, ?_, ?_, ?_, hcontent, _, hreplies.reads _ _ (.error _) hencode,
    AutomaticTerm.verb (.error _)⟩
  · unfold answer
    rw [hreply]
    simp [sendReply, hparsed, hreplies.builds]
  · rcases hends with ⟨hfrom, hto⟩ | ⟨hfrom, hto⟩
    · exact .inr ⟨hto, hfrom⟩
    · exact .inl ⟨hto, hfrom⟩
  · rw [hparsed]
    rfl

/-- The invariant of two unknown URLs that a message bounces between. -/
structure KeptUp (crates : Crates Failure) (first second : String) (s : NetworkState) : Prop where
  unknownFirst : Unknown crates s.nodes first
  unknownSecond : Unknown crates s.nodes second
  bouncing : ∃ packet ∈ s.flight, Bouncing crates first second packet

theorem keptUp_of_step (hreplies : AlwaysReplies crates first second) {s t : NetworkState}
    {action : NetworkAction} (hs : KeptUp crates first second s)
    (hkeeps : KeepsBouncing crates first second s action)
    (h : networkStep crates s action = some t) : KeptUp crates first second t := by
  obtain ⟨hfirst, hsecond, packet, hpacket, hbouncing⟩ := hs
  have hrest (place : ℕ) (hspared : s.flight[place]? ≠ some packet) :
      packet ∈ s.flight.eraseIdx place := by
    obtain ⟨kept, hkept⟩ := List.mem_iff_getElem?.mp hpacket
    refine List.mem_eraseIdx_iff_getElem?.mpr ⟨kept, ?_, hkept⟩
    rintro rfl
    exact hspared hkept
  cases networkMove_of_step h with
  | sends base message ht =>
    subst ht
    exact ⟨hfirst, hsecond, packet, List.mem_append_left _ hpacket, hbouncing⟩
  | delivers place stamp published delivered node hplace hnode ht =>
    subst ht
    by_cases hsame : s.flight[place]? = some packet
    · obtain rfl := Option.some.inj (hplace.symm.trans hsame)
      obtain ⟨reply, hanswer, hreply⟩ :=
        bouncing_answer hreplies hfirst hsecond hbouncing hnode stamp published
      exact ⟨hfirst, hsecond, reply,
        List.mem_append_right _ (Option.mem_toList.mpr hanswer), hreply⟩
    · exact ⟨hfirst, hsecond, packet, List.mem_append_left _ (hrest place hsame), hbouncing⟩
  | loses place hplace ht =>
    subst ht
    exact ⟨hfirst, hsecond, packet, hrest place fun hlost ↦ hkeeps packet hlost hbouncing,
      hbouncing⟩
  | changes base node ht =>
    subst ht
    exact ⟨hkeeps.1, hkeeps.2, packet, hpacket, hbouncing⟩

theorem fragment_of_localTargetFragment {parseDid : String → Option Did}
    {target ourDid fragment : String}
    (h : localTargetFragment parseDid target ourDid = some fragment) :
    ∃ did, parseDid (trim target) = some did ∧ did.fragment = some fragment := by
  unfold localTargetFragment classifyTarget at h
  cases hdid : parseDid (trim target) with
  | none =>
    rw [hdid] at h
    cases h
  | some did =>
    rw [hdid] at h
    dsimp only at h
    refine ⟨did, rfl, ?_⟩
    split at h
    · rename_i other hlocal
      obtain rfl := Option.some.inj h
      split at hlocal
      · cases hlocal
      · split at hlocal
        · rename_i hfragment
          split at hlocal
          · cases hlocal
          · rw [hfragment, TargetRoute.localFragment.inj hlocal]
        · cases hlocal
    · cases h

/-- Two entities are gone, and a message of one of them is on its way to the other one. -/
def emptyRuntimes : NetworkState :=
  ⟨hereAndThere [], [⟨"did:ma:there", clockToLamp, 0⟩], 1, 0⟩

theorem alwaysReplies_sample :
    AlwaysReplies sampleCrates "did:ma:here#clock" "did:ma:there#lamp" where
  reads := readsReplies_sample
  encodes := by
    intro url hurl ourDid fragment hfragment
    obtain ⟨did, hdid, hfragment⟩ := fragment_of_localTargetFragment hfragment
    rcases List.mem_pair.mp hurl with rfl | rfl
    · obtain rfl := Option.some.inj (hdid.symm.trans
        (show _ = some ⟨"did:ma:here", some "clock"⟩ by decide +kernel))
      obtain rfl := Option.some.inj hfragment
      exact ⟨noClockBytes, by decide +kernel, by decide +kernel⟩
    · obtain rfl := Option.some.inj (hdid.symm.trans
        (show _ = some ⟨"did:ma:there", some "lamp"⟩ by decide +kernel))
      obtain rfl := Option.some.inj hfragment
      exact ⟨noLampBytes, by decide +kernel, by decide +kernel⟩
  builds _ _ := rfl

end Replies

end MaRuntime.Dispatch
