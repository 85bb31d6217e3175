import MaRuntime.Scheduler.Request

/-!
# The content of schedules

A registration has the verb as its fourth element and arguments behind it, and the content of its
messages is meant to be the call of the verb with all its arguments (`callOf`). A verb that is a
text is encoded with the arguments. A verb that is an array, which may have arguments of its own, is
encoded alone, so that the arguments behind it are dropped (`content_exact_iff`).

Main definitions: `callOf`, `DeliversCall`.
Main results: `content_of_scheduleOf`, `of_parseScheduleRequest`, `content_exact_iff`.

Scope. The codec is a parameter. What is used of it is that it reads back what it writes.
-/

set_option autoImplicit false
set_option relaxedAutoImplicit false

namespace MaRuntime.Scheduler

open Dispatch

/-- The call of a verb with arguments behind it. -/
def callOf : CborValue → List CborValue → Option CborValue
  | .text verb, [] => some (.text verb)
  | .text verb, args => some (.array (.text verb :: args))
  | .array items, args => some (.array (items ++ args))
  | _, _ => none

/-- The content of an accepted request is the call, and so is that of each message in which it is
delivered. -/
structure DeliversCall (codec : CborCodec) (req : ParsedRequest) (call : Option CborValue) :
    Prop where
  content : codec.decode req.request.content = call
  delivered : ∀ messageType contentType ctx stamp entity input,
    dispatchScheduled messageType contentType ctx req.fragment req.request.content stamp =
      .onMessage entity input → codec.decode input.content = call

section Content

variable {debug : DebugFormat} {codec : CborCodec} {name type spec verb : CborValue}
  {args : List CborValue} {content : Bytes} {request : Schedule} {fromUrl : String}
  {req : ParsedRequest}

/-- A request of every type has the content that it is made with. -/
theorem content_of_scheduleOf {type : String}
    (h : scheduleOf debug type spec content = .ok request) : request.content = content := by
  have hduration {form : UInt64 → Schedule} {value : Except String UInt64}
      (hform : ∀ secs, (form secs).content = content)
      (hbind : (do return form (← value)) = .ok request) : request.content = content := by
    obtain ⟨secs, -, hsecs⟩ := bind_eq_ok hbind
    obtain rfl := Except.ok.inj hsecs
    exact hform secs
  unfold scheduleOf at h
  split at h
  · split at h
    · obtain rfl := Except.ok.inj h
      rfl
    · cases h
  · exact hduration (fun _ ↦ rfl) h
  · split at h
    · split_ifs at h
      obtain rfl := Except.ok.inj h
      rfl
    · cases h
  · exact hduration (fun _ ↦ rfl) h
  · split at h
    · obtain rfl := Except.ok.inj h
      rfl
    · cases h
  · cases h

/-- What an accepted registration holds. -/
theorem of_parseScheduleRequest
    (h : parseScheduleRequest debug codec (.array (name :: type :: spec :: verb :: args)) fromUrl =
      .ok req) : encodeVerbContent codec verb args = .ok req.request.content := by
  obtain ⟨name, -, h⟩ := bind_eq_ok h
  obtain ⟨type, -, h⟩ := bind_eq_ok h
  obtain ⟨fragment, -, h⟩ := bind_eq_ok h
  obtain ⟨content, hcontent, h⟩ := bind_eq_ok h
  obtain ⟨request, hrequest, h⟩ := bind_eq_ok h
  obtain rfl := Except.ok.inj h
  rw [hcontent, content_of_scheduleOf hrequest]

/-- A content that was encoded decodes to the verb with its arguments, or to the verb alone if it is
an array. -/
theorem decode_of_encodeVerbContent
    (hcodec : ∀ value bytes, codec.encode value = some bytes → codec.decode bytes = some value)
    (h : encodeVerbContent codec verb args = .ok content) :
    (∃ items, verb = .array items ∧ codec.decode content = some (.array items)) ∨
      ((∀ items, verb ≠ .array items) ∧ codec.decode content = callOf verb args) := by
  have hwritten {value : CborValue} (hnone : codec.encode value ≠ none)
      (hsome : ∀ bytes, codec.encode value = some bytes → bytes = content) :
      codec.decode content = some value := by
    obtain ⟨bytes, hbytes⟩ := Option.ne_none_iff_exists'.mp hnone
    exact hcodec value content (hsome bytes hbytes ▸ hbytes)
  cases verb with
  | text verb =>
    cases args with
    | nil =>
      refine .inr ⟨by simp, hwritten (fun hbytes ↦ ?_) fun bytes hbytes ↦ ?_⟩
      · simp [encodeVerbContent, bind, Except.bind, hbytes] at h
      · simpa [encodeVerbContent, bind, Except.bind, hbytes] using h
    | cons first rest =>
      refine .inr ⟨by simp, hwritten (fun hbytes ↦ ?_) fun bytes hbytes ↦ ?_⟩
      · simp [encodeVerbContent, bind, Except.bind, hbytes] at h
      · simpa [encodeVerbContent, bind, Except.bind, hbytes] using h
  | array items =>
    refine .inl ⟨items, rfl, hwritten (fun hbytes ↦ ?_) fun bytes hbytes ↦ ?_⟩
    · simp [encodeVerbContent, bind, Except.bind, hbytes] at h
    · simpa [encodeVerbContent, bind, Except.bind, hbytes] using h
  | _ =>
    unfold encodeVerbContent at h
    cases h

/-- The content of an accepted registration, and of each message in which it is delivered, is the
whole call if and only if the verb is not an array or has no arguments behind it. -/
theorem content_exact_iff
    (hcodec : ∀ value bytes, codec.encode value = some bytes → codec.decode bytes = some value)
    (h : parseScheduleRequest debug codec (.array (name :: type :: spec :: verb :: args)) fromUrl =
      .ok req) :
    DeliversCall codec req (callOf verb args) ↔ (∀ items, verb ≠ .array items) ∨ args = [] := by
  have hcontent : codec.decode req.request.content = callOf verb args ↔
      (∀ items, verb ≠ .array items) ∨ args = [] := by
    rcases decode_of_encodeVerbContent hcodec (of_parseScheduleRequest h) with
      ⟨items, rfl, hdecode⟩ | ⟨hverb, hdecode⟩
    · rw [hdecode]
      simp [callOf]
    · exact iff_of_true hdecode (.inl hverb)
  rw [← hcontent]
  constructor
  · exact DeliversCall.content
  · intro hcall
    refine ⟨hcall, fun messageType contentType ctx stamp entity input hdelivered ↦ ?_⟩
    unfold dispatchScheduled at hdelivered
    split at hdelivered
    · cases hdelivered
    · obtain ⟨-, rfl⟩ := Dispatched.onMessage.inj hdelivered
      exact hcall

end Content

/-- A codec of one value, with its bytes in CBOR. -/
def growCodec : CborCodec where
  encode
    | .array [.text ":grow"] => some [0x81, 0x65, 0x3a, 0x67, 0x72, 0x6f, 0x77]
    | _ => none
  decode bytes :=
    if bytes = [0x81, 0x65, 0x3a, 0x67, 0x72, 0x6f, 0x77] then some (.array [.text ":grow"])
    else none

theorem decode_growCodec (value : CborValue) (bytes : List UInt8)
    (h : growCodec.encode value = some bytes) : growCodec.decode bytes = some value := by
  unfold growCodec at h ⊢
  dsimp only at h
  split at h
  · obtain rfl := Option.some.inj h
    rfl
  · cases h

/-- A request for a schedule that grows a garden, with the verb as an array. -/
def growRequest (args : List CborValue) : CborValue :=
  .array (.text "grow" :: .text ":cron" :: .text "0 0 7 * * *" :: .array [.text ":grow"] :: args)

/-- What is read from it when `garden` of `did:ma:x` sends it. -/
def growParsed : ParsedRequest where
  scheduleKey := "did:ma:x#garden-grow"
  fragment := "garden"
  request := .cron "0 0 7 * * *" [0x81, 0x65, 0x3a, 0x67, 0x72, 0x6f, 0x77]

theorem content_exact_iff_growRequest :
    DeliversCall growCodec growParsed (callOf (.array [.text ":grow"]) []) ↔
      (∀ items, CborValue.array [.text ":grow"] ≠ .array items) ∨ ([] : List CborValue) = [] := by
  have hparse : parseScheduleRequest ⟨fun _ ↦ "", id, fun _ ↦ ""⟩ growCodec (growRequest [])
      "did:ma:x#garden" = .ok growParsed := by decide
  exact content_exact_iff decode_growCodec hparse

/-- An argument behind a verb that is an array is dropped. -/
theorem argument_dropped :
    parseScheduleRequest ⟨fun _ ↦ "", id, fun _ ↦ ""⟩ growCodec (growRequest [.integer 1])
        "did:ma:x#garden" = .ok growParsed ∧
      growCodec.decode growParsed.request.content = some (.array [.text ":grow"]) ∧
      ¬DeliversCall growCodec growParsed (callOf (.array [.text ":grow"]) [.integer 1]) := by
  refine ⟨by decide, rfl, fun h ↦ ?_⟩
  have hcontent := h.content
  cases hcontent

end MaRuntime.Scheduler
