import MaRuntime.Dispatch.Delivery
import MaRuntime.Scheduler.LatestWins

/-!
# Schedule requests

What the native actor `#scheduler` makes of a message. The message holds a CBOR array of a name, a
type, the specification that the type asks for, a verb and arguments (`parseScheduleRequest`). The
schedule is one of the sender's: its target is what follows the first `#` of the sender's DID-URL
(`splitOnce_of_parseScheduleRequest`), and its key is the DID-URL with the name.

Main definitions: `parseDuration`, `parseScheduleRequest`, `nativeActor`.
Main results: `splitOnce_of_parseScheduleRequest`, `splitOnce_of_nativeActor`.

Scope. Arithmetic wraps, as in a release build. What `{:?}` prints of a value is a parameter, and
the causes that the codec gives for its failures are left out of the texts.
-/

set_option autoImplicit false
set_option relaxedAutoImplicit false

namespace MaRuntime.Scheduler

open Dispatch

/-- What a schedule request asks for, with the content of the message that a firing dispatches. -/
inductive Schedule
  | cron (spec : String) (content : Bytes)
  | interval (secs : UInt64) (content : Bytes)
  | at (timestampMs : Int) (content : Bytes)
  | in (secs : UInt64) (content : Bytes)
  | random (maxSecs : UInt64) (content : Bytes)
deriving DecidableEq

namespace Schedule

/-- The form of a request, which decides how its registration ends. -/
def form : Schedule → ScheduleRequest
  | .cron _ _ => .cron
  | .interval _ _ => .interval
  | .at _ _ => .at
  | .in _ _ => .in
  | .random _ _ => .random

def content : Schedule → Bytes
  | .cron _ content | .interval _ content | .at _ content | .in _ content | .random _ content =>
    content

/-- The jobs that the cron scheduler runs a single time. -/
def runsOnce : Schedule → Bool
  | .cron _ _ | .interval _ _ => false
  | .at _ _ | .in _ _ | .random _ _ => true

end Schedule

structure ParsedRequest where
  scheduleKey : String
  fragment : String
  request : Schedule
deriving DecidableEq

/-! ### Durations -/

/-- What `{:?}` prints of a CBOR value, of a text and of a character. -/
structure DebugFormat where
  value : CborValue → String
  text : String → String
  char : Char → String

section Parsing

variable (debug : DebugFormat) (codec : CborCodec)

/-- `str::parse` of a text of decimal digits as a `u64`. -/
def parseU64 (digits : List Char) : Option UInt64 :=
  let n := digits.foldl (fun n c ↦ 10 * n + (c.toNat - '0'.toNat)) 0
  if digits = [] ∨ UInt64.size ≤ n then none else some (.ofNat n)

/-- The seconds of a number of units. -/
def unitSecs (unit : Char) (n : UInt64) : Option UInt64 :=
  match unit with
  | 's' => some n
  | 'm' => some (n * 60)
  | 'h' => some (n * 3600)
  | 'd' => some (n * 86400)
  | _ => none

/-- The loop of `parse_duration` over the characters, with the digits read since the last unit. -/
def parseDurationFrom (s : String) (totalSecs : UInt64) (numBuf : List Char) :
    List Char → Except String UInt64
  | [] =>
    if numBuf ≠ [] then .error ("duration " ++ debug.text s ++ " ends with a number but no unit")
    else if totalSecs = 0 then .error "duration must be > 0"
    else .ok totalSecs
  | ch :: rest =>
    if ch.isDigit then parseDurationFrom s totalSecs (numBuf ++ [ch]) rest
    else
      match parseU64 numBuf with
      | none => .error ("invalid number in duration " ++ debug.text s)
      | some n =>
        match unitSecs ch n with
        | none => .error ("unknown duration unit " ++ debug.char ch ++ " in " ++ debug.text s)
        | some secs => parseDurationFrom s (totalSecs + secs) [] rest

/-- `parse_duration`: the seconds of a duration such as `1h30m`. -/
def parseDuration (s : String) : Except String UInt64 := parseDurationFrom debug s 0 [] s.toList

example : parseDuration ⟨fun _ ↦ "", id, fun _ ↦ ""⟩ "2d12h" = .ok 216000 := by decide

/-! ### Requests -/

def isHelpRequest : CborValue → Bool
  | .text s => s == ":help"
  | .array [.text s] => s == ":help"
  | _ => false

def schedulerHelpText : String :=
  "scheduler help\n" ++
  "format: [name, :type, spec, verb_or_array, extra_args...]\n" ++
  "types: :cron, :interval, :at, :in, :random\n" ++
  "specs: :cron=\"sec min hour day month weekday\", :interval=\"30m\", :at=<unix_ms>, " ++
  ":in=\"10s\", :random=<max_secs>\n" ++
  "ownership: target is always msg.from; same [msg.from + name] overwrites previous schedule"

/-- The verb with the arguments after it, encoded as the content of a message. -/
def encodeVerbContent (verb : CborValue) (args : List CborValue) : Except String Bytes := do
  let value ← match verb, args with
    | .text v, [] => .ok (.text v)
    | .text v, args => .ok (.array (.text v :: args))
    | .array items, _ => .ok (.array items)
    | _, _ => .error "scheduler: verb (4th element) must be text atom or array"
  match codec.encode value with
  | some content => .ok content
  | none => .error "scheduler: CBOR encode verb"

def scheduleName : CborValue → Except String String
  | .text s => if s = "" then .error "scheduler: schedule name must not be empty" else .ok s
  | _ => .error "scheduler: first element must be schedule name text"

def typeVerb : CborValue → Except String String
  | .text s => .ok s
  | _ => .error "scheduler: second element must be text atom"

/-- The fragment of the sender, which is the target of its schedules. -/
def senderFragment (fromUrl : String) : Except String String :=
  match splitOnce '#' fromUrl with
  | some (_, frag) =>
    if frag = "" then .error "scheduler: sender must be DID-URL with fragment" else .ok frag
  | none => .error "scheduler: sender must be DID-URL with fragment"

/-- A duration of a request of a type, for the texts of its errors. -/
def durationSecs (type : String) : CborValue → Except String UInt64
  | .text s =>
    match parseDuration debug s with
    | .ok secs => .ok secs
    | .error reason => .error ("scheduler " ++ type ++ ": " ++ reason)
  | _ => .error ("scheduler " ++ type ++ ": duration must be text")

/-- The request of a type with its specification. -/
def scheduleOf (type : String) (spec : CborValue) (content : Bytes) : Except String Schedule :=
  match type with
  | ":cron" =>
    match spec with
    | .text s => .ok (.cron s content)
    | _ => .error "scheduler :cron: spec must be text"
  | ":interval" => do return .interval (← durationSecs debug ":interval" spec) content
  | ":at" =>
    match spec with
    | .integer n =>
      if -(2 ^ 63) ≤ n ∧ n < 2 ^ 63 then .ok (.at n content)
      else .error "scheduler :at: timestamp out of i64 range"
    | _ => .error "scheduler :at: timestamp must be integer"
  | ":in" => do return .in (← durationSecs debug ":in" spec) content
  | ":random" =>
    match spec with
    | .integer n =>
      .ok (.random (if 0 ≤ n ∧ n < 2 ^ 64 then .ofNat n.toNat else 60) content)
    | _ => .error "scheduler :random: max_secs must be integer"
  | other => .error ("scheduler: unknown schedule type '" ++ other ++ "'")

/-- `parse_schedule_request`. -/
def parseScheduleRequest (term : CborValue) (fromUrl : String) : Except String ParsedRequest :=
  match term with
  | .array (name :: type :: spec :: verb :: args) => do
    let scheduleName ← scheduleName name
    let typeVerb ← typeVerb type
    let fragment ← senderFragment fromUrl
    let content ← encodeVerbContent codec verb args
    let request ← scheduleOf debug typeVerb spec content
    return ⟨fromUrl ++ "-" ++ scheduleName, fragment, request⟩
  | .array items =>
    .error ("scheduler: expected [name, type, spec, verb], got " ++ toString items.length ++
      " elements")
  | other => .error ("scheduler: expected CBOR array, got " ++ debug.value other)

/-! ### The actor -/

/-- What the actor leaves of a message: a registration that is spawned, and its reply. -/
structure ActorResult where
  registration : Option ParsedRequest
  reply : Except String Bytes

/-- The closure of `native_actor`. -/
def nativeActor (input : LocalMessage) : ActorResult :=
  match codec.decode input.content with
  | none => ⟨none, .error "scheduler: invalid CBOR in message"⟩
  | some term =>
    if isHelpRequest term then
      match codec.encode (.text schedulerHelpText) with
      | some out => ⟨none, .ok out⟩
      | none => ⟨none, .error "scheduler: CBOR encode help"⟩
    else
      match parseScheduleRequest debug codec term input.fromUrl with
      | .error reason => ⟨none, .error reason⟩
      | .ok req =>
        match codec.encode (.text ":ok") with
        | some out => ⟨some req, .ok out⟩
        | none => ⟨some req, .error "scheduler: CBOR encode :ok"⟩

end Parsing

/-! ### The target -/

variable {debug : DebugFormat} {codec : CborCodec}

/-- The target of a request is the part of the sender's DID-URL after its first `#`, and
not empty. -/
theorem splitOnce_of_parseScheduleRequest {term : CborValue} {fromUrl : String}
    {req : ParsedRequest} (h : parseScheduleRequest debug codec term fromUrl = .ok req) :
    ∃ base, splitOnce '#' fromUrl = some (base, req.fragment) ∧ req.fragment ≠ "" := by
  unfold parseScheduleRequest at h
  split at h
  · obtain ⟨name, -, h⟩ := bind_eq_ok h
    obtain ⟨type, -, h⟩ := bind_eq_ok h
    obtain ⟨fragment, hfragment, h⟩ := bind_eq_ok h
    obtain ⟨content, -, h⟩ := bind_eq_ok h
    obtain ⟨request, -, h⟩ := bind_eq_ok h
    obtain rfl := Except.ok.inj h
    unfold senderFragment at hfragment
    split at hfragment
    case h_1 base frag hsplit =>
      split_ifs at hfragment with hempty
      obtain rfl := Except.ok.inj hfragment
      exact ⟨base, hsplit, hempty⟩
    case h_2 => cases hfragment
  · cases h
  · cases h

theorem splitOnce_of_nativeActor {input : LocalMessage} {req : ParsedRequest}
    (h : (nativeActor debug codec input).registration = some req) :
    ∃ base, splitOnce '#' input.fromUrl = some (base, req.fragment) ∧ req.fragment ≠ "" := by
  unfold nativeActor at h
  cases hdecode : codec.decode input.content with
  | none =>
    rw [hdecode] at h
    cases h
  | some term =>
    rw [hdecode] at h
    dsimp only at h
    by_cases hhelp : isHelpRequest term = true
    · rw [if_pos hhelp] at h
      cases hencode : codec.encode (.text schedulerHelpText) with
      | none =>
        rw [hencode] at h
        cases h
      | some out =>
        rw [hencode] at h
        cases h
    · rw [if_neg hhelp] at h
      cases hparse : parseScheduleRequest debug codec term input.fromUrl with
      | error reason =>
        rw [hparse] at h
        cases h
      | ok parsed =>
        rw [hparse] at h
        have hreq : parsed = req := by
          cases hencode : codec.encode (.text ":ok") with
          | none =>
            rw [hencode] at h
            exact Option.some.inj h
          | some out =>
            rw [hencode] at h
            exact Option.some.inj h
        exact hreq ▸ splitOnce_of_parseScheduleRequest hparse

end MaRuntime.Scheduler
