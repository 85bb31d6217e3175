import MaRuntime.Library.Parsing

/-!
# CRUD requests

The payload of a CRUD request is a CBOR array of a path and, unless it is a GET, of a value
(`decodeCrudPayload`). The empty text for a value asks for a DELETE, and every other value for a SET
(`CrudOp.ofPair`). The handlers of the namespaces get an operation as the `tail` and the `args` of a
command.

Scope. The codec of CBOR comes with another crate and is a parameter. The content of an answer to a
GET is left out of the replies.
-/

set_option autoImplicit false
set_option relaxedAutoImplicit false

namespace MaRuntime.Crud

/-- An operation of a CRUD request at its path. -/
inductive CrudOp
  | get (path : String)
  | set (path : String) (value : CborValue)
  | delete (path : String)

namespace CrudOp

/-- The operation of a payload with two elements. -/
def ofPair (path : String) : CborValue → CrudOp
  | .text text => if text.isEmpty then .delete path else .set path (.text text)
  | value => .set path value

def path : CrudOp → String
  | .get path | .set path _ | .delete path => path

def tail : CrudOp → Option String
  | .get _ => none
  | .set _ _ | .delete _ => some ""

def args : CrudOp → List CborValue
  | .set _ value => [value]
  | .get _ | .delete _ => []

/-- An operation with a value is a DELETE, and the value the empty text, or a SET of the value. -/
theorem args_ofPair (path : String) (value : CborValue) :
    (value = .text "" ∧ (ofPair path value).args = []) ∨
      value ≠ .text "" ∧ (ofPair path value).args = [value] := by
  cases value with
  | text text =>
    by_cases h : text.isEmpty = true
    · refine .inl ⟨congrArg _ (String.isEmpty_iff.mp h), ?_⟩
      simp only [ofPair, h, if_true, args]
    · refine .inr ⟨fun heq ↦ h (String.isEmpty_iff.mpr (CborValue.text.inj heq)), ?_⟩
      simp only [ofPair, h, args, if_false, Bool.false_eq_true]
  | _ => exact .inr ⟨nofun, rfl⟩

end CrudOp

/-- `decode_crud_payload` -/
def decodeCrudPayload (codec : CborCodec) (content : List UInt8) : Except String CrudOp :=
  match codec.decode content with
  | none => .error "invalid CBOR in CRUD payload"
  | some (.array [.text path]) => .ok (.get path)
  | some (.array [_]) => .error "CRUD get: path must be a text string"
  | some (.array [.text path, value]) => .ok (.ofPair path value)
  | some (.array [_, _]) => .error "CRUD payload: path must be a text string"
  | some (.array items) =>
    .error ("CRUD payload must be a 1 or 2-element CBOR array, got " ++ toString items.length)
  | some _ => .error "CRUD payload must be a CBOR array"

/-- What a handler answers: that a SET or a DELETE went through, with a message, a CID or the CID of
the new root; the data of a GET; or a refusal, with the data of its text. -/
inductive CrudReply (Cid : Type)
  | ok
  | okPath (message : String)
  | okCid (cid : Cid)
  | okRoot
  | data
  | refused (reason : String) (args : List (String × String))
deriving DecidableEq

/-- An answer that is no refusal. -/
def CrudReply.isOk {Cid : Type} : CrudReply Cid → Bool
  | .refused _ _ => false
  | _ => true

/-- What a handler ends with: its reply and the state behind it, or an error, with which everything
stays as it was. -/
abbrev Handled (Cid State : Type) := Except String (CrudReply Cid × State)

namespace Handled

variable {Cid State : Type}

/-- The state behind a handler that began in a state. -/
def stateFrom (s : State) : Handled Cid State → State
  | .ok (_, t) => t
  | .error _ => s

/-- The request is answered ok. -/
def IsOk : Handled Cid State → Prop
  | .ok (reply, _) => reply.isOk = true
  | .error _ => False

end Handled

end MaRuntime.Crud
