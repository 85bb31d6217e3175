import MaRuntime.Library.Parsing
import MaRuntime.Library.Paths
import MaRuntime.Manifest.Documents

/-!
# The gateway of the status server

The status server hands out what Kubo has: under `/ipfs`, `/ipns` and `/ipld` whatever is asked for,
and under `/operator` and at every other path the files of the Operator, which the manifest's
configuration names (`gateway`). The path of a request becomes part of a path that Kubo resolves,
and is checked for components of two dots before.

An answer depends on nothing but what Kubo has in the scope of its request, which is the Operator's
source or the namespace that was asked for (`answer_of_scope`): two runtimes whose Kubos agree there
give the same answer, whatever else they have. A request is refused exactly when its path is empty
or has a component of two dots.

Main definitions: `gateway`, `InScope`.
Main results: `answer_of_scope`.

Scope. The HTTP framework matches the routes and decodes the paths of requests. The headers that are
the same in every answer are left out.
-/

set_option autoImplicit false
set_option relaxedAutoImplicit false

namespace MaRuntime.Status

open Manifest Paths

/-! ### Requests and answers -/

/-- The requests to the gateway, by their routes: the index of the Operator, a file of it, and a
path without a route of its own; and the paths under `/ipfs`, `/ipns` and `/ipld`. -/
inductive GatewayRequest
  | operatorIndex
  | operatorPath (path : String)
  | operatorRootAsset (uriPath : String)
  | ipfs (path : String)
  | ipns (path : String)
  | ipld (path : String)

/-- The requests to Kubo: for a file, or for the block that a path resolves to. -/
inductive KuboCall
  | cat (path : String)
  | blockGet (path : String)
deriving DecidableEq

def KuboCall.path : KuboCall → String
  | .cat path | .blockGet path => path

/-- Kubo, as it answers: with bytes, without any, or with an error. -/
abbrev KuboAnswers := KuboCall → Except Unit (Option (List UInt8))

inductive GatewayAnswer
  | text (status : Nat) (body : String)
  | bytes (contentType : String) (body : List UInt8)
deriving DecidableEq

def GatewayAnswer.status : GatewayAnswer → Nat
  | .text status _ => status
  | .bytes _ _ => 200

/-! ### The Operator's source -/

def operatorConfigKey : String := "operator"

def defaultOperatorSource : String :=
  "/ipns/k51qzi5uqu5djnoah9igllgb3zsn0sfy75glxdjf8glaozybubkm13nuqbfvpm"

/-- `trim_start_matches('/')`. -/
def trimStartSlashes (path : String) : String := String.ofList (path.toList.dropWhile (· == '/'))

/-- `trim_end_matches('/')`. -/
def trimEndSlashes (path : String) : String := String.ofList (path.toList.rdropWhile (· == '/'))

def startsWith (beginning text : String) : Bool := beginning.toList.isPrefixOf text.toList

/-- `normalize_operator_source`. -/
def normalizeOperatorSource (value : String) : Option String :=
  let value := trimEndSlashes (trim value)
  if value = "" then none
  else if startsWith "/ipfs/" value || startsWith "/ipns/" value then some value
  else some ("/ipfs/" ++ value)

/-- `default_config_string`. -/
def defaultConfigString (key : String) : Option String :=
  if key = operatorConfigKey then some defaultOperatorSource else none

/-- `manifest_config_string`, with the manifest if there is one that can be fetched. -/
def manifestConfigString {Cid : Type} (manifest : Option (RuntimeManifest Cid)) (key : String) :
    Option String :=
  match manifest with
  | none => defaultConfigString key
  | some m =>
    (((m.config.get key).bind YamlValue.asStr).or (defaultConfigString key)).bind
      normalizeOperatorSource

/-- `operator_asset_path`. -/
def operatorAssetPath (source path : String) : String := trimEndSlashes source ++ "/" ++ path

/-- What follows the last dot of a path, if it has one. -/
def extension (path : String) : Option String :=
  match path.toList.reverse.span (· ≠ '.') with
  | (reversed, _ :: _) => some (String.ofList reversed.reverse)
  | (_, []) => none

def contentTypeForPath (path : String) : String :=
  match extension path with
  | some "css" => "text/css; charset=utf-8"
  | some "html" => "text/html; charset=utf-8"
  | some "js" | some "mjs" => "text/javascript; charset=utf-8"
  | some "json" => "application/json"
  | some "wasm" => "application/wasm"
  | some "svg" => "image/svg+xml"
  | some "png" => "image/png"
  | some "jpg" | some "jpeg" => "image/jpeg"
  | some "webp" => "image/webp"
  | some "ico" => "image/x-icon"
  | some "ftl" | some "txt" => "text/plain; charset=utf-8"
  | _ => "application/octet-stream"

/-! ### The handlers -/

/-- `path.split('/').any(|part| part == "..")`. -/
def hasParentPart (path : String) : Bool := (path.toList.splitOn '/').contains ['.', '.']

/-- What is made of Kubo's answer. -/
def relay (kubo : KuboAnswers) (call : KuboCall) (contentType notFound failed : String) :
    GatewayAnswer :=
  match kubo call with
  | .ok (some bytes) => .bytes contentType bytes
  | .ok none => .text 404 notFound
  | .error () => .text 502 failed

section Handlers

variable {Cid : Type} (manifest : Option (RuntimeManifest Cid)) (kubo : KuboAnswers)

/-- `serve_operator_path`. -/
def serveOperatorPath (path : String) : GatewayAnswer :=
  if hasParentPart path then .text 400 "invalid operator path"
  else
    match manifestConfigString manifest operatorConfigKey with
    | none => .text 404 "runtime /config/operator is not configured"
    | some source =>
      relay kubo (.cat (operatorAssetPath source path)) (contentTypeForPath path)
        "operator asset not found" "failed to fetch operator asset from IPFS"

/-- `handle_operator_path`. -/
def handleOperatorPath (path : String) : GatewayAnswer :=
  let path := trimStartSlashes path
  serveOperatorPath manifest kubo (if path = "" then "index.html" else path)

/-- `handle_operator_root_asset`. -/
def handleOperatorRootAsset (uriPath : String) : GatewayAnswer :=
  let path := trimStartSlashes uriPath
  if path = "" then .text 404 "not found" else serveOperatorPath manifest kubo path

/-- `handle_gateway_path`. -/
def handleGatewayPath (space path : String) : GatewayAnswer :=
  let path := trimStartSlashes path
  if path = "" || hasParentPart path then .text 400 "invalid gateway path"
  else
    relay kubo (.cat ("/" ++ space ++ "/" ++ path)) (contentTypeForPath path)
      "gateway path not found" "failed to fetch gateway asset from Kubo"

/-- The path that `handle_ipld_path` asks Kubo for. -/
def ipldPath (path : String) : String :=
  if startsWith "ipfs/" path || startsWith "ipns/" path then "/" ++ path else "/ipfs/" ++ path

/-- `handle_ipld_path`. -/
def handleIpldPath (path : String) : GatewayAnswer :=
  let path := trimStartSlashes path
  if path = "" || hasParentPart path then .text 400 "invalid IPLD path"
  else
    relay kubo (.blockGet (ipldPath path)) "application/octet-stream" "IPLD path not found"
      "failed to fetch IPLD block"

/-- The answer to a request. -/
def gateway : GatewayRequest → GatewayAnswer
  | .operatorIndex => serveOperatorPath manifest kubo "index.html"
  | .operatorPath path => handleOperatorPath manifest kubo path
  | .operatorRootAsset uriPath => handleOperatorRootAsset manifest kubo uriPath
  | .ipfs path => handleGatewayPath kubo "ipfs" path
  | .ipns path => handleGatewayPath kubo "ipns" path
  | .ipld path => handleIpldPath kubo path

end Handlers

/-! ### The scope of a request -/

/-- A path is in a directory, or below it. -/
def Within (directory path : String) : Prop :=
  resolve '/' '.' directory.toList <+: resolve '/' '.' path.toList

/-- What Kubo may be asked for a request: the files of the Operator, or what is in a namespace. -/
def InScope {Cid : Type} (manifest : Option (RuntimeManifest Cid)) :
    GatewayRequest → KuboCall → Prop
  | .operatorIndex, call | .operatorPath _, call | .operatorRootAsset _, call =>
    ∃ source, manifestConfigString manifest operatorConfigKey = some source ∧
      Within source call.path
  | .ipfs _, call => Within "/ipfs" call.path
  | .ipns _, call => Within "/ipns" call.path
  | .ipld _, call => Within "/ipfs" call.path ∨ Within "/ipns" call.path

/-- A path of a request that is not handed to Kubo. -/
def IsInvalid : GatewayRequest → Prop
  | .operatorIndex => False
  | .operatorPath path | .operatorRootAsset path => hasParentPart (trimStartSlashes path) = true
  | .ipfs path | .ipns path | .ipld path =>
    trimStartSlashes path = "" ∨ hasParentPart (trimStartSlashes path) = true

theorem not_mem_of_hasParentPart {path : String} (h : ¬hasParentPart path = true) :
    ['.', '.'] ∉ path.toList.splitOn '/' := by
  simpa [hasParentPart] using h

theorem within_trans {first second third : String} (h : Within first second)
    (h' : Within second third) : Within first third := h.trans h'

theorem within_trimEndSlashes (directory : String) :
    Within directory (trimEndSlashes directory) := by
  have hresolve : resolve '/' '.' (trimEndSlashes directory).toList =
      resolve '/' '.' directory.toList := by
    rw [trimEndSlashes, String.toList_ofList, resolve_rdropWhile]
  exact ⟨[], by rw [List.append_nil, hresolve]⟩

theorem within_append {directory path : String} (h : ¬hasParentPart path = true) :
    Within directory (directory ++ "/" ++ path) := by
  rw [Within, String.toList_append, String.toList_append, List.append_assoc]
  exact resolve_prefix_append _ (not_mem_of_hasParentPart h)

theorem inScope_operatorAssetPath {source path : String} (h : ¬hasParentPart path = true) :
    Within source (operatorAssetPath source path) :=
  within_trans (within_trimEndSlashes source) (within_append h)

/-- What begins with the name of a namespace is in this namespace. -/
theorem within_of_startsWith {beginning directory path : String} {space : List Char}
    (hbeginning : beginning.toList = space ++ ['/']) (hdirectory : directory.toList = '/' :: space)
    (hpath : startsWith beginning path = true) (h : ¬hasParentPart path = true) :
    Within directory ("/" ++ path) := by
  obtain ⟨rest, hrest⟩ := List.isPrefixOf_iff_prefix.mp hpath
  have hsplit : path.toList = space ++ '/' :: rest := by
    rw [← hrest, hbeginning, List.append_assoc]
    rfl
  have hparts := not_mem_of_hasParentPart h
  rw [hsplit, List.splitOn_append_cons_self, List.mem_append, not_or] at hparts
  rw [Within, hdirectory, String.toList_append, hsplit]
  exact resolve_prefix_append ('/' :: space) hparts.2

theorem within_ipldPath {path : String} (h : ¬hasParentPart path = true) :
    Within "/ipfs" (ipldPath path) ∨ Within "/ipns" (ipldPath path) := by
  unfold ipldPath
  split_ifs with hspace
  · rcases Bool.or_eq_true_iff.mp hspace with hipfs | hipns
    · exact .inl (within_of_startsWith rfl rfl hipfs h)
    · exact .inr (within_of_startsWith rfl rfl hipns h)
  · exact .inl (within_append h)

/-! ### The answers -/

section Answers

variable {Cid : Type} {manifest : Option (RuntimeManifest Cid)} {kubo kubo' : KuboAnswers}
  {request : GatewayRequest}

theorem relay_congr {call : KuboCall} {contentType notFound failed : String}
    (h : kubo call = kubo' call) :
    relay kubo call contentType notFound failed = relay kubo' call contentType notFound failed := by
  rw [relay, relay, h]

theorem status_relay_ne {call : KuboCall} {contentType notFound failed : String} :
    (relay kubo call contentType notFound failed).status ≠ 400 := by
  unfold relay
  cases kubo call with
  | ok found =>
    cases found with
    | some bytes => exact (by decide : (200 : Nat) ≠ 400)
    | none => exact (by decide : (404 : Nat) ≠ 400)
  | error => exact (by decide : (502 : Nat) ≠ 400)

/-- The answer for a file of the Operator, and when it is a refusal. -/
theorem serveOperatorPath_spec {path : String}
    (h : ∀ call, (∃ source, manifestConfigString manifest operatorConfigKey = some source ∧
      Within source call.path) → kubo call = kubo' call) :
    serveOperatorPath manifest kubo path = serveOperatorPath manifest kubo' path ∧
      ((serveOperatorPath manifest kubo path).status = 400 ↔ hasParentPart path = true) := by
  unfold serveOperatorPath
  split_ifs with hparent
  · exact ⟨rfl, by simp [GatewayAnswer.status, hparent]⟩
  · cases hsource : manifestConfigString manifest operatorConfigKey with
    | none => exact ⟨rfl, by simp [GatewayAnswer.status, hparent]⟩
    | some source =>
      refine ⟨relay_congr (h _ ⟨source, hsource, inScope_operatorAssetPath hparent⟩), ?_⟩
      exact iff_of_false status_relay_ne hparent

/-- The answer for a path that is checked and relayed, and when it is a refusal. -/
theorem checked_spec {path : String} {refusal : String} {call : KuboCall}
    {contentType notFound failed : String}
    (h : ¬hasParentPart path = true → kubo call = kubo' call) :
    let answer := fun kubo : KuboAnswers ↦
      if path = "" || hasParentPart path then GatewayAnswer.text 400 refusal
      else relay kubo call contentType notFound failed
    answer kubo = answer kubo' ∧
      ((answer kubo).status = 400 ↔ path = "" ∨ hasParentPart path = true) := by
  dsimp only
  split_ifs with hrefused
  · exact ⟨rfl, by simpa [GatewayAnswer.status] using hrefused⟩
  · rw [Bool.or_eq_true, decide_eq_true_eq] at hrefused
    exact ⟨relay_congr (h fun hparent ↦ hrefused (.inr hparent)),
      iff_of_false status_relay_ne hrefused⟩

/-- The answer to a request depends on nothing but what Kubo answers in the scope of the request,
and it is a refusal exactly when the path is not one to hand to Kubo. -/
theorem answer_of_scope (h : ∀ call, InScope manifest request call → kubo call = kubo' call) :
    gateway manifest kubo request = gateway manifest kubo' request ∧
      ((gateway manifest kubo request).status = 400 ↔ IsInvalid request) := by
  cases request with
  | operatorIndex =>
    obtain ⟨hsame, hrefused⟩ := serveOperatorPath_spec h
    exact ⟨hsame, hrefused.trans (iff_of_false (by decide) id)⟩
  | operatorPath path =>
    obtain ⟨hsame, hrefused⟩ := serveOperatorPath_spec h
    refine ⟨hsame, hrefused.trans ?_⟩
    split_ifs with hempty
    · rw [IsInvalid, hempty]
      decide
    · rfl
  | operatorRootAsset uriPath =>
    unfold gateway handleOperatorRootAsset IsInvalid
    dsimp only
    split_ifs with hempty
    · rw [hempty]
      exact ⟨rfl, by decide⟩
    · exact serveOperatorPath_spec h
  | ipfs path => exact checked_spec fun hparent ↦ h _ (within_append hparent)
  | ipns path => exact checked_spec fun hparent ↦ h _ (within_append hparent)
  | ipld path => exact checked_spec fun hparent ↦ h _ (within_ipldPath hparent)

end Answers

/-- A Kubo that has one file. -/
def oneFile : KuboAnswers
  | .cat "/ipfs/a/style.css" => .ok (some [42])
  | _ => .ok none

/-- A Kubo that has another one besides, outside of `/ipfs`. -/
def twoFiles (call : KuboCall) : Except Unit (Option (List UInt8)) :=
  if call = .cat "/ipns/k/style.css" then .ok (some [7]) else oneFile call

/-- No manifest is found. -/
def unconfigured : Option (RuntimeManifest Nat) := none

def styleSheet : GatewayRequest := .ipfs "/a/style.css"

theorem answer_of_scope_styleSheet :
    gateway unconfigured oneFile styleSheet = .bytes "text/css; charset=utf-8" [42] ∧
      gateway unconfigured oneFile styleSheet = gateway unconfigured twoFiles styleSheet ∧
      ((gateway unconfigured oneFile styleSheet).status = 400 ↔ IsInvalid styleSheet) := by
  refine ⟨by decide +kernel, answer_of_scope fun call hscope ↦ ?_⟩
  unfold twoFiles
  split_ifs with hcall
  · subst hcall
    have houtside : ¬Within "/ipfs" "/ipns/k/style.css" := by
      unfold Within
      decide +kernel
    exact absurd hscope houtside
  · rfl

end MaRuntime.Status
