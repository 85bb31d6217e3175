import MaRuntime.Library.Parsing
import MaRuntime.Plugin.Savers

/-!
# Loads and persisted states

A load fetches the Wasm of an entity, the layers of its behaviour and its persisted state, has a
worker build the plugin, and drives it through its lifecycle signals (`load`). Loads that fail are
tried again (`loadWithFibonacciBackoff`). A native entity is loaded without Wasm
(`loadNativeEntity`).

The fetches of the Wasm and of the behaviour fail the load when they fail. The fetch of the state
does not: the plugin is started without a state (`loadInitialState`).

The machine of an entity's life has its loads, at startups and reloads, and the steps of every
plugin that went live. `PersistedStateKept` says that each of these plugins was started from the
state that its node linked when it was read, so that every link it writes later is derived from that
state. It holds along a run if and only if the fetch of the state was answered, or the state is
empty, in each load of the run by which a plugin went live (`persistedState_kept_iff`).

Main definitions: `load`, `loadWithFibonacciBackoff`, `lifeStep`, `PersistedStateKept`,
`StateIsFetched`.
Main results: `persistedState_kept_iff`, `persistedState_discarded`.

Scope. What a call of Kubo, the worker's build and the guest answer is a parameter of each attempt.
The host functions, configuration and payload that a plugin is given are left out. The entity is of
stateful kinds, and its node is not replaced by a request.
-/

set_option autoImplicit false
set_option relaxedAutoImplicit false

namespace MaRuntime.Plugin

open Runs Manifest WriteBack

variable {Cid : Type}

/-! ### Kinds -/

inductive Evaluator
  | extism
  | native
  | bash
  | lua
deriving DecidableEq, Repr

inductive PluginKind
  | stateless
  | stateful
deriving DecidableEq

inductive Lifecycle
  | running
  | error
deriving DecidableEq

/-- The persisted description of a kind. -/
structure KindNode (Cid : Type) where
  protocol : String
  cid : Option (IpldLink Cid)
  kindType : Evaluator
  behaviour : Option (IpldLink Cid)
  behaviourChain : List (IpldLink Cid)
  attributes : KeyedMap String YamlValue

def KindNode.pluginKind (kind : KindNode Cid) : PluginKind :=
  if ((kind.attributes.get "stateful").bind YamlValue.asBool).getD false then .stateful
  else .stateless

/-! ### Attempts -/

/-- What the calls of one attempt to load a plugin answer: whether each fetch succeeds, why the
worker could not build the plugin if it could not, what the guest does at each signal, and the
reason that the output of `:init` gives for an error, if it is one. -/
structure LoadAttempt where
  wasmFetched : Bool
  kindBehaviourFetched : Nat → Bool
  entityBehaviourFetched : Bool
  stateFetched : Bool
  buildError : Option String
  setState : GuestCall
  setBehaviour : GuestCall
  init : GuestCall
  start : GuestCall
  initReason : Option String

/-- A plugin that was loaded, with the state that was delivered to it. -/
structure LoadedPlugin where
  plugin : EntityPlugin
  initState : Bytes
  lifecycle : Lifecycle

section Load

variable [ToString Cid] (store : Store Cid)

/-- A fetch of bytes, which fails if the call does or there are none. -/
def catBytes (fetched : Bool) (cid : Cid) : Option Bytes :=
  if fetched then bytesAt store cid else none

/-- A fetch whose failure is an error. -/
def fetch (fetched : Bool) (cid : Cid) (context : String) : Except String Bytes :=
  match catBytes store fetched cid with
  | some content => .ok content
  | none => .error (context ++ " from " ++ toString cid)

/-- The layers of a kind's behaviour. -/
def fetchKindBehaviours (fragment : String) (fetched : Nat → Bool) :
    Nat → List (IpldLink Cid) → Except String (List Bytes)
  | _, [] => .ok []
  | index, link :: rest => do
    let part ← fetch store (fetched index) link.cid
      ("fetching kind behaviour for '" ++ fragment ++ "'")
    let parts ← fetchKindBehaviours fragment fetched (index + 1) rest
    pure (part :: parts)

/-- Bytes with a line feed at their end. -/
def endLine (bytes : Bytes) : Bytes := if bytes.getLast? = some 10 then bytes else bytes ++ [10]

/-- The layers of a behaviour, each on lines of its own. -/
def combineBehaviours (parts : List Bytes) : Bytes :=
  parts.foldl (fun combined part ↦
    endLine ((if combined.isEmpty then combined else endLine combined) ++ part)) []

/-- What `resolve_wasm_and_behaviour` finds for a plugin. -/
structure ResolvedWasm (Cid : Type) where
  wasmCid : Cid
  wasmBytes : Bytes
  entityBehaviourCid : Option Cid
  behaviourText : Option Bytes

def resolveWasmAndBehaviour (fragment : String) (node : EntityNode Cid) (kindNode : KindNode Cid)
    (attempt : LoadAttempt) : Except String (ResolvedWasm Cid) :=
  let entityBehaviourCid := node.behaviour.map IpldLink.cid
  match kindNode.cid with
  | none =>
    match entityBehaviourCid with
    | none =>
      .error ("entity '" ++ fragment ++ "' has kind '" ++ kindNode.protocol ++
        "' with no shared cid: entity must supply its own Wasm via behaviour")
    | some entityCid => do
      let wasmBytes ← fetch store attempt.wasmFetched entityCid
        ("fetching wasm for '" ++ fragment ++ "'")
      pure ⟨entityCid, wasmBytes, none, none⟩
  | some sharedCid => do
    let wasmBytes ← fetch store attempt.wasmFetched sharedCid.cid
      ("fetching wasm for '" ++ fragment ++ "'")
    let kindBehaviours :=
      if kindNode.behaviourChain.isEmpty then kindNode.behaviour.toList else kindNode.behaviourChain
    if kindBehaviours.isEmpty && entityBehaviourCid.isNone then
      pure ⟨sharedCid.cid, wasmBytes, entityBehaviourCid, none⟩
    else
      let kindParts ←
        fetchKindBehaviours store fragment attempt.kindBehaviourFetched 0 kindBehaviours
      let entityParts ← match entityBehaviourCid with
        | some cid => do
          let part ← fetch store attempt.entityBehaviourFetched cid
            ("fetching entity behaviour for '" ++ fragment ++ "'")
          pure [part]
        | none => pure []
      let behaviourText := combineBehaviours (kindParts ++ entityParts)
      pure ⟨sharedCid.cid, wasmBytes, entityBehaviourCid, some behaviourText⟩

/-- The state that a plugin is started from: of a stateful kind, what its node links, and nothing if
the fetch fails. -/
def loadInitialState (node : EntityNode Cid) (kindNode : KindNode Cid)
    (stateFetched : Bool) : Bytes :=
  match kindNode.pluginKind with
  | .stateful =>
    match node.state with
    | some link => (catBytes store stateFetched link.cid).getD []
    | none => []
  | .stateless => []

/-- The lifecycle signals of a load, each with the guest's call. -/
def lifecycleSignals (attempt : LoadAttempt) (initState : Bytes) (behaviourText : Option Bytes)
    (isGenesis : Bool) : List (String × GuestCall) :=
  (if initState.isEmpty then [] else [(":set-state", attempt.setState)]) ++
    (behaviourText.map fun _ ↦ (":set-behaviour", attempt.setBehaviour)).toList ++
    (if isGenesis then [(":init", attempt.init)] else []) ++ [(":start", attempt.start)]

/-- The signals up to the first one that fails. -/
def runSignals (fragment : String) (ts : WasmThreadState) :
    List (String × GuestCall) → Except String WasmThreadState
  | [] => .ok ts
  | (signal, guest) :: rest =>
    match ts.call guest with
    | (ts, some _) => runSignals fragment ts rest
    | (_, none) => .error ("on_signal(" ++ signal ++ ") failed for '" ++ fragment ++ "'")

/-- One attempt to load a plugin. -/
def load (fragment : String) (node : EntityNode Cid) (kindNode : KindNode Cid)
    (attempt : LoadAttempt) : Except String LoadedPlugin :=
  match kindNode.kindType with
  | .native =>
    .error ("entity '" ++ fragment ++
      "' has kind type 'native': use EntityPlugin::new_native() instead of load()")
  | .bash => .error ("unsupported kind type Bash for '" ++ fragment ++ "'")
  | .lua => .error ("unsupported kind type Lua for '" ++ fragment ++ "'")
  | .extism => do
    let resolved ← resolveWasmAndBehaviour store fragment node kindNode attempt
    let initState := loadInitialState store node kindNode attempt.stateFetched
    let isGenesis := !node.initialised
    match attempt.buildError with
    | some reason => .error reason
    | none =>
      let signals := lifecycleSignals attempt initState resolved.behaviourText isGenesis
      let ts ← runSignals fragment (buildWasmPlugin fragment initState) signals
      pure
        { plugin := { EntityPlugin.load fragment initState [] with thread := ts }
          initState := initState
          lifecycle := if isGenesis && attempt.initReason.isSome then .error else .running }

/-- The delays after failed attempts, before the last one. -/
def entityLoadBackoffSecs : List Nat := [1, 1, 2, 3, 5]

/-- Attempts until one succeeds, with one more attempt than there are delays. -/
def retry {Loaded : Type} (attempt : Nat → Except String Loaded) (lastError : Option String) :
    Nat → List Nat → Except String Loaded
  | index, [] =>
    match attempt index with
    | .ok loaded => .ok loaded
    | .error reason =>
      match lastError with
      | some previous => .error ("previous load error after backoff: " ++ previous)
      | none => .error reason
  | index, _ :: delays =>
    match attempt index with
    | .ok loaded => .ok loaded
    | .error reason => retry attempt (some reason) (index + 1) delays

def loadWithFibonacciBackoff (fragment : String) (node : EntityNode Cid) (kindNode : KindNode Cid)
    (attempts : Nat → LoadAttempt) : Except String LoadedPlugin :=
  retry (fun index ↦ load store fragment node kindNode (attempts index)) none 0
    entityLoadBackoffSecs

/-- What the calls of a load of a native entity answer. -/
structure NativeAttempt where
  stateFetched : Bool
  setStateOk : Bool
  initOk : Bool
  startOk : Bool

/-- The signals to a native actor. -/
def runNativeLifecycle (fragment : String) (attempt : NativeAttempt) (isGenesis : Bool)
    (initState : Bytes) : Except String Unit :=
  if !initState.isEmpty && !attempt.setStateOk then
    .error ("native on_signal(:set-state) failed for '" ++ fragment ++ "'")
  else if isGenesis && !attempt.initOk then
    .error ("native on_signal(:init) failed for '" ++ fragment ++ "'")
  else if !attempt.startOk then
    .error ("native on_signal(:start) failed for '" ++ fragment ++ "'")
  else .ok ()

/-- A load of a native entity, with the state that is delivered to it. -/
def loadNativeEntity (fragment : String) (node : EntityNode Cid) (kindNode : KindNode Cid)
    (attempt : NativeAttempt) : Except String Bytes := do
  let initState := loadInitialState store node kindNode attempt.stateFetched
  runNativeLifecycle fragment attempt (!node.initialised) initState
  pure initState

end Load

/-! ### The life of an entity -/

/-- What runs a plugin: a worker with its context, or a native actor. -/
inductive Backend
  | extism (plugin : EntityPlugin)
  | native

/-- A plugin that went live, with the state link of the node it was loaded with and the state that
was delivered to it. -/
structure LivePlugin (Cid : Type) where
  backend : Backend
  loadedFrom : Option Cid
  initState : Bytes

/-- The state link of an entity's node, the node that was read for a load, and the plugins of the
entity that went live, the old ones with the savers they left. The plugins whose states were linked
are a history for the property. -/
structure LifeState (Cid : Type) where
  link : Option Cid
  reading : Option (EntityNode Cid)
  plugins : List (LivePlugin Cid)
  linkedBy : List (LivePlugin Cid)

/-- The steps in an entity's life: its node is read for a load, with the state link it has and other
fields of any value; a load ends, with a current entity in the registry or without one; a plugin
that went live takes a step, or a native one has a state linked. -/
inductive LifeAction (Cid : Type)
  | readNode (node : EntityNode Cid)
  | load (kindNode : KindNode Cid) (attempts : Nat → LoadAttempt) (hasCurrent : Bool)
  | loadNative (kindNode : KindNode Cid) (attempt : NativeAttempt)
  | entity (index : Nat) (action : EntityAction)
  | linkNative (index : Nat) (bytes : Bytes)

/-- Whether a step of an entity links a state. -/
def links (s : EntityState Cid) (action : EntityAction) : Bool :=
  match entityEvent s action with
  | .publish _ _ => true
  | _ => false

section Machine

variable [ToString Cid] (store : Store Cid) (name : String)

/-- A plugin goes live. -/
def LifeState.goLive (s : LifeState Cid) (live : LivePlugin Cid) : LifeState Cid :=
  { s with reading := none, plugins := s.plugins ++ [live] }

/-- Whether a plugin that was loaded replaces the current one: not if it rejected its creation. -/
def LoadedPlugin.installs (loaded : LoadedPlugin) (hasCurrent : Bool) : Bool :=
  loaded.lifecycle = .running || !hasCurrent

/-- One step in an entity's life. -/
def lifeStep (s : LifeState Cid) : LifeAction Cid → Option (LifeState Cid)
  | .readNode node => some { s with reading := some { node with state := s.link.map IpldLink.mk } }
  | .load kindNode attempts hasCurrent =>
    match s.reading, kindNode.pluginKind with
    | some node, .stateful =>
      match loadWithFibonacciBackoff store name node kindNode attempts with
      | .ok loaded =>
        if loaded.installs hasCurrent then
          some (s.goLive ⟨.extism loaded.plugin, node.stateLink, loaded.initState⟩)
        else some { s with reading := none }
      | .error _ => some { s with reading := none }
    | _, _ => none
  | .loadNative kindNode attempt =>
    match s.reading, kindNode.pluginKind with
    | some node, .stateful =>
      match loadNativeEntity store name node kindNode attempt with
      | .ok initState => some (s.goLive ⟨.native, node.stateLink, initState⟩)
      | .error _ => some { s with reading := none }
    | _, _ => none
  | .entity index action =>
    match s.plugins[index]? with
    | some live =>
      match live.backend with
      | .extism plugin =>
        (entityStep store ⟨plugin, s.link⟩ action).map fun t ↦
          { s with
            link := t.link
            plugins := s.plugins.set index { live with backend := .extism t.plugin }
            linkedBy := if links ⟨plugin, s.link⟩ action then s.linkedBy ++ [live] else s.linkedBy }
      | .native => none
    | none => none
  | .linkNative index bytes =>
    match s.plugins[index]? with
    | some live =>
      match live.backend with
      | .native =>
        some { s with link := some (stateCid store bytes), linkedBy := s.linkedBy ++ [live] }
      | .extism _ => none
    | none => none

/-- The life of an entity before its first load. -/
def LifeState.start (link : Option Cid) : LifeState Cid := ⟨link, none, [], []⟩

/-! ### The property and the condition -/

/-- A plugin was started from the state that its node linked. -/
def StartedFrom (live : LivePlugin Cid) : Prop :=
  ∀ cid, live.loadedFrom = some cid → bytesAt store cid = some live.initState

/-- Every plugin that went live was started from the state its node linked, so every state linked
since is derived from the one that was linked before the load. -/
structure PersistedStateKept (s : LifeState Cid) : Prop where
  delivered : ∀ live ∈ s.plugins, StartedFrom store live
  derived : ∀ live ∈ s.linkedBy, StartedFrom store live

/-- The fetch of a state is answered, or the state is empty. -/
def StateIsFetched (loadedFrom : Option Cid) (stateFetched : Bool) : Prop :=
  ∀ cid, loadedFrom = some cid →
    (catBytes store stateFetched cid).isSome = true ∨ bytesAt store cid = some []

/-- An attempt is the one by which a load succeeds. -/
def Succeeds {Loaded : Type} (attempt : Nat → Except String Loaded) (index : Nat)
    (loaded : Loaded) :
    Prop :=
  index ≤ entityLoadBackoffSecs.length ∧ attempt index = .ok loaded ∧
    ∀ earlier, earlier < index → ∀ other, attempt earlier ≠ .ok other

/-- The loads in which the state is fetched by the attempt by which the plugin goes live. -/
def KeepsPersistedLink (s : LifeState Cid) : LifeAction Cid → Prop
  | .load kindNode attempts hasCurrent => ∀ node, s.reading = some node → ∀ index loaded,
      Succeeds (fun index ↦ load store name node kindNode (attempts index)) index loaded →
      loaded.installs hasCurrent = true →
        StateIsFetched store node.stateLink (attempts index).stateFetched
  | .loadNative kindNode attempt => ∀ node, s.reading = some node → ∀ initState,
      loadNativeEntity store name node kindNode attempt = .ok initState →
        StateIsFetched store node.stateLink attempt.stateFetched
  | _ => True

end Machine

/-! ### Loads -/

variable {store : Store Cid} {name : String}

/-- The attempts succeed with what the first attempt that does gives. -/
theorem retry_eq_ok_iff {Loaded : Type} {attempt : Nat → Except String Loaded} {loaded : Loaded}
    {lastError : Option String} {index : Nat} {delays : List Nat} :
    retry attempt lastError index delays = .ok loaded ↔
      ∃ later, index ≤ later ∧ later ≤ index + delays.length ∧ attempt later = .ok loaded ∧
        ∀ earlier, index ≤ earlier → earlier < later → ∀ other, attempt earlier ≠ .ok other := by
  induction delays generalizing index lastError with
  | nil =>
    constructor
    · intro h
      refine ⟨index, le_rfl, le_rfl, ?_, fun earlier hle hlt ↦ absurd hlt (not_lt.mpr hle)⟩
      rw [retry] at h
      cases hattempt : attempt index with
      | ok other =>
        rw [hattempt] at h
        exact h
      | error reason =>
        rw [hattempt] at h
        cases lastError with
        | none => cases h
        | some previous => cases h
    · rintro ⟨later, hindex, hlength, hlater, -⟩
      obtain rfl : index = later := le_antisymm hindex hlength
      rw [retry, hlater]
  | cons delay delays ih =>
    rw [retry]
    cases hattempt : attempt index with
    | ok other =>
      constructor
      · intro h
        refine ⟨index, le_rfl, Nat.le_add_right _ _, hattempt.trans h, ?_⟩
        exact fun earlier hle hlt ↦ absurd hlt (not_lt.mpr hle)
      · rintro ⟨later, hindex, -, hlater, hearlier⟩
        rcases Nat.eq_or_lt_of_le hindex with rfl | hlt
        · exact hattempt.symm.trans hlater
        · exact absurd hattempt (hearlier index le_rfl hlt other)
    | error reason =>
      rw [ih]
      constructor
      · rintro ⟨later, hindex, hlength, hlater, hearlier⟩
        refine ⟨later, by omega, by simp only [List.length_cons]; omega, hlater, ?_⟩
        intro earlier hle hlt other
        rcases Nat.eq_or_lt_of_le hle with rfl | hgt
        · rw [hattempt]
          rintro ⟨⟩
        · exact hearlier earlier hgt hlt other
      · rintro ⟨later, hindex, hlength, hlater, hearlier⟩
        have hlt : index < later := by
          refine lt_of_le_of_ne hindex ?_
          rintro rfl
          exact nomatch hattempt.symm.trans hlater
        rw [List.length_cons] at hlength
        exact ⟨later, hlt, by omega, hlater, fun earlier hle ↦ hearlier earlier (by omega)⟩

/-- The attempt by which a load succeeds is unique. -/
theorem Succeeds.unique {Loaded : Type} {attempt : Nat → Except String Loaded} {i j : Nat}
    {loaded other : Loaded} (hi : Succeeds attempt i loaded) (hj : Succeeds attempt j other) :
    i = j := by
  rcases lt_trichotomy i j with hlt | heq | hgt
  · exact absurd hi.2.1 (hj.2.2 i hlt loaded)
  · exact heq
  · exact absurd hj.2.1 (hi.2.2 j hgt other)

theorem initState_loadNativeEntity {node : EntityNode Cid} {kindNode : KindNode Cid}
    {attempt : NativeAttempt} {initState : Bytes}
    (h : loadNativeEntity store name node kindNode attempt = .ok initState) :
    initState = loadInitialState store node kindNode attempt.stateFetched := by
  obtain ⟨-, -, hloaded⟩ := bind_eq_ok h
  exact (Except.ok.inj hloaded).symm

/-- A stateful plugin is started from the state its node links exactly when the fetch of the state
is answered or the state is empty. -/
theorem startedFrom_iff (node : EntityNode Cid) {kindNode : KindNode Cid} {stateFetched : Bool}
    (hkind : kindNode.pluginKind = .stateful) (backend : Backend) :
    StartedFrom store
        ⟨backend, node.stateLink, loadInitialState store node kindNode stateFetched⟩ ↔
      StateIsFetched store node.stateLink stateFetched := by
  cases hstate : node.state with
  | none =>
    have hlink : node.stateLink = none := by rw [EntityNode.stateLink, hstate, Option.map_none]
    rw [hlink]
    constructor
    · rintro - cid ⟨⟩
    · rintro - cid ⟨⟩
  | some link =>
    have hlink : node.stateLink = some link.cid := by
      rw [EntityNode.stateLink, hstate, Option.map_some]
    have hinit : loadInitialState store node kindNode stateFetched =
        (catBytes store stateFetched link.cid).getD [] := by
      simp only [loadInitialState, hkind, hstate]
    rw [hlink, hinit]
    constructor
    · rintro hstarted _ ⟨⟩
      cases hcat : catBytes store stateFetched link.cid with
      | some content => exact .inl rfl
      | none =>
        right
        have hcontent := hstarted link.cid rfl
        rwa [hcat, Option.getD_none] at hcontent
    · rintro hfetched _ ⟨⟩
      cases hcat : catBytes store stateFetched link.cid with
      | some content =>
        unfold catBytes at hcat
        split_ifs at hcat
        exact hcat
      | none =>
        rcases hfetched link.cid rfl with hsome | hempty
        · rw [hcat] at hsome
          cases hsome
        · exact hempty

theorem PersistedStateKept.goLive {s : LifeState Cid} {live : LivePlugin Cid}
    (hs : PersistedStateKept store s) (hlive : StartedFrom store live) :
    PersistedStateKept store (s.goLive live) where
  delivered := by
    intro other hother
    rcases List.mem_append.mp hother with hbefore | hnew
    · exact hs.delivered other hbefore
    · rwa [List.mem_singleton.mp hnew]
  derived := hs.derived

variable [ToString Cid]

/-- A load succeeds with what the first attempt that does gives. -/
theorem loadWithFibonacciBackoff_eq_ok_iff {node : EntityNode Cid} {kindNode : KindNode Cid}
    {attempts : Nat → LoadAttempt} {loaded : LoadedPlugin} :
    loadWithFibonacciBackoff store name node kindNode attempts = .ok loaded ↔
      ∃ index,
        Succeeds (fun index ↦ load store name node kindNode (attempts index)) index loaded := by
  rw [loadWithFibonacciBackoff, retry_eq_ok_iff]
  constructor
  · rintro ⟨index, -, hlength, hok, hearlier⟩
    exact ⟨index, by simpa using hlength, hok, fun earlier ↦ hearlier earlier (Nat.zero_le _)⟩
  · rintro ⟨index, hlength, hok, hearlier⟩
    exact ⟨index, Nat.zero_le _, by simpa using hlength, hok, fun earlier _ ↦ hearlier earlier⟩

/-- An attempt that succeeds delivers what the fetch of the state gave. -/
theorem initState_load {node : EntityNode Cid} {kindNode : KindNode Cid} {attempt : LoadAttempt}
    {loaded : LoadedPlugin} (h : load store name node kindNode attempt = .ok loaded) :
    loaded.initState = loadInitialState store node kindNode attempt.stateFetched := by
  unfold load at h
  split at h
  case h_4 =>
    obtain ⟨resolved, -, hbuilt⟩ := bind_eq_ok h
    dsimp only at hbuilt
    split at hbuilt
    · cases hbuilt
    · obtain ⟨ts, -, hloaded⟩ := bind_eq_ok hbuilt
      obtain rfl := Except.ok.inj hloaded
      rfl
  all_goals cases h

/-! ### Steps -/

/-- A step that fetches the state of the plugin it has go live keeps the persisted state. -/
theorem PersistedStateKept.step {s t : LifeState Cid} {action : LifeAction Cid}
    (hs : PersistedStateKept store s) (hkeeps : KeepsPersistedLink store name s action)
    (h : lifeStep store name s action = some t) : PersistedStateKept store t := by
  cases action with
  | readNode node =>
    obtain rfl := Option.some.inj h
    exact ⟨hs.delivered, hs.derived⟩
  | load kindNode attempts hasCurrent =>
    simp only [lifeStep] at h
    split at h
    · rename_i node hreading hkind
      split at h
      · rename_i loaded hloaded
        split_ifs at h with hinstalls
        · obtain rfl := Option.some.inj h
          obtain ⟨index, hsucceeds⟩ := loadWithFibonacciBackoff_eq_ok_iff.mp hloaded
          have hfetched := hkeeps node hreading index loaded hsucceeds hinstalls
          rw [initState_load hsucceeds.2.1]
          exact hs.goLive ((startedFrom_iff node hkind _).mpr hfetched)
        · obtain rfl := Option.some.inj h
          exact ⟨hs.delivered, hs.derived⟩
      · obtain rfl := Option.some.inj h
        exact ⟨hs.delivered, hs.derived⟩
    · cases h
  | loadNative kindNode attempt =>
    simp only [lifeStep] at h
    split at h
    · rename_i node hreading hkind
      split at h
      · rename_i initState hloaded
        obtain rfl := Option.some.inj h
        have hfetched := hkeeps node hreading initState hloaded
        rw [initState_loadNativeEntity hloaded]
        exact hs.goLive ((startedFrom_iff node hkind _).mpr hfetched)
      · obtain rfl := Option.some.inj h
        exact ⟨hs.delivered, hs.derived⟩
    · cases h
  | entity index action =>
    simp only [lifeStep] at h
    split at h
    · rename_i live hlive
      have hstarted : StartedFrom store live := hs.delivered live (List.mem_of_getElem? hlive)
      split at h
      · obtain ⟨next, -, rfl⟩ := Option.map_eq_some_iff.mp h
        refine ⟨fun other hother ↦ ?_, fun other hother ↦ ?_⟩
        · rcases List.mem_or_eq_of_mem_set hother with hbefore | rfl
          · exact hs.delivered other hbefore
          · exact hstarted
        · dsimp only at hother
          split_ifs at hother
          · rcases List.mem_append.mp hother with hbefore | hnew
            · exact hs.derived other hbefore
            · rwa [List.mem_singleton.mp hnew]
          · exact hs.derived other hother
      · cases h
    · cases h
  | linkNative index bytes =>
    simp only [lifeStep] at h
    split at h
    · rename_i live hlive
      split at h
      · obtain rfl := Option.some.inj h
        refine ⟨hs.delivered, fun other hother ↦ ?_⟩
        rcases List.mem_append.mp hother with hbefore | hnew
        · exact hs.derived other hbefore
        · rw [List.mem_singleton.mp hnew]
          exact hs.delivered live (List.mem_of_getElem? hlive)
      · cases h
    · cases h

/-- A load that keeps the persisted state fetched it. -/
theorem keepsPersistedLink_of_kept {s t : LifeState Cid} {action : LifeAction Cid}
    (h : lifeStep store name s action = some t) (ht : PersistedStateKept store t) :
    KeepsPersistedLink store name s action := by
  cases action with
  | load kindNode attempts hasCurrent =>
    intro node hreading index loaded hsucceeds hinstalls
    simp only [lifeStep, hreading] at h
    split at h
    · rename_i hread hkind
      obtain rfl := Option.some.inj hread
      split at h
      · rename_i other hother
        obtain ⟨index', hsucceeds'⟩ := loadWithFibonacciBackoff_eq_ok_iff.mp hother
        obtain rfl := hsucceeds.unique hsucceeds'
        obtain rfl := Except.ok.inj (hsucceeds.2.1.symm.trans hsucceeds'.2.1)
        rw [if_pos hinstalls] at h
        obtain rfl := Option.some.inj h
        refine (startedFrom_iff node hkind (.extism loaded.plugin)).mp ?_
        rw [← initState_load hsucceeds.2.1]
        exact ht.delivered _ (List.mem_append_right _ (List.mem_singleton_self _))
      · rename_i reason hfailed
        exact nomatch hfailed.symm.trans (loadWithFibonacciBackoff_eq_ok_iff.mpr ⟨index, hsucceeds⟩)
    · cases h
  | loadNative kindNode attempt =>
    intro node hreading initState hloaded
    simp only [lifeStep, hreading] at h
    split at h
    · rename_i hread hkind
      obtain rfl := Option.some.inj hread
      rw [hloaded] at h
      obtain rfl := Option.some.inj h
      refine (startedFrom_iff node hkind .native).mp ?_
      rw [← initState_loadNativeEntity hloaded]
      exact ht.delivered _ (List.mem_append_right _ (List.mem_singleton_self _))
    · cases h
  | readNode | entity | linkNative => trivial

/-! ### Runs -/

/-- After every step of a run the plugins that went live were started from the state their node
linked, if and only if in each load of the run by which a plugin goes live the state is fetched. -/
theorem persistedState_kept_iff {link : Option Cid} {actions : List (LifeAction Cid)}
    {u : LifeState Cid} (h : Run (lifeStep store name) (.start link) actions u) :
    (∀ before after s, actions = before ++ after →
      Run (lifeStep store name) (.start link) before s → PersistedStateKept store s) ↔
    GuardedRun (lifeStep store name) (KeepsPersistedLink store name) (.start link) actions
      u := by
  have hstart : PersistedStateKept store (.start link) := by
    refine ⟨?_, ?_⟩
    · rintro _ ⟨⟩
    · rintro _ ⟨⟩
  exact guardedRun_iff_forall_prefix _ h hstart (fun _ _ _ hs hkeeps hstep ↦ hs.step hkeeps hstep)
    fun _ _ _ _ hstep ht ↦ keepsPersistedLink_of_kept hstep ht

instance : ToString ContentCid := ⟨fun _ ↦ "cid"⟩

/-- A stateful kind with Wasm of its own. -/
def statefulKind : KindNode ContentCid where
  protocol := "/ma/room/0.0.1"
  cid := some ⟨contentStore.cidOf (.bytes [0])⟩
  kindType := .extism
  behaviour := none
  behaviourChain := []
  attributes := KeyedMap.empty.insert "stateful" (.bool true)

/-- An attempt of which only fetches fail, if any do. -/
def attemptWith (wasmFetched stateFetched : Bool) : LoadAttempt where
  wasmFetched := wasmFetched
  kindBehaviourFetched _ := true
  entityBehaviourFetched := true
  stateFetched := stateFetched
  buildError := none
  setState := ⟨[], some []⟩
  setBehaviour := ⟨[], some []⟩
  init := ⟨[], some []⟩
  start := ⟨[], some []⟩
  initReason := none

/-- A startup whose first attempt has no fetch answered, and its second all. -/
theorem persistedState_kept_iff_second_attempt :
    ∃ u, Run (lifeStep contentStore "room") (.start (some (stateCid contentStore [1])))
        [.readNode roomNode,
          .load statefulKind (fun index ↦ attemptWith (index == 1) (index == 1)) false] u ∧
      PersistedStateKept contentStore u := by
  have hrun : Run (lifeStep contentStore "room") (.start (some (stateCid contentStore [1])))
      [.readNode roomNode,
        .load statefulKind (fun index ↦ attemptWith (index == 1) (index == 1)) false] _ :=
    run_of_execute rfl
  refine ⟨_, hrun, (persistedState_kept_iff hrun).mpr ?_ _ [] _ (List.append_nil _).symm hrun⟩
  refine .cons trivial rfl (.cons ?_ rfl (.nil _))
  rintro node ⟨⟩ index loaded ⟨-, hok, hearlier⟩ - cid ⟨⟩
  match index with
  | 0 => cases hok
  | 1 => exact .inl rfl
  | later + 2 => exact absurd rfl (hearlier 1 (by omega) _)

/-- A startup with the fetch of the state unanswered: the plugin goes live without a state, and its
next state takes the place of the one that was linked. -/
theorem persistedState_discarded :
    ∃ u, Run (lifeStep contentStore "room") (.start (some (stateCid contentStore [1])))
        [.readNode roomNode, .load statefulKind (fun _ ↦ attemptWith true false) false, .entity 0 .send,
          .entity 0 (.work ⟨[.maSetState [2]], some []⟩), .entity 0 (.spawnStatePersist 0 0),
          .entity 0 (.advance 0 true), .entity 0 (.advance 0 true)] u ∧
      u.link = some (stateCid contentStore [2]) ∧ ¬PersistedStateKept contentStore u := by
  refine ⟨_, run_of_execute rfl, rfl, fun hkept ↦ ?_⟩
  have hlost := hkept.derived _ (List.mem_singleton_self _) _ rfl
  cases hlost

end MaRuntime.Plugin
