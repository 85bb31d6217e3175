import MaRuntime.Dispatch.Creation

/-!
# The first load of an entity

A load delivers `:init` if the node that it read is not marked as initialised. The mark is made when
the load has ended: at a startup with the node and the manifest that are published then, after a
reload with the latest node, and for an entity that is created with the node that is put into the
manifest. A call of `:init` may be accepted and the mark still not be made: a later signal traps and
the load is tried again, or Kubo does not take the node.

The machine has the loads of one entity, each with its attempts, the node that the manifest links,
and the node that the next startup finds. `InitOnce` says that `:init` is not delivered after a call
of it that was accepted. It holds along every run in which an attempt whose `:init` is accepted is
its load's last one, no other load is then under way that read the node before, and every load from
then on reads a node that is marked (`initOnce_of_guardedRun`). The condition is exactly what keeps
a load that would deliver `:init` again from being under way (`initIsOver_iff`), and a mark that was
made stays until a node without it is published (`marked_step`).

Main definitions: `initCall`, `genesisStep`, `InitOnce`, `ReadsMark`.
Main results: `initOnce_of_guardedRun`, `initIsOver_iff`, `init_delivered_again`.

Scope. Whether an entity is current when a load begins is part of the action, as is the state that
is saved after it. What a worker that was given up delivers besides `:init` is left out.
-/

set_option autoImplicit false
set_option relaxedAutoImplicit false

namespace MaRuntime.Dispatch

open Runs Manifest
open Plugin (CreateEntityRequest KindNode LoadAttempt NativeAttempt LoadedPlugin Lifecycle GuestCall
  WasmThreadState lifecycleSignals runSignals buildWasmPlugin loadInitialState
  resolveWasmAndBehaviour loadNativeEntity entityLoadBackoffSecs)

variable {Cid : Type}

/-! ### The calls of `:init` -/

/-- The signals that are delivered, each with whether the guest returned. -/
def deliveredSignals (ts : WasmThreadState) : List (String × GuestCall) → List (String × Bool)
  | [] => []
  | (signal, guest) :: rest =>
    match ts.call guest with
    | (ts, some _) => (signal, true) :: deliveredSignals ts rest
    | (_, none) => [(signal, false)]

section Attempts

variable [ToString Cid] (store : Store Cid)

/-- The signals that an attempt to load a plugin delivers. -/
def attemptSignals (fragment : String) (node : EntityNode Cid) (kindNode : KindNode Cid)
    (attempt : LoadAttempt) : List (String × Bool) :=
  match kindNode.kindType, resolveWasmAndBehaviour store fragment node kindNode attempt,
    attempt.buildError with
  | .extism, .ok resolved, none =>
    let initState := loadInitialState store node kindNode attempt.stateFetched
    deliveredSignals (buildWasmPlugin fragment initState)
      (lifecycleSignals attempt initState resolved.behaviourText !node.initialised)
  | _, _, _ => []

/-- An attempt to load an entity: by its Wasm, by a worker that ends in time or is given up, or as a
native one. -/
inductive EntityAttempt
  | wasm (attempt : LoadAttempt) (inTime : Bool)
  | native (attempt : NativeAttempt)

/-- Whether the worker of an attempt is given up, and goes on by itself. -/
def EntityAttempt.isLate : EntityAttempt → Bool
  | .wasm _ inTime => !inTime
  | .native _ => false

/-- Whether `:init` is delivered in an attempt, and if it is, whether it is accepted: the guest
returns, and without an error. -/
def EntityAttempt.initCall (fragment : String) (node : EntityNode Cid) (kindNode : KindNode Cid) :
    EntityAttempt → Option Bool
  | .wasm attempt _ =>
    ((attemptSignals store fragment node kindNode attempt).lookup ":init").map fun returned ↦
      returned && attempt.initReason.isNone
  | .native attempt =>
    let initState := loadInitialState store node kindNode attempt.stateFetched
    if node.initialised || (!initState.isEmpty && !attempt.setStateOk) then none
    else some attempt.initOk

/-- The lifecycle that an attempt ends in. -/
def EntityAttempt.load (fragment : String) (node : EntityNode Cid) (kindNode : KindNode Cid) :
    EntityAttempt → Except String Lifecycle
  | .wasm attempt inTime =>
    if inTime then (Plugin.load store fragment node kindNode attempt).map LoadedPlugin.lifecycle
    else .error ("entity '" ++ fragment ++ "' plugin build/genesis timed out")
  | .native attempt => (loadNativeEntity store fragment node kindNode attempt).map fun _ ↦ .running

end Attempts

/-! ### The machine -/

/-- What a load is for: a startup, a reload, an entity that is created, or another behaviour. -/
inductive Loader (Cid : Type)
  | startup
  | reload
  | creation (path : CreatePath)
  | behaviour (cid : Option Cid)

/-- Where a load stands: at an attempt, or after one that succeeded. -/
inductive LoadPhase
  | trying (index : Nat)
  | loaded (lifecycle : Lifecycle)

/-- A load of the entity. -/
structure EntityLoad (Cid : Type) where
  loader : Loader Cid
  node : EntityNode Cid
  kindNode : KindNode Cid
  phase : LoadPhase

/-- The node that the manifest links for the entity, the one that the next startup finds, the loads,
and the calls of `:init` that workers which were given up have still to make. The calls so far, each
with whether it was accepted, are a history for the property. -/
structure GenesisState (Cid : Type) where
  linked : Option (EntityNode Cid)
  recorded : Option (EntityNode Cid)
  loads : KeyedMap Nat (EntityLoad Cid)
  late : List Bool
  calls : List Bool

/-- The steps: a node is published for the entity, by a request or a saver; a load begins with the
linked node, or with the node of a request; the reload of a current entity reads the node again; an
attempt is made; a worker that was given up delivers `:init`; what was loaded is recorded, or fails
to be; the root is recorded for the next startup; and the runtime is started again. -/
inductive GenesisAction (Cid : Type)
  | publish (node : EntityNode Cid)
  | begin (task : Nat) (loader : Loader Cid) (kindNode : KindNode Cid) (hasCurrent : Bool)
  | create (task : Nat) (path : CreatePath) (req : CreateEntityRequest) (caller : EntityPlugin)
    (kindNode : KindNode Cid)
  | refresh (task : Nat)
  | attempt (task : Nat) (attempt : EntityAttempt)
  | lateCall (index : Nat)
  | record (task : Nat) (saved : Option Cid) (succeeds : Bool)
  | recordRoot
  | restart

namespace Loader

/-- Whether a load begins with the node that the manifest links. -/
def readsNode : Loader Cid → Bool
  | .creation _ => false
  | _ => true

/-- The node that is loaded, of the one that was read. -/
def nodeFor (loader : Loader Cid) (hasCurrent : Bool) (node : EntityNode Cid) : EntityNode Cid :=
  match loader with
  | .behaviour cid =>
    { node with
      behaviour := cid.map IpldLink.mk
      initialised := node.initialised || hasCurrent }
  | _ => node

/-- How often a load is tried again. -/
def retries : Loader Cid → EntityAttempt → Nat
  | .creation .inbox, _ | _, .native _ => 0
  | _, .wasm _ _ => entityLoadBackoffSecs.length

/-- The node that is linked after a load: `persist_initialised_transition`,
`complete_entity_reload`, `insert_entity` or `set_entity_behaviour`. -/
def recorded (loader : Loader Cid) (node : EntityNode Cid) (lifecycle : Lifecycle)
    (saved : Option Cid) (linked : Option (EntityNode Cid)) : Option (EntityNode Cid) :=
  match loader, lifecycle with
  | .startup, .running | .creation _, .running => some (runningNode node saved)
  | .reload, .running => linked.map fun node ↦ node.withReload saved
  | .behaviour cid, _ => linked.map fun node ↦
    match saved with
    | some state => (node.withBehaviour cid).withState state
    | none => node.withBehaviour cid
  | _, .error => linked

end Loader

namespace GenesisState

/-- The state before the first load. -/
def start (linked : Option (EntityNode Cid)) : GenesisState Cid := ⟨linked, linked, .empty, [], []⟩

/-- A load begins. -/
def beginLoad (s : GenesisState Cid) (task : Nat) (loader : Loader Cid) (node : EntityNode Cid)
    (kindNode : KindNode Cid) : GenesisState Cid :=
  { s with loads := s.loads.insert task ⟨loader, node, kindNode, .trying 0⟩ }

end GenesisState

section Machine

variable [ToString Cid] (store : Store Cid) (cidOfText : String → Cid) (name : String)

/-- What an attempt makes of a load, which ends if the attempt fails and was the last. -/
def EntityLoad.after (load : EntityLoad Cid) (index : Nat) (attempt : EntityAttempt) :
    Option (EntityLoad Cid) :=
  match attempt.load store name load.node load.kindNode with
  | .ok lifecycle => some { load with phase := .loaded lifecycle }
  | .error _ =>
    if index < load.loader.retries attempt then some { load with phase := .trying (index + 1) }
    else none

/-- One step of the loads of an entity. -/
def genesisStep (s : GenesisState Cid) : GenesisAction Cid → Option (GenesisState Cid)
  | .publish node => some { s with linked := some node }
  | .begin task loader kindNode hasCurrent =>
    match s.loads.get task, s.linked, loader.readsNode with
    | none, some node, true =>
      some (s.beginLoad task loader (loader.nodeFor hasCurrent node) kindNode)
    | _, _, _ => none
  | .create task path req caller kindNode =>
    match s.loads.get task, requestedBehaviour req.behaviourCid with
    | none, .ok behaviour =>
      some (s.beginLoad task (.creation path) (createdNode cidOfText req behaviour caller) kindNode)
    | _, _ => none
  | .refresh task =>
    match s.loads.get task, s.linked with
    | some ⟨.reload, _, kindNode, .trying 0⟩, some node =>
      some (s.beginLoad task .reload node kindNode)
    | _, _ => none
  | .attempt task attempt =>
    match s.loads.get task with
    | some ⟨loader, node, kindNode, .trying index⟩ =>
      let call := (attempt.initCall store name node kindNode).toList
      some
        { s with
          late := if attempt.isLate then s.late ++ call else s.late
          calls := if attempt.isLate then s.calls else s.calls ++ call
          loads :=
            match EntityLoad.after store name ⟨loader, node, kindNode, .trying index⟩ index
              attempt with
            | some load => s.loads.insert task load
            | none => s.loads.remove task }
    | _ => none
  | .lateCall index =>
    s.late[index]?.map fun call ↦
      { s with late := s.late.eraseIdx index, calls := s.calls ++ [call] }
  | .record task saved succeeds =>
    match s.loads.get task with
    | some ⟨loader, node, _, .loaded lifecycle⟩ =>
      some
        { s with
          linked := if succeeds then loader.recorded node lifecycle saved s.linked else s.linked
          loads := s.loads.remove task }
    | _ => none
  | .recordRoot => some { s with recorded := s.linked }
  | .restart => some { s with linked := s.recorded, loads := .empty, late := [] }

end Machine

/-! ### The property and the condition -/

/-- `:init` is not delivered after a call of it that was accepted. -/
def InitOnce (calls : List Bool) : Prop := calls.Pairwise fun earlier _ ↦ earlier = false

/-- Whether a load is at an attempt with a node that is not marked. -/
def EntityLoad.mayDeliver (load : EntityLoad Cid) : Bool :=
  match load.phase with
  | .trying _ => !load.node.initialised
  | .loaded _ => false

/-- No load but that of a task may deliver `:init`. -/
def NoOtherDelivers (s : GenesisState Cid) (task : Nat) : Prop :=
  ∀ other load, other ≠ task → s.loads.get other = some load → load.mayDeliver = false

/-- `:init` was accepted once at most, and is not going to be delivered after that by a load that is
under way or a worker that was given up. -/
structure InitIsOver (s : GenesisState Cid) : Prop where
  once : InitOnce s.calls
  noLate : true ∈ s.calls → s.late = []
  noLoad : true ∈ s.calls → ∀ task load, s.loads.get task = some load → load.mayDeliver = false

/-- After an accepted `:init` each load reads a node that is marked. The attempt that delivers it is
the last one of its load, and no other load or worker is about to deliver it too. -/
def ReadsMark [ToString Cid] (store : Store Cid) (name : String) (s : GenesisState Cid) :
    GenesisAction Cid → Prop
  | .begin _ loader _ hasCurrent => true ∈ s.calls → ∀ node, s.linked = some node →
      (loader.nodeFor hasCurrent node).initialised = true
  | .create _ _ _ _ _ => true ∉ s.calls
  | .refresh _ => true ∈ s.calls → ∀ node, s.linked = some node → node.initialised = true
  | .attempt task attempt => ∀ loader node kindNode index,
      s.loads.get task = some ⟨loader, node, kindNode, .trying index⟩ →
      attempt.isLate = false → attempt.initCall store name node kindNode = some true →
        ((∃ lifecycle, attempt.load store name node kindNode = .ok lifecycle) ∨
          loader.retries attempt ≤ index) ∧ s.late = [] ∧ NoOtherDelivers s task
  | .lateCall index => s.late[index]? = some true →
      s.late = [true] ∧ ∀ task load, s.loads.get task = some load → load.mayDeliver = false
  | _ => True

/-! ### Attempts -/

/-- A signal that a list does not have is not delivered. -/
theorem lookup_deliveredSignals_eq_none {ts : WasmThreadState} {signals : List (String × GuestCall)}
    {name : String} (h : ∀ entry ∈ signals, entry.1 ≠ name) :
    (deliveredSignals ts signals).lookup name = none := by
  induction signals generalizing ts with
  | nil => rfl
  | cons entry rest ih =>
    obtain ⟨signal, guest⟩ := entry
    have hsignal : (name == signal) = false :=
      beq_false_of_ne (Ne.symm (h (signal, guest) List.mem_cons_self))
    unfold deliveredSignals
    split
    · rw [List.lookup_cons, hsignal]
      exact ih fun entry hentry ↦ h entry (List.mem_cons_of_mem _ hentry)
    · rw [List.lookup_cons, hsignal]
      rfl

/-- Where no signal fails, all are delivered and return. -/
theorem deliveredSignals_of_runSignals {ts after : WasmThreadState} {fragment : String}
    {signals : List (String × GuestCall)} (h : runSignals fragment ts signals = .ok after) :
    deliveredSignals ts signals = signals.map fun entry ↦ (entry.1, true) := by
  induction signals generalizing ts with
  | nil => rfl
  | cons entry rest ih =>
    obtain ⟨signal, guest⟩ := entry
    unfold runSignals at h
    unfold deliveredSignals
    rcases hcall : ts.call guest with ⟨next, output | output⟩
    · simp [hcall] at h
    · simp only [hcall] at h ⊢
      exact congrArg _ (ih h)

section Calls

variable [ToString Cid] {store : Store Cid} {fragment : String} {node : EntityNode Cid}
  {kindNode : KindNode Cid}

/-- A load of a node that is marked does not deliver `:init`. -/
theorem initCall_eq_none (attempt : EntityAttempt) (h : node.initialised = true) :
    attempt.initCall store fragment node kindNode = none := by
  cases attempt with
  | wasm attempt inTime =>
    have hnone : (attemptSignals store fragment node kindNode attempt).lookup ":init" = none := by
      unfold attemptSignals
      split
      · apply lookup_deliveredSignals_eq_none
        simp only [lifecycleSignals, h, Bool.not_true, Bool.false_eq_true, if_false, List.append_nil,
          List.mem_append, List.mem_singleton]
        rintro entry ((hstate | hbehaviour) | rfl)
        · split_ifs at hstate
          · cases hstate
          · obtain rfl := List.mem_singleton.mp hstate
            show ":set-state" ≠ ":init"
            decide
        · obtain ⟨text, -, rfl⟩ := Option.map_eq_some_iff.mp (Option.mem_toList.mp hbehaviour)
          show ":set-behaviour" ≠ ":init"
          decide
        · show ":start" ≠ ":init"
          decide
      · rfl
    rw [EntityAttempt.initCall, hnone]
    rfl
  | native attempt => simp [EntityAttempt.initCall, h]

/-- Where `:init` is among the signals and none fails, it is delivered and returns. -/
theorem lookup_lifecycleSignals (attempt : LoadAttempt) (initState : Plugin.Bytes)
    (behaviourText : Option Plugin.Bytes) :
    ((lifecycleSignals attempt initState behaviourText true).map fun entry ↦
      (entry.1, true)).lookup ":init" = some true := by
  cases behaviourText with
  | none => cases initState with | nil => rfl | cons byte rest => rfl
  | some text => cases initState with | nil => rfl | cons byte rest => rfl

/-- A load that ends with a plugin has delivered `:init` if its node was not marked, and the plugin
runs exactly if it was accepted. -/
theorem initCall_of_load {attempt : EntityAttempt} {lifecycle : Lifecycle}
    (h : attempt.load store fragment node kindNode = .ok lifecycle)
    (hunmarked : node.initialised = false) :
    attempt.initCall store fragment node kindNode = some (decide (lifecycle = .running)) := by
  cases attempt with
  | wasm attempt inTime =>
    cases inTime with
    | true =>
      rw [EntityAttempt.load, if_pos rfl] at h
      cases hload : Plugin.load store fragment node kindNode attempt with
      | error reason =>
        rw [hload] at h
        cases h
      | ok loaded =>
        rw [hload] at h
        obtain rfl : loaded.lifecycle = lifecycle := Except.ok.inj h
        rw [EntityAttempt.initCall]
        unfold Plugin.load at hload
        unfold attemptSignals
        split at hload
        case h_4 hkind =>
          obtain ⟨resolved, hresolved, hbuilt⟩ := bind_eq_ok hload
          dsimp only at hbuilt
          split at hbuilt
          · cases hbuilt
          · rename_i hbuild
            obtain ⟨ts, hsignals, hloaded⟩ := bind_eq_ok hbuilt
            obtain rfl := Except.ok.inj hloaded
            rw [hunmarked, Bool.not_false] at hsignals
            simp only [hkind, hresolved, hbuild, deliveredSignals_of_runSignals hsignals,
              hunmarked, Bool.not_false, lookup_lifecycleSignals]
            cases attempt.initReason with
            | none => rfl
            | some reason => rfl
        all_goals cases hload
    | false => cases h
  | native attempt =>
    cases hload : loadNativeEntity store fragment node kindNode attempt with
    | error reason =>
      rw [EntityAttempt.load, hload] at h
      cases h
    | ok initState =>
      rw [EntityAttempt.load, hload] at h
      obtain rfl : Lifecycle.running = lifecycle := Except.ok.inj h
      obtain ⟨_, hlifecycle, -⟩ := bind_eq_ok hload
      unfold Plugin.runNativeLifecycle at hlifecycle
      split_ifs at hlifecycle with hstate hinit hstart
      rw [hunmarked] at hinit
      simp only [EntityAttempt.initCall, hunmarked, Bool.false_or, hstate]
      simpa using hinit

end Calls

/-! ### Steps -/

theorem initOnce_append {calls : List Bool} (h : true ∉ calls) (call : Option Bool) :
    InitOnce (calls ++ call.toList) := by
  have hfalse : ∀ earlier ∈ calls, earlier = false := fun earlier hearlier ↦
    Bool.eq_false_of_not_eq_true fun htrue ↦ h (htrue ▸ hearlier)
  refine List.pairwise_append.mpr ⟨?_, ?_, fun earlier hearlier _ _ ↦ hfalse earlier hearlier⟩
  · exact List.pairwise_of_forall_mem_list fun earlier hearlier _ _ ↦ hfalse earlier hearlier
  · cases call with
    | none => exact List.Pairwise.nil
    | some call => exact List.pairwise_singleton _ _

section Steps

variable [ToString Cid] {store : Store Cid} {cidOfText : String → Cid} {name : String}
  {s t : GenesisState Cid} {action : GenesisAction Cid}

omit [ToString Cid] in
/-- Where `:init` was not accepted so far, what follows keeps it over if nothing is left that may
deliver it again after a call that is accepted. -/
theorem initIsOver_call (hs : true ∉ s.calls) (call : Option Bool)
    (hcalls : t.calls = s.calls ++ call.toList)
    (hlast : call = some true →
      t.late = [] ∧ ∀ task load, t.loads.get task = some load → load.mayDeliver = false) :
    InitIsOver t := by
  have haccepted : true ∈ t.calls → call = some true := by
    intro hmem
    rw [hcalls] at hmem
    rcases List.mem_append.mp hmem with hbefore | hcall
    · exact absurd hbefore hs
    · exact Option.mem_toList.mp hcall
  refine ⟨?_, fun hmem ↦ (hlast (haccepted hmem)).1, fun hmem ↦ (hlast (haccepted hmem)).2⟩
  rw [hcalls]
  exact initOnce_append hs call

omit [ToString Cid] in
/-- A load begins with a node that is marked, if `:init` was accepted. -/
theorem InitIsOver.beginLoad (hs : InitIsOver s) {task : Nat} {loader : Loader Cid}
    {node : EntityNode Cid} {kindNode : KindNode Cid}
    (hmark : true ∈ s.calls → node.initialised = true) :
    InitIsOver (s.beginLoad task loader node kindNode) where
  once := hs.once
  noLate := hs.noLate
  noLoad haccepted other load hload := by
    obtain ⟨-, rfl⟩ | ⟨-, hbefore⟩ := KeyedMap.get_insert_eq_some_iff.mp hload
    · show (!node.initialised) = false
      rw [hmark haccepted]
      rfl
    · exact hs.noLoad haccepted other load hbefore

omit [ToString Cid] in
theorem mayDeliver_of_initialised {load : EntityLoad Cid} (h : load.node.initialised = true) :
    load.mayDeliver = false := by
  unfold EntityLoad.mayDeliver
  split
  · rw [h]
    rfl
  · rfl

/-- What an attempt leaves of a load has the same node, and delivers nothing if there is no attempt
to come. -/
theorem mayDeliver_after {load next : EntityLoad Cid} {index : Nat} {attempt : EntityAttempt}
    (h : load.after store name index attempt = some next) :
    next.node = load.node ∧
      ((∃ lifecycle, attempt.load store name load.node load.kindNode = .ok lifecycle) ∨
        load.loader.retries attempt ≤ index → next.mayDeliver = false) := by
  unfold EntityLoad.after at h
  split at h
  · obtain rfl := Option.some.inj h
    exact ⟨rfl, fun _ ↦ rfl⟩
  · rename_i reason hfailed
    split_ifs at h with hagain
    obtain rfl := Option.some.inj h
    refine ⟨rfl, ?_⟩
    rintro (⟨lifecycle, hok⟩ | hlast)
    · cases hfailed.symm.trans hok
    · exact absurd hagain (Nat.not_lt.mpr hlast)

omit [ToString Cid] in
/-- The loads after an attempt are the others and what it left of its own. -/
theorem get_loads_attempt (loads : KeyedMap Nat (EntityLoad Cid)) (task other : Nat)
    (after : Option (EntityLoad Cid)) :
    (match after with
      | some next => loads.insert task next
      | none => loads.remove task).get other = if other = task then after else loads.get other := by
  cases after with
  | some next => exact KeyedMap.get_insert ..
  | none => exact KeyedMap.get_remove ..

theorem begin_eq_some {task : Nat} {loader : Loader Cid} {kindNode : KindNode Cid}
    {hasCurrent : Bool}
    (h : genesisStep store cidOfText name s (.begin task loader kindNode hasCurrent) = some t) :
    ∃ node, s.linked = some node ∧
      t = s.beginLoad task loader (loader.nodeFor hasCurrent node) kindNode := by
  simp only [genesisStep] at h
  split at h
  · rename_i node hload hlinked hread
    exact ⟨node, hlinked, (Option.some.inj h).symm⟩
  · cases h

theorem create_eq_some {task : Nat} {path : CreatePath} {req : CreateEntityRequest}
    {caller : EntityPlugin} {kindNode : KindNode Cid}
    (h : genesisStep store cidOfText name s (.create task path req caller kindNode) = some t) :
    ∃ behaviour, t = s.beginLoad task (.creation path)
      (createdNode cidOfText req behaviour caller) kindNode := by
  simp only [genesisStep] at h
  split at h
  · exact ⟨_, (Option.some.inj h).symm⟩
  · cases h

theorem refresh_eq_some {task : Nat}
    (h : genesisStep store cidOfText name s (.refresh task) = some t) :
    ∃ node kindNode, s.linked = some node ∧ t = s.beginLoad task .reload node kindNode := by
  simp only [genesisStep] at h
  split at h
  · rename_i node hload hlinked
    exact ⟨node, _, hlinked, (Option.some.inj h).symm⟩
  · cases h

/-- What an attempt of a load does. -/
theorem attempt_eq_some {task : Nat} {attempt : EntityAttempt}
    (h : genesisStep store cidOfText name s (.attempt task attempt) = some t) :
    ∃ loader node kindNode index,
      s.loads.get task = some ⟨loader, node, kindNode, .trying index⟩ ∧
      t.linked = s.linked ∧ t.recorded = s.recorded ∧
      t.late = (if attempt.isLate then
        s.late ++ (attempt.initCall store name node kindNode).toList else s.late) ∧
      t.calls = (if attempt.isLate then s.calls
        else s.calls ++ (attempt.initCall store name node kindNode).toList) ∧
      ∀ other, t.loads.get other = if other = task then
        EntityLoad.after store name ⟨loader, node, kindNode, .trying index⟩ index attempt
        else s.loads.get other := by
  simp only [genesisStep] at h
  split at h
  · rename_i loader node kindNode index hload
    obtain rfl := Option.some.inj h
    exact ⟨loader, node, kindNode, index, hload, rfl, rfl, rfl, rfl,
      fun other ↦ get_loads_attempt s.loads task other _⟩
  · cases h

theorem initIsOver_attempt {task : Nat} {attempt : EntityAttempt} (hs : InitIsOver s)
    (hreads : ReadsMark store name s (.attempt task attempt))
    (h : genesisStep store cidOfText name s (.attempt task attempt) = some t) : InitIsOver t := by
  obtain ⟨loader, node, kindNode, index, hload, -, -, hlate, hcalls, hloads⟩ := attempt_eq_some h
  by_cases haccepted : true ∈ s.calls
  · have hmark : node.initialised = true := by
      simpa [EntityLoad.mayDeliver] using hs.noLoad haccepted task _ hload
    rw [initCall_eq_none attempt hmark] at hlate hcalls
    simp only [Option.toList_none, List.append_nil, ite_self] at hlate hcalls
    refine ⟨?_, fun _ ↦ ?_, fun _ other next hnext ↦ ?_⟩
    · rw [hcalls]
      exact hs.once
    · rw [hlate]
      exact hs.noLate haccepted
    · rw [hloads] at hnext
      split_ifs at hnext
      · apply mayDeliver_of_initialised
        rw [(mayDeliver_after hnext).1]
        exact hmark
      · exact hs.noLoad haccepted other next hnext
  · cases hisLate : attempt.isLate with
    | true =>
      rw [hisLate, if_pos rfl] at hcalls
      refine initIsOver_call haccepted none (hcalls.trans (List.append_nil _).symm) ?_
      rintro ⟨⟩
    | false =>
      simp only [hisLate, Bool.false_eq_true, if_false] at hlate hcalls
      refine initIsOver_call haccepted (attempt.initCall store name node kindNode) hcalls ?_
      intro hcall
      obtain ⟨hlast, hnoLate, hothers⟩ := hreads loader node kindNode index hload hisLate hcall
      refine ⟨hlate.trans hnoLate, fun other next hnext ↦ ?_⟩
      rw [hloads] at hnext
      split_ifs at hnext with hother
      · exact (mayDeliver_after hnext).2 hlast
      · exact hothers other next hother hnext

theorem initIsOver_step (hs : InitIsOver s) (hreads : ReadsMark store name s action)
    (h : genesisStep store cidOfText name s action = some t) : InitIsOver t := by
  cases action with
  | publish node =>
    obtain rfl := Option.some.inj h
    exact ⟨hs.once, hs.noLate, hs.noLoad⟩
  | begin task loader kindNode hasCurrent =>
    obtain ⟨node, hlinked, rfl⟩ := begin_eq_some h
    exact hs.beginLoad fun haccepted ↦ hreads haccepted node hlinked
  | create task path req caller kindNode =>
    obtain ⟨behaviour, rfl⟩ := create_eq_some h
    exact hs.beginLoad fun haccepted ↦ absurd haccepted hreads
  | refresh task =>
    obtain ⟨node, kindNode, hlinked, rfl⟩ := refresh_eq_some h
    exact hs.beginLoad fun haccepted ↦ hreads haccepted node hlinked
  | attempt task attempt => exact initIsOver_attempt hs hreads h
  | lateCall index =>
    obtain ⟨call, hcall, rfl⟩ := Option.map_eq_some_iff.mp h
    have hnew : true ∉ s.calls := by
      intro haccepted
      rw [hs.noLate haccepted] at hcall
      cases hcall
    refine initIsOver_call hnew (some call) rfl ?_
    rintro ⟨⟩
    obtain ⟨hlate, hloads⟩ := hreads hcall
    refine ⟨?_, hloads⟩
    obtain ⟨hindex, -⟩ := List.getElem?_eq_some_iff.mp hcall
    simp only [hlate, List.length_singleton, Nat.lt_one_iff] at hindex ⊢
    rw [hindex]
    rfl
  | record task saved succeeds =>
    simp only [genesisStep] at h
    split at h
    · obtain rfl := Option.some.inj h
      refine ⟨hs.once, hs.noLate, fun haccepted other load hother ↦ ?_⟩
      exact hs.noLoad haccepted other load (KeyedMap.get_remove_eq_some_iff.mp hother).2
    · cases h
  | recordRoot =>
    obtain rfl := Option.some.inj h
    exact ⟨hs.once, hs.noLate, hs.noLoad⟩
  | restart =>
    obtain rfl := Option.some.inj h
    refine ⟨hs.once, fun _ ↦ rfl, ?_⟩
    rintro _ _ _ ⟨⟩

omit [ToString Cid] in
theorem initialised_of_beginLoad {task : Nat} {loader : Loader Cid} {node : EntityNode Cid}
    {kindNode : KindNode Cid} (ht : InitIsOver (s.beginLoad task loader node kindNode))
    (haccepted : true ∈ s.calls) : node.initialised = true := by
  have hquiet := ht.noLoad haccepted task _ (KeyedMap.get_insert_self ..)
  simpa [EntityLoad.mayDeliver] using hquiet

/-- A step after which `:init` is over meets the condition. -/
theorem readsMark_of_initIsOver (h : genesisStep store cidOfText name s action = some t)
    (ht : InitIsOver t) : ReadsMark store name s action := by
  cases action with
  | begin task loader kindNode hasCurrent =>
    intro haccepted node hlinked
    obtain ⟨found, hfound, rfl⟩ := begin_eq_some h
    obtain rfl := Option.some.inj (hfound.symm.trans hlinked)
    exact initialised_of_beginLoad ht haccepted
  | create task path req caller kindNode =>
    intro haccepted
    obtain ⟨behaviour, rfl⟩ := create_eq_some h
    cases initialised_of_beginLoad ht haccepted
  | refresh task =>
    intro haccepted node hlinked
    obtain ⟨found, kindNode, hfound, rfl⟩ := refresh_eq_some h
    obtain rfl := Option.some.inj (hfound.symm.trans hlinked)
    exact initialised_of_beginLoad ht haccepted
  | attempt task attempt =>
    intro loader node kindNode index hload hisLate hcall
    obtain ⟨loader', node', kindNode', index', hload', -, -, hlate, hcalls, hloads⟩ :=
      attempt_eq_some h
    cases hload.symm.trans hload'
    simp only [hisLate, hcall, Bool.false_eq_true, if_false] at hlate hcalls
    have haccepted : true ∈ t.calls := by
      rw [hcalls]
      exact List.mem_append_right _ List.mem_cons_self
    refine ⟨?_, hlate.symm.trans (ht.noLate haccepted), fun other next hother hnext ↦ ?_⟩
    · cases hloaded : attempt.load store name node kindNode with
      | ok lifecycle => exact .inl ⟨lifecycle, rfl⟩
      | error reason =>
        right
        by_contra hagain
        have hafter : EntityLoad.after store name ⟨loader, node, kindNode, .trying index⟩ index
            attempt = some ⟨loader, node, kindNode, .trying (index + 1)⟩ := by
          simp only [EntityLoad.after, hloaded, if_pos (Nat.lt_of_not_le hagain)]
        have hquiet := ht.noLoad haccepted task ⟨loader, node, kindNode, .trying (index + 1)⟩
          (by rw [hloads, if_pos rfl, hafter])
        have hmark : node.initialised = true := by simpa [EntityLoad.mayDeliver] using hquiet
        rw [initCall_eq_none attempt hmark] at hcall
        cases hcall
    · exact ht.noLoad haccepted other next (by rw [hloads, if_neg hother, hnext])
  | lateCall index =>
    intro hcall
    simp only [genesisStep, hcall, Option.map_some] at h
    obtain rfl := Option.some.inj h
    have haccepted : true ∈ s.calls ++ [true] := List.mem_append_right _ List.mem_cons_self
    refine ⟨?_, ht.noLoad haccepted⟩
    rcases List.eraseIdx_eq_nil_iff.mp (ht.noLate haccepted) with hnil | ⟨hlength, hindex⟩
    · rw [hnil] at hcall
      cases hcall
    · obtain ⟨call, hlate⟩ := List.length_eq_one_iff.mp hlength
      rw [hlate, hindex] at hcall
      obtain rfl := Option.some.inj hcall
      exact hlate
  | publish | record | recordRoot | restart => trivial

end Steps

/-! ### Runs -/

section Runs

variable [ToString Cid] {store : Store Cid} {cidOfText : String → Cid} {name : String}
  {linked : Option (EntityNode Cid)} {actions : List (GenesisAction Cid)} {u : GenesisState Cid}

omit [ToString Cid] in
theorem initIsOver_start : InitIsOver (.start linked) :=
  ⟨List.Pairwise.nil, fun _ ↦ rfl, fun _ _ _ hnone ↦ nomatch hnone⟩

/-- After every step of a run no load or worker is about to deliver `:init` again after a call that
was accepted, if and only if every step of the run meets the condition. -/
theorem initIsOver_iff (h : Run (genesisStep store cidOfText name) (.start linked) actions u) :
    (∀ before after t, actions = before ++ after →
        Run (genesisStep store cidOfText name) (.start linked) before t → InitIsOver t) ↔
      GuardedRun (genesisStep store cidOfText name) (ReadsMark store name) (.start linked) actions
        u :=
  guardedRun_iff_forall_prefix InitIsOver h initIsOver_start
    (fun _ _ _ hs hreads hstep ↦ initIsOver_step hs hreads hstep)
    (fun _ _ _ _ hstep ht ↦ readsMark_of_initIsOver hstep ht)

/-- Along a run whose steps meet the condition, `:init` is not delivered after it was accepted. -/
theorem initOnce_of_guardedRun
    (h : GuardedRun (genesisStep store cidOfText name) (ReadsMark store name) (.start linked)
      actions u) : InitOnce u.calls := by
  have hover : InitIsOver u :=
    h.invariant InitIsOver (fun _ _ _ hs hreads hstep ↦ initIsOver_step hs hreads hstep)
      initIsOver_start
  exact hover.once

end Runs

/-! ### Nodes that are marked -/

/-- The node that the manifest links, the one that the next startup finds and those that are being
loaded are marked, and no worker that was given up is about to deliver `:init`. -/
structure AllMarked (s : GenesisState Cid) : Prop where
  linked : ∀ node, s.linked = some node → node.initialised = true
  recorded : ∀ node, s.recorded = some node → node.initialised = true
  loads : ∀ task load, s.loads.get task = some load → load.node.initialised = true
  noLate : s.late = []

/-- A step publishes no node without the mark, and is no request for the entity. -/
def PublishesMarked : GenesisAction Cid → Prop
  | .publish node => node.initialised = true
  | .create _ _ _ _ _ => False
  | _ => True

section Marks

variable [ToString Cid] {store : Store Cid} {cidOfText : String → Cid} {name : String}
  {s t : GenesisState Cid} {action : GenesisAction Cid}

omit [ToString Cid] in
theorem nodeFor_initialised {loader : Loader Cid} {hasCurrent : Bool} {node : EntityNode Cid}
    (h : node.initialised = true) : (loader.nodeFor hasCurrent node).initialised = true := by
  cases loader with
  | behaviour cid => simp [Loader.nodeFor, h]
  | startup | reload | creation path => exact h

omit [ToString Cid] in
/-- A load whose plugin runs marks the node that is linked after it. -/
theorem recorded_initialised {loader : Loader Cid} {node after : EntityNode Cid}
    {saved : Option Cid} {linked : Option (EntityNode Cid)}
    (h : loader.recorded node .running saved linked = some after) : after.initialised = true := by
  cases loader with
  | startup | creation path =>
    obtain rfl := Option.some.inj h
    rfl
  | reload =>
    obtain ⟨found, -, rfl⟩ := Option.map_eq_some_iff.mp h
    rfl
  | behaviour cid =>
    obtain ⟨found, -, rfl⟩ := Option.map_eq_some_iff.mp h
    cases saved with
    | none => rfl
    | some state => rfl

omit [ToString Cid] in
theorem recorded_error {loader : Loader Cid} {node after : EntityNode Cid} {saved : Option Cid}
    {linked : Option (EntityNode Cid)} (h : loader.recorded node .error saved linked = some after) :
    after.initialised = true ∨ linked = some after := by
  cases loader with
  | behaviour cid =>
    left
    obtain ⟨found, -, rfl⟩ := Option.map_eq_some_iff.mp h
    cases saved with
    | none => rfl
    | some state => rfl
  | startup | reload | creation path => exact .inr h

omit [ToString Cid] in
theorem AllMarked.beginLoad (hs : AllMarked s) {task : Nat} {loader : Loader Cid}
    {node : EntityNode Cid} {kindNode : KindNode Cid} (hnode : node.initialised = true) :
    AllMarked (s.beginLoad task loader node kindNode) where
  linked := hs.linked
  recorded := hs.recorded
  noLate := hs.noLate
  loads other load hload := by
    obtain ⟨-, rfl⟩ | ⟨-, hbefore⟩ := KeyedMap.get_insert_eq_some_iff.mp hload
    · exact hnode
    · exact hs.loads other load hbefore

/-- A step keeps the marks, and delivers no `:init`. -/
theorem allMarked_step (hs : AllMarked s) (hpublishes : PublishesMarked action)
    (h : genesisStep store cidOfText name s action = some t) :
    AllMarked t ∧ t.calls = s.calls := by
  cases action with
  | publish node =>
    obtain rfl := Option.some.inj h
    refine ⟨⟨?_, hs.recorded, hs.loads, hs.noLate⟩, rfl⟩
    rintro _ ⟨⟩
    exact hpublishes
  | begin task loader kindNode hasCurrent =>
    obtain ⟨node, hlinked, rfl⟩ := begin_eq_some h
    exact ⟨hs.beginLoad (nodeFor_initialised (hs.linked node hlinked)), rfl⟩
  | create task path req caller kindNode => exact hpublishes.elim
  | refresh task =>
    obtain ⟨node, kindNode, hlinked, rfl⟩ := refresh_eq_some h
    exact ⟨hs.beginLoad (hs.linked node hlinked), rfl⟩
  | attempt task attempt =>
    obtain ⟨loader, node, kindNode, index, hload, hlinked, hrecorded, hlate, hcalls, hloads⟩ :=
      attempt_eq_some h
    have hmark : node.initialised = true := hs.loads task _ hload
    rw [initCall_eq_none attempt hmark] at hlate hcalls
    simp only [Option.toList_none, List.append_nil, ite_self] at hlate hcalls
    refine ⟨⟨?_, ?_, fun other next hnext ↦ ?_, hlate.trans hs.noLate⟩, hcalls⟩
    · rw [hlinked]
      exact hs.linked
    · rw [hrecorded]
      exact hs.recorded
    · rw [hloads] at hnext
      split_ifs at hnext
      · rw [(mayDeliver_after hnext).1]
        exact hmark
      · exact hs.loads other next hnext
  | lateCall index =>
    simp only [genesisStep, hs.noLate] at h
    cases h
  | record task saved succeeds =>
    simp only [genesisStep] at h
    split at h
    · rename_i loader node kindNode lifecycle hload
      obtain rfl := Option.some.inj h
      refine ⟨⟨fun after hafter ↦ ?_, hs.recorded, fun other load hother ↦ ?_, hs.noLate⟩, rfl⟩
      · dsimp only at hafter
        split_ifs at hafter
        · cases lifecycle with
          | running => exact recorded_initialised hafter
          | error => exact (recorded_error hafter).elim id (hs.linked after)
        · exact hs.linked after hafter
      · exact hs.loads other load (KeyedMap.get_remove_eq_some_iff.mp hother).2
    · cases h
  | recordRoot =>
    obtain rfl := Option.some.inj h
    exact ⟨⟨hs.linked, hs.linked, hs.loads, hs.noLate⟩, rfl⟩
  | restart =>
    obtain rfl := Option.some.inj h
    refine ⟨⟨hs.recorded, hs.recorded, ?_, rfl⟩, rfl⟩
    rintro _ _ ⟨⟩

/-- Once the mark is made everywhere, reloads and restarts deliver `:init` no more, until a node
without it is published or the entity is asked for again. -/
theorem no_init_of_allMarked {actions : List (GenesisAction Cid)} {u : GenesisState Cid}
    (h : GuardedRun (genesisStep store cidOfText name) (fun _ ↦ PublishesMarked) s actions u)
    (hs : AllMarked s) : u.calls = s.calls := by
  have hkept : AllMarked u ∧ u.calls = s.calls := by
    refine h.invariant (fun v ↦ AllMarked v ∧ v.calls = s.calls) ?_ ⟨hs, rfl⟩
    intro v action w hv hpublishes hstep
    obtain ⟨hmarked, hcalls⟩ := allMarked_step hv.1 hpublishes hstep
    exact ⟨hmarked, hcalls.trans hv.2⟩
  exact hkept.2

end Marks

/-! ### A load that is tried again -/

/-- An attempt in which the guest accepts `:init`, and returns from `:start` or traps. -/
def startedAttempt (returns : Bool) : EntityAttempt :=
  .wasm
    { Plugin.attemptWith true true with start := ⟨[], if returns then some [] else none⟩ } true

/-- A startup whose load is recorded, and another one. -/
def startsTwice : List (GenesisAction ContentCid) :=
  [.begin 0 .startup Plugin.statefulKind false, .attempt 0 (startedAttempt true),
    .record 0 none true, .recordRoot, .restart, .begin 0 .startup Plugin.statefulKind false,
    .attempt 0 (startedAttempt true)]

/-- The first startup delivers `:init` and records it; the second does not deliver it. -/
theorem initOnce_of_guardedRun_recorded :
    ∃ u, GuardedRun (genesisStep contentStore textCid "room") (ReadsMark contentStore "room")
        (.start (some roomNode)) startsTwice u ∧ u.calls = [true] ∧ InitOnce u.calls := by
  have hrun : ∃ u, GuardedRun (genesisStep contentStore textCid "room")
      (ReadsMark contentStore "room") (.start (some roomNode)) startsTwice u ∧
        u.calls = [true] := by
    refine ⟨_, .cons ?_ rfl (.cons ?_ rfl (.cons trivial rfl (.cons trivial rfl (.cons trivial rfl
      (.cons ?_ rfl (.cons ?_ rfl (.nil _))))))), rfl⟩
    · rintro ⟨⟩
    · rintro loader node kindNode index ⟨⟩ - -
      refine ⟨.inl ⟨.running, rfl⟩, rfl, fun other load hother hload ↦ ?_⟩
      have hnone := KeyedMap.get_insert_of_ne .empty _ hother ▸ hload
      cases hnone
    · rintro - node ⟨⟩
      rfl
    · rintro loader node kindNode index ⟨⟩ - hcall
      cases hcall
  obtain ⟨u, hguarded, hcalls⟩ := hrun
  exact ⟨u, hguarded, hcalls, initOnce_of_guardedRun hguarded⟩

/-- The guest accepts `:init` and traps in `:start`; the load is tried again, and delivers `:init`
again. -/
theorem init_delivered_again :
    ∃ u, Run (genesisStep contentStore textCid "room") (.start (some roomNode))
        [.begin 0 .startup Plugin.statefulKind false, .attempt 0 (startedAttempt false),
          .attempt 0 (startedAttempt true)] u ∧
      u.calls = [true, true] ∧ ¬InitOnce u.calls := by
  refine ⟨_, run_of_execute rfl, rfl, fun honce ↦ ?_⟩
  have hfirst := List.rel_of_pairwise_cons honce (List.mem_singleton_self true)
  cases hfirst

end MaRuntime.Dispatch
