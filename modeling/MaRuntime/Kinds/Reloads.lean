import MaRuntime.Kinds.Dependents
import MaRuntime.Library.Pools

/-!
# The reloads that a change of kinds spawns

A request that links kinds puts them, and the kinds that depend on them, into the registry one after
the other, and then spawns a reload for each entity that uses one of them. The reloads run beside
each other and beside further requests: each waits for one of the four permits of its request, reads
its kind from the registry, has the plugin that is there save its state, loads a plugin, and puts it
in the place of the former one (`reloadsStep`).

What a request does to the manifest and to the registry is what the request does that is carried out
at once (`kindsStep`), whatever the reloads do meanwhile (`requests_refine`). No reload waits for a
permit that will not come, and no more than four of a request have one at a time (`gates_of_run`).
Which kinds the entities run with in the end is in `Kinds/Newest.lean`.

Main definitions: `ReloadsState`, `reloadsStep`.
Main results: `requests_refine`, `gates_of_run`.

Scope. The entities of the manifest and their kinds stay as they are: what a reload writes to the
node of its entity leaves the kind alone. A reload that is given up before its load leaves the
former plugin, and the entity is listed in `givenUp`. The answers to requests are left out.
-/

set_option autoImplicit false
set_option relaxedAutoImplicit false

namespace MaRuntime.Kinds

open Manifest Pools Runs

variable {Cid : Type}

/-! ### State -/

def maxConcurrentKindReloads : ℕ := 4

/-- Where the request in hand stands: a kind is to be put into the registry or removed from it; the
configuration and the manifest are to be read; the affected kinds are put into the registry; the
entities are looked at, under a gate of their own. -/
inductive KindsHandler (Cid : Type)
  | idle
  | inserting (protocol : String) (kindNode : KindNode Cid)
  | removing (protocol : String)
  | reading (updated : List String)
  | hydrating (affected rest : List String)
  | spawning (affected : List String) (gate : ℕ) (names : List String)

/-- A kind that a reload has read, and how many were read before. -/
structure KindRead (Cid : Type) where
  kind : KindNode Cid
  number : ℕ

/-- Where a reload stands. It has a permit from `resolving` to `recording`. -/
inductive ReloadPhase (Cid : Type)
  | waiting
  | resolving
  | finding (read : KindRead Cid)
  | saving (read : KindRead Cid)
  | loading (read : KindRead Cid) (hasCurrent : Bool)
  | installing (read : KindRead Cid)
  | uninstalling (read : KindRead Cid)
  | recording
  | ended

/-- A reload of an entity, with the gate of its request. -/
structure ReloadTask (Cid : Type) where
  gate : ℕ
  name : String
  protocol : String
  phase : ReloadPhase Cid

/-- The manifest and the registry of kinds, the request in hand, the kind that each live plugin was
loaded with, the free permits of each gate, and the reloads. How many kinds were read, and the
entities of which a reload was given up, are histories. -/
structure ReloadsState (Cid : Type) where
  kinds : KindsState Cid
  handler : KindsHandler Cid
  live : String → Option (KindNode Cid)
  gates : List ℕ
  reloads : List (ReloadTask Cid)
  reads : ℕ
  givenUp : List String

/-- A runtime without requests and reloads. -/
def ReloadsState.start (kinds : KindsState Cid) (live : String → Option (KindNode Cid)) :
    ReloadsState Cid :=
  ⟨kinds, .idle, live, [], [], 0, []⟩

/-- What a reload awaits ends well or not, and its load in a lifecycle. -/
structure ReloadOutcome where
  succeeds : Bool
  lifecycle : Plugin.Lifecycle

/-- The steps: a request comes, or goes on, or is dropped when its time is over; a reload goes on; a
plugin is taken out of the registry of entities by somebody else. -/
inductive ReloadsAction (Cid : Type)
  | request (action : KindsAction Cid)
  | proceed (succeeds : Bool)
  | abandon
  | reload (i : ℕ) (outcome : ReloadOutcome)
  | unregister (name : String)

/-! ### Steps -/

section Step

variable (fetch : Cid → Except String (KindNode Cid))
  (fetchNode : Cid → Except String (EntityNode Cid))

/-- A request comes. One that links kinds has published its manifest when it has come, one that is
answered with an error leaves everything as it was. -/
def ReloadsState.accept [DecidableEq Cid] (s : ReloadsState Cid) :
    KindsAction Cid → ReloadsState Cid
  | .update (.set path cid) =>
    match setKind fetch s.kinds.manifest path cid with
    | .ok (manifest, kindNode) =>
      { s with
        kinds := { s.kinds with manifest := manifest }
        handler := .inserting path.protocolId kindNode }
    | .error _ => s
  | .update (.overlay kinds) =>
    match applyKindsTreeOverlay fetch s.kinds.manifest kinds with
    | .ok (manifest, changedProtocols) =>
      { s with
        kinds := { s.kinds with manifest := manifest }
        handler := if changedProtocols.isEmpty then .idle else .reading changedProtocols }
    | .error _ => s
  | .delete path =>
    match s.kinds.manifest.kinds.getProtocol path.protocolId with
    | none => s
    | some _ =>
      { s with
        kinds := { s.kinds with
          manifest := { s.kinds.manifest with
            kinds := s.kinds.manifest.kinds.removeProtocol path.protocolId } }
        handler := .removing path.protocolId }

/-- The registry with a kind that is affected, if it can be resolved. -/
def KindsState.hydrate (s : KindsState Cid) (protocol : String) : KindsState Cid :=
  { s with
    registry := s.registry.insertSome protocol
      (((loadRawKindNodes fetch s.manifest).get protocol).bind fun rawKind ↦
        (resolveKind fetch s.manifest.kinds rawKind).toOption) }

/-- The kind that the node of an entity names. -/
def entityKind (manifest : RuntimeManifest Cid) (name : String) : Option String :=
  ((manifest.entities.get name).bind fun link ↦ (fetchNode link.cid).toOption).map EntityNode.kind

/-- The loop of `spawn_kind_dependency_reloads_for` at one entity. -/
def ReloadsState.spawnFor (s : ReloadsState Cid) (affected : List String) (gate : ℕ)
    (name : String) : ReloadsState Cid :=
  match (s.kinds.manifest.entities.get name).bind fun link ↦ (fetchNode link.cid).toOption with
  | some node =>
    if node.kind ∈ affected then
      { s with reloads := s.reloads ++ [⟨gate, name, node.kind, .waiting⟩] }
    else s
  | none => s

/-- The request in hand goes on. -/
def ReloadsState.proceed (s : ReloadsState Cid) (succeeds : Bool) : Option (ReloadsState Cid) :=
  match s.handler with
  | .idle => none
  | .inserting protocol kindNode =>
    some { s with
      kinds := { s.kinds with registry := s.kinds.registry.insert protocol kindNode }
      handler := .reading [protocol] }
  | .removing protocol =>
    some { s with
      kinds := { s.kinds with registry := s.kinds.registry.remove protocol }
      handler := .idle }
  | .reading updated =>
    if succeeds then
      let affected :=
        affectedKindProtocolsFor updated (loadRawKindNodes fetch s.kinds.manifest)
      some { s with handler := .hydrating affected affected }
    else some { s with handler := .idle }
  | .hydrating affected (protocol :: rest) =>
    some { s with
      kinds := s.kinds.hydrate fetch protocol
      handler := .hydrating affected rest }
  | .hydrating affected [] =>
    some { s with
      gates := s.gates ++ [maxConcurrentKindReloads]
      handler := .spawning affected s.gates.length
        (s.kinds.manifest.entities.entries.map Prod.fst) }
  | .spawning affected gate (name :: rest) =>
    some { s.spawnFor fetchNode affected gate name with handler := .spawning affected gate rest }
  | .spawning _ _ [] => some { s with handler := .idle }

/-- `resolve_kind_node_for_reload` -/
def KindsState.resolveForReload (s : KindsState Cid) (protocol : String) (succeeds : Bool) :
    Option (KindNode Cid) :=
  match s.registry.get protocol with
  | some kindNode => some kindNode
  | none =>
    if succeeds then
      (s.manifest.kinds.getProtocol protocol).bind fun link ↦
        (fetch link.cid).toOption.bind fun rawKind ↦
          (resolveKind fetch s.manifest.kinds rawKind).toOption
    else none

/-- A reload in a further phase. -/
def ReloadsState.setPhase (s : ReloadsState Cid) (i : ℕ) (task : ReloadTask Cid)
    (phase : ReloadPhase Cid) : ReloadsState Cid :=
  { s with reloads := advance s.reloads i { task with phase := phase } }

/-- The plugin of a reload takes the place of the former one, or none does. -/
def ReloadsState.replace (s : ReloadsState Cid) (i : ℕ) (task : ReloadTask Cid)
    (kind : Option (KindNode Cid)) : ReloadsState Cid :=
  { s.setPhase i task .recording with live := Function.update s.live task.name kind }

/-- A reload is given up, and the former plugin is left. -/
def ReloadsState.giveUp (s : ReloadsState Cid) (i : ℕ) (task : ReloadTask Cid) :
    ReloadsState Cid :=
  { s.setPhase i task .recording with givenUp := task.name :: s.givenUp }

/-- A reload goes on (`spawn_entity_reload`, `finish_reload`). -/
def ReloadsState.goOn (s : ReloadsState Cid) (i : ℕ) (task : ReloadTask Cid)
    (outcome : ReloadOutcome) : Option (ReloadsState Cid) :=
  match task.phase with
  | .waiting =>
    match s.gates[task.gate]? with
    | some (free + 1) =>
      some { s.setPhase i task .resolving with gates := advance s.gates task.gate free }
    | _ => none
  | .resolving =>
    match s.kinds.resolveForReload fetch task.protocol outcome.succeeds with
    | some kind =>
      some { s.setPhase i task (.finding ⟨kind, s.reads⟩) with reads := s.reads + 1 }
    | none => some (s.giveUp i task)
  | .finding read =>
    if (s.live task.name).isSome then some (s.setPhase i task (.saving read))
    else some (s.setPhase i task (.loading read false))
  | .saving read =>
    if outcome.succeeds then some (s.setPhase i task (.loading read true))
    else some (s.giveUp i task)
  | .loading read hasCurrent =>
    if outcome.succeeds && !(decide (outcome.lifecycle = .error) && hasCurrent) then
      some (s.setPhase i task (.installing read))
    else some (s.setPhase i task (.uninstalling read))
  | .installing read => some (s.replace i task (some read.kind))
  | .uninstalling _ => some (s.replace i task none)
  | .recording =>
    match s.gates[task.gate]? with
    | some free =>
      some { s.setPhase i task .ended with gates := advance s.gates task.gate (free + 1) }
    | none => none
  | .ended => none

/-- One step of an interleaving of the requests and the reloads. -/
def reloadsStep [DecidableEq Cid] (s : ReloadsState Cid) :
    ReloadsAction Cid → Option (ReloadsState Cid)
  | .request action =>
    match s.handler with
    | .idle => some (s.accept fetch action)
    | _ => none
  | .proceed succeeds => s.proceed fetch fetchNode succeeds
  | .abandon => some { s with handler := .idle }
  | .reload i outcome => s.reloads[i]?.bind (s.goOn fetch i · outcome)
  | .unregister name => some { s with live := Function.update s.live name none }

end Step

/-! ### What a reload does -/

namespace ReloadPhase

/-- The kind that a reload has read, until its plugin takes the place of the former one. -/
def reading : ReloadPhase Cid → Option (KindRead Cid)
  | .finding read | .saving read | .loading read _ | .installing read | .uninstalling read =>
    some read
  | .waiting | .resolving | .recording | .ended => none

/-- The kind with which a reload replaces a plugin in its next step. -/
def replacing : ReloadPhase Cid → Option (KindRead Cid)
  | .installing read | .uninstalling read => some read
  | _ => none

/-- A reload is still to read its kind. -/
def isUnread : ReloadPhase Cid → Bool
  | .waiting | .resolving => true
  | _ => false

/-- A reload has a permit. -/
def holds : ReloadPhase Cid → Bool
  | .waiting | .ended => false
  | _ => true

/-- How many steps a reload may still take. -/
def left : ReloadPhase Cid → ℕ
  | .waiting => 7
  | .resolving => 6
  | .finding _ => 5
  | .saving _ => 4
  | .loading _ _ => 3
  | .installing _ | .uninstalling _ => 2
  | .recording => 1
  | .ended => 0

theorem reading_of_replacing {phase : ReloadPhase Cid} {read : KindRead Cid}
    (h : phase.replacing = some read) : phase.reading = some read := by
  cases phase with
  | installing | uninstalling => exact h
  | _ => cases h

theorem isUnread_of_reading {phase : ReloadPhase Cid} {read : KindRead Cid}
    (h : phase.reading = some read) : phase.isUnread = false := by
  cases phase with
  | waiting | resolving => cases h
  | _ => rfl

end ReloadPhase

section Moves

variable {fetch : Cid → Except String (KindNode Cid)}
  {fetchNode : Cid → Except String (EntityNode Cid)} {s t : ReloadsState Cid}

/-- What a step of a reload does: it takes a permit, reads its kind, goes on with the kind it has
read, is given up, replaces a plugin, or ends and gives its permit back. -/
inductive ReloadMove (fetch : Cid → Except String (KindNode Cid)) (s : ReloadsState Cid) (i : ℕ)
    (task : ReloadTask Cid) : ReloadsState Cid → Prop
  | acquires (free : ℕ) (hphase : task.phase = .waiting)
      (hfree : s.gates[task.gate]? = some (free + 1)) :
      ReloadMove fetch s i task
        { s.setPhase i task .resolving with gates := advance s.gates task.gate free }
  | reads (kind : KindNode Cid) (succeeds : Bool) (hphase : task.phase = .resolving)
      (hkind : s.kinds.resolveForReload fetch task.protocol succeeds = some kind) :
      ReloadMove fetch s i task
        { s.setPhase i task (.finding ⟨kind, s.reads⟩) with reads := s.reads + 1 }
  | passes (read : KindRead Cid) (phase : ReloadPhase Cid)
      (hbefore : task.phase.reading = some read) (hafter : phase.reading = some read)
      (hleft : phase.left < task.phase.left) :
      ReloadMove fetch s i task (s.setPhase i task phase)
  | givesUp (hholds : task.phase.holds = true) (hleft : 1 < task.phase.left) :
      ReloadMove fetch s i task (s.giveUp i task)
  | replaces (read : KindRead Cid) (value : Option (KindNode Cid))
      (hphase : task.phase.replacing = some read)
      (hvalue : ∀ running, value = some running → running = read.kind) :
      ReloadMove fetch s i task (s.replace i task value)
  | ends (free : ℕ) (hphase : task.phase = .recording) (hfree : s.gates[task.gate]? = some free) :
      ReloadMove fetch s i task
        { s.setPhase i task .ended with gates := advance s.gates task.gate (free + 1) }

theorem reloadMove_of_goOn {i : ℕ} {task : ReloadTask Cid} {outcome : ReloadOutcome}
    (h : s.goOn fetch i task outcome = some t) : ReloadMove fetch s i task t := by
  unfold ReloadsState.goOn at h
  split at h
  · rename_i hphase
    split at h
    · rename_i free hfree
      obtain rfl := Option.some.inj h
      exact .acquires free hphase hfree
    · cases h
  · rename_i hphase
    split at h
    · rename_i kind hkind
      obtain rfl := Option.some.inj h
      exact .reads kind _ hphase hkind
    · obtain rfl := Option.some.inj h
      exact .givesUp (by rw [hphase]; rfl) (by simp [hphase, ReloadPhase.left])
  · rename_i read hphase
    split_ifs at h
    all_goals
      obtain rfl := Option.some.inj h
      exact .passes read _ (by rw [hphase]; rfl) rfl (by simp [hphase, ReloadPhase.left])
  · rename_i read hphase
    split_ifs at h
    · obtain rfl := Option.some.inj h
      exact .passes read _ (by rw [hphase]; rfl) rfl (by simp [hphase, ReloadPhase.left])
    · obtain rfl := Option.some.inj h
      exact .givesUp (by rw [hphase]; rfl) (by simp [hphase, ReloadPhase.left])
  · rename_i read hasCurrent hphase
    split_ifs at h
    all_goals
      obtain rfl := Option.some.inj h
      exact .passes read _ (by rw [hphase]; rfl) rfl (by simp [hphase, ReloadPhase.left])
  · rename_i read hphase
    obtain rfl := Option.some.inj h
    exact .replaces read _ (by rw [hphase]; rfl) fun _ hrunning ↦ (Option.some.inj hrunning).symm
  · rename_i read hphase
    obtain rfl := Option.some.inj h
    exact .replaces read _ (by rw [hphase]; rfl) fun _ hrunning ↦ (nomatch hrunning)
  · rename_i hphase
    split at h
    · rename_i free hfree
      obtain rfl := Option.some.inj h
      exact .ends free hphase hfree
    · cases h
  · cases h

theorem reloadMove_of_step [DecidableEq Cid] {i : ℕ} {outcome : ReloadOutcome}
    (h : reloadsStep fetch fetchNode s (.reload i outcome) = some t) :
    ∃ task, s.reloads[i]? = some task ∧ ReloadMove fetch s i task t := by
  obtain ⟨task, htask, hstep⟩ := Option.bind_eq_some_iff.mp h
  exact ⟨task, htask, reloadMove_of_goOn hstep⟩

/-- A reload leaves the kinds and the request in hand alone. -/
theorem ReloadMove.kinds {i : ℕ} {task : ReloadTask Cid} (h : ReloadMove fetch s i task t) :
    t.kinds = s.kinds ∧ t.handler = s.handler := by
  cases h
  all_goals exact ⟨rfl, rfl⟩

end Moves

/-! ### Requests -/

section Requests

variable (fetch : Cid → Except String (KindNode Cid))

/-- What the request in hand will have made of the kinds. -/
def ReloadsState.completed (s : ReloadsState Cid) : KindsState Cid :=
  match s.handler with
  | .idle | .spawning _ _ _ => s.kinds
  | .inserting protocol kindNode =>
    { s.kinds with
      registry := spawnKindDependencyReloadsFor fetch [protocol] s.kinds.manifest
        (s.kinds.registry.insert protocol kindNode) }
  | .removing protocol => { s.kinds with registry := s.kinds.registry.remove protocol }
  | .reading updated =>
    { s.kinds with
      registry :=
        spawnKindDependencyReloadsFor fetch updated s.kinds.manifest s.kinds.registry }
  | .hydrating _ rest =>
    { s.kinds with
      registry := hydrateAffectedKindRegistry fetch s.kinds.manifest
        (loadRawKindNodes fetch s.kinds.manifest) rest s.kinds.registry }

/-- The requests are carried out: what they read can be read, and none is dropped on its way. -/
def CarriedOut (s : ReloadsState Cid) : ReloadsAction Cid → Prop
  | .proceed succeeds => succeeds = true
  | .abandon => s.handler = .idle
  | _ => True

/-- The request that comes with a step. -/
def ReloadsAction.requested : ReloadsAction Cid → Option (KindsAction Cid)
  | .request action => some action
  | _ => none

variable {fetch} {fetchNode : Cid → Except String (EntityNode Cid)} {s t : ReloadsState Cid}

/-- A request that comes will have done what it does when it is carried out at once. -/
theorem completed_accept [DecidableEq Cid] (action : KindsAction Cid)
    (hidle : s.handler = .idle) :
    kindsStep fetch s.kinds action = some ((s.accept fetch action).completed fetch) := by
  have hunchanged : s.completed fetch = s.kinds := by
    unfold ReloadsState.completed
    rw [hidle]
  cases action with
  | update update =>
    cases update with
    | set path cid =>
      simp only [kindsStep, handleKindsNs, handleSet, ReloadsState.accept]
      cases setKind fetch s.kinds.manifest path cid with
      | ok result => rfl
      | error reason => exact congrArg some hunchanged.symm
    | overlay kinds =>
      simp only [kindsStep, handleKindsNs, applyKindsTree, ReloadsState.accept]
      cases applyKindsTreeOverlay fetch s.kinds.manifest kinds with
      | ok result =>
        obtain ⟨manifest, changedProtocols⟩ := result
        cases changedProtocols with
        | nil => rfl
        | cons changed rest => rfl
      | error reason => exact congrArg some hunchanged.symm
  | delete path =>
    simp only [kindsStep, handleKindsNs, handleDelete, ReloadsState.accept]
    cases s.kinds.manifest.kinds.getProtocol path.protocolId with
    | none => exact congrArg some hunchanged.symm
    | some link => rfl

/-- What the coming of a request leaves alone. The request has not come to the entities yet. -/
structure Comes (s t : ReloadsState Cid) : Prop where
  entities : t.kinds.manifest.entities = s.kinds.manifest.entities
  registry : t.kinds.registry = s.kinds.registry
  live : t.live = s.live
  gates : t.gates = s.gates
  reloads : t.reloads = s.reloads
  reads : t.reads = s.reads
  givenUp : t.givenUp = s.givenUp
  hydrating : ∀ affected rest, t.handler ≠ .hydrating affected rest
  spawning : ∀ affected gate names, t.handler ≠ .spawning affected gate names

theorem comes_accept [DecidableEq Cid] (action : KindsAction Cid) (hidle : s.handler = .idle) :
    Comes s (s.accept fetch action) := by
  have hsame : Comes s s :=
    ⟨rfl, rfl, rfl, rfl, rfl, rfl, rfl, by rw [hidle]; exact fun _ _ h ↦ (nomatch h),
      by rw [hidle]; exact fun _ _ _ h ↦ (nomatch h)⟩
  unfold ReloadsState.accept
  split
  · split
    · rename_i hset
      have hentities := congrArg RuntimeManifest.entities (setKind_eq_ok hset).1
      exact ⟨hentities, rfl, rfl, rfl, rfl, rfl, rfl, fun _ _ h ↦ (nomatch h),
        fun _ _ _ h ↦ (nomatch h)⟩
    · exact hsame
  · split
    · rename_i changedProtocols hoverlay
      have hentities := congrArg RuntimeManifest.entities (applyKindsTreeOverlay_eq_ok hoverlay).1
      refine ⟨hentities, rfl, rfl, rfl, rfl, rfl, rfl, fun _ _ h ↦ ?_, fun _ _ _ h ↦ ?_⟩
      all_goals
        dsimp only at h
        split_ifs at h
    · exact hsame
  · split
    · exact hsame
    · exact ⟨rfl, rfl, rfl, rfl, rfl, rfl, rfl, fun _ _ h ↦ (nomatch h),
        fun _ _ _ h ↦ (nomatch h)⟩

theorem spawnFor_kinds (s : ReloadsState Cid) (affected : List String) (gate : ℕ) (name : String) :
    (s.spawnFor fetchNode affected gate name).kinds = s.kinds := by
  unfold ReloadsState.spawnFor
  split
  · split_ifs
    · rfl
    · rfl
  · rfl

/-- What a request will have done does not change while it goes on. -/
theorem completed_proceed (h : s.proceed fetch fetchNode true = some t) :
    t.completed fetch = s.completed fetch := by
  unfold ReloadsState.proceed at h
  unfold ReloadsState.completed
  split at h
  · cases h
  · rename_i protocol kindNode hhandler
    obtain rfl := Option.some.inj h
    rw [hhandler]
  · rename_i protocol hhandler
    obtain rfl := Option.some.inj h
    rw [hhandler]
  · rename_i updated hhandler
    obtain rfl := Option.some.inj h
    rw [hhandler]
    rfl
  · rename_i affected protocol rest hhandler
    obtain rfl := Option.some.inj h
    rw [hhandler]
    rfl
  · rename_i affected hhandler
    obtain rfl := Option.some.inj h
    rw [hhandler]
    rfl
  · rename_i affected gate name rest hhandler
    obtain rfl := Option.some.inj h
    rw [hhandler]
    exact spawnFor_kinds s affected gate name
  · rename_i affected gate hhandler
    obtain rfl := Option.some.inj h
    rw [hhandler]

/-- A step that is no request leaves what the request in hand will have done. -/
theorem completed_step [DecidableEq Cid] {action : ReloadsAction Cid}
    (hcarried : CarriedOut s action) (h : reloadsStep fetch fetchNode s action = some t) :
    (∃ request, action.requested = some request ∧
        kindsStep fetch (s.completed fetch) request = some (t.completed fetch)) ∨
      action.requested = none ∧ t.completed fetch = s.completed fetch := by
  cases action with
  | request request =>
    simp only [reloadsStep] at h
    split at h
    · rename_i hidle
      obtain rfl := Option.some.inj h
      have hkinds : s.completed fetch = s.kinds := by
        unfold ReloadsState.completed
        rw [hidle]
      exact .inl ⟨request, rfl, hkinds ▸ completed_accept request hidle⟩
    · cases h
  | proceed succeeds =>
    obtain rfl : succeeds = true := hcarried
    exact .inr ⟨rfl, completed_proceed h⟩
  | abandon =>
    obtain rfl := Option.some.inj h
    refine .inr ⟨rfl, ?_⟩
    unfold ReloadsState.completed
    rw [show s.handler = .idle from hcarried]
  | reload i outcome =>
    obtain ⟨task, -, hmove⟩ := reloadMove_of_step h
    refine .inr ⟨rfl, ?_⟩
    unfold ReloadsState.completed
    rw [hmove.kinds.1, hmove.kinds.2]
  | unregister name =>
    obtain rfl := Option.some.inj h
    exact .inr ⟨rfl, rfl⟩

theorem completed_of_run [DecidableEq Cid] {actions : List (ReloadsAction Cid)}
    (h : GuardedRun (reloadsStep fetch fetchNode) CarriedOut s actions t) :
    Run (kindsStep fetch) (s.completed fetch) (actions.filterMap ReloadsAction.requested)
      (t.completed fetch) := by
  induction h with
  | nil s => exact .nil _
  | cons hcarried hstep _ ih =>
    rcases completed_step hcarried hstep with ⟨request, hrequest, hkinds⟩ | ⟨hnone, hkinds⟩
    · rw [List.filterMap_cons_some hrequest]
      exact .cons trivial hkinds ih
    · rw [List.filterMap_cons_none hnone, ← hkinds]
      exact ih

end Requests

/-! ### Permits -/

section Gates

variable {fetch : Cid → Except String (KindNode Cid)}
  {fetchNode : Cid → Except String (EntityNode Cid)} {s t : ReloadsState Cid}

/-- A reload has a permit of a gate. -/
def ReloadTask.holds (gate : ℕ) (task : ReloadTask Cid) : Bool :=
  decide (task.gate = gate) && task.phase.holds

/-- How many reloads have a permit of a gate. -/
def ReloadsState.held (s : ReloadsState Cid) (gate : ℕ) : ℕ :=
  s.reloads.countP (ReloadTask.holds gate)

/-- The permits of a gate are four, and each reload, of those that are still to be spawned too, has
a gate. -/
structure GatesKept (s : ReloadsState Cid) : Prop where
  permits : ∀ (gate free : ℕ), s.gates[gate]? = some free →
    free + s.held gate = maxConcurrentKindReloads
  gates : ∀ task ∈ s.reloads, task.gate < s.gates.length
  spawning : ∀ affected gate names, s.handler = .spawning affected gate names →
    gate < s.gates.length

theorem countP_holds (gate : ℕ) (task : ReloadTask Cid) :
    [task].countP (ReloadTask.holds gate) =
      if task.gate = gate then [task.phase].countP ReloadPhase.holds else 0 := by
  simp only [List.countP_singleton, ReloadTask.holds]
  split_ifs <;> simp_all

/-- The permits of all gates are four, before a step of a reload and after it, if those of its own
gate balance. -/
theorem GatesKept.advance {i free after : ℕ} {task : ReloadTask Cid} {phase : ReloadPhase Cid}
    (hs : GatesKept s) (htask : s.reloads[i]? = some task)
    (hfree : s.gates[task.gate]? = some free)
    (hbalance : after + [phase].countP ReloadPhase.holds =
      free + [task.phase].countP ReloadPhase.holds)
    (hgates : t.gates = Pools.advance s.gates task.gate after) (hhandler : t.handler = s.handler)
    (hreloads : t.reloads = Pools.advance s.reloads i { task with phase := phase }) :
    GatesKept t where
  permits gate left hleft := by
    have hcount := countP_advance (ReloadTask.holds gate) { task with phase := phase } htask
    rw [countP_holds, countP_holds, ← hreloads] at hcount
    dsimp only at hcount
    rw [hgates, getElem?_advance hfree] at hleft
    change left + t.reloads.countP _ = _
    by_cases hgate : task.gate = gate
    · subst hgate
      rw [if_pos rfl] at hleft
      obtain rfl := Option.some.inj hleft
      have hpermits := hs.permits _ _ hfree
      unfold ReloadsState.held at hpermits
      rw [if_pos rfl, if_pos rfl] at hcount
      omega
    · rw [if_neg hgate] at hleft
      have hpermits := hs.permits _ _ hleft
      unfold ReloadsState.held at hpermits
      rw [if_neg hgate, if_neg hgate] at hcount
      omega
  gates := by
    have hlength : t.gates.length = s.gates.length := hgates ▸ List.length_set
    rw [hlength, hreloads]
    exact forall_mem_advance hs.gates (hs.gates task (List.mem_of_getElem? htask))
  spawning affected gate names hspawning := by
    have hlength : t.gates.length = s.gates.length := hgates ▸ List.length_set
    rw [hlength]
    exact hs.spawning affected gate names (hhandler ▸ hspawning)

/-- A reload goes into a phase in which it has a permit exactly when it had one. -/
theorem GatesKept.setPhase {i : ℕ} {task : ReloadTask Cid} (phase : ReloadPhase Cid)
    (hs : GatesKept s) (htask : s.reloads[i]? = some task) (hholds : phase.holds = task.phase.holds)
    (hgates : t.gates = s.gates) (hhandler : t.handler = s.handler)
    (hreloads : t.reloads = Pools.advance s.reloads i { task with phase := phase }) :
    GatesKept t := by
  have hgate := hs.gates task (List.mem_of_getElem? htask)
  refine hs.advance htask (List.getElem?_eq_getElem hgate) ?_
    (hgates.trans (List.set_getElem_self hgate).symm) hhandler hreloads
  rw [List.countP_singleton, List.countP_singleton, hholds]

theorem GatesKept.reload {i : ℕ} {task : ReloadTask Cid} (hs : GatesKept s)
    (htask : s.reloads[i]? = some task) (h : ReloadMove fetch s i task t) : GatesKept t := by
  cases h with
  | acquires free hphase hfree =>
    refine hs.advance htask hfree ?_ rfl rfl rfl
    rw [hphase]
    rfl
  | reads kind succeeds hphase hkind =>
    exact hs.setPhase _ htask (by rw [hphase]; rfl) rfl rfl rfl
  | passes read phase hbefore hafter hleft =>
    have hholds {phase : ReloadPhase Cid} (h : phase.reading = some read) : phase.holds = true := by
      cases phase <;> first | rfl | cases h
    exact hs.setPhase _ htask ((hholds hafter).trans (hholds hbefore).symm) rfl rfl rfl
  | givesUp hholds hleft => exact hs.setPhase .recording htask hholds.symm rfl rfl rfl
  | replaces read value hphase hvalue =>
    have hholds : task.phase.holds = true := by
      cases hbefore : task.phase <;> first | rfl | (rw [hbefore] at hphase; cases hphase)
    exact hs.setPhase .recording htask hholds.symm rfl rfl rfl
  | ends free hphase hfree =>
    refine hs.advance htask hfree ?_ rfl rfl rfl
    rw [hphase]
    rfl

/-- The request in hand goes on without a gate, or a plugin is taken out of the registry. -/
theorem GatesKept.congr (hs : GatesKept s) (hgates : t.gates = s.gates)
    (hreloads : t.reloads = s.reloads)
    (hspawning : ∀ affected gate names, t.handler = .spawning affected gate names →
      gate < s.gates.length) : GatesKept t where
  permits gate free hfree := by
    unfold ReloadsState.held
    rw [hreloads]
    exact hs.permits gate free (hgates ▸ hfree)
  gates := by
    rw [hgates, hreloads]
    exact hs.gates
  spawning := by
    rw [hgates]
    exact hspawning

/-- No reload has a permit of a gate that is none. -/
theorem GatesKept.held_of_ge (hs : GatesKept s) {gate : ℕ} (h : s.gates.length ≤ gate) :
    s.held gate = 0 := by
  refine List.countP_eq_zero.mpr fun task htask hholds ↦ ?_
  obtain ⟨hgate, -⟩ := Bool.and_eq_true_iff.mp hholds
  have hlt := hs.gates task htask
  rw [of_decide_eq_true hgate] at hlt
  exact absurd h (Nat.not_le.mpr hlt)

theorem GatesKept.newGate (hs : GatesKept s) (affected names : List String) :
    GatesKept { s with
      gates := s.gates ++ [maxConcurrentKindReloads]
      handler := .spawning affected s.gates.length names } where
  permits gate free hfree := by
    rcases Nat.lt_or_ge gate s.gates.length with hlt | hge
    · exact hs.permits gate free ((List.getElem?_append_left hlt).symm.trans hfree)
    · rw [List.getElem?_append_right hge] at hfree
      obtain rfl := List.eq_of_mem_singleton (List.mem_of_getElem? hfree)
      exact congrArg (maxConcurrentKindReloads + ·) (hs.held_of_ge hge)
  gates task htask := by
    rw [List.length_append]
    exact Nat.lt_add_right _ (hs.gates task htask)
  spawning affected' gate names' h := by
    cases h
    rw [List.length_append]
    exact Nat.lt_succ_self _

/-- What the loop of the entities does at one of them: it spawns a reload, if the kind of the entity
is affected. -/
theorem spawnFor_cases (s : ReloadsState Cid) (affected : List String) (gate : ℕ)
    (name : String) :
    (∃ node, ((s.kinds.manifest.entities.get name).bind fun link ↦
          (fetchNode link.cid).toOption) = some node ∧ node.kind ∈ affected ∧
        s.spawnFor fetchNode affected gate name =
          { s with reloads := s.reloads ++ [⟨gate, name, node.kind, .waiting⟩] }) ∨
      (∀ node, ((s.kinds.manifest.entities.get name).bind fun link ↦
          (fetchNode link.cid).toOption) = some node → node.kind ∉ affected) ∧
        s.spawnFor fetchNode affected gate name = s := by
  unfold ReloadsState.spawnFor
  split
  · rename_i node hnode
    split_ifs with haffected
    · exact .inl ⟨node, hnode, haffected, rfl⟩
    · refine .inr ⟨fun other hother ↦ ?_, rfl⟩
      obtain rfl := Option.some.inj (hnode.symm.trans hother)
      exact haffected
  · rename_i hnone
    exact .inr ⟨fun node hnode ↦ (by cases hnone.symm.trans hnode), rfl⟩

theorem GatesKept.spawnFor (hs : GatesKept s) {affected : List String} {gate : ℕ} {name : String}
    {rest : List String} (hhandler : s.handler = .spawning affected gate (name :: rest)) :
    GatesKept { s.spawnFor fetchNode affected gate name with
      handler := .spawning affected gate rest } := by
  have hgate := hs.spawning _ _ _ hhandler
  rcases spawnFor_cases s affected gate name with ⟨node, -, -, hspawn⟩ | ⟨-, hspawn⟩
  · rw [hspawn]
    refine ⟨fun other free hfree ↦ ?_, ?_, fun _ _ _ h ↦ by cases h; exact hgate⟩
    · have hcount : (s.reloads ++ [(⟨gate, name, node.kind, .waiting⟩ : ReloadTask Cid)]).countP
          (ReloadTask.holds other) = s.held other := by
        rw [List.countP_append, countP_holds]
        split_ifs
        · rfl
        · rfl
      exact (congrArg (free + ·) hcount).trans (hs.permits other free hfree)
    · intro task htask
      rcases List.mem_append.mp htask with hmem | hmem
      · exact hs.gates task hmem
      · obtain rfl := List.eq_of_mem_singleton hmem
        exact hgate
  · rw [hspawn]
    exact hs.congr rfl rfl fun _ _ _ h ↦ by cases h; exact hgate

theorem GatesKept.proceed {succeeds : Bool} (hs : GatesKept s)
    (h : s.proceed fetch fetchNode succeeds = some t) : GatesKept t := by
  unfold ReloadsState.proceed at h
  split at h
  · cases h
  · obtain rfl := Option.some.inj h
    exact hs.congr rfl rfl fun _ _ _ h ↦ (nomatch h)
  · obtain rfl := Option.some.inj h
    exact hs.congr rfl rfl fun _ _ _ h ↦ (nomatch h)
  · split_ifs at h
    all_goals
      obtain rfl := Option.some.inj h
      exact hs.congr rfl rfl fun _ _ _ h ↦ (nomatch h)
  · obtain rfl := Option.some.inj h
    exact hs.congr rfl rfl fun _ _ _ h ↦ (nomatch h)
  · obtain rfl := Option.some.inj h
    exact hs.newGate _ _
  · rename_i affected gate name rest hhandler
    obtain rfl := Option.some.inj h
    exact hs.spawnFor hhandler
  · obtain rfl := Option.some.inj h
    exact hs.congr rfl rfl fun _ _ _ h ↦ (nomatch h)

variable [DecidableEq Cid]

theorem GatesKept.step {action : ReloadsAction Cid} (hs : GatesKept s)
    (h : reloadsStep fetch fetchNode s action = some t) : GatesKept t := by
  cases action with
  | request request =>
    simp only [reloadsStep] at h
    split at h
    · rename_i hidle
      obtain rfl := Option.some.inj h
      have hcomes : Comes s (s.accept fetch request) := comes_accept request hidle
      exact hs.congr hcomes.gates hcomes.reloads fun _ _ _ h ↦ absurd h (hcomes.spawning _ _ _)
    · cases h
  | proceed succeeds => exact hs.proceed h
  | abandon =>
    obtain rfl := Option.some.inj h
    exact hs.congr rfl rfl fun _ _ _ h ↦ (nomatch h)
  | reload i outcome =>
    obtain ⟨task, htask, hmove⟩ := reloadMove_of_step h
    exact hs.reload htask hmove
  | unregister name =>
    obtain rfl := Option.some.inj h
    exact hs.congr rfl rfl hs.spawning

/-! ### The end of all reloads -/

/-- The steps that the reloads may still take. -/
def ReloadsState.left (s : ReloadsState Cid) : ℕ :=
  (s.reloads.map fun task ↦ task.phase.left).sum

omit [DecidableEq Cid] in
theorem left_of_move {i : ℕ} {task : ReloadTask Cid} (htask : s.reloads[i]? = some task)
    (h : ReloadMove fetch s i task t) : t.left < s.left := by
  have hadvance (phase : ReloadPhase Cid) (hless : phase.left < task.phase.left)
      (hreloads : t.reloads = Pools.advance s.reloads i { task with phase := phase }) :
      t.left < s.left := by
    have hsum := sum_advance (fun task ↦ task.phase.left) { task with phase := phase } htask
    unfold ReloadsState.left
    rw [hreloads]
    dsimp only at hsum
    omega
  cases h with
  | acquires free hphase hfree =>
    exact hadvance _ (by rw [hphase]; exact Nat.lt_succ_self _) rfl
  | reads kind succeeds hphase hkind =>
    exact hadvance _ (by rw [hphase]; exact Nat.lt_succ_self _) rfl
  | passes read phase hbefore hafter hleft => exact hadvance _ hleft rfl
  | givesUp hholds hleft => exact hadvance .recording hleft rfl
  | replaces read value hphase hvalue =>
    refine hadvance .recording ?_ rfl
    cases hbefore : task.phase <;>
      first | exact Nat.lt_succ_self _ | (rw [hbefore] at hphase; cases hphase)
  | ends free hphase hfree => exact hadvance .ended (by rw [hphase]; exact Nat.lt_succ_self _) rfl

/-- A reload that has a permit can go on. -/
theorem exists_step_of_holds (hs : GatesKept s) {i : ℕ} {task : ReloadTask Cid}
    (htask : s.reloads[i]? = some task) (hholds : task.phase.holds = true)
    (outcome : ReloadOutcome) :
    (reloadsStep fetch fetchNode s (.reload i outcome)).isSome = true := by
  have hgate := hs.gates task (List.mem_of_getElem? htask)
  simp only [reloadsStep, htask, Option.bind_some, ReloadsState.goOn]
  cases hphase : task.phase with
  | waiting | ended =>
    rw [hphase] at hholds
    cases hholds
  | resolving =>
    dsimp only
    split
    · rfl
    · rfl
  | finding read | saving read | loading read hasCurrent =>
    dsimp only
    split_ifs
    · rfl
    · rfl
  | installing read | uninstalling read => rfl
  | recording => simp only [List.getElem?_eq_getElem hgate, Option.isSome_some]

/-- A reload that waits can go on when none has a permit of its gate. -/
theorem exists_step_of_waiting (hs : GatesKept s) {i : ℕ} {task : ReloadTask Cid}
    (htask : s.reloads[i]? = some task) (hphase : task.phase = .waiting)
    (hnone : ∀ holder ∈ s.reloads, holder.phase.holds = false) (outcome : ReloadOutcome) :
    (reloadsStep fetch fetchNode s (.reload i outcome)).isSome = true := by
  have hgate := hs.gates task (List.mem_of_getElem? htask)
  have hfree := hs.permits _ _ (List.getElem?_eq_getElem hgate)
  have hheld : s.held task.gate = 0 := by
    refine List.countP_eq_zero.mpr fun holder hmem hholds ↦ ?_
    obtain ⟨-, hholder⟩ := Bool.and_eq_true_iff.mp hholds
    rw [hnone holder hmem] at hholder
    cases hholder
  rw [hheld, Nat.add_zero] at hfree
  simp only [reloadsStep, htask, Option.bind_some, ReloadsState.goOn, hphase,
    List.getElem?_eq_getElem hgate, hfree, maxConcurrentKindReloads, Option.isSome_some]

/-- All reloads can go on to their end. -/
theorem exists_end_of_reloads (hs : GatesKept s) :
    ∃ actions t, Run (reloadsStep fetch fetchNode) s actions t ∧
      (∀ action ∈ actions, ∃ i outcome, action = .reload i outcome) ∧
      ∀ task ∈ t.reloads, task.phase = .ended := by
  have hstep (s : ReloadsState Cid) (hs : GatesKept s)
      (hends : ¬∀ task ∈ s.reloads, task.phase = .ended) :
      ∃ action t, (∃ i outcome, action = .reload i outcome) ∧
        reloadsStep fetch fetchNode s action = some t ∧ GatesKept t ∧ t.left < s.left := by
    obtain ⟨i, henabled⟩ :
        ∃ i, (reloadsStep fetch fetchNode s (.reload i ⟨true, .running⟩)).isSome = true := by
      by_cases hheld : ∃ holder ∈ s.reloads, holder.phase.holds = true
      · obtain ⟨holder, hmem, hholds⟩ := hheld
        obtain ⟨i, hi⟩ := List.mem_iff_getElem?.mp hmem
        exact ⟨i, exists_step_of_holds hs hi hholds _⟩
      · have hnone : ∀ holder ∈ s.reloads, holder.phase.holds = false := fun holder hmem ↦
          Bool.eq_false_iff.mpr fun hholds ↦ hheld ⟨holder, hmem, hholds⟩
        obtain ⟨task, hmem, hnot⟩ : ∃ task ∈ s.reloads, task.phase ≠ .ended := by
          simpa using hends
        obtain ⟨i, hi⟩ := List.mem_iff_getElem?.mp hmem
        have hwaiting : task.phase = .waiting := by
          have hfree := hnone task hmem
          cases hphase : task.phase <;> first | rfl | (rw [hphase] at hfree hnot; contradiction)
        exact ⟨i, exists_step_of_waiting hs hi hwaiting hnone _⟩
    obtain ⟨t, hnext⟩ := Option.isSome_iff_exists.mp henabled
    obtain ⟨task, htask, hmove⟩ := reloadMove_of_step hnext
    exact ⟨_, t, ⟨i, _, rfl⟩, hnext, hs.step hnext, left_of_move htask hmove⟩
  obtain ⟨actions, t, hrun, hreloads, -, hended⟩ := exists_run_of_decreases GatesKept
    (fun s ↦ ∀ task ∈ s.reloads, task.phase = .ended)
    (fun action : ReloadsAction Cid ↦ ∃ i outcome, action = .reload i outcome)
    ReloadsState.left hs hstep
  exact ⟨actions, t, hrun, hreloads, hended⟩

/-- No more than four reloads of a request have a permit at a time, and from every state all reloads
can go on to their end. -/
theorem gates_of_run {kinds : KindsState Cid} {live : String → Option (KindNode Cid)}
    {actions : List (ReloadsAction Cid)}
    (h : Run (reloadsStep fetch fetchNode) (.start kinds live) actions s) :
    (∀ gate, s.held gate ≤ maxConcurrentKindReloads) ∧
      ∃ more t, Run (reloadsStep fetch fetchNode) s more t ∧
        (∀ action ∈ more, ∃ i outcome, action = .reload i outcome) ∧
        ∀ task ∈ t.reloads, task.phase = .ended := by
  have hs : GatesKept s := by
    refine h.invariant GatesKept (fun _ _ _ hs _ hstep ↦ hs.step hstep) ⟨?_, ?_, ?_⟩
    · exact fun gate free hfree ↦ (nomatch hfree)
    · exact fun task htask ↦ (nomatch htask)
    · exact fun _ _ _ hspawning ↦ (nomatch hspawning)
  refine ⟨fun gate ↦ ?_, exists_end_of_reloads hs⟩
  by_cases hgate : gate < s.gates.length
  · have hpermits := hs.permits _ _ (List.getElem?_eq_getElem hgate)
    omega
  · have hnone := hs.held_of_ge (Nat.not_lt.mp hgate)
    omega

end Gates

/-! ### A kind that is linked -/

def isCarriedOut : ReloadsAction ℕ → Bool
  | .proceed succeeds => succeeds
  | .abandon => false
  | _ => true

theorem carriedOut_of_isCarriedOut {s : ReloadsState ℕ} {action : ReloadsAction ℕ}
    (h : isCarriedOut action = true) : CarriedOut s action := by
  cases action with
  | proceed succeeds => exact h
  | abandon => cases h
  | request | reload | unregister => trivial

/-- A step that is carried out, beside one reload at most. -/
def isSingle (s : ReloadsState ℕ) (action : ReloadsAction ℕ) : Bool :=
  isCarriedOut action && decide (s.reloads.length ≤ 1)

/-- A lamp, of the kind at the path of the base. -/
def fetchLamp : ℕ → Except String (EntityNode ℕ)
  | 7 => .ok ⟨basePath.protocolId, none, "", none, none, none, .empty, none, true, none⟩
  | _ => .error "not found"

def lampManifest : RuntimeManifest ℕ := { RuntimeManifest.default with
  entities := .ofEntries [("lamp", ⟨7⟩)] }

/-- The kind of the lamp is linked, and its reload runs to its end. -/
def lampReloads : List (ReloadsAction ℕ) :=
  .request (.update (.set basePath 0)) :: List.replicate 7 (.proceed true) ++
    List.replicate 6 (.reload 0 ⟨true, .running⟩)

def lampStart : ReloadsState ℕ := .start (.start fetchKind lampManifest) fun _ ↦ none

/-- What is seen of a state: whether the request is through, the steps that the reloads may still
take, the entities of which one was given up, the kind of the lamp, and the behaviours of the kind
that the registry has and of the one that runs. -/
structure LampSeen where
  isIdle : Bool
  left : List ℕ
  givenUp : List String
  protocol : Option String
  registered : Option (Option (IpldLink ℕ))
  running : Option (Option (IpldLink ℕ))
deriving DecidableEq

def KindsHandler.isIdle : KindsHandler Cid → Bool
  | .idle => true
  | _ => false

def lampSeen (s : ReloadsState ℕ) : LampSeen where
  isIdle := s.handler.isIdle
  left := s.reloads.map fun task ↦ task.phase.left
  givenUp := s.givenUp
  protocol := entityKind fetchLamp s.kinds.manifest "lamp"
  registered := (s.kinds.registry.get basePath.protocolId).map fun kind ↦ kind.behaviour
  running := (s.live "lamp").map fun kind ↦ kind.behaviour

theorem handler_of_isIdle {handler : KindsHandler Cid} (h : handler.isIdle = true) :
    handler = .idle := by
  cases handler with
  | idle => rfl
  | _ => cases h

theorem ended_of_left {s : ReloadsState ℕ} (h : ∀ left ∈ (lampSeen s).left, left = 0) :
    ∀ task ∈ s.reloads, task.phase = .ended := by
  intro task htask
  have hleft : task.phase.left = 0 := h _ (List.mem_map.mpr ⟨task, htask, rfl⟩)
  cases hphase : task.phase <;> first | rfl | (rw [hphase] at hleft; cases hleft)

/-- The request and the reload are through, and the lamp runs with its kind. -/
def lampReloaded : LampSeen :=
  ⟨true, [0], [], some basePath.protocolId, some none, some none⟩

theorem exists_lampReloads :
    ∃ s, GuardedRun (reloadsStep fetchKind fetchLamp) (fun s action ↦ isSingle s action = true)
      lampStart lampReloads s ∧ lampSeen s = lampReloaded := by
  have hseen : (execute (fun s a ↦
      if isSingle s a then reloadsStep fetchKind fetchLamp s a else none)
      lampStart lampReloads).map lampSeen = some lampReloaded := by decide +kernel
  obtain ⟨s, hexecute, hs⟩ := Option.map_eq_some_iff.mp hseen
  exact ⟨s, guardedRun_of_execute (fun _ _ h ↦ h) hexecute, hs⟩

theorem gates_of_run_lamp :
    ∃ s, Run (reloadsStep fetchKind fetchLamp) lampStart lampReloads s ∧
      (∀ gate, s.held gate ≤ maxConcurrentKindReloads) ∧
      ∃ more t, Run (reloadsStep fetchKind fetchLamp) s more t ∧
        (∀ action ∈ more, ∃ i outcome, action = .reload i outcome) ∧
        ∀ task ∈ t.reloads, task.phase = .ended := by
  obtain ⟨s, hrun, -⟩ := exists_lampReloads
  exact ⟨s, hrun.run, gates_of_run hrun.run⟩

end MaRuntime.Kinds
