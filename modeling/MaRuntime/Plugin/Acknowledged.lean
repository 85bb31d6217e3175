import MaRuntime.Plugin.LastState

/-!
# Acknowledged means linked

A worker that is told `MarkSaved` drops the bytes from its pending state, and no later save will ask
for them again. So the manifest should link the bytes that were last acknowledged whenever nothing
is pending and no save is in progress (`AcknowledgedLinked`), also after saves that failed halfway.

The machine is a daemon with its entities, the savers of each, and `save_all_entity_states`, which
visits the entities under the manifest writer's lock, stages what each saves, and publishes it in
one update or not at all. Every call of Kubo and every update of the manifest may fail.

The property holds after every run whose steps meet `KeepsAcknowledged` (`acknowledged_linked`): a
saver that was acknowledged does not fail before its link, and links of older bytes and
acknowledgments come while newer bytes are pending or held. After a step that does not meet it, some
entity's persisted bytes are neither linked nor held, and none are pending (`kept_iff_guardedRun`).
The direct savers acknowledge before they link, so a failure of the manifest update loses the state
(`acknowledged_not_linked`).

Main definitions: `Daemon`, `daemonStep`, `AcknowledgedLinked`, `KeepsAcknowledged`.
Main results: `acknowledged_linked`, `kept_iff_guardedRun`, `acknowledged_not_linked`.

Scope. Loads and reloads replace the entity that is described here; an entity starts with the state
its node links, or without a link.
-/

set_option autoImplicit false
set_option relaxedAutoImplicit false

namespace MaRuntime.Plugin

open Runs Manifest WriteBack

variable {Cid : Type}

/-! ### The daemon -/

/-- What the saves read of an entity and no save changes. -/
structure EntityProfile where
  native : Bool
  stateful : Bool
  inManifest : Bool
deriving DecidableEq

/-- A run of `save_all_entity_states`: between two entities, at an entity with the saver of its
state if it is stateful, or at its end. The savers whose states are staged wait for the update. -/
inductive SaveAll
  | visiting (remaining : List String) (staged : List (String × Nat))
  | saving (name : String) (saver : Option Nat) (remaining : List String)
      (staged : List (String × Nat))
  | concluding (staged : List (String × Nat)) (succeeds : Bool)

/-- The entities of a daemon, and the run of `save_all_entity_states` that holds the
writer's lock. -/
structure Daemon (Cid : Type) where
  entities : String → EntityState Cid
  saveAll : Option SaveAll

/-- The steps of a daemon: a step of an entity, and those of `save_all_entity_states`, which
begins with the names in the registry, comes to the next entity, puts its node, and updates
the manifest. -/
inductive DaemonAction
  | entity (name : String) (action : EntityAction)
  | startSaveAll (names : List String)
  | visit (nodeFetched : Bool) (id : Nat)
  | stage (nodePut : Bool)
  | publish (succeeds : Bool)
  | conclude

section Machine

variable (store : Store Cid) (profile : String → EntityProfile)

/-- A daemon whose entities were just loaded. -/
def Daemon.start (initState : String → Bytes) (signals : String → List GuestCall)
    (link : String → Option Cid) : Daemon Cid where
  entities name := ⟨.load name (initState name) (signals name), link name⟩
  saveAll := none

def Daemon.setEntity (d : Daemon Cid) (name : String) (s : EntityState Cid) : Daemon Cid :=
  { d with entities := Function.update d.entities name s }

/-- Whether an entity may take a step: a saver that updates the manifest has to have the writer's
lock, and finds only an entity that the manifest has. -/
def Daemon.enables (d : Daemon Cid) (name : String) : EntityAction → Bool
  | .advance id succeeds =>
    match (d.entities name).plugin.savers id with
    | .loopLink _ | .link _ => d.saveAll.isNone && (!succeeds || (profile name).inManifest)
    | _ => true
  | _ => true

/-- The staged savers link what they hold, or give it up. -/
def Daemon.conclude (d : Daemon Cid) (staged : List (String × Nat)) (succeeds : Bool) :
    Daemon Cid where
  entities name :=
    match staged.lookup name with
    | some id => (advance store (d.entities name) id succeeds).getD (d.entities name)
    | none => d.entities name
  saveAll := none

/-- At an entity whose state is saved, or who has none to save, the node is put with the state
staged. A saver that failed and a node that is not put end the run. -/
def SaveAll.stage (savers : String → Nat → Saver) (nodePut : Bool) : SaveAll → Option SaveAll
  | .saving name (some id) remaining staged =>
    match savers name id with
    | .link _ =>
      let staged := (name, id) :: staged
      if nodePut then some (.visiting remaining staged) else some (.concluding staged false)
    | .ended true =>
      if nodePut then some (.visiting remaining staged) else some (.concluding staged false)
    | .ended false => some (.concluding staged false)
    | _ => none
  | .saving _ none remaining staged =>
    if nodePut then some (.visiting remaining staged) else some (.concluding staged false)
  | .visiting _ _ | .concluding _ _ => none

/-- One step of an interleaving of the entities and of `save_all_entity_states`. -/
def daemonStep (d : Daemon Cid) : DaemonAction → Option (Daemon Cid)
  | .entity name action =>
    if d.enables profile name action then
      (entityStep store (d.entities name) action).map fun s ↦ d.setEntity name s
    else none
  | .startSaveAll names =>
    match d.saveAll with
    | none => if names.Nodup then some { d with saveAll := some (.visiting names []) } else none
    | some _ => none
  | .visit nodeFetched id =>
    match d.saveAll with
    | some (.visiting (name :: remaining) staged) =>
      let nativeStateless := (profile name).native && !(profile name).stateful
      if nativeStateless || !(profile name).inManifest || !nodeFetched then
        some { d with saveAll := some (.visiting remaining staged) }
      else if (profile name).stateful then
        (entityStep store (d.entities name) (.save .gracefulShutdownSave id)).map fun s ↦
          { d.setEntity name s with saveAll := some (.saving name (some id) remaining staged) }
      else some { d with saveAll := some (.saving name none remaining staged) }
    | _ => none
  | .stage nodePut =>
    (d.saveAll.bind (SaveAll.stage (fun name id ↦ (d.entities name).plugin.savers id) nodePut)).map
      fun saveAll ↦ { d with saveAll := some saveAll }
  | .publish succeeds =>
    match d.saveAll with
    | some (.visiting [] staged) => some { d with saveAll := some (.concluding staged succeeds) }
    | _ => none
  | .conclude =>
    match d.saveAll with
    | some (.concluding staged succeeds) => some (d.conclude store staged succeeds)
    | _ => none

/-! ### The property and the condition -/

/-- When no save of an entity is in progress, the manifest links its persisted bytes unless others
are pending or nothing was ever saved; and what was acknowledged without a link is followed by bytes
that the next save finds pending. -/
structure AcknowledgedLinked (s : EntityState Cid) : Prop where
  linked : (∀ id, (s.plugin.savers id).inProgress = false) →
    s.plugin.thread.state.pending = none →
    ∀ bytes, s.plugin.thread.state.persisted = some bytes →
      s.link = some (stateCid store bytes) ∨
        (s.plugin.thread.acknowledged = false ∧ s.link = none)
  repeated : (∀ id, (s.plugin.savers id).inProgress = false) →
    s.plugin.thread.acknowledged = true →
    ∀ bytes, s.plugin.thread.state.persisted = some bytes → s.link ≠ some (stateCid store bytes) →
      ∀ guest reply, ∃ next, (serve s.plugin.thread guest (.takePending reply)).2 =
        some (.pending reply (.ok (some next)))

/-- The condition on a step of one entity: no saver fails with bytes that were acknowledged, or
links others than the persisted ones, and no bytes are acknowledged, but while the persisted bytes
are linked or held by another saver, or newer ones are pending. -/
def KeepsPersistedState (s : EntityState Cid) (action : EntityAction) : Prop :=
  s.cell.KeepsPersisted (stateCid store) (entityEvent s action)

/-- The condition on a step of the daemon. -/
def KeepsAcknowledged (d : Daemon Cid) : DaemonAction → Prop
  | .entity name action => KeepsPersistedState store (d.entities name) action
  | .conclude => ∀ staged succeeds, d.saveAll = some (.concluding staged succeeds) →
      ∀ name id, staged.lookup name = some id →
        KeepsPersistedState store (d.entities name) (.advance id succeeds)
  | _ => True

end Machine

variable {store : Store Cid} {profile : String → EntityProfile}

/-! ### Steps -/

/-- Every entity of a daemon keeps its persisted bytes. -/
def Daemon.Kept (store : Store Cid) (d : Daemon Cid) : Prop :=
  ∀ name, (d.entities name).cell.PersistedKept (stateCid store)

theorem persistedKept_entityStep {s t : EntityState Cid} {action : EntityAction}
    (hs : s.cell.PersistedKept (stateCid store)) (hkeeps : KeepsPersistedState store s action)
    (h : entityStep store s action = some t) : t.cell.PersistedKept (stateCid store) :=
  hs.step hkeeps (entityStep_effect h)

theorem Daemon.Kept.setEntity {d : Daemon Cid} (hd : d.Kept store) {name : String}
    {s : EntityState Cid} (hs : s.cell.PersistedKept (stateCid store)) :
    (d.setEntity name s).Kept store := by
  intro other
  by_cases hsame : other = name
  · subst hsame
    simpa only [Daemon.setEntity, Function.update_self] using hs
  · simpa only [Daemon.setEntity, Function.update_of_ne hsame] using hd other

theorem Daemon.Kept.conclude {d : Daemon Cid} (hd : d.Kept store) {staged : List (String × Nat)}
    {succeeds : Bool}
    (hkeeps : ∀ name id, staged.lookup name = some id →
      KeepsPersistedState store (d.entities name) (.advance id succeeds)) :
    (d.conclude store staged succeeds).Kept store := by
  intro name
  simp only [Daemon.conclude]
  split
  · rename_i id hstaged
    cases hadvance : advance store (d.entities name) id succeeds with
    | none => exact hd name
    | some s => exact persistedKept_entityStep (hd name) (hkeeps name id hstaged) hadvance
  · exact hd name

/-- A step that meets the condition keeps the persisted bytes of every entity. -/
theorem Daemon.Kept.step {d t : Daemon Cid} {action : DaemonAction} (hd : d.Kept store)
    (hkeeps : KeepsAcknowledged store d action) (h : daemonStep store profile d action = some t) :
    t.Kept store := by
  cases action with
  | entity name action =>
    simp only [daemonStep] at h
    split at h
    · obtain ⟨s, hstep, rfl⟩ := Option.map_eq_some_iff.mp h
      exact hd.setEntity (persistedKept_entityStep (hd name) hkeeps hstep)
    · cases h
  | startSaveAll names =>
    simp only [daemonStep] at h
    split at h
    · split_ifs at h
      obtain rfl := Option.some.inj h
      exact hd
    · cases h
  | visit nodeFetched id =>
    simp only [daemonStep] at h
    split at h
    · rename_i name remaining staged _
      split_ifs at h
      · obtain rfl := Option.some.inj h
        exact hd
      · obtain ⟨s, hstep, rfl⟩ := Option.map_eq_some_iff.mp h
        have hsave : KeepsPersistedState store (d.entities name) (.save .gracefulShutdownSave id) :=
          trivial
        exact hd.setEntity (persistedKept_entityStep (hd name) hsave hstep)
      · obtain rfl := Option.some.inj h
        exact hd
    · cases h
  | stage nodePut =>
    obtain ⟨saveAll, -, rfl⟩ := Option.map_eq_some_iff.mp h
    exact hd
  | publish succeeds =>
    simp only [daemonStep] at h
    split at h
    · obtain rfl := Option.some.inj h
      exact hd
    · cases h
  | conclude =>
    simp only [daemonStep] at h
    split at h
    · rename_i staged succeeds hsaveAll
      obtain rfl := Option.some.inj h
      exact hd.conclude (hkeeps staged succeeds hsaveAll)
    · cases h

/-- A saver that has no next step does nothing. -/
theorem keepsPersistedState_of_advance_eq_none {s : EntityState Cid} {id : Nat} {succeeds : Bool}
    (h : advance store s id succeeds = none) :
    KeepsPersistedState store s (.advance id succeeds) := by
  have hevent : entityEvent s (.advance id succeeds) = .work := by
    unfold advance at h
    cases hsaver : s.plugin.savers id with
    | loopAdd | loopLink | add | link =>
      rw [hsaver] at h
      dsimp only at h
      split_ifs at h
    | idle | loopMark | loopAsk | loopAwait | loopClear | finalAsk | finalAwait | respawn | ask | await
    | mark | ended => simp only [entityEvent, hsaver]
  rw [KeepsPersistedState, hevent]
  trivial

/-- A step after which every entity keeps its persisted bytes meets the condition. -/
theorem keepsAcknowledged_of_kept {d t : Daemon Cid} {action : DaemonAction}
    (h : daemonStep store profile d action = some t) (ht : t.Kept store) :
    KeepsAcknowledged store d action := by
  cases action with
  | entity name action =>
    simp only [daemonStep] at h
    split at h
    · obtain ⟨s, hstep, rfl⟩ := Option.map_eq_some_iff.mp h
      have hs : s.cell.PersistedKept (stateCid store) := by
        simpa only [Daemon.setEntity, Function.update_self] using ht name
      exact hs.keepsPersisted (stateCid_injective store) (entityStep_effect hstep)
    · cases h
  | conclude =>
    intro staged succeeds hsaveAll name id hstaged
    simp only [daemonStep, hsaveAll] at h
    obtain rfl := Option.some.inj h
    have hs := ht name
    simp only [Daemon.conclude, hstaged] at hs
    cases hadvance : advance store (d.entities name) id succeeds with
    | none => exact keepsPersistedState_of_advance_eq_none hadvance
    | some s =>
      simp only [hadvance, Option.getD_some] at hs
      exact hs.keepsPersisted (stateCid_injective store) (advance_effect hadvance)
  | startSaveAll | visit | stage | publish => trivial

/-! ### Runs -/

/-- An entity that was just loaded from the state its node links, or without one, keeps it. -/
theorem persistedKept_load (fragment : String) (initState : Bytes) (signals : List GuestCall)
    {link : Option Cid} (hlink : link = none ∨ link = some (stateCid store initState)) :
    (⟨.load fragment initState signals, link⟩ : EntityState Cid).cell.PersistedKept
      (stateCid store) := by
  have hqueues := queuesOnly_signals (buildWasmPlugin fragment initState) signals
  intro _ bytes hbytes
  obtain rfl := Option.some.inj (hqueues.persisted.symm.trans hbytes)
  rcases hlink with hnone | hsome
  · exact .inr (.inr ⟨hqueues.acknowledged, hnone⟩)
  · exact .inl hsome

theorem acknowledgedLinked_of_persistedKept {s : EntityState Cid}
    (hs : s.cell.PersistedKept (stateCid store)) : AcknowledgedLinked store s where
  linked := by
    intro hsavers hpending bytes hbytes
    exact hs.linked hpending (fun id ↦ Saver.hand_of_not_inProgress (hsavers id)) hbytes
  repeated := by
    intro hsavers hacknowledged bytes hbytes hlink guest reply
    cases hpending : s.plugin.thread.state.pending with
    | some next =>
      refine ⟨next, ?_⟩
      simp only [serve, hpending]
    | none =>
      have hheld (id : Nat) := Saver.hand_of_not_inProgress (hsavers id)
      rcases hs.linked hpending hheld hbytes with hlinked | ⟨hnothing, -⟩
      · exact absurd hlinked hlink
      · exact nomatch hacknowledged.symm.trans hnothing

/-- In every state of a run each entity's persisted bytes are linked, held by a saver or followed by
pending ones, if and only if the steps of the run meet the condition. -/
theorem kept_iff_guardedRun {initState : String → Bytes} {signals : String → List GuestCall}
    {link : String → Option Cid} {actions : List DaemonAction} {d : Daemon Cid}
    (hlink : ∀ name, link name = none ∨ link name = some (stateCid store (initState name)))
    (h : Run (daemonStep store profile) (.start initState signals link) actions d) :
    (∀ before after t, actions = before ++ after →
      Run (daemonStep store profile) (.start initState signals link) before t → t.Kept store) ↔
    GuardedRun (daemonStep store profile) (KeepsAcknowledged store) (.start initState signals link)
      actions d :=
  guardedRun_iff_forall_prefix _ h
    (fun name ↦ persistedKept_load name (initState name) (signals name) (hlink name))
    (fun _ _ _ hd hkeeps hstep ↦ hd.step hkeeps hstep)
    fun _ _ _ _ hstep ht ↦ keepsAcknowledged_of_kept hstep ht

/-- Assumes: every entity starts with the state its node links, or with a node that links none, and
every step of the run meets `KeepsAcknowledged`. Then for every entity acknowledged means linked. -/
theorem acknowledged_linked {initState : String → Bytes} {signals : String → List GuestCall}
    {link : String → Option Cid} {actions : List DaemonAction} {d : Daemon Cid}
    (hlink : ∀ name, link name = none ∨ link name = some (stateCid store (initState name)))
    (h : GuardedRun (daemonStep store profile) (KeepsAcknowledged store)
      (.start initState signals link) actions d) (name : String) :
    AcknowledgedLinked store (d.entities name) := by
  have hkept : d.Kept store :=
    h.invariant (Daemon.Kept store) (fun _ _ _ hd hguard hstep ↦ hd.step hguard hstep)
      fun name ↦ persistedKept_load name (initState name) (signals name) (hlink name)
  exact acknowledgedLinked_of_persistedKept (hkept name)

/-- A daemon with stateful entities that have no state yet. -/
def freshDaemon : Daemon ContentCid := .start (fun _ ↦ []) (fun _ ↦ []) (fun _ ↦ none)

/-- Stateful entities of the manifest. -/
def statefulProfile : String → EntityProfile := fun _ ↦ ⟨false, true, true⟩

/-- A dispatch that queues a state, and a shutdown that saves it. -/
def shutdownActions : List DaemonAction :=
  [.entity "room" .send, .entity "room" (.work (setsState [1])), .startSaveAll ["room"],
    .visit true 0,
    .entity "room" (.advance 0 true), .entity "room" (.work doesNothing),
    .entity "room" (.advance 0 true), .entity "room" (.advance 0 true),
    .entity "room" (.work doesNothing), .stage true, .publish true, .conclude]

/-- A shutdown that saves what an entity has pending. -/
theorem acknowledged_linked_shutdown :
    ∃ d, GuardedRun (daemonStep contentStore statefulProfile) (KeepsAcknowledged contentStore)
        freshDaemon shutdownActions d ∧
      (d.entities "room").link = some (stateCid contentStore [1]) ∧
      ∀ name, AcknowledgedLinked contentStore (d.entities name) := by
  have hend : ∃ d, GuardedRun (daemonStep contentStore statefulProfile)
      (KeepsAcknowledged contentStore) freshDaemon shutdownActions d ∧
        (d.entities "room").link = some (stateCid contentStore [1]) := by
    refine ⟨_, .cons trivial rfl <| .cons trivial rfl <| .cons trivial rfl <| .cons trivial rfl <|
      .cons trivial rfl <| .cons trivial rfl <| .cons trivial rfl <| .cons trivial rfl <|
      .cons (fun _ ↦ .inr ⟨0, rfl⟩) rfl <| .cons trivial rfl <| .cons trivial rfl <|
      .cons ?_ rfl <| .nil _, rfl⟩
    intro staged succeeds hsaveAll name id hstaged
    cases hsaveAll
    have hname : name = "room" := by
      by_contra hname
      rw [List.lookup_cons, beq_false_of_ne hname] at hstaged
      cases hstaged
    subst hname
    obtain rfl : 0 = id := Option.some.inj hstaged
    intro _ persisted hpersisted
    exact .inl (Option.some.inj hpersisted).symm
  obtain ⟨d, hrun, hlink⟩ := hend
  exact ⟨d, hrun, hlink, acknowledged_linked (fun _ ↦ .inl rfl) hrun⟩

/-- A reload whose `:shutdown` hook queues a state: the state is acknowledged, the update of the
manifest fails, and the entity goes on with nothing pending and nothing linked. -/
theorem acknowledged_not_linked :
    ∃ d, Run (daemonStep contentStore statefulProfile) freshDaemon
        [.entity "room" (.save .prepareReloadSave 0), .entity "room" (.advance 0 true),
          .entity "room" (.work (setsState [1])), .entity "room" (.advance 0 true),
          .entity "room" (.advance 0 true), .entity "room" (.work doesNothing),
          .entity "room" (.advance 0 false)] d ∧
      (d.entities "room").plugin.alive = true ∧
      ¬AcknowledgedLinked contentStore (d.entities "room") := by
  refine ⟨_, run_of_execute rfl, rfl, fun hlinked ↦ ?_⟩
  have hsavers := hlinked.linked (fun | 0 => rfl | _ + 1 => rfl) rfl [1] rfl
  rcases hsavers with hlink | ⟨hacknowledged, -⟩
  · cases hlink
  · cases hacknowledged

end MaRuntime.Plugin
