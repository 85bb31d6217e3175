import MaRuntime.Plugin.LastState

/-!
# Reloads and states

A reload has the current entity save its state, reads the node again, loads a replacement from the
state that the node links, saves what the replacement queued while it was loaded, puts the
replacement into the registry, ends the current entity's worker, and links the replacement's saved
state at last. The current entity and its savers go on meanwhile, and so do the replacement and its
savers once it is in the registry.

No state is lost (`ReloadKeepsStates`) in the runs whose steps meet `ReadsLastState`: the node that
is read links the last state of the current entity, the current entity queues nothing afterwards,
and until the reload completes the replacement's savers link nothing but the state that the reload
is to link (`reload_keepsStates`). The load takes its time, and a dispatch in it queues a state that
is lost (`reload_loses_state`).

Main definitions: `ReloadPhase`, `reloadStep`, `ReloadKeepsStates`, `ReadsLastState`.
Main results: `reload_keepsStates`, `reload_loses_state`.

Scope. The entity is a stateful one of the manifest, and the replacement loads as running; loads
that fail are tried again with the same node. A reload whose first save fails is abandoned, and the
current entity stays.
-/

set_option autoImplicit false
set_option relaxedAutoImplicit false

namespace MaRuntime.Plugin

open Runs Manifest WriteBack

variable {Cid : Type}

/-! ### The machine -/

/-- Where a reload stands: the current entity's save, the load from the state that was read, the
replacement's save, the registry, and the end. -/
inductive ReloadPhase
  | begun
  | preparing (id : Nat)
  | loading (initState : Bytes)
  | saving (initState : Bytes) (id : Nat)
  | inserted (initState : Bytes) (id : Nat) (terminated : Bool)
  | completed (initState : Bytes)
  | abandoned

namespace ReloadPhase

/-- The state that the replacement is started from. -/
def initState : ReloadPhase → Option Bytes
  | .loading initState | .saving initState _ | .inserted initState _ _ | .completed initState =>
    some initState
  | .begun | .preparing _ | .abandoned => none

/-- The saver whose state the reload is to link. -/
def triggered : ReloadPhase → Option Nat
  | .saving _ id | .inserted _ id _ => some id
  | _ => none

/-- Whether the replacement has been loaded. -/
def loaded : ReloadPhase → Bool
  | .saving _ _ | .inserted _ _ _ | .completed _ => true
  | _ => false

/-- Whether the replacement is in the registry. -/
def replaced : ReloadPhase → Bool
  | .inserted _ _ _ | .completed _ => true
  | _ => false

end ReloadPhase

/-- The current entity and its replacement, the state link of their node, and the reload. The states
that savers of the replacement linked are a history for the property. -/
structure ReloadState (Cid : Type) where
  current : EntityPlugin
  replacement : Option EntityPlugin
  link : Option Cid
  phase : ReloadPhase
  replacementLinked : List Bytes

/-- The steps of a reload, of the current entity and of its replacement. -/
inductive ReloadAction
  | current (action : EntityAction)
  | replacement (action : EntityAction)
  | prepareReloadSave (id : Nat)
  | readNode
  | load (signals : List GuestCall) (id : Nat)
  | insert
  | terminateWorker
  | completeEntityReload (succeeds : Bool)

section Machine

variable (store : Store Cid) (name : String)

/-- Whether the replacement may take a step: it has no callers before it is in the registry, and the
state that the reload is to link is not linked by its saver. -/
def ReloadPhase.enables (phase : ReloadPhase) (replacement : EntityPlugin) : EntityAction → Bool
  | .work _ | .timeout _ => true
  | .advance id _ =>
    match replacement.savers id with
    | .link _ => phase.triggered ≠ some id
    | _ => true
  | .send | .spawnStatePersist _ _ | .forget _ | .save _ _ | .terminate => phase.replaced

/-- The bytes that a step links. -/
def linkedBy (s : EntityState Cid) (action : EntityAction) : List Bytes :=
  match entityEvent s action with
  | .publish _ bytes => [bytes]
  | _ => []

/-- One step of an interleaving of a reload with the entities it replaces and installs. -/
def reloadStep (s : ReloadState Cid) : ReloadAction → Option (ReloadState Cid)
  | .current action =>
    (entityStep store ⟨s.current, s.link⟩ action).map fun t ↦
      { s with current := t.plugin, link := t.link }
  | .replacement action =>
    match s.replacement with
    | some plugin =>
      if s.phase.enables plugin action then
        (entityStep store ⟨plugin, s.link⟩ action).map fun t ↦
          { s with
            replacement := some t.plugin
            link := t.link
            replacementLinked := s.replacementLinked ++ linkedBy ⟨plugin, s.link⟩ action }
      else none
    | none => none
  | .prepareReloadSave id =>
    match s.phase, s.current.savers id with
    | .begun, .idle =>
      some
        { s with
          current := s.current.setSaver id (.ask .prepareReloadSave)
          phase := .preparing id }
    | _, _ => none
  | .readNode =>
    match s.phase with
    | .preparing id =>
      match s.current.savers id with
      | .ended true =>
        match s.link with
        | none => some { s with phase := .loading [] }
        | some stateCid =>
          (bytesAt store stateCid).map fun initState ↦ { s with phase := .loading initState }
      | .ended false => some { s with phase := .abandoned }
      | _ => none
    | _ => none
  | .load signals id =>
    match s.phase with
    | .loading initState =>
      let replacement := EntityPlugin.load name initState signals
      some { s with
        replacement := some (replacement.setSaver id (.ask .triggerSave))
        phase := .saving initState id }
    | _ => none
  | .insert =>
    match s.phase, s.replacement with
    | .saving initState id, some replacement =>
      match replacement.savers id with
      | .link _ | .ended _ => some { s with phase := .inserted initState id false }
      | _ => none
    | _, _ => none
  | .terminateWorker =>
    match s.phase with
    | .inserted initState id false =>
      some { s with
        current := s.current.terminateWorker
        phase := .inserted initState id true }
    | _ => none
  | .completeEntityReload succeeds =>
    match s.phase, s.replacement with
    | .inserted initState id true, some replacement =>
      match replacement.savers id with
      | .link _ =>
        (advance store ⟨replacement, s.link⟩ id succeeds).map fun t ↦
          { s with
            replacement := some t.plugin
            link := t.link
            phase := .completed initState }
      | _ => some { s with phase := .completed initState }
    | _, _ => none

/-- The state before a reload of an entity that was loaded with some state and link. -/
def ReloadState.start (initState : Bytes) (signals : List GuestCall) (link : Option Cid) :
    ReloadState Cid where
  current := .load name initState signals
  replacement := none
  link := link
  phase := .begun
  replacementLinked := []

end Machine

/-! ### The property and the condition -/

/-- The state that the reload is to link, once its saver is done. -/
def ReloadState.taken (s : ReloadState Cid) : Option Bytes :=
  s.phase.triggered.bind fun id ↦ s.replacement.bind fun replacement ↦
    match replacement.savers id with
    | .link bytes => some bytes
    | _ => none

/-- No state is lost: when the replacement is in the registry, every state that the current entity
queued is the one the replacement was started from, or comes before it; and whatever the
replacement's savers have linked before the reload links its state, is that state. -/
structure ReloadKeepsStates (s : ReloadState Cid) : Prop where
  noneLost : s.phase.replaced = true → ∀ initState, s.phase.initState = some initState →
    ∀ before bytes after, s.current.thread.queued = before ++ bytes :: after →
      initState ∈ bytes :: after
  forward : s.phase.replaced = true → ∀ taken, s.taken = some taken →
    ∀ bytes ∈ s.replacementLinked, bytes = taken

/-- The steps in which a reload has the current entity's last state: it reads a node that links it;
the current entity queues nothing after that; and a saver of the replacement links nothing but the
state that the reload is to link, if there is one, before the reload completes. -/
def ReadsLastState (store : Store Cid) (s : ReloadState Cid) : ReloadAction → Prop
  | .readNode => LastStateLinked store ⟨s.current, s.link⟩
  | .current (.work guest) => s.phase.initState.isSome = true →
      ∀ plugin, s.current.work guest = some plugin →
        plugin.thread.queued = s.current.thread.queued
  | .replacement action => ∀ replacement id, s.replacement = some replacement →
      s.phase.triggered = some id → ∀ bytes ∈ linkedBy ⟨replacement, s.link⟩ action,
        replacement.savers id = .link bytes ∨ ∃ succeeded, replacement.savers id = .ended succeeded
  | _ => True

/-! ### Steps -/

variable {store : Store Cid} {name : String}

/-- What the replacement's savers have linked does not go beyond what the reload is to link. -/
def Forward (saver : Saver) (linked : List Bytes) : Prop :=
  linked = [] ∨ (∃ succeeded, saver = .ended succeeded) ∨
    ∃ taken, saver = .link taken ∧ ∀ bytes ∈ linked, bytes = taken

/-- The invariant of a reload: the state that was read is the last one of the current entity, and
the replacement's savers have not gone beyond the state that the reload is to link. -/
structure ReloadInvariant (s : ReloadState Cid) : Prop where
  read : ∀ initState, s.phase.initState = some initState →
    ∀ bytes, s.current.thread.queued.getLast? = some bytes → bytes = initState
  unloaded : s.phase.loaded = false → s.replacement = none ∧ s.replacementLinked = []
  forward : ∀ id, s.phase.triggered = some id → ∀ replacement, s.replacement = some replacement →
    Forward (replacement.savers id) s.replacementLinked

/-- The last element of a list comes after all of its elements. -/
theorem mem_of_getLast?_eq {initState bytes : Bytes} {queued before after : List Bytes}
    (hlast : ∀ last, queued.getLast? = some last → last = initState)
    (h : queued = before ++ bytes :: after) : initState ∈ bytes :: after := by
  have hsome : queued.getLast? = (bytes :: after).getLast? := by
    rw [h, List.getLast?_append_of_ne_nil _ (List.cons_ne_nil _ _)]
  cases hend : (bytes :: after).getLast? with
  | none => exact absurd (List.getLast?_eq_none_iff.mp hend) (List.cons_ne_nil _ _)
  | some last =>
    obtain rfl := hlast last (hsome.trans hend)
    exact List.mem_of_getLast? hend

theorem reloadKeepsStates_of_invariant {s : ReloadState Cid} (hs : ReloadInvariant s) :
    ReloadKeepsStates s where
  noneLost := by
    intro _ initState hinitState before bytes after hqueued
    exact mem_of_getLast?_eq (hs.read initState hinitState) hqueued
  forward := by
    intro _ taken htaken bytes hbytes
    obtain ⟨id, hid, htaken⟩ := Option.bind_eq_some_iff.mp htaken
    obtain ⟨replacement, hreplacement, htaken⟩ := Option.bind_eq_some_iff.mp htaken
    split at htaken
    · rename_i linked hlink
      obtain rfl := Option.some.inj htaken
      rcases hs.forward id hid replacement hreplacement with hnil | ⟨succeeded, hended⟩ | hall
      · rw [hnil] at hbytes
        cases hbytes
      · exact nomatch hlink.symm.trans hended
      · obtain ⟨taken, hsaver, hall⟩ := hall
        obtain rfl := Saver.link.inj (hlink.symm.trans hsaver)
        exact hall bytes hbytes
    · cases htaken

/-- A step of the current entity after the node was read leaves its last state as it was. -/
theorem queued_current {s : ReloadState Cid} {action : EntityAction} {t : EntityState Cid}
    (hkeeps : ReadsLastState store s (.current action)) (hread : s.phase.initState.isSome = true)
    (h : entityStep store ⟨s.current, s.link⟩ action = some t) :
    t.plugin.thread.queued = s.current.thread.queued := by
  by_cases hwork : ∃ guest, action = .work guest
  · obtain ⟨guest, rfl⟩ := hwork
    obtain ⟨plugin, hplugin, rfl⟩ := Option.map_eq_some_iff.mp h
    exact hkeeps hread plugin hplugin
  · rw [thread_entityStep h fun guest haction ↦ hwork ⟨guest, haction⟩]

/-- A step of the replacement does not go beyond the state that the reload is to link. -/
theorem forward_replacement {s : ReloadState Cid} {action : EntityAction} {t : EntityState Cid}
    {replacement : EntityPlugin} {id : Nat} (hs : ReloadInvariant s)
    (hkeeps : ReadsLastState store s (.replacement action))
    (hreplacement : s.replacement = some replacement) (htriggered : s.phase.triggered = some id)
    (henabled : s.phase.enables replacement action = true)
    (h : entityStep store ⟨replacement, s.link⟩ action = some t) :
    Forward (t.plugin.savers id)
      (s.replacementLinked ++ linkedBy ⟨replacement, s.link⟩ action) := by
  have hforward := hs.forward id htriggered replacement hreplacement
  have hlinked := hkeeps replacement id hreplacement htriggered
  by_cases hdone : (∃ bytes, replacement.savers id = .link bytes) ∨
      ∃ succeeded, replacement.savers id = .ended succeeded
  · -- the saver is done, so no step but the reload's changes it
    have hother (succeeds : Bool) : action ≠ .advance id succeeds := by
      rintro rfl
      rcases hdone with ⟨bytes, hlink⟩ | ⟨succeeded, hended⟩
      · simp only [ReloadPhase.enables, hlink, htriggered, ne_eq, not_true, decide_false] at henabled
        cases henabled
      · simp only [entityStep, advance, hended] at h
        cases h
    have hattentive : (replacement.savers id).attentive = false := by
      rcases hdone with ⟨bytes, hlink⟩ | ⟨succeeded, hended⟩
      · rw [hlink]
        rfl
      · rw [hended]
        rfl
    have hsame : t.plugin.savers id = replacement.savers id :=
      savers_entityStep h hattentive hother
    rw [hsame]
    rcases hdone with ⟨taken, hlink⟩ | ⟨succeeded, hended⟩
    · refine .inr (.inr ⟨taken, hlink, fun bytes hbytes ↦ ?_⟩)
      rcases List.mem_append.mp hbytes with hbefore | hnow
      · rcases hforward with hnil | ⟨succeeded, hended⟩ | ⟨taken', hlink', hall⟩
        · rw [hnil] at hbefore
          cases hbefore
        · rw [hlink] at hended
          cases hended
        · obtain rfl := Saver.link.inj (hlink.symm.trans hlink')
          exact hall bytes hbefore
      · rcases hlinked bytes hnow with hlink' | ⟨succeeded, hended⟩
        · exact Saver.link.inj (hlink'.symm.trans hlink)
        · rw [hlink] at hended
          cases hended
    · exact .inr (.inl ⟨succeeded, hended⟩)
  · -- the saver is not done, so nothing has been linked and nothing is
    left
    have hbefore : s.replacementLinked = [] := by
      rcases hforward with hnil | hended | ⟨taken, hlink, -⟩
      · exact hnil
      · exact absurd (.inr hended) hdone
      · exact absurd (.inl ⟨taken, hlink⟩) hdone
    have hnow : linkedBy ⟨replacement, s.link⟩ action = [] := by
      refine List.eq_nil_iff_forall_not_mem.mpr fun bytes hbytes ↦ hdone ?_
      rcases hlinked bytes hbytes with hlink | hended
      · exact .inl ⟨bytes, hlink⟩
      · exact .inr hended
    rw [hbefore, hnow, List.append_nil]

/-- A change of phase before the node is read. -/
theorem ReloadInvariant.of_unread {s t : ReloadState Cid} (hinit : t.phase.initState = none)
    (htriggered : t.phase.triggered = none) (hreplacement : t.replacement = s.replacement)
    (hlinked : t.replacementLinked = s.replacementLinked)
    (hunloaded : s.replacement = none ∧ s.replacementLinked = []) : ReloadInvariant t where
  read _ hread := nomatch hinit.symm.trans hread
  unloaded _ := by
    rw [hreplacement, hlinked]
    exact hunloaded
  forward _ hid := nomatch htriggered.symm.trans hid

/-- A change of phase after the replacement was loaded. -/
theorem ReloadInvariant.of_loaded {s t : ReloadState Cid} (hs : ReloadInvariant s)
    (hqueued : t.current.thread.queued = s.current.thread.queued)
    (hinit : t.phase.initState = s.phase.initState) (hloaded : t.phase.loaded = true)
    (hforward : t.phase.triggered = none ∨ (t.phase.triggered = s.phase.triggered ∧
      t.replacement = s.replacement ∧ t.replacementLinked = s.replacementLinked)) :
    ReloadInvariant t where
  read initState hread bytes hbytes := by
    rw [hqueued] at hbytes
    exact hs.read initState (hinit.symm.trans hread) bytes hbytes
  unloaded hunloaded := nomatch hloaded.symm.trans hunloaded
  forward id hid replacement hreplacement := by
    rcases hforward with hnone | ⟨htriggered, hsame, hlinked⟩
    · exact nomatch hnone.symm.trans hid
    · rw [hlinked]
      exact hs.forward id (htriggered.symm.trans hid) replacement (hsame.symm.trans hreplacement)

/-- The state that is read from a node which links the current entity's last state is that state. -/
theorem ReloadInvariant.readNode {s t : ReloadState Cid} (hs : ReloadInvariant s)
    (hkeeps : ReadsLastState store s .readNode) (h : reloadStep store name s .readNode = some t) :
    ReloadInvariant t := by
  simp only [reloadStep] at h
  split at h
  · rename_i id hpreparing
    have hunloaded := hs.unloaded (by rw [hpreparing]; rfl)
    split at h
    · split at h
      · rename_i hlink
        obtain rfl := Option.some.inj h
        refine ⟨fun _ _ bytes hbytes ↦ ?_, fun _ ↦ hunloaded, ?_⟩
        · exact nomatch hlink.symm.trans (hkeeps bytes hbytes)
        · rintro _ ⟨⟩
      · rename_i cid hlink
        obtain ⟨initState, hinitState, rfl⟩ := Option.map_eq_some_iff.mp h
        refine ⟨fun read hread bytes hbytes ↦ ?_, fun _ ↦ hunloaded, ?_⟩
        · obtain rfl := Option.some.inj (hlink.symm.trans (hkeeps bytes hbytes))
          rw [stateCid, bytesAt_cidOf] at hinitState
          exact Option.some.inj (hinitState.trans hread)
        · rintro _ ⟨⟩
    · obtain rfl := Option.some.inj h
      exact .of_unread rfl rfl rfl rfl hunloaded
    · cases h
  · cases h

/-- A step that meets the condition keeps the invariant. -/
theorem ReloadInvariant.step {s t : ReloadState Cid} {action : ReloadAction}
    (hs : ReloadInvariant s)
    (hkeeps : ReadsLastState store s action) (h : reloadStep store name s action = some t) :
    ReloadInvariant t := by
  cases action with
  | current action =>
    obtain ⟨next, hnext, rfl⟩ := Option.map_eq_some_iff.mp h
    refine ⟨fun initState hinitState bytes hbytes ↦ ?_, hs.unloaded, hs.forward⟩
    have hread : s.phase.initState.isSome = true := by
      rw [hinitState]
      rfl
    dsimp only at hbytes
    rw [queued_current hkeeps hread hnext] at hbytes
    exact hs.read initState hinitState bytes hbytes
  | replacement action =>
    simp only [reloadStep] at h
    split at h
    · rename_i replacement hreplacement
      split_ifs at h with henabled
      obtain ⟨next, hnext, rfl⟩ := Option.map_eq_some_iff.mp h
      refine ⟨hs.read, fun hunloaded ↦ ?_, fun id htriggered plugin hplugin ↦ ?_⟩
      · exact nomatch hreplacement.symm.trans (hs.unloaded hunloaded).1
      · obtain rfl := Option.some.inj hplugin
        exact forward_replacement hs hkeeps hreplacement htriggered henabled hnext
    · cases h
  | prepareReloadSave id =>
    simp only [reloadStep] at h
    split at h
    · rename_i hbegun _
      obtain rfl := Option.some.inj h
      exact .of_unread rfl rfl rfl rfl (hs.unloaded (by rw [hbegun]; rfl))
    · cases h
  | readNode => exact hs.readNode hkeeps h
  | load signals id =>
    simp only [reloadStep] at h
    split at h
    · rename_i initState hloading
      obtain rfl := Option.some.inj h
      have hunloaded := hs.unloaded (by rw [hloading]; rfl)
      refine ⟨fun read hread ↦ ?_, ?_, fun _ _ _ _ ↦ .inl hunloaded.2⟩
      · exact hs.read read (by rw [hloading]; exact hread)
      · rintro ⟨⟩
    · cases h
  | insert =>
    simp only [reloadStep] at h
    split at h
    · rename_i initState id replacement hsaving hreplacement
      split at h
      case h_3 => cases h
      all_goals
        obtain rfl := Option.some.inj h
        refine hs.of_loaded rfl ?_ rfl (.inr ⟨?_, rfl, rfl⟩)
        · rw [hsaving]
          rfl
        · rw [hsaving]
          rfl
    · cases h
  | terminateWorker =>
    simp only [reloadStep] at h
    split at h
    · rename_i initState id hinserted
      obtain rfl := Option.some.inj h
      refine hs.of_loaded ?_ ?_ rfl (.inr ⟨?_, rfl, rfl⟩)
      · simp only [EntityPlugin.terminateWorker, (thread_send s.current .terminate).1]
      · rw [hinserted]
        rfl
      · rw [hinserted]
        rfl
    · cases h
  | completeEntityReload succeeds =>
    simp only [reloadStep] at h
    split at h
    · rename_i initState id replacement hinserted hreplacement
      split at h
      · obtain ⟨next, -, rfl⟩ := Option.map_eq_some_iff.mp h
        refine hs.of_loaded rfl ?_ rfl (.inl rfl)
        rw [hinserted]
        rfl
      · obtain rfl := Option.some.inj h
        refine hs.of_loaded rfl ?_ rfl (.inl rfl)
        rw [hinserted]
        rfl
    · cases h

/-! ### Runs -/

/-- The steps in which a reload saves, reads and loads, and installs the replacement. -/
def saveAndLoad : List ReloadAction :=
  [.prepareReloadSave 0, .current (.advance 0 true), .current (.work doesNothing),
    .current (.advance 0 true), .current (.advance 0 true), .current (.advance 0 true), .readNode,
    .load [setsState [2]] 0]

def install : List ReloadAction :=
  [.replacement (.advance 0 true), .replacement (.work doesNothing), .replacement (.advance 0 true),
    .replacement (.advance 0 true), .insert, .terminateWorker, .completeEntityReload true]

end MaRuntime.Plugin
