import MaRuntime.Kinds.Reloads

/-!
# The kinds that entities run with

A reload reads the kind of its entity from the registry when it has a permit, and its plugin takes
the place of the former one a good deal later. Meanwhile further requests may put other kinds into
the registry and spawn further reloads of the same entity, which have a gate of their own and may be
through first.

Once the request in hand and the reloads of an entity are through, the plugin that runs has the kind
that the registry has (`newest_kind_of_run`), under three conditions: no request was dropped after
it had changed a kind and before it had spawned the reloads; the plugins of an entity were replaced
in the order in which their kinds were read (`InTurn`); and no reload of the entity was given up
because the state of the former plugin could not be saved. The code sees to none of them: a request
is dropped when its time is over, and the gates of two requests know nothing of each other, so that
a reload that was overtaken brings back the older kind (`overtaken_kind_runs`).

Main definitions: `InTurn`, `Reaches`.
Main results: `newest_kind_of_run`, `overtaken_kind_runs`.

Scope. As in `Kinds/Reloads.lean`; entities that are created or linked meanwhile are in
`Dispatch/Creation.lean` and `Crud/Agreement.lean`.
-/

set_option autoImplicit false
set_option relaxedAutoImplicit false

namespace MaRuntime.Kinds

open Manifest Pools Runs

variable {Cid : Type}

/-! ### The newest kinds -/

section Newest

/-- The request in hand is still to spawn a reload for an entity of a kind. -/
def KindsHandler.Owes (handler : KindsHandler Cid) (name protocol : String) : Prop :=
  match handler with
  | .reading updated => protocol ∈ updated
  | .hydrating affected _ => protocol ∈ affected
  | .spawning affected _ names => protocol ∈ affected ∧ name ∈ names
  | .idle | .inserting _ _ | .removing _ => False

/-- A reload of an entity is still to read its kind. -/
def ReloadsState.Awaits (s : ReloadsState Cid) (name : String) : Prop :=
  ∃ task ∈ s.reloads, task.name = name ∧ task.phase.isUnread = true

/-- A reload of an entity is under way with a kind it has read. -/
def ReloadsState.HasRead (s : ReloadsState Cid) (name : String) (read : KindRead Cid) : Prop :=
  ∃ task ∈ s.reloads, task.name = name ∧ task.phase.reading = some read

/-- The requests are carried out, and a reload replaces the plugin of its entity only when no other
reload of the entity is under way with a kind that was read before. -/
def InTurn (s : ReloadsState Cid) (action : ReloadsAction Cid) : Prop :=
  CarriedOut s action ∧ ∀ i outcome task read, action = .reload i outcome →
    s.reloads[i]? = some task → task.phase.replacing = some read →
    ∀ other, s.HasRead task.name other → read.number ≤ other.number

/-- A kind is that of the live plugin, or is on its way to it: a reload will be spawned, or will
read the kind, or is under way with it, and no reload that is under way has read a later one. -/
inductive Reaches (s : ReloadsState Cid) (name protocol : String) (kind : KindNode Cid) : Prop
  | owed (howes : s.handler.Owes name protocol)
  | awaited (hawaits : s.Awaits name)
  | underWay (read : KindRead Cid) (hread : s.HasRead name read) (hkind : read.kind = kind)
      (hlater : ∀ later, s.HasRead name later → read.number ≤ later.number → later.kind = kind)
  | installed (hlive : ∀ running, s.live name = some running → running = kind)
      (hreads : ∀ read, s.HasRead name read → read.kind = kind)

/-- A reload is one of its entity's kind, has read its kind after the earlier ones, and the kinds
that are still to be put into the registry are affected. -/
structure ReloadsKept (fetchNode : Cid → Except String (EntityNode Cid)) (s : ReloadsState Cid) :
    Prop where
  protocols : ∀ task ∈ s.reloads,
    entityKind fetchNode s.kinds.manifest task.name = some task.protocol
  numbers : ∀ name read, s.HasRead name read → read.number < s.reads
  rest : ∀ affected rest, s.handler = .hydrating affected rest → ∀ protocol ∈ rest,
    protocol ∈ affected

/-- The kind that the registry has for an entity reaches it, if no reload of the entity was given
up. -/
def NewestReach (fetchNode : Cid → Except String (EntityNode Cid)) (s : ReloadsState Cid) : Prop :=
  ∀ name protocol kind, entityKind fetchNode s.kinds.manifest name = some protocol →
    s.kinds.registry.get protocol = some kind → name ∉ s.givenUp → Reaches s name protocol kind

variable {fetch : Cid → Except String (KindNode Cid)}
  {fetchNode : Cid → Except String (EntityNode Cid)} {s t : ReloadsState Cid}
  {name protocol : String} {kind : KindNode Cid}

/-- A kind reaches an entity after a step that leaves the reloads of the entity where they are, or
takes away what the request in hand owes for them. -/
theorem Reaches.frame (h : Reaches s name protocol kind)
    (howes : s.handler.Owes name protocol → Reaches t name protocol kind)
    (hlive : ∀ running, t.live name = some running → s.live name = some running)
    (hawaits : s.Awaits name → t.Awaits name)
    (hreads : ∀ read, t.HasRead name read ↔ s.HasRead name read) :
    Reaches t name protocol kind := by
  cases h with
  | owed h => exact howes h
  | awaited h => exact .awaited (hawaits h)
  | underWay read hread hkind hlater =>
    exact .underWay read ((hreads read).mpr hread) hkind fun later hother ↦
      hlater later ((hreads later).mp hother)
  | installed hsame hall =>
    exact .installed (fun running hrunning ↦ hsame running (hlive running hrunning))
      fun read hread ↦ hall read ((hreads read).mp hread)

theorem Reaches.of_reloads_eq (h : Reaches s name protocol kind) (hreloads : t.reloads = s.reloads)
    (howes : s.handler.Owes name protocol → Reaches t name protocol kind)
    (hlive : ∀ running, t.live name = some running → s.live name = some running) :
    Reaches t name protocol kind := by
  refine h.frame howes hlive ?_ ?_
  · unfold ReloadsState.Awaits
    rw [hreloads]
    exact id
  · unfold ReloadsState.HasRead
    rw [hreloads]
    exact fun _ ↦ Iff.rfl

section Pool

variable {i : ℕ} {task : ReloadTask Cid} {phase : ReloadPhase Cid}

/-- A reload goes on, and has read what it had read, or is none of the entity. -/
theorem hasRead_iff (htask : s.reloads[i]? = some task)
    (hreloads : t.reloads = Pools.advance s.reloads i { task with phase := phase })
    (hsame : task.name = name → phase.reading = task.phase.reading) (read : KindRead Cid) :
    t.HasRead name read ↔ s.HasRead name read := by
  unfold ReloadsState.HasRead
  rw [hreloads]
  refine exists_mem_advance_iff htask (and_congr_right fun hname ↦ ?_)
  rw [show ({ task with phase := phase } : ReloadTask Cid).phase = phase from rfl, hsame hname]

theorem awaits_iff (htask : s.reloads[i]? = some task)
    (hreloads : t.reloads = Pools.advance s.reloads i { task with phase := phase })
    (hsame : task.name = name → phase.isUnread = task.phase.isUnread) :
    t.Awaits name ↔ s.Awaits name := by
  unfold ReloadsState.Awaits
  rw [hreloads]
  refine exists_mem_advance_iff htask (and_congr_right fun hname ↦ ?_)
  rw [show ({ task with phase := phase } : ReloadTask Cid).phase = phase from rfl, hsame hname]

/-- A reload that has read nothing yet, or is through, reads a kind: it is the one that was read
last. -/
theorem reaches_of_reads (hs : ReloadsKept fetchNode s) (htask : s.reloads[i]? = some task)
    (hreloads : t.reloads =
      Pools.advance s.reloads i { task with phase := .finding ⟨kind, s.reads⟩ }) :
    Reaches t task.name protocol kind := by
  refine .underWay ⟨kind, s.reads⟩ ?_ rfl fun later hlater hle ↦ ?_
  · exact ⟨{ task with phase := .finding ⟨kind, s.reads⟩ },
      by rw [hreloads]; exact mem_advance htask, rfl, rfl⟩
  · obtain ⟨other, hmem, hname, hread⟩ := hlater
    rw [hreloads] at hmem
    rcases List.mem_or_eq_of_mem_set hmem with hpool | rfl
    · have hless := hs.numbers task.name later ⟨other, hpool, hname, hread⟩
      exact absurd hle (Nat.not_le.mpr hless)
    · obtain rfl := Option.some.inj hread
      rfl

/-- A reload replaces a plugin: the kind that reaches the entity is its own, if no other reload that
is under way has read a kind before. -/
theorem reaches_of_replaces {read : KindRead Cid} {value : Option (KindNode Cid)}
    (hs : Reaches s task.name protocol kind) (htask : s.reloads[i]? = some task)
    (hread : task.phase.replacing = some read)
    (hvalue : ∀ running, value = some running → running = read.kind)
    (hturn : ∀ other, s.HasRead task.name other → read.number ≤ other.number) :
    Reaches (s.replace i task value) task.name protocol kind := by
  have hreading := ReloadPhase.reading_of_replacing hread
  have hown : s.HasRead task.name read := ⟨task, List.mem_of_getElem? htask, rfl, hreading⟩
  have hless (other : KindRead Cid) (h : (s.replace i task value).HasRead task.name other) :
      s.HasRead task.name other := by
    obtain ⟨found, hmem, hname, hfound⟩ := h
    rcases List.mem_or_eq_of_mem_set hmem with hpool | rfl
    · exact ⟨found, hpool, hname, hfound⟩
    · cases hfound
  have hinstalled (hkind : read.kind = kind)
      (hall : ∀ other, s.HasRead task.name other → other.kind = kind) :
      Reaches (s.replace i task value) task.name protocol kind := by
    refine .installed (fun running hrunning ↦ ?_) fun other hother ↦ hall other (hless other hother)
    have hlive : (s.replace i task value).live task.name = value := Function.update_self ..
    exact (hvalue running (hlive.symm.trans hrunning)).trans hkind
  cases hs with
  | owed howes => exact .owed howes
  | awaited hawaits =>
    refine .awaited ((awaits_iff htask rfl fun _ ↦ ?_).mpr hawaits)
    exact (ReloadPhase.isUnread_of_reading hreading).symm
  | installed hlive hreads => exact hinstalled (hreads read hown) hreads
  | underWay newest hnewest hkind hlater =>
    rcases Nat.lt_or_ge read.number newest.number with hlt | hge
    · refine .underWay newest ?_ hkind fun later hother ↦ hlater later (hless later hother)
      refine exists_mem_advance htask (fun ⟨_, hsame⟩ ↦ ?_) hnewest
      obtain rfl := Option.some.inj (hreading.symm.trans hsame)
      exact absurd hlt (Nat.lt_irrefl _)
    · exact hinstalled (hlater read hown hge) fun other hother ↦
        hlater other hother (hge.trans (hturn other hother))

end Pool

/-! ### A step of a reload -/

/-- What a step of a reload leaves of the other reloads. -/
theorem ReloadsKept.reload {i : ℕ} {task : ReloadTask Cid} (hs : ReloadsKept fetchNode s)
    (htask : s.reloads[i]? = some task) (h : ReloadMove fetch s i task t) :
    ReloadsKept fetchNode t := by
  have hmem := List.mem_of_getElem? htask
  have hadvance (phase : ReloadPhase Cid) (hkinds : t.kinds = s.kinds)
      (hhandler : t.handler = s.handler)
      (hreloads : t.reloads = Pools.advance s.reloads i { task with phase := phase })
      (hreads : s.reads ≤ t.reads)
      (hread : ∀ read, phase.reading = some read → read.number < t.reads) :
      ReloadsKept fetchNode t := by
    refine ⟨?_, fun name read ⟨other, hother, hname, hreading⟩ ↦ ?_, ?_⟩
    · rw [hkinds, hreloads]
      exact forall_mem_advance hs.protocols (hs.protocols task hmem)
    · rw [hreloads] at hother
      rcases List.mem_or_eq_of_mem_set hother with hpool | rfl
      · exact (hs.numbers name read ⟨other, hpool, hname, hreading⟩).trans_le hreads
      · exact hread read hreading
    · rw [hhandler]
      exact hs.rest
  cases h with
  | acquires free hphase hfree =>
    exact hadvance _ rfl rfl rfl le_rfl fun read hread ↦ (nomatch hread)
  | reads kind succeeds hphase hkind =>
    refine hadvance _ rfl rfl rfl (Nat.le_succ _) fun read hread ↦ ?_
    obtain rfl := Option.some.inj hread
    exact Nat.lt_succ_self _
  | passes before phase hbefore hafter hleft =>
    refine hadvance _ rfl rfl rfl le_rfl fun read hread ↦ ?_
    exact hs.numbers task.name read ⟨task, hmem, rfl, hbefore.trans (hafter.symm.trans hread)⟩
  | givesUp hholds hleft =>
    exact hadvance .recording rfl rfl rfl le_rfl fun read hread ↦ (nomatch hread)
  | replaces read value hphase hvalue =>
    exact hadvance .recording rfl rfl rfl le_rfl fun read hread ↦ (nomatch hread)
  | ends free hphase hfree =>
    exact hadvance .ended rfl rfl rfl le_rfl fun read hread ↦ (nomatch hread)

/-- A kind that reaches an entity does so after a step of a reload, of this entity or of another
one. -/
theorem Reaches.reload {i : ℕ} {task : ReloadTask Cid} (h : Reaches s name protocol kind)
    (hs : ReloadsKept fetchNode s) (htask : s.reloads[i]? = some task)
    (hmove : ReloadMove fetch s i task t)
    (hentity : entityKind fetchNode s.kinds.manifest name = some protocol)
    (hkind : s.kinds.registry.get protocol = some kind) (hkept : name ∉ t.givenUp)
    (hturn : ∀ read, task.phase.replacing = some read →
      ∀ other, s.HasRead task.name other → read.number ≤ other.number) :
    Reaches t name protocol kind := by
  -- a reload of another entity, or one that has read what it had read
  have hframe (phase : ReloadPhase Cid) (hhandler : t.handler = s.handler)
      (hlive : ∀ running, t.live name = some running → s.live name = some running)
      (hreloads : t.reloads = Pools.advance s.reloads i { task with phase := phase })
      (hreading : task.name = name → phase.reading = task.phase.reading)
      (hunread : task.name = name → phase.isUnread = task.phase.isUnread) :
      Reaches t name protocol kind :=
    h.frame (fun howes ↦ .owed (hhandler ▸ howes)) hlive
      (awaits_iff htask hreloads hunread).mpr (hasRead_iff htask hreloads hreading)
  cases hmove with
  | acquires free hphase hfree =>
    exact hframe _ rfl (fun _ hrunning ↦ hrunning) rfl (fun _ ↦ by rw [hphase]; rfl)
      fun _ ↦ by rw [hphase]; rfl
  | passes read phase hbefore hafter hleft =>
    refine hframe _ rfl (fun _ hrunning ↦ hrunning) rfl (fun _ ↦ hafter.trans hbefore.symm)
      fun _ ↦ ?_
    rw [ReloadPhase.isUnread_of_reading hafter, ReloadPhase.isUnread_of_reading hbefore]
  | ends free hphase hfree =>
    exact hframe _ rfl (fun _ hrunning ↦ hrunning) rfl (fun _ ↦ by rw [hphase]; rfl)
      fun _ ↦ by rw [hphase]; rfl
  | givesUp hholds hleft =>
    have hother : task.name ≠ name := fun hname ↦ hkept (hname ▸ List.mem_cons_self)
    exact hframe .recording rfl (fun _ hrunning ↦ hrunning) rfl
      (fun hname ↦ absurd hname hother) fun hname ↦ absurd hname hother
  | reads found succeeds hphase hfound =>
    by_cases hname : task.name = name
    · subst hname
      obtain rfl : task.protocol = protocol :=
        Option.some.inj ((hs.protocols task (List.mem_of_getElem? htask)).symm.trans hentity)
      unfold KindsState.resolveForReload at hfound
      rw [hkind] at hfound
      obtain rfl := Option.some.inj hfound
      exact reaches_of_reads hs htask rfl
    · exact hframe (.finding ⟨found, s.reads⟩) rfl (fun _ hrunning ↦ hrunning) rfl
        (fun hsame ↦ absurd hsame hname) fun hsame ↦ absurd hsame hname
  | replaces read value hphase hvalue =>
    by_cases hname : task.name = name
    · subst hname
      exact reaches_of_replaces h htask hphase hvalue (hturn read hphase)
    · have hlive : (s.replace i task value).live name = s.live name :=
        Function.update_of_ne (Ne.symm hname) ..
      exact hframe .recording rfl (fun _ hrunning ↦ hlive ▸ hrunning) rfl
        (fun hsame ↦ absurd hsame hname) fun hsame ↦ absurd hsame hname

/-! ### A step of a request -/

/-- A request that goes on leaves the manifest alone. -/
theorem manifest_proceed {succeeds : Bool} (h : s.proceed fetch fetchNode succeeds = some t) :
    t.kinds.manifest = s.kinds.manifest := by
  unfold ReloadsState.proceed at h
  split at h
  · cases h
  · obtain rfl := Option.some.inj h
    rfl
  · obtain rfl := Option.some.inj h
    rfl
  · split_ifs at h
    all_goals
      obtain rfl := Option.some.inj h
      rfl
  · obtain rfl := Option.some.inj h
    rfl
  · obtain rfl := Option.some.inj h
    rfl
  · obtain rfl := Option.some.inj h
    exact congrArg KindsState.manifest (spawnFor_kinds s _ _ _)
  · obtain rfl := Option.some.inj h
    rfl

theorem entityKind_congr {manifest other : RuntimeManifest Cid}
    (h : other.entities = manifest.entities) (name : String) :
    entityKind fetchNode other name = entityKind fetchNode manifest name := by
  unfold entityKind
  rw [h]

/-- What was updated is affected. -/
theorem mem_affected {updated : List String} {rawKinds : KeyedMap String (KindNode Cid)}
    (h : protocol ∈ updated) : protocol ∈ affectedKindProtocolsFor updated rawKinds :=
  List.mem_flatMap.mpr ⟨protocol, h, List.mem_cons_self⟩

/-- The kind that the registry has for an entity reaches it after a step of the request in hand:
wherever the request changes it, the request is to spawn a reload. -/
theorem reaches_of_proceed (hs : ReloadsKept fetchNode s) (hreach : NewestReach fetchNode s)
    (h : s.proceed fetch fetchNode true = some t) : NewestReach fetchNode t := by
  intro name protocol kind hentity hkind hkept
  rw [entityKind_congr (congrArg RuntimeManifest.entities (manifest_proceed h))] at hentity
  unfold ReloadsState.proceed at h
  -- the request has not changed the kind in this step
  have hsame (hregistry : s.kinds.registry.get protocol = some kind) (hgiven : name ∉ s.givenUp)
      (howes : s.handler.Owes name protocol → Reaches t name protocol kind)
      (hlive : t.live = s.live) (hreloads : t.reloads = s.reloads) : Reaches t name protocol kind :=
    (hreach name protocol kind hentity hregistry hgiven).of_reloads_eq hreloads howes
      fun _ hrunning ↦ hlive ▸ hrunning
  split at h
  · cases h
  · rename_i inserted kindNode hhandler
    obtain rfl := Option.some.inj h
    by_cases hprotocol : protocol = inserted
    · exact .owed (List.mem_singleton.mpr hprotocol)
    · rw [KeyedMap.get_insert_of_ne _ _ hprotocol] at hkind
      refine hsame hkind hkept (fun howes ↦ ?_) rfl rfl
      rw [hhandler] at howes
      exact howes.elim
  · rename_i removed hhandler
    obtain rfl := Option.some.inj h
    by_cases hprotocol : protocol = removed
    · subst hprotocol
      cases (KeyedMap.get_remove_self s.kinds.registry protocol).symm.trans hkind
    · rw [KeyedMap.get_remove_of_ne _ hprotocol] at hkind
      refine hsame hkind hkept (fun howes ↦ ?_) rfl rfl
      rw [hhandler] at howes
      exact howes.elim
  · rename_i updated hhandler
    obtain rfl := Option.some.inj h
    refine hsame hkind hkept (fun howes ↦ .owed ?_) rfl rfl
    rw [hhandler] at howes
    exact mem_affected howes
  · rename_i affected hydrated rest hhandler
    obtain rfl := Option.some.inj h
    by_cases hprotocol : protocol = hydrated
    · exact .owed (hs.rest _ _ hhandler protocol (hprotocol ▸ List.mem_cons_self))
    · rw [KindsState.hydrate, KeyedMap.get_insertSome_of_ne _ _ hprotocol] at hkind
      refine hsame hkind hkept (fun howes ↦ .owed ?_) rfl rfl
      rw [hhandler] at howes
      exact howes
  · rename_i affected hhandler
    obtain rfl := Option.some.inj h
    refine hsame hkind hkept (fun howes ↦ .owed ?_) rfl rfl
    rw [hhandler] at howes
    obtain ⟨node, hnode, -⟩ := Option.map_eq_some_iff.mp hentity
    obtain ⟨link, hlink, -⟩ := Option.bind_eq_some_iff.mp hnode
    exact ⟨howes, List.mem_map.mpr ⟨_, KeyedMap.mem_of_get hlink, rfl⟩⟩
  · rename_i affected gate spawned rest hhandler
    obtain rfl := Option.some.inj h
    have howed (howes : s.handler.Owes name protocol) (hother : name ≠ spawned) :
        (KindsHandler.spawning affected gate rest : KindsHandler Cid).Owes name protocol := by
      rw [hhandler] at howes
      exact ⟨howes.1, List.mem_of_ne_of_mem hother howes.2⟩
    rcases spawnFor_cases s affected gate spawned with ⟨node, hnode, -, hspawn⟩ | ⟨hnot, hspawn⟩
    · rw [hspawn] at hkind hkept ⊢
      refine (hreach name protocol kind hentity hkind hkept).frame (fun howes ↦ ?_)
        (fun _ hrunning ↦ hrunning) ?_ fun read ↦ ?_
      · by_cases hname : name = spawned
        · exact .awaited ⟨_, List.mem_append_right _ List.mem_cons_self, hname.symm, rfl⟩
        · exact .owed (howed howes hname)
      · rintro ⟨task, hmem, htask⟩
        exact ⟨task, List.mem_append_left _ hmem, htask⟩
      · constructor
        · rintro ⟨task, hmem, hname, hread⟩
          rcases List.mem_append.mp hmem with hold | hnew
          · exact ⟨task, hold, hname, hread⟩
          · obtain rfl := List.eq_of_mem_singleton hnew
            cases hread
        · rintro ⟨task, hmem, htask⟩
          exact ⟨task, List.mem_append_left _ hmem, htask⟩
    · rw [hspawn] at hkind hkept ⊢
      refine (hreach name protocol kind hentity hkind hkept).of_reloads_eq rfl (fun howes ↦ ?_)
        fun _ hrunning ↦ hrunning
      by_cases hname : name = spawned
      · subst hname
        obtain ⟨node, hnode, rfl⟩ := Option.map_eq_some_iff.mp hentity
        rw [hhandler] at howes
        exact absurd howes.1 (hnot node hnode)
      · exact .owed (howed howes hname)
  · rename_i affected gate hhandler
    obtain rfl := Option.some.inj h
    refine hsame hkind hkept (fun howes ↦ ?_) rfl rfl
    rw [hhandler] at howes
    cases howes.2

theorem ReloadsKept.proceed {succeeds : Bool} (hs : ReloadsKept fetchNode s)
    (h : s.proceed fetch fetchNode succeeds = some t) : ReloadsKept fetchNode t := by
  have hmanifest := manifest_proceed h
  unfold ReloadsState.proceed at h
  have hsame (hreloads : t.reloads = s.reloads) (hreads : t.reads = s.reads)
      (hrest : ∀ affected rest, t.handler = .hydrating affected rest → ∀ protocol ∈ rest,
        protocol ∈ affected) : ReloadsKept fetchNode t := by
    refine ⟨?_, ?_, hrest⟩
    · rw [hmanifest, hreloads]
      exact hs.protocols
    · unfold ReloadsState.HasRead
      rw [hreloads, hreads]
      exact hs.numbers
  split at h
  · cases h
  · obtain rfl := Option.some.inj h
    exact hsame rfl rfl fun _ _ h ↦ (nomatch h)
  · obtain rfl := Option.some.inj h
    exact hsame rfl rfl fun _ _ h ↦ (nomatch h)
  · split_ifs at h
    · obtain rfl := Option.some.inj h
      refine hsame rfl rfl fun affected rest h ↦ ?_
      cases h
      exact fun _ hprotocol ↦ hprotocol
    · obtain rfl := Option.some.inj h
      exact hsame rfl rfl fun _ _ h ↦ (nomatch h)
  · rename_i affected hydrated rest hhandler
    obtain rfl := Option.some.inj h
    refine hsame rfl rfl fun affected' rest' h ↦ ?_
    cases h
    exact fun protocol hprotocol ↦
      hs.rest _ _ hhandler protocol (List.mem_cons_of_mem _ hprotocol)
  · obtain rfl := Option.some.inj h
    exact hsame rfl rfl fun _ _ h ↦ (nomatch h)
  · rename_i affected gate name rest hhandler
    obtain rfl := Option.some.inj h
    rcases spawnFor_cases s affected gate name with ⟨node, hnode, -, hspawn⟩ | ⟨-, hspawn⟩
    · rw [hspawn]
      refine ⟨fun task htask ↦ ?_, fun other read ⟨task, htask, hname, hread⟩ ↦ ?_,
        fun _ _ h ↦ (nomatch h)⟩
      · rcases List.mem_append.mp htask with hold | hnew
        · exact hs.protocols task hold
        · obtain rfl := List.eq_of_mem_singleton hnew
          exact congrArg (Option.map EntityNode.kind) hnode
      · rcases List.mem_append.mp htask with hold | hnew
        · exact hs.numbers other read ⟨task, hold, hname, hread⟩
        · obtain rfl := List.eq_of_mem_singleton hnew
          cases hread
    · rw [hspawn] at hsame ⊢
      exact hsame rfl rfl fun _ _ h ↦ (nomatch h)
  · obtain rfl := Option.some.inj h
    exact hsame rfl rfl fun _ _ h ↦ (nomatch h)

/-- A step in turn keeps the newest kinds on their way. -/
theorem newestReach_step [DecidableEq Cid] {action : ReloadsAction Cid}
    (hs : ReloadsKept fetchNode s ∧ NewestReach fetchNode s) (hturn : InTurn s action)
    (h : reloadsStep fetch fetchNode s action = some t) :
    ReloadsKept fetchNode t ∧ NewestReach fetchNode t := by
  obtain ⟨hkept, hreach⟩ := hs
  cases action with
  | request request =>
    simp only [reloadsStep] at h
    split at h
    · rename_i hidle
      obtain rfl := Option.some.inj h
      have hcomes : Comes s (s.accept fetch request) := comes_accept request hidle
      have hentities : ∀ name, entityKind fetchNode (s.accept fetch request).kinds.manifest name =
          entityKind fetchNode s.kinds.manifest name := entityKind_congr hcomes.entities
      refine ⟨⟨?_, ?_, fun _ _ h ↦ absurd h (hcomes.hydrating _ _)⟩, ?_⟩
      · rw [hcomes.reloads]
        exact fun task htask ↦ (hentities task.name).trans (hkept.protocols task htask)
      · unfold ReloadsState.HasRead
        rw [hcomes.reloads, hcomes.reads]
        exact hkept.numbers
      · intro name protocol kind hentity hkind hgiven
        rw [hentities] at hentity
        rw [hcomes.registry] at hkind
        rw [hcomes.givenUp] at hgiven
        refine (hreach name protocol kind hentity hkind hgiven).of_reloads_eq hcomes.reloads
          (fun howes ↦ ?_) fun _ hrunning ↦ hcomes.live ▸ hrunning
        rw [hidle] at howes
        exact howes.elim
    · cases h
  | proceed succeeds =>
    obtain rfl : succeeds = true := hturn.1
    exact ⟨hkept.proceed h, reaches_of_proceed hkept hreach h⟩
  | abandon =>
    obtain rfl := Option.some.inj h
    have hidle : s.handler = .idle := hturn.1
    refine ⟨⟨hkept.protocols, hkept.numbers, fun _ _ h ↦ by cases h⟩, ?_⟩
    intro name protocol kind hentity hkind hgiven
    refine (hreach name protocol kind hentity hkind hgiven).of_reloads_eq rfl (fun howes ↦ ?_)
      fun _ hrunning ↦ hrunning
    rw [hidle] at howes
    exact howes.elim
  | reload i outcome =>
    obtain ⟨task, htask, hmove⟩ := reloadMove_of_step h
    obtain ⟨hkinds, hhandler⟩ := hmove.kinds
    refine ⟨hkept.reload htask hmove, fun name protocol kind hentity hkind hgiven ↦ ?_⟩
    rw [hkinds] at hentity hkind
    refine Reaches.reload ?_ hkept htask hmove hentity hkind hgiven fun read hread ↦
      hturn.2 i outcome task read rfl htask hread
    refine hreach name protocol kind hentity hkind fun hbefore ↦ hgiven ?_
    cases hmove with
    | givesUp hholds hleft => exact List.mem_cons_of_mem _ hbefore
    | _ => exact hbefore
  | unregister removed =>
    obtain rfl := Option.some.inj h
    refine ⟨⟨hkept.protocols, hkept.numbers, hkept.rest⟩, ?_⟩
    intro name protocol kind hentity hkind hgiven
    refine (hreach name protocol kind hentity hkind hgiven).of_reloads_eq rfl
      (fun howes ↦ .owed howes) fun running hrunning ↦ ?_
    by_cases hname : name = removed
    · subst hname
      cases (Function.update_self name none s.live).symm.trans hrunning
    · exact (Function.update_of_ne hname none s.live).symm.trans hrunning

/-- Once the request in hand and the reloads of an entity are through, the live plugin has the kind
that the registry has, if it had so at the start, each step was in turn, and no reload of the entity
was given up. -/
theorem newest_kind_of_run [DecidableEq Cid] {kinds : KindsState Cid}
    {live : String → Option (KindNode Cid)} {actions : List (ReloadsAction Cid)}
    {running : KindNode Cid}
    (hstart : ∀ name protocol kind running,
      entityKind fetchNode kinds.manifest name = some protocol →
      kinds.registry.get protocol = some kind → live name = some running → running = kind)
    (h : GuardedRun (reloadsStep fetch fetchNode) InTurn (.start kinds live) actions s)
    (hidle : s.handler = .idle)
    (hended : ∀ task ∈ s.reloads, task.name = name → task.phase = .ended)
    (hgiven : name ∉ s.givenUp)
    (hentity : entityKind fetchNode s.kinds.manifest name = some protocol)
    (hkind : s.kinds.registry.get protocol = some kind) (hlive : s.live name = some running) :
    running = kind := by
  have hs : ReloadsKept fetchNode s ∧ NewestReach fetchNode s := by
    refine h.invariant (fun s ↦ ReloadsKept fetchNode s ∧ NewestReach fetchNode s)
      (fun _ _ _ hs hturn hstep ↦ newestReach_step hs hturn hstep) ⟨⟨?_, ?_, ?_⟩, ?_⟩
    · exact fun task htask ↦ (nomatch htask)
    · exact fun name read ⟨task, htask, _⟩ ↦ (nomatch htask)
    · exact fun _ _ hhandler ↦ (nomatch hhandler)
    · intro name protocol kind hentity hkind _
      refine .installed (fun running hrunning ↦ ?_) fun read ⟨task, htask, _⟩ ↦ (nomatch htask)
      exact hstart name protocol kind running hentity hkind hrunning
  cases hs.2 name protocol kind hentity hkind hgiven with
  | owed howes =>
    rw [hidle] at howes
    exact howes.elim
  | awaited hawaits =>
    obtain ⟨task, htask, hname, hunread⟩ := hawaits
    rw [hended task htask hname] at hunread
    cases hunread
  | underWay read hread =>
    obtain ⟨task, htask, hname, hreading⟩ := hread
    rw [hended task htask hname] at hreading
    cases hreading
  | installed hinstalled hreads => exact hinstalled running hlive

end Newest

/-! ### A kind that is linked -/

theorem inTurn_of_isSingle {s : ReloadsState ℕ} {action : ReloadsAction ℕ}
    (h : isSingle s action = true) : InTurn s action := by
  obtain ⟨hcarried, hsingle⟩ := Bool.and_eq_true_iff.mp h
  refine ⟨carriedOut_of_isCarriedOut hcarried, ?_⟩
  rintro i outcome task read rfl htask hread other ⟨found, hmem, -, hfound⟩
  have hlength : s.reloads.length ≤ 1 := of_decide_eq_true hsingle
  obtain ⟨j, hj⟩ := List.mem_iff_getElem?.mp hmem
  obtain ⟨hi, -⟩ := List.getElem?_eq_some_iff.mp htask
  obtain ⟨hlt, -⟩ := List.getElem?_eq_some_iff.mp hj
  obtain rfl : i = j := by omega
  obtain rfl := Option.some.inj (htask.symm.trans hj)
  have hsame := (ReloadPhase.reading_of_replacing hread).symm.trans hfound
  exact (congrArg KindRead.number (Option.some.inj hsame)).le

theorem newest_kind_of_run_lamp :
    ∃ s running kind, GuardedRun (reloadsStep fetchKind fetchLamp) InTurn lampStart lampReloads s ∧
      s.live "lamp" = some running ∧ s.kinds.registry.get basePath.protocolId = some kind ∧
      running = kind := by
  obtain ⟨s, hsingle, hseen⟩ := exists_lampReloads
  have hrun : GuardedRun (reloadsStep fetchKind fetchLamp) InTurn lampStart lampReloads s :=
    hsingle.mono fun _ _ ↦ inTurn_of_isSingle
  have hidle := handler_of_isIdle (congrArg LampSeen.isIdle hseen)
  have hended := ended_of_left (s := s) (by rw [hseen]; decide)
  have hgiven : s.givenUp = [] := congrArg LampSeen.givenUp hseen
  obtain ⟨kind, hkind, -⟩ := Option.map_eq_some_iff.mp (congrArg LampSeen.registered hseen)
  obtain ⟨running, hrunning, -⟩ := Option.map_eq_some_iff.mp (congrArg LampSeen.running hseen)
  refine ⟨s, running, kind, hrun, hrunning, hkind, ?_⟩
  refine newest_kind_of_run (fun _ _ _ _ _ _ hlive ↦ by cases hlive) hrun hidle
    (fun task htask _ ↦ hended task htask) ?_ (congrArg LampSeen.protocol hseen) hkind hrunning
  rw [hgiven]
  exact List.not_mem_nil

/-- The kind of a lamp, and a newer one. -/
def fetchTwoLamps : ℕ → Except String (KindNode ℕ)
  | 0 => .ok (kindOf basePath none)
  | 1 => .ok { kindOf basePath none with behaviour := some ⟨9⟩ }
  | _ => .error "not found"

/-- A kind is linked and a reload reads it; a newer one is linked, and its reload is through before
the first one is. -/
def overtakenReloads : List (ReloadsAction ℕ) :=
  .request (.update (.set basePath 0)) :: List.replicate 7 (.proceed true) ++
    List.replicate 2 (.reload 0 ⟨true, .running⟩) ++
    .request (.update (.set basePath 1)) :: List.replicate 7 (.proceed true) ++
    List.replicate 6 (.reload 1 ⟨true, .running⟩) ++
    List.replicate 5 (.reload 0 ⟨true, .running⟩)

/-- A reload that was overtaken puts the older kind in the place of the newer one, and no reload is
under way any more. -/
theorem overtaken_kind_runs :
    ∃ s, GuardedRun (reloadsStep fetchTwoLamps fetchLamp) CarriedOut lampStart overtakenReloads s ∧
      s.handler = .idle ∧ (∀ task ∈ s.reloads, task.phase = .ended) ∧ s.givenUp = [] ∧
      (s.kinds.registry.get basePath.protocolId).map (fun kind ↦ kind.behaviour) =
        some (some ⟨9⟩) ∧
      (s.live "lamp").map (fun kind ↦ kind.behaviour) = some none := by
  have hseen : (execute (fun s a ↦
      if isCarriedOut a then reloadsStep fetchTwoLamps fetchLamp s a else none)
      lampStart overtakenReloads).map lampSeen =
        some ⟨true, [0, 0], [], some basePath.protocolId, some (some ⟨9⟩), some none⟩ := by
    decide +kernel
  obtain ⟨s, hexecute, hs⟩ := Option.map_eq_some_iff.mp hseen
  have hrun : GuardedRun (reloadsStep fetchTwoLamps fetchLamp) CarriedOut lampStart
      overtakenReloads s := guardedRun_of_execute (fun _ _ ↦ carriedOut_of_isCarriedOut) hexecute
  exact ⟨s, hrun, handler_of_isIdle (congrArg LampSeen.isIdle hs),
    ended_of_left (s := s) (by rw [hs]; decide), congrArg LampSeen.givenUp hs,
    congrArg LampSeen.registered hs, congrArg LampSeen.running hs⟩

end MaRuntime.Kinds
