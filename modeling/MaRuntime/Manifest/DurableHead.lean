import MaRuntime.Manifest.SharedHead

/-!
# The root that survives the process

The runtime's IPNS name and `root_cid` in `config.yaml` are written by the shutdown, by the task
that publishes the root from time to time, and the name by every request `:publish` besides. Each of
them reads the root from the statistics, and writes it when its call of Kubo completes, without a
look at what the pointer holds by then.

`durable_sorted` says that neither pointer moves back, and that a root which a request was answered
with is never followed by an older one, along every run in which a publisher whose call completes
has not been overtaken by one with a newer root, and the shutdown does not take the statistics back
behind a root that somebody has read there (`KeepsDurable`). Two requests of which the first one to
read is the last one to complete move the name back (`durable_overtaken`), as every publisher does
who completes after it was overtaken (`not_inOrder_of_overtaken`).

Main definitions: `nameWrite`, `configWrite`, `KeepsDurable`.
Main results: `pointerStep_of_step`, `durable_sorted`, `durable_overtaken`.
-/

set_option autoImplicit false
set_option relaxedAutoImplicit false

namespace MaRuntime.Manifest

open Runs

variable {Cid Replies : Type} {store : Store Cid} {s t : HeadState Cid Replies}

/-! ### Who writes the pointers -/

/-- The snapshot that the shutdown is about to write to the pointers. -/
def Shutdown.latest : Shutdown Cid → Option (Snapshot Cid)
  | .persisting latest | .publishing latest => some latest
  | _ => none

/-- The snapshot of the periodic publication. -/
def Republish.latest : Republish Cid → Option (Snapshot Cid)
  | .document latest | .name latest _ | .persist latest => some latest
  | .idle => none

/-- A publisher has read a snapshot, and may still write it to a pointer. -/
inductive Holds (s : HeadState Cid Replies) (snapshot : Snapshot Cid) : Prop
  | shutdown (h : s.shutdown.latest = some snapshot)
  | republish (h : s.republish.latest = some snapshot)
  | request (id : Nat) (h : s.requests id = some (.publishing snapshot))

/-- The snapshot that a step puts at the name. -/
def nameWrite (s : HeadState Cid Replies) : HeadAction Cid Replies → Option (Snapshot Cid)
  | .shutdownNext true =>
    match s.shutdown with
    | .publishing latest => some latest
    | _ => none
  | .republishNext true =>
    match s.republish with
    | .name latest _ => some latest
    | _ => none
  | .requestNext id true =>
    match s.requests id with
    | some (.publishing root) => some root
    | _ => none
  | _ => none

/-- The snapshot that a step saves in the configuration. -/
def configWrite [DecidableEq Cid] (s : HeadState Cid Replies) :
    HeadAction Cid Replies → Option (Snapshot Cid)
  | .shutdownNext true =>
    match s.shutdown with
    | .persisting latest => if s.configRoot = some latest.root.cid then none else some latest
    | _ => none
  | .republishNext true =>
    match s.republish with
    | .persist latest => if s.configRoot = some latest.root.cid then none else some latest
    | _ => none
  | _ => none

theorem Holds.of_nameWrite {action : HeadAction Cid Replies} {snapshot : Snapshot Cid}
    (h : nameWrite s action = some snapshot) : Holds s snapshot := by
  unfold nameWrite at h
  split at h
  · split at h
    · rename_i hshutdown
      exact .shutdown (by rw [hshutdown]; exact h)
    · cases h
  · split at h
    · rename_i hrepublish
      exact .republish (by rw [hrepublish]; exact h)
    · cases h
  · split at h
    · rename_i id _ root hrequest
      obtain rfl := Option.some.inj h
      exact .request id hrequest
    · cases h
  · cases h

/-- A request after one of them has changed. -/
theorem requests_setRequest {id other : Nat} {request before : PublishRequest Cid}
    (h : (s.setRequest id request).requests other = some before) :
    s.requests other = some before ∨ request = before := by
  by_cases hsame : other = id
  · subst hsame
    exact .inr (Option.some.inj ((Function.update_self other _ s.requests).symm.trans h))
  · exact .inl ((Function.update_of_ne hsame _ s.requests).symm.trans h)

section Steps

variable [DecidableEq Cid]

theorem Holds.of_configWrite {action : HeadAction Cid Replies} {snapshot : Snapshot Cid}
    (h : configWrite s action = some snapshot) : Holds s snapshot := by
  unfold configWrite at h
  split at h
  · split at h
    · rename_i hshutdown
      split_ifs at h
      exact .shutdown (by rw [hshutdown]; exact h)
    · cases h
  · split at h
    · rename_i hrepublish
      split_ifs at h
      exact .republish (by rw [hrepublish]; exact h)
    · cases h
  · cases h

/-- What a step does to the pointers and to those who write them. -/
structure PointerStep (s t : HeadState Cid Replies) (action : HeadAction Cid Replies) : Prop where
  names : t.names = s.names ++ ((nameWrite s action).map Snapshot.root).toList
  configs : t.configs = s.configs ++ ((configWrite s action).map Snapshot.root).toList
  shutdown : ∀ snapshot, t.shutdown.latest = some snapshot →
    s.shutdown.latest = some snapshot ∨ s.snapshot = some snapshot
  republish : ∀ snapshot, t.republish.latest = some snapshot →
    s.republish.latest = some snapshot ∨ s.snapshot = some snapshot
  request : ∀ id snapshot, t.requests id = some (.publishing snapshot) →
    s.requests id = some (.publishing snapshot) ∨ s.snapshot = some snapshot
  answered : ∀ id root place, t.requests id = some (.answered root place) →
    s.requests id = some (.answered root place) ∨
      place = s.names.length ∧ (nameWrite s action).map Snapshot.root = some root
  saved : ∀ rc saved, t.shutdown = .writingStats rc saved →
    s.shutdown = .writingStats rc saved ∨
      saved.number = s.lastNumber ∧ ∃ i, statsCid (s.writer.tasks i) = some saved.cid

/-- A publisher after a step was one before it, or has just read the statistics. -/
theorem PointerStep.held {action : HeadAction Cid Replies} {snapshot : Snapshot Cid}
    (h : PointerStep s t action) (hholds : Holds t snapshot) :
    Holds s snapshot ∨ s.snapshot = some snapshot := by
  cases hholds with
  | shutdown hshutdown => exact (h.shutdown _ hshutdown).imp_left .shutdown
  | republish hrepublish => exact (h.republish _ hrepublish).imp_left .republish
  | request id hrequest => exact (h.request id _ hrequest).imp_left (.request id)

/-- A step that has nothing to do with the pointers. -/
theorem pointerStep_quiet {action : HeadAction Cid Replies} (hnames : t.names = s.names)
    (hconfigs : t.configs = s.configs) (hshutdown : t.shutdown = s.shutdown)
    (hrepublish : t.republish = s.republish) (hrequests : t.requests = s.requests)
    (hname : nameWrite s action = none) (hconfig : configWrite s action = none) :
    PointerStep s t action where
  names := by rw [hnames, hname]; exact (List.append_nil _).symm
  configs := by rw [hconfigs, hconfig]; exact (List.append_nil _).symm
  shutdown snapshot h := .inl (hshutdown ▸ h)
  republish snapshot h := .inl (hrepublish ▸ h)
  request id snapshot h := .inl (hrequests ▸ h)
  answered id root place h := .inl (hrequests ▸ h)
  saved rc saved h := .inl (hshutdown ▸ h)

/-- A step of the shutdown that leaves the pointers alone. -/
theorem pointerStep_shutdown {action : HeadAction Cid Replies} (hnames : t.names = s.names)
    (hconfigs : t.configs = s.configs) (hrepublish : t.republish = s.republish)
    (hrequests : t.requests = s.requests) (hname : nameWrite s action = none)
    (hconfig : configWrite s action = none)
    (hshutdown : ∀ snapshot, t.shutdown.latest = some snapshot →
      s.shutdown.latest = some snapshot ∨ s.snapshot = some snapshot)
    (hsaved : ∀ rc saved, t.shutdown = .writingStats rc saved →
      s.shutdown = .writingStats rc saved ∨
        saved.number = s.lastNumber ∧ ∃ i, statsCid (s.writer.tasks i) = some saved.cid) :
    PointerStep s t action where
  names := by rw [hnames, hname]; exact (List.append_nil _).symm
  configs := by rw [hconfigs, hconfig]; exact (List.append_nil _).symm
  shutdown := hshutdown
  republish snapshot h := .inl (hrepublish ▸ h)
  request id snapshot h := .inl (hrequests ▸ h)
  answered id root place h := .inl (hrequests ▸ h)
  saved := hsaved

/-- A request that has read the statistics, or is refused. -/
theorem pointerStep_setRequest {action : HeadAction Cid Replies} {id : Nat}
    {request : PublishRequest Cid} (hname : nameWrite s action = none)
    (hconfig : configWrite s action = none)
    (hreads : ∀ snapshot, request = .publishing snapshot → s.snapshot = some snapshot)
    (hunanswered : ∀ root place, request ≠ .answered root place) :
    PointerStep s (s.setRequest id request) action where
  names := by rw [hname]; exact (List.append_nil _).symm
  configs := by rw [hconfig]; exact (List.append_nil _).symm
  shutdown _ h := .inl h
  republish _ h := .inl h
  request _ snapshot h := (requests_setRequest h).imp_right (hreads snapshot)
  answered _ root place h := (requests_setRequest h).imp_right (absurd · (hunanswered root place))
  saved _ _ h := .inl h

theorem pointerStep_afterWriter (writer : WriterState Cid Replies)
    (action : WriterAction Cid Replies) :
    PointerStep s (s.afterWriter action writer) (.writer action) := by
  cases action with
  | call i call | lock i | reply i succeeds | closure i replies =>
    exact pointerStep_quiet rfl rfl rfl rfl rfl rfl rfl
  | stats i =>
    refine pointerStep_shutdown rfl rfl rfl rfl rfl rfl ?_ ?_
    · intro snapshot h
      simp only [HeadState.afterWriter] at h
      split at h
      · split_ifs at h
        · cases h
        · exact .inl h
      · exact .inl h
    · intro rc saved h
      simp only [HeadState.afterWriter] at h
      split at h
      · rename_i newCid _ hstats
        split_ifs at h
        · injection h with _ hsaved
          subst hsaved
          exact .inr ⟨rfl, i, hstats⟩
        · exact .inl h
      · exact .inl h

theorem persistRootCid_pointers (s : HeadState Cid Replies) (root : Snapshot Cid) (saves : Bool) :
    (s.persistRootCid root saves).names = s.names ∧
      (s.persistRootCid root saves).requests = s.requests ∧
      (s.persistRootCid root saves).shutdown = s.shutdown ∧
      (s.persistRootCid root saves).republish = s.republish ∧
      (s.persistRootCid root saves).configs = s.configs ++
        if s.configRoot = some root.root.cid then [] else if saves then [root.root] else [] := by
  unfold HeadState.persistRootCid
  split_ifs
  · exact ⟨rfl, rfl, rfl, rfl, (List.append_nil _).symm⟩
  · exact ⟨rfl, rfl, rfl, rfl, rfl⟩
  · exact ⟨rfl, rfl, rfl, rfl, (List.append_nil _).symm⟩

theorem pointerStep_shutdownNext {succeeds : Bool} (hroot : s.writer.rootCid ≠ none)
    (h : s.shutdownNext succeeds = some t) : PointerStep s t (.shutdownNext succeeds) := by
  have hname (hpublishing : ∀ latest, s.shutdown ≠ .publishing latest) :
      nameWrite s (.shutdownNext succeeds) = none := by
    cases succeeds with
    | false => rfl
    | true => simp only [nameWrite]
  have hconfig (hpersisting : ∀ latest, s.shutdown ≠ .persisting latest) :
      configWrite s (.shutdownNext succeeds) = none := by
    cases succeeds with
    | false => rfl
    | true => simp only [configWrite]
  unfold HeadState.shutdownNext at h
  split at h
  · rename_i rc task hshutdown
    have hother := hname (by rw [hshutdown]; exact fun _ heq ↦ (nomatch heq))
    have hother' := hconfig (by rw [hshutdown]; exact fun _ heq ↦ (nomatch heq))
    split at h
    · obtain rfl := Option.some.inj h
      exact pointerStep_shutdown rfl rfl rfl rfl hother hother' (fun _ h ↦ (nomatch h))
        fun _ _ h ↦ (nomatch h)
    · cases h
  · rename_i rc saved hshutdown
    have hother := hname (by rw [hshutdown]; exact fun _ heq ↦ (nomatch heq))
    have hother' := hconfig (by rw [hshutdown]; exact fun _ heq ↦ (nomatch heq))
    obtain rfl := Option.some.inj h
    exact pointerStep_shutdown rfl rfl rfl rfl hother hother' (fun _ h ↦ (nomatch h))
      fun _ _ h ↦ (nomatch h)
  · rename_i rc hshutdown
    have hother := hname (by rw [hshutdown]; exact fun _ heq ↦ (nomatch heq))
    have hother' := hconfig (by rw [hshutdown]; exact fun _ heq ↦ (nomatch heq))
    obtain rfl := Option.some.inj h
    refine pointerStep_shutdown rfl rfl rfl rfl hother hother' (fun snapshot h ↦ .inr ?_)
      fun _ _ h ↦ (nomatch h)
    -- the statistics always hold a root, so the one read first is not fallen back on
    obtain ⟨cid, hcid⟩ := Option.ne_none_iff_exists'.mp hroot
    have hlatest := Option.some.inj h
    simp only [HeadState.snapshot, hcid, Option.map_some, Option.getD_some] at hlatest ⊢
    exact congrArg some hlatest
  · rename_i latest hshutdown
    have hother := hname (by rw [hshutdown]; exact fun _ heq ↦ (nomatch heq))
    obtain rfl := Option.some.inj h
    obtain ⟨hnames, hrequests, -, hrepublish, hconfigs⟩ :=
      persistRootCid_pointers s latest succeeds
    refine ⟨?_, ?_, fun snapshot h ↦ .inl ?_, fun snapshot h ↦ .inl (hrepublish ▸ h),
      fun id snapshot h ↦ .inl (hrequests ▸ h), fun id root place h ↦ .inl (hrequests ▸ h),
      fun _ _ h ↦ (nomatch h)⟩
    · rw [hother]
      exact hnames.trans (List.append_nil _).symm
    · refine hconfigs.trans (congrArg (s.configs ++ ·) ?_)
      cases succeeds with
      | false =>
        show (if _ then [] else []) = []
        split_ifs
        all_goals rfl
      | true =>
        simp only [configWrite, hshutdown]
        split_ifs
        all_goals rfl
    · rw [hshutdown]
      exact h
  · rename_i latest hshutdown
    have hother' := hconfig (by rw [hshutdown]; exact fun _ heq ↦ (nomatch heq))
    cases succeeds with
    | false =>
      obtain rfl := Option.some.inj h
      exact pointerStep_shutdown rfl rfl rfl rfl rfl rfl (fun _ h ↦ (nomatch h))
        fun _ _ h ↦ (nomatch h)
    | true =>
      obtain rfl := Option.some.inj h
      refine ⟨?_, ?_, fun _ h ↦ (nomatch h), fun _ h ↦ .inl h, fun _ _ h ↦ .inl h,
        fun _ _ _ h ↦ .inl h, fun _ _ h ↦ (nomatch h)⟩
      · simp only [nameWrite, hshutdown]
        rfl
      · rw [hother']
        exact (List.append_nil _).symm
  · cases h
  · cases h

theorem pointerStep_republishNext {succeeds : Bool} (h : s.republishNext succeeds = some t) :
    PointerStep s t (.republishNext succeeds) := by
  unfold HeadState.republishNext at h
  split at h
  · rename_i latest hrepublish
    obtain rfl := Option.some.inj h
    refine ⟨?_, ?_, fun _ h ↦ .inl h, fun _ h ↦ .inl (by rw [hrepublish]; exact h),
      fun _ _ h ↦ .inl h, fun _ _ _ h ↦ .inl h, fun _ _ h ↦ .inl h⟩
    all_goals
      cases succeeds with
      | false => exact (List.append_nil _).symm
      | true =>
        simp only [nameWrite, configWrite, hrepublish]
        exact (List.append_nil _).symm
  · rename_i latest didOk hrepublish
    cases succeeds with
    | false =>
      obtain rfl := Option.some.inj h
      exact ⟨(List.append_nil _).symm, (List.append_nil _).symm, fun _ h ↦ .inl h,
        fun _ h ↦ (nomatch h), fun _ _ h ↦ .inl h, fun _ _ _ h ↦ .inl h, fun _ _ h ↦ .inl h⟩
    | true =>
      obtain rfl := Option.some.inj h
      refine ⟨?_, ?_, fun _ h ↦ .inl h, fun _ h ↦ .inl ?_, fun _ _ h ↦ .inl h,
        fun _ _ _ h ↦ .inl h, fun _ _ h ↦ .inl h⟩
      · simp only [nameWrite, hrepublish]
        rfl
      · simp only [configWrite, hrepublish]
        exact (List.append_nil _).symm
      · rw [hrepublish]
        cases didOk with
        | false => cases h
        | true => exact h
  · rename_i latest hrepublish
    obtain rfl := Option.some.inj h
    obtain ⟨hnames, hrequests, hshutdown, -, hconfigs⟩ :=
      persistRootCid_pointers s latest succeeds
    refine ⟨?_, ?_, fun _ h ↦ .inl (hshutdown ▸ h), fun _ h ↦ (nomatch h),
      fun _ _ h ↦ .inl (hrequests ▸ h), fun _ _ _ h ↦ .inl (hrequests ▸ h),
      fun _ _ h ↦ .inl (hshutdown ▸ h)⟩
    · refine hnames.trans ?_
      cases succeeds with
      | false => exact (List.append_nil _).symm
      | true =>
        simp only [nameWrite, hrepublish]
        exact (List.append_nil _).symm
    · refine hconfigs.trans (congrArg (s.configs ++ ·) ?_)
      cases succeeds with
      | false =>
        show (if _ then [] else []) = []
        split_ifs
        all_goals rfl
      | true =>
        simp only [configWrite, hrepublish]
        split_ifs
        all_goals rfl
  · cases h

/-- What every step does to the pointers. -/
theorem pointerStep_of_step {action : HeadAction Cid Replies} (hroot : s.writer.rootCid ≠ none)
    (h : headStep store s action = some t) : PointerStep s t action := by
  cases action with
  | writer action =>
    obtain ⟨writer, -, rfl⟩ := Option.map_eq_some_iff.mp h
    exact pointerStep_afterWriter writer action
  | crud i call =>
    obtain ⟨writer, -, rfl⟩ := Option.map_eq_some_iff.mp h
    exact pointerStep_quiet rfl rfl rfl rfl rfl rfl rfl
  | cancel i =>
    simp only [headStep, HeadState.cancelTask] at h
    split at h
    · obtain rfl := Option.some.inj h
      exact pointerStep_quiet rfl rfl rfl rfl rfl rfl rfl
    · obtain rfl := Option.some.inj h
      exact pointerStep_quiet rfl rfl rfl rfl rfl rfl rfl
    · obtain rfl := Option.some.inj h
      exact pointerStep_quiet rfl rfl rfl rfl rfl rfl rfl
    · cases h
  | shutdown i save hasEntities =>
    simp only [headStep] at h
    split at h
    · obtain rfl := Option.some.inj h
      exact pointerStep_shutdown rfl rfl rfl rfl rfl rfl (fun _ h ↦ by cases h)
        fun _ _ h ↦ by cases h
    · split_ifs at h
      · obtain ⟨writer, -, rfl⟩ := Option.map_eq_some_iff.mp h
        exact pointerStep_shutdown rfl rfl rfl rfl rfl rfl (fun _ h ↦ by cases h)
          fun _ _ h ↦ by cases h
      · obtain rfl := Option.some.inj h
        exact pointerStep_shutdown rfl rfl rfl rfl rfl rfl (fun _ h ↦ by cases h)
          fun _ _ h ↦ by cases h
    · cases h
  | shutdownNext succeeds => exact pointerStep_shutdownNext hroot h
  | tick cacheWarm builds =>
    simp only [headStep] at h
    split at h
    · obtain rfl := Option.some.inj h
      exact pointerStep_quiet rfl rfl rfl rfl rfl rfl rfl
    · rename_i latest _ hsnapshot
      split_ifs at h
      · obtain rfl := Option.some.inj h
        exact pointerStep_quiet rfl rfl rfl rfl rfl rfl rfl
      · obtain rfl := Option.some.inj h
        exact ⟨(List.append_nil _).symm, (List.append_nil _).symm, fun _ h ↦ .inl h,
          fun _ h ↦ .inr (hsnapshot.trans h), fun _ _ h ↦ .inl h, fun _ _ _ h ↦ .inl h,
          fun _ _ h ↦ .inl h⟩
      · obtain rfl := Option.some.inj h
        exact pointerStep_quiet rfl rfl rfl rfl rfl rfl rfl
    · cases h
  | republishNext succeeds => exact pointerStep_republishNext h
  | request id =>
    simp only [headStep] at h
    split at h
    · rename_i root _ hsnapshot
      obtain rfl := Option.some.inj h
      refine pointerStep_setRequest rfl rfl (fun snapshot heq ↦ ?_) fun _ _ heq ↦ by cases heq
      injection heq with hsame
      exact hsnapshot.trans (congrArg some hsame)
    · obtain rfl := Option.some.inj h
      exact pointerStep_setRequest rfl rfl (fun _ heq ↦ by cases heq) fun _ _ heq ↦ by cases heq
    · cases h
  | requestNext id succeeds =>
    simp only [headStep] at h
    split at h
    · rename_i root hrequest
      cases succeeds with
      | false =>
        obtain rfl := Option.some.inj h
        exact pointerStep_setRequest rfl rfl (fun _ heq ↦ by cases heq) fun _ _ heq ↦ by cases heq
      | true =>
        obtain rfl := Option.some.inj h
        have hname : nameWrite s (.requestNext id true) = some root := by
          simp only [nameWrite, hrequest]
        refine ⟨?_, (List.append_nil _).symm, fun _ h ↦ .inl h, fun _ h ↦ .inl h,
          fun other snapshot h ↦ (requests_setRequest h).imp_right fun heq ↦ (by cases heq),
          fun other answer place h ↦ (requests_setRequest h).imp_right fun heq ↦ ?_,
          fun _ _ h ↦ .inl h⟩
        · rw [hname]
          rfl
        · injection heq with hroot hplace
          rw [hname]
          exact ⟨hplace.symm, congrArg some hroot⟩
    · cases h

end Steps

/-! ### The roots of a pointer -/

section Logs

variable {log more : List (Head Cid)} {root : Head Cid} {seen : Nat}

/-- The roots of a pointer, in the order of their publication. -/
def InOrder (log : List (Head Cid)) : Prop :=
  log.Pairwise fun older newer ↦ older.number ≤ newer.number

/-- A root that is no older than those which a pointer had had when it was read. -/
structure Seen (log : List (Head Cid)) (seen : Nat) (root : Head Cid) : Prop where
  length : seen ≤ log.length
  before : ∀ head ∈ log.take seen, head.number ≤ root.number

/-- No newer root has been written to a pointer since a root was read. -/
def InTurn (log : List (Head Cid)) (seen : Nat) (root : Head Cid) : Prop :=
  ∀ head ∈ log.drop seen, head.number ≤ root.number

theorem Seen.append (h : Seen log seen root) : Seen (log ++ more) seen root := by
  constructor
  · rw [List.length_append]
    exact Nat.le_add_right_of_le h.length
  · rw [List.take_append_of_le_length h.length]
    exact h.before

/-- A root that is read now. -/
theorem seen_length (h : ∀ head ∈ log, head.number ≤ root.number) : Seen log log.length root :=
  ⟨Nat.le_refl _, by rwa [List.take_length]⟩

theorem Seen.number_le (h : Seen log seen root) (hturn : InTurn log seen root) :
    ∀ head ∈ log, head.number ≤ root.number := by
  intro head hhead
  rw [← List.take_append_drop seen log] at hhead
  rcases List.mem_append.mp hhead with hbefore | hsince
  · exact h.before head hbefore
  · exact hturn head hsince

/-- A pointer that gets the root of a publisher who has not been overtaken. -/
theorem InOrder.write {snapshot : Option (Snapshot Cid)} (h : InOrder log)
    (hle : ∀ sn, snapshot = some sn → ∀ head ∈ log, head.number ≤ sn.root.number) :
    InOrder (log ++ (snapshot.map Snapshot.root).toList) := by
  cases snapshot with
  | none => exact (List.append_nil log).symm ▸ h
  | some sn =>
    refine List.pairwise_append.mpr ⟨h, List.pairwise_singleton _ _, ?_⟩
    intro head hhead newest hnewest
    obtain rfl := List.mem_singleton.mp hnewest
    exact hle sn rfl head hhead

/-- The root of a publisher who has been overtaken takes the pointer back. -/
theorem not_inOrder_concat (h : ¬InTurn log seen root) : ¬InOrder (log ++ [root]) := by
  intro horder
  refine h fun head hhead ↦ ?_
  exact (List.pairwise_append.mp horder).2.2 head (List.mem_of_mem_drop hhead) root
    (List.mem_singleton_self root)

end Logs

/-! ### The condition and the invariant -/

/-- A root that somebody has read in the statistics to write it to a pointer, or has written. -/
inductive IsRead (s : HeadState Cid Replies) (head : Head Cid) : Prop
  | name (h : head ∈ s.names)
  | config (h : head ∈ s.configs)
  | held {snapshot : Snapshot Cid} (h : Holds s snapshot) (hroot : snapshot.root = head)

/-- A publisher whose call completes has not been overtaken by one with a newer root; and a shutdown
that does not find in the statistics what it has saved takes back no root that was read there. -/
structure KeepsDurable [DecidableEq Cid] (s : HeadState Cid Replies)
    (action : HeadAction Cid Replies) : Prop where
  name : ∀ snapshot, nameWrite s action = some snapshot →
    InTurn s.names snapshot.names snapshot.root
  config : ∀ snapshot, configWrite s action = some snapshot →
    InTurn s.configs snapshot.configs snapshot.root
  saved : FindsSaved s action ∨ ∀ rc saved head, s.shutdown = .writingStats rc saved →
    IsRead s head → head.number ≤ saved.number

/-- A root under the number it was published with. -/
def Dated (s : HeadState Cid Replies) (head : Head Cid) : Prop :=
  s.published[head.number]? = some head.cid

structure Durable (s : HeadState Cid Replies) : Prop where
  locked : Locked s.writer
  numbered : Numbered s
  saved : ∀ rc saved, s.shutdown = .writingStats rc saved → Dated s saved
  read : ∀ head, IsRead s head → Dated s head ∧ head.number ≤ s.rootNumber
  heldNames : ∀ snapshot, Holds s snapshot → Seen s.names snapshot.names snapshot.root
  heldConfigs : ∀ snapshot, Holds s snapshot → Seen s.configs snapshot.configs snapshot.root
  names : InOrder s.names
  configs : InOrder s.configs
  answered : ∀ id root place, s.requests id = some (.answered root place) →
    s.names[place]? = some root

theorem durable_start (initialCid : Cid) (configRoot : Option Cid) :
    Durable (.start initialCid configRoot : HeadState Cid Replies) := by
  have hnone (snapshot : Snapshot Cid) :
      ¬Holds (.start initialCid configRoot : HeadState Cid Replies) snapshot := by
    rintro (h | h | ⟨id, h⟩)
    all_goals cases h
  refine ⟨locked_start initialCid configRoot, numbered_start initialCid configRoot,
    fun _ _ h ↦ (nomatch h), ?_, fun snapshot h ↦ absurd h (hnone snapshot),
    fun snapshot h ↦ absurd h (hnone snapshot), .nil, .nil, fun _ _ _ h ↦ (nomatch h)⟩
  rintro head (h | h | ⟨h, -⟩)
  · cases h
  · cases h
  · exact absurd h (hnone _)

theorem HeadEffect.published {action : HeadAction Cid Replies} (h : HeadEffect s t action) :
    ∃ more, t.published = s.published ++ more := by
  cases h with
  | publish hbefore hafter htasks hcid hrootCid hlock hpublished hnumber => exact ⟨_, hpublished⟩
  | keep hwriter hpublished hnumber => exact ⟨[], hpublished.trans (List.append_nil _).symm⟩
  | pass hpasses hpublished hnumber => exact ⟨[], hpublished.trans (List.append_nil _).symm⟩
  | stats hbefore htasks hafter hcid hrootCid hlock hpublished hnumber =>
    exact ⟨[], hpublished.trans (List.append_nil _).symm⟩
  | cancel hbefore hwriter hpublished hnumber =>
    exact ⟨[], hpublished.trans (List.append_nil _).symm⟩
  | write hshutdown hwriter hpublished hnumber =>
    exact ⟨[], hpublished.trans (List.append_nil _).symm⟩

theorem Dated.step {action : HeadAction Cid Replies} {head : Head Cid} (hs : Dated s head)
    (h : HeadEffect s t action) : Dated t head := by
  obtain ⟨more, hpublished⟩ := h.published
  obtain ⟨hlt, -⟩ := List.getElem?_eq_some_iff.mp hs
  unfold Dated
  rw [hpublished, List.getElem?_append_left hlt]
  exact hs

/-- What one reads in the statistics has the number of the root there. -/
theorem Numbered.dated {snapshot : Snapshot Cid} (hs : Numbered s)
    (h : s.snapshot = some snapshot) :
    Dated s snapshot.root ∧ snapshot.root.number = s.rootNumber ∧
      snapshot.names = s.names.length ∧ snapshot.configs = s.configs.length := by
  obtain ⟨cid, hcid, rfl⟩ := Option.map_eq_some_iff.mp h
  exact ⟨hs.root.trans hcid, rfl, rfl, rfl⟩

section Runs

variable [DecidableEq Cid]

/-- A shutdown that does not find what it has saved. -/
theorem eq_of_not_findsSaved {action : HeadAction Cid Replies} (hfinds : ¬FindsSaved s action)
    (h : headStep store s action = some t) :
    ∃ rc saved, s.shutdown = .writingStats rc saved ∧ s.writer.rootCid ≠ some saved.cid ∧
      t = { s.writeStats saved with shutdown := .reading rc } := by
  cases action with
  | shutdownNext succeeds =>
    obtain ⟨rc, hfinds⟩ := not_forall.mp hfinds
    obtain ⟨saved, hfinds⟩ := not_forall.mp hfinds
    obtain ⟨hshutdown, hne⟩ := Classical.not_imp.mp hfinds
    simp only [headStep, HeadState.shutdownNext, hshutdown] at h
    exact ⟨rc, saved, hshutdown, hne, (Option.some.inj h).symm⟩
  | writer | crud | cancel | shutdown | tick | republishNext | request | requestNext =>
    exact absurd trivial hfinds

/-- The statistics are taken back, but not behind a root that was read there. -/
theorem Durable.behind {rc : Snapshot Cid} {saved : Head Cid} (hs : Durable s)
    (hshutdown : s.shutdown = .writingStats rc saved) (hne : s.writer.rootCid ≠ some saved.cid)
    (hread : ∀ head, IsRead s head → head.number ≤ saved.number) :
    Durable { s.writeStats saved with shutdown := .reading rc } := by
  have hnumber : (s.writeStats saved).rootNumber = saved.number := if_neg hne
  have hholds {snapshot : Snapshot Cid}
      (h : Holds { s.writeStats saved with shutdown := .reading rc } snapshot) :
      Holds s snapshot := by
    rcases h with h | h | ⟨id, h⟩
    · cases h
    · exact .republish h
    · exact .request id h
  refine ⟨⟨hs.locked.holder, hs.locked.writing⟩, ⟨hs.numbered.last, ?_, Option.some_ne_none _⟩,
    fun _ _ h ↦ (nomatch h), ?_, fun snapshot h ↦ hs.heldNames snapshot (hholds h),
    fun snapshot h ↦ hs.heldConfigs snapshot (hholds h), hs.names, hs.configs, hs.answered⟩
  · show s.published[(s.writeStats saved).rootNumber]? = some saved.cid
    rw [hnumber]
    exact hs.saved rc saved hshutdown
  · intro head hhead
    have hbefore : IsRead s head := by
      rcases hhead with h | h | ⟨h, hroot⟩
      · exact .name h
      · exact .config h
      · exact .held (hholds h) hroot
    refine ⟨(hs.read head hbefore).1, ?_⟩
    show head.number ≤ (s.writeStats saved).rootNumber
    rw [hnumber]
    exact hread head hbefore

/-- The statistics are not taken back. -/
theorem Durable.forth {action : HeadAction Cid Replies} (hs : Durable s)
    (hkeeps : KeepsDurable s action) (hfinds : FindsSaved s action)
    (h : headStep store s action = some t) : Durable t := by
  have heffect := headEffect_of_step h
  have hpointers := pointerStep_of_step hs.numbered.isSome h
  obtain ⟨hnumbered, hle⟩ := hs.numbered.step hs.locked hfinds heffect
  have hnameHeld {snapshot : Snapshot Cid} (hname : nameWrite s action = some snapshot) :
      ∀ head ∈ s.names, head.number ≤ snapshot.root.number :=
    (hs.heldNames _ (.of_nameWrite hname)).number_le (hkeeps.name _ hname)
  have hconfigHeld {snapshot : Snapshot Cid} (hconfig : configWrite s action = some snapshot) :
      ∀ head ∈ s.configs, head.number ≤ snapshot.root.number :=
    (hs.heldConfigs _ (.of_configWrite hconfig)).number_le (hkeeps.config _ hconfig)
  have hread (head : Head Cid) (hhead : IsRead t head) :
      Dated s head ∧ head.number ≤ s.rootNumber := by
    have hheld {snapshot : Snapshot Cid} (h : Holds s snapshot) :
        Dated s snapshot.root ∧ snapshot.root.number ≤ s.rootNumber :=
      hs.read _ (.held h rfl)
    rcases hhead with hmem | hmem | ⟨hholds, rfl⟩
    · rw [hpointers.names] at hmem
      rcases List.mem_append.mp hmem with hold | hnew
      · exact hs.read head (.name hold)
      · obtain ⟨snapshot, hname, rfl⟩ := Option.map_eq_some_iff.mp (Option.mem_toList.mp hnew)
        exact hheld (.of_nameWrite hname)
    · rw [hpointers.configs] at hmem
      rcases List.mem_append.mp hmem with hold | hnew
      · exact hs.read head (.config hold)
      · obtain ⟨snapshot, hconfig, rfl⟩ := Option.map_eq_some_iff.mp (Option.mem_toList.mp hnew)
        exact hheld (.of_configWrite hconfig)
    · rcases hpointers.held hholds with hold | hnew
      · exact hheld hold
      · obtain ⟨hdated, hnumber, -, -⟩ := hs.numbered.dated hnew
        exact ⟨hdated, Nat.le_of_eq hnumber⟩
  refine ⟨hs.locked.step heffect, hnumbered, ?_, ?_, ?_, ?_, ?_, ?_, ?_⟩
  · intro rc saved hshutdown
    rcases hpointers.saved rc saved hshutdown with hold | ⟨hnumber, i, hstats⟩
    · exact (hs.saved rc saved hold).step heffect
    · have hdated : Dated s saved := by
        unfold Dated
        rw [hnumber, HeadState.lastNumber, ← List.getLast?_eq_getElem?, hs.numbered.last,
          hs.locked.writing i _ hstats]
      exact hdated.step heffect
  · intro head hhead
    obtain ⟨hdated, hnumber⟩ := hread head hhead
    exact ⟨hdated.step heffect, Nat.le_trans hnumber hle⟩
  · intro snapshot hholds
    rw [hpointers.names]
    rcases hpointers.held hholds with hold | hnew
    · exact (hs.heldNames _ hold).append
    · obtain ⟨-, hnumber, hnames, -⟩ := hs.numbered.dated hnew
      rw [hnames]
      refine (seen_length fun head hhead ↦ ?_).append
      rw [hnumber]
      exact (hs.read head (.name hhead)).2
  · intro snapshot hholds
    rw [hpointers.configs]
    rcases hpointers.held hholds with hold | hnew
    · exact (hs.heldConfigs _ hold).append
    · obtain ⟨-, hnumber, -, hconfigs⟩ := hs.numbered.dated hnew
      rw [hconfigs]
      refine (seen_length fun head hhead ↦ ?_).append
      rw [hnumber]
      exact (hs.read head (.config hhead)).2
  · rw [hpointers.names]
    exact hs.names.write fun _ ↦ hnameHeld
  · rw [hpointers.configs]
    exact hs.configs.write fun _ ↦ hconfigHeld
  · intro id root place hanswered
    rw [hpointers.names]
    rcases hpointers.answered id root place hanswered with hold | ⟨rfl, hname⟩
    · have hplace := hs.answered id root place hold
      obtain ⟨hlt, -⟩ := List.getElem?_eq_some_iff.mp hplace
      rw [List.getElem?_append_left hlt]
      exact hplace
    · rw [hname]
      exact List.getElem?_concat_length

theorem Durable.step {action : HeadAction Cid Replies} (hs : Durable s)
    (hkeeps : KeepsDurable s action) (h : headStep store s action = some t) : Durable t := by
  by_cases hfinds : FindsSaved s action
  · exact hs.forth hkeeps hfinds h
  · obtain ⟨rc, saved, hshutdown, hne, rfl⟩ := eq_of_not_findsSaved hfinds h
    have hread := hkeeps.saved.resolve_left hfinds
    exact hs.behind hshutdown hne fun head ↦ hread rc saved head hshutdown

/-- A publisher who completes after it was overtaken takes its pointer back. -/
theorem not_inOrder_of_overtaken {action : HeadAction Cid Replies} {snapshot : Snapshot Cid}
    (hs : s.writer.rootCid ≠ none) (h : headStep store s action = some t) :
    (nameWrite s action = some snapshot → ¬InTurn s.names snapshot.names snapshot.root →
      ¬InOrder t.names) ∧
    (configWrite s action = some snapshot → ¬InTurn s.configs snapshot.configs snapshot.root →
      ¬InOrder t.configs) := by
  have hpointers := pointerStep_of_step hs h
  constructor
  · intro hname hovertaken
    rw [hpointers.names, hname]
    exact not_inOrder_concat hovertaken
  · intro hconfig hovertaken
    rw [hpointers.configs, hconfig]
    exact not_inOrder_concat hovertaken

variable {initialCid : Cid} {configRoot : Option Cid} {actions : List (HeadAction Cid Replies)}
  {u : HeadState Cid Replies}

/-- Assumes: a run in which no publisher completes after it was overtaken by one with a newer root,
and in which the shutdown takes no root back that somebody has read in the statistics. The roots of
the name are in the order of their publication, and so are those of the configuration; and from the
place on where a request put the root it was answered with, the name has had no older root. -/
theorem durable_sorted
    (h : GuardedRun (headStep store) KeepsDurable (.start initialCid configRoot) actions u) :
    (u.names.Pairwise fun older newer ↦ older.number ≤ newer.number) ∧
      (u.configs.Pairwise fun older newer ↦ older.number ≤ newer.number) ∧
      (∀ head ∈ u.names ++ u.configs, u.published[head.number]? = some head.cid) ∧
      ∀ id root place, u.requests id = some (.answered root place) →
        u.names[place]? = some root ∧ ∀ head ∈ u.names.drop place, root.number ≤ head.number := by
  have hu : Durable u := by
    refine h.invariant Durable ?_ (durable_start initialCid configRoot)
    intro s action t hs hkeeps hstep
    exact hs.step hkeeps hstep
  refine ⟨hu.names, hu.configs, fun head hhead ↦ ?_, fun id root place hanswered ↦ ?_⟩
  · rcases List.mem_append.mp hhead with hname | hconfig
    · exact (hu.read head (.name hname)).1
    · exact (hu.read head (.config hconfig)).1
  · have hplace := hu.answered id root place hanswered
    refine ⟨hplace, fun head hhead ↦ ?_⟩
    obtain ⟨hlt, rfl⟩ := List.getElem?_eq_some_iff.mp hplace
    have hafter := (List.drop_eq_getElem_cons hlt) ▸ hu.names.drop (i := place)
    rw [List.drop_eq_getElem_cons hlt] at hhead
    rcases List.mem_cons.mp hhead with rfl | hlater
    · exact Nat.le_refl _
    · exact List.rel_of_pairwise_cons hafter hlater

end Runs

/-! ### Two requests, and a periodic publication -/

/-- A mutation up to its copy in the statistics. -/
def mutationA : List (HeadAction ContentCid Unit) :=
  .writer (.call 0 (setProtocol "a")) :: firstMutation 0 ++ [.writer (.stats 0)]

open Classical in
/-- A request that is answered before the next one reads, and a periodic publication up to its
saved configuration. -/
theorem durable_sorted_in_turn :
    ∃ u, GuardedRun (headStep contentStore) KeepsDurable emptyHead
        (.request 0 :: mutationA ++ [.requestNext 0 true, .request 1, .tick false true,
          .requestNext 1 true, .republishNext true, .republishNext true, .republishNext true]) u ∧
      u.names = [⟨protocolCid "", 0⟩, ⟨protocolCid "a", 1⟩, ⟨protocolCid "a", 1⟩] ∧
      u.configs = [⟨protocolCid "a", 1⟩] ∧
      u.names.Pairwise fun older newer ↦ older.number ≤ newer.number := by
  have hrun : ∃ u, GuardedRun (headStep contentStore) KeepsDurable emptyHead
      (.request 0 :: mutationA ++ [.requestNext 0 true, .request 1, .tick false true,
        .requestNext 1 true, .republishNext true, .republishNext true, .republishNext true]) u ∧
      u.names = [⟨protocolCid "", 0⟩, ⟨protocolCid "a", 1⟩, ⟨protocolCid "a", 1⟩] ∧
      u.configs = [⟨protocolCid "a", 1⟩] := by
    have hno {s : HeadState ContentCid Unit} {action : HeadAction ContentCid Unit}
        (hname : nameWrite s action = none) (hconfig : configWrite s action = none)
        (hfinds : FindsSaved s action) : KeepsDurable s action :=
      ⟨fun _ h ↦ (nomatch hname.symm.trans h), fun _ h ↦ (nomatch hconfig.symm.trans h),
        .inl hfinds⟩
    refine ⟨_, .cons (hno rfl rfl trivial) rfl (.cons (hno rfl rfl trivial) rfl
      (.cons (hno rfl rfl trivial) rfl (.cons (hno rfl rfl trivial) rfl
      (.cons (hno rfl rfl trivial) rfl (.cons (hno rfl rfl trivial) rfl
      (.cons (hno rfl rfl trivial) rfl (.cons ⟨?_, ?_, .inl trivial⟩ rfl
      (.cons (hno rfl rfl trivial) rfl (.cons (hno rfl rfl trivial) rfl
      (.cons ⟨?_, ?_, .inl trivial⟩ rfl (.cons (hno rfl rfl trivial) rfl
      (.cons ⟨?_, ?_, .inl trivial⟩ rfl (.cons ⟨?_, ?_, .inl trivial⟩ rfl
      (.nil _)))))))))))))), rfl, rfl⟩
    case refine_1 =>
      intro _ hname head hhead
      obtain rfl := Option.some.inj hname
      exact absurd hhead List.not_mem_nil
    case refine_3 =>
      intro _ hname head hhead
      obtain rfl := Option.some.inj hname
      exact absurd hhead List.not_mem_nil
    case refine_5 =>
      intro _ hname head hhead
      obtain rfl := Option.some.inj hname
      obtain rfl := List.mem_singleton.mp hhead
      exact Nat.le_refl 1
    case refine_8 =>
      intro _ hconfig head hhead
      obtain rfl := Option.some.inj hconfig
      exact absurd hhead List.not_mem_nil
    all_goals exact fun _ hnone ↦ (nomatch hnone)
  obtain ⟨u, hrun, hnames, hconfigs⟩ := hrun
  exact ⟨u, hrun, hnames, hconfigs, (durable_sorted hrun).1⟩

open Classical in
/-- The first of two requests completes last: the name is taken back to the root before the one
that the second request was answered with. -/
theorem durable_overtaken :
    ∃ u, Run (headStep contentStore) emptyHead
        (.request 0 :: mutationA ++ [.request 1, .requestNext 1 true, .requestNext 0 true]) u ∧
      u.published = [protocolCid "", protocolCid "a"] ∧
      u.requests 1 = some (.answered ⟨protocolCid "a", 1⟩ 0) ∧
      u.names = [⟨protocolCid "a", 1⟩, ⟨protocolCid "", 0⟩] ∧
      protocolCid "a" ≠ protocolCid "" :=
  ⟨_, run_of_execute rfl, rfl, rfl, rfl, protocolCid_ne (by decide)⟩

end MaRuntime.Manifest
