import MaRuntime.Library.Runs

/-!
# The worker that refreshes the cache

`spawn_refresh_worker` sweeps over the cached documents, once at its start and then each time an
interval is over. The interval comes through a channel that keeps the latest value and whether there
is one that was not seen, and an interval of zero turns the worker off. The worker keeps its
decision to sweep in a flag, which it computes at one point and uses at another, and compares the
interval it sees with the one it waited for.

Updates, expiries and resolver answers come in any order (`refreshStep`). The setting is respected
(`RespectsInterval`) when no sweep is started while the interval is zero, and one is started after
the interval was turned on again and before the worker waits for a timer. `respectsInterval_iff`
says in which runs that holds, of every state and of those that the worker comes to before it waits:
no update to zero comes between the decision and the sweep, no timer is taken while the interval is
zero, and no change is taken for one between two intervals that went by way of zero (`Orderly`).
Neither a sweep while the worker is off nor one that is left out is excluded by the code
(`interval_not_respected`).

Main definitions: `refreshStep`, `RespectsInterval`, `Orderly`.
Main results: `respectsInterval_iff`, `interval_not_respected`.

Scope. Of a sweep there are only its start and its end. The channel is tokio's: `borrow` reads the
value, and `changed` waits for one that was not seen and marks it as seen, and fails where there is
none and the sender is gone.
-/

set_option autoImplicit false
set_option relaxedAutoImplicit false

namespace MaRuntime.Did

open Runs

/-! ### The machine -/

/-- Where the worker stands: before its first look at the interval; at the head of its loop, with
`refresh_now`; in a sweep; before it reads the interval; waiting for a change, as the interval is
zero, and then before it looks at the new one; waiting for its timer or a change, and then, after a
change, before it looks at the new one. -/
inductive WorkerPhase
  | starts
  | decided (refreshNow : Bool)
  | sweeping
  | readsInterval
  | disabled
  | enables
  | waits (interval : UInt64)
  | reschedules (interval : UInt64)
  | ended
deriving DecidableEq

/-- The channel and the worker. For the properties only: whether a sweep is owed, as the interval
was turned on since the last one started, and whether one was started while the interval was
zero. -/
structure RefreshState where
  interval : UInt64
  changed : Bool
  closed : Bool
  phase : WorkerPhase
  owesSweep : Bool
  sweptDisabled : Bool

/-- A worker that is spawned with a channel of this value. -/
def RefreshState.new (interval : UInt64) : RefreshState :=
  ⟨interval, false, false, .starts, false, false⟩

/-- An update of the interval, the end of its sender, a step of the worker that waits for nothing,
the last resolver answer of a sweep, and the two branches the worker waits for. -/
inductive RefreshAction
  | sendReplace (interval : UInt64)
  | dropSender
  | proceed
  | sweepEnds
  | expire
  | change

/-- The end of `changed().await`. -/
def takeChange (s : RefreshState) (next : WorkerPhase) : Option RefreshState :=
  if s.changed then some { s with changed := false, phase := next }
  else if s.closed then some { s with phase := .ended }
  else none

/-- One step of an interleaving of the worker with its environment. -/
def refreshStep (s : RefreshState) : RefreshAction → Option RefreshState
  | .sendReplace interval =>
    if s.closed then none
    else some { s with
      interval := interval
      changed := true
      owesSweep := s.owesSweep || (s.interval == 0 && interval != 0) }
  | .dropSender => if s.closed then none else some { s with closed := true }
  | .proceed =>
    match s.phase with
    | .starts | .enables => some { s with phase := .decided (s.interval != 0) }
    | .decided true => some { s with
        phase := .sweeping
        owesSweep := false
        sweptDisabled := s.sweptDisabled || s.interval == 0 }
    | .decided false => some { s with phase := .readsInterval }
    | .readsInterval =>
      if s.interval = 0 then some { s with phase := .disabled }
      else some { s with phase := .waits s.interval }
    | .reschedules interval =>
      some { s with phase := .decided (s.interval != 0 && interval == 0) }
    | _ => none
  | .sweepEnds =>
    match s.phase with
    | .sweeping => some { s with phase := .readsInterval }
    | _ => none
  | .expire =>
    match s.phase with
    | .waits _ => some { s with phase := .decided true }
    | _ => none
  | .change =>
    match s.phase with
    | .disabled => takeChange s .enables
    | .waits interval => takeChange s (.reschedules interval)
    | _ => none

/-! ### The property and the condition -/

/-- No sweep was started while the interval was zero, and none is owed while the worker waits for
its timer. -/
structure RespectsInterval (s : RefreshState) : Prop where
  enabled : s.sweptDisabled = false
  swept : ∀ interval, s.phase = .waits interval → s.changed = false → s.owesSweep = false

/-- The setting is respected now and wherever the worker comes to before it waits. -/
def Proceeds (s : RefreshState) : Prop :=
  ∀ n t, Run refreshStep s (List.replicate n .proceed) t → RespectsInterval t

/-- No update to zero comes when the worker has decided to sweep, its timer is not taken while the
interval is zero, and it does not take a change while it waits for its timer and owes a sweep that
is on. -/
def Orderly (s : RefreshState) : RefreshAction → Prop
  | .sendReplace interval => interval = 0 → s.phase ≠ .decided true
  | .expire => s.interval ≠ 0
  | .change => ∀ interval, s.phase = .waits interval → s.changed = true → s.owesSweep = true →
      s.interval = 0
  | _ => True

/-! ### What holds in every run -/

/-- What the worker knows of the channel where it stands. -/
structure Follows (s : RefreshState) : Prop where
  starts : s.phase = .starts → s.owesSweep = true → s.changed = true
  sweeping : s.phase = .sweeping → s.owesSweep = true → s.changed = true
  disabled : s.phase = .disabled → s.interval ≠ 0 → s.changed = true
  waits : ∀ interval, s.phase = .waits interval →
    interval ≠ 0 ∧ (s.changed = false → s.interval = interval)
  reschedules : ∀ interval, s.phase = .reschedules interval → interval ≠ 0

/-- The worker is on its way to respect the setting: it has decided to sweep only if it is on, and
where it owes a sweep that is on, it has still to see a change or has decided to sweep. -/
structure OnCourse (s : RefreshState) : Prop where
  enabled : s.sweptDisabled = false
  decided : s.phase = .decided true → s.interval ≠ 0
  owing : s.owesSweep = true → s.interval ≠ 0 →
    s.changed = true ∨ s.phase = .decided true ∨ s.phase = .enables ∨ s.phase = .ended

/-! ### Steps -/

/-- What a step does. -/
inductive Move (s : RefreshState) : RefreshAction → RefreshState → Prop
  | update (interval : UInt64) :
    Move s (.sendReplace interval) { s with
      interval := interval
      changed := true
      owesSweep := s.owesSweep || (s.interval == 0 && interval != 0) }
  | close : Move s .dropSender { s with closed := true }
  | look (h : s.phase = .starts ∨ s.phase = .enables) :
    Move s .proceed { s with phase := .decided (s.interval != 0) }
  | sweep (h : s.phase = .decided true) :
    Move s .proceed { s with
      phase := .sweeping
      owesSweep := false
      sweptDisabled := s.sweptDisabled || s.interval == 0 }
  | skip (h : s.phase = .decided false) : Move s .proceed { s with phase := .readsInterval }
  | disable (h : s.phase = .readsInterval) (hzero : s.interval = 0) :
    Move s .proceed { s with phase := .disabled }
  | wait (h : s.phase = .readsInterval) (hpos : s.interval ≠ 0) :
    Move s .proceed { s with phase := .waits s.interval }
  | lookAgain (interval : UInt64) (h : s.phase = .reschedules interval) :
    Move s .proceed { s with phase := .decided (s.interval != 0 && interval == 0) }
  | sweepEnds (h : s.phase = .sweeping) : Move s .sweepEnds { s with phase := .readsInterval }
  | expire (interval : UInt64) (h : s.phase = .waits interval) :
    Move s .expire { s with phase := .decided true }
  | enable (h : s.phase = .disabled) (hchanged : s.changed = true) :
    Move s .change { s with changed := false, phase := .enables }
  | reschedule (interval : UInt64) (h : s.phase = .waits interval) (hchanged : s.changed = true) :
    Move s .change { s with changed := false, phase := .reschedules interval }
  | stop (h : s.phase = .disabled ∨ ∃ interval, s.phase = .waits interval)
    (hchanged : s.changed = false) : Move s .change { s with phase := .ended }

section Steps

variable {s t : RefreshState} {action : RefreshAction}

theorem takeChange_cases {next : WorkerPhase} (h : takeChange s next = some t) :
    (s.changed = true ∧ t = { s with changed := false, phase := next }) ∨
    (s.changed = false ∧ t = { s with phase := .ended }) := by
  unfold takeChange at h
  split_ifs at h with hchanged hclosed
  · exact .inl ⟨hchanged, (Option.some.inj h).symm⟩
  · exact .inr ⟨Bool.eq_false_iff.mpr hchanged, (Option.some.inj h).symm⟩

theorem move_of_step (h : refreshStep s action = some t) : Move s action t := by
  cases action with
  | sendReplace interval =>
    simp only [refreshStep] at h
    split_ifs at h
    obtain rfl := Option.some.inj h
    exact .update interval
  | dropSender =>
    simp only [refreshStep] at h
    split_ifs at h
    obtain rfl := Option.some.inj h
    exact .close
  | proceed =>
    simp only [refreshStep] at h
    split at h
    case h_1 hphase =>
      obtain rfl := Option.some.inj h
      exact .look (.inl hphase)
    case h_2 hphase =>
      obtain rfl := Option.some.inj h
      exact .look (.inr hphase)
    case h_3 hphase =>
      obtain rfl := Option.some.inj h
      exact .sweep hphase
    case h_4 hphase =>
      obtain rfl := Option.some.inj h
      exact .skip hphase
    case h_5 hphase =>
      split_ifs at h with hzero
      · obtain rfl := Option.some.inj h
        exact .disable hphase hzero
      · obtain rfl := Option.some.inj h
        exact .wait hphase hzero
    case h_6 interval hphase =>
      obtain rfl := Option.some.inj h
      exact .lookAgain interval hphase
    case h_7 => cases h
  | sweepEnds =>
    simp only [refreshStep] at h
    split at h
    case h_1 hphase =>
      obtain rfl := Option.some.inj h
      exact .sweepEnds hphase
    case h_2 => cases h
  | expire =>
    simp only [refreshStep] at h
    split at h
    case h_1 interval hphase =>
      obtain rfl := Option.some.inj h
      exact .expire interval hphase
    case h_2 => cases h
  | change =>
    simp only [refreshStep] at h
    split at h
    case h_1 hphase =>
      obtain ⟨hchanged, rfl⟩ | ⟨hchanged, rfl⟩ := takeChange_cases h
      · exact .enable hphase hchanged
      · exact .stop (.inl hphase) hchanged
    case h_2 interval hphase =>
      obtain ⟨hchanged, rfl⟩ | ⟨hchanged, rfl⟩ := takeChange_cases h
      · exact .reschedule interval hphase hchanged
      · exact .stop (.inr ⟨interval, hphase⟩) hchanged
    case h_3 => cases h

theorem follows_new (interval : UInt64) : Follows (.new interval) := by
  constructor <;> simp [RefreshState.new]

theorem Follows.step (h : Follows s) (hstep : refreshStep s action = some t) : Follows t := by
  cases move_of_step hstep with
  | update interval =>
    exact ⟨fun _ _ ↦ rfl, fun _ _ ↦ rfl, fun _ _ ↦ rfl,
      fun waiting hphase ↦ ⟨(h.waits waiting hphase).1, by simp⟩, h.reschedules⟩
  | close => exact ⟨h.starts, h.sweeping, h.disabled, h.waits, h.reschedules⟩
  | look hphase => constructor <;> simp
  | sweep hphase => constructor <;> simp
  | skip hphase => constructor <;> simp
  | disable hphase hzero => constructor <;> simp [hzero]
  | wait hphase hpos => constructor <;> simp [hpos]
  | lookAgain interval hphase => constructor <;> simp
  | sweepEnds hphase => constructor <;> simp
  | expire interval hphase => constructor <;> simp
  | enable hphase hchanged => constructor <;> simp
  | reschedule interval hphase hchanged =>
    refine ⟨by simp, by simp, by simp, by simp, fun other hother ↦ ?_⟩
    obtain rfl := WorkerPhase.reschedules.inj hother
    exact (h.waits _ hphase).1
  | stop hphase hchanged => constructor <;> simp

theorem onCourse_new (interval : UInt64) : OnCourse (.new interval) := by
  constructor <;> simp [RefreshState.new]

/-- A step keeps the worker on course exactly when it is orderly. -/
theorem OnCourse.step_iff (h : OnCourse s) (hfollows : Follows s)
    (hstep : refreshStep s action = some t) : OnCourse t ↔ Orderly s action := by
  cases move_of_step hstep with
  | update interval =>
    constructor
    · intro ht hzero hphase
      exact ht.decided hphase hzero
    · intro horderly
      exact ⟨h.enabled, fun hphase hzero ↦ horderly hzero hphase, fun _ _ ↦ .inl rfl⟩
  | close => exact iff_of_true ⟨h.enabled, h.decided, h.owing⟩ trivial
  | look hphase =>
    refine iff_of_true ⟨h.enabled, by simp, fun _ hpos ↦ ?_⟩ trivial
    simp [hpos]
  | sweep hphase =>
    refine iff_of_true ⟨?_, by simp, by simp⟩ trivial
    simp [h.enabled, h.decided hphase]
  | skip hphase =>
    refine iff_of_true ⟨h.enabled, by simp, fun howes hpos ↦ ?_⟩ trivial
    simpa [hphase] using h.owing howes hpos
  | disable hphase hzero => exact iff_of_true ⟨h.enabled, by simp, by simp [hzero]⟩ trivial
  | wait hphase hpos =>
    refine iff_of_true ⟨h.enabled, by simp, fun howes hpos ↦ ?_⟩ trivial
    simpa [hphase] using h.owing howes hpos
  | lookAgain interval hphase =>
    have hne := hfollows.reschedules interval hphase
    refine iff_of_true ⟨h.enabled, by simp [hne], fun howes hpos ↦ ?_⟩ trivial
    simpa [hphase, hne] using h.owing howes hpos
  | sweepEnds hphase =>
    refine iff_of_true ⟨h.enabled, by simp, fun howes _ ↦ .inl ?_⟩ trivial
    exact hfollows.sweeping hphase howes
  | expire interval hphase =>
    constructor
    · intro ht
      exact ht.decided rfl
    · intro hpos
      exact ⟨h.enabled, fun _ ↦ hpos, fun _ _ ↦ .inr (.inl rfl)⟩
  | enable hphase hchanged =>
    refine iff_of_true ⟨h.enabled, by simp, fun _ _ ↦ .inr (.inr (.inl rfl))⟩ ?_
    intro interval hwaits
    cases hphase.symm.trans hwaits
  | reschedule interval hphase hchanged =>
    constructor
    · intro ht other _ _ howes
      by_contra hpos
      simpa using ht.owing howes hpos
    · intro horderly
      refine ⟨h.enabled, by simp, fun howes hpos ↦ ?_⟩
      exact absurd (horderly interval hphase hchanged howes) hpos
  | stop hphase hchanged =>
    refine iff_of_true ⟨h.enabled, by simp, fun _ _ ↦ .inr (.inr (.inr rfl))⟩ ?_
    intro _ _ htrue
    rw [hchanged] at htrue
    cases htrue

/-- On course the setting is respected. -/
theorem OnCourse.respects (h : OnCourse s) (hfollows : Follows s) : RespectsInterval s where
  enabled := h.enabled
  swept interval hphase hchanged := by
    obtain ⟨hpos, hsame⟩ := hfollows.waits interval hphase
    by_contra howes
    have howing := h.owing (eq_true_of_ne_false howes) (hsame hchanged ▸ hpos)
    simp [hphase, hchanged] at howing

/-! ### Where the worker comes to before it waits -/

theorem Proceeds.respects (h : Proceeds s) : RespectsInterval s := h 0 s (.nil s)

theorem Proceeds.next (h : Proceeds s) (hstep : refreshStep s .proceed = some t) : Proceeds t :=
  fun n u hrun ↦ h (n + 1) u (.cons trivial hstep hrun)

theorem OnCourse.proceeds (h : OnCourse s) (hfollows : Follows s) : Proceeds s := by
  intro n
  induction n generalizing s with
  | zero =>
    intro t hrun
    cases hrun with
    | nil => exact h.respects hfollows
  | succ n ih =>
    intro t hrun
    cases hrun with
    | cons _ hstep hrest =>
      exact ih ((h.step_iff hfollows hstep).mpr trivial) (hfollows.step hstep) t hrest

/-- A worker that owes a sweep which is on, and has no change to see, comes to wait for its timer
once it has decided against a sweep. -/
theorem not_proceeds_of_readsInterval (hphase : s.phase = .readsInterval)
    (howes : s.owesSweep = true) (hpos : s.interval ≠ 0) (hchanged : s.changed = false) :
    ¬Proceeds s := by
  intro h
  have hstep : refreshStep s .proceed = some { s with phase := .waits s.interval } := by
    simp [refreshStep, hphase, hpos]
  have howed : s.owesSweep = false := (h.next hstep).respects.swept s.interval rfl hchanged
  rw [howes] at howed
  cases howed

theorem not_proceeds_of_decided (hphase : s.phase = .decided false)
    (howes : s.owesSweep = true) (hpos : s.interval ≠ 0) (hchanged : s.changed = false) :
    ¬Proceeds s := by
  intro h
  have hstep : refreshStep s .proceed = some { s with phase := .readsInterval } := by
    simp [refreshStep, hphase]
  exact absurd (h.next hstep) (not_proceeds_of_readsInterval rfl howes hpos hchanged)

/-- The setting is respected up to the next wait exactly when the worker is on course. -/
theorem proceeds_iff_onCourse (hfollows : Follows s) : Proceeds s ↔ OnCourse s := by
  refine ⟨fun h ↦ ⟨h.respects.enabled, fun hphase hzero ↦ ?_, fun howes hpos ↦ ?_⟩,
    fun h ↦ h.proceeds hfollows⟩
  · have hstep : refreshStep s .proceed = some { s with
        phase := .sweeping
        owesSweep := false
        sweptDisabled := s.sweptDisabled || s.interval == 0 } := by
      simp [refreshStep, hphase]
    have hswept : (s.sweptDisabled || s.interval == 0) = false := (h.next hstep).respects.enabled
    simp [hzero] at hswept
  · by_contra hoff
    rw [not_or, not_or, not_or, Bool.not_eq_true] at hoff
    obtain ⟨hchanged, hdecided, henables, hended⟩ := hoff
    have hseen : s.changed ≠ true := by simp [hchanged]
    cases hphase : s.phase with
    | starts => exact hseen (hfollows.starts hphase howes)
    | decided refreshNow =>
      cases refreshNow with
      | true => exact hdecided hphase
      | false => exact not_proceeds_of_decided hphase howes hpos hchanged h
    | sweeping => exact hseen (hfollows.sweeping hphase howes)
    | readsInterval => exact not_proceeds_of_readsInterval hphase howes hpos hchanged h
    | disabled => exact hseen (hfollows.disabled hphase hpos)
    | enables => exact henables hphase
    | waits interval =>
      have howed := h.respects.swept interval hphase hchanged
      rw [howes] at howed
      cases howed
    | reschedules interval =>
      have hstep : refreshStep s .proceed = some { s with phase := .decided false } := by
        simp [refreshStep, hphase, hfollows.reschedules interval hphase]
      exact absurd (h.next hstep) (not_proceeds_of_decided rfl howes hpos hchanged)
    | ended => exact hended hphase

end Steps

/-! ### The result -/

/-- The setting is respected in every state of a run, and wherever the worker comes to from there
before it waits, if and only if every step of the run is orderly. -/
theorem respectsInterval_iff {interval : UInt64} {actions : List RefreshAction} {s : RefreshState}
    (h : Run refreshStep (.new interval) actions s) :
    (∀ before after t, actions = before ++ after → Run refreshStep (.new interval) before t →
      Proceeds t) ↔ GuardedRun refreshStep Orderly (.new interval) actions s := by
  have hfollows {before : List RefreshAction} {t : RefreshState}
      (ht : Run refreshStep (.new interval) before t) : Follows t :=
    ht.invariant Follows (fun _ _ _ hs _ hstep ↦ hs.step hstep) (follows_new interval)
  have hiff : (∀ before after t, actions = before ++ after →
      Run refreshStep (.new interval) before t → Follows t ∧ OnCourse t) ↔
      GuardedRun refreshStep Orderly (.new interval) actions s :=
    guardedRun_iff_forall_prefix (fun s ↦ Follows s ∧ OnCourse s) h
      ⟨follows_new interval, onCourse_new interval⟩
      (fun _ _ _ hs hguard hstep ↦ ⟨hs.1.step hstep, (hs.2.step_iff hs.1 hstep).mpr hguard⟩)
      fun _ _ _ hs hstep ht ↦ (hs.2.step_iff hs.1 hstep).mp ht.2
  rw [← hiff]
  constructor
  · intro hproceeds before after t hsplit ht
    exact ⟨hfollows ht,
      (proceeds_iff_onCourse (hfollows ht)).mp (hproceeds before after t hsplit ht)⟩
  · intro hcourse before after t hsplit ht
    exact (proceeds_iff_onCourse (hfollows ht)).mpr (hcourse before after t hsplit ht).2

/-- The worker is turned off while it waits, sees it, is turned on again and sweeps. -/
theorem respectsInterval_iff_enabled :
    ∃ s, Run refreshStep (.new 0) [.proceed, .proceed, .proceed, .sendReplace 60, .change, .proceed,
        .proceed] s ∧
      ((∀ before after t, [.proceed, .proceed, .proceed, .sendReplace 60, .change, .proceed,
        .proceed] = before ++ after → Run refreshStep (.new 0) before t → Proceeds t) ↔
        GuardedRun refreshStep Orderly (.new 0) [.proceed, .proceed, .proceed, .sendReplace 60,
          .change, .proceed, .proceed] s) :=
  ⟨_, run_of_execute rfl, respectsInterval_iff (run_of_execute rfl)⟩

/-- The worker waits for its timer, which is taken although the interval was set to zero, so that a
sweep is started; and the worker waits for its timer while the interval is set to zero and back, so
that it waits again without a sweep. -/
theorem interval_not_respected :
    (∃ s, Run refreshStep (.new 60) [.proceed, .proceed, .sweepEnds, .proceed, .sendReplace 0,
        .expire, .proceed] s ∧ s.phase = .sweeping ∧ s.interval = 0 ∧ ¬RespectsInterval s) ∧
      ∃ s, Run refreshStep (.new 60) [.proceed, .proceed, .sweepEnds, .proceed, .sendReplace 0,
        .sendReplace 60, .change, .proceed, .proceed, .proceed] s ∧ s.phase = .waits 60 ∧
        ¬RespectsInterval s := by
  refine ⟨⟨_, run_of_execute rfl, rfl, rfl, ?_⟩, _, run_of_execute rfl, rfl, ?_⟩
  · intro h
    exact absurd h.enabled (by decide)
  · intro h
    exact absurd (h.swept 60 rfl rfl) (by decide)

end MaRuntime.Did
