import MaRuntime.Library.Clock
import MaRuntime.Library.Runs

/-!
# The attempts to resolve a DID for an outbox

`resolve_did_for_outbox` starts an attempt at once and one more after each of its delays, so that
attempts run beside each other, and waits for whatever comes first: the end of an attempt or the end
of the delay. In whatever order they come (`raceStep`), the answer is that of the plain loop which
looks at the results one after the other: the first document, and if there is none, the last error
when every attempt has failed (`outcome_of_race`). No attempt that runs is given up for an error, no
more attempts are started than the setting allows, and the race is over after two actions for each.

Main definitions: `ResolveRace`, `raceStep`, `firstDocument`.
Main results: `outcome_of_race`.

Scope. The time an attempt or a delay takes is left open. What an attempt does is a refresh of the
resolver's document under a timeout; a task that does not end of itself is joined with an error.
Attempts that still run when a document is returned are dropped with their set.
-/

set_option autoImplicit false
set_option relaxedAutoImplicit false

namespace MaRuntime.Did

open Runs Clock

/-! ### The attempts -/

/-- The errors of `resolve_did_for_outbox`: that of the resolver, a timeout, a task that could not
be joined, and the one that stands for no error at all. -/
inductive ResolveError (Error JoinError : Type)
  | resolver (error : Error)
  | timedOut (targetBase : String)
  | taskFailed (targetBase : String) (error : JoinError)
  | failed (targetBase : String)
deriving DecidableEq

/-- How the task of an attempt ends: with the answer of the resolver, or with none before the
timeout, or not of itself. -/
inductive TaskEnd (Document Error JoinError : Type)
  | refreshed (answer : Option (Except Error Document))
  | notJoined (error : JoinError)

/-- `START_DELAYS`. -/
def startDelays : List Duration := [.ofSecs 1, .ofSecs 2, .ofSecs 3, .ofSecs 5]

/-- `settings.attempts.clamp(1, START_DELAYS.len() + 1)`. -/
def clampedAttempts (attempts : UInt64) : ℕ := max 1 (min attempts.toNat (startDelays.length + 1))

variable {Document Error JoinError : Type}

/-- `spawn_did_resolve_attempt` and `flatten_resolve_join`: the result of an attempt. -/
def TaskEnd.result (targetBase : String) :
    TaskEnd Document Error JoinError → Except (ResolveError Error JoinError) Document
  | .refreshed (some (.ok document)) => .ok document
  | .refreshed (some (.error error)) => .error (.resolver error)
  | .refreshed none => .error (.timedOut targetBase)
  | .notJoined error => .error (.taskFailed targetBase error)

/-! ### The machine -/

/-- The attempts that run, the number of the latest, the delays that are left, the last error, and
what was returned. -/
structure ResolveRace (Document Error JoinError : Type) where
  tasks : List ℕ
  attempt : ℕ
  delays : List Duration
  lastError : Option (ResolveError Error JoinError)
  returned : Option (Except (ResolveError Error JoinError) Document)

def ResolveRace.start (attempts : UInt64) : ResolveRace Document Error JoinError where
  tasks := [1]
  attempt := 1
  delays := startDelays.take (clampedAttempts attempts - 1)
  lastError := none
  returned := none

/-- An attempt is joined, the delay is over, or no attempt is left after the last delay. -/
inductive RaceAction (Document Error JoinError : Type)
  | joined (task : ℕ) (taskEnd : TaskEnd Document Error JoinError)
  | delayOver
  | allJoined

/-- One step of `resolve_did_for_outbox`. -/
def raceStep (targetBase : String) (s : ResolveRace Document Error JoinError)
    (action : RaceAction Document Error JoinError) :
    Option (ResolveRace Document Error JoinError) :=
  if s.returned.isSome then none else
  match action with
  | .joined task taskEnd =>
    if task ∈ s.tasks then
      match taskEnd.result targetBase with
      | .ok document => some { s with tasks := [], returned := some (.ok document) }
      | .error error => some { s with tasks := s.tasks.erase task, lastError := some error }
    else none
  | .delayOver =>
    match s.delays with
    | [] => none
    | _ :: rest => some { s with
        tasks := s.tasks ++ [s.attempt + 1], attempt := s.attempt + 1, delays := rest }
  | .allJoined =>
    if s.delays = [] ∧ s.tasks = [] then
      some { s with returned := some (.error (s.lastError.getD (.failed targetBase))) }
    else none

/-! ### The plain loop -/

/-- The results that were joined, in their order. -/
def joinedResults (targetBase : String) :
    List (RaceAction Document Error JoinError) →
      List (Except (ResolveError Error JoinError) Document)
  | [] => []
  | .joined _ taskEnd :: rest => taskEnd.result targetBase :: joinedResults targetBase rest
  | .delayOver :: rest | .allJoined :: rest => joinedResults targetBase rest

/-- The first document among some results. -/
def firstDocument :
    List (Except (ResolveError Error JoinError) Document) → Option Document
  | [] => none
  | .ok document :: _ => some document
  | .error _ :: rest => firstDocument rest

/-- The last error among some results. -/
def lastFailure :
    List (Except (ResolveError Error JoinError) Document) → Option (ResolveError Error JoinError)
  | [] => none
  | .ok _ :: rest => lastFailure rest
  | .error error :: rest => (lastFailure rest).or (some error)

/-! ### What was joined so far -/

section Lists

variable (targetBase : String)
  (results : List (Except (ResolveError Error JoinError) Document))
  (before : List (RaceAction Document Error JoinError))

theorem firstDocument_concat_ok (document : Document) (h : firstDocument results = none) :
    firstDocument (results ++ [.ok document]) = some document := by
  induction results with
  | nil => rfl
  | cons result rest ih =>
    cases result with
    | ok other => cases h
    | error error => exact ih h

theorem firstDocument_concat_error (error : ResolveError Error JoinError) :
    firstDocument (results ++ [.error error]) = firstDocument results := by
  induction results with
  | nil => rfl
  | cons result rest ih =>
    cases result with
    | ok other => rfl
    | error other => exact ih

theorem lastFailure_concat_error (error : ResolveError Error JoinError) :
    lastFailure (results ++ [.error error]) = some error := by
  induction results with
  | nil => rfl
  | cons result rest ih =>
    cases result with
    | ok other => exact ih
    | error other =>
      rw [List.cons_append, lastFailure, ih]
      rfl

theorem joinedResults_append (after : List (RaceAction Document Error JoinError)) :
    joinedResults targetBase (before ++ after) =
      joinedResults targetBase before ++ joinedResults targetBase after := by
  induction before with
  | nil => rfl
  | cons first rest ih =>
    cases first with
    | joined task taskEnd => exact congrArg (_ :: ·) ih
    | delayOver => exact ih
    | allJoined => exact ih

end Lists

/-- What a step does. -/
inductive RaceMove (targetBase : String) (s : ResolveRace Document Error JoinError) :
    RaceAction Document Error JoinError → ResolveRace Document Error JoinError → Prop
  | succeed (task : ℕ) (taskEnd : TaskEnd Document Error JoinError) (document : Document)
    (hmem : task ∈ s.tasks) (hresult : taskEnd.result targetBase = .ok document) :
    RaceMove targetBase s (.joined task taskEnd)
      { s with tasks := [], returned := some (.ok document) }
  | fail (task : ℕ) (taskEnd : TaskEnd Document Error JoinError)
    (error : ResolveError Error JoinError) (hmem : task ∈ s.tasks)
    (hresult : taskEnd.result targetBase = .error error) :
    RaceMove targetBase s (.joined task taskEnd)
      { s with tasks := s.tasks.erase task, lastError := some error }
  | start (delay : Duration) (rest : List Duration) (hdelays : s.delays = delay :: rest) :
    RaceMove targetBase s .delayOver
      { s with tasks := s.tasks ++ [s.attempt + 1], attempt := s.attempt + 1, delays := rest }
  | giveUp (hdelays : s.delays = []) (htasks : s.tasks = []) :
    RaceMove targetBase s .allJoined
      { s with returned := some (.error (s.lastError.getD (.failed targetBase))) }

section Steps

variable {targetBase : String} {attempts : ℕ}
  {before actions : List (RaceAction Document Error JoinError)}
  {s t : ResolveRace Document Error JoinError} {action : RaceAction Document Error JoinError}

theorem raceMove_of_step (h : raceStep targetBase s action = some t) :
    s.returned = none ∧ RaceMove targetBase s action t := by
  unfold raceStep at h
  by_cases hreturned : s.returned.isSome
  · rw [if_pos hreturned] at h
    cases h
  rw [if_neg hreturned] at h
  refine ⟨by simpa using hreturned, ?_⟩
  cases action with
  | joined task taskEnd =>
    simp only at h
    split_ifs at h with hmem
    split at h
    case h_1 document hresult =>
      obtain rfl := Option.some.inj h
      exact .succeed task taskEnd document hmem hresult
    case h_2 error hresult =>
      obtain rfl := Option.some.inj h
      exact .fail task taskEnd error hmem hresult
  | delayOver =>
    simp only at h
    split at h
    case h_1 => cases h
    case h_2 delay rest hdelays =>
      obtain rfl := Option.some.inj h
      exact .start delay rest hdelays
  | allJoined =>
    simp only at h
    split_ifs at h with hover
    obtain rfl := Option.some.inj h
    exact .giveUp hover.1 hover.2

/-- The state of a race that goes on, after some actions: no document was joined, and each attempt
that was started runs or was joined. -/
structure Racing (targetBase : String) (attempts : ℕ)
    (before : List (RaceAction Document Error JoinError))
    (s : ResolveRace Document Error JoinError) : Prop where
  started : s.attempt + s.delays.length = attempts
  noDocument : firstDocument (joinedResults targetBase before) = none
  lastError : lastFailure (joinedResults targetBase before) = s.lastError
  joined : s.tasks.length + (joinedResults targetBase before).length = s.attempt
  actions : before.length + 1 = (joinedResults targetBase before).length + s.attempt

/-- What a race returns after some actions. -/
inductive Answer (targetBase : String) (attempts : ℕ)
    (before : List (RaceAction Document Error JoinError)) :
    Except (ResolveError Error JoinError) Document → Prop
  | found (document : Document)
    (hfirst : firstDocument (joinedResults targetBase before) = some document)
    (hactions : before.length < 2 * attempts) : Answer targetBase attempts before (.ok document)
  | failed (error : ResolveError Error JoinError)
    (hfirst : firstDocument (joinedResults targetBase before) = none)
    (hlast : lastFailure (joinedResults targetBase before) = some error)
    (hall : (joinedResults targetBase before).length = attempts)
    (hactions : before.length = 2 * attempts) : Answer targetBase attempts before (.error error)

/-- A race goes on, or has its answer. -/
def Raced (targetBase : String) (attempts : ℕ)
    (before : List (RaceAction Document Error JoinError))
    (s : ResolveRace Document Error JoinError) : Prop :=
  match s.returned with
  | none => Racing targetBase attempts before s
  | some answer => Answer targetBase attempts before answer

theorem racing_start (attempts : UInt64) :
    Racing targetBase (clampedAttempts attempts) []
      (ResolveRace.start attempts : ResolveRace Document Error JoinError) := by
  have hdelays : (startDelays.take (clampedAttempts attempts - 1)).length =
      clampedAttempts attempts - 1 := by
    rw [List.length_take, clampedAttempts]
    omega
  refine ⟨?_, rfl, rfl, rfl, rfl⟩
  change 1 + (startDelays.take (clampedAttempts attempts - 1)).length = clampedAttempts attempts
  rw [hdelays, clampedAttempts]
  omega

theorem lastFailure_isSome (results : List (Except (ResolveError Error JoinError) Document))
    (hnone : firstDocument results = none) (hpos : 0 < results.length) :
    ∃ error, lastFailure results = some error := by
  cases results with
  | nil => cases hpos
  | cons result rest =>
    cases result with
    | ok document => cases hnone
    | error error => cases hlast : lastFailure rest <;> simp [lastFailure, hlast]

theorem raced_step (hs : Racing targetBase attempts before s) (hpos : 0 < attempts)
    (hreturned : s.returned = none) (h : RaceMove targetBase s action t) :
    Raced targetBase attempts (before ++ [action]) t := by
  obtain ⟨hstarted, hnone, hlast, hjoined, hactions⟩ := hs
  cases h with
  | succeed task taskEnd document hmem hresult =>
    have hrunning := List.length_pos_of_mem hmem
    refine .found document ?_ ?_
    · rw [joinedResults_append, joinedResults, hresult]
      exact firstDocument_concat_ok _ _ hnone
    · rw [List.length_append, List.length_singleton]
      omega
  | fail task taskEnd error hmem hresult =>
    have hrunning := List.length_pos_of_mem hmem
    have hleft := List.length_erase_of_mem hmem
    have hresults : joinedResults targetBase (before ++ [.joined task taskEnd]) =
        joinedResults targetBase before ++ [.error error] := by
      rw [joinedResults_append, joinedResults, hresult]
      rfl
    simp only [Raced, hreturned]
    refine ⟨hstarted, ?_, ?_, ?_, ?_⟩
    · rw [hresults, firstDocument_concat_error, hnone]
    · rw [hresults, lastFailure_concat_error]
    · rw [hresults, List.length_append, List.length_singleton]
      dsimp only
      omega
    · rw [hresults, List.length_append, List.length_append, List.length_singleton]
      simp only [List.length_singleton]
      omega
  | start delay rest hdelays =>
    have hresults : joinedResults targetBase (before ++ [.delayOver]) =
        joinedResults targetBase before := by
      rw [joinedResults_append, joinedResults, joinedResults, List.append_nil]
    have hrest : s.delays.length = rest.length + 1 := by
      rw [hdelays, List.length_cons]
    simp only [Raced, hreturned]
    refine ⟨?_, ?_, ?_, ?_, ?_⟩
    · dsimp only
      omega
    · rw [hresults, hnone]
    · rw [hresults, hlast]
    · rw [hresults, List.length_append, List.length_singleton]
      dsimp only
      omega
    · rw [hresults, List.length_append, List.length_singleton]
      dsimp only
      omega
  | giveUp hdelays htasks =>
    have hresults : joinedResults targetBase (before ++ [.allJoined]) =
        joinedResults targetBase before := by
      rw [joinedResults_append, joinedResults, joinedResults, List.append_nil]
    rw [htasks, List.length_nil] at hjoined
    rw [hdelays, List.length_nil] at hstarted
    obtain ⟨error, herror⟩ := lastFailure_isSome _ hnone (by omega)
    obtain rfl : s.lastError.getD (.failed targetBase) = error := by
      rw [← hlast, herror, Option.getD_some]
    refine .failed _ ?_ ?_ ?_ ?_
    · rw [hresults, hnone]
    · rw [hresults, herror]
    · rw [hresults]
      omega
    · rw [List.length_append, List.length_singleton]
      omega

theorem raced_run (h : Run (raceStep targetBase) s actions t) (hpos : 0 < attempts)
    (hs : Raced targetBase attempts before s) :
    Raced targetBase attempts (before ++ actions) t := by
  induction h generalizing before with
  | nil s => rwa [List.append_nil]
  | @cons s u t action rest _ hstep _ ih =>
    obtain ⟨hreturned, hmove⟩ := raceMove_of_step hstep
    rw [Raced, hreturned] at hs
    have hnext := ih (raced_step hs hpos hreturned hmove)
    rwa [List.append_assoc] at hnext

/-- A race that goes on can take a step: an attempt is joined, a delay is over, or there is nothing
to wait for. -/
theorem exists_raceStep (hreturned : s.returned = none) :
    ∃ action, (raceStep targetBase s action).isSome = true := by
  cases hdelays : s.delays with
  | cons delay rest => exact ⟨.delayOver, by simp [raceStep, hreturned, hdelays]⟩
  | nil =>
    cases htasks : s.tasks with
    | nil => exact ⟨.allJoined, by simp [raceStep, hreturned, hdelays, htasks]⟩
    | cons task rest =>
      exact ⟨.joined task (.refreshed none),
        by simp [raceStep, hreturned, htasks, TaskEnd.result]⟩

/-- Whatever order attempts end and delays are over in, a race answers with the first document that
was joined, or with the last error once every attempt that the setting allows was joined with one;
until then it can go on, and it is over after two actions for each attempt. -/
theorem outcome_of_race (settings : UInt64)
    (h : Run (raceStep targetBase) (.start settings) actions s) :
    (∀ answer, s.returned = some answer →
      Answer targetBase (clampedAttempts settings) actions answer) ∧
    (s.returned = none → Racing targetBase (clampedAttempts settings) actions s ∧
      ∃ action, (raceStep targetBase s action).isSome = true) ∧
    actions.length ≤ 2 * clampedAttempts settings := by
  have hpos : 0 < clampedAttempts settings := by
    rw [clampedAttempts]
    omega
  have hraced : Raced targetBase (clampedAttempts settings) actions s :=
    raced_run h hpos (racing_start settings)
  unfold Raced at hraced
  cases hreturned : s.returned with
  | none =>
    rw [hreturned] at hraced
    refine ⟨nofun, fun _ ↦ ⟨hraced, exists_raceStep hreturned⟩, ?_⟩
    obtain ⟨hstarted, -, -, hjoined, hactions⟩ := hraced
    omega
  | some answer =>
    rw [hreturned] at hraced
    refine ⟨?_, nofun, ?_⟩
    · rintro other hother
      obtain rfl := Option.some.inj hother
      exact hraced
    · cases hraced with
      | found document hfirst hactions => exact Nat.le_of_lt hactions
      | failed error hfirst hlast hall hactions => exact Nat.le_of_eq hactions

end Steps

/-- Two attempts, the first of which times out when the second runs. -/
def lateFirst : List (RaceAction String String String) :=
  [.delayOver, .joined 1 (.refreshed none), .joined 2 (.refreshed (some (.ok "document")))]

/-- The race after them. -/
def lateFirstAnswered : ResolveRace String String String where
  tasks := []
  attempt := 2
  delays := []
  lastError := some (.timedOut "did:ma:peer")
  returned := some (.ok "document")

theorem outcome_of_lateFirst :
    (∀ answer, lateFirstAnswered.returned = some answer →
      Answer "did:ma:peer" (clampedAttempts 2) lateFirst answer) ∧
    (lateFirstAnswered.returned = none →
      Racing "did:ma:peer" (clampedAttempts 2) lateFirst lateFirstAnswered ∧
      ∃ action, (raceStep "did:ma:peer" lateFirstAnswered action).isSome = true) ∧
    lateFirst.length ≤ 2 * clampedAttempts 2 :=
  outcome_of_race 2 (run_of_execute rfl)

end MaRuntime.Did
