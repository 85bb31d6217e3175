import MaRuntime.Crud.Confined
import MaRuntime.Daemon.FirstClaim
import MaRuntime.Daemon.Lockout

/-!
# Who comes to manage a runtime

The event loop takes up one CRUD message after the other. A message whose sender the gate does not
admit is dropped, and every other one is carried out; meanwhile the status server goes on with the
claims it has been sent (`loopStep`). What the gate asks, the root ACL, the groups and the owners,
is itself managed by such messages.

Nobody comes to be admitted but by a claim that found no owner, or by a SET of `/acl` or a write of
`/grp/<name>` whose sender was admitted when the message was taken up (`admitted_of_run`). On a
runtime that has an owner, as long as nobody who is admitted writes `/acl` or `/grp`, those who are
admitted stay the same, and what everyone else sends, and every claim, makes no difference: the
others' messages alone lead to the same state (`run_without_outsiders`).

Main definitions: `CrudLoop`, `loopStep`, `admits`, `CrudMessage.WritesAccess`.
Main results: `admitted_of_run`, `run_without_outsiders`.

Scope. A request runs to its end once its message was taken up, with claims before it. Whether the
sender of a request may manage entities is given with the request. What entities and schedules do to
the manifest in between is left out; none of it is a part that the gate asks.
-/

set_option autoImplicit false
set_option relaxedAutoImplicit false

namespace MaRuntime.Crud

open Acl Daemon Kinds Manifest Runs

variable {Cid : Type}

/-! ### The loop -/

/-- A message at `/ma/crud/0.0.1`. -/
structure CrudMessage where
  fromUrl : String
  messageType : String
  payload : List UInt8

/-- What is managed, the message that was admitted and is still to be carried out, and the claims
that the status server has been sent. -/
structure CrudLoop (Cid : Type) where
  managed : ManagedState Cid
  inHand : Option CrudMessage
  claims : KeyedMap String ClaimPhase

/-- A loop at its start. -/
def CrudLoop.start (managed : ManagedState Cid) : CrudLoop Cid := ⟨managed, none, .empty⟩

/-- The steps: a message is taken up, the one in hand is carried out, or a claim goes on. -/
inductive LoopAction
  | takeUp (message : CrudMessage)
  | carryOut (answers : Answers)
  | claim (step : ClaimStep)

section Loop

variable {Failure : Type} (normalizePrincipal : String → String)
  (checkCap : AclMap → String → String → Except Failure Unit) (defaults : Config)
  (services : Services Cid)

/-- The gate of `handle_crud_message` admits a sender. -/
def admits (managed : ManagedState Cid) (fromUrl : String) : Bool :=
  (crudGate normalizePrincipal checkCap managed.toAccessState fromUrl).isOk

/-- One step of `drain_crud_messages` and `handle_crud_message`, or of `handle_claim`. -/
def loopStep [DecidableEq Cid] (s : CrudLoop Cid) : LoopAction → Option (CrudLoop Cid)
  | .takeUp message =>
    match s.inHand with
    | some _ => none
    | none =>
      if admits normalizePrincipal checkCap s.managed message.fromUrl then
        some { s with inHand := some message }
      else some s
  | .carryOut answers =>
    s.inHand.map fun message ↦
      { s with
        managed := (dispatchManagement services answers s.managed message.messageType
          message.payload).2
        inHand := none }
  | .claim step =>
    (claimStep defaults ⟨s.managed.toAccessState, s.claims⟩ step).map fun tasks ↦
      { s with
        managed := { s.managed with toAccessState := tasks.shared }
        claims := tasks.requests }

/-- A message that may change what the gate asks: a SET of `/acl`, or a SET or DELETE of
`/grp/<name>`. -/
def CrudMessage.WritesAccess (message : CrudMessage) : Prop :=
  ∃ op path, decodeCrudPayload services.codec message.payload = .ok op ∧
    CrudPath.parse op.path = .ok path ∧ op.tail ≠ none ∧
    (path.ns = "acl" ∧ op.args ≠ [] ∨ path.ns = "grp" ∧ ∃ name, path.rest = [name])

end Loop

/-! ### What the gate asks -/

/-- What the gate asks is the same in two states. -/
structure SameAccess (s t : ManagedState Cid) : Prop where
  rootAcl : t.rootAcl = s.rootAcl
  groupCache : t.groupCache = s.groupCache
  owners : t.config.owners = s.config.owners

namespace SameAccess

theorem refl (s : ManagedState Cid) : SameAccess s s := ⟨rfl, rfl, rfl⟩

variable {Failure : Type} {normalizePrincipal : String → String}
  {checkCap : AclMap → String → String → Except Failure Unit} {s t : ManagedState Cid}

theorem admits_eq (h : SameAccess s t) (fromUrl : String) :
    admits normalizePrincipal checkCap t fromUrl =
      admits normalizePrincipal checkCap s fromUrl := by
  unfold admits crudGate checkRoot AccessState.owners
  rw [h.rootAcl, h.groupCache, h.owners]

end SameAccess

section Handlers

variable {services : Services Cid} {answers : Answers} {s : ManagedState Cid}

theorem sameAccess_settle {handled : Handled Cid (ManagedState Cid)}
    (h : ∀ reply t, handled = .ok (reply, t) → SameAccess s t) :
    SameAccess s (s.settle handled).2 := by
  unfold ManagedState.settle
  cases handled with
  | ok result => exact h result.1 result.2 rfl
  | error => exact .refl s

theorem sameAccess_setNamedAcl (name : String) (cid : Cid) (fetched published : Bool) :
    SameAccess s
      { s with
        toCachedState :=
          setNamedAcl services.accessStore s.toCachedState name cid fetched published } := by
  unfold setNamedAcl
  split
  · split_ifs
    · exact ⟨rfl, rfl, rfl⟩
    · exact .refl s
  · exact .refl s

theorem sameAccess_deleteNamedAcl (name : String) (published : Bool) :
    SameAccess s { s with toCachedState := deleteNamedAcl s.toCachedState name published } := by
  unfold deleteNamedAcl
  split
  · exact .refl s
  · split_ifs
    · exact ⟨rfl, rfl, rfl⟩
    · exact .refl s

theorem sameAccess_handleRootAcls {rest : List String} {tail : Option String}
    {args : List CborValue} :
    SameAccess s (handleRootAcls services answers s rest tail args).2 := by
  unfold handleRootAcls
  split
  · exact .refl s
  · exact .refl s
  · split
    · exact .refl s
    · exact sameAccess_setNamedAcl _ _ _ _
  · split
    · exact .refl s
    · split_ifs
      · exact .refl s
      · exact sameAccess_deleteNamedAcl _ _
  · exact .refl s

theorem sameAccess_spawnReloadsFor {updatedProtocols : List String} {m : RuntimeManifest Cid}
    {t : ManagedState Cid} (h : SameAccess s t) :
    SameAccess s (spawnReloadsFor services updatedProtocols m t) := ⟨h.1, h.2, h.3⟩

theorem sameAccess_setKindAt {path : KindPath} {raw : String} {reply : CrudReply Cid}
    {t : ManagedState Cid} (h : setKindAt services answers s path raw = .ok (reply, t)) :
    SameAccess s t := by
  unfold setKindAt at h
  split at h
  · cases h
  · split at h
    · cases h
    · cases h
  · split at h
    · cases h
    · split_ifs at h with hpublished hbuilt
      · obtain ⟨-, rfl⟩ := Prod.mk.inj (Except.ok.inj h)
        exact sameAccess_spawnReloadsFor ⟨rfl, rfl, rfl⟩
      · obtain ⟨-, rfl⟩ := Prod.mk.inj (Except.ok.inj h)
        exact ⟨rfl, rfl, rfl⟩

theorem sameAccess_deleteKindAt {path : KindPath} {reply : CrudReply Cid} {t : ManagedState Cid}
    (h : deleteKindAt answers s path = .ok (reply, t)) : SameAccess s t := by
  unfold deleteKindAt at h
  split at h
  · cases h
  · split at h
    · obtain ⟨-, rfl⟩ := Prod.mk.inj (Except.ok.inj h)
      exact .refl s
    · split_ifs at h
      obtain ⟨-, rfl⟩ := Prod.mk.inj (Except.ok.inj h)
      exact ⟨rfl, rfl, rfl⟩

theorem sameAccess_applyKindsTreeAt [DecidableEq Cid] {raw : String} {reply : CrudReply Cid}
    {t : ManagedState Cid} (h : applyKindsTreeAt services answers s raw = .ok (reply, t)) :
    SameAccess s t := by
  unfold applyKindsTreeAt at h
  split at h
  · cases h
  · split at h
    · cases h
    · cases h
    · split at h
      · cases h
      · split_ifs at h with hpublished hunchanged
        · obtain ⟨-, rfl⟩ := Prod.mk.inj (Except.ok.inj h)
          exact ⟨rfl, rfl, rfl⟩
        · obtain ⟨-, rfl⟩ := Prod.mk.inj (Except.ok.inj h)
          exact sameAccess_spawnReloadsFor ⟨rfl, rfl, rfl⟩

theorem sameAccess_handleKinds [DecidableEq Cid] {path : CrudPath} {tail : Option String}
    {args : List CborValue} :
    SameAccess s (handleKinds services answers s path tail args).2 := by
  unfold handleKinds
  split
  · split
    · exact .refl s
    · exact .refl s
    · exact sameAccess_settle fun _ _ ↦ sameAccess_applyKindsTreeAt
    · exact .refl s
  · dsimp only
    split
    · exact .refl s
    · exact sameAccess_settle fun _ _ ↦ sameAccess_setKindAt
    · exact sameAccess_settle fun _ _ ↦ sameAccess_deleteKindAt
    · exact .refl s

theorem sameAccess_setManifestKey (key : String) (val : YamlValue) :
    SameAccess s (setManifestKey services answers s key val).2 := by
  unfold setManifestKey
  split
  · exact .refl s
  · split
    · exact .refl s
    · exact .refl s
    · split
      · exact ⟨rfl, rfl, rfl⟩
      · exact .refl s

theorem sameAccess_deleteManifestKey (key : String) :
    SameAccess s (deleteManifestKey answers s key).2 := by
  unfold deleteManifestKey
  split
  · exact .refl s
  · split_ifs
    · exact .refl s
    · exact ⟨rfl, rfl, rfl⟩
    · exact .refl s

theorem sameAccess_handleConfigKeySet (key : String) (val : YamlValue) :
    SameAccess s (handleConfigKeySet services answers s key val).2 := by
  unfold handleConfigKeySet
  split_ifs
  · obtain ⟨reason, h, -⟩ | ⟨-, -, h⟩ | ⟨reply, settings, h, -, -, hstored⟩ :=
      setDaemonKey_cases (rfl : setDaemonKey s.settings key val answers.saved =
        (setDaemonKey s.settings key val answers.saved : Handled Cid SettingsState))
    · rw [h]
      exact .refl s
    · rw [h]
      exact .refl s
    · rw [h]
      exact ⟨rfl, rfl, hstored.owners⟩
  · exact sameAccess_setManifestKey key val

theorem sameAccess_handleConfig {rest : List String} {tail : Option String}
    {args : List CborValue} :
    SameAccess s (handleConfig services answers s rest tail args).2 := by
  unfold handleConfig
  split
  · split
    · exact .refl s
    · exact .refl s
    · exact .refl s
  · split_ifs
    · exact .refl s
    · split
      · exact .refl s
      · unfold handleConfigKeyDelete
        split_ifs
        · exact .refl s
        · exact sameAccess_deleteManifestKey _
      · exact sameAccess_handleConfigKeySet _ _
      · exact .refl s
  · exact .refl s

theorem sameAccess_handleEntityDelete (name : String) :
    SameAccess s (handleEntityDelete answers s name).2 := by
  unfold handleEntityDelete
  split
  · exact .refl s
  · split
    · exact .refl s
    · split_ifs
      · exact .refl s
      · exact ⟨rfl, rfl, rfl⟩
      · exact ⟨rfl, rfl, rfl⟩

theorem sameAccess_linkAndReload (m : RuntimeManifest Cid) (name : String) (cid : Cid) :
    SameAccess s (linkAndReload answers s m name cid).2 := by
  unfold linkAndReload
  split_ifs
  · exact ⟨rfl, rfl, rfl⟩
  · exact ⟨rfl, rfl, rfl⟩
  · exact .refl s

theorem sameAccess_handleEntityUpsert (name raw : String) :
    SameAccess s (handleEntityUpsert services answers s name raw).2 := by
  unfold handleEntityUpsert
  split
  · exact .refl s
  · exact .refl s
  · split
    · exact .refl s
    · split_ifs
      · exact .refl s
      · split
        · exact .refl s
        · split
          · exact .refl s
          · exact .refl s
          · exact sameAccess_linkAndReload _ _ _

theorem sameAccess_setEntityAcl (name aclName : String) :
    SameAccess s (setEntityAcl services answers s name aclName).2 := by
  unfold setEntityAcl
  split
  · exact .refl s
  · split
    · exact .refl s
    · split
      · exact .refl s
      · exact sameAccess_linkAndReload _ _ _

theorem sameAccess_handleEntities {rest : List String} {tail : Option String}
    {args : List CborValue} :
    SameAccess s (handleEntities services answers s rest tail args).2 := by
  unfold handleEntities
  split
  · split
    · exact .refl s
    · exact .refl s
    · exact .refl s
  · split
    · exact .refl s
    · exact sameAccess_handleEntityDelete _
    · exact sameAccess_handleEntityUpsert _ _
    · exact .refl s
  · split_ifs
    · exact .refl s
    · unfold handleEntityAclField
      split_ifs
      · exact .refl s
      · split
        · exact .refl s
        · split
          · exact .refl s
          · split_ifs
            · exact .refl s
            · exact sameAccess_setEntityAcl _ _
        · exact sameAccess_setEntityAcl _ _
        · exact .refl s
    · exact .refl s

/-- The root ACL is left alone by what is no SET. -/
theorem handleRootAcl_of_reads {op : CrudOp} (h : op.tail = none ∨ op.args = []) :
    (handleRootAcl services answers s op.tail op.args).2 = s := by
  cases op with
  | set path value => exact absurd h (by simp [CrudOp.tail, CrudOp.args])
  | get | delete => rfl

/-- The groups are left alone by what is not at the path of one. -/
theorem handleRootGrp_of_reads {rest : List String} {op : CrudOp}
    (h : op.tail = none ∨ ∀ name, rest ≠ [name]) :
    (handleRootGrp services answers s rest op.tail op.args).2 = s := by
  unfold handleRootGrp
  split
  · rfl
  · rfl
  · rename_i name raw htail hargs
    obtain hnone | hrest := h
    · cases hnone.symm.trans htail
    · exact absurd rfl (hrest name)
  · rename_i name htail hargs
    obtain hnone | hrest := h
    · cases hnone.symm.trans htail
    · exact absurd rfl (hrest name)
  · rfl

/-- A message that does not write what the gate asks leaves it as it is. -/
theorem sameAccess_dispatchManagement [DecidableEq Cid] {message : CrudMessage}
    (h : ¬message.WritesAccess services) :
    SameAccess s (dispatchManagement services answers s message.messageType message.payload).2 := by
  unfold dispatchManagement
  split_ifs
  · exact .refl s
  · exact .refl s
  · cases hop : decodeCrudPayload services.codec message.payload with
    | error => exact .refl s
    | ok op =>
      dsimp only
      cases hpath : CrudPath.parse op.path with
      | error => exact .refl s
      | ok path =>
        have hreads : ¬(op.tail ≠ none ∧
            (path.ns = "acl" ∧ op.args ≠ [] ∨ path.ns = "grp" ∧ ∃ name, path.rest = [name])) :=
          fun ⟨htail, hwrites⟩ ↦ h ⟨op, path, hop, hpath, htail, hwrites⟩
        dsimp only
        unfold handleAt
        split
        · exact sameAccess_handleEntities
        · exact sameAccess_handleKinds
        · exact sameAccess_handleConfig
        · rename_i hns
          rw [handleRootAcl_of_reads]
          · exact .refl s
          · by_contra hnot
            obtain ⟨htail, hargs⟩ := not_or.mp hnot
            exact hreads ⟨htail, .inl ⟨hns, hargs⟩⟩
        · exact sameAccess_handleRootAcls
        · rename_i hns
          rw [handleRootGrp_of_reads]
          · exact .refl s
          · by_contra hnot
            obtain ⟨htail, hrest⟩ := not_or.mp hnot
            exact hreads ⟨htail, .inr ⟨hns, not_forall_not.mp hrest⟩⟩
        · exact sameAccess_handleConfig

end Handlers

/-! ### Steps -/

section Steps

variable [DecidableEq Cid] {Failure : Type} {normalizePrincipal : String → String}
  {checkCap : AclMap → String → String → Except Failure Unit} {defaults : Config}
  {services : Services Cid} {s t : CrudLoop Cid} {caller owner : String}
  {actions : List LoopAction} {managed : ManagedState Cid}

/-- A claim that is not answered. -/
def CrudLoop.Claims (s : CrudLoop Cid) (owner : String) : Prop :=
  ∃ phase, s.claims.get owner = some phase ∧ ∀ reply, phase ≠ .answered reply

/-- What the steps do: a message is taken up if its sender is admitted, and is left otherwise; the
one in hand is carried out; a claim reads the owners, or goes on. -/
inductive LoopMove (normalizePrincipal : String → String)
    (checkCap : AclMap → String → String → Except Failure Unit) (services : Services Cid)
    (s : CrudLoop Cid) : LoopAction → CrudLoop Cid → Prop
  | takes (message : CrudMessage) (hnone : s.inHand = none)
      (hadmits : admits normalizePrincipal checkCap s.managed message.fromUrl = true) :
      LoopMove normalizePrincipal checkCap services s (.takeUp message)
        { s with inHand := some message }
  | drops (message : CrudMessage) (hnone : s.inHand = none)
      (hadmits : admits normalizePrincipal checkCap s.managed message.fromUrl = false) :
      LoopMove normalizePrincipal checkCap services s (.takeUp message) s
  | carries (answers : Answers) (message : CrudMessage) (hsome : s.inHand = some message) :
      LoopMove normalizePrincipal checkCap services s (.carryOut answers)
        { s with
          managed := (dispatchManagement services answers s.managed message.messageType
            message.payload).2
          inHand := none }
  | reads (owner : String) (hnone : s.claims.get owner = none) :
      LoopMove normalizePrincipal checkCap services s (.claim (.read owner))
        { s with claims := s.claims.insert owner (decideClaim s.managed.owners owner) }
  | proceeds (owner : String) (claimed : AccessState Cid) (after : ClaimPhase)
      (hclaims : s.Claims owner) :
      LoopMove normalizePrincipal checkCap services s (.claim (.proceed owner))
        { s with
          managed := { s.managed with toAccessState := claimed }
          claims := s.claims.insert owner after }

theorem loopMove_of_step {action : LoopAction}
    (h : loopStep normalizePrincipal checkCap defaults services s action = some t) :
    LoopMove normalizePrincipal checkCap services s action t := by
  cases action with
  | takeUp message =>
    simp only [loopStep] at h
    split at h
    · cases h
    · rename_i hnone
      split_ifs at h with hadmits
      · obtain rfl := Option.some.inj h
        exact .takes message hnone hadmits
      · obtain rfl := Option.some.inj h
        exact .drops message hnone (Bool.eq_false_iff.mpr hadmits)
  | carryOut answers =>
    obtain ⟨message, hsome, rfl⟩ := Option.map_eq_some_iff.mp h
    exact .carries answers message hsome
  | claim step =>
    obtain ⟨tasks, htasks, rfl⟩ := Option.map_eq_some_iff.mp h
    cases step with
    | read owner =>
      obtain ⟨hnone, rfl⟩ := claimStep_read htasks
      exact .reads owner hnone
    | proceed owner =>
      obtain ⟨phase, done, hphase, hproceeds, rfl⟩ := claimStep_proceed htasks
      refine .proceeds owner done.1 done.2 ⟨phase, hphase, ?_⟩
      rintro reply rfl
      cases hproceeds

/-- A step after which somebody is admitted who was not before. -/
theorem turn_of_step {action : LoopAction}
    (h : loopStep normalizePrincipal checkCap defaults services s action = some t)
    (hbefore : ¬admits normalizePrincipal checkCap s.managed caller = true)
    (hafter : admits normalizePrincipal checkCap t.managed caller = true) :
    (∃ owner, action = .claim (.proceed owner) ∧ s.Claims owner) ∨
      ∃ answers message, action = .carryOut answers ∧ s.inHand = some message ∧
        message.WritesAccess services := by
  cases loopMove_of_step h with
  | takes | drops | reads => exact absurd hafter hbefore
  | proceeds owner claimed after hclaims => exact .inl ⟨owner, rfl, hclaims⟩
  | carries answers message hsome =>
    refine .inr ⟨answers, message, rfl, hsome, ?_⟩
    by_contra hreads
    rw [(sameAccess_dispatchManagement hreads).admits_eq] at hafter
    exact hbefore hafter

/-- The message in hand was taken up when its sender was admitted. -/
theorem takenUp_of_run {message : CrudMessage}
    (h : Run (loopStep normalizePrincipal checkCap defaults services) (.start managed) actions s)
    (hsome : s.inHand = some message) :
    ∃ first second earlier, actions = first ++ .takeUp message :: second ∧
      Run (loopStep normalizePrincipal checkCap defaults services) (.start managed) first earlier ∧
      admits normalizePrincipal checkCap earlier.managed message.fromUrl = true := by
  obtain ⟨first, action, second, earlier, next, hsplit, hfirst, hstep, -, hnot, hnext⟩ :=
    GuardedRun.exists_turn (fun s ↦ s.inHand = some message) h (fun hnone ↦ nomatch hnone) hsome
  cases loopMove_of_step hstep with
  | takes taken hnone hadmits =>
    obtain rfl := Option.some.inj hnext
    exact ⟨first, second, earlier, hsplit, hfirst, hadmits⟩
  | carries => cases hnext
  | drops | reads | proceeds => exact absurd hnext hnot

/-- A claim that goes on has found no owner. -/
theorem unclaimed_of_run
    (h : Run (loopStep normalizePrincipal checkCap defaults services) (.start managed) actions s)
    (hclaims : s.Claims owner) :
    ∃ first second earlier, actions = first ++ .claim (.read owner) :: second ∧
      Run (loopStep normalizePrincipal checkCap defaults services) (.start managed) first earlier ∧
      earlier.managed.owners = [] := by
  obtain ⟨first, action, second, earlier, next, hsplit, hfirst, hstep, -, hnot, hnext⟩ :=
    GuardedRun.exists_turn (fun s ↦ s.Claims owner) h (fun ⟨_, hphase, _⟩ ↦ nomatch hphase) hclaims
  cases loopMove_of_step hstep with
  | takes | drops | carries => exact absurd hnext hnot
  | reads other hnone =>
    obtain ⟨phase, hphase, hopen⟩ := hnext
    by_cases hother : owner = other
    · subst hother
      refine ⟨first, second, earlier, hsplit, hfirst, ?_⟩
      rw [KeyedMap.get_insert_self] at hphase
      obtain rfl := Option.some.inj hphase
      unfold decideClaim at hopen
      split_ifs at hopen with hcontains howners
      · exact absurd rfl (hopen _)
      · exact absurd rfl (hopen _)
      · exact not_not.mp howners
    · rw [KeyedMap.get_insert_of_ne _ _ hother] at hphase
      exact absurd ⟨phase, hphase, hopen⟩ hnot
  | proceeds other claimed after hclaims =>
    obtain ⟨phase, hphase, hopen⟩ := hnext
    by_cases hother : owner = other
    · subst hother
      exact absurd hclaims hnot
    · rw [KeyedMap.get_insert_of_ne _ _ hother] at hphase
      exact absurd ⟨phase, hphase, hopen⟩ hnot

/-- Whoever is admitted at the end of a run, and was not at its start, has come to be admitted in
one of its steps: by a claim that found no owner, or by a message that writes what the gate asks and
whose sender was admitted when it was taken up. -/
theorem admitted_of_run
    (h : Run (loopStep normalizePrincipal checkCap defaults services) (.start managed) actions s)
    (hbefore : admits normalizePrincipal checkCap managed caller = false)
    (hafter : admits normalizePrincipal checkCap s.managed caller = true) :
    ∃ before action after u v, actions = before ++ action :: after ∧
      Run (loopStep normalizePrincipal checkCap defaults services) (.start managed) before u ∧
      loopStep normalizePrincipal checkCap defaults services u action = some v ∧
      Run (loopStep normalizePrincipal checkCap defaults services) v after s ∧
      admits normalizePrincipal checkCap u.managed caller = false ∧
      admits normalizePrincipal checkCap v.managed caller = true ∧
      ∃ first second earlier,
        Run (loopStep normalizePrincipal checkCap defaults services) (.start managed) first
          earlier ∧
        ((∃ owner, action = .claim (.proceed owner) ∧
            before = first ++ .claim (.read owner) :: second ∧ earlier.managed.owners = []) ∨
          ∃ answers message, action = .carryOut answers ∧ u.inHand = some message ∧
            message.WritesAccess services ∧ before = first ++ .takeUp message :: second ∧
            admits normalizePrincipal checkCap earlier.managed message.fromUrl = true) := by
  obtain ⟨before, action, after, u, v, hsplit, hu, hstep, hv, hnot, hadmits⟩ :=
    GuardedRun.exists_turn (fun s ↦ admits normalizePrincipal checkCap s.managed caller = true) h
      (Bool.eq_false_iff.mp hbefore) hafter
  refine ⟨before, action, after, u, v, hsplit, hu, hstep, hv, Bool.eq_false_iff.mpr hnot,
    hadmits, ?_⟩
  obtain ⟨owner, haction, hclaims⟩ | ⟨answers, message, haction, hinHand, hwrites⟩ :=
    turn_of_step hstep hnot hadmits
  · obtain ⟨first, second, earlier, hread, hearlier, hunclaimed⟩ := unclaimed_of_run hu hclaims
    exact ⟨first, second, earlier, hearlier, .inl ⟨owner, haction, hread, hunclaimed⟩⟩
  · obtain ⟨first, second, earlier, htaken, hearlier, hsender⟩ := takenUp_of_run hu hinHand
    exact ⟨first, second, earlier, hearlier,
      .inr ⟨answers, message, haction, hinHand, hwrites, htaken, hsender⟩⟩

/-! ### Without the others -/

variable (normalizePrincipal checkCap managed) in
/-- The actions that have to do with messages of those who are admitted. -/
def isInside : LoopAction → Bool
  | .takeUp message => admits normalizePrincipal checkCap managed message.fromUrl
  | .carryOut _ => true
  | .claim _ => false

variable (services managed) in
/-- Two loops with the same managed state and message, of which the first has what the gate asks as
at the start, has no claim that goes on, and has no message in hand that writes what the gate
asks. -/
structure Alike (s s' : CrudLoop Cid) : Prop where
  same : s'.managed = s.managed
  inHand : s'.inHand = s.inHand
  access : SameAccess managed s.managed
  reads : ∀ message, s.inHand = some message → ¬message.WritesAccess services
  answered : ∀ owner, ¬s.Claims owner

variable {s' : CrudLoop Cid} {action : LoopAction}

/-- A message that is taken up, or carried out, is so in both loops. -/
theorem Alike.step_inside (h : Alike services managed s s')
    (hreads : ∀ message, action = .takeUp message →
      admits normalizePrincipal checkCap managed message.fromUrl = true →
      ¬message.WritesAccess services)
    (hinside : isInside normalizePrincipal checkCap managed action = true)
    (hstep : loopStep normalizePrincipal checkCap defaults services s action = some t) :
    ∃ t', loopStep normalizePrincipal checkCap defaults services s' action = some t' ∧
      Alike services managed t t' := by
  cases loopMove_of_step hstep with
  | takes message hnone hadmits =>
    refine ⟨{ s' with inHand := some message }, ?_, ⟨h.same, rfl, h.access, ?_, h.answered⟩⟩
    · simp only [loopStep, h.inHand, hnone, h.same, hadmits, if_true]
    · intro taken htaken
      obtain rfl := Option.some.inj htaken
      exact hreads message rfl hinside
  | drops message hnone hadmits =>
    rw [h.access.admits_eq] at hadmits
    cases hadmits.symm.trans hinside
  | carries answers message hsome =>
    have hsame : SameAccess s.managed (dispatchManagement services answers s.managed
        message.messageType message.payload).2 :=
      sameAccess_dispatchManagement (h.reads message hsome)
    refine ⟨{ s' with
        managed := (dispatchManagement services answers s.managed message.messageType
          message.payload).2
        inHand := none }, ?_, ⟨rfl, rfl, ?_, ?_, h.answered⟩⟩
    · simp only [loopStep, h.inHand, hsome, Option.map_some, h.same]
    · exact ⟨hsame.rootAcl.trans h.access.rootAcl, hsame.groupCache.trans h.access.groupCache,
        hsame.owners.trans h.access.owners⟩
    · exact fun _ hnone ↦ nomatch hnone
  | reads | proceeds => cases hinside

/-- Anything else makes no difference. -/
theorem Alike.step_outside (h : Alike services managed s s')
    (howners : managed.owners ≠ [])
    (houtside : isInside normalizePrincipal checkCap managed action = false)
    (hstep : loopStep normalizePrincipal checkCap defaults services s action = some t) :
    Alike services managed t s' := by
  cases loopMove_of_step hstep with
  | takes message hnone hadmits =>
    rw [h.access.admits_eq] at hadmits
    cases houtside.symm.trans hadmits
  | drops => exact h
  | carries => cases houtside
  | reads owner hnone =>
    refine ⟨h.same, h.inHand, h.access, h.reads, fun other ⟨phase, hphase, hopen⟩ ↦ ?_⟩
    by_cases hother : other = owner
    · subst hother
      rw [KeyedMap.get_insert_self] at hphase
      obtain rfl := Option.some.inj hphase
      have hclaimed : s.managed.owners ≠ [] := by
        intro hempty
        exact howners (h.access.owners.symm.trans hempty)
      unfold decideClaim at hopen
      split_ifs at hopen
      · exact hopen _ rfl
      · exact hopen _ rfl
    · rw [KeyedMap.get_insert_of_ne _ _ hother] at hphase
      exact h.answered other ⟨phase, hphase, hopen⟩
  | proceeds owner claimed after hclaims => exact absurd hclaims (h.answered owner)

/-- Assumes: the runtime has an owner, and no message that is taken up while its sender is admitted
at the start writes what the gate asks. The same senders are admitted at the end, and the messages
of those who are admitted lead to the same managed state by themselves. -/
theorem run_without_outsiders (howners : managed.owners ≠ [])
    (hreads : ∀ message, .takeUp message ∈ actions →
      admits normalizePrincipal checkCap managed message.fromUrl = true →
      ¬message.WritesAccess services)
    (h : Run (loopStep normalizePrincipal checkCap defaults services) (.start managed) actions s) :
    (∀ fromUrl, admits normalizePrincipal checkCap s.managed fromUrl =
      admits normalizePrincipal checkCap managed fromUrl) ∧
    ∃ u, Run (loopStep normalizePrincipal checkCap defaults services) (.start managed)
        (actions.filter (isInside normalizePrincipal checkCap managed)) u ∧
      u.managed = s.managed := by
  have hguarded : GuardedRun (loopStep normalizePrincipal checkCap defaults services)
      (fun _ action ↦ ∀ message, action = .takeUp message →
        admits normalizePrincipal checkCap managed message.fromUrl = true →
        ¬message.WritesAccess services) (.start managed) actions s :=
    h.guardedRun fun action haction _ message hmessage ↦ hreads message (hmessage ▸ haction)
  have hstart : Alike services managed (.start managed) (.start managed) :=
    ⟨rfl, rfl, .refl managed, fun _ hnone ↦ (nomatch hnone), fun _ ⟨_, hphase, _⟩ ↦ nomatch hphase⟩
  obtain ⟨u, hu, halike⟩ := hguarded.exists_filter (Alike services managed)
    (isInside normalizePrincipal checkCap managed) hstart
    (fun _ _ _ _ halike hguard hinside hstep ↦ halike.step_inside hguard hinside hstep)
    (fun _ _ _ _ halike _ houtside hstep ↦ halike.step_outside howners houtside hstep)
  exact ⟨halike.access.admits_eq, u, hu, halike.same⟩

end Steps

/-! ### A claim, a new owner and a stranger -/

/-- A message that sets the path of the services. -/
def messageFrom (fromUrl : String) : CrudMessage := ⟨fromUrl, messageTypeCrud, [0x82]⟩

/-- A claim and a message of the claimant. -/
def claimAndSet : List LoopAction :=
  [.claim (.read "did:ma:alice"), .claim (.proceed "did:ma:alice"),
    .takeUp (messageFrom "did:ma:alice"), .carryOut everythingAnswered]

/-- A message of a stranger, one of the owner, and a claim of the stranger. -/
def strangerAndOwner : List LoopAction :=
  [.takeUp (messageFrom "did:ma:bob"), .takeUp (messageFrom "did:ma:alice"),
    .claim (.read "did:ma:bob"), .carryOut everythingAnswered]

/-- The owner sets the group of the owners to itself and a friend. -/
def friendServices : Services ManagedCid :=
  servicesFor "/grp/owners" (.access (.group ["did:ma:alice", "did:ma:bob"]))

def levelServices : Services ManagedCid :=
  servicesFor "/config/log_level" (.access (.group []))

/-- A runtime with an owner. -/
def ownedState : ManagedState ManagedCid :=
  { managedState none levelServices with
    config := { (managedState none levelServices).config with owners := ["did:ma:alice"] } }

open Classical in
/-- A friend of the claimant is admitted by a message of the claimant. -/
theorem admitted_of_run_friend :
    ∃ s, Run (loopStep principalOf checkCapByEntry freshConfig friendServices)
        (.start (managedState none friendServices)) claimAndSet s ∧
      ∃ before action after, claimAndSet = before ++ action :: after ∧
        ((∃ owner, action = .claim (.proceed owner)) ∨
          ∃ answers, action = .carryOut answers) := by
  have hseen : (execute (loopStep principalOf checkCapByEntry freshConfig friendServices)
      (.start (managedState none friendServices)) claimAndSet).map
        (fun s ↦ admits principalOf checkCapByEntry s.managed "did:ma:bob") = some true := by
    decide +kernel
  obtain ⟨s, hexecute, hadmits⟩ := Option.map_eq_some_iff.mp hseen
  have hrun := run_of_execute hexecute
  obtain ⟨before, action, after, u, v, hsplit, -, -, -, -, -, first, second, earlier, -, hcause⟩ :=
    admitted_of_run hrun (by decide +kernel) hadmits
  refine ⟨s, hrun, before, action, after, hsplit, ?_⟩
  obtain ⟨owner, haction, -⟩ | ⟨answers, message, haction, -⟩ := hcause
  · exact .inl ⟨owner, haction⟩
  · exact .inr ⟨answers, haction⟩

/-- No message sets anything but the level of the log. -/
theorem not_writesAccess_levelServices (message : CrudMessage) :
    ¬message.WritesAccess levelServices := by
  rintro ⟨op, path, hop, hpath, -, hwrites⟩
  obtain rfl : op = .set "/config/log_level" (.text "cid") := (Except.ok.inj hop).symm
  obtain rfl : path = ⟨"config", ["log_level"], by decide⟩ := (Except.ok.inj hpath).symm
  obtain ⟨hns, -⟩ | ⟨hns, -⟩ := hwrites
  · exact absurd hns (by decide)
  · exact absurd hns (by decide)

open Classical in
/-- The owner's message does the same without the stranger's message and claim. -/
theorem run_without_outsiders_stranger :
    ∃ s u, Run (loopStep principalOf checkCapByEntry freshConfig levelServices)
        (.start ownedState) strangerAndOwner s ∧
      Run (loopStep principalOf checkCapByEntry freshConfig levelServices) (.start ownedState)
        (strangerAndOwner.filter (isInside principalOf checkCapByEntry ownedState)) u ∧
      u.managed = s.managed := by
  have hseen : (execute (loopStep principalOf checkCapByEntry freshConfig levelServices)
      (.start ownedState) strangerAndOwner).isSome = true := by
    decide +kernel
  obtain ⟨s, hexecute⟩ := Option.isSome_iff_exists.mp hseen
  have hrun := run_of_execute hexecute
  have howned : ownedState.owners ≠ [] := by decide
  obtain ⟨-, u, hu, hmanaged⟩ := run_without_outsiders howned
    (fun message _ _ ↦ not_writesAccess_levelServices message) hrun
  exact ⟨s, u, hrun, hu, hmanaged⟩

end MaRuntime.Crud
