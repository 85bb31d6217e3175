import MaRuntime.Library.Runs
import MaRuntime.Daemon.Config

/-!
# Claims and the configuration file

A runtime without owners can be claimed. The claim is kept in the runtime's statistics and is
written into `config.yaml`, so that the next startup finds the owner there. It is not written into
the configuration that the runtime holds in memory, which the other setters save as a whole: a SET
of a daemon setting through CRUD, and `persist_root_cid` of the periodic republish and of the
shutdown.

`configStep` is one such operation, and `SavesConfig` says which of them rewrite the file from
memory. A claim is still in the file at the end of a run if and only if no operation after it did
(`owner_mem_ownersOnDisk_iff`).

Main definitions: `finalizeStartup`, `handleClaim`, `handleConfigKeySet`, `configStep`,
`SavesConfig`.
Main results: `owner_mem_ownersOnDisk_iff`, `claim_lost_after_log_level`.

Scope. Every write of the file succeeds, and reading it gives what was last written. What a claim
grants in the live ACL is left out, as are the replies of CRUD but for their outcome. `usize` has 64
bits.
-/

set_option autoImplicit false
set_option relaxedAutoImplicit false

namespace MaRuntime.Daemon

open Runs

/-! ### The state and a startup -/

/-- The configuration file, the configuration in memory, and the owners in the statistics. A file
that is missing or blank has no content. -/
structure ConfigState where
  disk : Option Config
  sharedConfig : Config
  owners : List String

namespace ConfigState

/-- The owners that a startup reads from the file. -/
def ownersOnDisk (s : ConfigState) : List String :=
  match s.disk with
  | some cfg => cfg.ownersFromConfig
  | none => []

/-- `Config::save`: the file becomes the configuration in memory. -/
def save (s : ConfigState) : ConfigState := { s with disk := some s.sharedConfig }

end ConfigState

/-- The owners followed by those of a second list that are not among them. -/
def addOwners (owners more : List String) : List String :=
  more.foldl (fun owners o ↦ if owners.contains o then owners else owners ++ [o]) owners

theorem mem_addOwners {owners more : List String} {o : String} :
    o ∈ addOwners owners more ↔ o ∈ owners ∨ o ∈ more := by
  unfold addOwners
  induction more generalizing owners with
  | nil => simp
  | cons head rest ih =>
    rw [List.foldl_cons, ih, List.mem_cons]
    split_ifs with hhead
    · rw [List.contains_iff_mem] at hhead
      constructor
      · rintro (h | h)
        · exact .inl h
        · exact .inr (.inr h)
      · rintro (h | rfl | h)
        · exact .inl h
        · exact .inl hhead
        · exact .inr h
    · rw [List.mem_append, List.mem_singleton, or_assoc]

/-- The owners of a startup: those of the configuration, of the command line and of the manifest. -/
def resolveOwners (config : Config) (cliOwners manifestOwners : List String) : List String :=
  addOwners (addOwners config.ownersFromConfig cliOwners) manifestOwners

theorem mem_resolveOwners {config : Config} {cliOwners manifestOwners : List String} {o : String} :
    o ∈ resolveOwners config cliOwners manifestOwners ↔
      o ∈ config.ownersFromConfig ∨ o ∈ cliOwners ∨ o ∈ manifestOwners := by
  rw [resolveOwners, mem_addOwners, mem_addOwners, or_assoc]

/-- `persist_owners_to_config`: the owners are put into the file, of which the rest is kept. A file
without content is read as the configuration `defaults`. -/
def persistOwnersToConfig (defaults : Config) (file : Option Config) (owners : List String) :
    Config :=
  (file.getD defaults).setExtra "owners" (.ofTexts owners)

/-- The state after a startup: the resolved owners are put into the file if the configuration had
others, and the configuration in memory stays as it was read. -/
def finalizeStartup (defaults : Config) (file : Option Config) (config : Config)
    (cliOwners manifestOwners : List String) : ConfigState :=
  let resolved := resolveOwners config cliOwners manifestOwners
  { disk := if resolved = config.ownersFromConfig then file
      else some (persistOwnersToConfig defaults file resolved)
    sharedConfig := config
    owners := resolved }

/-! ### The operations -/

/-- The replies to a claim, with the owners they name. -/
inductive ClaimReply
  | alreadyClaimed (owners : List String)
  | conflict (owners : List String)
  | claimed (owners : List String)
deriving DecidableEq

/-- `handle_claim`: an unclaimed runtime takes its owner, and writes it to the file. -/
def handleClaim (defaults : Config) (s : ConfigState) (owner : String) : ClaimReply × ConfigState :=
  if s.owners.contains owner then (.alreadyClaimed s.owners, s)
  else if s.owners ≠ [] then (.conflict s.owners, s)
  else
    (.claimed [owner],
      { s with
        disk := some (persistOwnersToConfig defaults s.disk [owner])
        owners := [owner] })

/-- `did_refresh_interval_secs` of a given value. -/
def didRefreshIntervalSecs (value : YamlValue) : Except String Nat :=
  match value.asU64 with
  | some n => .ok n
  | none => .error "did_refresh_interval_secs must be a non-negative integer"

/-- `outbox_backoff_attempts` of a given value. -/
def outboxBackoffAttempts (value : YamlValue) : Except String Nat :=
  match value.asU64 with
  | none => .error "outbox_backoff_attempts must be a positive integer"
  | some 0 => .error "outbox_backoff_attempts must be greater than zero"
  | some (n + 1) => .ok (n + 1)

/-- The checks that a SET of a daemon setting makes before it stores the value. -/
def checkDaemonValue (key : String) (val : YamlValue) : Except String Unit :=
  if key = "did_refresh_interval_secs" then (didRefreshIntervalSecs val).map fun _ ↦ ()
  else if key = "outbox_backoff_attempts" then (outboxBackoffAttempts val).map fun _ ↦ ()
  else .ok ()

/-- The value of `ipv6_enable` that is in force. -/
def ipv6Enabled (cfg : Config) : Bool :=
  ((cfg.extra.get "ipv6_enable").bind YamlValue.asBool).getD true

/-- `handle_config_key_set` for the keys of the daemon's configuration: `ipv6_enable` is stored if
it changes, and every other daemon setting is checked and stored; what is stored is saved. The other
keys are those of the manifest, and the file does not hold them. -/
def handleConfigKeySet (s : ConfigState) (key : String) (val : YamlValue) :
    Except String ConfigState :=
  if key = "ipv6_enable" then
    if val.asBool.getD true = ipv6Enabled s.sharedConfig then .ok s
    else .ok { s with sharedConfig := s.sharedConfig.setDaemonConfigKey key val }.save
  else if daemonConfigKeys.contains key then do
    checkDaemonValue key val
    .ok { s with sharedConfig := s.sharedConfig.setDaemonConfigKey key val }.save
  else .ok s

/-- `persist_root_cid`. -/
def persistRootCid (s : ConfigState) (rootCid : String) : ConfigState :=
  if s.sharedConfig.rootCidSetting = some rootCid then s
  else { s with sharedConfig := s.sharedConfig.setExtra "root_cid" (.string rootCid) }.save

/-- The operations that read or write the configuration while the runtime is up. A shutdown persists
the root of the statistics, if there is one. -/
inductive ConfigAction
  | claim (owner : String)
  | setConfigKey (key : String) (val : YamlValue)
  | republish (rootCid : String)
  | shutdown (rootCid : Option String)

/-- One operation; a SET that fails its checks changes nothing. -/
def configStep (defaults : Config) (s : ConfigState) : ConfigAction → Option ConfigState
  | .claim owner => some (handleClaim defaults s owner).2
  | .setConfigKey key val =>
    match handleConfigKeySet s key val with
    | .ok t => some t
    | .error _ => some s
  | .republish rootCid => some (persistRootCid s rootCid)
  | .shutdown none => some s
  | .shutdown (some rootCid) => some (persistRootCid s rootCid)

/-! ### The operations that save -/

/-- A SET that saves the configuration: of `ipv6_enable` with another value than the one in force,
or of another daemon setting with a value that passes its checks. -/
def SetSaves (cfg : Config) (key : String) (val : YamlValue) : Prop :=
  if key = "ipv6_enable" then val.asBool.getD true ≠ ipv6Enabled cfg
  else key ∈ daemonConfigKeys ∧ checkDaemonValue key val = .ok ()

/-- The operations that rewrite the file from memory. -/
def SavesConfig (s : ConfigState) : ConfigAction → Prop
  | .claim _ => False
  | .setConfigKey key val => SetSaves s.sharedConfig key val
  | .republish rootCid => s.sharedConfig.rootCidSetting ≠ some rootCid
  | .shutdown none => False
  | .shutdown (some rootCid) => s.sharedConfig.rootCidSetting ≠ some rootCid

/-- `persist_root_cid` does nothing for the root that the configuration has, and saves it with
another root otherwise. -/
theorem persistRootCid_cases (s : ConfigState) (rootCid : String) :
    (¬s.sharedConfig.rootCidSetting ≠ some rootCid ∧ persistRootCid s rootCid = s) ∨
    (s.sharedConfig.rootCidSetting ≠ some rootCid ∧
      (persistRootCid s rootCid).owners = s.owners ∧
      (persistRootCid s rootCid).ownersOnDisk = s.sharedConfig.ownersFromConfig ∧
      (persistRootCid s rootCid).sharedConfig.ownersFromConfig =
        s.sharedConfig.ownersFromConfig) := by
  have howners := Config.ownersFromConfig_setExtra s.sharedConfig (.string rootCid)
    (show "root_cid" ≠ "owners" by decide)
  unfold persistRootCid
  split_ifs with hsame
  · exact .inl ⟨not_not.mpr hsame, rfl⟩
  · exact .inr ⟨hsame, rfl, howners, howners⟩

/-- What an operation does to the owners on file: a successful claim adds them to the file, another
operation that does not save changes nothing, and one that saves writes the owners in memory. -/
theorem configStep_cases {defaults : Config} {s t : ConfigState} {action : ConfigAction}
    (h : configStep defaults s action = some t) :
    (s.owners = [] ∧ ∃ owner, action = .claim owner ∧ t.owners = [owner] ∧
      t.ownersOnDisk = [owner] ∧ t.sharedConfig = s.sharedConfig) ∨
    (¬SavesConfig s action ∧ t = s) ∨
    (SavesConfig s action ∧ t.owners = s.owners ∧
      t.ownersOnDisk = s.sharedConfig.ownersFromConfig ∧
      t.sharedConfig.ownersFromConfig = s.sharedConfig.ownersFromConfig) := by
  cases action with
  | claim owner =>
    obtain rfl := Option.some.inj h
    unfold handleClaim
    split_ifs with hcontains hempty
    · exact .inr (.inl ⟨id, rfl⟩)
    · exact .inr (.inl ⟨id, rfl⟩)
    · exact .inl ⟨not_not.mp hempty, owner, rfl, rfl,
        Config.ownersFromConfig_setExtra_owners (s.disk.getD defaults) _, rfl⟩
  | setConfigKey key val =>
    have howners := Config.ownersFromConfig_setDaemonConfigKey s.sharedConfig key val
    refine .inr ?_
    simp only [configStep, handleConfigKeySet, List.contains_iff_mem] at h
    simp only [SavesConfig, SetSaves]
    split_ifs at h ⊢ with hipv6 hsame hdaemon
    · exact .inl ⟨not_not.mpr hsame, (Option.some.inj h).symm⟩
    · obtain rfl := Option.some.inj h
      exact .inr ⟨hsame, rfl, howners, howners⟩
    · cases hcheck : checkDaemonValue key val with
      | ok value =>
        rw [hcheck] at h
        obtain rfl := Option.some.inj h
        exact .inr ⟨⟨hdaemon, rfl⟩, rfl, howners, howners⟩
      | error failure =>
        rw [hcheck] at h
        refine .inl ⟨fun hsaves ↦ ?_, (Option.some.inj h).symm⟩
        cases hsaves.2
    · exact .inl ⟨fun hsaves ↦ hdaemon hsaves.1, (Option.some.inj h).symm⟩
  | republish rootCid =>
    obtain rfl := Option.some.inj h
    exact .inr (persistRootCid_cases s rootCid)
  | shutdown rootCid =>
    cases rootCid with
    | none => exact .inr (.inl ⟨id, (Option.some.inj h).symm⟩)
    | some rootCid =>
      obtain rfl := Option.some.inj h
      exact .inr (persistRootCid_cases s rootCid)

/-- No operation changes the owners in memory. -/
theorem ownersFromConfig_sharedConfig_of_run {defaults : Config} {s t : ConfigState}
    {actions : List ConfigAction} (h : Run (configStep defaults) s actions t) :
    t.sharedConfig.ownersFromConfig = s.sharedConfig.ownersFromConfig := by
  refine h.invariant
    (fun t ↦ t.sharedConfig.ownersFromConfig = s.sharedConfig.ownersFromConfig) ?_ rfl
  intro t action u ht _ hstep
  obtain ⟨-, _, -, -, -, hshared⟩ | ⟨-, rfl⟩ | ⟨-, -, -, howners⟩ := configStep_cases hstep
  · rw [hshared, ht]
  · exact ht
  · exact howners.trans ht

/-! ### Claims -/

/-- Assumes: a claimed runtime, in whose memory there are no owners. An owner is on file at the end
of a run if and only if it was at the start and no operation of the run saved. -/
theorem owner_mem_ownersOnDisk_of_claimed {defaults : Config} {s u : ConfigState} {owner : String}
    {actions : List ConfigAction} (hclaimed : s.owners ≠ [])
    (hmemory : s.sharedConfig.ownersFromConfig = [])
    (h : Run (configStep defaults) s actions u) :
    owner ∈ u.ownersOnDisk ↔ owner ∈ s.ownersOnDisk ∧
      GuardedRun (configStep defaults) (fun s a ↦ ¬SavesConfig s a) s actions u := by
  induction h with
  | nil s => exact ⟨fun h ↦ ⟨h, .nil s⟩, fun h ↦ h.1⟩
  | @cons s t u action rest _ hstep hrest ih =>
    obtain ⟨hunclaimed, -⟩ | ⟨hkeeps, rfl⟩ | ⟨hsaves, howners, hdisk, hshared⟩ :=
      configStep_cases hstep
    · exact absurd hunclaimed hclaimed
    · rw [ih hclaimed hmemory]
      refine and_congr_right fun _ ↦ ⟨fun h ↦ .cons hkeeps hstep h, fun h ↦ ?_⟩
      cases h with
      | cons _ hstep' h =>
        obtain rfl := Option.some.inj (hstep'.symm.trans hstep)
        exact h
    · rw [ih (howners ▸ hclaimed) (hshared.trans hmemory), hdisk, hmemory]
      refine ⟨fun h ↦ absurd h.1 List.not_mem_nil, fun h ↦ ?_⟩
      cases h.2 with
      | cons hkeeps _ _ => exact absurd hsaves hkeeps

/-- Assumes: a runtime that started without an owner, and was claimed. The owner is in the file at
the end of a run after the claim if and only if no operation of that run saved the configuration
from memory. -/
theorem owner_mem_ownersOnDisk_iff {defaults config : Config} {file : Option Config}
    {cliOwners manifestOwners : List String} {before after : List ConfigAction}
    {s t u : ConfigState} {owner : String}
    (hunclaimed : resolveOwners config cliOwners manifestOwners = [])
    (hbefore : Run (configStep defaults)
      (finalizeStartup defaults file config cliOwners manifestOwners) before s)
    (hclaim : handleClaim defaults s owner = (.claimed [owner], t))
    (hafter : Run (configStep defaults) t after u) :
    owner ∈ u.ownersOnDisk ↔
      GuardedRun (configStep defaults) (fun s a ↦ ¬SavesConfig s a) t after u := by
  have hmemory : s.sharedConfig.ownersFromConfig = [] := by
    rw [ownersFromConfig_sharedConfig_of_run hbefore]
    refine List.eq_nil_iff_forall_not_mem.mpr fun o ho ↦ ?_
    have hresolved : o ∈ resolveOwners config cliOwners manifestOwners :=
      mem_resolveOwners.mpr (.inl ho)
    rw [hunclaimed] at hresolved
    cases hresolved
  have ht : t.owners = [owner] ∧ t.ownersOnDisk = [owner] ∧ t.sharedConfig = s.sharedConfig := by
    unfold handleClaim at hclaim
    split_ifs at hclaim
    · cases hclaim
    · cases hclaim
    · obtain rfl := (Prod.mk.inj hclaim).2
      exact ⟨rfl, Config.ownersFromConfig_setExtra_owners (s.disk.getD defaults) _, rfl⟩
  obtain ⟨howners, hdisk, hshared⟩ := ht
  rw [owner_mem_ownersOnDisk_of_claimed (by simp [howners]) (hshared ▸ hmemory) hafter, hdisk]
  exact and_iff_right (List.mem_singleton_self _)

/-- A default configuration. -/
def freshConfig : Config where
  kuboRpcUrl := "http://127.0.0.1:5001"
  kuboKeyAlias := "ma"
  logLevel := "info"
  logLevelStdout := "warn"
  didResolverPositiveTtlSecs := 60
  didResolverNegativeTtlSecs := 10
  logFile := none
  extra := .empty

/-- A claim survives a SET of `ipv6_enable` to the value in force, and a shutdown without a root. -/
theorem owner_mem_ownersOnDisk_iff_unchanged :
    ∃ t u, handleClaim freshConfig (finalizeStartup freshConfig none freshConfig [] [])
        "did:ma:alice" = (.claimed ["did:ma:alice"], t) ∧
      Run (configStep freshConfig) t
        [.setConfigKey "ipv6_enable" (.bool true), .shutdown none] u ∧
      "did:ma:alice" ∈ u.ownersOnDisk := by
  have hunclaimed : resolveOwners freshConfig [] [] = [] := rfl
  have hafter : Run (configStep freshConfig)
      (handleClaim freshConfig (finalizeStartup freshConfig none freshConfig [] [])
        "did:ma:alice").2
      [.setConfigKey "ipv6_enable" (.bool true), .shutdown none] _ := run_of_execute rfl
  refine ⟨_, _, rfl, hafter, (owner_mem_ownersOnDisk_iff hunclaimed
    (.nil (finalizeStartup freshConfig none freshConfig [] [])) rfl hafter).mpr ?_⟩
  exact .cons (fun h ↦ h rfl) rfl (.cons id rfl (.nil _))

/-- A claim is gone from the file after a SET of `log_level`. -/
theorem claim_lost_after_log_level :
    ∃ t u, handleClaim freshConfig (finalizeStartup freshConfig none freshConfig [] [])
        "did:ma:alice" = (.claimed ["did:ma:alice"], t) ∧
      Run (configStep freshConfig) t [.setConfigKey "log_level" (.string "debug")] u ∧
      "did:ma:alice" ∉ u.ownersOnDisk :=
  ⟨_, _, rfl, run_of_execute rfl, by decide⟩

end MaRuntime.Daemon
