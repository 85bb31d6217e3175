import MaRuntime.Crud.Requests
import MaRuntime.Crud.Sequences
import MaRuntime.Daemon.Protected

/-!
# Settings of the daemon over CRUD

A SET of a daemon setting stores the YAML value of a client's CBOR value where it has the type of
the setting, saves the configuration, and hands the limit of the outbox and the interval of the DID
refresh on to those who wait for them. `setDaemonKey` is `handle_config_key_set` for these settings,
and `writeDaemonKey` is a request with a value.

Two settings are checked before anything is stored. The others are stored where the type is right,
left as they are where it is not, and answered ok either way. `setAgrees_iff` says for which
requests an answer ok means that a GET gives the value back, a value of another type is answered
with an error, and nothing else changes.

Main definitions: `SettingsState`, `writeDaemonKey`, `Acceptable`, `SetAgrees`.
Main results: `setAgrees_iff`, `setDaemonKey_toConfigState`.

Scope. Whether the configuration can be saved is given with the request; a failure is logged and
nothing else. The runtime may have no outbox and nobody who waits for the interval. An error of a
handler is an answer with an error. A GET of a text that is a CID answers the text as a link.
-/

set_option autoImplicit false
set_option relaxedAutoImplicit false

namespace MaRuntime.Crud

open Daemon

/-! ### The operations -/

/-- The configuration in memory and on file, the limit that the outbox has, and the interval that
the DID refresh was told last. -/
structure SettingsState extends ConfigState where
  backoffAttempts : Option Nat
  refreshInterval : Option Nat

namespace SettingsState

/-- `set_daemon_config_key` and `save`. -/
def store (s : SettingsState) (key : String) (val : YamlValue) (saved : Bool) : SettingsState :=
  let sharedConfig := s.sharedConfig.setDaemonConfigKey key val
  { s with sharedConfig := sharedConfig, disk := if saved then some sharedConfig else s.disk }

/-- `set_backoff_attempts` of the outbox, if there is one. -/
def setBackoffAttempts (s : SettingsState) (attempts : Option Nat) : SettingsState :=
  match attempts with
  | some attempts =>
    { s with backoffAttempts := s.backoffAttempts.map fun _ ↦ max attempts 1 }
  | none => s

/-- `send_replace` of the interval, if somebody waits for it. -/
def sendRefreshInterval (s : SettingsState) (interval : Option Nat) : SettingsState :=
  match interval with
  | some interval => { s with refreshInterval := s.refreshInterval.map fun _ ↦ interval }
  | none => s

end SettingsState

/-- The number that a SET of one setting has for those who wait for it, if the value passes the
check of the setting. -/
def announced (check : YamlValue → Except String Nat) (setting key : String) (val : YamlValue) :
    Except String (Option Nat) :=
  if key = setting then (check val).map some else .ok none

section Operations

variable {Cid : Type}

/-- `handle_config_key_set` for the daemon's settings. -/
def setDaemonKey (s : SettingsState) (key : String) (val : YamlValue) (saved : Bool) :
    Except String (CrudReply Cid × SettingsState) :=
  if key = "ipv6_enable" then
    if val.asBool.getD true = ipv6Enabled s.sharedConfig then
      .ok (.okPath "ipv6-enable-unchanged", s)
    else .ok (.okPath "ipv6-enable-restart-required", s.store key val saved)
  else do
    let interval ← announced didRefreshIntervalSecs "did_refresh_interval_secs" key val
    let attempts ← announced outboxBackoffAttempts "outbox_backoff_attempts" key val
    .ok (.ok, ((s.setBackoffAttempts attempts).store key val saved).sendRefreshInterval interval)

/-- `handle_config_ns` for a daemon's setting and an operation that writes: without a value it is a
DELETE, which is refused. -/
def writeDaemonKey (debug : YamlValue → String) (s : SettingsState) (key : String) (saved : Bool) :
    List CborValue → Handled Cid SettingsState
  | [] => .ok (.refused "config-key-no-delete" [("key", key)], s)
  | [value] => setDaemonKey s key (cborToYaml debug value) saved
  | _ => .error ("unknown config." ++ key ++ " operation")

end Operations

/-! ### The property -/

/-- The settings that are checked before they are stored. -/
def checkedKeys : List String := ["did_refresh_interval_secs", "outbox_backoff_attempts"]

/-- A value has the type of a setting. -/
def Acceptable (key : String) (val : YamlValue) : Prop :=
  match key with
  | "root_cid" | "kubo_rpc_url" | "kubo_key_alias" | "log_level" | "log_level_stdout" =>
    val.asStr ≠ none
  | "log_file" => val.asStr ≠ none ∨ val = .null
  | "ipv6_enable" => val.asBool ≠ none
  | "outbox_backoff_attempts" => ∃ n, val.asU64 = some (n + 1)
  | _ => val.asU64 ≠ none

/-- A setting has the value that it had: in memory, on file if file and memory had the same, for the
outbox and for the DID refresh. -/
structure SettingKept (guarded : GuardedConfig) (s t : SettingsState) (key : String) : Prop where
  value : daemonConfigKeyValue { guarded with toConfig := t.sharedConfig } key =
    daemonConfigKeyValue { guarded with toConfig := s.sharedConfig } key
  extra : t.sharedConfig.extra.get key = s.sharedConfig.extra.get key
  file : ∀ cfg, s.disk = some cfg →
    daemonConfigKeyValue { guarded with toConfig := cfg } key =
      daemonConfigKeyValue { guarded with toConfig := s.sharedConfig } key →
    ∃ saved, t.disk = some saved ∧
      daemonConfigKeyValue { guarded with toConfig := saved } key =
        daemonConfigKeyValue { guarded with toConfig := cfg } key
  attempts : key = "outbox_backoff_attempts" → t.backoffAttempts = s.backoffAttempts
  interval : key = "did_refresh_interval_secs" → t.refreshInterval = s.refreshInterval

section Property

variable {Cid : Type} (debug : YamlValue → String) (isCidV1 : String → Bool)
  (config : KeyedMap String YamlValue) (guarded : GuardedConfig)

/-- A request that sends a value to the path of a daemon's setting, and ends with an outcome. If it
is answered ok, the GET after it answers the value; if the value has another type than the setting,
it is answered with an error and nothing changes; and no other setting is affected. -/
structure SetAgrees (s : SettingsState) (key : String) (value : CborValue)
    (outcome : Handled Cid SettingsState) : Prop where
  given : outcome.IsOk →
    handleConfigGet isCidV1 config
        { guarded with toConfig := (outcome.stateFrom s).sharedConfig } [key] =
      replyValue isCidV1 (cborToYaml debug value)
  refused : ¬Acceptable key (cborToYaml debug value) →
    ¬outcome.IsOk ∧ outcome.stateFrom s = s
  others : ∀ other, other ≠ key → SettingKept guarded s (outcome.stateFrom s) other

end Property

/-! ### What is stored -/

section Stored

variable {cfg : Config} {guarded : GuardedConfig} {key other : String} {val : YamlValue}

theorem exists_string_of_asStr (h : val.asStr ≠ none) : ∃ text, val = .string text := by
  cases val with
  | string text => exact ⟨text, rfl⟩
  | _ => exact absurd rfl h

theorem exists_bool_of_asBool (h : val.asBool ≠ none) : ∃ value, val = .bool value := by
  cases val with
  | bool value => exact ⟨value, rfl⟩
  | _ => exact absurd rfl h

theorem eq_number_of_asU64 {n : Nat} (h : val.asU64 = some n) : val = .number n := by
  cases val with
  | number value =>
    simp only [YamlValue.asU64] at h
    split_ifs at h with hrange
    obtain rfl := Option.some.inj h
    rw [Int.toNat_of_nonneg hrange.1]
  | _ => cases h

/-- A further setting is read as no other one. -/
theorem daemonConfigKeyValue_setExtra (h : other ≠ key) (value : YamlValue) :
    daemonConfigKeyValue { guarded with toConfig := cfg.setExtra key value } other =
      daemonConfigKeyValue { guarded with toConfig := cfg } other := by
  unfold daemonConfigKeyValue
  split <;> simp only [Config.setExtra, KeyedMap.get_insert_of_ne _ _ h]

/-- A setting that is stored is none of the others. -/
theorem daemonConfigKeyValue_setDaemonConfigKey (h : other ≠ key) (val : YamlValue) :
    daemonConfigKeyValue { guarded with toConfig := cfg.setDaemonConfigKey key val } other =
      daemonConfigKeyValue { guarded with toConfig := cfg } other := by
  unfold Config.setDaemonConfigKey
  split
  case h_13 => rfl
  case h_8 =>
    unfold daemonConfigKeyValue
    split <;> first | rfl | exact absurd rfl h
  all_goals
    split
    · first
      | exact daemonConfigKeyValue_setExtra h _
      | (unfold daemonConfigKeyValue
         split <;> first | rfl | exact absurd rfl h)
    · rfl

theorem get_extra_setDaemonConfigKey (h : other ≠ key) (val : YamlValue) :
    (cfg.setDaemonConfigKey key val).extra.get other = cfg.extra.get other := by
  unfold Config.setDaemonConfigKey
  split
  case h_13 => rfl
  case h_8 => rfl
  all_goals
    split
    · first | rfl | exact KeyedMap.get_insert_of_ne _ _ h
    · rfl

/-- A text is read back. -/
theorem daemonConfigKeyValue_text (hkey : key ∈ ["root_cid", "kubo_rpc_url", "kubo_key_alias",
    "log_level", "log_level_stdout"]) (h : val.asStr ≠ none) :
    daemonConfigKeyValue { guarded with toConfig := cfg.setDaemonConfigKey key val } key = val := by
  obtain ⟨text, rfl⟩ := exists_string_of_asStr h
  simp only [List.mem_cons, List.not_mem_nil, or_false] at hkey
  obtain rfl | rfl | rfl | rfl | rfl := hkey
  · exact congrArg (Option.getD · YamlValue.null)
      (KeyedMap.get_insert_self cfg.extra "root_cid" (.string text))
  · rfl
  · rfl
  · rfl
  · rfl

/-- A number is read back. -/
theorem daemonConfigKeyValue_number (hkey : key ∈ ["did_resolver_positive_ttl_secs",
    "did_resolver_negative_ttl_secs", "did_refresh_interval_secs",
    "wasm_reload_shutdown_timeout_ms"]) (h : val.asU64 ≠ none) :
    daemonConfigKeyValue { guarded with toConfig := cfg.setDaemonConfigKey key val } key = val := by
  obtain ⟨n, hn⟩ := Option.ne_none_iff_exists'.mp h
  simp only [List.mem_cons, List.not_mem_nil, or_false] at hkey
  obtain rfl | rfl | rfl | rfl := hkey
  · simp only [Config.setDaemonConfigKey, hn, ← eq_number_of_asU64 hn, daemonConfigKeyValue]
  · simp only [Config.setDaemonConfigKey, hn, ← eq_number_of_asU64 hn, daemonConfigKeyValue]
  · simp only [Config.setDaemonConfigKey, hn, ← eq_number_of_asU64 hn, daemonConfigKeyValue,
      Config.setExtra, KeyedMap.get_insert_self, settingOr, didRefreshIntervalSecs,
      Except.toOption, Option.getD_some]
  · simp only [Config.setDaemonConfigKey, hn, ← eq_number_of_asU64 hn, daemonConfigKeyValue,
      Config.setExtra, KeyedMap.get_insert_self, Option.bind_some, Option.getD_some]

/-- A value with the type of its setting is read back. -/
theorem daemonConfigKeyValue_setDaemonConfigKey_self (hkey : key ∈ daemonConfigKeys)
    (h : Acceptable key val) :
    daemonConfigKeyValue { guarded with toConfig := cfg.setDaemonConfigKey key val } key = val := by
  simp only [daemonConfigKeys, List.mem_cons, List.not_mem_nil, or_false] at hkey
  obtain rfl | rfl | rfl | rfl | rfl | rfl | rfl | rfl | rfl | rfl | rfl | rfl := hkey
  · exact daemonConfigKeyValue_text (by decide) h
  · exact daemonConfigKeyValue_text (by decide) h
  · exact daemonConfigKeyValue_text (by decide) h
  · exact daemonConfigKeyValue_text (by decide) h
  · exact daemonConfigKeyValue_text (by decide) h
  · exact daemonConfigKeyValue_number (by decide) h
  · exact daemonConfigKeyValue_number (by decide) h
  · exact daemonConfigKeyValue_number (by decide) h
  · -- `log_file`
    obtain h | rfl := h
    · obtain ⟨text, rfl⟩ := exists_string_of_asStr h
      rfl
    · rfl
  · -- `outbox_backoff_attempts`
    obtain ⟨n, hn⟩ := h
    simp only [Config.setDaemonConfigKey, hn, ← eq_number_of_asU64 hn, daemonConfigKeyValue,
      Config.setExtra, KeyedMap.get_insert_self, settingOr, outboxBackoffAttempts, Except.toOption,
      Option.getD_some]
  · -- `ipv6_enable`
    obtain ⟨enabled, rfl⟩ := exists_bool_of_asBool h
    simp only [Config.setDaemonConfigKey, daemonConfigKeyValue, Config.setExtra, YamlValue.asBool,
      KeyedMap.get_insert_self, Option.bind_some, Option.getD_some]
  · exact daemonConfigKeyValue_number (by decide) h

end Stored

/-! ### The outcomes of a SET -/

/-- With a file that can be written, a SET does to the configuration what `handleConfigKeySet` does
to it. -/
theorem setDaemonKey_toConfigState {Cid : Type} {s : SettingsState} {key : String}
    (hkey : key ∈ daemonConfigKeys) (val : YamlValue) {outcome : Handled Cid SettingsState}
    (h : setDaemonKey s key val true = outcome) :
    outcome.map (fun result ↦ result.2.toConfigState) =
      handleConfigKeySet s.toConfigState key val := by
  subst h
  unfold setDaemonKey handleConfigKeySet checkDaemonValue
  simp only [List.contains_iff_mem.mpr hkey, if_true]
  by_cases hipv6 : key = "ipv6_enable"
  · simp only [if_pos hipv6]
    split_ifs <;> rfl
  simp only [if_neg hipv6, announced]
  by_cases hinterval : key = "did_refresh_interval_secs"
  · subst hinterval
    cases didRefreshIntervalSecs val <;> rfl
  by_cases hattempts : key = "outbox_backoff_attempts"
  · subst hattempts
    cases outboxBackoffAttempts val <;> rfl
  simp only [if_neg hinterval, if_neg hattempts]
  rfl

/-- A value was stored for a setting. -/
structure Stored (key : String) (val : YamlValue) (saved : Bool) (s t : SettingsState) : Prop where
  sharedConfig : t.sharedConfig = s.sharedConfig.setDaemonConfigKey key val
  disk : t.disk = if saved then some t.sharedConfig else s.disk
  owners : t.owners = s.owners
  attempts : key ≠ "outbox_backoff_attempts" → t.backoffAttempts = s.backoffAttempts
  interval : key ≠ "did_refresh_interval_secs" → t.refreshInterval = s.refreshInterval

section Outcomes

variable {Cid : Type} {s t : SettingsState} {key : String} {val : YamlValue} {saved : Bool}

theorem didRefreshIntervalSecs_cases (val : YamlValue) :
    (∃ reason, didRefreshIntervalSecs val = .error reason ∧
      ¬Acceptable "did_refresh_interval_secs" val) ∨
    ∃ n, didRefreshIntervalSecs val = .ok n ∧ Acceptable "did_refresh_interval_secs" val := by
  simp only [didRefreshIntervalSecs, Acceptable]
  cases h : val.asU64 with
  | none => exact .inl ⟨_, rfl, not_not.mpr rfl⟩
  | some n => exact .inr ⟨n, rfl, Option.some_ne_none n⟩

theorem outboxBackoffAttempts_cases (val : YamlValue) :
    (∃ reason, outboxBackoffAttempts val = .error reason ∧
      ¬Acceptable "outbox_backoff_attempts" val) ∨
    ∃ n, outboxBackoffAttempts val = .ok n ∧ Acceptable "outbox_backoff_attempts" val := by
  simp only [outboxBackoffAttempts, Acceptable]
  cases h : val.asU64 with
  | none => exact .inl ⟨_, rfl, by simp⟩
  | some n =>
    cases n with
    | zero => exact .inl ⟨_, rfl, by simp⟩
    | succ n => exact .inr ⟨n + 1, rfl, n, rfl⟩

/-- A SET fails where its check does, leaves a value of `ipv6_enable` that is in force, and stores
the value otherwise. -/
theorem setDaemonKey_cases {outcome : Handled Cid SettingsState}
    (h : setDaemonKey s key val saved = outcome) :
    (∃ reason, outcome = .error reason ∧ key ∈ checkedKeys ∧ ¬Acceptable key val) ∨
    (key = "ipv6_enable" ∧ val.asBool.getD true = ipv6Enabled s.sharedConfig ∧
      outcome = .ok (.okPath "ipv6-enable-unchanged", s)) ∨
    ∃ reply t, outcome = .ok (reply, t) ∧ reply.isOk = true ∧
      (key ∈ checkedKeys → Acceptable key val) ∧ Stored key val saved s t := by
  subst h
  unfold setDaemonKey
  by_cases hipv6 : key = "ipv6_enable"
  · subst hipv6
    rw [if_pos rfl]
    by_cases hsame : val.asBool.getD true = ipv6Enabled s.sharedConfig
    · rw [if_pos hsame]
      exact .inr (.inl ⟨rfl, hsame, rfl⟩)
    · rw [if_neg hsame]
      exact .inr (.inr ⟨_, _, rfl, rfl, fun h ↦ absurd h (by decide),
        ⟨rfl, rfl, rfl, fun _ ↦ rfl, fun _ ↦ rfl⟩⟩)
  rw [if_neg hipv6]
  by_cases hinterval : key = "did_refresh_interval_secs"
  · subst hinterval
    simp only [announced, if_true, show ¬"did_refresh_interval_secs" = "outbox_backoff_attempts" by
      decide, if_false]
    obtain ⟨reason, hcheck, hval⟩ | ⟨n, hcheck, hval⟩ := didRefreshIntervalSecs_cases val
    · rw [hcheck]
      exact .inl ⟨reason, rfl, by decide, hval⟩
    · rw [hcheck]
      exact .inr (.inr ⟨_, _, rfl, rfl, fun _ ↦ hval,
        ⟨rfl, rfl, rfl, fun _ ↦ rfl, fun h ↦ absurd rfl h⟩⟩)
  by_cases hattempts : key = "outbox_backoff_attempts"
  · subst hattempts
    simp only [announced, if_true, if_neg hinterval]
    obtain ⟨reason, hcheck, hval⟩ | ⟨n, hcheck, hval⟩ := outboxBackoffAttempts_cases val
    · rw [hcheck]
      exact .inl ⟨reason, rfl, by decide, hval⟩
    · rw [hcheck]
      exact .inr (.inr ⟨_, _, rfl, rfl, fun _ ↦ hval,
        ⟨rfl, rfl, rfl, fun h ↦ absurd rfl h, fun _ ↦ rfl⟩⟩)
  simp only [announced, if_neg hinterval, if_neg hattempts]
  have hunchecked : key ∉ checkedKeys := by
    simp [checkedKeys, hinterval, hattempts]
  exact .inr (.inr ⟨_, _, rfl, rfl, fun h ↦ absurd h hunchecked,
    ⟨rfl, rfl, rfl, fun _ ↦ rfl, fun _ ↦ rfl⟩⟩)

theorem SettingKept.refl (guarded : GuardedConfig) (s : SettingsState) (key : String) :
    SettingKept guarded s s key where
  value := rfl
  extra := rfl
  file cfg hdisk _ := ⟨cfg, hdisk, rfl⟩
  attempts _ := rfl
  interval _ := rfl

theorem SettingKept.trans {guarded : GuardedConfig} {s t u : SettingsState} {key : String}
    (hst : SettingKept guarded s t key) (htu : SettingKept guarded t u key) :
    SettingKept guarded s u key where
  value := htu.value.trans hst.value
  extra := htu.extra.trans hst.extra
  file cfg hdisk hagrees := by
    obtain ⟨saved, hsaved, heq⟩ := hst.file cfg hdisk hagrees
    obtain ⟨last, hlast, hlastEq⟩ :=
      htu.file saved hsaved (heq.trans (hagrees.trans hst.value.symm))
    exact ⟨last, hlast, hlastEq.trans heq⟩
  attempts h := (htu.attempts h).trans (hst.attempts h)
  interval h := (htu.interval h).trans (hst.interval h)

/-- What is stored for a setting leaves every other one as it was. -/
theorem Stored.settingKept {other : String} (h : Stored key val saved s t)
    (guarded : GuardedConfig) (hother : other ≠ key) : SettingKept guarded s t other where
  value := by
    rw [h.sharedConfig]
    exact daemonConfigKeyValue_setDaemonConfigKey hother val
  extra := by
    rw [h.sharedConfig]
    exact get_extra_setDaemonConfigKey hother val
  file cfg hdisk hagree := by
    rw [h.disk]
    cases saved with
    | false => exact ⟨cfg, hdisk, rfl⟩
    | true =>
      refine ⟨t.sharedConfig, rfl, ?_⟩
      rw [h.sharedConfig, hagree]
      exact daemonConfigKeyValue_setDaemonConfigKey hother val
  attempts hkey := h.attempts fun heq ↦ hother (hkey.trans heq.symm)
  interval hkey := h.interval fun heq ↦ hother (hkey.trans heq.symm)

end Outcomes

section Agreement

variable {Cid : Type} {debug : YamlValue → String} {isCidV1 : String → Bool}
  {config : KeyedMap String YamlValue} {guarded : GuardedConfig} {s t : SettingsState}
  {key : String} {value : CborValue} {saved : Bool}

/-- The answer to a GET of a daemon's setting. -/
theorem handleConfigGet_daemonKey (hkey : key ∈ daemonConfigKeys) (cfg : GuardedConfig) :
    handleConfigGet isCidV1 config cfg [key] =
      replyValue isCidV1 (daemonConfigKeyValue cfg key) := by
  have hpublic : isProtectedConfigKey key = false := by
    rw [← Bool.not_eq_true]
    exact fun hprotected ↦ not_mem_daemonConfigKeys hprotected hkey
  simp only [handleConfigGet, handleConfigKeyGet, hpublic, Bool.false_eq_true, if_false,
    List.contains_iff_mem.mpr hkey, if_true]

/-- A value that is stored agrees with the GETs after it if and only if it has the type of its
setting. -/
theorem Stored.agrees_iff (h : Stored key (cborToYaml debug value) saved s t)
    (hkey : key ∈ daemonConfigKeys) {reply : CrudReply Cid} (hreply : reply.isOk = true) :
    SetAgrees debug isCidV1 config guarded s key value (.ok (reply, t)) ↔
      Acceptable key (cborToYaml debug value) := by
  constructor
  · intro hagrees
    by_contra hval
    exact (hagrees.refused hval).1 hreply
  · intro hval
    refine ⟨fun _ ↦ ?_, fun hnot ↦ absurd hval hnot, fun _ ↦ h.settingKept guarded⟩
    rw [handleConfigGet_daemonKey hkey]
    refine congrArg (replyValue isCidV1) ?_
    change daemonConfigKeyValue { guarded with toConfig := t.sharedConfig } key = _
    rw [h.sharedConfig]
    exact daemonConfigKeyValue_setDaemonConfigKey_self hkey hval

/-- A value of `ipv6_enable` that is in force agrees with the GETs after it if and only if it is a
boolean. -/
theorem setAgrees_unchanged_iff
    (hsame : (cborToYaml debug value).asBool.getD true = ipv6Enabled s.sharedConfig)
    {reply : CrudReply Cid} (hreply : reply.isOk = true) :
    SetAgrees debug isCidV1 config guarded s "ipv6_enable" value (.ok (reply, s)) ↔
      Acceptable "ipv6_enable" (cborToYaml debug value) := by
  constructor
  · intro hagrees
    by_contra hval
    exact (hagrees.refused hval).1 hreply
  · intro hval
    refine ⟨fun _ ↦ ?_, fun hnot ↦ absurd hval hnot, fun _ _ ↦ .refl _ s _⟩
    rw [handleConfigGet_daemonKey (by decide)]
    obtain ⟨enabled, henabled⟩ := exists_bool_of_asBool hval
    rw [henabled] at hsame ⊢
    exact congrArg (replyValue isCidV1 ∘ YamlValue.bool) hsame.symm

/-- A request with a value at a daemon's setting agrees with the GETs after it if and only if the
value has the type of the setting, the setting is checked, or the value is the empty text, which
asks for a DELETE. -/
theorem setAgrees_iff (hkey : key ∈ daemonConfigKeys) (path : String)
    {outcome : Handled Cid SettingsState}
    (h : writeDaemonKey debug s key saved (CrudOp.ofPair path value).args = outcome) :
    SetAgrees debug isCidV1 config guarded s key value outcome ↔
      Acceptable key (cborToYaml debug value) ∨ key ∈ checkedKeys ∨ value = .text "" := by
  obtain ⟨hvalue, hargs⟩ | ⟨hvalue, hargs⟩ := CrudOp.args_ofPair path value
  · rw [hargs] at h
    subst h
    refine iff_of_true ⟨fun hok ↦ ?_, fun _ ↦ ⟨?_, rfl⟩, fun _ _ ↦ .refl _ s _⟩ (.inr (.inr hvalue))
    · cases hok
    · exact fun hok ↦ by cases hok
  rw [hargs] at h
  obtain ⟨reason, rfl, hchecked, hval⟩ | ⟨rfl, hsame, rfl⟩ |
    ⟨reply, t, rfl, hreply, hval, hstored⟩ := setDaemonKey_cases h
  · exact iff_of_true ⟨fun hok ↦ hok.elim, fun _ ↦ ⟨id, rfl⟩, fun _ _ ↦ .refl _ s _⟩
      (.inr (.inl hchecked))
  · rw [setAgrees_unchanged_iff hsame rfl]
    refine ⟨.inl, ?_⟩
    rintro (h | h | h)
    · exact h
    · exact absurd h (by decide)
    · exact absurd h hvalue
  · rw [hstored.agrees_iff hkey hreply]
    refine ⟨.inl, ?_⟩
    rintro (h | h | h)
    · exact h
    · exact hval h
    · exact absurd h hvalue

end Agreement

/-- A fresh configuration that was not saved, with an outbox and somebody who waits for the
interval. -/
def freshSettings : SettingsState where
  disk := none
  sharedConfig := freshConfig
  owners := []
  backoffAttempts := some defaultOutboxBackoffAttempts
  refreshInterval := some defaultDidRefreshIntervalSecs

/-- A SET of the level of the log to a text. -/
theorem setAgrees_iff_debug :
    SetAgrees strokes (fun _ ↦ false) .empty (daemonWith "ma" none .empty) freshSettings
      "log_level" (.text "debug")
      (writeDaemonKey strokes freshSettings "log_level" true
        (CrudOp.ofPair "/config/log_level" (.text "debug")).args : Handled Unit SettingsState) :=
  (setAgrees_iff (by decide) "/config/log_level" rfl).mpr (.inl (Option.some_ne_none "debug"))

/-- A SET of the level of the log to a number is answered ok, writes the file, and a GET answers the
level of before. -/
theorem number_for_log_level :
    (writeDaemonKey strokes freshSettings "log_level" true
        (CrudOp.ofPair "/config/log_level" (.integer 5)).args : Handled Unit SettingsState) =
        .ok (.ok, { freshSettings with disk := some freshConfig }) ∧
      handleConfigGet (fun _ ↦ false) .empty
          { daemonWith "ma" none .empty with toConfig := freshConfig } ["log_level"] =
        .data (.string "info") ∧
      ¬SetAgrees strokes (fun _ ↦ false) .empty (daemonWith "ma" none .empty) freshSettings
        "log_level" (.integer 5)
        (writeDaemonKey strokes freshSettings "log_level" true
          (CrudOp.ofPair "/config/log_level" (.integer 5)).args : Handled Unit SettingsState) := by
  refine ⟨rfl, rfl, fun h ↦ ?_⟩
  exact (h.refused fun hval ↦ hval rfl).1 rfl

end MaRuntime.Crud
