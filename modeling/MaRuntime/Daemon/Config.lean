import MaRuntime.Library.KeyedMap
import MaRuntime.Library.Yaml

/-!
# The daemon's configuration

`ma_core::Config` as the runtime uses it: named settings and a map `extra` of further ones, which
holds `owners` and `root_cid` among others. `setDaemonConfigKey` stores a value from CRUD, and reads
it with the type of the setting; `rootCidSetting` and `ownersFromConfig` are how a startup reads the
two keys.

No setting that CRUD stores is the list of owners (`ownersFromConfig_setDaemonConfigKey`).

Scope. The settings that name the runtime's own files and secrets are never read or written here.
-/

set_option autoImplicit false
set_option relaxedAutoImplicit false

namespace MaRuntime.Daemon

/-- The daemon's configuration. -/
structure Config where
  kuboRpcUrl : String
  kuboKeyAlias : String
  logLevel : String
  logLevelStdout : String
  didResolverPositiveTtlSecs : Nat
  didResolverNegativeTtlSecs : Nat
  logFile : Option String
  extra : KeyedMap String YamlValue

/-- The settings that CRUD reads from and writes to the daemon's configuration. -/
def daemonConfigKeys : List String :=
  ["root_cid", "kubo_rpc_url", "kubo_key_alias", "log_level", "log_level_stdout",
    "did_resolver_positive_ttl_secs", "did_resolver_negative_ttl_secs", "did_refresh_interval_secs",
    "log_file", "outbox_backoff_attempts", "ipv6_enable", "wasm_reload_shutdown_timeout_ms"]

namespace Config

/-- The configuration with a further setting. -/
def setExtra (cfg : Config) (key : String) (value : YamlValue) : Config :=
  { cfg with extra := cfg.extra.insert key value }

/-- `set_daemon_config_key`: a value from CRUD is stored where it has the setting's type. -/
def setDaemonConfigKey (cfg : Config) (key : String) (val : YamlValue) : Config :=
  match key with
  | "kubo_rpc_url" => match val.asStr with
    | some s => { cfg with kuboRpcUrl := s }
    | none => cfg
  | "kubo_key_alias" => match val.asStr with
    | some s => { cfg with kuboKeyAlias := s }
    | none => cfg
  | "log_level" => match val.asStr with
    | some s => { cfg with logLevel := s }
    | none => cfg
  | "log_level_stdout" => match val.asStr with
    | some s => { cfg with logLevelStdout := s }
    | none => cfg
  | "did_resolver_positive_ttl_secs" => match val.asU64 with
    | some n => { cfg with didResolverPositiveTtlSecs := n }
    | none => cfg
  | "did_resolver_negative_ttl_secs" => match val.asU64 with
    | some n => { cfg with didResolverNegativeTtlSecs := n }
    | none => cfg
  | "did_refresh_interval_secs" => match val.asU64 with
    | some n => cfg.setExtra "did_refresh_interval_secs" (.number n)
    | none => cfg
  | "log_file" => { cfg with logFile := val.asStr }
  | "outbox_backoff_attempts" => match val.asU64 with
    | some n => cfg.setExtra "outbox_backoff_attempts" (.number n)
    | none => cfg
  | "ipv6_enable" => match val.asBool with
    | some b => cfg.setExtra "ipv6_enable" (.bool b)
    | none => cfg
  | "wasm_reload_shutdown_timeout_ms" => match val.asU64 with
    | some n => cfg.setExtra "wasm_reload_shutdown_timeout_ms" (.number n)
    | none => cfg
  | "root_cid" => match val.asStr with
    | some s => cfg.setExtra "root_cid" (.string s)
    | none => cfg
  | _ => cfg

/-- `root_cid_setting`: the configured root, unless it is blank. -/
def rootCidSetting (cfg : Config) : Option String :=
  (((cfg.extra.get "root_cid").bind YamlValue.asStr).map trim).filter fun value ↦ value ≠ ""

/-- The owners a startup reads from the configuration: a sequence of texts, or a single text. -/
def ownersFromConfig (cfg : Config) : List String :=
  match cfg.extra.get "owners" with
  | some (.sequence items) => YamlValue.textsOf items
  | some (.string owner) => [owner]
  | _ => []

@[simp] theorem ownersFromConfig_setExtra_owners (cfg : Config) (owners : List String) :
    (cfg.setExtra "owners" (.ofTexts owners)).ownersFromConfig = owners := by
  simp [ownersFromConfig, setExtra, YamlValue.ofTexts]

theorem ownersFromConfig_setExtra (cfg : Config) {key : String} (value : YamlValue)
    (h : key ≠ "owners") : (cfg.setExtra key value).ownersFromConfig = cfg.ownersFromConfig := by
  simp only [ownersFromConfig, setExtra, KeyedMap.get_insert_of_ne _ _ h.symm]

/-- No setting that CRUD stores changes the owners. -/
@[simp] theorem ownersFromConfig_setDaemonConfigKey (cfg : Config) (key : String)
    (val : YamlValue) :
    (cfg.setDaemonConfigKey key val).ownersFromConfig = cfg.ownersFromConfig := by
  unfold setDaemonConfigKey
  split
  case h_8 => rfl
  case h_13 => rfl
  all_goals
    split
    · first | rfl | exact ownersFromConfig_setExtra cfg _ (by decide)
    · rfl

end Config

end MaRuntime.Daemon
