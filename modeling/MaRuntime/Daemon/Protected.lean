import MaRuntime.Daemon.Claim

/-!
# Protected settings

Some settings are for no reader of the runtime: its slug, the path and the passphrase of its secret
bundle, the path of its configuration, and every key that begins with `secret`. Three functions give
settings away: the GETs of `/config` and of `/config/<key>`, and `public_plugin_config`, which hands
a map of settings to the plugins. They join the manifest's settings with the daemon's.

None of them depends on a protected setting of the daemon (`daemonConfigKeyValue_congr`). A GET of
one key is refused for a protected key; the two maps are not asked, so they have a protected key if
and only if the manifest's settings have it (`configGuarded_iff`).

Main definitions: `handleConfigGet`, `publicPluginConfig`, `SameButProtected`, `ConfigGuarded`.
Main results: `configGuarded_iff`, `secret_in_manifest_leaks`.

Scope. The texts of YAML sequences and mappings and the parser of CIDs come with other crates and
are parameters. A `usize` has 64 bits. The settings for remote pins, which none of the functions
reads, are left out.
-/

set_option autoImplicit false
set_option relaxedAutoImplicit false

namespace MaRuntime.Daemon

/-! ### Settings -/

/-- The daemon's configuration with the fields that are for no reader. -/
structure GuardedConfig extends Config where
  slug : String
  secretBundle : Option String
  secretBundlePassphrase : Option String
  configPath : Option String

def protectedConfigKeys : List String :=
  ["slug", "secret_bundle", "secret_bundle_passphrase", "config_path"]

def isProtectedConfigKey (key : String) : Bool :=
  protectedConfigKeys.contains key || "secret".toList.isPrefixOf key.toList

/-- Two configurations agree, but for protected settings. -/
structure SameButProtected (first second : GuardedConfig) : Prop where
  kuboRpcUrl : first.kuboRpcUrl = second.kuboRpcUrl
  kuboKeyAlias : first.kuboKeyAlias = second.kuboKeyAlias
  logLevel : first.logLevel = second.logLevel
  logLevelStdout : first.logLevelStdout = second.logLevelStdout
  didResolverPositiveTtlSecs :
    first.didResolverPositiveTtlSecs = second.didResolverPositiveTtlSecs
  didResolverNegativeTtlSecs :
    first.didResolverNegativeTtlSecs = second.didResolverNegativeTtlSecs
  logFile : first.logFile = second.logFile
  extra : ∀ key, isProtectedConfigKey key = false → first.extra.get key = second.extra.get key

def defaultDidRefreshIntervalSecs : Nat := 86400
def defaultOutboxBackoffAttempts : Nat := 30
def defaultWasmReloadShutdownTimeoutMs : Nat := 250
def defaultPluginEnvelopeQueueCapacity : Nat := 1024

/-- `did_refresh_interval_secs` and `outbox_backoff_attempts` of a value that may be missing. -/
def settingOr (check : YamlValue → Except String Nat) (default : Nat) :
    Option YamlValue → Except String Nat
  | none => .ok default
  | some value => check value

/-- The value of a setting of the daemon, null for a key that is none. -/
def daemonConfigKeyValue (cfg : GuardedConfig) (key : String) : YamlValue :=
  match key with
  | "root_cid" => (cfg.extra.get "root_cid").getD .null
  | "kubo_rpc_url" => .string cfg.kuboRpcUrl
  | "kubo_key_alias" => .string cfg.kuboKeyAlias
  | "log_level" => .string cfg.logLevel
  | "log_level_stdout" => .string cfg.logLevelStdout
  | "did_resolver_positive_ttl_secs" => .number cfg.didResolverPositiveTtlSecs
  | "did_resolver_negative_ttl_secs" => .number cfg.didResolverNegativeTtlSecs
  | "did_refresh_interval_secs" =>
    .number ((settingOr didRefreshIntervalSecs defaultDidRefreshIntervalSecs
      (cfg.extra.get "did_refresh_interval_secs")).toOption.getD defaultDidRefreshIntervalSecs)
  | "log_file" => (cfg.logFile.map YamlValue.string).getD .null
  | "outbox_backoff_attempts" =>
    .number ((settingOr outboxBackoffAttempts defaultOutboxBackoffAttempts
      (cfg.extra.get "outbox_backoff_attempts")).toOption.getD defaultOutboxBackoffAttempts)
  | "ipv6_enable" =>
    .bool (((cfg.extra.get "ipv6_enable").bind YamlValue.asBool).getD true)
  | "wasm_reload_shutdown_timeout_ms" =>
    .number (((cfg.extra.get "wasm_reload_shutdown_timeout_ms").bind YamlValue.asU64).getD
      defaultWasmReloadShutdownTimeoutMs)
  | _ => .null

def defaultManifestConfigValue : String → Option YamlValue
  | "operator" =>
    some (.string "/ipns/k51qzi5uqu5djnoah9igllgb3zsn0sfy75glxdjf8glaozybubkm13nuqbfvpm")
  | "name" => some (.string "間trix")
  | "description" => some (.string "A 間 runtime with a lazy owner.")
  | "plugin_envelope_queue_capacity" => some (.number defaultPluginEnvelopeQueueCapacity)
  | _ => none

/-- No setting of the daemon is read from a protected one. -/
theorem daemonConfigKeyValue_congr {first second : GuardedConfig}
    (h : SameButProtected first second) :
    daemonConfigKeyValue first = daemonConfigKeyValue second := by
  ext key
  unfold daemonConfigKeyValue
  rw [h.kuboRpcUrl, h.kuboKeyAlias, h.logLevel, h.logLevelStdout, h.didResolverPositiveTtlSecs,
    h.didResolverNegativeTtlSecs, h.logFile, h.extra "root_cid" (by decide),
    h.extra "did_refresh_interval_secs" (by decide), h.extra "outbox_backoff_attempts" (by decide),
    h.extra "ipv6_enable" (by decide), h.extra "wasm_reload_shutdown_timeout_ms" (by decide)]

/-! ### What is given away -/

/-- A text without the white space at its end. -/
def trimEnd (text : String) : String :=
  String.ofList (text.toList.reverse.dropWhile isWhiteSpace).reverse

/-- What a GET of `/config` or of a key below it answers. -/
inductive ConfigReply
  | root (settings : KeyedMap String YamlValue)
  | data (value : YamlValue)
  | link (cid : String)
  | refused (reason key : String)
  | failed (reason : String)

section Outputs

variable (yamlText : YamlValue → Option String) (isCidV1 : String → Bool)

/-- The text of a setting for a plugin. -/
def yamlConfigValueToString : YamlValue → Option String
  | .null => none
  | .bool value => some (if value then "true" else "false")
  | .number value => some (toString value)
  | .float text => some text
  | .string value => some value
  | value => (yamlText value).map trimEnd

/-- The settings that plugins are given. -/
def publicPluginConfig (config : KeyedMap String YamlValue) (cfg : GuardedConfig) :
    KeyedMap String String :=
  let out := config.filterMap fun _ value ↦ yamlConfigValueToString yamlText value
  let out := out.insertEach id
    (fun key ↦ yamlConfigValueToString yamlText (daemonConfigKeyValue cfg key)) daemonConfigKeys
  out.insertMissing
    (fun key ↦ (defaultManifestConfigValue key).bind (yamlConfigValueToString yamlText))
    ["name", "description"]

def nonNull : YamlValue → Option YamlValue
  | .null => none
  | value => some value

/-- The settings that a GET of `/config` answers. -/
def configRoot (config : KeyedMap String YamlValue) (cfg : GuardedConfig) :
    KeyedMap String YamlValue :=
  let combined := config.insertMissing defaultManifestConfigValue
    ["operator", "name", "description", "plugin_envelope_queue_capacity"]
  combined.insertEach id (fun key ↦ nonNull (daemonConfigKeyValue cfg key)) daemonConfigKeys

/-- What is answered with a setting's value, as a link where it is one. -/
def replyValue : YamlValue → ConfigReply
  | .string text =>
    if "b".toList.isPrefixOf text.toList && isCidV1 text then .link text else .data (.string text)
  | value => .data value

def handleConfigKeyGet (config : KeyedMap String YamlValue) (cfg : GuardedConfig)
    (key : String) : ConfigReply :=
  if daemonConfigKeys.contains key then replyValue isCidV1 (daemonConfigKeyValue cfg key)
  else
    match (config.get key).or (defaultManifestConfigValue key) with
    | some value => replyValue isCidV1 value
    | none => .failed "config-not-found"

/-- A GET at the path `/config` with these segments behind it. -/
def handleConfigGet (config : KeyedMap String YamlValue) (cfg : GuardedConfig) :
    List String → ConfigReply
  | [] => .root (configRoot config cfg)
  | [key] =>
    if isProtectedConfigKey key then .refused "config-key-protected" key
    else handleConfigKeyGet isCidV1 config cfg key
  | _ => .failed "unknown config operation"

/-- The answers for a manifest's settings are the same with two configurations, and none of them
has a protected key. -/
structure ConfigGuarded (config : KeyedMap String YamlValue) (first second : GuardedConfig) :
    Prop where
  get : ∀ segments,
    handleConfigGet isCidV1 config first segments = handleConfigGet isCidV1 config second segments
  plugin : publicPluginConfig yamlText config first = publicPluginConfig yamlText config second
  root_public : ∀ key, isProtectedConfigKey key = true →
    (configRoot config first).get key = none ∧ (configRoot config second).get key = none
  key_public : ∀ key, isProtectedConfigKey key = true →
    handleConfigGet isCidV1 config first [key] = .refused "config-key-protected" key ∧
      handleConfigGet isCidV1 config second [key] = .refused "config-key-protected" key
  plugin_public : ∀ key, isProtectedConfigKey key = true →
    (publicPluginConfig yamlText config first).get key = none ∧
      (publicPluginConfig yamlText config second).get key = none

variable {yamlText isCidV1} {config : KeyedMap String YamlValue} {first second : GuardedConfig}
  {key : String}

/-- A protected key is none of some keys that are not protected. -/
theorem not_mem_of_public {keys : List String}
    (hkeys : keys.all (fun key ↦ !isProtectedConfigKey key) = true)
    (h : isProtectedConfigKey key = true) : key ∉ keys := by
  intro hmem
  have hpublic := List.all_eq_true.mp hkeys key hmem
  rw [h] at hpublic
  cases hpublic

theorem not_mem_daemonConfigKeys (h : isProtectedConfigKey key = true) :
    key ∉ daemonConfigKeys := not_mem_of_public (by decide) h

/-- A protected key has in the answer of `/config` what the manifest has for it. -/
theorem get_configRoot (h : isProtectedConfigKey key = true) (cfg : GuardedConfig) :
    (configRoot config cfg).get key = config.get key := by
  refine (KeyedMap.get_insertEach_of_not_mem ?_).trans
    (KeyedMap.get_insertMissing_of_not_mem (not_mem_of_public (by decide) h))
  intro item hitem heq
  exact not_mem_daemonConfigKeys h (heq ▸ hitem)

/-- A protected key has for plugins the text of what the manifest has for it. -/
theorem get_publicPluginConfig (h : isProtectedConfigKey key = true) (cfg : GuardedConfig) :
    (publicPluginConfig yamlText config cfg).get key =
      (config.get key).bind (yamlConfigValueToString yamlText) := by
  refine (KeyedMap.get_insertMissing_of_not_mem (not_mem_of_public (by decide) h)).trans ?_
  refine (KeyedMap.get_insertEach_of_not_mem ?_).trans (KeyedMap.get_filterMap _ config key)
  intro item hitem heq
  exact not_mem_daemonConfigKeys h (heq ▸ hitem)

theorem handleConfigGet_congr (h : SameButProtected first second) (segments : List String) :
    handleConfigGet isCidV1 config first segments =
      handleConfigGet isCidV1 config second segments := by
  unfold handleConfigGet handleConfigKeyGet configRoot
  rw [daemonConfigKeyValue_congr h]

/-- With configurations that agree but for protected settings, the answers are guarded if and only
if the manifest has no protected key. -/
theorem configGuarded_iff (h : SameButProtected first second) :
    ConfigGuarded yamlText isCidV1 config first second ↔
      ∀ key, isProtectedConfigKey key = true → config.get key = none := by
  constructor
  · intro hguarded key hkey
    rw [← get_configRoot hkey first]
    exact (hguarded.root_public key hkey).1
  · intro hnone
    have hroot (cfg : GuardedConfig) (key : String) (hkey : isProtectedConfigKey key = true) :
        (configRoot config cfg).get key = none := by
      rw [get_configRoot hkey, hnone key hkey]
    have hplugin (cfg : GuardedConfig) (key : String) (hkey : isProtectedConfigKey key = true) :
        (publicPluginConfig yamlText config cfg).get key = none := by
      rw [get_publicPluginConfig hkey, hnone key hkey]
      rfl
    refine ⟨handleConfigGet_congr h, ?_, ?_, ?_, ?_⟩
    · unfold publicPluginConfig
      rw [daemonConfigKeyValue_congr h]
    · intro key hkey
      exact ⟨hroot first key hkey, hroot second key hkey⟩
    · intro key hkey
      exact ⟨if_pos hkey, if_pos hkey⟩
    · intro key hkey
      exact ⟨hplugin first key hkey, hplugin second key hkey⟩

end Outputs

/-- A configuration with these secrets. -/
def daemonWith (slug : String) (passphrase : Option String) (extra : KeyedMap String YamlValue) :
    GuardedConfig where
  kuboRpcUrl := "http://127.0.0.1:5001"
  kuboKeyAlias := "ma"
  logLevel := "info"
  logLevelStdout := "warn"
  didResolverPositiveTtlSecs := 60
  didResolverNegativeTtlSecs := 10
  logFile := none
  extra := extra
  slug := slug
  secretBundle := none
  secretBundlePassphrase := passphrase
  configPath := none

theorem sameButProtected_daemonWith :
    SameButProtected (daemonWith "ma" none .empty)
      (daemonWith "testing" (some "hunter2") ⟨[("secret_token", .string "hunter2")]⟩) := by
  refine ⟨rfl, rfl, rfl, rfl, rfl, rfl, rfl, ?_⟩
  intro key hkey
  have hne : key ≠ "secret_token" := by
    rintro rfl
    exact absurd hkey (by decide)
  exact (KeyedMap.get_insert_of_ne .empty _ hne).symm

theorem configGuarded_iff_named :
    ConfigGuarded (fun _ ↦ none) (fun _ ↦ false) ⟨[("name", .string "room")]⟩
        (daemonWith "ma" none .empty)
        (daemonWith "testing" (some "hunter2") ⟨[("secret_token", .string "hunter2")]⟩) ↔
      ∀ key, isProtectedConfigKey key = true →
        (⟨[("name", .string "room")]⟩ : KeyedMap String YamlValue).get key = none :=
  configGuarded_iff sameButProtected_daemonWith

/-- A manifest with a key that begins with `secret`: a GET of the key is refused, and a GET of
`/config` and every plugin's map of settings have it. -/
theorem secret_in_manifest_leaks :
    (configRoot ⟨[("secret_token", .string "hunter2")]⟩ (daemonWith "ma" none .empty)).get
        "secret_token" = some (.string "hunter2") ∧
      (publicPluginConfig (fun _ ↦ none) ⟨[("secret_token", .string "hunter2")]⟩
        (daemonWith "ma" none .empty)).get "secret_token" = some "hunter2" ∧
      ¬ConfigGuarded (fun _ ↦ none) (fun _ ↦ false) ⟨[("secret_token", .string "hunter2")]⟩
        (daemonWith "ma" none .empty) (daemonWith "ma" none .empty) := by
  have hkey : isProtectedConfigKey "secret_token" = true := by decide
  have hroot : (configRoot ⟨[("secret_token", .string "hunter2")]⟩
      (daemonWith "ma" none .empty)).get "secret_token" = some (.string "hunter2") :=
    get_configRoot hkey _
  refine ⟨hroot, get_publicPluginConfig hkey _, ?_⟩
  intro h
  exact Option.some_ne_none _ (hroot.symm.trans (h.root_public "secret_token" hkey).1)

end MaRuntime.Daemon
