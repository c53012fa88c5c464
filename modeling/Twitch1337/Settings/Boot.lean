import Twitch1337.Settings.Store

/-!
# Legacy keys at startup

The one-shot migrations of `config.toml` into `settings.ron`: `settings/migrate.rs` without the schedules, and the first part of
`main`. A marker file says that a migration was done; the program can be stopped between any two steps, so also between a migration
and its marker. What comes after the migrations can fail, which stops the program. The calls are kept: the code does not keep them.
-/

namespace Twitch1337.Dashboard

/-! ## TOML -/

/-- `toml::Value`. -/
inductive Toml where
  | string (s : String)
  | integer (i : Int)
  | float (x : F64)
  | boolean (b : Bool)
  | datetime (text : String)
  | array (items : List Toml)
  | table (fields : List (String × Toml))

/-- A field of a table. -/
def Toml.get (t : Toml) (key : String) : Option Toml :=
  match t with
  | .table fields => fields.lookup key
  | _ => none

/-- The table under a key. -/
def Toml.tableAt (t : Toml) (key : String) : Option Toml :=
  match t.get key with
  | some (.table fields) => some (.table fields)
  | _ => none

/-- A text. -/
def Toml.asStr : Toml → Option String
  | .string s => some s
  | _ => none

/-- A field that is a text. -/
def Toml.str (t : Toml) (key : String) : Option String := (t.get key).bind Toml.asStr

/-- `u64::try_from` of an integer, and `usize::try_from`. -/
def Toml.u64 (t : Toml) (key : String) : Option UInt64 :=
  match t.get key with
  | some (.integer i) => if 0 ≤ i ∧ i < 2 ^ 64 then some (UInt64.ofNat i.toNat) else none
  | _ => none

/-- A field that is a number of 32 bits. -/
def Toml.u32 (t : Toml) (key : String) : Option UInt32 :=
  match t.get key with
  | some (.integer i) => if 0 ≤ i ∧ i < 2 ^ 32 then some (UInt32.ofNat i.toNat) else none
  | _ => none

/-- A field that is a switch. -/
def Toml.bool (t : Toml) (key : String) : Option Bool :=
  match t.get key with
  | some (.boolean b) => some b
  | _ => none

/-- A field that is a number with a fraction. -/
def Toml.f64 (t : Toml) (key : String) : Option F64 :=
  match t.get key with
  | some (.float x) => some x
  | _ => none

/-- The texts of an array; other items are left out. -/
def Toml.strings (t : Toml) (key : String) : Option (List String) :=
  match t.get key with
  | some (.array items) => some (items.filterMap Toml.asStr)
  | _ => none

/-! ## The patches -/

/-- The crates that read a size and a duration; of a duration, its whole seconds. -/
structure TextReaders where
  byteSize : String → Option ByteSize
  durationSecs : String → Option UInt64

/-- The backends by their old names. -/
def migrateLegacyBackend (ai : Toml) : Option AiBackendKind :=
  match ai.str "backend" with
  | some "openai" => some .openAi
  | some "ollama" => some .ollama
  | _ => none

/-- The old keys of the AI. -/
def migrateLegacyAi (R : TextReaders) (root : Toml) : AiOverrides :=
  match root.tableAt "ai" with
  | none => {}
  | some ai => {
      connection := {
        backend := migrateLegacyBackend ai
        baseUrl := (ai.str "base_url").map some
        model := ai.str "model"
        timeout := ai.u64 "timeout"
        reasoningEffort := (ai.str "reasoning_effort").map some }
      behavior := {
        maxTurnRounds := ai.u64 "max_turn_rounds"
        maxWritesPerTurn := ai.u64 "max_writes_per_turn" }
      history := {
        length := ai.u64 "history_length"
        aiChannelLength := ai.u64 "ai_channel_history_length" }
      memory := (ai.tableAt "memory").elim {} fun v => {
        soulBytes := v.u64 "soul_bytes"
        loreBytes := v.u64 "lore_bytes"
        userBytes := v.u64 "user_bytes"
        stateBytes := v.u64 "state_bytes"
        injectByteBudget := v.u64 "inject_byte_budget"
        maxStateFiles := v.u64 "max_state_files" }
      dreamer := (ai.tableAt "dreamer").elim {} fun v => {
        enabled := v.bool "enabled"
        model := (v.str "model").map some
        reasoningEffort := (v.str "reasoning_effort").map some
        runAt := v.str "run_at"
        timeoutSecs := v.u64 "timeout_secs"
        maxRounds := v.u64 "max_rounds" }
      prefill := (ai.tableAt "history_prefill").elim {} fun v => {
        enabled := some true
        baseUrl := v.str "base_url"
        threshold := v.f64 "threshold" }
      web := (ai.tableAt "web").elim {} fun v => {
        enabled := v.bool "enabled"
        baseUrl := v.str "base_url"
        timeout := v.u64 "timeout"
        maxResults := v.u64 "max_results"
        maxRounds := v.u64 "max_rounds"
        cacheTtlSecs := v.u64 "cache_ttl_secs"
        cacheCapacity := v.u64 "cache_capacity" }
      emotes := (ai.tableAt "emotes").elim {} fun v => {
        enabled := v.bool "enabled"
        includeGlobal := v.bool "include_global"
        refreshIntervalSecs := v.u64 "refresh_interval_secs"
        maxPromptEmotes := v.u64 "max_prompt_emotes"
        minBaselineEmotes := v.u64 "min_baseline_emotes"
        pinnedEmotes := v.strings "pinned_emotes"
        baseUrl := (v.str "base_url").map some }
      media := (ai.tableAt "media").elim {} fun v => {
        model := v.str "model"
        timeout := v.u64 "timeout"
        maxImageSize := (v.str "max_image_size").bind R.byteSize
        maxPdfSize := (v.str "max_pdf_size").bind R.byteSize
        maxAudioSize := (v.str "max_audio_size").bind R.byteSize
        maxVideoSize := (v.str "max_video_size").bind R.byteSize
        maxTextSize := (v.str "max_text_size").bind R.byteSize } }

/-- A channel that is blank is none. -/
def legacyChannel (s : String) : Option String := if (RustStr.trim s).isEmpty then none else some s

/-- The other old keys. -/
def migrateLegacyConfig (R : TextReaders) (root : Toml) : SettingsOverrides where
  twitch := (root.tableAt "twitch").elim {} fun v => {
    expectedLatency := v.u32 "expected_latency"
    hiddenAdmins := v.strings "hidden_admins"
    viewerAllowlist := v.strings "viewer_allowlist"
    adminChannel := (v.str "admin_channel").map legacyChannel
    aiChannel := (v.str "ai_channel").map legacyChannel }
  suspend := (root.tableAt "suspend").elim {} fun v => { defaultDurationSecs := v.u64 "default_duration_secs" }
  aviationstack := (root.tableAt "aviationstack").elim {} fun v => {
    enabled := v.bool "enabled"
    baseUrl := v.str "base_url"
    timeoutSecs := v.u64 "timeout_secs" }
  web := (root.tableAt "web").elim {} fun v => {
    sessionTtlSecs := (v.str "session_ttl").bind R.durationSecs
    modCheckRefreshSecs := (v.str "mod_check_refresh").bind R.durationSecs }

/-! ## The program -/

/-- `config.toml`: its channel, and the file as it is read. -/
structure Configuration where
  channel : String
  rawToml : Toml

/-- What the program does next. -/
inductive BootStage where
  | aiMigration
  | aiMarker
  | configMigration
  | configMarker
  | serving
  deriving DecidableEq

/-- The program, while it runs. -/
structure Boot where
  config : Configuration
  store : SettingsStore
  stage : BootStage

/-- The data directory, the program, and the calls that were made. -/
structure Installation where
  file : SettingsFile
  audit : List AuditEntry
  /-- `.ai_migrated_v2` -/
  aiMarker : Bool
  /-- `.config_migrated_v3` -/
  configMarker : Bool
  boot : Option Boot
  calls : List CallEvent

/-- The write of a marker. One that fails can have made the file all the same. -/
inductive MarkerWrite where
  | written
  | failed (created : Bool)

/-- What happens to an installation. -/
inductive BootEvent where
  | start (config : Configuration) (renames : Bool)
  /-- The next step of `main`: what becomes of a write of the settings, and of a marker. -/
  | go (io : Io) (marker : MarkerWrite)
  | call (e : CallEvent)
  | stop

/-- The program goes on to another stage. -/
def Installation.enter (i : Installation) (b : Boot) (stage : BootStage) : Installation :=
  { i with boot := some { b with stage } }

/-- The file and the audit log as a store has left them. -/
def Installation.keep (i : Installation) (b : Boot) (store : SettingsStore) : Installation :=
  { i with
    file := store.file.elim .absent .overrides
    audit := store.audit
    boot := some { b with store } }

/-- A patch is applied, or the program ends. -/
def Installation.migrate (L : Libs) (i : Installation) (b : Boot) (io : Io) (patch : SettingsOverrides) (userLogin : String)
    (next : BootStage) : Installation :=
  match b.store.apply L b.config.channel io patch ⟨"migrate", userLogin⟩ with
  | (.ok _, store) => i.keep { b with stage := next } store
  | (.error _, _) => { i with boot := none }

/-- The next step of `main`. -/
def Installation.go (L : Libs) (R : TextReaders) (i : Installation) (b : Boot) (io : Io) (marker : MarkerWrite) : Installation :=
  match b.stage with
  | .aiMigration =>
    if i.aiMarker then i.enter b .configMigration
    else
      let aiPatch := migrateLegacyAi R b.config.rawToml
      if aiPatch ≠ {} then i.migrate L b io { ai := aiPatch } "migrate" .aiMarker else i.enter b .aiMarker
  | .aiMarker =>
    match marker with
    | .written => { i with aiMarker := true, boot := some { b with stage := .configMigration } }
    | .failed created => { i with aiMarker := i.aiMarker || created, boot := none }
  | .configMigration =>
    if i.configMarker then i.enter b .serving
    else
      let patch := migrateLegacyConfig R b.config.rawToml
      if ¬(patch.twitch = {} ∧ patch.aviationstack = {} ∧ patch.suspend = {} ∧ patch.web = {}) then
        i.migrate L b io patch "v3-migration" .configMarker
      else i.enter b .configMarker
  | .configMarker =>
    match marker with
    | .written => { i with configMarker := true, boot := some { b with stage := .serving } }
    | .failed created => { i with configMarker := i.configMarker || created, boot := none }
  | .serving => i

/-- One event. -/
def bootStep (L : Libs) (R : TextReaders) (i : Installation) : BootEvent → Option Installation
  | .start config renames =>
    match i.boot with
    | some _ => none
    | none =>
      match SettingsStore.open L config.channel i.file renames i.audit with
      | some store => some (i.keep ⟨config, store, .aiMigration⟩ store)
      | none => some i
  | .go io marker => i.boot.map fun b => i.go L R b io marker
  | .call e =>
    match i.boot with
    | some b =>
      if b.stage = .serving then
        some { i.keep b (b.store.call L b.config.channel e.io e.actor e.call).2 with calls := i.calls ++ [e] }
      else none
    | none => none
  | .stop => some { i with boot := none }

end Twitch1337.Dashboard
