import Mathlib.Data.List.Dedup
import Twitch1337.Lib.Chrono
import Twitch1337.Settings.Types

/-!
# The audit log

`settings/audit.rs`: which changes a commit writes to the audit log. A change holds the values that the log encodes as JSON.
Text of the clock and of the log's format is left out.
-/

namespace Twitch1337.Dashboard

open Schedules

/-! ## Entries -/

/-- A value that the log encodes as JSON. -/
inductive Value where
  | u64 (n : UInt64)
  | u32 (n : UInt32)
  | bool (b : Bool)
  | float (x : F64)
  | text (s : String)
  | optText (s : Option String)
  | texts (l : List String)
  | backend (k : AiBackendKind)
  | bytes (n : ByteSize)
  | prefill (p : Option AiPrefill)
  | web (w : Option AiWeb)
  | emotes (e : Option AiEmotes)
  | schedule (s : Option Schedule)
  deriving DecidableEq

/-- A leaf that has changed, and both of its values. -/
structure AuditChange where
  key : String
  old : Value
  new : Value
  deriving DecidableEq

/-- Who has changed it. -/
structure Actor where
  userId : String
  userLogin : String
  deriving DecidableEq

/-- An entry of the log. -/
structure AuditEntry where
  ts : Chrono.Instant
  actorId : String
  actorLogin : String
  changes : List AuditChange
  deriving DecidableEq

/-! ## Changes -/

/-- The change of a field, when its value differs. -/
def cmp {α : Type} [DecidableEq α] (key : String) (value : α → Value) (prior next : α) : List AuditChange :=
  if prior ≠ next then [⟨key, value prior, value next⟩] else []

/-- The changes of a card that can be toggled: of the whole card when it is turned on or off, else of its fields. -/
def cmpCard {α : Type} (key : String) (value : Option α → Value) (fields : α → α → List AuditChange)
    (prior next : Option α) : List AuditChange :=
  match prior, next with
  | none, none => []
  | some _, none => [⟨key, value prior, value next⟩]
  | none, some _ => [⟨key, value prior, value next⟩]
  | some p, some n => fields p n

/-- The changes of the cooldowns. -/
def diffCooldowns (prior next : Cooldowns) : List AuditChange :=
  cmp "cooldowns.ai" .u64 prior.ai next.ai ++
  cmp "cooldowns.news" .u64 prior.news next.news ++
  cmp "cooldowns.up" .u64 prior.up next.up ++
  cmp "cooldowns.feedback" .u64 prior.feedback next.feedback ++
  cmp "cooldowns.doener" .u64 prior.doener next.doener

/-- Those of the pings. -/
def diffPings (prior next : PingsSettings) : List AuditChange :=
  cmp "pings.cooldown" .u64 prior.cooldown next.cooldown ++
  cmp "pings.public" .bool prior.isPublic next.isPublic

/-- Those of the connection. -/
def diffConnection (prior next : AiConnection) : List AuditChange :=
  cmp "ai.connection.backend" .backend prior.backend next.backend ++
  cmp "ai.connection.base_url" .optText prior.baseUrl next.baseUrl ++
  cmp "ai.connection.model" .text prior.model next.model ++
  cmp "ai.connection.timeout" .u64 prior.timeout next.timeout ++
  cmp "ai.connection.reasoning_effort" .optText prior.reasoningEffort next.reasoningEffort ++
  cmp "ai.connection.service_tier" .optText prior.serviceTier next.serviceTier

/-- Those of the behavior. -/
def diffBehavior (prior next : AiBehavior) : List AuditChange :=
  cmp "ai.behavior.max_turn_rounds" .u64 prior.maxTurnRounds next.maxTurnRounds ++
  cmp "ai.behavior.max_writes_per_turn" .u64 prior.maxWritesPerTurn next.maxWritesPerTurn ++
  cmp "ai.behavior.persona_name" .text prior.personaName next.personaName

/-- Those of the history. -/
def diffHistory (prior next : AiHistory) : List AuditChange :=
  cmp "ai.history.length" .u64 prior.length next.length ++
  cmp "ai.history.ai_channel_length" .u64 prior.aiChannelLength next.aiChannelLength

/-- Those of the memory. -/
def diffMemory (prior next : AiMemory) : List AuditChange :=
  cmp "ai.memory.soul_bytes" .u64 prior.soulBytes next.soulBytes ++
  cmp "ai.memory.lore_bytes" .u64 prior.loreBytes next.loreBytes ++
  cmp "ai.memory.user_bytes" .u64 prior.userBytes next.userBytes ++
  cmp "ai.memory.state_bytes" .u64 prior.stateBytes next.stateBytes ++
  cmp "ai.memory.inject_byte_budget" .u64 prior.injectByteBudget next.injectByteBudget ++
  cmp "ai.memory.max_state_files" .u64 prior.maxStateFiles next.maxStateFiles

/-- Those of the dreamer. -/
def diffDreamer (prior next : AiDreamer) : List AuditChange :=
  cmp "ai.dreamer.enabled" .bool prior.enabled next.enabled ++
  cmp "ai.dreamer.model" .optText prior.model next.model ++
  cmp "ai.dreamer.reasoning_effort" .optText prior.reasoningEffort next.reasoningEffort ++
  cmp "ai.dreamer.service_tier" .optText prior.serviceTier next.serviceTier ++
  cmp "ai.dreamer.run_at" .text prior.runAt next.runAt ++
  cmp "ai.dreamer.timeout_secs" .u64 prior.timeoutSecs next.timeoutSecs ++
  cmp "ai.dreamer.max_rounds" .u64 prior.maxRounds next.maxRounds ++
  cmp "ai.dreamer.max_writes_per_turn" .u64 prior.maxWritesPerTurn next.maxWritesPerTurn

/-- Those of a prefill that was there and still is. -/
def diffPrefill (prior next : AiPrefill) : List AuditChange :=
  cmp "ai.prefill.base_url" .text prior.baseUrl next.baseUrl ++
  cmp "ai.prefill.threshold" .float prior.threshold next.threshold

/-- Those of the web tools that were there and still are. -/
def diffWeb (prior next : AiWeb) : List AuditChange :=
  cmp "ai.web.base_url" .text prior.baseUrl next.baseUrl ++
  cmp "ai.web.timeout" .u64 prior.timeout next.timeout ++
  cmp "ai.web.max_results" .u64 prior.maxResults next.maxResults ++
  cmp "ai.web.max_rounds" .u64 prior.maxRounds next.maxRounds ++
  cmp "ai.web.cache_ttl_secs" .u64 prior.cacheTtlSecs next.cacheTtlSecs ++
  cmp "ai.web.cache_capacity" .u64 prior.cacheCapacity next.cacheCapacity

/-- Those of the emotes that were there and still are. -/
def diffEmotes (prior next : AiEmotes) : List AuditChange :=
  cmp "ai.emotes.include_global" .bool prior.includeGlobal next.includeGlobal ++
  cmp "ai.emotes.refresh_interval_secs" .u64 prior.refreshIntervalSecs next.refreshIntervalSecs ++
  cmp "ai.emotes.max_prompt_emotes" .u64 prior.maxPromptEmotes next.maxPromptEmotes ++
  cmp "ai.emotes.min_baseline_emotes" .u64 prior.minBaselineEmotes next.minBaselineEmotes ++
  cmp "ai.emotes.pinned_emotes" .texts prior.pinnedEmotes next.pinnedEmotes ++
  cmp "ai.emotes.base_url" .optText prior.baseUrl next.baseUrl

/-- Those of the media. -/
def diffMedia (prior next : AiMedia) : List AuditChange :=
  cmp "ai.media.model" .text prior.model next.model ++
  cmp "ai.media.timeout" .u64 prior.timeout next.timeout ++
  cmp "ai.media.max_image_size" .bytes prior.maxImageSize next.maxImageSize ++
  cmp "ai.media.max_pdf_size" .bytes prior.maxPdfSize next.maxPdfSize ++
  cmp "ai.media.max_audio_size" .bytes prior.maxAudioSize next.maxAudioSize ++
  cmp "ai.media.max_video_size" .bytes prior.maxVideoSize next.maxVideoSize ++
  cmp "ai.media.max_text_size" .bytes prior.maxTextSize next.maxTextSize

/-- Those of the channels and of who may do what. -/
def diffTwitch (prior next : TwitchRuntime) : List AuditChange :=
  cmp "twitch.expected_latency" .u32 prior.expectedLatency next.expectedLatency ++
  cmp "twitch.hidden_admins" .texts prior.hiddenAdmins next.hiddenAdmins ++
  cmp "twitch.viewer_allowlist" .texts prior.viewerAllowlist next.viewerAllowlist ++
  cmp "twitch.admin_channel" .optText prior.adminChannel next.adminChannel ++
  cmp "twitch.ai_channel" .optText prior.aiChannel next.aiChannel

/-- Those of aviationstack. -/
def diffAviationstack (prior next : AviationstackSettings) : List AuditChange :=
  cmp "aviationstack.enabled" .bool prior.enabled next.enabled ++
  cmp "aviationstack.base_url" .text prior.baseUrl next.baseUrl ++
  cmp "aviationstack.timeout_secs" .u64 prior.timeoutSecs next.timeoutSecs

/-- Those of suspensions. -/
def diffSuspend (prior next : SuspendSettings) : List AuditChange :=
  cmp "suspend.default_duration_secs" .u64 prior.defaultDurationSecs next.defaultDurationSecs

/-- Those of the web server. -/
def diffWebRuntime (prior next : WebRuntime) : List AuditChange :=
  cmp "web.session_ttl_secs" .u64 prior.sessionTtlSecs next.sessionTtlSecs ++
  cmp "web.mod_check_refresh_secs" .u64 prior.modCheckRefreshSecs next.modCheckRefreshSecs

/-- The schedule of a name: of two of one name, the later one. -/
def byName (schedules : List Schedule) (name : String) : Option Schedule :=
  schedules.reverse.find? fun s => s.name = name

/-- Schedules are compared by name, in the order of the names. -/
def diffSchedules (prior next : List Schedule) : List AuditChange :=
  let allNames := ((prior ++ next).map (·.name)).dedup.mergeSort fun a b => decide (a ≤ b)
  (allNames.map fun name => cmp s!"schedules.{name}" .schedule (byName prior name) (byName next name)).flatten

/-- The changes between two resolved snapshots. -/
def diffChanges (prior next : Settings) : List AuditChange :=
  diffCooldowns prior.cooldowns next.cooldowns ++
  diffPings prior.pings next.pings ++
  diffConnection prior.ai.connection next.ai.connection ++
  diffBehavior prior.ai.behavior next.ai.behavior ++
  diffHistory prior.ai.history next.ai.history ++
  diffMemory prior.ai.memory next.ai.memory ++
  diffDreamer prior.ai.dreamer next.ai.dreamer ++
  cmpCard "ai.prefill" .prefill diffPrefill prior.ai.prefill next.ai.prefill ++
  cmpCard "ai.web" .web diffWeb prior.ai.web next.ai.web ++
  cmpCard "ai.emotes" .emotes diffEmotes prior.ai.emotes next.ai.emotes ++
  diffMedia prior.ai.media next.ai.media ++
  diffTwitch prior.twitch next.twitch ++
  diffAviationstack prior.aviationstack next.aviationstack ++
  diffSuspend prior.suspend next.suspend ++
  diffWebRuntime prior.web next.web ++
  diffSchedules prior.schedules next.schedules

end Twitch1337.Dashboard
