import Twitch1337.Settings.Types

/-!
# Overrides

`settings/overrides.rs`, `resolve.rs` and `store/merge.rs`: the sparse settings on disk, how they resolve over defaults, how a
patch is merged into them, and how a section is reset.
-/

namespace Twitch1337.Dashboard

open Schedules

/-! ## Overrides -/

/-- What is overridden of the cooldowns. -/
structure CooldownsOverrides where
  ai : Option UInt64 := none
  news : Option UInt64 := none
  up : Option UInt64 := none
  feedback : Option UInt64 := none
  doener : Option UInt64 := none
  deriving DecidableEq

/-- What is overridden of the pings. -/
structure PingsOverrides where
  cooldown : Option UInt64 := none
  isPublic : Option Bool := none
  deriving DecidableEq

/-- What is overridden of the connection, where a text can be overridden by nothing. -/
structure AiConnectionOverrides where
  backend : Option AiBackendKind := none
  baseUrl : Option (Option String) := none
  model : Option String := none
  timeout : Option UInt64 := none
  reasoningEffort : Option (Option String) := none
  serviceTier : Option (Option String) := none
  deriving DecidableEq

/-- What is overridden of the behavior. -/
structure AiBehaviorOverrides where
  maxTurnRounds : Option UInt64 := none
  maxWritesPerTurn : Option UInt64 := none
  personaName : Option String := none
  deriving DecidableEq

/-- What is overridden of the history. -/
structure AiHistoryOverrides where
  length : Option UInt64 := none
  aiChannelLength : Option UInt64 := none
  deriving DecidableEq

/-- What is overridden of the memory. -/
structure AiMemoryOverrides where
  soulBytes : Option UInt64 := none
  loreBytes : Option UInt64 := none
  userBytes : Option UInt64 := none
  stateBytes : Option UInt64 := none
  injectByteBudget : Option UInt64 := none
  maxStateFiles : Option UInt64 := none
  deriving DecidableEq

/-- What is overridden of the dreamer. -/
structure AiDreamerOverrides where
  enabled : Option Bool := none
  model : Option (Option String) := none
  reasoningEffort : Option (Option String) := none
  serviceTier : Option (Option String) := none
  runAt : Option String := none
  timeoutSecs : Option UInt64 := none
  maxRounds : Option UInt64 := none
  maxWritesPerTurn : Option UInt64 := none
  deriving DecidableEq

/-- What is overridden of the prefill, which is switched on or off. -/
structure AiPrefillOverrides where
  enabled : Option Bool := none
  baseUrl : Option String := none
  threshold : Option F64 := none
  deriving DecidableEq

/-- What is overridden of the web tools, which are switched on or off. -/
structure AiWebOverrides where
  enabled : Option Bool := none
  baseUrl : Option String := none
  timeout : Option UInt64 := none
  maxResults : Option UInt64 := none
  maxRounds : Option UInt64 := none
  cacheTtlSecs : Option UInt64 := none
  cacheCapacity : Option UInt64 := none
  deriving DecidableEq

/-- What is overridden of the emotes, which are switched on or off. -/
structure AiEmotesOverrides where
  enabled : Option Bool := none
  includeGlobal : Option Bool := none
  refreshIntervalSecs : Option UInt64 := none
  maxPromptEmotes : Option UInt64 := none
  minBaselineEmotes : Option UInt64 := none
  pinnedEmotes : Option (List String) := none
  baseUrl : Option (Option String) := none
  deriving DecidableEq

/-- What is overridden of the media. -/
structure AiMediaOverrides where
  model : Option String := none
  timeout : Option UInt64 := none
  maxImageSize : Option ByteSize := none
  maxPdfSize : Option ByteSize := none
  maxAudioSize : Option ByteSize := none
  maxVideoSize : Option ByteSize := none
  maxTextSize : Option ByteSize := none
  deriving DecidableEq

/-- All that is overridden of the AI. -/
structure AiOverrides where
  connection : AiConnectionOverrides := {}
  behavior : AiBehaviorOverrides := {}
  history : AiHistoryOverrides := {}
  memory : AiMemoryOverrides := {}
  dreamer : AiDreamerOverrides := {}
  prefill : AiPrefillOverrides := {}
  web : AiWebOverrides := {}
  emotes : AiEmotesOverrides := {}
  media : AiMediaOverrides := {}
  deriving DecidableEq

/-- What is overridden of the channels and who may do what. -/
structure TwitchOverrides where
  expectedLatency : Option UInt32 := none
  hiddenAdmins : Option (List String) := none
  viewerAllowlist : Option (List String) := none
  adminChannel : Option (Option String) := none
  aiChannel : Option (Option String) := none
  deriving DecidableEq

/-- What is overridden of aviationstack. -/
structure AviationstackOverrides where
  enabled : Option Bool := none
  baseUrl : Option String := none
  timeoutSecs : Option UInt64 := none
  deriving DecidableEq

/-- What is overridden of suspensions. -/
structure SuspendOverrides where
  defaultDurationSecs : Option UInt64 := none
  deriving DecidableEq

/-- What is overridden of the sessions. -/
structure WebRuntimeOverrides where
  sessionTtlSecs : Option UInt64 := none
  modCheckRefreshSecs : Option UInt64 := none
  deriving DecidableEq

/-- The sparse settings on disk. A field that is none falls through to the default. Where the setting is optional itself,
`some none` clears it. -/
structure SettingsOverrides where
  schemaVersion : UInt32 := Dashboard.schemaVersion
  cooldowns : CooldownsOverrides := {}
  pings : PingsOverrides := {}
  ai : AiOverrides := {}
  twitch : TwitchOverrides := {}
  aviationstack : AviationstackOverrides := {}
  suspend : SuspendOverrides := {}
  web : WebRuntimeOverrides := {}
  schedules : Option (List Schedule) := none
  deriving DecidableEq

/-! ## Resolve -/

/-- A prefill is there when it is switched on, or is there by default. -/
def resolvePrefill (defaults : Option AiPrefill) (o : AiPrefillOverrides) : Option AiPrefill :=
  if o.enabled.getD defaults.isSome then
    let base := defaults.getD {}
    some {
      baseUrl := o.baseUrl.getD base.baseUrl
      threshold := o.threshold.getD base.threshold }
  else none

/-- The web tools are there when they are switched on, or are there by default. -/
def resolveWeb (defaults : Option AiWeb) (o : AiWebOverrides) : Option AiWeb :=
  if o.enabled.getD defaults.isSome then
    let base := defaults.getD {}
    some {
      baseUrl := o.baseUrl.getD base.baseUrl
      timeout := o.timeout.getD base.timeout
      maxResults := o.maxResults.getD base.maxResults
      maxRounds := o.maxRounds.getD base.maxRounds
      cacheTtlSecs := o.cacheTtlSecs.getD base.cacheTtlSecs
      cacheCapacity := o.cacheCapacity.getD base.cacheCapacity }
  else none

/-- The emotes are there when they are switched on, or are there by default. -/
def resolveEmotes (defaults : Option AiEmotes) (o : AiEmotesOverrides) : Option AiEmotes :=
  if o.enabled.getD defaults.isSome then
    let base := defaults.getD {}
    some {
      includeGlobal := o.includeGlobal.getD base.includeGlobal
      refreshIntervalSecs := o.refreshIntervalSecs.getD base.refreshIntervalSecs
      maxPromptEmotes := o.maxPromptEmotes.getD base.maxPromptEmotes
      minBaselineEmotes := o.minBaselineEmotes.getD base.minBaselineEmotes
      pinnedEmotes := o.pinnedEmotes.getD base.pinnedEmotes
      baseUrl := o.baseUrl.getD base.baseUrl }
  else none

/-- The same of the AI, whose three cards are switched apart. -/
def resolveAi (defaults : AiSettings) (o : AiOverrides) : AiSettings where
  connection := {
    backend := o.connection.backend.getD defaults.connection.backend
    baseUrl := o.connection.baseUrl.getD defaults.connection.baseUrl
    model := o.connection.model.getD defaults.connection.model
    timeout := o.connection.timeout.getD defaults.connection.timeout
    reasoningEffort := o.connection.reasoningEffort.getD defaults.connection.reasoningEffort
    serviceTier := o.connection.serviceTier.getD defaults.connection.serviceTier }
  behavior := {
    maxTurnRounds := o.behavior.maxTurnRounds.getD defaults.behavior.maxTurnRounds
    maxWritesPerTurn := o.behavior.maxWritesPerTurn.getD defaults.behavior.maxWritesPerTurn
    personaName := o.behavior.personaName.getD defaults.behavior.personaName }
  history := {
    length := o.history.length.getD defaults.history.length
    aiChannelLength := o.history.aiChannelLength.getD defaults.history.aiChannelLength }
  memory := {
    soulBytes := o.memory.soulBytes.getD defaults.memory.soulBytes
    loreBytes := o.memory.loreBytes.getD defaults.memory.loreBytes
    userBytes := o.memory.userBytes.getD defaults.memory.userBytes
    stateBytes := o.memory.stateBytes.getD defaults.memory.stateBytes
    injectByteBudget := o.memory.injectByteBudget.getD defaults.memory.injectByteBudget
    maxStateFiles := o.memory.maxStateFiles.getD defaults.memory.maxStateFiles }
  dreamer := {
    enabled := o.dreamer.enabled.getD defaults.dreamer.enabled
    model := o.dreamer.model.getD defaults.dreamer.model
    reasoningEffort := o.dreamer.reasoningEffort.getD defaults.dreamer.reasoningEffort
    serviceTier := o.dreamer.serviceTier.getD defaults.dreamer.serviceTier
    runAt := o.dreamer.runAt.getD defaults.dreamer.runAt
    timeoutSecs := o.dreamer.timeoutSecs.getD defaults.dreamer.timeoutSecs
    maxRounds := o.dreamer.maxRounds.getD defaults.dreamer.maxRounds
    maxWritesPerTurn := o.dreamer.maxWritesPerTurn.getD defaults.dreamer.maxWritesPerTurn }
  prefill := resolvePrefill defaults.prefill o.prefill
  web := resolveWeb defaults.web o.web
  emotes := resolveEmotes defaults.emotes o.emotes
  media := {
    model := o.media.model.getD defaults.media.model
    timeout := o.media.timeout.getD defaults.media.timeout
    maxImageSize := o.media.maxImageSize.getD defaults.media.maxImageSize
    maxPdfSize := o.media.maxPdfSize.getD defaults.media.maxPdfSize
    maxAudioSize := o.media.maxAudioSize.getD defaults.media.maxAudioSize
    maxVideoSize := o.media.maxVideoSize.getD defaults.media.maxVideoSize
    maxTextSize := o.media.maxTextSize.getD defaults.media.maxTextSize }

/-- What is overridden, and the defaults for the rest. -/
def Settings.resolve (defaults : Settings) (overrides : SettingsOverrides) : Settings where
  schemaVersion := Dashboard.schemaVersion
  cooldowns := {
    ai := overrides.cooldowns.ai.getD defaults.cooldowns.ai
    news := overrides.cooldowns.news.getD defaults.cooldowns.news
    up := overrides.cooldowns.up.getD defaults.cooldowns.up
    feedback := overrides.cooldowns.feedback.getD defaults.cooldowns.feedback
    doener := overrides.cooldowns.doener.getD defaults.cooldowns.doener }
  pings := {
    cooldown := overrides.pings.cooldown.getD defaults.pings.cooldown
    isPublic := overrides.pings.isPublic.getD defaults.pings.isPublic }
  ai := resolveAi defaults.ai overrides.ai
  twitch := {
    expectedLatency := overrides.twitch.expectedLatency.getD defaults.twitch.expectedLatency
    hiddenAdmins := overrides.twitch.hiddenAdmins.getD defaults.twitch.hiddenAdmins
    viewerAllowlist := overrides.twitch.viewerAllowlist.getD defaults.twitch.viewerAllowlist
    adminChannel := overrides.twitch.adminChannel.getD defaults.twitch.adminChannel
    aiChannel := overrides.twitch.aiChannel.getD defaults.twitch.aiChannel }
  aviationstack := {
    enabled := overrides.aviationstack.enabled.getD defaults.aviationstack.enabled
    baseUrl := overrides.aviationstack.baseUrl.getD defaults.aviationstack.baseUrl
    timeoutSecs := overrides.aviationstack.timeoutSecs.getD defaults.aviationstack.timeoutSecs }
  suspend := {
    defaultDurationSecs := overrides.suspend.defaultDurationSecs.getD defaults.suspend.defaultDurationSecs }
  web := {
    sessionTtlSecs := overrides.web.sessionTtlSecs.getD defaults.web.sessionTtlSecs
    modCheckRefreshSecs := overrides.web.modCheckRefreshSecs.getD defaults.web.modCheckRefreshSecs }
  schedules := overrides.schedules.getD defaults.schedules

/-! ## Merge -/

/-- A patch is folded into the overrides: what it has wins, and what it leaves out stays. -/
def mergeInto (into patch : SettingsOverrides) : SettingsOverrides where
  schemaVersion := into.schemaVersion
  cooldowns := {
    ai := patch.cooldowns.ai.or into.cooldowns.ai
    news := patch.cooldowns.news.or into.cooldowns.news
    up := patch.cooldowns.up.or into.cooldowns.up
    feedback := patch.cooldowns.feedback.or into.cooldowns.feedback
    doener := patch.cooldowns.doener.or into.cooldowns.doener }
  pings := {
    cooldown := patch.pings.cooldown.or into.pings.cooldown
    isPublic := patch.pings.isPublic.or into.pings.isPublic }
  ai := {
    connection := {
      backend := patch.ai.connection.backend.or into.ai.connection.backend
      baseUrl := patch.ai.connection.baseUrl.or into.ai.connection.baseUrl
      model := patch.ai.connection.model.or into.ai.connection.model
      timeout := patch.ai.connection.timeout.or into.ai.connection.timeout
      reasoningEffort := patch.ai.connection.reasoningEffort.or into.ai.connection.reasoningEffort
      serviceTier := patch.ai.connection.serviceTier.or into.ai.connection.serviceTier }
    behavior := {
      maxTurnRounds := patch.ai.behavior.maxTurnRounds.or into.ai.behavior.maxTurnRounds
      maxWritesPerTurn := patch.ai.behavior.maxWritesPerTurn.or into.ai.behavior.maxWritesPerTurn
      personaName := patch.ai.behavior.personaName.or into.ai.behavior.personaName }
    history := {
      length := patch.ai.history.length.or into.ai.history.length
      aiChannelLength := patch.ai.history.aiChannelLength.or into.ai.history.aiChannelLength }
    memory := {
      soulBytes := patch.ai.memory.soulBytes.or into.ai.memory.soulBytes
      loreBytes := patch.ai.memory.loreBytes.or into.ai.memory.loreBytes
      userBytes := patch.ai.memory.userBytes.or into.ai.memory.userBytes
      stateBytes := patch.ai.memory.stateBytes.or into.ai.memory.stateBytes
      injectByteBudget := patch.ai.memory.injectByteBudget.or into.ai.memory.injectByteBudget
      maxStateFiles := patch.ai.memory.maxStateFiles.or into.ai.memory.maxStateFiles }
    dreamer := {
      enabled := patch.ai.dreamer.enabled.or into.ai.dreamer.enabled
      model := patch.ai.dreamer.model.or into.ai.dreamer.model
      reasoningEffort := patch.ai.dreamer.reasoningEffort.or into.ai.dreamer.reasoningEffort
      serviceTier := patch.ai.dreamer.serviceTier.or into.ai.dreamer.serviceTier
      runAt := patch.ai.dreamer.runAt.or into.ai.dreamer.runAt
      timeoutSecs := patch.ai.dreamer.timeoutSecs.or into.ai.dreamer.timeoutSecs
      maxRounds := patch.ai.dreamer.maxRounds.or into.ai.dreamer.maxRounds
      maxWritesPerTurn := patch.ai.dreamer.maxWritesPerTurn.or into.ai.dreamer.maxWritesPerTurn }
    prefill := {
      enabled := patch.ai.prefill.enabled.or into.ai.prefill.enabled
      baseUrl := patch.ai.prefill.baseUrl.or into.ai.prefill.baseUrl
      threshold := patch.ai.prefill.threshold.or into.ai.prefill.threshold }
    web := {
      enabled := patch.ai.web.enabled.or into.ai.web.enabled
      baseUrl := patch.ai.web.baseUrl.or into.ai.web.baseUrl
      timeout := patch.ai.web.timeout.or into.ai.web.timeout
      maxResults := patch.ai.web.maxResults.or into.ai.web.maxResults
      maxRounds := patch.ai.web.maxRounds.or into.ai.web.maxRounds
      cacheTtlSecs := patch.ai.web.cacheTtlSecs.or into.ai.web.cacheTtlSecs
      cacheCapacity := patch.ai.web.cacheCapacity.or into.ai.web.cacheCapacity }
    emotes := {
      enabled := patch.ai.emotes.enabled.or into.ai.emotes.enabled
      includeGlobal := patch.ai.emotes.includeGlobal.or into.ai.emotes.includeGlobal
      refreshIntervalSecs := patch.ai.emotes.refreshIntervalSecs.or into.ai.emotes.refreshIntervalSecs
      maxPromptEmotes := patch.ai.emotes.maxPromptEmotes.or into.ai.emotes.maxPromptEmotes
      minBaselineEmotes := patch.ai.emotes.minBaselineEmotes.or into.ai.emotes.minBaselineEmotes
      pinnedEmotes := patch.ai.emotes.pinnedEmotes.or into.ai.emotes.pinnedEmotes
      baseUrl := patch.ai.emotes.baseUrl.or into.ai.emotes.baseUrl }
    media := {
      model := patch.ai.media.model.or into.ai.media.model
      timeout := patch.ai.media.timeout.or into.ai.media.timeout
      maxImageSize := patch.ai.media.maxImageSize.or into.ai.media.maxImageSize
      maxPdfSize := patch.ai.media.maxPdfSize.or into.ai.media.maxPdfSize
      maxAudioSize := patch.ai.media.maxAudioSize.or into.ai.media.maxAudioSize
      maxVideoSize := patch.ai.media.maxVideoSize.or into.ai.media.maxVideoSize
      maxTextSize := patch.ai.media.maxTextSize.or into.ai.media.maxTextSize } }
  twitch := {
    expectedLatency := patch.twitch.expectedLatency.or into.twitch.expectedLatency
    hiddenAdmins := patch.twitch.hiddenAdmins.or into.twitch.hiddenAdmins
    viewerAllowlist := patch.twitch.viewerAllowlist.or into.twitch.viewerAllowlist
    adminChannel := patch.twitch.adminChannel.or into.twitch.adminChannel
    aiChannel := patch.twitch.aiChannel.or into.twitch.aiChannel }
  aviationstack := {
    enabled := patch.aviationstack.enabled.or into.aviationstack.enabled
    baseUrl := patch.aviationstack.baseUrl.or into.aviationstack.baseUrl
    timeoutSecs := patch.aviationstack.timeoutSecs.or into.aviationstack.timeoutSecs }
  suspend := {
    defaultDurationSecs := patch.suspend.defaultDurationSecs.or into.suspend.defaultDurationSecs }
  web := {
    sessionTtlSecs := patch.web.sessionTtlSecs.or into.web.sessionTtlSecs
    modCheckRefreshSecs := patch.web.modCheckRefreshSecs.or into.web.modCheckRefreshSecs }
  schedules := patch.schedules.or into.schedules

/-! ## Reset -/

/-- The overrides of a section are cleared. -/
def SettingsOverrides.reset (current : SettingsOverrides) : SettingsSection → SettingsOverrides
  | .cooldowns => { current with cooldowns := {} }
  | .pings => { current with pings := {} }
  | .aiConnection => { current with ai.connection := {} }
  | .aiBehavior => { current with ai.behavior := {} }
  | .aiHistory => { current with ai.history := {} }
  | .aiMemory => { current with ai.memory := {} }
  | .aiDreamer => { current with ai.dreamer := {} }
  | .aiPrefill => { current with ai.prefill := {} }
  | .aiWeb => { current with ai.web := {} }
  | .aiEmotes => { current with ai.emotes := {} }
  | .aiMedia => { current with ai.media := {} }
  | .twitchPermissions => { current with twitch.hiddenAdmins := none, twitch.viewerAllowlist := none }
  | .twitchChannels => { current with twitch.adminChannel := none, twitch.aiChannel := none }
  | .aviationstack => { current with aviationstack := {} }
  | .suspend => { current with suspend := {} }
  | .webRuntime => { current with web := {} }
  | .schedules => { current with schedules := none }

end Twitch1337.Dashboard
