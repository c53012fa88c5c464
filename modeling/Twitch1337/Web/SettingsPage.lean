import Twitch1337.Settings.Encoding
import Twitch1337.Settings.Store
import Twitch1337.Web.SettingsForm

/-!
# The settings page

`web/templates/settings`, `web/routes/settings/view.rs` and `mod.rs`: what the form on the page submits when nothing is changed in
it, and the handlers `save` and `reset`. Text of the page that no field submits is left out, and so is its escaping.
-/

namespace Twitch1337.Web

open Dashboard RustStr Schedules

/-! ## Controls -/

/-- An `<input>` that holds a number. -/
def num (n : UInt64) : Option String := some (toString n.toNat)

/-- A box is submitted when it is checked. -/
def checkbox (checked : Bool) : Option String := if checked then some "1" else none

/-- Of the radio buttons the one is submitted that has the selected value, if there is one. -/
def radios (values : List String) (selected : String) : Option String := values.find? fun value => value = selected

/-- A `<textarea>` with a line for each text. -/
def textarea (texts : List String) : Option String := some ("\n".intercalate texts)

def efforts : List String := ["none", "minimal", "medium", "high", "xhigh"]

def tiers : List String := ["none", "flex", "priority"]

/-- `conn_or` and `dreamer_or`: the tiers are those of OpenRouter. -/
def showsTiers (c : AiConnection) : Bool :=
  let baseUrl := c.baseUrl.getD ""
  c.backend.text = "openai" && (baseUrl.isEmpty || Text.contains "openrouter.ai".toList baseUrl.toList)

/-! ## The cards that can be off -/

def shownPrefill (prefill : Option AiPrefill) : AiPrefill :=
  match prefill with
  | some p => p
  | none => { baseUrl := "https://logs.zonian.dev", threshold := ⟨0x3FE0000000000000⟩ }

def shownWeb (web : Option AiWeb) : AiWeb :=
  match web with
  | some w => w
  | none => {
      baseUrl := "http://localhost:8080/search"
      timeout := 15
      maxResults := 5
      maxRounds := 3
      cacheTtlSecs := 300
      cacheCapacity := 100 }

def shownEmotes (emotes : Option AiEmotes) : AiEmotes :=
  match emotes with
  | some e => e
  | none => {
      includeGlobal := true
      refreshIntervalSecs := 3600
      maxPromptEmotes := 20
      minBaselineEmotes := 4
      pinnedEmotes := ["PepeLa", "okjj"]
      baseUrl := none }

/-! ## The page -/

/-- What the form on the page of some settings submits: the texts of the page, as they are. What a browser does to a text of its own
accord is not in the model. -/
def page (T : FormTexts) (current : Settings) : Submission
  | .cooldownAi => num current.cooldowns.ai
  | .cooldownNews => num current.cooldowns.news
  | .cooldownUp => num current.cooldowns.up
  | .cooldownFeedback => num current.cooldowns.feedback
  | .cooldownDoener => num current.cooldowns.doener
  | .pingCooldown => num current.pings.cooldown
  | .pingPublic => checkbox current.pings.isPublic
  | .suspendDefaultDurationSecs => num current.suspend.defaultDurationSecs
  | .twitchHiddenAdmins => textarea current.twitch.hiddenAdmins
  | .twitchViewerAllowlist => textarea current.twitch.viewerAllowlist
  | .twitchExpectedLatency => some (toString current.twitch.expectedLatency.toNat)
  | .twitchAdminChannel => some (current.twitch.adminChannel.getD "")
  | .twitchAiChannel => some (current.twitch.aiChannel.getD "")
  | .aiConnectionBackend => radios ["ollama", "openai"] current.ai.connection.backend.text
  | .aiConnectionBaseUrl => some (current.ai.connection.baseUrl.getD "")
  | .aiConnectionModel => some current.ai.connection.model
  | .aiConnectionTimeout => num current.ai.connection.timeout
  | .aiConnectionReasoningEffort =>
    if current.ai.connection.backend.text = "openai" then
      radios efforts (current.ai.connection.reasoningEffort.getD "none")
    else none
  | .aiConnectionServiceTier =>
    if showsTiers current.ai.connection then radios tiers (current.ai.connection.serviceTier.getD "none") else none
  | .aiBehaviorMaxTurnRounds => num current.ai.behavior.maxTurnRounds
  | .aiBehaviorMaxWritesPerTurn => num current.ai.behavior.maxWritesPerTurn
  | .aiBehaviorPersonaName => some current.ai.behavior.personaName
  | .aiHistoryLength => num current.ai.history.length
  | .aiHistoryAiChannelLength => num current.ai.history.aiChannelLength
  | .aiMemorySoulBytes => num current.ai.memory.soulBytes
  | .aiMemoryLoreBytes => num current.ai.memory.loreBytes
  | .aiMemoryUserBytes => num current.ai.memory.userBytes
  | .aiMemoryStateBytes => num current.ai.memory.stateBytes
  | .aiMemoryInjectByteBudget => num current.ai.memory.injectByteBudget
  | .aiMemoryMaxStateFiles => num current.ai.memory.maxStateFiles
  | .aiDreamerEnabled => checkbox current.ai.dreamer.enabled
  | .aiDreamerModel => some (current.ai.dreamer.model.getD "")
  | .aiDreamerReasoningEffort => radios efforts (current.ai.dreamer.reasoningEffort.getD "none")
  | .aiDreamerServiceTier =>
    if showsTiers current.ai.connection then radios tiers (current.ai.dreamer.serviceTier.getD "none") else none
  | .aiDreamerRunAt => some current.ai.dreamer.runAt
  | .aiDreamerTimeoutSecs => num current.ai.dreamer.timeoutSecs
  | .aiDreamerMaxRounds => num current.ai.dreamer.maxRounds
  | .aiDreamerMaxWritesPerTurn => num current.ai.dreamer.maxWritesPerTurn
  | .aiPrefillCardVisible => some "1"
  | .aiPrefillEnabled => checkbox current.ai.prefill.isSome
  | .aiPrefillBaseUrl => some (shownPrefill current.ai.prefill).baseUrl
  | .aiPrefillThreshold => some (T.showF64 (shownPrefill current.ai.prefill).threshold)
  | .aiWebCardVisible => some "1"
  | .aiWebEnabled => checkbox current.ai.web.isSome
  | .aiWebBaseUrl => some (shownWeb current.ai.web).baseUrl
  | .aiWebTimeout => num (shownWeb current.ai.web).timeout
  | .aiWebMaxResults => num (shownWeb current.ai.web).maxResults
  | .aiWebMaxRounds => num (shownWeb current.ai.web).maxRounds
  | .aiWebCacheTtlSecs => num (shownWeb current.ai.web).cacheTtlSecs
  | .aiWebCacheCapacity => num (shownWeb current.ai.web).cacheCapacity
  | .aiEmotesCardVisible => some "1"
  | .aiEmotesEnabled => checkbox current.ai.emotes.isSome
  | .aiEmotesIncludeGlobal => checkbox (shownEmotes current.ai.emotes).includeGlobal
  | .aiEmotesRefreshIntervalSecs => num (shownEmotes current.ai.emotes).refreshIntervalSecs
  | .aiEmotesMaxPromptEmotes => num (shownEmotes current.ai.emotes).maxPromptEmotes
  | .aiEmotesMinBaselineEmotes => num (shownEmotes current.ai.emotes).minBaselineEmotes
  | .aiEmotesPinnedEmotes => textarea (shownEmotes current.ai.emotes).pinnedEmotes
  | .aiEmotesBaseUrl => some ((shownEmotes current.ai.emotes).baseUrl.getD "")
  | .aiMediaModel => some current.ai.media.model
  | .aiMediaTimeout => num current.ai.media.timeout
  | .aiMediaMaxImageSize => num current.ai.media.maxImageSize.bytes
  | .aiMediaMaxPdfSize => num current.ai.media.maxPdfSize.bytes
  | .aiMediaMaxAudioSize => num current.ai.media.maxAudioSize.bytes
  | .aiMediaMaxVideoSize => num current.ai.media.maxVideoSize.bytes
  | .aiMediaMaxTextSize => num current.ai.media.maxTextSize.bytes
  | .aviationstackCardVisible => some "1"
  | .aviationstackEnabled => checkbox current.aviationstack.enabled
  | .aviationstackBaseUrl => some current.aviationstack.baseUrl
  | .aviationstackTimeoutSecs => num current.aviationstack.timeoutSecs
  | .webSessionTtlSecs => num current.web.sessionTtlSecs
  | .webModCheckRefreshSecs => num current.web.modCheckRefreshSecs

/-! ## Saves -/

/-- The AI fields whose change needs a restart of the bot. -/
def restartRequired (before after : AiSettings) : List String :=
  (if before.connection.backend ≠ after.connection.backend then ["ai.connection.backend"] else []) ++
  (if before.connection.baseUrl ≠ after.connection.baseUrl then ["ai.connection.base_url"] else []) ++
  (if before.prefill.isNone ∧ after.prefill.isSome then ["ai.prefill (enabling requires restart)"] else []) ++
  (if before.web.isNone ∧ after.web.isSome then ["ai.web (enabling requires restart)"] else []) ++
  (if before.emotes.isNone ∧ after.emotes.isSome then ["ai.emotes (enabling requires restart)"] else []) ++
  match before.prefill, after.prefill with
  | some a, some b => if a.baseUrl ≠ b.baseUrl then ["ai.prefill.base_url"] else []
  | _, _ => []

/-- The settings whose page is shown again with the errors of a save. -/
def submitted (form : SaveForm) : Settings :=
  { Settings.compiledDefaults with
    cooldowns := {
      ai := form .cooldownAi
      news := form .cooldownNews
      up := form .cooldownUp
      feedback := form .cooldownFeedback
      doener := form .cooldownDoener }
    pings := { cooldown := form .pingCooldown, isPublic := Option.isSome (form .pingPublic) }
    ai := {} }

/-- What a save is answered with. -/
inductive Answer where
  | unreadable
  | csrfMismatch
  | saved (after : Settings) (restart : List String)
  | invalid (shown : Submission) (errs : List FieldError)
  | internal

/-- The settings after a save that is accepted. -/
def Answer.settings : Answer → Option Settings
  | .saved after _ => some after
  | _ => none

/-- A save: what is submitted, by whom, with the token of the session or not, and what the file system does to it. -/
structure SaveRequest where
  sub : Submission
  verified : Bool
  actor : Actor
  io : Io

/-- The answer to a form, from what the store says. -/
def answer (T : FormTexts) (st : SettingsStore) (form : SaveForm) : Except SettingsError Settings → Answer
  | .ok after => .saved after (restartRequired st.handle.ai after.ai)
  | .error (.validation errs) => .invalid (page T (submitted form)) errs
  | .error _ => .internal

def save (T : FormTexts) (L : Libs) (channel : String) (st : SettingsStore) (r : SaveRequest) : Answer × SettingsStore :=
  match SaveForm.extract T r.sub with
  | none => (.unreadable, st)
  | some form =>
    if r.verified then
      let result := st.apply L channel r.io (overridesFromSaveForm T form) r.actor
      (answer T st form result.1, result.2)
    else (.csrfMismatch, st)

/-- The sections that have a reset on the page, by the end of its path. -/
def resetSection (section_ : String) : Option SettingsSection :=
  if section_ = "cooldowns" then some .cooldowns
  else if section_ = "pings" then some .pings
  else if section_ = "twitch_permissions" then some .twitchPermissions
  else if section_ = "twitch_channels" then some .twitchChannels
  else if section_ = "aviationstack" then some .aviationstack
  else if section_ = "suspend" then some .suspend
  else if section_ = "web_runtime" then some .webRuntime
  else none

def resetHandler (L : Libs) (st : SettingsStore) (section_ : String) (verified : Bool) (actor : Actor) (io : Io) : SettingsStore :=
  if verified then
    match resetSection section_ with
    | some sec => (st.reset L io sec actor).2
    | none => st
  else st

/-! ## Runs -/

/-- What the owner does on the page. -/
inductive Visit where
  | save (r : SaveRequest)
  | reset (section_ : String) (verified : Bool) (actor : Actor) (io : Io)

def Visit.step (T : FormTexts) (L : Libs) (channel : String) (st : SettingsStore) : Visit → Option SettingsStore
  | .save r => some (Web.save T L channel st r).2
  | .reset section_ verified actor io => some (resetHandler L st section_ verified actor io)

end Twitch1337.Web
