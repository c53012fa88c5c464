import Twitch1337.Lib.Decimal
import Twitch1337.Lib.Division
import Twitch1337.Settings.Validation
import Twitch1337.Settings.Overrides

/-!
# The form of the settings

`web/routes/settings/mod.rs` and `forms.rs`: the fields of `SaveForm` and their types, how a submission is read as them, and the
patch that they make. How a double and a size are read and written is a parameter. A field that is not in the form is ignored.
-/

namespace Twitch1337.Web

open Dashboard RustStr

/-! ## Fields -/

/-- The fields of `SaveForm`, but for the token of the session. -/
inductive Field where
  | cooldownAi | cooldownNews | cooldownUp | cooldownFeedback | cooldownDoener
  | pingCooldown | pingPublic
  | aiConnectionBackend | aiConnectionBaseUrl | aiConnectionModel | aiConnectionTimeout | aiConnectionReasoningEffort
  | aiConnectionServiceTier
  | aiBehaviorMaxTurnRounds | aiBehaviorMaxWritesPerTurn | aiBehaviorPersonaName
  | aiHistoryLength | aiHistoryAiChannelLength
  | aiMemorySoulBytes | aiMemoryLoreBytes | aiMemoryUserBytes | aiMemoryStateBytes | aiMemoryInjectByteBudget
  | aiMemoryMaxStateFiles
  | aiDreamerEnabled | aiDreamerModel | aiDreamerReasoningEffort | aiDreamerServiceTier | aiDreamerRunAt
  | aiDreamerTimeoutSecs | aiDreamerMaxRounds | aiDreamerMaxWritesPerTurn
  | aiPrefillCardVisible | aiPrefillEnabled | aiPrefillBaseUrl | aiPrefillThreshold
  | aiWebCardVisible | aiWebEnabled | aiWebBaseUrl | aiWebTimeout | aiWebMaxResults | aiWebMaxRounds
  | aiWebCacheTtlSecs | aiWebCacheCapacity
  | aiEmotesCardVisible | aiEmotesEnabled | aiEmotesIncludeGlobal | aiEmotesRefreshIntervalSecs
  | aiEmotesMaxPromptEmotes | aiEmotesMinBaselineEmotes | aiEmotesPinnedEmotes | aiEmotesBaseUrl
  | aiMediaModel | aiMediaTimeout | aiMediaMaxImageSize | aiMediaMaxPdfSize | aiMediaMaxAudioSize
  | aiMediaMaxVideoSize | aiMediaMaxTextSize
  | twitchHiddenAdmins | twitchViewerAllowlist
  | twitchExpectedLatency | twitchAdminChannel | twitchAiChannel
  | aviationstackCardVisible | aviationstackEnabled | aviationstackBaseUrl | aviationstackTimeoutSecs
  | suspendDefaultDurationSecs
  | webSessionTtlSecs | webModCheckRefreshSecs
  deriving DecidableEq

/-- All fields. -/
def Field.all : List Field :=
  [.cooldownAi, .cooldownNews, .cooldownUp, .cooldownFeedback, .cooldownDoener, .pingCooldown, .pingPublic,
   .aiConnectionBackend, .aiConnectionBaseUrl, .aiConnectionModel, .aiConnectionTimeout, .aiConnectionReasoningEffort,
   .aiConnectionServiceTier, .aiBehaviorMaxTurnRounds, .aiBehaviorMaxWritesPerTurn, .aiBehaviorPersonaName,
   .aiHistoryLength, .aiHistoryAiChannelLength, .aiMemorySoulBytes, .aiMemoryLoreBytes, .aiMemoryUserBytes,
   .aiMemoryStateBytes, .aiMemoryInjectByteBudget, .aiMemoryMaxStateFiles, .aiDreamerEnabled, .aiDreamerModel,
   .aiDreamerReasoningEffort, .aiDreamerServiceTier, .aiDreamerRunAt, .aiDreamerTimeoutSecs, .aiDreamerMaxRounds,
   .aiDreamerMaxWritesPerTurn, .aiPrefillCardVisible, .aiPrefillEnabled, .aiPrefillBaseUrl, .aiPrefillThreshold,
   .aiWebCardVisible, .aiWebEnabled, .aiWebBaseUrl, .aiWebTimeout, .aiWebMaxResults, .aiWebMaxRounds,
   .aiWebCacheTtlSecs, .aiWebCacheCapacity, .aiEmotesCardVisible, .aiEmotesEnabled, .aiEmotesIncludeGlobal,
   .aiEmotesRefreshIntervalSecs, .aiEmotesMaxPromptEmotes, .aiEmotesMinBaselineEmotes, .aiEmotesPinnedEmotes,
   .aiEmotesBaseUrl, .aiMediaModel, .aiMediaTimeout, .aiMediaMaxImageSize, .aiMediaMaxPdfSize, .aiMediaMaxAudioSize,
   .aiMediaMaxVideoSize, .aiMediaMaxTextSize, .twitchHiddenAdmins, .twitchViewerAllowlist, .twitchExpectedLatency,
   .twitchAdminChannel, .twitchAiChannel, .aviationstackCardVisible, .aviationstackEnabled, .aviationstackBaseUrl,
   .aviationstackTimeoutSecs, .suspendDefaultDurationSecs, .webSessionTtlSecs, .webModCheckRefreshSecs]

theorem Field.mem_all (f : Field) : f ∈ Field.all := by
  cases f <;> decide

/-- The types of fields: a `u64` that is zero where it is missing, and numbers and texts that can be missing. -/
inductive FieldType where
  | seconds | u64 | u32 | f64 | text

/-- What a field of a type is read as. All but seconds may be missing. -/
def FieldType.Val : FieldType → Type
  | .seconds => UInt64
  | .u64 => Option UInt64
  | .u32 => Option UInt32
  | .f64 => Option F64
  | .text => Option String

/-- The type of a field. -/
def Field.type : Field → FieldType
  | .cooldownAi | .cooldownNews | .cooldownUp | .cooldownFeedback | .cooldownDoener | .pingCooldown => .seconds
  | .aiConnectionTimeout | .aiBehaviorMaxTurnRounds | .aiBehaviorMaxWritesPerTurn | .aiHistoryLength
  | .aiHistoryAiChannelLength | .aiMemorySoulBytes | .aiMemoryLoreBytes | .aiMemoryUserBytes | .aiMemoryStateBytes
  | .aiMemoryInjectByteBudget | .aiMemoryMaxStateFiles | .aiDreamerTimeoutSecs | .aiDreamerMaxRounds
  | .aiDreamerMaxWritesPerTurn | .aiWebTimeout | .aiWebMaxResults | .aiWebMaxRounds | .aiWebCacheTtlSecs
  | .aiWebCacheCapacity | .aiEmotesRefreshIntervalSecs | .aiEmotesMaxPromptEmotes | .aiEmotesMinBaselineEmotes
  | .aiMediaTimeout | .aviationstackTimeoutSecs | .suspendDefaultDurationSecs | .webSessionTtlSecs
  | .webModCheckRefreshSecs => .u64
  | .twitchExpectedLatency => .u32
  | .aiPrefillThreshold => .f64
  | _ => .text

/-- What a form holds. -/
abbrev SaveForm : Type := (f : Field) → f.type.Val

/-! ## Reading a submission -/

/-- How doubles and sizes are read and written: `f64::from_str`, the `Display` of a double, and `ByteSize::from_str`, which
takes a number of bytes for what it is. -/
structure FormTexts where
  readF64 : String → Option F64
  showF64 : F64 → String
  readSize : String → Option UInt64
  readF64_showF64 : ∀ x : F64, x.isFinite = true → readF64 (showF64 x) = some x
  readSize_toString : ∀ n : UInt64, readSize (toString n.toNat) = some n

/-- A number of 64 bits. -/
def readU64 (s : String) : Option UInt64 := (Decimal.readU64 s.toList).map UInt64.ofNat

/-- A number of 32 bits. -/
def readU32 (s : String) : Option UInt32 := ((Decimal.readU64 s.toList).filter fun n => n < 4294967296).map UInt32.ofNat

/-- A field that can be missing. -/
def optional {α : Type} (read : String → Option α) : Option String → Option (Option α)
  | none => some none
  | some s => (read s).map some

/-- A value as a field of a type. It is an error when it is submitted and cannot be read. -/
def FieldType.read (T : FormTexts) : (t : FieldType) → Option String → Option t.Val
  | .seconds, none => some (0 : UInt64)
  | .seconds, some s => readU64 s
  | .u64, v => optional readU64 v
  | .u32, v => optional readU32 v
  | .f64, v => optional T.readF64 v
  | .text, v => some v

/-- The values of the fields that are submitted. -/
abbrev Submission : Type := Field → Option String

/-- A submission can be read when each of its fields can. -/
def SaveForm.extract (T : FormTexts) (sub : Submission) : Option SaveForm :=
  if h : ∀ f ∈ Field.all, (f.type.read T (sub f)).isSome = true then some fun f => (f.type.read T (sub f)).get (h f f.mem_all)
  else none

/-! ## Helpers -/

/-- Missing leaves a leaf, empty clears it, and any other text sets it. -/
def triState : Option String → Option (Option String)
  | none => none
  | some s => if s.isEmpty then some none else some (some s)

/-- The same for a choice, where "none" clears the leaf too. -/
def segmentedTriState (val : Option String) : Option (Option String) :=
  triState (val.map fun s => if trim s = "none" ∨ (trim s).isEmpty then "" else s)

/-- A card that was rendered is on when its box is checked. -/
def enabledFromCard (visible checked : Option String) : Option Bool := if visible.isSome then some checked.isSome else none

/-- The lines of a box that are not blank. -/
def parseIdList (s : String) : List String :=
  ((Text.lines s.toList).map fun l => trim (.ofList l)).filter fun l => !l.isEmpty

/-- The backends by their names. -/
def readBackend (s : String) : Option AiBackendKind :=
  if s = "openai" then some .openAi else if s = "ollama" then some .ollama else none

/-! ## Cards -/

variable (form : SaveForm)

/-- The overrides of the cooldowns, which are all there. -/
def CooldownsForm.intoOverrides : CooldownsOverrides where
  ai := some (form .cooldownAi)
  news := some (form .cooldownNews)
  up := some (form .cooldownUp)
  feedback := some (form .cooldownFeedback)
  doener := some (form .cooldownDoener)

/-- Those of the pings. -/
def PingsForm.intoOverrides : PingsOverrides where
  cooldown := some (form .pingCooldown)
  isPublic := some (Option.isSome (form .pingPublic))

/-- Those of the connection. -/
def AiConnectionForm.intoOverrides : AiConnectionOverrides where
  backend := Option.bind (form .aiConnectionBackend) readBackend
  baseUrl := Option.map (fun s => if (trim s).isEmpty then none else some s) (form .aiConnectionBaseUrl)
  model := form .aiConnectionModel
  timeout := form .aiConnectionTimeout
  reasoningEffort := segmentedTriState (form .aiConnectionReasoningEffort)
  serviceTier := segmentedTriState (form .aiConnectionServiceTier)

/-- Those of the behavior. -/
def AiBehaviorForm.intoOverrides : AiBehaviorOverrides where
  maxTurnRounds := form .aiBehaviorMaxTurnRounds
  maxWritesPerTurn := form .aiBehaviorMaxWritesPerTurn
  personaName := (Option.map trim (form .aiBehaviorPersonaName)).filter fun s => !s.isEmpty

/-- Those of the history. -/
def AiHistoryForm.intoOverrides : AiHistoryOverrides where
  length := form .aiHistoryLength
  aiChannelLength := form .aiHistoryAiChannelLength

/-- Those of the memory. -/
def AiMemoryForm.intoOverrides : AiMemoryOverrides where
  soulBytes := form .aiMemorySoulBytes
  loreBytes := form .aiMemoryLoreBytes
  userBytes := form .aiMemoryUserBytes
  stateBytes := form .aiMemoryStateBytes
  injectByteBudget := form .aiMemoryInjectByteBudget
  maxStateFiles := form .aiMemoryMaxStateFiles

/-- The card is always rendered, so a box that is missing is not checked. -/
def AiDreamerForm.intoOverrides : AiDreamerOverrides where
  enabled := some (Option.isSome (form .aiDreamerEnabled))
  model := Option.map (fun s => if s.isEmpty then none else some s) (form .aiDreamerModel)
  reasoningEffort := segmentedTriState (form .aiDreamerReasoningEffort)
  serviceTier := segmentedTriState (form .aiDreamerServiceTier)
  runAt := form .aiDreamerRunAt
  timeoutSecs := form .aiDreamerTimeoutSecs
  maxRounds := form .aiDreamerMaxRounds
  maxWritesPerTurn := form .aiDreamerMaxWritesPerTurn

/-- Those of the prefill. -/
def AiPrefillForm.intoOverrides : AiPrefillOverrides where
  enabled := enabledFromCard (form .aiPrefillCardVisible) (form .aiPrefillEnabled)
  baseUrl := form .aiPrefillBaseUrl
  threshold := form .aiPrefillThreshold

/-- Those of the web tools. -/
def AiWebForm.intoOverrides : AiWebOverrides where
  enabled := enabledFromCard (form .aiWebCardVisible) (form .aiWebEnabled)
  baseUrl := form .aiWebBaseUrl
  timeout := form .aiWebTimeout
  maxResults := form .aiWebMaxResults
  maxRounds := form .aiWebMaxRounds
  cacheTtlSecs := form .aiWebCacheTtlSecs
  cacheCapacity := form .aiWebCacheCapacity

/-- Those of the emotes. -/
def AiEmotesForm.intoOverrides : AiEmotesOverrides where
  enabled := enabledFromCard (form .aiEmotesCardVisible) (form .aiEmotesEnabled)
  includeGlobal := enabledFromCard (form .aiEmotesCardVisible) (form .aiEmotesIncludeGlobal)
  refreshIntervalSecs := form .aiEmotesRefreshIntervalSecs
  maxPromptEmotes := form .aiEmotesMaxPromptEmotes
  minBaselineEmotes := form .aiEmotesMinBaselineEmotes
  pinnedEmotes := Option.map (fun _ => parseIdList (Option.getD (form .aiEmotesPinnedEmotes) "")) (form .aiEmotesCardVisible)
  baseUrl := Option.map (fun s => if s.isEmpty then none else some s) (form .aiEmotesBaseUrl)

/-- A size that cannot be read is dropped. -/
def AiMediaForm.intoOverrides (T : FormTexts) (form : SaveForm) : AiMediaOverrides where
  model := form .aiMediaModel
  timeout := form .aiMediaTimeout
  maxImageSize := (Option.bind (form .aiMediaMaxImageSize) T.readSize).map ByteSize.mk
  maxPdfSize := (Option.bind (form .aiMediaMaxPdfSize) T.readSize).map ByteSize.mk
  maxAudioSize := (Option.bind (form .aiMediaMaxAudioSize) T.readSize).map ByteSize.mk
  maxVideoSize := (Option.bind (form .aiMediaMaxVideoSize) T.readSize).map ByteSize.mk
  maxTextSize := (Option.bind (form .aiMediaMaxTextSize) T.readSize).map ByteSize.mk

/-- Those of who may do what. -/
def TwitchPermissionsForm.intoOverrides : TwitchOverrides where
  hiddenAdmins := Option.map parseIdList (form .twitchHiddenAdmins)
  viewerAllowlist := Option.map parseIdList (form .twitchViewerAllowlist)

/-- Those of the channels. -/
def TwitchChannelsForm.intoOverrides : TwitchOverrides where
  expectedLatency := form .twitchExpectedLatency
  adminChannel := triState (form .twitchAdminChannel)
  aiChannel := triState (form .twitchAiChannel)

/-- Those of aviationstack. -/
def AviationstackForm.intoOverrides : AviationstackOverrides where
  enabled := enabledFromCard (form .aviationstackCardVisible) (form .aviationstackEnabled)
  baseUrl := form .aviationstackBaseUrl
  timeoutSecs := form .aviationstackTimeoutSecs

/-- Those of suspensions. -/
def SuspendForm.intoOverrides : SuspendOverrides where
  defaultDurationSecs := form .suspendDefaultDurationSecs

def WebRuntimeForm.intoOverrides : WebRuntimeOverrides where
  sessionTtlSecs := form .webSessionTtlSecs
  modCheckRefreshSecs := form .webModCheckRefreshSecs

/-- The patch of a form. The schedules have a page of their own. -/
def overridesFromSaveForm (T : FormTexts) (form : SaveForm) : SettingsOverrides where
  schemaVersion := Dashboard.schemaVersion
  cooldowns := CooldownsForm.intoOverrides form
  pings := PingsForm.intoOverrides form
  ai := {
    connection := AiConnectionForm.intoOverrides form
    behavior := AiBehaviorForm.intoOverrides form
    history := AiHistoryForm.intoOverrides form
    memory := AiMemoryForm.intoOverrides form
    dreamer := AiDreamerForm.intoOverrides form
    prefill := AiPrefillForm.intoOverrides form
    web := AiWebForm.intoOverrides form
    emotes := AiEmotesForm.intoOverrides form
    media := AiMediaForm.intoOverrides T form }
  twitch := { TwitchPermissionsForm.intoOverrides form with
    expectedLatency := (TwitchChannelsForm.intoOverrides form).expectedLatency
    adminChannel := (TwitchChannelsForm.intoOverrides form).adminChannel
    aiChannel := (TwitchChannelsForm.intoOverrides form).aiChannel }
  aviationstack := AviationstackForm.intoOverrides form
  suspend := SuspendForm.intoOverrides form
  web := WebRuntimeForm.intoOverrides form
  schedules := none

end Twitch1337.Web
