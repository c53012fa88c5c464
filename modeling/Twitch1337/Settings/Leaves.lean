import Twitch1337.Settings.Overrides

/-!
# The leaves of the settings

One name for each field that the overrides have, with the type of its value, where it is in the overrides and what it is in
the settings. A card that can be toggled (the prefill, the web search and the emotes) has no fields in the settings when it is
off.
-/

namespace Twitch1337.Dashboard

open Schedules

/-! ## Leaves -/

/-- The kinds of values. -/
inductive Kind where
  | u64 | u32 | bool | float | text | optText | texts | backend | bytes | schedules
  deriving DecidableEq

/-- The values of a kind. -/
def Kind.Val : Kind → Type
  | .u64 => UInt64
  | .u32 => UInt32
  | .bool => Bool
  | .float => F64
  | .text => String
  | .optText => Option String
  | .texts => List String
  | .backend => AiBackendKind
  | .bytes => ByteSize
  | .schedules => List Schedule

/-- A field of the overrides. -/
inductive Leaf where
  | cooldownsAi | cooldownsNews | cooldownsUp | cooldownsFeedback | cooldownsDoener
  | pingsCooldown | pingsPublic
  | connectionBackend | connectionBaseUrl | connectionModel | connectionTimeout | connectionReasoningEffort
  | connectionServiceTier
  | behaviorMaxTurnRounds | behaviorMaxWritesPerTurn | behaviorPersonaName
  | historyLength | historyAiChannelLength
  | memorySoulBytes | memoryLoreBytes | memoryUserBytes | memoryStateBytes | memoryInjectByteBudget
  | memoryMaxStateFiles
  | dreamerEnabled | dreamerModel | dreamerReasoningEffort | dreamerServiceTier | dreamerRunAt | dreamerTimeoutSecs
  | dreamerMaxRounds | dreamerMaxWritesPerTurn
  | prefillEnabled | prefillBaseUrl | prefillThreshold
  | aiWebEnabled | aiWebBaseUrl | aiWebTimeout | aiWebMaxResults | aiWebMaxRounds | aiWebCacheTtlSecs
  | aiWebCacheCapacity
  | emotesEnabled | emotesIncludeGlobal | emotesRefreshIntervalSecs | emotesMaxPromptEmotes
  | emotesMinBaselineEmotes | emotesPinnedEmotes | emotesBaseUrl
  | mediaModel | mediaTimeout | mediaMaxImageSize | mediaMaxPdfSize | mediaMaxAudioSize | mediaMaxVideoSize
  | mediaMaxTextSize
  | twitchExpectedLatency | twitchHiddenAdmins | twitchViewerAllowlist | twitchAdminChannel | twitchAiChannel
  | aviationstackEnabled | aviationstackBaseUrl | aviationstackTimeoutSecs
  | suspendDefaultDurationSecs
  | webRuntimeSessionTtlSecs | webRuntimeModCheckRefreshSecs
  | schedules
  deriving DecidableEq

/-- The kind of a leaf. -/
def Leaf.kind : Leaf → Kind
  | .pingsPublic | .dreamerEnabled | .prefillEnabled | .aiWebEnabled | .emotesEnabled | .emotesIncludeGlobal
  | .aviationstackEnabled => .bool
  | .connectionBackend => .backend
  | .connectionBaseUrl | .connectionReasoningEffort | .connectionServiceTier | .dreamerModel
  | .dreamerReasoningEffort | .dreamerServiceTier | .emotesBaseUrl | .twitchAdminChannel | .twitchAiChannel => .optText
  | .connectionModel | .behaviorPersonaName | .dreamerRunAt | .prefillBaseUrl | .aiWebBaseUrl | .mediaModel
  | .aviationstackBaseUrl => .text
  | .prefillThreshold => .float
  | .emotesPinnedEmotes | .twitchHiddenAdmins | .twitchViewerAllowlist => .texts
  | .mediaMaxImageSize | .mediaMaxPdfSize | .mediaMaxAudioSize | .mediaMaxVideoSize | .mediaMaxTextSize => .bytes
  | .twitchExpectedLatency => .u32
  | .schedules => .schedules
  | _ => .u64

/-- The type of the values of a leaf. -/
abbrev Leaf.Val (l : Leaf) : Type := l.kind.Val

/-- What the overrides set a leaf to. -/
def Leaf.get (o : SettingsOverrides) : (l : Leaf) → Option l.Val
  | .cooldownsAi => o.cooldowns.ai
  | .cooldownsNews => o.cooldowns.news
  | .cooldownsUp => o.cooldowns.up
  | .cooldownsFeedback => o.cooldowns.feedback
  | .cooldownsDoener => o.cooldowns.doener
  | .pingsCooldown => o.pings.cooldown
  | .pingsPublic => o.pings.isPublic
  | .connectionBackend => o.ai.connection.backend
  | .connectionBaseUrl => o.ai.connection.baseUrl
  | .connectionModel => o.ai.connection.model
  | .connectionTimeout => o.ai.connection.timeout
  | .connectionReasoningEffort => o.ai.connection.reasoningEffort
  | .connectionServiceTier => o.ai.connection.serviceTier
  | .behaviorMaxTurnRounds => o.ai.behavior.maxTurnRounds
  | .behaviorMaxWritesPerTurn => o.ai.behavior.maxWritesPerTurn
  | .behaviorPersonaName => o.ai.behavior.personaName
  | .historyLength => o.ai.history.length
  | .historyAiChannelLength => o.ai.history.aiChannelLength
  | .memorySoulBytes => o.ai.memory.soulBytes
  | .memoryLoreBytes => o.ai.memory.loreBytes
  | .memoryUserBytes => o.ai.memory.userBytes
  | .memoryStateBytes => o.ai.memory.stateBytes
  | .memoryInjectByteBudget => o.ai.memory.injectByteBudget
  | .memoryMaxStateFiles => o.ai.memory.maxStateFiles
  | .dreamerEnabled => o.ai.dreamer.enabled
  | .dreamerModel => o.ai.dreamer.model
  | .dreamerReasoningEffort => o.ai.dreamer.reasoningEffort
  | .dreamerServiceTier => o.ai.dreamer.serviceTier
  | .dreamerRunAt => o.ai.dreamer.runAt
  | .dreamerTimeoutSecs => o.ai.dreamer.timeoutSecs
  | .dreamerMaxRounds => o.ai.dreamer.maxRounds
  | .dreamerMaxWritesPerTurn => o.ai.dreamer.maxWritesPerTurn
  | .prefillEnabled => o.ai.prefill.enabled
  | .prefillBaseUrl => o.ai.prefill.baseUrl
  | .prefillThreshold => o.ai.prefill.threshold
  | .aiWebEnabled => o.ai.web.enabled
  | .aiWebBaseUrl => o.ai.web.baseUrl
  | .aiWebTimeout => o.ai.web.timeout
  | .aiWebMaxResults => o.ai.web.maxResults
  | .aiWebMaxRounds => o.ai.web.maxRounds
  | .aiWebCacheTtlSecs => o.ai.web.cacheTtlSecs
  | .aiWebCacheCapacity => o.ai.web.cacheCapacity
  | .emotesEnabled => o.ai.emotes.enabled
  | .emotesIncludeGlobal => o.ai.emotes.includeGlobal
  | .emotesRefreshIntervalSecs => o.ai.emotes.refreshIntervalSecs
  | .emotesMaxPromptEmotes => o.ai.emotes.maxPromptEmotes
  | .emotesMinBaselineEmotes => o.ai.emotes.minBaselineEmotes
  | .emotesPinnedEmotes => o.ai.emotes.pinnedEmotes
  | .emotesBaseUrl => o.ai.emotes.baseUrl
  | .mediaModel => o.ai.media.model
  | .mediaTimeout => o.ai.media.timeout
  | .mediaMaxImageSize => o.ai.media.maxImageSize
  | .mediaMaxPdfSize => o.ai.media.maxPdfSize
  | .mediaMaxAudioSize => o.ai.media.maxAudioSize
  | .mediaMaxVideoSize => o.ai.media.maxVideoSize
  | .mediaMaxTextSize => o.ai.media.maxTextSize
  | .twitchExpectedLatency => o.twitch.expectedLatency
  | .twitchHiddenAdmins => o.twitch.hiddenAdmins
  | .twitchViewerAllowlist => o.twitch.viewerAllowlist
  | .twitchAdminChannel => o.twitch.adminChannel
  | .twitchAiChannel => o.twitch.aiChannel
  | .aviationstackEnabled => o.aviationstack.enabled
  | .aviationstackBaseUrl => o.aviationstack.baseUrl
  | .aviationstackTimeoutSecs => o.aviationstack.timeoutSecs
  | .suspendDefaultDurationSecs => o.suspend.defaultDurationSecs
  | .webRuntimeSessionTtlSecs => o.web.sessionTtlSecs
  | .webRuntimeModCheckRefreshSecs => o.web.modCheckRefreshSecs
  | .schedules => o.schedules

/-- What a leaf is in the settings. -/
def Leaf.read (s : Settings) : (l : Leaf) → Option l.Val
  | .cooldownsAi => some s.cooldowns.ai
  | .cooldownsNews => some s.cooldowns.news
  | .cooldownsUp => some s.cooldowns.up
  | .cooldownsFeedback => some s.cooldowns.feedback
  | .cooldownsDoener => some s.cooldowns.doener
  | .pingsCooldown => some s.pings.cooldown
  | .pingsPublic => some s.pings.isPublic
  | .connectionBackend => some s.ai.connection.backend
  | .connectionBaseUrl => some s.ai.connection.baseUrl
  | .connectionModel => some s.ai.connection.model
  | .connectionTimeout => some s.ai.connection.timeout
  | .connectionReasoningEffort => some s.ai.connection.reasoningEffort
  | .connectionServiceTier => some s.ai.connection.serviceTier
  | .behaviorMaxTurnRounds => some s.ai.behavior.maxTurnRounds
  | .behaviorMaxWritesPerTurn => some s.ai.behavior.maxWritesPerTurn
  | .behaviorPersonaName => some s.ai.behavior.personaName
  | .historyLength => some s.ai.history.length
  | .historyAiChannelLength => some s.ai.history.aiChannelLength
  | .memorySoulBytes => some s.ai.memory.soulBytes
  | .memoryLoreBytes => some s.ai.memory.loreBytes
  | .memoryUserBytes => some s.ai.memory.userBytes
  | .memoryStateBytes => some s.ai.memory.stateBytes
  | .memoryInjectByteBudget => some s.ai.memory.injectByteBudget
  | .memoryMaxStateFiles => some s.ai.memory.maxStateFiles
  | .dreamerEnabled => some s.ai.dreamer.enabled
  | .dreamerModel => some s.ai.dreamer.model
  | .dreamerReasoningEffort => some s.ai.dreamer.reasoningEffort
  | .dreamerServiceTier => some s.ai.dreamer.serviceTier
  | .dreamerRunAt => some s.ai.dreamer.runAt
  | .dreamerTimeoutSecs => some s.ai.dreamer.timeoutSecs
  | .dreamerMaxRounds => some s.ai.dreamer.maxRounds
  | .dreamerMaxWritesPerTurn => some s.ai.dreamer.maxWritesPerTurn
  | .prefillEnabled => some s.ai.prefill.isSome
  | .prefillBaseUrl => s.ai.prefill.map (·.baseUrl)
  | .prefillThreshold => s.ai.prefill.map (·.threshold)
  | .aiWebEnabled => some s.ai.web.isSome
  | .aiWebBaseUrl => s.ai.web.map (·.baseUrl)
  | .aiWebTimeout => s.ai.web.map (·.timeout)
  | .aiWebMaxResults => s.ai.web.map (·.maxResults)
  | .aiWebMaxRounds => s.ai.web.map (·.maxRounds)
  | .aiWebCacheTtlSecs => s.ai.web.map (·.cacheTtlSecs)
  | .aiWebCacheCapacity => s.ai.web.map (·.cacheCapacity)
  | .emotesEnabled => some s.ai.emotes.isSome
  | .emotesIncludeGlobal => s.ai.emotes.map (·.includeGlobal)
  | .emotesRefreshIntervalSecs => s.ai.emotes.map (·.refreshIntervalSecs)
  | .emotesMaxPromptEmotes => s.ai.emotes.map (·.maxPromptEmotes)
  | .emotesMinBaselineEmotes => s.ai.emotes.map (·.minBaselineEmotes)
  | .emotesPinnedEmotes => s.ai.emotes.map (·.pinnedEmotes)
  | .emotesBaseUrl => s.ai.emotes.map (·.baseUrl)
  | .mediaModel => some s.ai.media.model
  | .mediaTimeout => some s.ai.media.timeout
  | .mediaMaxImageSize => some s.ai.media.maxImageSize
  | .mediaMaxPdfSize => some s.ai.media.maxPdfSize
  | .mediaMaxAudioSize => some s.ai.media.maxAudioSize
  | .mediaMaxVideoSize => some s.ai.media.maxVideoSize
  | .mediaMaxTextSize => some s.ai.media.maxTextSize
  | .twitchExpectedLatency => some s.twitch.expectedLatency
  | .twitchHiddenAdmins => some s.twitch.hiddenAdmins
  | .twitchViewerAllowlist => some s.twitch.viewerAllowlist
  | .twitchAdminChannel => some s.twitch.adminChannel
  | .twitchAiChannel => some s.twitch.aiChannel
  | .aviationstackEnabled => some s.aviationstack.enabled
  | .aviationstackBaseUrl => some s.aviationstack.baseUrl
  | .aviationstackTimeoutSecs => some s.aviationstack.timeoutSecs
  | .suspendDefaultDurationSecs => some s.suspend.defaultDurationSecs
  | .webRuntimeSessionTtlSecs => some s.web.sessionTtlSecs
  | .webRuntimeModCheckRefreshSecs => some s.web.modCheckRefreshSecs
  | .schedules => some s.schedules

/-- The overrides that set every leaf to what a function says. -/
def SettingsOverrides.ofLeaves (schemaVersion : UInt32) (f : (l : Leaf) → Option l.Val) : SettingsOverrides where
  schemaVersion
  cooldowns := {
    ai := f .cooldownsAi
    news := f .cooldownsNews
    up := f .cooldownsUp
    feedback := f .cooldownsFeedback
    doener := f .cooldownsDoener }
  pings := {
    cooldown := f .pingsCooldown
    isPublic := f .pingsPublic }
  ai := {
    connection := {
      backend := f .connectionBackend
      baseUrl := f .connectionBaseUrl
      model := f .connectionModel
      timeout := f .connectionTimeout
      reasoningEffort := f .connectionReasoningEffort
      serviceTier := f .connectionServiceTier }
    behavior := {
      maxTurnRounds := f .behaviorMaxTurnRounds
      maxWritesPerTurn := f .behaviorMaxWritesPerTurn
      personaName := f .behaviorPersonaName }
    history := {
      length := f .historyLength
      aiChannelLength := f .historyAiChannelLength }
    memory := {
      soulBytes := f .memorySoulBytes
      loreBytes := f .memoryLoreBytes
      userBytes := f .memoryUserBytes
      stateBytes := f .memoryStateBytes
      injectByteBudget := f .memoryInjectByteBudget
      maxStateFiles := f .memoryMaxStateFiles }
    dreamer := {
      enabled := f .dreamerEnabled
      model := f .dreamerModel
      reasoningEffort := f .dreamerReasoningEffort
      serviceTier := f .dreamerServiceTier
      runAt := f .dreamerRunAt
      timeoutSecs := f .dreamerTimeoutSecs
      maxRounds := f .dreamerMaxRounds
      maxWritesPerTurn := f .dreamerMaxWritesPerTurn }
    prefill := {
      enabled := f .prefillEnabled
      baseUrl := f .prefillBaseUrl
      threshold := f .prefillThreshold }
    web := {
      enabled := f .aiWebEnabled
      baseUrl := f .aiWebBaseUrl
      timeout := f .aiWebTimeout
      maxResults := f .aiWebMaxResults
      maxRounds := f .aiWebMaxRounds
      cacheTtlSecs := f .aiWebCacheTtlSecs
      cacheCapacity := f .aiWebCacheCapacity }
    emotes := {
      enabled := f .emotesEnabled
      includeGlobal := f .emotesIncludeGlobal
      refreshIntervalSecs := f .emotesRefreshIntervalSecs
      maxPromptEmotes := f .emotesMaxPromptEmotes
      minBaselineEmotes := f .emotesMinBaselineEmotes
      pinnedEmotes := f .emotesPinnedEmotes
      baseUrl := f .emotesBaseUrl }
    media := {
      model := f .mediaModel
      timeout := f .mediaTimeout
      maxImageSize := f .mediaMaxImageSize
      maxPdfSize := f .mediaMaxPdfSize
      maxAudioSize := f .mediaMaxAudioSize
      maxVideoSize := f .mediaMaxVideoSize
      maxTextSize := f .mediaMaxTextSize } }
  twitch := {
    expectedLatency := f .twitchExpectedLatency
    hiddenAdmins := f .twitchHiddenAdmins
    viewerAllowlist := f .twitchViewerAllowlist
    adminChannel := f .twitchAdminChannel
    aiChannel := f .twitchAiChannel }
  aviationstack := {
    enabled := f .aviationstackEnabled
    baseUrl := f .aviationstackBaseUrl
    timeoutSecs := f .aviationstackTimeoutSecs }
  suspend := {
    defaultDurationSecs := f .suspendDefaultDurationSecs }
  web := {
    sessionTtlSecs := f .webRuntimeSessionTtlSecs
    modCheckRefreshSecs := f .webRuntimeModCheckRefreshSecs }
  schedules := f .schedules

/-! ## Cards -/

/-- The parts that are switched on and off as a whole. -/
inductive Card where
  | prefill | web | emotes
  deriving DecidableEq

/-- The leaf that turns a card on and off. -/
def Card.toggle : Card → Leaf
  | .prefill => .prefillEnabled
  | .web => .aiWebEnabled
  | .emotes => .emotesEnabled

/-- The card that a leaf is on. -/
def Leaf.card : Leaf → Option Card
  | .prefillEnabled | .prefillBaseUrl | .prefillThreshold => some .prefill
  | .aiWebEnabled | .aiWebBaseUrl | .aiWebTimeout | .aiWebMaxResults | .aiWebMaxRounds | .aiWebCacheTtlSecs
  | .aiWebCacheCapacity => some .web
  | .emotesEnabled | .emotesIncludeGlobal | .emotesRefreshIntervalSecs | .emotesMaxPromptEmotes
  | .emotesMinBaselineEmotes | .emotesPinnedEmotes | .emotesBaseUrl => some .emotes
  | _ => none

/-- A card is on when the settings have it. -/
def Card.isOn (s : Settings) : Card → Bool
  | .prefill => s.ai.prefill.isSome
  | .web => s.ai.web.isSome
  | .emotes => s.ai.emotes.isSome

/-- A leaf that the settings have: not a field of a card that is off. -/
def Leaf.shown (s : Settings) (l : Leaf) : Bool :=
  match l.card with
  | none => true
  | some card => decide (l = card.toggle) || card.isOn s

/-- What a leaf is where all cards are on and nothing else is set. -/
def Leaf.base (l : Leaf) : Option l.Val :=
  l.read { Settings.compiledDefaults with ai := { prefill := some {}, web := some {}, emotes := some {} } }

/-! ## What leaves resolve to -/

/-- A leaf is read when it is shown. -/
theorem isSome_read (s : Settings) (l : Leaf) : (l.read s).isSome = l.shown s := by
  cases l <;> first
    | rfl
    | exact Option.isSome_map

/-- A leaf that is hidden is not. -/
theorem read_hidden {s : Settings} {l : Leaf} (h : l.shown s = false) : l.read s = none := by
  rwa [← isSome_read, Option.isSome_eq_false_iff, Option.isNone_iff_eq_none] at h

/-- Settings with the same cards have the same leaves. -/
theorem shown_congr {a b : Settings} (h : ∀ card : Card, card.isOn a = card.isOn b) (l : Leaf) : l.shown a = l.shown b := by
  unfold Leaf.shown
  cases l.card with
  | none => rfl
  | some card => exact congrArg (decide (l = card.toggle) || ·) (h card)

/-- A card is on when its toggle says so. -/
theorem isOn_eq_of_read {a b : Settings} {card : Card} (h : card.toggle.read a = card.toggle.read b) :
    card.isOn a = card.isOn b := by
  cases card <;> exact Option.some.inj h

/-- The toggles are always shown. -/
theorem shown_toggle (s : Settings) (card : Card) : card.toggle.shown s = true := by
  cases card <;> rfl

/-- By default no card is on. -/
theorem isOn_default (card : Card) : card.isOn .compiledDefaults = false := by
  cases card <;> rfl

/-- A leaf that the defaults have is there in all settings. -/
theorem shown_of_default {l : Leaf} (h : l.shown .compiledDefaults = true) (s : Settings) : l.shown s = true := by
  unfold Leaf.shown at h ⊢
  cases hcard : l.card with
  | none => rfl
  | some card =>
    rw [hcard] at h
    dsimp only at h ⊢
    rw [isOn_default, Bool.or_false] at h
    rw [h, Bool.true_or]

/-- The prefill is on when it is overridden to be, or is by default. -/
theorem isSome_resolvePrefill (defaults : Option AiPrefill) (o : AiPrefillOverrides) :
    (resolvePrefill defaults o).isSome = o.enabled.getD defaults.isSome := by
  unfold resolvePrefill
  split <;> simp [*]

/-- The web tools are on when they are overridden to be, or are by default. -/
theorem isSome_resolveWeb (defaults : Option AiWeb) (o : AiWebOverrides) :
    (resolveWeb defaults o).isSome = o.enabled.getD defaults.isSome := by
  unfold resolveWeb
  split <;> simp [*]

/-- The emotes are on when they are overridden to be, or are by default. -/
theorem isSome_resolveEmotes (defaults : Option AiEmotes) (o : AiEmotesOverrides) :
    (resolveEmotes defaults o).isSome = o.enabled.getD defaults.isSome := by
  unfold resolveEmotes
  split <;> simp [*]

/-- Whether a card is on depends on its toggle. -/
theorem isOn_resolve (defaults : Settings) {o o' : SettingsOverrides} {card : Card}
    (h : card.toggle.get o = card.toggle.get o') : card.isOn (.resolve defaults o) = card.isOn (.resolve defaults o') := by
  cases card with
  | prefill =>
    have henabled : o.ai.prefill.enabled = o'.ai.prefill.enabled := h
    simp only [Card.isOn, Settings.resolve, resolveAi, isSome_resolvePrefill, henabled]
  | web =>
    have henabled : o.ai.web.enabled = o'.ai.web.enabled := h
    simp only [Card.isOn, Settings.resolve, resolveAi, isSome_resolveWeb, henabled]
  | emotes =>
    have henabled : o.ai.emotes.enabled = o'.ai.emotes.enabled := h
    simp only [Card.isOn, Settings.resolve, resolveAi, isSome_resolveEmotes, henabled]

/-- A value with a default, as the first of two that are there. -/
theorem some_getD {α : Type*} (v : Option α) (x : α) (base : Option α) : some (v.getD x) = (v.or (some x)).or base := by
  cases v <;> rfl

/-- The same with a default that may be missing. -/
theorem some_getD_getD {α β : Type*} (v : Option β) (defaults : Option α) (base : α) (field : α → β) :
    some (v.getD (field (defaults.getD base))) = (v.or (defaults.map field)).or (some (field base)) := by
  cases v <;> cases defaults <;> rfl

/-- A leaf that is there resolves to what the overrides set it to, else to the default, else to what a new card has. -/
theorem read_resolve (defaults : Settings) (o : SettingsOverrides) (l : Leaf) :
    l.read (.resolve defaults o) =
      if l.shown (.resolve defaults o) then ((l.get o).or (l.read defaults)).or l.base else none := by
  cases l with
  | prefillEnabled => exact (congrArg some (isSome_resolvePrefill _ _)).trans (some_getD _ _ _)
  | aiWebEnabled => exact (congrArg some (isSome_resolveWeb _ _)).trans (some_getD _ _ _)
  | emotesEnabled => exact (congrArg some (isSome_resolveEmotes _ _)).trans (some_getD _ _ _)
  | prefillBaseUrl | prefillThreshold =>
    simp only [Leaf.read, Leaf.shown, Leaf.card, Card.toggle, Card.isOn, Settings.resolve, resolveAi, resolvePrefill]
    split
    · exact some_getD_getD _ _ _ _
    · rfl
  | aiWebBaseUrl | aiWebTimeout | aiWebMaxResults | aiWebMaxRounds | aiWebCacheTtlSecs | aiWebCacheCapacity =>
    simp only [Leaf.read, Leaf.shown, Leaf.card, Card.toggle, Card.isOn, Settings.resolve, resolveAi, resolveWeb]
    split
    · exact some_getD_getD _ _ _ _
    · rfl
  | emotesIncludeGlobal | emotesRefreshIntervalSecs | emotesMaxPromptEmotes | emotesMinBaselineEmotes | emotesPinnedEmotes
  | emotesBaseUrl =>
    simp only [Leaf.read, Leaf.shown, Leaf.card, Card.toggle, Card.isOn, Settings.resolve, resolveAi, resolveEmotes]
    split
    · exact some_getD_getD _ _ _ _
    · rfl
  | _ => exact some_getD _ _ _

/-- A leaf resolves to the same from overrides that set it to the same, and so the toggle of its card. -/
theorem read_resolve_congr (defaults : Settings) {o o' : SettingsOverrides} {l : Leaf} (h : l.get o = l.get o')
    (htoggle : ∀ card, l.card = some card → card.toggle.get o = card.toggle.get o') :
    l.read (.resolve defaults o) = l.read (.resolve defaults o') := by
  have hshown : l.shown (.resolve defaults o) = l.shown (.resolve defaults o') := by
    unfold Leaf.shown
    cases hcard : l.card with
    | none => rfl
    | some card => exact congrArg (decide (l = card.toggle) || ·) (isOn_resolve defaults (htoggle card hcard))
  rw [read_resolve, read_resolve, hshown, h]

/-! ## There are no other fields -/

/-- Overrides are made of their leaves. -/
theorem SettingsOverrides.ofLeaves_get (o : SettingsOverrides) : ofLeaves o.schemaVersion (fun l => l.get o) = o := rfl

@[simp] theorem Leaf.get_ofLeaves (version : UInt32) (f : (l : Leaf) → Option l.Val) (l : Leaf) :
    l.get (.ofLeaves version f) = f l := by
  cases l <;> rfl

/-- Overrides of one version are the same when they set every leaf to the same. -/
theorem SettingsOverrides.ext_get {a b : SettingsOverrides} (hversion : a.schemaVersion = b.schemaVersion)
    (h : ∀ l : Leaf, l.get a = l.get b) : a = b := by
  rw [← ofLeaves_get a, ← ofLeaves_get b, hversion, funext h]

/-- Settings are what their leaves resolve to, over any defaults. -/
theorem Settings.resolve_reads (defaults s : Settings) (version : UInt32) :
    { Settings.resolve defaults (.ofLeaves version fun l => l.read s) with schemaVersion := s.schemaVersion } = s := by
  obtain ⟨version', cooldowns, pings, ai, twitch, aviationstack, suspend, web, schedules⟩ := s
  obtain ⟨connection, behavior, history, memory, dreamer, prefill, aiWeb, emotes, media⟩ := ai
  cases prefill <;> cases aiWeb <;> cases emotes <;> rfl

/-- Settings of one version are the same when every leaf is. -/
theorem Settings.ext_read {a b : Settings} (hversion : a.schemaVersion = b.schemaVersion)
    (h : ∀ l : Leaf, l.read a = l.read b) : a = b := by
  rw [← resolve_reads a a 0, funext h, hversion, resolve_reads a b 0]

/-- Settings with no card on are the same when they have the same leaves of those that the defaults have. -/
theorem ext_default {a b : Settings} (hversion : a.schemaVersion = b.schemaVersion) (hoff : ∀ card : Card, card.isOn a = false)
    (h : ∀ l : Leaf, l.shown .compiledDefaults = true → l.read a = l.read b) : a = b := by
  refine Settings.ext_read hversion fun l => ?_
  have ha : l.shown a = l.shown .compiledDefaults := shown_congr (fun card => by rw [hoff, isOn_default]) l
  have hb : l.shown b = l.shown .compiledDefaults := by
    refine shown_congr (fun card => ?_) l
    rw [← isOn_eq_of_read (h card.toggle (shown_toggle _ card)), hoff, isOn_default]
  cases hl : l.shown .compiledDefaults with
  | true => exact h l hl
  | false => rw [read_hidden (ha.trans hl), read_hidden (hb.trans hl)]

end Twitch1337.Dashboard
