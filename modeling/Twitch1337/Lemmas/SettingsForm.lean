import Twitch1337.Web.SettingsPage

/-!
# Fields of the settings form

Which leaf of the settings a field sets, when a submission can be read, and that what is written as a number is read back.
-/

namespace Twitch1337.Web

open Dashboard RustStr

variable {T : FormTexts}

/-! ## Fields and leaves -/

/-- The leaf that a field sets. The markers of cards set none. -/
def Field.leaf : Field → Option Leaf
  | .cooldownAi => some .cooldownsAi
  | .cooldownNews => some .cooldownsNews
  | .cooldownUp => some .cooldownsUp
  | .cooldownFeedback => some .cooldownsFeedback
  | .cooldownDoener => some .cooldownsDoener
  | .pingCooldown => some .pingsCooldown
  | .pingPublic => some .pingsPublic
  | .aiConnectionBackend => some .connectionBackend
  | .aiConnectionBaseUrl => some .connectionBaseUrl
  | .aiConnectionModel => some .connectionModel
  | .aiConnectionTimeout => some .connectionTimeout
  | .aiConnectionReasoningEffort => some .connectionReasoningEffort
  | .aiConnectionServiceTier => some .connectionServiceTier
  | .aiBehaviorMaxTurnRounds => some .behaviorMaxTurnRounds
  | .aiBehaviorMaxWritesPerTurn => some .behaviorMaxWritesPerTurn
  | .aiBehaviorPersonaName => some .behaviorPersonaName
  | .aiHistoryLength => some .historyLength
  | .aiHistoryAiChannelLength => some .historyAiChannelLength
  | .aiMemorySoulBytes => some .memorySoulBytes
  | .aiMemoryLoreBytes => some .memoryLoreBytes
  | .aiMemoryUserBytes => some .memoryUserBytes
  | .aiMemoryStateBytes => some .memoryStateBytes
  | .aiMemoryInjectByteBudget => some .memoryInjectByteBudget
  | .aiMemoryMaxStateFiles => some .memoryMaxStateFiles
  | .aiDreamerEnabled => some .dreamerEnabled
  | .aiDreamerModel => some .dreamerModel
  | .aiDreamerReasoningEffort => some .dreamerReasoningEffort
  | .aiDreamerServiceTier => some .dreamerServiceTier
  | .aiDreamerRunAt => some .dreamerRunAt
  | .aiDreamerTimeoutSecs => some .dreamerTimeoutSecs
  | .aiDreamerMaxRounds => some .dreamerMaxRounds
  | .aiDreamerMaxWritesPerTurn => some .dreamerMaxWritesPerTurn
  | .aiPrefillEnabled => some .prefillEnabled
  | .aiPrefillBaseUrl => some .prefillBaseUrl
  | .aiPrefillThreshold => some .prefillThreshold
  | .aiWebEnabled => some .aiWebEnabled
  | .aiWebBaseUrl => some .aiWebBaseUrl
  | .aiWebTimeout => some .aiWebTimeout
  | .aiWebMaxResults => some .aiWebMaxResults
  | .aiWebMaxRounds => some .aiWebMaxRounds
  | .aiWebCacheTtlSecs => some .aiWebCacheTtlSecs
  | .aiWebCacheCapacity => some .aiWebCacheCapacity
  | .aiEmotesEnabled => some .emotesEnabled
  | .aiEmotesIncludeGlobal => some .emotesIncludeGlobal
  | .aiEmotesRefreshIntervalSecs => some .emotesRefreshIntervalSecs
  | .aiEmotesMaxPromptEmotes => some .emotesMaxPromptEmotes
  | .aiEmotesMinBaselineEmotes => some .emotesMinBaselineEmotes
  | .aiEmotesPinnedEmotes => some .emotesPinnedEmotes
  | .aiEmotesBaseUrl => some .emotesBaseUrl
  | .aiMediaModel => some .mediaModel
  | .aiMediaTimeout => some .mediaTimeout
  | .aiMediaMaxImageSize => some .mediaMaxImageSize
  | .aiMediaMaxPdfSize => some .mediaMaxPdfSize
  | .aiMediaMaxAudioSize => some .mediaMaxAudioSize
  | .aiMediaMaxVideoSize => some .mediaMaxVideoSize
  | .aiMediaMaxTextSize => some .mediaMaxTextSize
  | .twitchHiddenAdmins => some .twitchHiddenAdmins
  | .twitchViewerAllowlist => some .twitchViewerAllowlist
  | .twitchExpectedLatency => some .twitchExpectedLatency
  | .twitchAdminChannel => some .twitchAdminChannel
  | .twitchAiChannel => some .twitchAiChannel
  | .aviationstackEnabled => some .aviationstackEnabled
  | .aviationstackBaseUrl => some .aviationstackBaseUrl
  | .aviationstackTimeoutSecs => some .aviationstackTimeoutSecs
  | .suspendDefaultDurationSecs => some .suspendDefaultDurationSecs
  | .webSessionTtlSecs => some .webRuntimeSessionTtlSecs
  | .webModCheckRefreshSecs => some .webRuntimeModCheckRefreshSecs
  | .aiPrefillCardVisible | .aiWebCardVisible | .aiEmotesCardVisible | .aviationstackCardVisible => none

/-- Every leaf but the schedules has a field. -/
theorem exists_field (l : Leaf) (h : l ≠ .schedules) : ∃ f : Field, f.leaf = some l := by
  have hany : (Field.all.any fun f => decide (f.leaf = some l)) = true := by
    cases l with
    | schedules => exact absurd rfl h
    | _ => rfl
  obtain ⟨f, -, hf⟩ := List.any_eq_true.mp hany
  exact ⟨f, of_decide_eq_true hf⟩

/-! ## Submissions -/

/-- A submission is a form when every field of it can be read. -/
theorem extract_eq_some_iff {sub : Submission} {form : SaveForm} :
    SaveForm.extract T sub = some form ↔ ∀ f : Field, f.type.read T (sub f) = some (form f) := by
  unfold SaveForm.extract
  constructor
  · intro h f
    split at h
    · obtain rfl := Option.some.inj h
      exact (Option.some_get _).symm
    · cases h
  · intro h
    rw [dif_pos fun f _ => by rw [h f]; rfl]
    refine congrArg some (funext fun f => ?_)
    rw [Option.get_of_eq_some _ (h f)]

theorem extract_isSome_iff {sub : Submission} :
    (SaveForm.extract T sub).isSome = true ↔ ∀ f : Field, (f.type.read T (sub f)).isSome = true := by
  constructor
  · intro h f
    obtain ⟨form, hform⟩ := Option.isSome_iff_exists.mp h
    rw [extract_eq_some_iff.mp hform f]
    rfl
  · intro h
    have hform : SaveForm.extract T sub = some fun f => (f.type.read T (sub f)).get (h f) :=
      extract_eq_some_iff.mpr fun f => (Option.some_get _).symm
    rw [hform]
    rfl

/-- A submission with a field that cannot be read is no form. -/
theorem extract_eq_none {sub : Submission} {f : Field} (h : f.type.read T (sub f) = none) : SaveForm.extract T sub = none := by
  cases hform : SaveForm.extract T sub with
  | none => rfl
  | some form =>
    have := extract_eq_some_iff.mp hform f
    rw [h] at this
    cases this

/-! ## Numbers -/

theorem readU64_toString (n : UInt64) : readU64 (toString n.toNat) = some n := by
  have hpad : (toString n.toNat).toList = (Civil.pad 0 n.toNat).toList := by
    rw [Civil.pad, String.toList_append]
    simp
  rw [readU64, hpad, Decimal.readU64_pad n.toNat_lt, Option.map_some, UInt64.ofNat_toNat]

theorem readU32_toString (n : UInt32) : readU32 (toString n.toNat) = some n := by
  have hpad : (toString n.toNat).toList = (Civil.pad 0 n.toNat).toList := by
    rw [Civil.pad, String.toList_append]
    simp
  have hlt := n.toNat_lt
  rw [readU32, hpad, Decimal.readU64_pad (by omega), Option.filter_some, if_pos (decide_eq_true hlt), Option.map_some,
    UInt32.ofNat_toNat]

end Twitch1337.Web
