import Twitch1337.Theorems.SaveUnchanged

/-!
# What an accepted save takes over

Every field that is submitted with a text holds what the text says, every box that was rendered has its state, and nothing else
changes. The exceptions are texts that are dropped (a size or a backend that is not known, pins without the marker of their card)
and pins that are missing, which are cleared.
-/

namespace Twitch1337.Web

open Dashboard RustStr

variable {T : FormTexts} {L : Libs} {channel : String} {st : SettingsStore} {r : SaveRequest} {form : SaveForm}

/-! ## What texts say -/

/-- A selector in which "none" stands for no value. -/
def isSegmented : Leaf → Bool
  | .connectionReasoningEffort | .connectionServiceTier | .dreamerReasoningEffort | .dreamerServiceTier => true
  | _ => false

/-- A value is what a text says, up to whitespace around it. -/
def Says (T : FormTexts) (segmented : Bool) : (k : Kind) → String → k.Val → Prop
  | .u64, v, (x : UInt64) => readU64 v = some x
  | .u32, v, (x : UInt32) => readU32 v = some x
  | .float, v, (x : F64) => T.readF64 v = some x
  | .bytes, v, (x : ByteSize) => T.readSize v = some x.bytes
  | .text, v, (x : String) => trim x = trim v
  | .optText, v, (x : Option String) =>
    if segmented = true ∧ trim v = "none" then x = none else ∃ s, x = some s ∧ trim s = trim v
  | .texts, v, (x : List String) => x = ((Text.lines v.toList).map fun l => trim (.ofList l)).filter fun l => !l.isEmpty
  | .backend, v, (x : AiBackendKind) => x.text = trim v
  | .bool, _, _ => False
  | .schedules, _, _ => False

/-! ## Effects of a save -/

/-- A box that the page rendered: the page has it always, or the marker of its card was submitted. -/
def isRendered (sub : Submission) : Leaf → Bool
  | .pingsPublic | .dreamerEnabled => true
  | .prefillEnabled => (sub .aiPrefillCardVisible).isSome
  | .aiWebEnabled => (sub .aiWebCardVisible).isSome
  | .emotesEnabled | .emotesIncludeGlobal => (sub .aiEmotesCardVisible).isSome
  | .aviationstackEnabled => (sub .aviationstackCardVisible).isSome
  | _ => false

/-- The value of a box is whether it was submitted. -/
def IsState : (k : Kind) → k.Val → Bool → Prop
  | .bool, (x : Bool), state => x = state
  | _, _, _ => False

/-- A field that a save does not ask for: it is not submitted, or it is a box that was not rendered. -/
def Untouched (sub : Submission) (l : Leaf) : Prop :=
  isRendered sub l = false ∧ (l.kind ≠ .bool → ∀ f : Field, f.leaf = some l → sub f = none)

/-- The card of a leaf is on or off in both. -/
def SameCard (before after : Settings) (l : Leaf) : Prop := ∀ card, l.card = some card → card.isOn before = card.isOn after

/-- A save takes over what is submitted, and leaves the rest. -/
structure TakesOver (T : FormTexts) (sub : Submission) (before after : Settings) : Prop where
  fields : ∀ (f : Field) (l : Leaf) (v : String), f.leaf = some l → l.kind ≠ .bool → sub f = some v → isBlank v = false →
    l.shown after = true → ∃ x, l.read after = some x ∧ Says T (isSegmented l) l.kind v x
  boxes : ∀ (f : Field) (l : Leaf), f.leaf = some l → isRendered sub l = true → l.shown after = true →
    ∃ x, l.read after = some x ∧ IsState l.kind x (sub f).isSome
  others : ∀ l : Leaf, Untouched sub l → SameCard before after l → l.read after = l.read before

/-- A text that a save drops: a size or a backend that it does not know, and pins without the marker of their card. -/
def Dropped (T : FormTexts) (sub : Submission) (v : String) : Leaf → Prop
  | .connectionBackend => readBackend v = none
  | .mediaMaxImageSize | .mediaMaxPdfSize | .mediaMaxAudioSize | .mediaMaxVideoSize | .mediaMaxTextSize => T.readSize v = none
  | .emotesPinnedEmotes => sub .aiEmotesCardVisible = none
  | _ => False

/-- Pins that are missing where their card was rendered. -/
def PinsMissing (sub : Submission) (l : Leaf) : Prop :=
  l = .emotesPinnedEmotes ∧ (sub .aiEmotesCardVisible).isSome = true ∧ sub .aiEmotesPinnedEmotes = none

/-- What a save takes over: all but what it drops. Pins that are missing are cleared. -/
structure TakesOverKnown (T : FormTexts) (sub : Submission) (before after : Settings) : Prop where
  fields : ∀ (f : Field) (l : Leaf) (v : String), f.leaf = some l → l.kind ≠ .bool → sub f = some v → isBlank v = false →
    ¬ Dropped T sub v l → l.shown after = true → ∃ x, l.read after = some x ∧ Says T (isSegmented l) l.kind v x
  dropped : ∀ (f : Field) (l : Leaf) (v : String), f.leaf = some l → sub f = some v → Dropped T sub v l →
    l.read after = l.read before
  boxes : ∀ (f : Field) (l : Leaf), f.leaf = some l → isRendered sub l = true → l.shown after = true →
    ∃ x, l.read after = some x ∧ IsState l.kind x (sub f).isSome
  missing : PinsMissing sub .emotesPinnedEmotes → after.ai.emotes.isSome = true →
    Leaf.read after .emotesPinnedEmotes = some []
  others : ∀ l : Leaf, ¬ PinsMissing sub l → Untouched sub l → SameCard before after l → l.read after = l.read before

/-! ## Fields in the patch -/

/-- A number of seconds that is submitted is in the patch. -/
theorem says_seconds {v : String} {x : UInt64} (h : readU64 v = some x) : ∃ y, some x = some y ∧ readU64 v = some y := ⟨x, rfl, h⟩

/-- A number that is submitted is in the patch. -/
theorem says_u64 {v : String} {x : Option UInt64} (h : optional readU64 (some v) = some x) :
    ∃ y, x = some y ∧ readU64 v = some y := by
  obtain ⟨n, hn, rfl⟩ := Option.map_eq_some_iff.mp h
  exact ⟨n, rfl, hn⟩

/-- A number of 32 bits that is submitted is in the patch. -/
theorem says_u32 {v : String} {x : Option UInt32} (h : optional readU32 (some v) = some x) :
    ∃ y, x = some y ∧ readU32 v = some y := by
  obtain ⟨n, hn, rfl⟩ := Option.map_eq_some_iff.mp h
  exact ⟨n, rfl, hn⟩

/-- A number with a fraction that is submitted is in the patch. -/
theorem says_float {v : String} {x : Option F64} (h : optional T.readF64 (some v) = some x) :
    ∃ y, x = some y ∧ T.readF64 v = some y := by
  obtain ⟨n, hn, rfl⟩ := Option.map_eq_some_iff.mp h
  exact ⟨n, rfl, hn⟩

/-- A text that is submitted is in the patch, but for the blanks around it. -/
theorem says_text {v : String} {x : Option String} (h : some (some v) = some x) : ∃ y, x = some y ∧ trim y = trim v :=
  ⟨v, (Option.some.inj h).symm, rfl⟩

theorem ne_empty_of_not_blank {v : String} (hblank : isBlank v = false) : ¬ v.isEmpty = true := by
  intro he
  rw [String.isEmpty_iff.mp he] at hblank
  simp [isBlank, trim, trimChars] at hblank

/-- A name that is submitted is in the patch, without the blanks around it. -/
theorem says_persona {v : String} {x : Option String} (hblank : isBlank v = false) (h : some (some v) = some x) :
    ∃ y, ((x.map trim).filter fun s => !s.isEmpty) = some y ∧ trim y = trim v := by
  rw [isBlank] at hblank
  refine ⟨trim v, ?_, trim_trim v⟩
  rw [← Option.some.inj h, Option.map_some, Option.filter_some, if_pos (by rw [hblank]; rfl)]

/-- A text that is submitted and not blank is in the patch, where an empty one would clear the leaf. -/
theorem says_cleared {v : String} {x : Option String} (hblank : isBlank v = false) (h : some (some v) = some x) :
    ∃ y, (x.map fun s => if s.isEmpty then none else some s) = some y ∧
      if false = true ∧ trim v = "none" then y = none else ∃ s, y = some s ∧ trim s = trim v := by
  refine ⟨some v, ?_, ?_⟩
  · rw [← Option.some.inj h, Option.map_some, if_neg (ne_empty_of_not_blank hblank)]
  · rw [if_neg fun hf => Bool.false_ne_true hf.1]
    exact ⟨v, rfl, rfl⟩

/-- A text of a leaf that can be cleared is in the patch when it is submitted and not blank. -/
theorem says_triState {v : String} {x : Option String} (hblank : isBlank v = false) (h : some (some v) = some x) :
    ∃ y, triState x = some y ∧ if false = true ∧ trim v = "none" then y = none else ∃ s, y = some s ∧ trim s = trim v := by
  rw [triState_eq]
  exact says_cleared hblank h

/-- A URL that is submitted and not blank is in the patch. -/
theorem says_baseUrl {v : String} {x : Option String} (hblank : isBlank v = false) (h : some (some v) = some x) :
    ∃ y, (x.map fun s => if (trim s).isEmpty then none else some s) = some y ∧
      if false = true ∧ trim v = "none" then y = none else ∃ s, y = some s ∧ trim s = trim v := by
  rw [isBlank] at hblank
  refine ⟨some v, ?_, ?_⟩
  · rw [← Option.some.inj h, Option.map_some, hblank, if_neg Bool.false_ne_true]
  · rw [if_neg fun hf => Bool.false_ne_true hf.1]
    exact ⟨v, rfl, rfl⟩

/-- A choice that is submitted is in the patch, where "none" clears the leaf. -/
theorem says_segmented {v : String} {x : Option String} (hblank : isBlank v = false) (h : some (some v) = some x) :
    ∃ y, segmentedTriState x = some y ∧
      if true = true ∧ trim v = "none" then y = none else ∃ s, y = some s ∧ trim s = trim v := by
  have hne := ne_empty_of_not_blank hblank
  rw [isBlank] at hblank
  rw [← Option.some.inj h, segmentedTriState, triState_eq, Option.map_some, Option.map_some]
  by_cases hnone : trim v = "none"
  · refine ⟨none, ?_, ?_⟩
    · have hcleared : trim v = "none" ∨ (trim v).isEmpty = true := .inl hnone
      exact congrArg some (if_pos ((congrArg String.isEmpty (if_pos hcleared)).trans (by decide)))
    · rw [if_pos ⟨rfl, hnone⟩]
  · refine ⟨some v, ?_, ?_⟩
    · have hkeep : ¬ (trim v = "none" ∨ (trim v).isEmpty = true) := by
        rw [hblank]
        rintro (hn | hf)
        · exact hnone hn
        · cases hf
      rw [if_neg hkeep, if_neg hne]
    · rw [if_neg fun hn => hnone hn.2]
      exact ⟨v, rfl, rfl⟩

/-- A list that is submitted is in the patch, as its texts are read. -/
theorem says_list {v : String} {x : Option String} (h : some (some v) = some x) :
    ∃ y, x.map parseIdList = some y ∧ y = parseIdList v := by
  rw [← Option.some.inj h]
  exact ⟨_, rfl, rfl⟩

/-- The pins that are submitted are in the patch, when their card was rendered. -/
theorem says_pins {v : String} {visible x : Option String} (hvisible : visible ≠ none) (h : some (some v) = some x) :
    ∃ y, (visible.map fun _ => parseIdList (x.getD "")) = some y ∧ y = parseIdList v := by
  obtain ⟨_, hmarker⟩ := Option.ne_none_iff_exists'.mp hvisible
  rw [← Option.some.inj h, hmarker]
  exact ⟨_, rfl, rfl⟩

/-- A size that is submitted and known is in the patch. -/
theorem says_size {v : String} {x : Option String} (hknown : T.readSize v ≠ none) (h : some (some v) = some x) :
    ∃ y, (x.bind T.readSize).map ByteSize.mk = some y ∧ T.readSize v = some y.bytes := by
  obtain ⟨n, hn⟩ := Option.ne_none_iff_exists'.mp hknown
  rw [← Option.some.inj h, Option.bind_some, hn]
  exact ⟨⟨n⟩, rfl, rfl⟩

/-- A backend that is read is the one whose name it is. -/
theorem text_of_readBackend {v : String} {k : AiBackendKind} (h : readBackend v = some k) : k.text = trim v := by
  unfold readBackend at h
  split at h
  · rename_i hv
    rw [hv, ← Option.some.inj h, trim_eq_self_iff.mpr (by simp [Trimmed, isWhitespace])]
    rfl
  · split at h
    · rename_i hv
      rw [hv, ← Option.some.inj h, trim_eq_self_iff.mpr (by simp [Trimmed, isWhitespace])]
      rfl
    · cases h

/-- A backend that is submitted and known is in the patch. -/
theorem says_backend {v : String} {x : Option String} (hknown : readBackend v ≠ none) (h : some (some v) = some x) :
    ∃ y, x.bind readBackend = some y ∧ y.text = trim v := by
  obtain ⟨k, hk⟩ := Option.ne_none_iff_exists'.mp hknown
  rw [← Option.some.inj h, Option.bind_some]
  exact ⟨k, hk, text_of_readBackend hk⟩

/-- A field that is submitted with a text is in the patch, with what the text says. -/
theorem get_says (hform : ∀ f : Field, f.type.read T (r.sub f) = some (form f)) {f : Field} {l : Leaf} {v : String}
    (hl : f.leaf = some l) (hkind : l.kind ≠ .bool) (hv : r.sub f = some v) (hblank : isBlank v = false)
    (hdrop : ¬ Dropped T r.sub v l) :
    ∃ x, l.get (overridesFromSaveForm T form) = some x ∧ Says T (isSegmented l) l.kind v x := by
  have hread := hform f
  rw [hv] at hread
  cases f with
  | cooldownAi | cooldownNews | cooldownUp | cooldownFeedback | cooldownDoener | pingCooldown =>
    cases hl
    exact says_seconds hread
  | aiConnectionTimeout | aiBehaviorMaxTurnRounds | aiBehaviorMaxWritesPerTurn | aiHistoryLength | aiHistoryAiChannelLength
  | aiMemorySoulBytes | aiMemoryLoreBytes | aiMemoryUserBytes | aiMemoryStateBytes | aiMemoryInjectByteBudget
  | aiMemoryMaxStateFiles | aiDreamerTimeoutSecs | aiDreamerMaxRounds | aiDreamerMaxWritesPerTurn | aiMediaTimeout
  | aviationstackTimeoutSecs | suspendDefaultDurationSecs | webSessionTtlSecs | webModCheckRefreshSecs | aiWebTimeout
  | aiWebMaxResults | aiWebMaxRounds | aiWebCacheTtlSecs | aiWebCacheCapacity | aiEmotesRefreshIntervalSecs
  | aiEmotesMaxPromptEmotes | aiEmotesMinBaselineEmotes =>
    cases hl
    exact says_u64 hread
  | twitchExpectedLatency =>
    cases hl
    exact says_u32 hread
  | aiPrefillThreshold =>
    cases hl
    exact says_float hread
  | aiConnectionModel | aiDreamerRunAt | aiMediaModel | aviationstackBaseUrl | aiPrefillBaseUrl | aiWebBaseUrl =>
    cases hl
    exact says_text hread
  | aiBehaviorPersonaName =>
    cases hl
    exact says_persona hblank hread
  | aiConnectionBaseUrl =>
    cases hl
    exact says_baseUrl hblank hread
  | aiDreamerModel | aiEmotesBaseUrl =>
    cases hl
    exact says_cleared hblank hread
  | twitchAdminChannel | twitchAiChannel =>
    cases hl
    exact says_triState hblank hread
  | aiConnectionReasoningEffort | aiConnectionServiceTier | aiDreamerReasoningEffort | aiDreamerServiceTier =>
    cases hl
    exact says_segmented hblank hread
  | twitchHiddenAdmins | twitchViewerAllowlist =>
    cases hl
    exact says_list hread
  | aiEmotesPinnedEmotes =>
    cases hl
    have hmarker : form .aiEmotesCardVisible ≠ none := by
      rw [← Option.some.inj (hform .aiEmotesCardVisible)]
      exact hdrop
    exact says_pins hmarker hread
  | aiMediaMaxImageSize | aiMediaMaxPdfSize | aiMediaMaxAudioSize | aiMediaMaxVideoSize | aiMediaMaxTextSize =>
    cases hl
    exact says_size hdrop hread
  | aiConnectionBackend =>
    cases hl
    exact says_backend hdrop hread
  | pingPublic | aiDreamerEnabled | aiPrefillEnabled | aiWebEnabled | aiEmotesEnabled | aiEmotesIncludeGlobal
  | aviationstackEnabled =>
    cases hl
    exact absurd rfl hkind
  | aiPrefillCardVisible | aiWebCardVisible | aiEmotesCardVisible | aviationstackCardVisible => cases hl

/-- A card that was rendered is switched by its box. -/
theorem enabled_state {visible checked v : Option String} {m : Option String} (hrendered : v.isSome = true)
    (hvisible : some v = some visible) (h : some m = some checked) :
    ∃ x, enabledFromCard visible checked = some x ∧ x = m.isSome := by
  rw [← Option.some.inj hvisible, ← Option.some.inj h]
  exact ⟨m.isSome, if_pos hrendered, rfl⟩

/-- A box that was rendered is in the patch. -/
theorem get_state (hform : ∀ f : Field, f.type.read T (r.sub f) = some (form f)) {f : Field} {l : Leaf} (hl : f.leaf = some l)
    (hrendered : isRendered r.sub l = true) :
    ∃ x, l.get (overridesFromSaveForm T form) = some x ∧ IsState l.kind x (r.sub f).isSome := by
  have hread := hform f
  cases f with
  | pingPublic | aiDreamerEnabled =>
    cases hl
    exact ⟨_, rfl, congrArg Option.isSome (Option.some.inj hread).symm⟩
  | aiPrefillEnabled =>
    cases hl
    exact enabled_state hrendered (hform .aiPrefillCardVisible) hread
  | aiWebEnabled =>
    cases hl
    exact enabled_state hrendered (hform .aiWebCardVisible) hread
  | aiEmotesEnabled | aiEmotesIncludeGlobal =>
    cases hl
    exact enabled_state hrendered (hform .aiEmotesCardVisible) hread
  | aviationstackEnabled =>
    cases hl
    exact enabled_state hrendered (hform .aviationstackCardVisible) hread
  | _ =>
    cases hl
    try cases hrendered

/-! ## The rest -/

/-- A cooldown that passes its check is not zero. -/
theorem ne_zero_of_bound {name : String} {v hi : UInt64} (h : bound name v 1 hi = []) : v ≠ 0 := by
  rintro rfl
  rw [bound, errorIf_eq_nil_iff, Bool.or_eq_false_iff] at h
  exact absurd h.1 (by decide)

/-- A form that leaves out a cooldown is not accepted. -/
theorem cooldowns_submitted (hform : ∀ f : Field, f.type.read T (r.sub f) = some (form f)) {o : SettingsOverrides}
    (hvalid : (Settings.resolve .compiledDefaults (mergeInto o (overridesFromSaveForm T form))).Valid L channel) {f : Field}
    (hf : f.type = .seconds) : r.sub f ≠ none := by
  intro hnone
  have hread := hform f
  rw [hnone] at hread
  have hcooldowns := hvalid.cooldowns
  simp only [validateCooldowns, List.append_eq_nil_iff] at hcooldowns
  obtain ⟨⟨⟨⟨hai, hnews⟩, hup⟩, hfeedback⟩, hdoener⟩ := hcooldowns
  cases f with
  | cooldownAi => exact ne_zero_of_bound hai (Option.some.inj hread).symm
  | cooldownNews => exact ne_zero_of_bound hnews (Option.some.inj hread).symm
  | cooldownUp => exact ne_zero_of_bound hup (Option.some.inj hread).symm
  | cooldownFeedback => exact ne_zero_of_bound hfeedback (Option.some.inj hread).symm
  | cooldownDoener => exact ne_zero_of_bound hdoener (Option.some.inj hread).symm
  | pingCooldown => exact ne_zero_of_bound hvalid.pings (Option.some.inj hread).symm
  | _ => cases hf

/-- A card that was not rendered is left as it is. -/
theorem enabled_untouched {visible checked v : Option String} (hrendered : v.isSome = false) (hvisible : some v = some visible) :
    enabledFromCard visible checked = none := by
  rw [← Option.some.inj hvisible, enabledFromCard, hrendered, if_neg Bool.false_ne_true]

/-- A leaf that a form does not ask for is not in its patch. -/
theorem get_untouched (hform : ∀ f : Field, f.type.read T (r.sub f) = some (form f))
    (hseconds : ∀ f : Field, f.type = .seconds → r.sub f ≠ none) {l : Leaf} (h : Untouched r.sub l)
    (hpins : ¬ PinsMissing r.sub l) : l.get (overridesFromSaveForm T form) = none := by
  by_cases hschedules : l = .schedules
  · rw [hschedules]
    rfl
  obtain ⟨f, hl⟩ := exists_field l hschedules
  have hrendered := h.1
  by_cases hkind : l.kind = .bool
  · cases f with
    | aiPrefillEnabled =>
      cases hl
      exact enabled_untouched hrendered (hform .aiPrefillCardVisible)
    | aiWebEnabled =>
      cases hl
      exact enabled_untouched hrendered (hform .aiWebCardVisible)
    | aiEmotesEnabled | aiEmotesIncludeGlobal =>
      cases hl
      exact enabled_untouched hrendered (hform .aiEmotesCardVisible)
    | aviationstackEnabled =>
      cases hl
      exact enabled_untouched hrendered (hform .aviationstackCardVisible)
    | pingPublic | aiDreamerEnabled =>
      cases hl
      cases hrendered
    | aiPrefillCardVisible | aiWebCardVisible | aiEmotesCardVisible | aviationstackCardVisible => cases hl
    | _ =>
      cases hl
      cases hkind
  · have hsub := h.2 hkind f hl
    have hread := hform f
    rw [hsub] at hread
    cases f with
    | cooldownAi | cooldownNews | cooldownUp | cooldownFeedback | cooldownDoener | pingCooldown =>
      exact absurd hsub (hseconds _ rfl)
    | aiConnectionBackend =>
      cases hl
      exact congrArg (Option.bind · readBackend) (Option.some.inj hread).symm
    | aiConnectionBaseUrl =>
      cases hl
      exact congrArg (Option.map _) (Option.some.inj hread).symm
    | aiDreamerModel | aiEmotesBaseUrl =>
      cases hl
      exact congrArg (Option.map _) (Option.some.inj hread).symm
    | aiBehaviorPersonaName =>
      cases hl
      exact congrArg (fun x : Option String => (x.map trim).filter fun s => !s.isEmpty) (Option.some.inj hread).symm
    | twitchAdminChannel | twitchAiChannel =>
      cases hl
      exact congrArg triState (Option.some.inj hread).symm
    | aiConnectionReasoningEffort | aiConnectionServiceTier | aiDreamerReasoningEffort | aiDreamerServiceTier =>
      cases hl
      exact congrArg segmentedTriState (Option.some.inj hread).symm
    | twitchHiddenAdmins | twitchViewerAllowlist =>
      cases hl
      exact congrArg (Option.map parseIdList) (Option.some.inj hread).symm
    | aiMediaMaxImageSize | aiMediaMaxPdfSize | aiMediaMaxAudioSize | aiMediaMaxVideoSize | aiMediaMaxTextSize =>
      cases hl
      exact congrArg (fun x : Option String => (x.bind T.readSize).map ByteSize.mk) (Option.some.inj hread).symm
    | aiEmotesPinnedEmotes =>
      cases hl
      have hmarker : r.sub .aiEmotesCardVisible = none := by
        by_contra hsome
        exact hpins ⟨rfl, Option.isSome_iff_ne_none.mpr hsome, hsub⟩
      have hvisible := hform .aiEmotesCardVisible
      rw [hmarker] at hvisible
      exact congrArg (Option.map _) (Option.some.inj hvisible).symm
    | pingPublic | aiDreamerEnabled | aiPrefillEnabled | aiWebEnabled | aiEmotesEnabled | aiEmotesIncludeGlobal
    | aviationstackEnabled =>
      cases hl
      exact absurd rfl hkind
    | aiPrefillCardVisible | aiWebCardVisible | aiEmotesCardVisible | aviationstackCardVisible => cases hl
    | _ =>
      cases hl
      exact (Option.some.inj hread).symm

/-- A text that is dropped is not in the patch. -/
theorem get_dropped (hform : ∀ f : Field, f.type.read T (r.sub f) = some (form f)) {f : Field} {l : Leaf} {v : String}
    (hl : f.leaf = some l) (hv : r.sub f = some v) (h : Dropped T r.sub v l) :
    l.get (overridesFromSaveForm T form) = none := by
  have hread := hform f
  rw [hv] at hread
  cases f with
  | aiConnectionBackend =>
    cases hl
    exact (congrArg (Option.bind · readBackend) (Option.some.inj hread).symm).trans h
  | aiMediaMaxImageSize | aiMediaMaxPdfSize | aiMediaMaxAudioSize | aiMediaMaxVideoSize | aiMediaMaxTextSize =>
    cases hl
    exact (congrArg (fun x : Option String => (x.bind T.readSize).map ByteSize.mk) (Option.some.inj hread).symm).trans
      (congrArg (Option.map ByteSize.mk) h)
  | aiEmotesPinnedEmotes =>
    cases hl
    have hvisible := hform .aiEmotesCardVisible
    rw [h] at hvisible
    exact congrArg (Option.map _) (Option.some.inj hvisible).symm
  | aiPrefillCardVisible | aiWebCardVisible | aiEmotesCardVisible | aviationstackCardVisible => cases hl
  | _ =>
    cases hl
    exact h.elim

/-! ## What the settings are after a patch -/

/-- A leaf of the patch is what the settings then show. -/
theorem read_of_get {defaults : Settings} {o patch : SettingsOverrides} {l : Leaf} {x : l.Val}
    (hshown : l.shown (.resolve defaults (mergeInto o patch)) = true) (hget : l.get patch = some x) :
    l.read (.resolve defaults (mergeInto o patch)) = some x := by
  rw [read_resolve, if_pos hshown, get_mergeInto, hget, Option.some_or, Option.some_or, Option.some_or]

/-- A leaf that is not in the patch is what it was, unless its card was switched. -/
theorem read_of_get_none {defaults : Settings} {o patch : SettingsOverrides} {l : Leaf} (hget : l.get patch = none)
    (hcard : SameCard (.resolve defaults o) (.resolve defaults (mergeInto o patch)) l) :
    l.read (.resolve defaults (mergeInto o patch)) = l.read (.resolve defaults o) := by
  have hshown : l.shown (.resolve defaults (mergeInto o patch)) = l.shown (.resolve defaults o) := by
    unfold Leaf.shown
    cases hl : l.card with
    | none => rfl
    | some card => exact congrArg (decide (l = card.toggle) || ·) (hcard card hl).symm
  rw [read_resolve, read_resolve, hshown, get_mergeInto_of_none hget]

/-- An accepted save: its form can be read, and what its patch resolves to is valid. -/
theorem of_saved {after : Settings} (h : (save T L channel st r).1.settings = some after) :
    ∃ form, SaveForm.extract T r.sub = some form ∧
      after = .resolve .compiledDefaults (mergeInto (st.file.getD {}) (overridesFromSaveForm T form)) ∧
      after.Valid L channel ∧ (save T L channel st r).2.handle = after := by
  unfold save at h ⊢
  cases hform : SaveForm.extract T r.sub with
  | none =>
    rw [hform] at h
    cases h
  | some form =>
    rw [hform] at h
    dsimp only at h ⊢
    split at h
    · rename_i hverified
      rw [if_pos hverified]
      rcases apply_cases L channel st r.io (overridesFromSaveForm T form) r.actor with ⟨e, heq⟩ | ⟨hvalid, hok, hhandle⟩
      · rw [heq] at h
        cases e <;> cases h
      · rw [hok] at h
        obtain rfl := Option.some.inj h
        exact ⟨form, rfl, rfl, hvalid, hhandle⟩
    · cases h

/-! ## Accepted saves -/

/-- Where a card was rendered and its pins are missing, they are cleared. -/
theorem pins_missing {marker : String} {visible x : Option String} (hvisible : some (some marker) = some visible)
    (h : some none = some x) : (visible.map fun _ => parseIdList (x.getD "")) = some [] := by
  rw [← Option.some.inj hvisible, ← Option.some.inj h]
  exact congrArg some (show parseIdList "" = [] from rfl)

/-- Each part of what a save takes over, for settings that are valid then. -/
theorem takesOverKnown {o : SettingsOverrides} (hform : ∀ f : Field, f.type.read T (r.sub f) = some (form f))
    (hvalid : (Settings.resolve .compiledDefaults (mergeInto o (overridesFromSaveForm T form))).Valid L channel) :
    TakesOverKnown T r.sub (.resolve .compiledDefaults o)
      (.resolve .compiledDefaults (mergeInto o (overridesFromSaveForm T form))) where
  fields f l v hl hkind hv hblank hdrop hshown := by
    obtain ⟨x, hget, hsays⟩ := get_says hform hl hkind hv hblank hdrop
    exact ⟨x, read_of_get hshown hget, hsays⟩
  dropped f l v hl hv hdrop := by
    refine read_of_get_none (get_dropped hform hl hv hdrop) fun card hcard => ?_
    cases l with
    | emotesPinnedEmotes =>
      cases hcard
      refine isOn_resolve _ ((get_mergeInto_of_none ?_ o).symm)
      exact enabled_untouched (congrArg Option.isSome hdrop) (hform .aiEmotesCardVisible)
    | connectionBackend | mediaMaxImageSize | mediaMaxPdfSize | mediaMaxAudioSize | mediaMaxVideoSize | mediaMaxTextSize =>
      cases hcard
    | _ => exact hdrop.elim
  boxes f l hl hrendered hshown := by
    obtain ⟨x, hget, hstate⟩ := get_state hform hl hrendered
    exact ⟨x, read_of_get hshown hget, hstate⟩
  missing hmissing hon := by
    obtain ⟨-, hmarker, hpins⟩ := hmissing
    have hread := hform .aiEmotesPinnedEmotes
    rw [hpins] at hread
    obtain ⟨marker, hsome⟩ := Option.isSome_iff_exists.mp hmarker
    have hvisible := hform .aiEmotesCardVisible
    rw [hsome] at hvisible
    exact read_of_get hon (pins_missing hvisible hread)
  others l hpins huntouched hcard :=
    read_of_get_none (get_untouched hform (fun f => cooldowns_submitted hform hvalid) huntouched hpins) hcard

/-- An accepted save takes over what is submitted, but for what it drops, and leaves the rest: what it was before is what the file
resolves to, which has a size of media as it is read back. A submission with a field that cannot be read is refused. -/
theorem save_takes_over (T : FormTexts) (L : Libs) (channel : String) (st : SettingsStore) (r : SaveRequest) :
    (∀ after, (save T L channel st r).1.settings = some after →
      TakesOverKnown T r.sub (.resolve .compiledDefaults (st.file.getD {})) after ∧ (save T L channel st r).2.handle = after) ∧
    ∀ f : Field, f.type.read T (r.sub f) = none → save T L channel st r = (.unreadable, st) := by
  constructor
  · intro after h
    obtain ⟨form, hform, rfl, hvalid, hhandle⟩ := of_saved h
    exact ⟨takesOverKnown (extract_eq_some_iff.mp hform) hvalid, hhandle⟩
  · intro f hf
    unfold save
    rw [extract_eq_none hf]

/-! ## What is dropped -/

/-- A submission with another value of a field. -/
def edit (sub : Submission) (f : Field) (v : Option String) : Submission := fun g => if g = f then v else sub g

/-- A store in which the emotes are on. -/
def emotesOn : SettingsStore where
  file := some { ai := { emotes := { enabled := some true } } }
  handle := .resolve .compiledDefaults { ai := { emotes := { enabled := some true } } }
  audit := []

/-- A save of the page of a store, with another value of a field. -/
def editedSave (st : SettingsStore) (f : Field) (v : Option String) : SaveRequest :=
  ⟨edit (page plainTexts st.handle) f v, true, owner, ioWith .ok⟩

/-- A save of pins without the marker of their card. -/
def unmarkedSave : SaveRequest :=
  ⟨edit (edit (page plainTexts emotesOn.handle) .aiEmotesCardVisible none) .aiEmotesPinnedEmotes (some "Kappa"), true, owner,
    ioWith .ok⟩

/-- A save that is accepted and does not take over all that is submitted, or not only that. -/
def Breaks (st : SettingsStore) (r : SaveRequest) : Prop :=
  ∃ after, (save plainTexts plainLibs "chan" st r).1.settings = some after ∧
    ¬ TakesOver plainTexts r.sub (.resolve .compiledDefaults (st.file.getD {})) after

/-- A save that is accepted and does not take over all that is submitted. -/
theorem breaks_of_isSome {st : SettingsStore} {r : SaveRequest}
    (hsaved : (save plainTexts plainLibs "chan" st r).1.settings.isSome = true)
    (h : ¬ TakesOver plainTexts r.sub (.resolve .compiledDefaults (st.file.getD {})) (Option.get _ hsaved)) : Breaks st r :=
  ⟨Option.get _ hsaved, (Option.some_get hsaved).symm, h⟩

/-- A size that cannot be read, and a backend in capitals. -/
def sizeSave : SaveRequest := editedSave freshStore .aiMediaMaxImageSize (some "not-a-size")

/-- A save of a backend with a capital letter. -/
def backendSave : SaveRequest := editedSave freshStore .aiConnectionBackend (some "Ollama")

/-- No pins. -/
def pinlessSave : SaveRequest := editedSave emotesOn .aiEmotesPinnedEmotes none

theorem saved_size : (save plainTexts plainLibs "chan" freshStore sizeSave).1.settings.isSome = true := by decide +kernel

theorem saved_backend : (save plainTexts plainLibs "chan" freshStore backendSave).1.settings.isSome = true := by decide +kernel

theorem saved_unmarked : (save plainTexts plainLibs "chan" emotesOn unmarkedSave).1.settings.isSome = true := by decide +kernel

theorem saved_pinless : (save plainTexts plainLibs "chan" emotesOn pinlessSave).1.settings.isSome = true := by decide +kernel

theorem eq_pins_of_leaf {f : Field} (h : f.leaf = some .emotesPinnedEmotes) : f = .aiEmotesPinnedEmotes := by
  cases f <;> cases h
  rfl

/-- Sizes and backends that cannot be read are ignored, and so are pins without the marker of their card. With the marker, pins
that are missing are cleared. -/
theorem not_takesOver : Breaks freshStore sizeSave ∧ Breaks freshStore backendSave ∧ Breaks emotesOn unmarkedSave ∧
    Breaks emotesOn pinlessSave := by
  refine ⟨breaks_of_isSome saved_size fun h => ?_, breaks_of_isSome saved_backend fun h => ?_,
    breaks_of_isSome saved_unmarked fun h => ?_, breaks_of_isSome saved_pinless fun h => ?_⟩
  · obtain ⟨x, -, hsays⟩ := h.fields .aiMediaMaxImageSize .mediaMaxImageSize "not-a-size" rfl (by decide) rfl
      (by decide +kernel) rfl
    have hnone : plainTexts.readSize "not-a-size" = none := by rfl
    cases hnone.symm.trans hsays
  · obtain ⟨x, -, hsays⟩ := h.fields .aiConnectionBackend .connectionBackend "Ollama" rfl (by decide) rfl (by decide +kernel) rfl
    have htext : AiBackendKind.text x = "Ollama" := Eq.trans hsays (by decide +kernel)
    cases x <;> revert htext <;> decide
  · obtain ⟨x, hread, hsays⟩ := h.fields .aiEmotesPinnedEmotes .emotesPinnedEmotes "Kappa" rfl (by decide) rfl
      (by decide +kernel) (by decide +kernel)
    have hpins : (Option.get _ saved_unmarked).ai.emotes.map (·.pinnedEmotes) = some ["PepeLa", "okjj"] := by decide +kernel
    have hkappa : x = ["Kappa"] := Eq.trans hsays (show parseIdList "Kappa" = ["Kappa"] by decide +kernel)
    rw [hkappa] at hread
    have heq : some ["PepeLa", "okjj"] = some ["Kappa"] := hpins.symm.trans hread
    revert heq
    decide
  · have hothers := h.others .emotesPinnedEmotes ⟨rfl, fun _ f hf => by rw [eq_pins_of_leaf hf]; rfl⟩
      fun card hcard => by cases hcard; decide +kernel
    have hpins : (Option.get _ saved_pinless).ai.emotes.map (·.pinnedEmotes) = some [] := by decide +kernel
    have hbefore : (Settings.resolve .compiledDefaults (emotesOn.file.getD {})).ai.emotes.map (·.pinnedEmotes) =
        some ["PepeLa", "okjj"] := by rfl
    cases hpins.symm.trans (hothers.trans hbefore)

end Twitch1337.Web
