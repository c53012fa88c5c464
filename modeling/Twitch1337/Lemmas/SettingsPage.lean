import Twitch1337.Lemmas.SettingsForm

/-!
# What the page submits

A leaf that the form sets holds a value of a kind that the page can show: a text in a list is a trimmed line, and a text that is
cleared when it is empty is not empty. The page of such settings submits a form that sets every leaf it shows to what it is. The
exceptions are selectors that have no button for the value, which submit nothing.
-/

namespace Twitch1337.Web

open Dashboard RustStr

variable {T : FormTexts} {s : Settings} {form : SaveForm}

/-! ## Tidy values -/

/-- A text that a line of a list can be. -/
structure Listed (s : String) : Prop where
  trimmed : trim s = s
  nonempty : s ≠ ""
  oneLine : '\n' ∉ s.toList

/-- A value that the form can set a leaf to. -/
def Tidy : (l : Leaf) → l.Val → Prop
  | .connectionBaseUrl, (v : Option String) => ∀ s, v = some s → isBlank s = false
  | .connectionReasoningEffort, (v : Option String) => v ≠ some "none"
  | .connectionServiceTier, (v : Option String) => v ≠ some "none"
  | .dreamerReasoningEffort, (v : Option String) => v ≠ some "none"
  | .dreamerServiceTier, (v : Option String) => v ≠ some "none"
  | .dreamerModel, (v : Option String) => v ≠ some ""
  | .emotesBaseUrl, (v : Option String) => v ≠ some ""
  | .twitchAdminChannel, (v : Option String) => v ≠ some ""
  | .twitchAiChannel, (v : Option String) => v ≠ some ""
  | .behaviorPersonaName, (v : String) => trim v = v ∧ v ≠ ""
  | .emotesPinnedEmotes, (v : List String) => ∀ s ∈ v, Listed s
  | .twitchHiddenAdmins, (v : List String) => ∀ s ∈ v, Listed s
  | .twitchViewerAllowlist, (v : List String) => ∀ s ∈ v, Listed s
  | _, _ => True

/-- A leaf that the page has a control for which is submitted. -/
def onPage (s : Settings) : Leaf → Bool
  | .connectionReasoningEffort =>
    s.ai.connection.backend.text = "openai" && efforts.contains (s.ai.connection.reasoningEffort.getD "none")
  | .connectionServiceTier => showsTiers s.ai.connection && tiers.contains (s.ai.connection.serviceTier.getD "none")
  | .dreamerReasoningEffort => efforts.contains (s.ai.dreamer.reasoningEffort.getD "none")
  | .dreamerServiceTier => showsTiers s.ai.connection && tiers.contains (s.ai.dreamer.serviceTier.getD "none")
  | .schedules => false
  | _ => true

/-! ## Patches -/

/-- A box that is read with the marker of its card, or pins. -/
def isMarked : Leaf → Bool
  | .prefillEnabled | .aiWebEnabled | .emotesEnabled | .emotesIncludeGlobal | .emotesPinnedEmotes | .aviationstackEnabled => true
  | _ => false

/-- A leaf of a patch depends on its field, and on the markers if it is read with one. -/
theorem get_congr {form' : SaveForm} {f : Field} {l : Leaf} (hl : f.leaf = some l) (hf : form f = form' f)
    (hmarkers : isMarked l = true → ∀ m : Field, m.leaf = none → form m = form' m) :
    l.get (overridesFromSaveForm T form) = l.get (overridesFromSaveForm T form') := by
  cases f with
  | cooldownAi | cooldownNews | cooldownUp | cooldownFeedback | cooldownDoener | pingCooldown =>
    cases hl
    exact congrArg some hf
  | pingPublic | aiDreamerEnabled =>
    cases hl
    exact congrArg (fun x : Option String => some x.isSome) hf
  | aiPrefillEnabled =>
    cases hl
    exact congrArg₂ enabledFromCard (hmarkers rfl .aiPrefillCardVisible rfl) hf
  | aiWebEnabled =>
    cases hl
    exact congrArg₂ enabledFromCard (hmarkers rfl .aiWebCardVisible rfl) hf
  | aiEmotesEnabled | aiEmotesIncludeGlobal =>
    cases hl
    exact congrArg₂ enabledFromCard (hmarkers rfl .aiEmotesCardVisible rfl) hf
  | aviationstackEnabled =>
    cases hl
    exact congrArg₂ enabledFromCard (hmarkers rfl .aviationstackCardVisible rfl) hf
  | aiEmotesPinnedEmotes =>
    cases hl
    exact congrArg₂ (fun visible v : Option String => visible.map fun _ => parseIdList (v.getD ""))
      (hmarkers rfl .aiEmotesCardVisible rfl) hf
  | aiConnectionBackend =>
    cases hl
    exact congrArg (Option.bind · readBackend) hf
  | aiConnectionBaseUrl | aiDreamerModel | aiEmotesBaseUrl =>
    cases hl
    exact congrArg (Option.map _) hf
  | aiBehaviorPersonaName =>
    cases hl
    exact congrArg (fun x : Option String => (x.map trim).filter fun s => !s.isEmpty) hf
  | twitchAdminChannel | twitchAiChannel =>
    cases hl
    exact congrArg triState hf
  | aiConnectionReasoningEffort | aiConnectionServiceTier | aiDreamerReasoningEffort | aiDreamerServiceTier =>
    cases hl
    exact congrArg segmentedTriState hf
  | twitchHiddenAdmins | twitchViewerAllowlist =>
    cases hl
    exact congrArg (Option.map parseIdList) hf
  | aiMediaMaxImageSize | aiMediaMaxPdfSize | aiMediaMaxAudioSize | aiMediaMaxVideoSize | aiMediaMaxTextSize =>
    cases hl
    exact congrArg (fun x : Option String => (x.bind T.readSize).map ByteSize.mk) hf
  | aiPrefillCardVisible | aiWebCardVisible | aiEmotesCardVisible | aviationstackCardVisible => cases hl
  | _ =>
    cases hl
    exact hf

/-! ## Controls -/

/-- A number of seconds that is shown comes back. -/
theorem seconds_page {n v : UInt64} (h : readU64 (toString n.toNat) = some v) : some v = some n := by
  rw [readU64_toString] at h
  exact h.symm

/-- A number that is shown comes back. -/
theorem num_page {n : UInt64} {v : Option UInt64} (h : optional readU64 (num n) = some v) : v = some n := by
  rw [num, optional, readU64_toString] at h
  exact (Option.some.inj h).symm

/-- A text that is shown comes back. -/
theorem text_page {s : String} {v : Option String} (h : some (some s) = some v) : v = some s := (Option.some.inj h).symm

/-- A finite number with a fraction that is shown comes back. -/
theorem float_page {x : F64} {v : Option F64} (hx : x.isFinite = true) (h : optional T.readF64 (some (T.showF64 x)) = some v) :
    v = some x := by
  rw [optional, T.readF64_showF64 x hx] at h
  exact (Option.some.inj h).symm

theorem u32_page {n : UInt32} {v : Option UInt32} (h : optional readU32 (some (toString n.toNat)) = some v) : v = some n := by
  rw [optional, readU32_toString] at h
  exact (Option.some.inj h).symm

/-- A size, which is shown in bytes, comes back. -/
theorem size_page {b : ByteSize} {v : Option String} (h : some (num b.bytes) = some v) :
    (v.bind T.readSize).map ByteSize.mk = some b := by
  rw [← Option.some.inj h, num, Option.bind_some, T.readSize_toString, Option.map_some]

/-- A box that is checked comes back checked, and another one not at all. -/
theorem checkbox_page {b : Bool} {v : Option String} (h : some (checkbox b) = some v) : some v.isSome = some b := by
  rw [← Option.some.inj h]
  cases b <;> rfl

/-- A card that is shown comes back as it is switched. -/
theorem toggle_page {b : Bool} {visible checked : Option String} (hvisible : some (some "1") = some visible)
    (h : some (checkbox b) = some checked) : enabledFromCard visible checked = some b := by
  rw [← Option.some.inj hvisible]
  exact checkbox_page h

/-- The backend that is chosen comes back. -/
theorem backend_page {k : AiBackendKind} {v : Option String} (h : some (radios ["ollama", "openai"] k.text) = some v) :
    v.bind readBackend = some k := by
  rw [← Option.some.inj h]
  cases k <;> simp [radios, readBackend, AiBackendKind.text]

/-- A text that is cleared when it is empty. -/
theorem cleared_page {m v : Option String} (hm : m ≠ some "") (h : some (some (m.getD "")) = some v) :
    (v.map fun s => if s.isEmpty then none else some s) = some m := by
  rw [← Option.some.inj h]
  cases m with
  | none => rfl
  | some s =>
    have hs : ¬ s.isEmpty = true := fun he => hm (congrArg some (String.isEmpty_iff.mp he))
    exact congrArg some (if_neg hs)

/-- A text that is empty clears a leaf. -/
theorem triState_eq (v : Option String) : triState v = v.map fun s => if s.isEmpty then none else some s := by
  cases v with
  | none => rfl
  | some s =>
    rw [triState, Option.map_some]
    split <;> rfl

/-- A URL that is not blank comes back, and so does its absence. -/
theorem baseUrl_page {m v : Option String} (hm : ∀ s, m = some s → isBlank s = false) (h : some (some (m.getD "")) = some v) :
    (v.map fun s => if (trim s).isEmpty then none else some s) = some m := by
  rw [← Option.some.inj h]
  cases m with
  | none => exact congrArg some (if_pos (by simp [trim, trimChars]))
  | some s =>
    have hs : ¬ (trim s).isEmpty = true := by
      rw [← isBlank, hm s rfl]
      exact Bool.false_ne_true
    exact congrArg some (if_neg hs)

/-- A name without blanks around it comes back. -/
theorem persona_page {s : String} {v : Option String} (hs : trim s = s ∧ s ≠ "") (h : some (some s) = some v) :
    ((v.map trim).filter fun s => !s.isEmpty) = some s := by
  have hne : (!s.isEmpty) = true := by
    rw [Bool.not_eq_true', ← Bool.not_eq_true, String.isEmpty_iff]
    exact hs.2
  rw [← Option.some.inj h, Option.map_some, hs.1, Option.filter_some, if_pos hne]

/-- One of a group is chosen when it is in the group. -/
theorem radios_eq (values : List String) (selected : String) :
    radios values selected = if values.contains selected then some selected else none := by
  unfold radios
  induction values with
  | nil => rfl
  | cons x values ih =>
    rw [List.find?_cons, List.contains_cons, ih]
    by_cases hx : x = selected
    · simp [hx]
    · simp [hx, Ne.symm hx]

theorem trim_none : trim "none" = "none" := by simp [trim_eq_self_iff, Trimmed, isWhitespace]

/-- The selector of a value that can be unset, when it is on the page. -/
theorem segmented_page {values : List String} {m v : Option String} (hvalues : ∀ x ∈ values, trim x = x ∧ x ≠ "")
    (hm : m ≠ some "none") (shows : Prop) [Decidable shows] {b : Bool} (hb : decide shows = b)
    (h : some (if shows then radios values (m.getD "none") else none) = some v) :
    segmentedTriState v = if (b && values.contains (m.getD "none")) = true then some m else none := by
  rw [← Option.some.inj h, ← hb]
  by_cases hshows : shows
  · rw [if_pos hshows, radios_eq, decide_eq_true hshows, Bool.true_and]
    split
    · rename_i hmem
      obtain ⟨htrim, hne⟩ := hvalues _ (List.contains_iff_mem.mp hmem)
      cases m with
      | none => simp [segmentedTriState, triState, trim_none]
      | some s =>
        rw [Option.getD_some] at htrim hne
        have hs : ¬ (trim s = "none" ∨ (trim s).isEmpty) := by
          rw [htrim, String.isEmpty_iff, not_or]
          exact ⟨fun he => hm (congrArg some he), hne⟩
        rw [Option.getD_some, segmentedTriState, Option.map_some, if_neg hs, triState_eq, Option.map_some,
          if_neg (mt String.isEmpty_iff.mp hne)]
    · rfl
  · rw [if_neg hshows, decide_eq_false hshows, Bool.false_and]
    rfl

/-! ## Lists -/

/-- Texts as the lines of a box. -/
theorem intercalate_moreLines (s : String) (texts : List String) :
    ("\n".intercalate (s :: texts)).toList = s.toList ++ Text.moreLines (texts.map String.toList) := by
  induction texts generalizing s with
  | nil => simp [Text.moreLines]
  | cons t texts ih =>
    rw [String.intercalate_cons_cons, String.toList_append, String.toList_append, ih t]
    simp [Text.moreLines]

/-- A text of a list fits into one line. -/
theorem Listed.line {s : String} (h : Listed s) : '\n' ∉ s.toList ∧ s.toList ≠ [] ∧ s.toList.getLast? ≠ some '\r' := by
  refine ⟨h.oneLine, mt String.toList_eq_nil_iff.mp h.nonempty, fun hlast => ?_⟩
  have := (trim_eq_self_iff.mp h.trimmed).2 '\r' hlast
  revert this
  decide

/-- A list comes back from its lines. -/
theorem parseIdList_lines {texts : List String} (h : ∀ s ∈ texts, Listed s) : parseIdList ("\n".intercalate texts) = texts := by
  have hlines : Text.lines ("\n".intercalate texts).toList = texts.map String.toList := by
    cases texts with
    | nil => rfl
    | cons s texts =>
      rw [intercalate_moreLines, Text.lines_moreLines, List.map_cons]
      intro x hx
      rw [← List.map_cons, List.mem_map] at hx
      obtain ⟨t, ht, rfl⟩ := hx
      exact (h t ht).line
  have htrim : ∀ s ∈ texts, ((fun l => trim (.ofList l)) ∘ String.toList) s = id s := by
    intro s hs
    rw [Function.comp_apply, String.ofList_toList, (h s hs).trimmed, id]
  rw [parseIdList, hlines, List.map_map, List.map_congr_left htrim, List.map_id]
  refine List.filter_eq_self.mpr fun s hs => ?_
  rw [Bool.not_eq_true', ← Bool.not_eq_true, String.isEmpty_iff]
  exact (h s hs).nonempty

/-- A list that is shown comes back. -/
theorem list_page {texts : List String} {v : Option String} (h : ∀ s ∈ texts, Listed s)
    (hread : some (textarea texts) = some v) : v.map parseIdList = some texts := by
  rw [← Option.some.inj hread, textarea, Option.map_some, parseIdList_lines h]

/-- The pins are read with the marker of their card. -/
theorem pins_page {texts : List String} {visible v : Option String} (h : ∀ s ∈ texts, Listed s)
    (hvisible : some (some "1") = some visible) (hread : some (textarea texts) = some v) :
    (visible.map fun _ => parseIdList (v.getD "")) = some texts := by
  rw [← Option.some.inj hvisible, ← Option.some.inj hread, textarea, Option.map_some, Option.getD_some, parseIdList_lines h]

/-! ## Cards -/

/-- The form shows the prefill that there is. -/
theorem map_shownPrefill {α : Type*} {prefill : Option AiPrefill} (h : prefill.isSome = true) (field : AiPrefill → α) :
    some (field (shownPrefill prefill)) = prefill.map field := by
  cases prefill with
  | none => cases h
  | some p => rfl

/-- It shows the web tools that there are. -/
theorem map_shownWeb {α : Type*} {web : Option AiWeb} (h : web.isSome = true) (field : AiWeb → α) :
    some (field (shownWeb web)) = web.map field := by
  cases web with
  | none => cases h
  | some w => rfl

/-- It shows the emotes that there are. -/
theorem map_shownEmotes {α : Type*} {emotes : Option AiEmotes} (h : emotes.isSome = true) (field : AiEmotes → α) :
    some (field (shownEmotes emotes)) = emotes.map field := by
  cases emotes with
  | none => cases h
  | some e => rfl

/-- The efforts to choose from are plain texts. -/
theorem efforts_plain : ∀ x ∈ efforts, trim x = x ∧ x ≠ "" := by
  simp [efforts, trim_eq_self_iff, Trimmed, isWhitespace]

/-- The service tiers to choose from are plain texts. -/
theorem tiers_plain : ∀ x ∈ tiers, trim x = x ∧ x ≠ "" := by
  simp [tiers, trim_eq_self_iff, Trimmed, isWhitespace]

/-! ## Patches are tidy -/

/-- A text that is cleared when empty is not empty. -/
theorem tidy_cleared {v m : Option String} (h : (v.map fun s => if s.isEmpty then none else some s) = some m) : m ≠ some "" := by
  obtain ⟨s, -, rfl⟩ := Option.map_eq_some_iff.mp h
  split
  · exact (Option.some_ne_none _).symm
  · rename_i hs
    exact fun he => hs (String.isEmpty_iff.mpr (Option.some.inj he))

/-- A URL that is cleared when blank is not blank. -/
theorem tidy_baseUrl {v m : Option String} (h : (v.map fun s => if (trim s).isEmpty then none else some s) = some m) (s : String)
    (hs : m = some s) : isBlank s = false := by
  obtain ⟨t, -, rfl⟩ := Option.map_eq_some_iff.mp h
  split at hs
  · cases hs
  · rename_i ht
    rw [← Option.some.inj hs]
    exact Bool.not_eq_true _ ▸ ht

/-- A choice that is cleared by "none" is not "none". -/
theorem tidy_segmented {v m : Option String} (h : segmentedTriState v = some m) : m ≠ some "none" := by
  rw [segmentedTriState, triState_eq, Option.map_map] at h
  obtain ⟨s, -, rfl⟩ := Option.map_eq_some_iff.mp h
  rw [Function.comp_apply]
  by_cases hs : trim s = "none" ∨ (trim s).isEmpty
  · rw [if_pos hs]
    decide
  · rw [if_neg hs]
    split
    · exact (Option.some_ne_none _).symm
    · intro he
      rw [Option.some.inj he] at hs
      exact hs (.inl trim_none)

/-- A name that is trimmed and kept is a name. -/
theorem tidy_persona {v : Option String} {s : String} (h : ((v.map trim).filter fun s => !s.isEmpty) = some s) :
    trim s = s ∧ s ≠ "" := by
  obtain ⟨hs, hne⟩ := Option.filter_eq_some_iff.mp h
  obtain ⟨t, -, rfl⟩ := Option.map_eq_some_iff.mp hs
  refine ⟨trim_trim t, fun he => ?_⟩
  rw [he] at hne
  revert hne
  decide

/-- The lines of a list are trimmed and not empty. -/
theorem listed_parseIdList {text s : String} (h : s ∈ parseIdList text) : Listed s := by
  obtain ⟨hs, hne⟩ := List.mem_filter.mp h
  obtain ⟨line, hline, rfl⟩ := List.mem_map.mp hs
  refine ⟨trim_trim _, fun he => ?_, fun hn => ?_⟩
  · rw [he] at hne
    revert hne
    decide
  · rw [trim, String.toList_ofList, String.toList_ofList] at hn
    exact Text.newline_lines hline (trimChars_subset line hn)

/-- The texts of a list that is read are fit for a list. -/
theorem tidy_list {v : Option String} {texts : List String} (h : v.map parseIdList = some texts) : ∀ s ∈ texts, Listed s := by
  obtain ⟨text, -, rfl⟩ := Option.map_eq_some_iff.mp h
  exact fun s => listed_parseIdList

/-- The names of emotes that are pinned are fit for a list. -/
theorem tidy_pins {visible v : Option String} {texts : List String}
    (h : (visible.map fun _ => parseIdList (v.getD "")) = some texts) : ∀ s ∈ texts, Listed s := by
  obtain ⟨-, -, rfl⟩ := Option.map_eq_some_iff.mp h
  exact fun s => listed_parseIdList

/-- What a form patches is tidy. -/
theorem tidy_patch (form : SaveForm) {l : Leaf} {v : l.Val} (h : l.get (overridesFromSaveForm T form) = some v) : Tidy l v := by
  cases l with
  | connectionBaseUrl => exact tidy_baseUrl h
  | connectionReasoningEffort | connectionServiceTier | dreamerReasoningEffort | dreamerServiceTier => exact tidy_segmented h
  | dreamerModel | emotesBaseUrl => exact tidy_cleared h
  | twitchAdminChannel => exact tidy_cleared ((triState_eq _).symm.trans h)
  | twitchAiChannel => exact tidy_cleared ((triState_eq _).symm.trans h)
  | behaviorPersonaName => exact tidy_persona h
  | emotesPinnedEmotes => exact tidy_pins h
  | twitchHiddenAdmins | twitchViewerAllowlist => exact tidy_list h
  | _ => trivial

theorem tidy_aurora : trim "Aurora" = "Aurora" ∧ "Aurora" ≠ "" := by simp [trim_eq_self_iff, Trimmed, isWhitespace]

theorem listed_seed : ∀ s ∈ ["PepeLa", "okjj"], Listed s := by
  intro s hs
  obtain rfl | rfl : s = "PepeLa" ∨ s = "okjj" := by simpa using hs
  · exact ⟨by simp [trim_eq_self_iff, Trimmed, isWhitespace], by simp, by simp⟩
  · exact ⟨by simp [trim_eq_self_iff, Trimmed, isWhitespace], by simp, by simp⟩

/-- The defaults are tidy, and so is what a new card has. -/
theorem tidy_default {l : Leaf} {v : l.Val} (h : l.read .compiledDefaults = some v ∨ l.base = some v) : Tidy l v := by
  cases l with
  | connectionBaseUrl => rcases h with h | h <;> cases h <;> exact fun s hs => absurd hs.symm (Option.some_ne_none s)
  | connectionReasoningEffort | connectionServiceTier | dreamerReasoningEffort | dreamerServiceTier | dreamerModel
  | twitchAdminChannel | twitchAiChannel | emotesBaseUrl =>
    rcases h with h | h <;> cases h <;> exact (Option.some_ne_none _).symm
  | behaviorPersonaName => rcases h with h | h <;> cases h <;> exact tidy_aurora
  | twitchHiddenAdmins | twitchViewerAllowlist =>
    rcases h with h | h <;> cases h <;> exact fun s hs => absurd hs List.not_mem_nil
  | emotesPinnedEmotes =>
    rcases h with h | h
    · cases h
    · cases h
      exact listed_seed
  | _ => trivial

/-- What tidy overrides resolve to is tidy. -/
theorem tidy_read {o : SettingsOverrides} (h : ∀ (l : Leaf) (v : l.Val), l.get o = some v → Tidy l v) {l : Leaf} {v : l.Val}
    (hread : l.read (.resolve .compiledDefaults o) = some v) : Tidy l v := by
  rw [read_resolve] at hread
  split at hread
  · rcases Option.or_eq_some_iff.mp hread with hread | ⟨-, hread⟩
    · rcases Option.or_eq_some_iff.mp hread with hread | ⟨-, hread⟩
      · exact h l v hread
      · exact tidy_default (.inl hread)
    · exact tidy_default (.inr hread)
  · cases hread

/-! ## The page -/

/-- The form on the page sets a leaf that it shows to what it is. -/
theorem get_page (hform : ∀ f : Field, f.type.read T (page T s f) = some (form f))
    (htidy : ∀ (l : Leaf) (v : l.Val), l.read s = some v → Tidy l v)
    (hfinite : ∀ p, s.ai.prefill = some p → p.threshold.isFinite = true) {f : Field} {l : Leaf} (hl : f.leaf = some l)
    (hshown : l.shown s = true) :
    l.get (overridesFromSaveForm T form) = if onPage s l then l.read s else none := by
  have hread := hform f
  cases f with
  | cooldownAi | cooldownNews | cooldownUp | cooldownFeedback | cooldownDoener | pingCooldown =>
    cases hl
    exact seconds_page hread
  | aiConnectionTimeout | aiBehaviorMaxTurnRounds | aiBehaviorMaxWritesPerTurn | aiHistoryLength | aiHistoryAiChannelLength
  | aiMemorySoulBytes | aiMemoryLoreBytes | aiMemoryUserBytes | aiMemoryStateBytes | aiMemoryInjectByteBudget
  | aiMemoryMaxStateFiles | aiDreamerTimeoutSecs | aiDreamerMaxRounds | aiDreamerMaxWritesPerTurn | aiMediaTimeout
  | aviationstackTimeoutSecs | suspendDefaultDurationSecs | webSessionTtlSecs | webModCheckRefreshSecs =>
    cases hl
    exact num_page hread
  | aiConnectionModel | aiDreamerRunAt | aiMediaModel | aviationstackBaseUrl =>
    cases hl
    exact text_page hread
  | twitchExpectedLatency =>
    cases hl
    exact u32_page hread
  | pingPublic | aiDreamerEnabled =>
    cases hl
    exact checkbox_page hread
  | aiPrefillEnabled =>
    cases hl
    exact toggle_page (hform .aiPrefillCardVisible) hread
  | aiWebEnabled =>
    cases hl
    exact toggle_page (hform .aiWebCardVisible) hread
  | aiEmotesEnabled =>
    cases hl
    exact toggle_page (hform .aiEmotesCardVisible) hread
  | aviationstackEnabled =>
    cases hl
    exact toggle_page (hform .aviationstackCardVisible) hread
  | aiConnectionBackend =>
    cases hl
    exact backend_page hread
  | aiConnectionBaseUrl =>
    cases hl
    exact baseUrl_page (htidy .connectionBaseUrl _ rfl) hread
  | aiDreamerModel =>
    cases hl
    exact cleared_page (htidy .dreamerModel _ rfl) hread
  | twitchAdminChannel =>
    cases hl
    exact (triState_eq _).trans (cleared_page (htidy .twitchAdminChannel _ rfl) hread)
  | twitchAiChannel =>
    cases hl
    exact (triState_eq _).trans (cleared_page (htidy .twitchAiChannel _ rfl) hread)
  | aiBehaviorPersonaName =>
    cases hl
    exact persona_page (htidy .behaviorPersonaName _ rfl) hread
  | aiConnectionReasoningEffort =>
    cases hl
    exact segmented_page efforts_plain (htidy .connectionReasoningEffort _ rfl) _ rfl hread
  | aiConnectionServiceTier =>
    cases hl
    exact segmented_page tiers_plain (htidy .connectionServiceTier _ rfl) _ Bool.decide_eq_true hread
  | aiDreamerReasoningEffort =>
    cases hl
    exact segmented_page efforts_plain (htidy .dreamerReasoningEffort _ rfl) True rfl hread
  | aiDreamerServiceTier =>
    cases hl
    exact segmented_page tiers_plain (htidy .dreamerServiceTier _ rfl) _ Bool.decide_eq_true hread
  | twitchHiddenAdmins =>
    cases hl
    exact list_page (htidy .twitchHiddenAdmins _ rfl) hread
  | twitchViewerAllowlist =>
    cases hl
    exact list_page (htidy .twitchViewerAllowlist _ rfl) hread
  | aiMediaMaxImageSize | aiMediaMaxPdfSize | aiMediaMaxAudioSize | aiMediaMaxVideoSize | aiMediaMaxTextSize =>
    cases hl
    exact size_page hread
  | aiPrefillBaseUrl =>
    cases hl
    exact (text_page hread).trans (map_shownPrefill hshown (·.baseUrl))
  | aiPrefillThreshold =>
    cases hl
    obtain ⟨p, hp⟩ := Option.isSome_iff_exists.mp (show s.ai.prefill.isSome = true from hshown)
    have hfin : (shownPrefill s.ai.prefill).threshold.isFinite = true := by
      rw [hp]
      exact hfinite p hp
    exact (float_page hfin hread).trans (map_shownPrefill hshown (·.threshold))
  | aiWebBaseUrl =>
    cases hl
    exact (text_page hread).trans (map_shownWeb hshown (·.baseUrl))
  | aiWebTimeout | aiWebMaxResults | aiWebMaxRounds | aiWebCacheTtlSecs | aiWebCacheCapacity =>
    cases hl
    exact (num_page hread).trans (map_shownWeb hshown _)
  | aiEmotesIncludeGlobal =>
    cases hl
    exact (toggle_page (hform .aiEmotesCardVisible) hread).trans (map_shownEmotes hshown (·.includeGlobal))
  | aiEmotesRefreshIntervalSecs | aiEmotesMaxPromptEmotes | aiEmotesMinBaselineEmotes =>
    cases hl
    exact (num_page hread).trans (map_shownEmotes hshown _)
  | aiEmotesPinnedEmotes =>
    cases hl
    have hlisted := htidy .emotesPinnedEmotes _ (map_shownEmotes hshown (·.pinnedEmotes)).symm
    exact (pins_page hlisted (hform .aiEmotesCardVisible) hread).trans (map_shownEmotes hshown (·.pinnedEmotes))
  | aiEmotesBaseUrl =>
    cases hl
    have hne := htidy .emotesBaseUrl _ (map_shownEmotes hshown (·.baseUrl)).symm
    exact (cleared_page hne hread).trans (map_shownEmotes hshown (·.baseUrl))
  | aiPrefillCardVisible | aiWebCardVisible | aiEmotesCardVisible | aviationstackCardVisible => cases hl

/-- Any number that is shown can be read. -/
theorem isSome_num (n : UInt64) : (optional readU64 (num n)).isSome = true := by
  rw [num, optional, readU64_toString]
  rfl

/-- Every field of the page can be read. -/
theorem isSome_page (s : Settings) (hfinite : ∀ p, s.ai.prefill = some p → p.threshold.isFinite = true) (f : Field) :
    (f.type.read T (page T s f)).isSome = true := by
  have hshown : (shownPrefill s.ai.prefill).threshold.isFinite = true := by
    cases hp : s.ai.prefill with
    | none => decide
    | some p => exact hfinite p hp
  cases f with
  | cooldownAi | cooldownNews | cooldownUp | cooldownFeedback | cooldownDoener | pingCooldown =>
    exact (congrArg Option.isSome (readU64_toString _)).trans rfl
  | aiPrefillThreshold =>
    exact (congrArg Option.isSome (congrArg (Option.map some) (T.readF64_showF64 _ hshown))).trans rfl
  | twitchExpectedLatency => exact (congrArg Option.isSome (congrArg (Option.map some) (readU32_toString _))).trans rfl
  | aiConnectionTimeout | aiBehaviorMaxTurnRounds | aiBehaviorMaxWritesPerTurn | aiHistoryLength | aiHistoryAiChannelLength
  | aiMemorySoulBytes | aiMemoryLoreBytes | aiMemoryUserBytes | aiMemoryStateBytes | aiMemoryInjectByteBudget
  | aiMemoryMaxStateFiles | aiDreamerTimeoutSecs | aiDreamerMaxRounds | aiDreamerMaxWritesPerTurn | aiMediaTimeout
  | aviationstackTimeoutSecs | suspendDefaultDurationSecs | webSessionTtlSecs | webModCheckRefreshSecs | aiWebTimeout
  | aiWebMaxResults | aiWebMaxRounds | aiWebCacheTtlSecs | aiWebCacheCapacity | aiEmotesRefreshIntervalSecs
  | aiEmotesMaxPromptEmotes | aiEmotesMinBaselineEmotes => exact isSome_num _
  | _ => rfl

/-- The page submits a form. -/
theorem exists_form (s : Settings) (hfinite : ∀ p, s.ai.prefill = some p → p.threshold.isFinite = true) :
    ∃ form, SaveForm.extract T (page T s) = some form :=
  ⟨fun f => (f.type.read T (page T s f)).get (isSome_page s hfinite f),
    extract_eq_some_iff.mpr fun _ => (Option.some_get _).symm⟩

/-- The page of the defaults has all its controls. -/
theorem onPage_default {l : Leaf} (hl : l ≠ .schedules) : onPage .compiledDefaults l = true := by
  cases l with
  | schedules => exact absurd rfl hl
  | connectionReasoningEffort | connectionServiceTier | dreamerReasoningEffort | dreamerServiceTier => decide +kernel
  | _ => rfl

end Twitch1337.Web
