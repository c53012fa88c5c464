import Twitch1337.Lemmas.Settings

/-!
# The fields that errors name

The errors of a section name fields of that section, each from a list that is known. The ids of a list and the schedules are named
with their place.
-/

namespace Twitch1337.Dashboard

open RustStr Schedules

variable {L : Libs} {channel : String} {fields : List String} {s : Settings} {errs : List FieldError}

/-- Every error names one of some fields. -/
def Names (fields : List String) (errs : List FieldError) : Prop := ∀ e ∈ errs, e.field ∈ fields

/-- No error, no field. -/
theorem names_nil : Names fields [] := fun _ h => absurd h List.not_mem_nil

/-- The fields of two lists of errors. -/
theorem names_append {errs errs' : List FieldError} : Names fields (errs ++ errs') ↔ Names fields errs ∧ Names fields errs' :=
  List.forall_mem_append

/-- An error of one of the fields. -/
theorem names_singleton {field message : String} (h : field ∈ fields) : Names fields [⟨field, message⟩] := by
  intro e he
  rw [List.mem_singleton.mp he]
  exact h

/-- The path in the field of an error, without the place in a list. -/
def path (field : String) : List Char := field.toList.takeWhile fun c => c ≠ '['

/-- A field without an index is its own path. -/
theorem path_of_plain {field : String} (h : '[' ∉ field.toList) : path field = field.toList :=
  List.takeWhile_eq_self_iff.mpr fun _ hc => decide_eq_true fun he => h (he ▸ hc)

/-- The index is no part of the path. -/
theorem path_append {field : String} (h : '[' ∉ field.toList) (rest : String) : path (field ++ "[" ++ rest) = field.toList := by
  rw [path, String.toList_append, String.toList_append, List.append_assoc]
  rw [List.takeWhile_append_of_pos]
  · simp
  · intro c hc
    exact decide_eq_true fun he => h (he ▸ hc)

/-! ## Checks of a field -/

/-- An error of a check is its error, and the check has failed. -/
theorem mem_errorIf {wrong : Bool} {field message : String} {e : FieldError} :
    e ∈ errorIf wrong field message ↔ wrong = true ∧ e = ⟨field, message⟩ := by
  unfold errorIf
  cases wrong <;> simp

/-- A check names its field. -/
theorem names_errorIf {wrong : Bool} {field message : String} (h : field ∈ fields) :
    Names fields (errorIf wrong field message) := by
  intro e he
  rw [(mem_errorIf.mp he).2]
  exact h

/-- A cooldown out of its bounds names its field. -/
theorem names_bound {name : String} (h : name ∈ fields) (v lo hi : UInt64) : Names fields (bound name v lo hi) := names_errorIf h

/-- A number out of its range names its field. -/
theorem names_range {field : String} (h : field ∈ fields) (v lo hi : UInt64) : Names fields (range field v lo hi) :=
  names_errorIf h

/-- A number that is zero names its field. -/
theorem names_positive {field : String} (h : field ∈ fields) (v : UInt64) : Names fields (positive field v) := names_errorIf h

/-- A text that is no URL names its field. -/
theorem names_validUrl {field : String} (h : field ∈ fields) (url : String) : Names fields (validUrl L field url) :=
  names_errorIf h

/-- A text that is set and empty names its field. -/
theorem names_nonEmptyWhenSet {field : String} (h : field ∈ fields) (val : Option String) :
    Names fields (nonEmptyWhenSet field val) := by
  cases val with
  | none => exact names_nil
  | some v => exact names_errorIf h

/-- A service tier that there is not names its field. -/
theorem names_serviceTier {field : String} (h : field ∈ fields) (val : Option String) :
    Names fields (serviceTier L field val) := by
  cases val with
  | none => exact names_nil
  | some v =>
    simp only [serviceTier]
    split
    · exact names_singleton h
    · exact names_errorIf h

/-- A text that is no channel, or the channel of the bot, names its field. -/
theorem names_channelField {field : String} (h : field ∈ fields) (val : Option String) :
    Names fields (channelField L channel field val) := by
  cases val with
  | none => exact names_nil
  | some v =>
    simp only [channelField]
    split
    · exact names_singleton h
    · exact names_errorIf h

/-- An error of a list of ids names the list, and a place in it. -/
theorem field_of_mem_idList {field : String} {ids : List String} {e : FieldError} (h : e ∈ idList field ids) :
    ∃ idx : Nat, e.field = s!"{field}[{idx}]" := by
  obtain ⟨l, hl, he⟩ := List.mem_flatten.mp h
  obtain ⟨idx, hidx, rfl⟩ := List.mem_mapIdx.mp hl
  exact ⟨idx, congrArg FieldError.field (mem_errorIf.mp he).2⟩

/-! ## Sections -/

/-- The fields that the checks of the cooldowns name. -/
theorem names_cooldowns (c : Cooldowns) :
    Names ["cooldowns.ai", "cooldowns.news", "cooldowns.up", "cooldowns.feedback", "cooldowns.doener"] (validateCooldowns c) := by
  unfold validateCooldowns
  simp only [names_append, and_assoc]
  refine ⟨?_, ?_, ?_, ?_, ?_⟩
  all_goals exact names_bound (by decide) _ _ _

/-- Those of the behavior. -/
theorem names_behavior (b : AiBehavior) :
    Names ["ai.behavior.max_turn_rounds", "ai.behavior.max_writes_per_turn", "ai.behavior.persona_name"] (validateBehavior b) := by
  unfold validateBehavior
  simp only [names_append, and_assoc]
  exact ⟨names_range (by decide) _ _ _, names_range (by decide) _ _ _, names_errorIf (by decide)⟩

/-- Those of the history. -/
theorem names_history (h : AiHistory) : Names ["ai.history.length", "ai.history.ai_channel_length"] (validateHistory h) :=
  names_append.mpr ⟨names_errorIf (by decide), names_errorIf (by decide)⟩

/-- Those of the memory. -/
theorem names_memory (m : AiMemory) : Names ["ai.memory.inject_byte_budget"] (validateMemory m) := names_errorIf (by decide)

/-- Those of the dreamer. -/
theorem names_dreamer (d : AiDreamer) :
    Names ["ai.dreamer.max_rounds", "ai.dreamer.max_writes_per_turn", "ai.dreamer.timeout_secs", "ai.dreamer.run_at"]
      (validateDreamer L d) := by
  unfold validateDreamer
  simp only [names_append, and_assoc]
  exact ⟨names_range (by decide) _ _ _, names_range (by decide) _ _ _, names_positive (by decide) _, names_errorIf (by decide)⟩

/-- Those of the connection. -/
theorem names_connection (c : AiConnection) :
    Names ["ai.connection.base_url", "ai.connection.timeout"] (validateConnection L c) := by
  refine names_append.mpr ⟨?_, names_positive (by decide) _⟩
  split
  · exact names_validUrl (by decide) _
  · exact names_nil

/-- Those of the prefill, one of which is the prefill as a whole. -/
theorem names_prefill (h : AiHistory) (prefill : Option AiPrefill) :
    Names ["ai.prefill.base_url", "ai.prefill.threshold", "ai.prefill"] (validatePrefill L h prefill) := by
  cases prefill with
  | none => exact names_nil
  | some p =>
    simp only [validatePrefill, names_append, and_assoc]
    exact ⟨names_validUrl (by decide) _, names_errorIf (by decide), names_errorIf (by decide)⟩

/-- Those of the web tools. -/
theorem names_web (web : Option AiWeb) :
    Names ["ai.web.base_url", "ai.web.max_results", "ai.web.max_rounds", "ai.web.cache_capacity"] (validateWeb L web) := by
  cases web with
  | none => exact names_nil
  | some w =>
    simp only [validateWeb, names_append, and_assoc]
    exact ⟨names_validUrl (by decide) _, names_range (by decide) _ _ _, names_range (by decide) _ _ _,
      names_positive (by decide) _⟩

/-- Those of the emotes. -/
theorem names_emotes (emotes : Option AiEmotes) :
    Names ["ai.emotes.refresh_interval_secs", "ai.emotes.max_prompt_emotes", "ai.emotes.min_baseline_emotes",
      "ai.emotes.pinned_emotes", "ai.emotes.base_url"] (validateEmotes emotes) := by
  cases emotes with
  | none => exact names_nil
  | some em =>
    simp only [validateEmotes, names_append, and_assoc]
    exact ⟨names_positive (by decide) _, names_range (by decide) _ _ _, names_errorIf (by decide), names_errorIf (by decide),
      names_nonEmptyWhenSet (by decide) _⟩

/-- Those of the two channels. -/
theorem names_channels (adminChannel aiChannel : Option String) :
    Names ["twitch.admin_channel", "twitch.ai_channel"] (validateChannels L channel adminChannel aiChannel) := by
  unfold validateChannels
  simp only [names_append, and_assoc]
  refine ⟨names_channelField (by decide) _, names_channelField (by decide) _, ?_⟩
  split
  · exact names_errorIf (by decide)
  · exact names_nil

/-- Those of aviationstack. -/
theorem names_aviationstack (a : AviationstackSettings) :
    Names ["aviationstack.base_url", "aviationstack.timeout_secs"] (validateAviationstack L a) := by
  unfold validateAviationstack
  split
  · exact names_append.mpr ⟨names_validUrl (by decide) _, names_positive (by decide) _⟩
  · exact names_nil

/-- Those of the web server. -/
theorem names_webRuntime (w : WebRuntime) :
    Names ["web.session_ttl_secs", "web.mod_check_refresh_secs"] (validateWebRuntime w) :=
  names_append.mpr ⟨names_range (by decide) _ _ _, names_range (by decide) _ _ _⟩

/-! ## Errors of settings -/

/-- The errors of settings that are rejected. -/
theorem errs_of_validate (h : s.validate L channel = .error errs) : errs = s.errs L channel := by
  unfold Settings.validate at h
  split at h
  · cases h
  · exact (Except.error.inj h).symm

/-- An error of the cooldowns is an error of the settings. -/
theorem mem_errs_cooldowns {e : FieldError} (h : e ∈ validateCooldowns s.cooldowns) : e ∈ s.errs L channel := by
  simp only [Settings.errs, List.mem_append, h, true_or]

/-- An error of the pings is an error of the settings. -/
theorem mem_errs_pings {e : FieldError} (h : e ∈ bound "pings.cooldown" s.pings.cooldown 1 86400) : e ∈ s.errs L channel := by
  simp only [Settings.errs, List.mem_append, h, or_true, true_or]

end Twitch1337.Dashboard
