import Twitch1337.Settings.Overrides
import Twitch1337.Settings.Store

/-!
# Validity and resets of settings

What it says of settings that they are valid, section by section. A reset puts the default of its section in place, and the
one rule between sections that a reset could break does not mind the defaults.
-/

namespace Twitch1337.Dashboard

open RustStr Schedules

/-! ## Validity -/

theorem errorIf_eq_nil_iff {wrong : Bool} {field message : String} : errorIf wrong field message = [] ↔ wrong = false := by
  unfold errorIf
  cases wrong <;> simp

/-- Settings that are valid, section by section. -/
structure Settings.Valid (L : Libs) (channel : String) (s : Settings) : Prop where
  cooldowns : validateCooldowns s.cooldowns = []
  pings : bound "pings.cooldown" s.pings.cooldown 1 86400 = []
  behavior : validateBehavior s.ai.behavior = []
  history : validateHistory s.ai.history = []
  memory : validateMemory s.ai.memory = []
  dreamer : validateDreamer L s.ai.dreamer = []
  connectionEffort : nonEmptyWhenSet "ai.connection.reasoning_effort" s.ai.connection.reasoningEffort = []
  dreamerEffort : nonEmptyWhenSet "ai.dreamer.reasoning_effort" s.ai.dreamer.reasoningEffort = []
  connectionTier : serviceTier L "ai.connection.service_tier" s.ai.connection.serviceTier = []
  dreamerTier : serviceTier L "ai.dreamer.service_tier" s.ai.dreamer.serviceTier = []
  connection : validateConnection L s.ai.connection = []
  prefill : validatePrefill L s.ai.history s.ai.prefill = []
  aiWeb : validateWeb L s.ai.web = []
  emotes : validateEmotes s.ai.emotes = []
  latency : errorIf (1000 < s.twitch.expectedLatency) "twitch.expected_latency"
    s!"must be <= 1000ms (got {s.twitch.expectedLatency})" = []
  channels : validateChannels L channel s.twitch.adminChannel s.twitch.aiChannel = []
  hiddenAdmins : idList "twitch.hidden_admins" s.twitch.hiddenAdmins = []
  viewerAllowlist : idList "twitch.viewer_allowlist" s.twitch.viewerAllowlist = []
  suspend : range "suspend.default_duration_secs" s.suspend.defaultDurationSecs 1 604800 = []
  aviationstack : validateAviationstack L s.aviationstack = []
  web : validateWebRuntime s.web = []
  schedules : validateSchedules L 0 [] s.schedules = []

variable {L : Libs} {channel : String} {s : Settings}

theorem Settings.valid_iff : s.Valid L channel ↔ s.errs L channel = [] := by
  unfold Settings.errs validateAi
  simp only [List.append_eq_nil_iff, and_assoc]
  constructor
  · intro h
    exact ⟨h.cooldowns, h.pings, h.behavior, h.history, h.memory, h.dreamer, h.connectionEffort, h.dreamerEffort,
      h.connectionTier, h.dreamerTier, h.connection, h.prefill, h.aiWeb, h.emotes, h.latency, h.channels, h.hiddenAdmins,
      h.viewerAllowlist, h.suspend, h.aviationstack, h.web, h.schedules⟩
  · rintro ⟨h₁, h₂, h₃, h₄, h₅, h₆, h₇, h₈, h₉, h₁₀, h₁₁, h₁₂, h₁₃, h₁₄, h₁₅, h₁₆, h₁₇, h₁₈, h₁₉, h₂₀, h₂₁, h₂₂⟩
    exact ⟨h₁, h₂, h₃, h₄, h₅, h₆, h₇, h₈, h₉, h₁₀, h₁₁, h₁₂, h₁₃, h₁₄, h₁₅, h₁₆, h₁₇, h₁₈, h₁₉, h₂₀, h₂₁, h₂₂⟩

theorem Settings.validate_ok_iff : s.validate L channel = .ok () ↔ s.Valid L channel := by
  rw [Settings.valid_iff, Settings.validate, ← List.isEmpty_iff]
  cases (s.errs L channel).isEmpty <;> simp

/-! ## Resets -/

/-- A prefill does not mind another history, as long as there is one. -/
theorem validatePrefill_history {history other : AiHistory} {prefill : Option AiPrefill}
    (h : validatePrefill L history prefill = []) (hother : other.length ≠ 0) : validatePrefill L other prefill = [] := by
  cases prefill with
  | none => rfl
  | some p =>
    simp only [validatePrefill, List.append_eq_nil_iff, errorIf_eq_nil_iff] at h ⊢
    exact ⟨h.1, beq_false_of_ne hother⟩

theorem defaultHistoryLength_ne_zero : defaultHistoryLength ≠ 0 := by decide

theorem validateDreamer_default (hclock : L.parsesTime "04:00" = true) : validateDreamer L {} = [] := by
  simp only [validateDreamer, List.append_eq_nil_iff, errorIf_eq_nil_iff, hclock]
  decide +kernel

/-- The compiled defaults are valid, for any channel. -/
theorem Settings.valid_compiledDefaults (hclock : L.parsesTime "04:00" = true) :
    Settings.compiledDefaults.Valid L channel where
  cooldowns := by decide
  pings := by decide
  behavior := by decide +kernel
  history := by decide
  memory := by decide
  dreamer := validateDreamer_default hclock
  connectionEffort := rfl
  dreamerEffort := rfl
  connectionTier := rfl
  dreamerTier := rfl
  connection := rfl
  prefill := rfl
  aiWeb := rfl
  emotes := rfl
  latency := by decide
  channels := rfl
  hiddenAdmins := rfl
  viewerAllowlist := rfl
  suspend := by decide
  aviationstack := rfl
  web := by decide
  schedules := rfl

/-- A reset of any section keeps the settings valid: it puts in place the default of that section, and leaves the others. -/
theorem valid_reset (hclock : L.parsesTime "04:00" = true) {current : SettingsOverrides}
    (h : (Settings.resolve .compiledDefaults current).Valid L channel) (sec : SettingsSection) :
    (Settings.resolve .compiledDefaults (current.reset sec)).Valid L channel := by
  have d : Settings.compiledDefaults.Valid L channel := Settings.valid_compiledDefaults hclock
  cases sec with
  | cooldowns => exact { h with cooldowns := d.cooldowns }
  | pings => exact { h with pings := d.pings }
  | aiConnection =>
    exact { h with
      connection := d.connection
      connectionEffort := d.connectionEffort
      connectionTier := d.connectionTier }
  | aiBehavior => exact { h with behavior := d.behavior }
  | aiHistory => exact { h with history := d.history, prefill := validatePrefill_history h.prefill defaultHistoryLength_ne_zero }
  | aiMemory => exact { h with memory := d.memory }
  | aiDreamer =>
    exact { h with dreamer := d.dreamer, dreamerEffort := d.dreamerEffort, dreamerTier := d.dreamerTier }
  | aiPrefill => exact { h with prefill := rfl }
  | aiWeb => exact { h with aiWeb := d.aiWeb }
  | aiEmotes => exact { h with emotes := d.emotes }
  | aiMedia => exact { h with }
  | twitchPermissions =>
    exact { h with hiddenAdmins := d.hiddenAdmins, viewerAllowlist := d.viewerAllowlist }
  | twitchChannels => exact { h with channels := d.channels }
  | aviationstack => exact { h with aviationstack := d.aviationstack }
  | suspend => exact { h with suspend := d.suspend }
  | webRuntime => exact { h with web := d.web }
  | schedules => exact { h with schedules := d.schedules }

/-! ## Names of schedules -/

/-- Valid schedules have distinct names, which are not among those seen before. -/
theorem names_of_validateSchedules {idx : Nat} {seen : List String} {l : List Schedule}
    (h : validateSchedules L idx seen l = []) :
    (l.map fun s => trim s.name).Nodup ∧ ∀ s ∈ l, trim s.name ∉ seen := by
  induction l generalizing idx seen with
  | nil => exact ⟨.nil, by simp⟩
  | cons s l ih =>
    simp only [validateSchedules, Schedule.validate, List.append_eq_nil_iff, errorIf_eq_nil_iff] at h
    obtain ⟨⟨⟨⟨⟨⟨⟨hblank, -⟩, -⟩, -⟩, -⟩, -⟩, hseen⟩, hrest⟩ := h
    rw [hblank, Bool.not_false, Bool.true_and, decide_eq_false_iff_not] at hseen
    rw [hblank, if_neg Bool.false_ne_true] at hrest
    obtain ⟨hnodup, hfresh⟩ := ih hrest
    refine ⟨?_, fun t ht => ?_⟩
    · rw [List.map_cons, List.nodup_cons]
      refine ⟨fun hmem => ?_, hnodup⟩
      obtain ⟨t, ht, heq⟩ := List.mem_map.mp hmem
      exact hfresh t ht (heq ▸ List.mem_cons_self)
    · rcases List.mem_cons.mp ht with rfl | ht
      · exact hseen
      · exact fun hmem => hfresh t ht (List.mem_cons_of_mem _ hmem)

/-- The schedules of valid settings have distinct names. -/
theorem Settings.Valid.names (h : s.Valid L channel) : (s.schedules.map (·.name)).Nodup := by
  have hnodup := (names_of_validateSchedules h.schedules).1
  refine List.Nodup.of_map trim ?_
  rwa [List.map_map]

end Twitch1337.Dashboard
