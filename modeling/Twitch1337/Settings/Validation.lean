import Twitch1337.Lib.Decimal
import Twitch1337.Settings.Types

/-!
# Validation of settings

`settings/validation.rs`. What the libraries do is a parameter: the parsers of URLs and of times of day, and the text of
numbers and strings in an error. Sums of sizes wrap around, as they do in a release build.
-/

namespace Twitch1337.Dashboard

open RustStr Schedules

/-- What the libraries do. -/
structure Libs where
  render : Render
  /-- The `Display` text of a double. -/
  displayF64 : F64 → String
  /-- Whether `reqwest::Url::parse` accepts a text. -/
  parsesUrl : String → Bool
  /-- Whether `NaiveTime::parse_from_str` accepts a text as `%H:%M`. -/
  parsesTime : String → Bool
  /-- What `ByteSize` is deserialized to from what it is serialized to, a text of one decimal. -/
  storedSize : ByteSize → ByteSize

/-! ## Checks of a field -/

/-- A text of blanks only. -/
def isBlank (s : String) : Bool := (trim s).isEmpty

/-- The check of a number of seconds. -/
def bound (name : String) (v lo hi : UInt64) : List FieldError :=
  errorIf (v < lo || hi < v) name s!"must be {lo}..={hi} seconds (got {v})"

/-- The check of a number in a range. -/
def range (field : String) (v lo hi : UInt64) : List FieldError :=
  errorIf (v < lo || hi < v) field s!"must be {lo}..={hi} (got {v})"

/-- A number that is not zero. -/
def positive (field : String) (v : UInt64) : List FieldError := errorIf (v == 0) field "must be > 0"

/-- A text that is a URL. -/
def validUrl (L : Libs) (field url : String) : List FieldError :=
  errorIf (!L.parsesUrl url) field s!"must be a valid URL (got {L.render.debugStr url})"

/-- A text that is not blank, or is not set. -/
def nonEmptyWhenSet (field : String) (val : Option String) : List FieldError :=
  match val with
  | some v => errorIf (isBlank v) field "must be non-empty when set"
  | none => []

/-- One of two tiers, or none. -/
def serviceTier (L : Libs) (field : String) (val : Option String) : List FieldError :=
  match val with
  | some v =>
    if isBlank v then [⟨field, "must be non-empty when set"⟩]
    else errorIf (trim v ≠ "flex" && trim v ≠ "priority") field
      s!"must be one of 'flex' | 'priority' (got {L.render.debugStr v})"
  | none => []

/-- A channel that is set differs from the one the bot was booted with. -/
def channelField (L : Libs) (channel field : String) (val : Option String) : List FieldError :=
  match val with
  | some v =>
    if isBlank v then [⟨field, "must not be blank when set"⟩]
    else errorIf (trim v = channel) field s!"must differ from twitch.channel ({L.render.debugStr channel})"
  | none => []

/-- No id of a list is blank. -/
def idList (field : String) (ids : List String) : List FieldError :=
  (ids.mapIdx fun idx id => errorIf (isBlank id) s!"{field}[{idx}]" "must not be blank").flatten

/-! ## Checks of a section -/

/-- The cooldowns, each between a second and an hour. -/
def validateCooldowns (c : Cooldowns) : List FieldError :=
  bound "cooldowns.ai" c.ai 1 3600 ++
  bound "cooldowns.news" c.news 1 3600 ++
  bound "cooldowns.up" c.up 1 3600 ++
  bound "cooldowns.feedback" c.feedback 1 3600 ++
  bound "cooldowns.doener" c.doener 1 3600

/-- The behavior of a turn. -/
def validateBehavior (b : AiBehavior) : List FieldError :=
  range "ai.behavior.max_turn_rounds" b.maxTurnRounds 1 20 ++
  range "ai.behavior.max_writes_per_turn" b.maxWritesPerTurn 1 64 ++
  errorIf (isBlank b.personaName) "ai.behavior.persona_name" "must not be empty"

/-- The two lengths of what is remembered. -/
def validateHistory (h : AiHistory) : List FieldError :=
  errorIf (maxHistoryLength < h.length) "ai.history.length" s!"must be <= {maxHistoryLength}" ++
  errorIf (maxHistoryLength < h.aiChannelLength) "ai.history.ai_channel_length" s!"must be <= {maxHistoryLength}"

/-- The budget has room for the two files that are always there. The sum wraps around, as in a release build. -/
def validateMemory (m : AiMemory) : List FieldError :=
  errorIf (m.injectByteBudget < m.soulBytes + m.loreBytes) "ai.memory.inject_byte_budget"
    "must be >= soul_bytes + lore_bytes"

/-- The dreamer. -/
def validateDreamer (L : Libs) (d : AiDreamer) : List FieldError :=
  range "ai.dreamer.max_rounds" d.maxRounds 1 200 ++
  range "ai.dreamer.max_writes_per_turn" d.maxWritesPerTurn 1 64 ++
  positive "ai.dreamer.timeout_secs" d.timeoutSecs ++
  errorIf (!L.parsesTime d.runAt) "ai.dreamer.run_at" s!"must be HH:MM (got {L.render.debugStr d.runAt})"

/-- The connection, whose URL may be missing. -/
def validateConnection (L : Libs) (c : AiConnection) : List FieldError :=
  (match c.baseUrl with
    | some url => validUrl L "ai.connection.base_url" url
    | none => []) ++
  positive "ai.connection.timeout" c.timeout

/-- A prefill needs a history to fill. -/
def validatePrefill (L : Libs) (history : AiHistory) (prefill : Option AiPrefill) : List FieldError :=
  match prefill with
  | some p =>
    validUrl L "ai.prefill.base_url" p.baseUrl ++
    errorIf (!(F64.zero.le p.threshold && p.threshold.le .one)) "ai.prefill.threshold"
      s!"must be 0.0..=1.0 (got {L.displayF64 p.threshold})" ++
    errorIf (history.length == 0) "ai.prefill" "requires ai.history.length > 0"
  | none => []

/-- The web tools, when they are on. -/
def validateWeb (L : Libs) (web : Option AiWeb) : List FieldError :=
  match web with
  | some w =>
    validUrl L "ai.web.base_url" w.baseUrl ++
    range "ai.web.max_results" w.maxResults 1 10 ++
    range "ai.web.max_rounds" w.maxRounds 1 6 ++
    positive "ai.web.cache_capacity" w.cacheCapacity
  | none => []

/-- The emotes, when they are on. -/
def validateEmotes (emotes : Option AiEmotes) : List FieldError :=
  match emotes with
  | some em =>
    positive "ai.emotes.refresh_interval_secs" em.refreshIntervalSecs ++
    range "ai.emotes.max_prompt_emotes" em.maxPromptEmotes 1 200 ++
    errorIf (em.maxPromptEmotes < em.minBaselineEmotes) "ai.emotes.min_baseline_emotes"
      "must be <= max_prompt_emotes" ++
    errorIf (em.maxPromptEmotes.toNat < em.pinnedEmotes.length) "ai.emotes.pinned_emotes"
      s!"must have <= max_prompt_emotes entries (got {em.pinnedEmotes.length}, max {em.maxPromptEmotes})" ++
    nonEmptyWhenSet "ai.emotes.base_url" em.baseUrl
  | none => []

/-- All of the AI, in the order of the source. -/
def validateAi (L : Libs) (ai : AiSettings) : List FieldError :=
  validateBehavior ai.behavior ++
  validateHistory ai.history ++
  validateMemory ai.memory ++
  validateDreamer L ai.dreamer ++
  nonEmptyWhenSet "ai.connection.reasoning_effort" ai.connection.reasoningEffort ++
  nonEmptyWhenSet "ai.dreamer.reasoning_effort" ai.dreamer.reasoningEffort ++
  serviceTier L "ai.connection.service_tier" ai.connection.serviceTier ++
  serviceTier L "ai.dreamer.service_tier" ai.dreamer.serviceTier ++
  validateConnection L ai.connection ++
  validatePrefill L ai.history ai.prefill ++
  validateWeb L ai.web ++
  validateEmotes ai.emotes

/-- The channels differ from the one of the bot, and from each other. -/
def validateChannels (L : Libs) (channel : String) (adminChannel aiChannel : Option String) : List FieldError :=
  channelField L channel "twitch.admin_channel" adminChannel ++
  channelField L channel "twitch.ai_channel" aiChannel ++
  match adminChannel, aiChannel with
  | some ad, some ai =>
    errorIf (!isBlank ad && !isBlank ai && decide (trim ad = trim ai)) "twitch.ai_channel"
      "must differ from twitch.admin_channel"
  | _, _ => []

/-- Aviationstack, when it is on. -/
def validateAviationstack (L : Libs) (a : AviationstackSettings) : List FieldError :=
  if a.enabled then
    validUrl L "aviationstack.base_url" a.baseUrl ++ positive "aviationstack.timeout_secs" a.timeoutSecs
  else []

/-- The sessions. -/
def validateWebRuntime (w : WebRuntime) : List FieldError :=
  range "web.session_ttl_secs" w.sessionTtlSecs 3600 2592000 ++
  range "web.mod_check_refresh_secs" w.modCheckRefreshSecs 30 3600

/-- The schedules from a place on, with the names seen before. -/
def validateSchedules (L : Libs) (idx : Nat) (seenNames : List String) : List Schedule → List FieldError
  | [] => []
  | sc :: rest =>
    let pre := s!"schedules[{idx}]"
    let name := trim sc.name
    sc.validate L.render pre ++
    errorIf (!name.isEmpty && decide (name ∈ seenNames)) (pre ++ ".name")
      s!"duplicate name {L.render.debugStr name}" ++
    validateSchedules L (idx + 1) (if name.isEmpty then seenNames else name :: seenNames) rest

/-! ## Settings -/

/-- The errors of settings, for the channel the bot was booted with. -/
def Settings.errs (L : Libs) (channel : String) (s : Settings) : List FieldError :=
  validateCooldowns s.cooldowns ++
  bound "pings.cooldown" s.pings.cooldown 1 86400 ++
  validateAi L s.ai ++
  errorIf (1000 < s.twitch.expectedLatency) "twitch.expected_latency"
    s!"must be <= 1000ms (got {s.twitch.expectedLatency})" ++
  validateChannels L channel s.twitch.adminChannel s.twitch.aiChannel ++
  idList "twitch.hidden_admins" s.twitch.hiddenAdmins ++
  idList "twitch.viewer_allowlist" s.twitch.viewerAllowlist ++
  range "suspend.default_duration_secs" s.suspend.defaultDurationSecs 1 604800 ++
  validateAviationstack L s.aviationstack ++
  validateWebRuntime s.web ++
  validateSchedules L 0 [] s.schedules

/-- Settings are valid when no check fails, and all errors are given otherwise. -/
def Settings.validate (L : Libs) (channel : String) (s : Settings) : Except (List FieldError) Unit :=
  if (s.errs L channel).isEmpty then .ok () else .error (s.errs L channel)

/-- Validation in a build. The sum of sizes stops it where there are overflow checks. -/
def Settings.validateIn (b : Decimal.Build) (L : Libs) (channel : String) (s : Settings) :
    Except Decimal.Overflow (Except (List FieldError) Unit) := do
  let _ ← b.u64 (s.ai.memory.soulBytes.toNat + s.ai.memory.loreBytes.toNat)
  return s.validate L channel

end Twitch1337.Dashboard
