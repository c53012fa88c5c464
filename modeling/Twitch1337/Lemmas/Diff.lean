import Mathlib.Data.List.Perm.Basic
import Twitch1337.Lib.Keyed
import Twitch1337.Settings.Audit
import Twitch1337.Settings.Leaves

/-!
# The diff, leaf by leaf

The diff between two settings goes through the leaves in one order: the toggle of a card stands for the whole card, and its
other leaves count when the card is on in both. The schedules come last, by their names. Every change has a key of its own, and
settings without a difference are equal, but for the order of their schedules.
-/

namespace Twitch1337.Dashboard

open Schedules

/-! ## Keys and values -/

/-- The key under which a leaf is logged: a toggle under that of its card. -/
def Leaf.key : Leaf → String
  | .cooldownsAi => "cooldowns.ai"
  | .cooldownsNews => "cooldowns.news"
  | .cooldownsUp => "cooldowns.up"
  | .cooldownsFeedback => "cooldowns.feedback"
  | .cooldownsDoener => "cooldowns.doener"
  | .pingsCooldown => "pings.cooldown"
  | .pingsPublic => "pings.public"
  | .connectionBackend => "ai.connection.backend"
  | .connectionBaseUrl => "ai.connection.base_url"
  | .connectionModel => "ai.connection.model"
  | .connectionTimeout => "ai.connection.timeout"
  | .connectionReasoningEffort => "ai.connection.reasoning_effort"
  | .connectionServiceTier => "ai.connection.service_tier"
  | .behaviorMaxTurnRounds => "ai.behavior.max_turn_rounds"
  | .behaviorMaxWritesPerTurn => "ai.behavior.max_writes_per_turn"
  | .behaviorPersonaName => "ai.behavior.persona_name"
  | .historyLength => "ai.history.length"
  | .historyAiChannelLength => "ai.history.ai_channel_length"
  | .memorySoulBytes => "ai.memory.soul_bytes"
  | .memoryLoreBytes => "ai.memory.lore_bytes"
  | .memoryUserBytes => "ai.memory.user_bytes"
  | .memoryStateBytes => "ai.memory.state_bytes"
  | .memoryInjectByteBudget => "ai.memory.inject_byte_budget"
  | .memoryMaxStateFiles => "ai.memory.max_state_files"
  | .dreamerEnabled => "ai.dreamer.enabled"
  | .dreamerModel => "ai.dreamer.model"
  | .dreamerReasoningEffort => "ai.dreamer.reasoning_effort"
  | .dreamerServiceTier => "ai.dreamer.service_tier"
  | .dreamerRunAt => "ai.dreamer.run_at"
  | .dreamerTimeoutSecs => "ai.dreamer.timeout_secs"
  | .dreamerMaxRounds => "ai.dreamer.max_rounds"
  | .dreamerMaxWritesPerTurn => "ai.dreamer.max_writes_per_turn"
  | .prefillEnabled => "ai.prefill"
  | .prefillBaseUrl => "ai.prefill.base_url"
  | .prefillThreshold => "ai.prefill.threshold"
  | .aiWebEnabled => "ai.web"
  | .aiWebBaseUrl => "ai.web.base_url"
  | .aiWebTimeout => "ai.web.timeout"
  | .aiWebMaxResults => "ai.web.max_results"
  | .aiWebMaxRounds => "ai.web.max_rounds"
  | .aiWebCacheTtlSecs => "ai.web.cache_ttl_secs"
  | .aiWebCacheCapacity => "ai.web.cache_capacity"
  | .emotesEnabled => "ai.emotes"
  | .emotesIncludeGlobal => "ai.emotes.include_global"
  | .emotesRefreshIntervalSecs => "ai.emotes.refresh_interval_secs"
  | .emotesMaxPromptEmotes => "ai.emotes.max_prompt_emotes"
  | .emotesMinBaselineEmotes => "ai.emotes.min_baseline_emotes"
  | .emotesPinnedEmotes => "ai.emotes.pinned_emotes"
  | .emotesBaseUrl => "ai.emotes.base_url"
  | .mediaModel => "ai.media.model"
  | .mediaTimeout => "ai.media.timeout"
  | .mediaMaxImageSize => "ai.media.max_image_size"
  | .mediaMaxPdfSize => "ai.media.max_pdf_size"
  | .mediaMaxAudioSize => "ai.media.max_audio_size"
  | .mediaMaxVideoSize => "ai.media.max_video_size"
  | .mediaMaxTextSize => "ai.media.max_text_size"
  | .twitchExpectedLatency => "twitch.expected_latency"
  | .twitchHiddenAdmins => "twitch.hidden_admins"
  | .twitchViewerAllowlist => "twitch.viewer_allowlist"
  | .twitchAdminChannel => "twitch.admin_channel"
  | .twitchAiChannel => "twitch.ai_channel"
  | .aviationstackEnabled => "aviationstack.enabled"
  | .aviationstackBaseUrl => "aviationstack.base_url"
  | .aviationstackTimeoutSecs => "aviationstack.timeout_secs"
  | .suspendDefaultDurationSecs => "suspend.default_duration_secs"
  | .webRuntimeSessionTtlSecs => "web.session_ttl_secs"
  | .webRuntimeModCheckRefreshSecs => "web.mod_check_refresh_secs"
  | .schedules => "schedules"

/-- The leaves other than the schedules, in the order in which they are compared. -/
def Leaf.all : List Leaf :=
  [.cooldownsAi, .cooldownsNews, .cooldownsUp, .cooldownsFeedback, .cooldownsDoener,
   .pingsCooldown, .pingsPublic,
   .connectionBackend, .connectionBaseUrl, .connectionModel, .connectionTimeout, .connectionReasoningEffort,
   .connectionServiceTier,
   .behaviorMaxTurnRounds, .behaviorMaxWritesPerTurn, .behaviorPersonaName,
   .historyLength, .historyAiChannelLength,
   .memorySoulBytes, .memoryLoreBytes, .memoryUserBytes, .memoryStateBytes, .memoryInjectByteBudget,
   .memoryMaxStateFiles,
   .dreamerEnabled, .dreamerModel, .dreamerReasoningEffort, .dreamerServiceTier, .dreamerRunAt, .dreamerTimeoutSecs,
   .dreamerMaxRounds, .dreamerMaxWritesPerTurn,
   .prefillEnabled, .prefillBaseUrl, .prefillThreshold,
   .aiWebEnabled, .aiWebBaseUrl, .aiWebTimeout, .aiWebMaxResults, .aiWebMaxRounds, .aiWebCacheTtlSecs,
   .aiWebCacheCapacity,
   .emotesEnabled, .emotesIncludeGlobal, .emotesRefreshIntervalSecs, .emotesMaxPromptEmotes,
   .emotesMinBaselineEmotes, .emotesPinnedEmotes, .emotesBaseUrl,
   .mediaModel, .mediaTimeout, .mediaMaxImageSize, .mediaMaxPdfSize, .mediaMaxAudioSize, .mediaMaxVideoSize,
   .mediaMaxTextSize,
   .twitchExpectedLatency, .twitchHiddenAdmins, .twitchViewerAllowlist, .twitchAdminChannel, .twitchAiChannel,
   .aviationstackEnabled, .aviationstackBaseUrl, .aviationstackTimeoutSecs,
   .suspendDefaultDurationSecs,
   .webRuntimeSessionTtlSecs, .webRuntimeModCheckRefreshSecs]

instance decEqVal : (k : Kind) → DecidableEq k.Val
  | .u64 => inferInstanceAs (DecidableEq UInt64)
  | .u32 => inferInstanceAs (DecidableEq UInt32)
  | .bool => inferInstanceAs (DecidableEq Bool)
  | .float => inferInstanceAs (DecidableEq F64)
  | .text => inferInstanceAs (DecidableEq String)
  | .optText => inferInstanceAs (DecidableEq (Option String))
  | .texts => inferInstanceAs (DecidableEq (List String))
  | .backend => inferInstanceAs (DecidableEq AiBackendKind)
  | .bytes => inferInstanceAs (DecidableEq ByteSize)
  | .schedules => inferInstanceAs (DecidableEq (List Schedules.Schedule))

/-- A value in a change. Schedules are logged one by one. -/
def Kind.value : (k : Kind) → k.Val → Value
  | .u64, v => .u64 v
  | .u32, v => .u32 v
  | .bool, v => .bool v
  | .float, v => .float v
  | .text, v => .text v
  | .optText, v => .optText v
  | .texts, v => .texts v
  | .backend, v => .backend v
  | .bytes, v => .bytes v
  | .schedules, _ => .schedule none

/-- A card in a change. -/
def Card.value (s : Settings) : Card → Value
  | .prefill => .prefill s.ai.prefill
  | .web => .web s.ai.web
  | .emotes => .emotes s.ai.emotes

/-- The card that a leaf turns on and off. -/
def Leaf.toggles : Leaf → Option Card
  | .prefillEnabled => some .prefill
  | .aiWebEnabled => some .web
  | .emotesEnabled => some .emotes
  | _ => none

/-- What a change of a leaf holds. -/
def Leaf.value (s : Settings) (l : Leaf) (v : l.Val) : Value :=
  match l.toggles with
  | some card => card.value s
  | none => l.kind.value v

/-- The change of a leaf, if there is one. -/
def Leaf.change (prior next : Settings) (l : Leaf) : List AuditChange :=
  match l.read prior, l.read next with
  | some p, some n => if p ≠ n then [⟨l.key, l.value prior p, l.value next n⟩] else []
  | _, _ => []

/-! ## The diff -/

/-- The changes of the prefill are those of its leaves. -/
theorem diffPrefill_eq (prior next : Settings) : cmpCard "ai.prefill" .prefill diffPrefill prior.ai.prefill next.ai.prefill =
    [Leaf.prefillEnabled, .prefillBaseUrl, .prefillThreshold].flatMap (Leaf.change prior next) := by
  simp only [List.flatMap_cons, List.flatMap_nil, List.append_nil, Leaf.change, Leaf.read, Leaf.value, Leaf.toggles, Card.value]
  cases prior.ai.prefill <;> cases next.ai.prefill <;> rfl

/-- The changes of the web tools are. -/
theorem diffWeb_eq (prior next : Settings) : cmpCard "ai.web" .web diffWeb prior.ai.web next.ai.web =
    [Leaf.aiWebEnabled, .aiWebBaseUrl, .aiWebTimeout, .aiWebMaxResults, .aiWebMaxRounds, .aiWebCacheTtlSecs,
      .aiWebCacheCapacity].flatMap (Leaf.change prior next) := by
  simp only [List.flatMap_cons, List.flatMap_nil, List.append_nil, Leaf.change, Leaf.read, Leaf.value, Leaf.toggles, Card.value]
  cases prior.ai.web <;> cases next.ai.web <;> first
    | rfl
    | (simp only [cmpCard, diffWeb, List.append_assoc]; rfl)

/-- The changes of the emotes are. -/
theorem diffEmotes_eq (prior next : Settings) : cmpCard "ai.emotes" .emotes diffEmotes prior.ai.emotes next.ai.emotes =
    [Leaf.emotesEnabled, .emotesIncludeGlobal, .emotesRefreshIntervalSecs, .emotesMaxPromptEmotes, .emotesMinBaselineEmotes,
      .emotesPinnedEmotes, .emotesBaseUrl].flatMap (Leaf.change prior next) := by
  simp only [List.flatMap_cons, List.flatMap_nil, List.append_nil, Leaf.change, Leaf.read, Leaf.value, Leaf.toggles, Card.value]
  cases prior.ai.emotes <;> cases next.ai.emotes <;> first
    | rfl
    | (simp only [cmpCard, diffEmotes, List.append_assoc]; rfl)

/-- The diff is the changes of the leaves, and then those of the schedules. -/
theorem diffChanges_eq (prior next : Settings) : diffChanges prior next =
    Leaf.all.flatMap (Leaf.change prior next) ++ diffSchedules prior.schedules next.schedules := by
  unfold diffChanges
  simp only [Leaf.all, diffPrefill_eq, diffWeb_eq, diffEmotes_eq, diffCooldowns, diffPings,
    diffConnection, diffBehavior, diffHistory, diffMemory, diffDreamer, diffMedia, diffTwitch, diffAviationstack, diffSuspend,
    diffWebRuntime, List.flatMap_cons, List.flatMap_nil, List.append_nil, List.append_assoc]
  rfl

variable {prior next : Settings}

/-! ## Changes of leaves -/

/-- Every leaf but the schedules is compared. -/
theorem mem_all {l : Leaf} (h : l ≠ .schedules) : l ∈ Leaf.all := by
  cases l <;> first
    | exact absurd rfl h
    | exact of_decide_eq_true rfl

/-- The schedules are not. -/
theorem ne_schedules_of_mem_all {l : Leaf} (h : l ∈ Leaf.all) : l ≠ .schedules := by
  rintro rfl
  exact absurd h (by decide)

/-- A change of a leaf has its key and both of its values. -/
theorem mem_change {l : Leaf} {c : AuditChange} : c ∈ l.change prior next ↔
    ∃ v w, l.read prior = some v ∧ l.read next = some w ∧ v ≠ w ∧ c = ⟨l.key, l.value prior v, l.value next w⟩ := by
  unfold Leaf.change
  cases hv : l.read prior with
  | none => simp
  | some v =>
    cases hw : l.read next with
    | none => simp
    | some w =>
      by_cases h : v = w <;> simp [h]

/-- A leaf has no change when it is the same wherever both are shown. -/
theorem change_eq_nil_iff {l : Leaf} : l.change prior next = [] ↔
    ∀ v w, l.read prior = some v → l.read next = some w → v = w := by
  rw [List.eq_nil_iff_forall_not_mem]
  constructor
  · intro h v w hv hw
    by_contra hne
    exact h _ (mem_change.mpr ⟨v, w, hv, hw, hne, rfl⟩)
  · intro h c hc
    obtain ⟨v, w, hv, hw, hne, -⟩ := mem_change.mp hc
    exact hne (h v w hv hw)

/-- A toggle can always be read. -/
theorem isSome_toggle (s : Settings) (card : Card) : (card.toggle.read s).isSome = true := by
  cases card <;> rfl

/-- Leaves without a change are the same: where the toggle of a card is the same, its fields are there in both or in none. -/
theorem read_eq_of_changes_nil (h : ∀ l ∈ Leaf.all, l.change prior next = []) {l : Leaf} (hl : l ≠ .schedules) :
    l.read prior = l.read next := by
  have hboth : ∀ l : Leaf, l ≠ .schedules → (l.read prior).isSome = (l.read next).isSome → l.read prior = l.read next := by
    intro l hl hsome
    cases hv : l.read prior with
    | none =>
      rw [hv, Option.isSome_none, eq_comm, Option.isSome_eq_false_iff, Option.isNone_iff_eq_none] at hsome
      rw [hsome]
    | some v =>
      rw [hv, Option.isSome_some, eq_comm, Option.isSome_iff_exists] at hsome
      obtain ⟨w, hw⟩ := hsome
      rw [hw, change_eq_nil_iff.mp (h l (mem_all hl)) v w hv hw]
  refine hboth l hl ?_
  rw [isSome_read, isSome_read, Leaf.shown, Leaf.shown]
  cases hcard : l.card with
  | none => rfl
  | some card =>
    have htoggle : card.toggle.read prior = card.toggle.read next := by
      refine hboth card.toggle (by cases card <;> decide) ?_
      rw [isSome_toggle, isSome_toggle]
    exact congrArg (decide (l = card.toggle) || ·) (isOn_eq_of_read htoggle)

/-- The other leaves do not depend on the schedules. -/
theorem read_schedules_nil (s : Settings) {l : Leaf} (hl : l ≠ .schedules) :
    l.read { s with schedules := [] } = l.read s := by
  cases l <;> first
    | exact absurd rfl hl
    | rfl

/-- Settings of one version are the same but for the schedules when the other leaves are. -/
theorem ext_read_schedules (hversion : prior.schemaVersion = next.schemaVersion)
    (h : ∀ l : Leaf, l ≠ .schedules → l.read prior = l.read next) :
    { prior with schedules := [] } = { next with schedules := [] } := by
  refine Settings.ext_read hversion fun l => ?_
  by_cases hl : l = .schedules
  · rw [hl]
    rfl
  · rw [read_schedules_nil prior hl, read_schedules_nil next hl, h l hl]

/-- Without a change, settings are the same but for their schedules. -/
theorem changes_eq_nil_iff (hversion : prior.schemaVersion = next.schemaVersion) :
    Leaf.all.flatMap (Leaf.change prior next) = [] ↔ { prior with schedules := [] } = { next with schedules := [] } := by
  rw [List.flatMap_eq_nil_iff]
  constructor
  · intro h
    exact ext_read_schedules hversion fun l hl => read_eq_of_changes_nil h hl
  · intro h l hl
    have hne := ne_schedules_of_mem_all hl
    refine change_eq_nil_iff.mpr fun v w hv hw => ?_
    rw [← read_schedules_nil prior hne, h, read_schedules_nil next hne, hw] at hv
    exact (Option.some.inj hv).symm

/-! ## Schedules -/

/-- The key under which a schedule is logged. -/
def scheduleKey (name : String) : String := s!"schedules.{name}"

/-- A schedule is found under its name. -/
theorem byName_eq_some_iff {l : List Schedule} (h : (l.map (·.name)).Nodup) {name : String} {s : Schedule} :
    byName l name = some s ↔ s ∈ l ∧ s.name = name := by
  rw [← List.mem_reverse]
  refine Keyed.find?_eq_some_iff ?_
  rwa [List.map_reverse, List.nodup_reverse]

/-- Under another name, none is. -/
theorem byName_eq_none {l : List Schedule} {name : String} (h : name ∉ l.map (·.name)) : byName l name = none := by
  refine List.find?_eq_none.mpr fun s hs hname => h ?_
  exact (of_decide_eq_true hname) ▸ List.mem_map_of_mem (List.mem_reverse.mp hs)

/-- A schedule is logged when the other list has another one of its name, or none. -/
theorem mem_diffSchedules {p n : List Schedule} {c : AuditChange} : c ∈ diffSchedules p n ↔
    ∃ name, byName p name ≠ byName n name ∧
      c = ⟨scheduleKey name, .schedule (byName p name), .schedule (byName n name)⟩ := by
  have hnames : ∀ name, byName p name ≠ byName n name → name ∈ ((p ++ n).map (·.name)).dedup := by
    intro name hne
    rw [List.mem_dedup]
    by_contra hname
    rw [List.map_append, List.mem_append, not_or] at hname
    exact hne ((byName_eq_none hname.1).trans (byName_eq_none hname.2).symm)
  simp only [diffSchedules, cmp, List.mem_flatten, List.mem_map, List.mem_mergeSort]
  constructor
  · rintro ⟨-, ⟨name, -, rfl⟩, hc⟩
    split at hc
    · rename_i hne
      exact ⟨name, hne, List.mem_singleton.mp hc⟩
    · exact absurd hc List.not_mem_nil
  · rintro ⟨name, hne, rfl⟩
    refine ⟨_, ⟨name, hnames name hne, rfl⟩, ?_⟩
    rw [if_pos hne]
    exact List.mem_singleton_self _

/-- Schedules of distinct names have no difference exactly when they are the same in some order. -/
theorem diffSchedules_eq_nil_iff {p n : List Schedule} (hp : (p.map (·.name)).Nodup) (hn : (n.map (·.name)).Nodup) :
    diffSchedules p n = [] ↔ p.Perm n := by
  have hall : diffSchedules p n = [] ↔ ∀ name, byName p name = byName n name := by
    rw [List.eq_nil_iff_forall_not_mem]
    constructor
    · intro h name
      by_contra hne
      exact h _ (mem_diffSchedules.mpr ⟨name, hne, rfl⟩)
    · intro h c hc
      obtain ⟨name, hne, -⟩ := mem_diffSchedules.mp hc
      exact hne (h name)
  rw [hall, List.perm_ext_iff_of_nodup (List.Nodup.of_map _ hp) (List.Nodup.of_map _ hn)]
  constructor
  · intro h s
    have hs : (s ∈ p ∧ s.name = s.name) ↔ s ∈ n ∧ s.name = s.name := by
      rw [← byName_eq_some_iff hp, ← byName_eq_some_iff hn, h]
    simpa using hs
  · intro h name
    refine Option.ext fun s => ?_
    rw [byName_eq_some_iff hp, byName_eq_some_iff hn, h]

/-! ## Settings -/

/-- The same settings, but for the order of the schedules. -/
def Settings.SameUpToOrder (p n : Settings) : Prop :=
  { p with schedules := [] } = { n with schedules := [] } ∧ p.schedules.Perm n.schedules

/-- Settings of one schema version and distinct names have no difference exactly when they are the same up to order. -/
theorem diffChanges_eq_nil_iff {p n : Settings} (hversion : p.schemaVersion = n.schemaVersion)
    (hp : (p.schedules.map (·.name)).Nodup) (hn : (n.schedules.map (·.name)).Nodup) :
    diffChanges p n = [] ↔ p.SameUpToOrder n := by
  rw [diffChanges_eq, List.append_eq_nil_iff, changes_eq_nil_iff hversion, diffSchedules_eq_nil_iff hp hn,
    Settings.SameUpToOrder]

/-- Settings have no difference to themselves. -/
theorem diffChanges_self (s : Settings) : diffChanges s s = [] := by
  rw [diffChanges_eq, List.append_eq_nil_iff, List.flatMap_eq_nil_iff]
  refine ⟨fun l _ => List.eq_nil_iff_forall_not_mem.mpr fun c hc => ?_, List.eq_nil_iff_forall_not_mem.mpr fun c hc => ?_⟩
  · obtain ⟨v, w, hv, hw, hne, -⟩ := mem_change.mp hc
    exact hne (Option.some.inj (hv.symm.trans hw))
  · obtain ⟨name, hne, -⟩ := mem_diffSchedules.mp hc
    exact hne rfl

/-! ## Keys are distinct -/

/-- The keys of leaves are compared from their ends, where they differ early. -/
theorem nodup_keys : (Leaf.all.map Leaf.key).Nodup := by
  refine List.Nodup.of_map (fun key : String => key.toByteArray.data.toList.reverse) ?_
  rw [List.map_map]
  decide +kernel

/-- Leaves have different keys. -/
theorem key_inj {l l' : Leaf} (h : l ∈ Leaf.all) (h' : l' ∈ Leaf.all) (heq : l.key = l'.key) : l = l' :=
  List.inj_on_of_nodup_map nodup_keys h h' heq

/-- No leaf has the key of a schedule. -/
theorem key_ne_scheduleKey {l : Leaf} (h : l ∈ Leaf.all) (name : String) : l.key ≠ scheduleKey name := by
  have hall : ∀ l ∈ Leaf.all, l.key.toByteArray.data.toList.take 10 ≠ "schedules.".toByteArray.data.toList := by
    decide +kernel
  intro heq
  refine hall l h ?_
  have hkey : scheduleKey name = "schedules." ++ name := rfl
  rw [heq, hkey, String.toByteArray_append, ByteArray.data_append, Array.toList_append]
  exact List.take_left' (by decide +kernel)

/-- Schedules of different names have different keys. -/
theorem scheduleKey_inj {name name' : String} (h : scheduleKey name = scheduleKey name') : name = name' :=
  (String.append_right_inj "schedules.").mp h

end Twitch1337.Dashboard
