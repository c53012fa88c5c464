import Twitch1337.Bot.AiCommand
import Twitch1337.Theorems.Settings

/-!
# The restart notice

A turn reads some settings from those in force and has the others from the start of the bot. Two bots make the same turns
exactly when they have kept the same from their start, and the notice names some of what is kept, not all.
-/

namespace Twitch1337.Assistant

open Dashboard SevenTv

/-! ## What a turn shows of its command -/

theorem chatContext_eq_of_turn {cc cc' : Option ChatContext} {n : UInt64}
    (hprimary : cc.map (·.primaryLogin) = cc'.map (·.primaryLogin))
    (hlogin : cc.bind (·.aiChannelLogin) = cc'.bind (·.aiChannelLogin))
    (hbuffer : (cc.bind fun c => if c.aiChannelHistory then some n else none) =
      cc'.bind fun c => if c.aiChannelHistory then some n else none) : cc = cc' := by
  cases cc with
  | none =>
    cases cc' with
    | none => rfl
    | some c' => cases hprimary
  | some c =>
    cases cc' with
    | none => cases hprimary
    | some c' =>
      obtain ⟨primary, buffer, login⟩ := c
      obtain ⟨primary', buffer', login'⟩ := c'
      simp only [Option.map_some, Option.some.injEq] at hprimary
      simp only [Option.bind_some] at hlogin hbuffer
      subst hprimary
      subst hlogin
      cases buffer with
      | true =>
        cases buffer' with
        | true => rfl
        | false => cases hbuffer
      | false =>
        cases buffer' with
        | true => cases hbuffer
        | false => rfl

/-- Commands that make the same turn under the same settings are the same. -/
theorem turn_injective {cmd cmd' : AiCommand} {s : Settings} {grokAlias : Bool}
    (h : cmd.turn s grokAlias = cmd'.turn s grokAlias) : cmd = cmd' := by
  have hllm : cmd.llmClient = cmd'.llmClient := congrArg TurnConfig.llmClient h
  have hmemory : cmd.memory = cmd'.memory := congrArg TurnConfig.memory h
  have hchat : cmd.chatCtx = cmd'.chatCtx :=
    chatContext_eq_of_turn (congrArg TurnConfig.primaryLogin h) (congrArg TurnConfig.aiChannelLogin h)
      (congrArg TurnConfig.aiChannelHistory h)
  have hweb : cmd.web = cmd'.web := by
    refine Option.map_injective ?_ (congrArg TurnConfig.web h)
    intro a b hab
    exact congrArg WebConfig.executor hab
  have hemotes : cmd.emotes = cmd'.emotes := by
    refine Option.map_injective ?_ (congrArg TurnConfig.emotes h)
    intro a b hab
    exact congrArg EmoteConfig.provider hab
  cases cmd
  cases cmd'
  simp only at hllm hmemory hchat hweb hemotes
  subst hllm hmemory hchat hweb hemotes
  rfl

/-! ## What the start keeps -/

/-- What the start keeps of the web. -/
def capturedWeb (ai : AiSettings) : Option (String × UInt64 × UInt64 × UInt64 × String × UInt64) :=
  ai.web.map fun w => (w.baseUrl, w.timeout, w.cacheTtlSecs, w.cacheCapacity, ai.media.model, ai.media.timeout)

/-- What the start keeps of the buffers. -/
def capturedBuffers (s : Settings) : Option (Option String × Bool) :=
  if 0 < s.ai.history.length then some (s.twitch.aiChannel, s.twitch.aiChannel.isSome && 0 < s.ai.history.aiChannelLength)
  else none

/-- Settings that agree on what the start keeps without giving notice. -/
structure CapturedAgree (before after : Settings) : Prop where
  injectByteBudget : before.ai.memory.injectByteBudget = after.ai.memory.injectByteBudget
  maxTurnRounds : before.ai.behavior.maxTurnRounds = after.ai.behavior.maxTurnRounds
  maxWritesPerTurn : before.ai.behavior.maxWritesPerTurn = after.ai.behavior.maxWritesPerTurn
  turnTimeout : before.ai.connection.timeout = after.ai.connection.timeout
  web : capturedWeb before.ai = capturedWeb after.ai
  emotes : before.ai.emotes.map baseUrlOf = after.ai.emotes.map baseUrlOf
  buffers : capturedBuffers before = capturedBuffers after

theorem noticeIf_eq_nil_iff {changed : Bool} {field : String} : noticeIf changed field = [] ↔ changed = false := by
  cases changed <;> simp [noticeIf]

/-- Without a notice, the model is asked in the same way. -/
theorem connection_of_restartRequired {before after : AiSettings} (h : restartRequired before after = []) :
    before.connection.backend = after.connection.backend ∧ before.connection.baseUrl = after.connection.baseUrl := by
  unfold restartRequired at h
  simp only [List.append_eq_nil_iff, noticeIf_eq_nil_iff, decide_eq_false_iff_not, ne_eq, not_not] at h
  exact ⟨h.1.1.1.1.1, h.1.1.1.1.2⟩

/-- The search client of settings that pass the check can be built. -/
theorem contentToolExecutor_of_valid {L : Libs} {ai : AiSettings} (h : validateWeb L ai.web = []) :
    contentToolExecutor L ai =
      ai.web.map fun w => ⟨⟨w.baseUrl, w.timeout⟩, mediaClient ai, w.cacheTtlSecs, w.cacheCapacity⟩ := by
  unfold contentToolExecutor
  cases hweb : ai.web with
  | none => rfl
  | some w =>
    have hurl : L.parsesUrl w.baseUrl = true := by
      rw [hweb] at h
      simp only [validateWeb, validUrl, List.append_eq_nil_iff, errorIf_eq_nil_iff, Bool.not_eq_false'] at h
      exact h.1.1.1
    simp [searchClient, hurl]

theorem start_eq_none {host : Host} {L : Libs} {s : Settings} (h : host.offersAi s.ai.connection.backend = false) :
    AiCommand.start host L s = none := by
  simp [AiCommand.start, buildLlmClient, h]

/-- The command of a bot that has an AI to ask. -/
theorem start_eq_some {host : Host} {L : Libs} {s : Settings} (h : host.offersAi s.ai.connection.backend = true)
    (hweb : validateWeb L s.ai.web = []) :
    AiCommand.start host L s = some
      { llmClient :=
          ⟨s.ai.connection.backend,
            RustStr.trimEndMatches (· == '/') (s.ai.connection.baseUrl.getD (llmDefaultBaseUrl s.ai.connection.backend))⟩
        chatCtx := (capturedBuffers s).map fun b => ⟨host.channel, b.2, b.1⟩
        memory :=
          ⟨s.ai.memory.injectByteBudget, s.ai.behavior.maxTurnRounds, s.ai.behavior.maxWritesPerTurn,
            s.ai.connection.timeout⟩
        web := s.ai.web.map fun w => ⟨⟨w.baseUrl, w.timeout⟩, mediaClient s.ai, w.cacheTtlSecs, w.cacheCapacity⟩
        emotes := s.ai.emotes.map fun cfg => .new cfg host.glossary } := by
  have hai : host.aiBootstrap = true := ((Bool.and_eq_true _ _).mp h).1
  have hchat : chatContext host s = (capturedBuffers s).map fun b => ⟨host.channel, b.2, b.1⟩ := by
    by_cases hlength : 0 < s.ai.history.length
    · simp [chatContext, primaryHistory, aiChannelHistory, buildLlmClient, h, capturedBuffers, hlength]
    · simp [chatContext, primaryHistory, buildLlmClient, h, capturedBuffers, hlength]
  simp only [AiCommand.start, buildLlmClient, h, if_true, buildAiMemoryV2, hai, hchat, emoteProvider, Option.isSome_some,
    contentToolExecutor_of_valid hweb]

/-! ## Two bots -/

variable {host : Host} {L : Libs} {before after : Settings}

/-- The part of the web is told by what the start keeps of it and by the address of the media. -/
theorem web_eq_iff (hmedia : (mediaClient before.ai).baseUrl = (mediaClient after.ai).baseUrl) :
    (before.ai.web.map fun w => ContentToolExecutor.mk ⟨w.baseUrl, w.timeout⟩ (mediaClient before.ai) w.cacheTtlSecs
        w.cacheCapacity) =
      (after.ai.web.map fun w => ⟨⟨w.baseUrl, w.timeout⟩, mediaClient after.ai, w.cacheTtlSecs, w.cacheCapacity⟩) ↔
      capturedWeb before.ai = capturedWeb after.ai := by
  constructor
  · intro h
    have hkept := congrArg (Option.map fun x : ContentToolExecutor =>
      (x.client.baseUrl, x.client.timeout, x.cacheTtl, x.cacheCapacity, x.media.model, x.media.timeout)) h
    rw [Option.map_map, Option.map_map] at hkept
    exact hkept
  · intro h
    have hbuilt := congrArg (Option.map fun k : String × UInt64 × UInt64 × UInt64 × String × UInt64 =>
      ContentToolExecutor.mk ⟨k.1, k.2.1⟩ ⟨(mediaClient before.ai).baseUrl, k.2.2.2.2.1, k.2.2.2.2.2⟩ k.2.2.1 k.2.2.2.1) h
    rw [capturedWeb, capturedWeb, Option.map_map, Option.map_map] at hbuilt
    refine hbuilt.trans ?_
    rw [hmedia]
    rfl

theorem emotes_eq_iff :
    (before.ai.emotes.map fun cfg => Provider.new cfg host.glossary) =
      (after.ai.emotes.map fun cfg => Provider.new cfg host.glossary) ↔
      before.ai.emotes.map baseUrlOf = after.ai.emotes.map baseUrlOf := by
  constructor
  · intro h
    have hkept := congrArg (Option.map Provider.baseUrl) h
    rw [Option.map_map, Option.map_map] at hkept
    exact hkept
  · intro h
    have hbuilt := congrArg (Option.map fun url => Provider.mk url host.glossary) h
    rw [Option.map_map, Option.map_map] at hbuilt
    exact hbuilt

theorem chatCtx_eq_iff :
    ((capturedBuffers before).map fun b => ChatContext.mk host.channel b.2 b.1) =
      ((capturedBuffers after).map fun b => ChatContext.mk host.channel b.2 b.1) ↔
      capturedBuffers before = capturedBuffers after := by
  refine (Option.map_injective fun a b hab => ?_).eq_iff
  obtain ⟨login, buffer⟩ := a
  obtain ⟨login', buffer'⟩ := b
  simp only [ChatContext.mk.injEq, true_and] at hab
  rw [hab.1, hab.2]

/-- Bots that ask the same model start with the same command exactly when they keep the same. -/
theorem start_eq_iff (hai : host.offersAi before.ai.connection.backend = true)
    (hbackend : before.ai.connection.backend = after.ai.connection.backend)
    (hurl : before.ai.connection.baseUrl = after.ai.connection.baseUrl) (hweb : validateWeb L before.ai.web = [])
    (hweb' : validateWeb L after.ai.web = []) :
    AiCommand.start host L before = AiCommand.start host L after ↔ CapturedAgree before after := by
  have hmedia : (mediaClient before.ai).baseUrl = (mediaClient after.ai).baseUrl := by
    simp only [mediaClient, hbackend, hurl]
  rw [start_eq_some hai hweb, start_eq_some (hbackend ▸ hai) hweb', Option.some.injEq, AiCommand.mk.injEq,
    web_eq_iff hmedia, emotes_eq_iff, chatCtx_eq_iff, AiMemoryV2.mk.injEq, hbackend, hurl]
  constructor
  · intro ⟨_, hbuffers, ⟨hbudget, hrounds, hwrites, htimeout⟩, hweb, hemotes⟩
    exact ⟨hbudget, hrounds, hwrites, htimeout, hweb, hemotes, hbuffers⟩
  · intro h
    exact ⟨rfl, h.buffers, ⟨h.injectByteBudget, h.maxTurnRounds, h.maxWritesPerTurn, h.turnTimeout⟩, h.web, h.emotes⟩

/-- A bot that was started with `before` and runs under `after` makes the turns of one that was started with `after`. -/
def SameTurns (host : Host) (L : Libs) (before after : Settings) : Prop :=
  ∀ grokAlias, (AiCommand.start host L before).map (·.turn after grokAlias) =
    (AiCommand.start host L after).map (·.turn after grokAlias)

theorem sameTurns_iff : SameTurns host L before after ↔ AiCommand.start host L before = AiCommand.start host L after := by
  constructor
  · intro h
    exact Option.map_injective (fun _ _ hturn => turn_injective hturn) (h false)
  · intro h grokAlias
    rw [h]

/-- For a change that gives no notice, the turns are those of a restarted bot exactly when there is no AI to ask, or the
settings agree on the rest of what the start keeps. -/
theorem notice_complete_iff (host : Host) (L : Libs) (channel : String) (before after : Settings)
    (hbefore : before.validate L channel = .ok ()) (hafter : after.validate L channel = .ok ())
    (hnotice : restartRequired before.ai after.ai = []) :
    SameTurns host L before after ↔
      (host.offersAi before.ai.connection.backend = true → CapturedAgree before after) := by
  obtain ⟨hbackend, hurl⟩ := connection_of_restartRequired hnotice
  rw [sameTurns_iff]
  cases hai : host.offersAi before.ai.connection.backend with
  | true =>
    rw [start_eq_iff hai hbackend hurl (Settings.validate_ok_iff.mp hbefore).aiWeb
      (Settings.validate_ok_iff.mp hafter).aiWeb]
    simp
  | false => simp [start_eq_none hai, start_eq_none (hbackend ▸ hai)]

/-! ## Two saves -/

/-- A bot that can build every client. -/
def plainHost : Host := ⟨true, fun _ => true, "chat", []⟩

/-- The defaults with another model. -/
def withModel (model : String) : Settings :=
  { Settings.compiledDefaults with
    ai := { Settings.compiledDefaults.ai with connection := { Settings.compiledDefaults.ai.connection with model } } }

/-- The defaults with another limit of rounds. -/
def withRounds (maxTurnRounds : UInt64) : Settings :=
  { Settings.compiledDefaults with
    ai := { Settings.compiledDefaults.ai with behavior := { Settings.compiledDefaults.ai.behavior with maxTurnRounds } } }

theorem validate_compiledDefaults : Settings.compiledDefaults.validate plainLibs "chat" = .ok () :=
  Settings.validate_ok_iff.mpr (Settings.valid_compiledDefaults (by decide))

/-- Another model is used at once. -/
theorem notice_complete_model : SameTurns plainHost plainLibs Settings.compiledDefaults (withModel "gpt-5") := by
  have hdefaults : Settings.compiledDefaults.Valid plainLibs "chat" := Settings.valid_compiledDefaults (by decide)
  have hvalid : (withModel "gpt-5").validate plainLibs "chat" = .ok () :=
    Settings.validate_ok_iff.mpr { hdefaults with connection := rfl }
  refine (notice_complete_iff plainHost plainLibs "chat" _ _ validate_compiledDefaults hvalid (by decide)).mpr ?_
  intro _
  exact ⟨rfl, rfl, rfl, rfl, rfl, rfl, rfl⟩

/-- Another limit of rounds gives no notice and is not used. -/
theorem rounds_without_notice :
    Settings.compiledDefaults.validate plainLibs "chat" = .ok () ∧ (withRounds 8).validate plainLibs "chat" = .ok () ∧
      restartRequired Settings.compiledDefaults.ai (withRounds 8).ai = [] ∧
      ((AiCommand.start plainHost plainLibs Settings.compiledDefaults).map
        fun cmd => (cmd.turn (withRounds 8) false).memory.maxTurnRounds) = some 4 ∧
      ((AiCommand.start plainHost plainLibs (withRounds 8)).map
        fun cmd => (cmd.turn (withRounds 8) false).memory.maxTurnRounds) = some 8 ∧
      ¬ SameTurns plainHost plainLibs Settings.compiledDefaults (withRounds 8) := by
  have hdefaults : Settings.compiledDefaults.Valid plainLibs "chat" := Settings.valid_compiledDefaults (by decide)
  have hvalid : (withRounds 8).validate plainLibs "chat" = .ok () :=
    Settings.validate_ok_iff.mpr { hdefaults with behavior := by decide +kernel }
  refine ⟨validate_compiledDefaults, hvalid, by decide, rfl, rfl, fun h => ?_⟩
  have hrounds := congrArg (Option.map fun t : TurnConfig => t.memory.maxTurnRounds) (h false)
  revert hrounds
  decide

end Twitch1337.Assistant
