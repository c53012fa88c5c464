import Twitch1337.Bot.SevenTv
import Twitch1337.Memory.Types
import Twitch1337.Settings.Validation

/-!
# The AI command

`llm_factory.rs`, `build_ai_memory_v2` and `AiCommand` of `ai/command.rs`, the start of the handlers in `lib.rs` and
`twitch/handlers/commands.rs`, and `restart_required` of the dashboard: what the command keeps from the settings it was built
with, what a turn reads from those in force, and of what a save gives notice. Building an HTTP client does not fail.
-/

namespace Twitch1337.Assistant

open Dashboard SevenTv RustStr

/-! ## The parts of the command -/

/-- What the bot is started with besides its settings. -/
structure Host where
  /-- Whether there is an `[ai]` section in the configuration. -/
  aiBootstrap : Bool
  /-- Whether a client of a backend can be built with the key of that section. -/
  llmBuilds : AiBackendKind → Bool
  channel : String
  glossary : List GlossaryEmote

/-- A client of a backend. -/
structure LlmClient where
  backend : AiBackendKind
  baseUrl : String
  deriving DecidableEq

/-- The limits of a turn. -/
structure AiMemoryV2 where
  injectByteBudget : UInt64
  maxTurnRounds : UInt64
  maxWritesPerTurn : UInt64
  turnTimeout : UInt64
  deriving DecidableEq

/-- A client of a search engine. -/
structure SearchClient where
  baseUrl : String
  timeout : UInt64
  deriving DecidableEq

/-- A client that describes media. -/
structure MediaClient where
  baseUrl : String
  model : String
  timeout : UInt64
  deriving DecidableEq

/-- What the web tools run with. -/
structure ContentToolExecutor where
  client : SearchClient
  media : MediaClient
  cacheTtl : UInt64
  cacheCapacity : UInt64
  deriving DecidableEq

/-- The buffers of the chat. The primary one is there whenever this is. -/
structure ChatContext where
  primaryLogin : String
  aiChannelHistory : Bool
  aiChannelLogin : Option String
  deriving DecidableEq

/-- What the command is made of at the start. -/
structure AiCommand where
  llmClient : LlmClient
  chatCtx : Option ChatContext
  memory : AiMemoryV2
  web : Option ContentToolExecutor
  emotes : Option Provider
  deriving DecidableEq

/-! ## The start -/

/-- Where a backend is when no URL is set. -/
def llmDefaultBaseUrl : AiBackendKind → String
  | .openAi => "https://openrouter.ai/api/v1"
  | .ollama => "http://localhost:11434"

/-- Where its media are. -/
def mediaDefaultBaseUrl : AiBackendKind → String
  | .openAi => "https://api.openai.com/v1"
  | .ollama => "http://localhost:11434/v1"

/-- Whether there is an AI to ask: an error of its client switches it off. -/
def Host.offersAi (host : Host) (backend : AiBackendKind) : Bool := host.aiBootstrap && host.llmBuilds backend

/-- The client of the backend that is set, when the host offers it. -/
def buildLlmClient (host : Host) (conn : AiConnection) : Option LlmClient :=
  if host.offersAi conn.backend then
    some ⟨conn.backend, trimEndMatches (· == '/') (conn.baseUrl.getD (llmDefaultBaseUrl conn.backend))⟩
  else none

/-- The limits as they are set at the start. -/
def buildAiMemoryV2 (host : Host) (s : Settings) : Option AiMemoryV2 :=
  if host.aiBootstrap then
    some
      { injectByteBudget := s.ai.memory.injectByteBudget
        maxTurnRounds := s.ai.behavior.maxTurnRounds
        maxWritesPerTurn := s.ai.behavior.maxWritesPerTurn
        turnTimeout := s.ai.connection.timeout }
  else none

/-- Emotes are there when there is a client and their card is on. -/
def emoteProvider (host : Host) (s : Settings) : Option Provider :=
  if (buildLlmClient host s.ai.connection).isSome then s.ai.emotes.map fun cfg => .new cfg host.glossary else none

/-- The search engine, when its URL is one. -/
def searchClient (L : Libs) (webCfg : AiWeb) : Option SearchClient :=
  if L.parsesUrl webCfg.baseUrl then some ⟨webCfg.baseUrl, webCfg.timeout⟩ else none

/-- The media client of a connection. -/
def mediaClient (ai : AiSettings) : MediaClient :=
  ⟨ai.connection.baseUrl.getD (mediaDefaultBaseUrl ai.connection.backend), ai.media.model, ai.media.timeout⟩

/-- Without a search client, there is no web. -/
def contentToolExecutor (L : Libs) (ai : AiSettings) : Option ContentToolExecutor :=
  match ai.web with
  | some webCfg =>
    (searchClient L webCfg).map fun client => ⟨client, mediaClient ai, webCfg.cacheTtlSecs, webCfg.cacheCapacity⟩
  | none => none

/-- Whether the chat is remembered. -/
def primaryHistory (host : Host) (s : Settings) : Bool :=
  (buildLlmClient host s.ai.connection).isSome && 0 < s.ai.history.length

/-- Whether the channel of the AI is. -/
def aiChannelHistory (host : Host) (s : Settings) : Bool :=
  s.twitch.aiChannel.isSome && primaryHistory host s && 0 < s.ai.history.aiChannelLength

/-- What the command is told of the chats. -/
def chatContext (host : Host) (s : Settings) : Option ChatContext :=
  if primaryHistory host s then some ⟨host.channel, aiChannelHistory host s, s.twitch.aiChannel⟩ else none

/-- The command of a bot that is started with these settings. -/
def AiCommand.start (host : Host) (L : Libs) (s : Settings) : Option AiCommand :=
  match buildLlmClient host s.ai.connection, buildAiMemoryV2 host s with
  | some llmClient, some memory =>
    some
      { llmClient, memory
        chatCtx := chatContext host s
        web := contentToolExecutor L s.ai
        emotes := emoteProvider host s }
  | _, _ => none

/-! ## A turn -/

/-- What a prompt of the system can end with. -/
inductive Appendix where
  | emoteTools
  | grok
  | grokWeb
  | webTools
  deriving DecidableEq

/-- What a turn has of the web tools. -/
structure WebConfig where
  executor : ContentToolExecutor
  maxResults : UInt64
  media : AiMedia
  deriving DecidableEq

/-- What it has of the emotes. -/
structure EmoteConfig where
  provider : Provider
  caps : EmotesLiveCaps
  deriving DecidableEq

/-- What a turn runs with. -/
structure TurnConfig where
  llmClient : LlmClient
  cooldown : UInt64
  model : String
  /-- Whether the name of the model is looked up. -/
  isOpenrouter : Bool
  reasoningEffort : Option String
  serviceTier : Option String
  personaName : String
  memory : AiMemoryV2
  caps : Memory.Caps
  /-- The capacities of the buffers that there are. -/
  primaryHistory : Option UInt64
  aiChannelHistory : Option UInt64
  primaryLogin : Option String
  aiChannelLogin : Option String
  web : Option WebConfig
  emotes : Option EmoteConfig
  tools : List String
  appendices : List Appendix
  /-- The number of results of the search that an alias starts with. -/
  forcedSearch : Option UInt64
  deriving DecidableEq

/-- Whether a connection leads to OpenRouter. -/
def isOpenrouter (conn : AiConnection) : Bool :=
  conn.backend == .openAi && conn.baseUrl.all (containsText "openrouter.ai")

/-- The limits of the memory as they are set. -/
def capsFromSettings (s : Settings) : Memory.Caps where
  soulBytes := s.ai.memory.soulBytes.toNat
  loreBytes := s.ai.memory.loreBytes.toNat
  userBytes := s.ai.memory.userBytes.toNat
  stateBytes := s.ai.memory.stateBytes.toNat
  maxStateFiles := s.ai.memory.maxStateFiles.toNat

/-- The default stands in when the web is switched off. -/
def currentMaxResults (s : Settings) : UInt64 := (s.ai.web.map (·.maxResults)).getD 5

def chatTurnTools : List String := ["write_file", "write_state", "delete_state"]

def aiTools : List String := ["web_search", "read_url"]

/-- What a turn runs with when these settings are in force. -/
def AiCommand.turn (cmd : AiCommand) (s : Settings) (grokAlias : Bool) : TurnConfig where
  llmClient := cmd.llmClient
  cooldown := s.cooldowns.ai
  model := s.ai.connection.model
  isOpenrouter := isOpenrouter s.ai.connection
  reasoningEffort := s.ai.connection.reasoningEffort
  serviceTier := s.ai.connection.serviceTier
  personaName := s.ai.behavior.personaName
  memory := cmd.memory
  caps := capsFromSettings s
  primaryHistory := cmd.chatCtx.map fun _ => s.ai.history.length
  aiChannelHistory := cmd.chatCtx.bind fun cc => if cc.aiChannelHistory then some s.ai.history.aiChannelLength else none
  primaryLogin := cmd.chatCtx.map (·.primaryLogin)
  aiChannelLogin := cmd.chatCtx.bind (·.aiChannelLogin)
  web := cmd.web.map fun executor => ⟨executor, currentMaxResults s, s.ai.media⟩
  emotes := cmd.emotes.map fun provider => ⟨provider, liveCaps s.ai.emotes⟩
  tools :=
    chatTurnTools ++ ["doener_index"] ++ (if cmd.web.isSome then aiTools else []) ++
      if cmd.emotes.isSome then ["search_emotes"] else []
  appendices :=
    (if cmd.emotes.isSome then [.emoteTools] else []) ++
      if grokAlias then .grok :: if cmd.web.isSome then [.grokWeb] else []
      else if cmd.web.isSome then [.webTools] else []
  forcedSearch := if grokAlias then cmd.web.map fun _ => currentMaxResults s else none

/-! ## The notice -/

def noticeIf (changed : Bool) (field : String) : List String := if changed then [field] else []

/-- The fields of a save that need a restart. -/
def restartRequired (before after : AiSettings) : List String :=
  noticeIf (before.connection.backend ≠ after.connection.backend) "ai.connection.backend" ++
  noticeIf (before.connection.baseUrl ≠ after.connection.baseUrl) "ai.connection.base_url" ++
  noticeIf (before.prefill.isNone && after.prefill.isSome) "ai.prefill (enabling requires restart)" ++
  noticeIf (before.web.isNone && after.web.isSome) "ai.web (enabling requires restart)" ++
  noticeIf (before.emotes.isNone && after.emotes.isSome) "ai.emotes (enabling requires restart)" ++
  match before.prefill, after.prefill with
  | some a, some b => noticeIf (a.baseUrl ≠ b.baseUrl) "ai.prefill.base_url"
  | _, _ => []

end Twitch1337.Assistant
