import Twitch1337.Lib.F64
import Twitch1337.Schedule.Types

/-!
# Settings

`settings/mod.rs`, `ai.rs`, `twitch.rs`, `aviationstack.rs`, `suspend.rs` and `web.rs`: the resolved settings and their
compiled defaults. A `usize` has 64 bits.
-/

namespace Twitch1337.Dashboard

open Schedules

/-! ## Sections -/

/-- How long a command waits after it was used. -/
structure Cooldowns where
  ai : UInt64
  news : UInt64
  up : UInt64
  feedback : UInt64
  doener : UInt64
  deriving DecidableEq

/-- The cooldown of pings, and who may use them. -/
structure PingsSettings where
  cooldown : UInt64
  isPublic : Bool
  deriving DecidableEq

/-- The protocols that a backend can speak. -/
inductive AiBackendKind where
  | openAi | ollama
  deriving DecidableEq

/-- Where the model is, and how it is asked. -/
structure AiConnection where
  backend : AiBackendKind := .openAi
  baseUrl : Option String := none
  model : String := ""
  timeout : UInt64 := 30
  reasoningEffort : Option String := none
  serviceTier : Option String := none
  deriving DecidableEq

/-- What a turn may do, and under which name. -/
structure AiBehavior where
  maxTurnRounds : UInt64 := 4
  maxWritesPerTurn : UInt64 := 8
  personaName : String := "Aurora"
  deriving DecidableEq

def defaultHistoryLength : UInt64 := 200

def maxHistoryLength : UInt64 := 5000

/-- How many messages are remembered. -/
structure AiHistory where
  length : UInt64 := defaultHistoryLength
  aiChannelLength : UInt64 := 50
  deriving DecidableEq

/-- How large the files of the memory may be. -/
structure AiMemory where
  soulBytes : UInt64 := 4096
  loreBytes : UInt64 := 12288
  userBytes : UInt64 := 4096
  stateBytes : UInt64 := 2048
  injectByteBudget : UInt64 := 24576
  maxStateFiles : UInt64 := 16
  deriving DecidableEq

/-- When the memory is gone over, and by which model. -/
structure AiDreamer where
  enabled : Bool := true
  model : Option String := none
  reasoningEffort : Option String := none
  serviceTier : Option String := none
  runAt : String := "04:00"
  timeoutSecs : UInt64 := 120
  maxRounds : UInt64 := 20
  maxWritesPerTurn : UInt64 := 32
  deriving DecidableEq

/-- The threshold is compared as bits. -/
structure AiPrefill where
  baseUrl : String := "https://logs.zonian.dev"
  threshold : F64 := ⟨0x3FE0000000000000⟩
  deriving DecidableEq

/-- The web tools. -/
structure AiWeb where
  baseUrl : String := "http://localhost:8080/search"
  timeout : UInt64 := 15
  maxResults : UInt64 := 5
  maxRounds : UInt64 := 3
  cacheTtlSecs : UInt64 := 300
  cacheCapacity : UInt64 := 100
  deriving DecidableEq

/-- The emotes that a prompt may offer. -/
structure AiEmotes where
  includeGlobal : Bool := true
  refreshIntervalSecs : UInt64 := 3600
  maxPromptEmotes : UInt64 := 20
  minBaselineEmotes : UInt64 := 4
  pinnedEmotes : List String := ["PepeLa", "okjj"]
  baseUrl : Option String := none
  deriving DecidableEq

/-- A number of bytes. -/
structure ByteSize where
  bytes : UInt64
  deriving DecidableEq

def ByteSize.mib (n : UInt64) : ByteSize := ⟨n * 1048576⟩

/-- What media are described with, and how large they may be. -/
structure AiMedia where
  model : String := "~google/gemini-flash-latest"
  timeout : UInt64 := 60
  maxImageSize : ByteSize := .mib 10
  maxPdfSize : ByteSize := .mib 25
  maxAudioSize : ByteSize := .mib 25
  maxVideoSize : ByteSize := .mib 50
  maxTextSize : ByteSize := .mib 1
  deriving DecidableEq

/-- All that is set of the AI. -/
structure AiSettings where
  connection : AiConnection := {}
  behavior : AiBehavior := {}
  history : AiHistory := {}
  memory : AiMemory := {}
  dreamer : AiDreamer := {}
  prefill : Option AiPrefill := none
  web : Option AiWeb := none
  emotes : Option AiEmotes := none
  media : AiMedia := {}
  deriving DecidableEq

/-- The channels, and who may do what. -/
structure TwitchRuntime where
  expectedLatency : UInt32 := 100
  hiddenAdmins : List String := []
  viewerAllowlist : List String := []
  adminChannel : Option String := none
  aiChannel : Option String := none
  deriving DecidableEq

/-- The service for flights. -/
structure AviationstackSettings where
  enabled : Bool := false
  baseUrl : String := "https://api.aviationstack.com/v1"
  timeoutSecs : UInt64 := 5
  deriving DecidableEq

/-- How long a command is suspended when nothing is said. -/
structure SuspendSettings where
  defaultDurationSecs : UInt64 := 600
  deriving DecidableEq

/-- The sessions of the dashboard. -/
structure WebRuntime where
  sessionTtlSecs : UInt64 := 7 * 24 * 60 * 60
  modCheckRefreshSecs : UInt64 := 300
  deriving DecidableEq

/-! ## Settings -/

def schemaVersion : UInt32 := 4

/-- The fully resolved snapshot. -/
structure Settings where
  schemaVersion : UInt32
  cooldowns : Cooldowns
  pings : PingsSettings
  ai : AiSettings
  twitch : TwitchRuntime
  aviationstack : AviationstackSettings
  suspend : SuspendSettings
  web : WebRuntime
  schedules : List Schedule
  deriving DecidableEq

/-- What is set where nothing overrides it. -/
def Settings.compiledDefaults : Settings where
  schemaVersion := Dashboard.schemaVersion
  cooldowns := { ai := 30, news := 60, up := 30, feedback := 300, doener := 30 }
  pings := { cooldown := 300, isPublic := false }
  ai := {}
  twitch := {}
  aviationstack := {}
  suspend := {}
  web := {}
  schedules := []

/-- The sections that can be reset. -/
inductive SettingsSection where
  | cooldowns
  | pings
  | aiConnection
  | aiBehavior
  | aiHistory
  | aiMemory
  | aiDreamer
  | aiPrefill
  | aiWeb
  | aiEmotes
  | aiMedia
  | twitchPermissions
  | twitchChannels
  | aviationstack
  | suspend
  | webRuntime
  | schedules
  deriving DecidableEq

end Twitch1337.Dashboard
