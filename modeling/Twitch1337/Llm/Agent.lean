import Mathlib.Data.List.Basic

/-!
# The agent loop

`llm/src/agent.rs`, and the messages that the two providers make of a request (`openai.rs`, `ollama.rs`). What was sent and what
was executed is kept beside the request: the code does not keep it.
-/

namespace Twitch1337.Llm

/-! ## Requests -/

/-- `serde_json::Value`, with the fields of an object in the order of their names. A number is its text. -/
inductive Json where
  | null
  | bool (b : Bool)
  | number (text : String)
  | string (text : String)
  | array (items : List Json)
  | object (fields : List (String × Json))

/-- Who says a message. -/
inductive Role where
  | system
  | user
  | assistant
  | tool
  deriving DecidableEq

def Role.toString : Role → String
  | system => "system"
  | user => "user"
  | assistant => "assistant"
  | tool => "tool"

/-- A message of the chat that is sent. -/
structure Message where
  role : Role
  content : String

/-- Why the arguments of a call cannot be read. -/
inductive ToolArgsError where
  | provider (error raw : String)
  | deserialize (error : String)

/-- A call that a model asks for. -/
structure ToolCall where
  id : String
  name : String
  arguments : Json
  argumentsParseError : Option ToolArgsError

/-- What is sent back for a call. -/
structure ToolResultMessage where
  toolCallId : String
  toolName : String
  content : String

/-- The result of a call, under its id and its name. -/
def ToolResultMessage.forCall (call : ToolCall) (content : String) : ToolResultMessage := ⟨call.id, call.name, content⟩

/-- The calls of an answer, and their results. -/
structure ToolCallRound where
  calls : List ToolCall
  results : List ToolResultMessage
  reasoningContent : Option String

/-- A tool that a model may call. -/
structure ToolDefinition where
  name : String
  description : String
  parameters : Json

/-- Whom a request is for. -/
structure TraceIds where
  user : Option String
  sessionId : Option String

/-- A request, with the rounds before it. -/
structure ToolChatCompletionRequest where
  model : String
  messages : List Message
  tools : List ToolDefinition
  reasoningEffort : Option String
  serviceTier : Option String
  priorRounds : List ToolCallRound
  trace : TraceIds

/-- The answer of a model: a text, or calls. -/
inductive ToolChatCompletionResponse where
  | message (text : String)
  | toolCalls (calls : List ToolCall) (reasoningContent : Option String)

/-! ## The loop -/

variable {ε : Type*}

/-- The answer of a client to a request: after how long it comes, if ever, and what it is. -/
structure Answer (ε : Type*) where
  delay : Option Nat
  result : Except ε ToolChatCompletionResponse

/-- A client, which knows all requests so far: the last is the one it answers. -/
abbrev LlmClient (ε : Type*) := List ToolChatCompletionRequest → Answer ε

/-- An executor, which knows what it has executed. -/
abbrev ToolExecutor := List (ToolCall × ToolResultMessage) → ToolCall → ToolResultMessage

/-- How many rounds an agent has, and how long each may take. -/
structure AgentOpts where
  maxRounds : Nat
  perRoundTimeout : Option Nat

/-- How an agent ends. -/
inductive AgentOutcome where
  | text (text : String)
  | maxRoundsExceeded
  | timeout (round : Nat)

/-- What waiting for an answer comes to. -/
inductive Called (ε : Type*) where
  | responded (result : Except ε ToolChatCompletionResponse)
  | elapsed
  | pending

/-- A call under a limit, when there is one. An answer that never comes is waited for without one. -/
def callWithOptionalTimeout (answer : Answer ε) : Option Nat → Called ε
  | some limit =>
    match answer.delay with
    | some delay => if delay ≤ limit then .responded answer.result else .elapsed
    | none => .elapsed
  | none =>
    match answer.delay with
    | some _ => .responded answer.result
    | none => .pending

/-- The request of the loop, and what was sent and executed so far. -/
structure AgentRun where
  request : ToolChatCompletionRequest
  sent : List ToolChatCompletionRequest
  executed : List (ToolCall × ToolResultMessage)

/-- The calls of a round, one after the other: what is executed after them, and their results. -/
def executeCalls (execute : ToolExecutor) (executed : List (ToolCall × ToolResultMessage)) :
    List ToolCall → List (ToolCall × ToolResultMessage) × List ToolResultMessage
  | [] => (executed, [])
  | call :: calls =>
    let result := execute executed call
    let (executed, results) := executeCalls execute (executed ++ [(call, result)]) calls
    (executed, result :: results)

/-- The rounds that are left. Without a timeout, a client that never answers leaves no outcome. -/
def agentRounds (client : LlmClient ε) (execute : ToolExecutor) (timeout : Option Nat) :
    Nat → Nat → AgentRun → AgentRun × Option (Except ε AgentOutcome)
  | 0, _, s => (s, some (.ok .maxRoundsExceeded))
  | left + 1, round, s =>
    let s := { s with sent := s.sent ++ [s.request] }
    match callWithOptionalTimeout (client s.sent) timeout with
    | .pending => (s, none)
    | .elapsed => (s, some (.ok (.timeout round)))
    | .responded (.error e) => (s, some (.error e))
    | .responded (.ok (.message text)) => (s, some (.ok (.text text)))
    | .responded (.ok (.toolCalls calls reasoningContent)) =>
      let (executed, results) := executeCalls execute s.executed calls
      agentRounds client execute timeout left (round + 1)
        { request := { s.request with priorRounds := s.request.priorRounds ++ [⟨calls, results, reasoningContent⟩] }
          sent := s.sent
          executed }

/-- An agent starts with a request, and has neither sent nor executed anything. -/
def runAgent (client : LlmClient ε) (request : ToolChatCompletionRequest) (execute : ToolExecutor) (opts : AgentOpts) :
    AgentRun × Option (Except ε AgentOutcome) :=
  agentRounds client execute opts.perRoundTimeout opts.maxRounds 0 ⟨request, [], []⟩

/-! ## The messages of a request -/

/-- A message of the conversation, for both providers. -/
def messageJson (m : Message) : Json := .object [("content", .string m.content), ("role", .string m.role.toString)]

/-- A call, for OpenAI: its arguments are a text, which is what `to_string` of a JSON value gives. -/
def openaiCall (toString : Json → String) (call : ToolCall) : Json :=
  .object [("function", .object [("arguments", .string (toString call.arguments)), ("name", .string call.name)]),
    ("id", .string call.id), ("type", .string "function")]

/-- The turn of the assistant, for OpenAI. -/
def openaiAssistant (toString : Json → String) (calls : List ToolCall) (reasoningContent : Option String) : Json :=
  .object <| [("content", .null)] ++
    (match reasoningContent with
      | some reasoning => [("reasoning_content", .string reasoning)]
      | none => []) ++
    [("role", .string "assistant"), ("tool_calls", .array (calls.map (openaiCall toString)))]

/-- The result of a call for OpenAI. -/
def openaiTool (toolCallId content : String) : Json :=
  .object [("content", .string content), ("role", .string "tool"), ("tool_call_id", .string toolCallId)]

/-- A round for OpenAI: the message with the calls, and one message for each result. -/
def openaiRound (toString : Json → String) (round : ToolCallRound) : List Json :=
  openaiAssistant toString round.calls round.reasoningContent ::
    round.results.map fun r => openaiTool r.toolCallId r.content

/-- The messages of a request for OpenAI. -/
def buildOpenaiMessages (toString : Json → String) (messages : List Message) (priorRounds : List ToolCallRound) :
    List Json :=
  messages.map messageJson ++ priorRounds.flatMap (openaiRound toString)

/-- A call, for Ollama: its arguments are an object. -/
def ollamaCall (call : ToolCall) : Json :=
  .object [("function", .object [("arguments", call.arguments), ("name", .string call.name)])]

/-- The message with the calls for Ollama. -/
def ollamaAssistant (calls : List ToolCall) : Json :=
  .object [("content", .string ""), ("role", .string "assistant"), ("tool_calls", .array (calls.map ollamaCall))]

/-- The result of a call for Ollama, which has no id. -/
def ollamaTool (toolName content : String) : Json :=
  .object [("content", .string content), ("role", .string "tool"), ("tool_name", .string toolName)]

/-- A round for Ollama. -/
def ollamaRound (round : ToolCallRound) : List Json :=
  ollamaAssistant round.calls :: round.results.map fun r => ollamaTool r.toolName r.content

/-- The messages of a request for Ollama. -/
def buildOllamaMessages (request : ToolChatCompletionRequest) : List Json :=
  request.messages.map messageJson ++ request.priorRounds.flatMap ollamaRound

end Twitch1337.Llm
