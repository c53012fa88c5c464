import Twitch1337.Llm.Agent

/-!
# The conversation of an agent

A provider takes a conversation only when every call of a turn has its result right after it. The conversation that the loop sends
is the one it was given and a sequence of such turns, one for each answer with calls so far. The calls of a turn are those of the
client's answer, and its texts are what the executor has made of them.
-/

namespace Twitch1337.Llm

variable {ε : Type*}

/-- A turn with calls: one text for each of them. -/
structure Turn where
  calls : List ToolCall
  reasoningContent : Option String
  contents : List String
  answered : contents.length = calls.length

namespace Turn

/-- What the loop keeps of a turn. -/
def round (t : Turn) : ToolCallRound :=
  ⟨t.calls, List.zipWith ToolResultMessage.forCall t.calls t.contents, t.reasoningContent⟩

/-- The messages of a turn, for OpenAI: the calls, and a result with the id of each. -/
def openai (toString : Json → String) (t : Turn) : List Json :=
  openaiAssistant toString t.calls t.reasoningContent ::
    List.zipWith (fun call content => openaiTool call.id content) t.calls t.contents

/-- The messages of a turn, for Ollama: the calls, and a result with the name of each. -/
def ollama (t : Turn) : List Json :=
  ollamaAssistant t.calls :: List.zipWith (fun call content => ollamaTool call.name content) t.calls t.contents

/-- The calls of a turn with their results. -/
def exchanged (t : Turn) : List (ToolCall × String) := t.calls.zip t.contents

theorem openaiRound_round (toString : Json → String) (t : Turn) : openaiRound toString t.round = t.openai toString := by
  rw [openaiRound, openai, round, List.map_zipWith]
  rfl

theorem ollamaRound_round (t : Turn) : ollamaRound t.round = t.ollama := by
  rw [ollamaRound, ollama, round, List.map_zipWith]
  rfl

end Turn

/-- A request after some turns. -/
def ToolChatCompletionRequest.after (request : ToolChatCompletionRequest) (turns : List Turn) : ToolChatCompletionRequest :=
  { request with priorRounds := request.priorRounds ++ turns.map Turn.round }

theorem buildOpenaiMessages_after (toString : Json → String) (request : ToolChatCompletionRequest) (turns : List Turn) :
    buildOpenaiMessages toString (request.after turns).messages (request.after turns).priorRounds =
      request.messages.map messageJson ++ request.priorRounds.flatMap (openaiRound toString) ++
        turns.flatMap (Turn.openai toString) := by
  have hturns : (turns.map Turn.round).flatMap (openaiRound toString) = turns.flatMap (Turn.openai toString) := by
    rw [List.flatMap_map]
    exact List.flatMap_congr fun t _ => t.openaiRound_round toString
  rw [buildOpenaiMessages, ToolChatCompletionRequest.after, List.flatMap_append, hturns, List.append_assoc]

theorem buildOllamaMessages_after (request : ToolChatCompletionRequest) (turns : List Turn) :
    buildOllamaMessages (request.after turns) =
      request.messages.map messageJson ++ request.priorRounds.flatMap ollamaRound ++ turns.flatMap Turn.ollama := by
  have hturns : (turns.map Turn.round).flatMap ollamaRound = turns.flatMap Turn.ollama := by
    rw [List.flatMap_map]
    exact List.flatMap_congr fun t _ => t.ollamaRound_round
  rw [buildOllamaMessages, ToolChatCompletionRequest.after, List.flatMap_append, hturns, List.append_assoc]

/-! ## The calls of a round -/

/-- What was executed is what the executor makes of each call, after the calls before it. -/
def Executed (execute : ToolExecutor) (executed : List (ToolCall × ToolResultMessage)) : Prop :=
  ∀ (j : Nat) (e : ToolCall × ToolResultMessage), executed[j]? = some e → e.2 = execute (executed.take j) e.1

theorem Executed.snoc {execute : ToolExecutor} {executed : List (ToolCall × ToolResultMessage)} (h : Executed execute executed)
    (call : ToolCall) : Executed execute (executed ++ [(call, execute executed call)]) := by
  intro j e hj
  rw [List.getElem?_append] at hj
  split at hj
  · rename_i hlt
    rw [List.take_append_of_le_length (Nat.le_of_lt hlt)]
    exact h j e hj
  · rename_i hge
    rw [List.getElem?_singleton] at hj
    split at hj
    · cases hj
      rw [show j = executed.length by omega, List.take_left]
    · cases hj

theorem Executed.calls {execute : ToolExecutor} {executed : List (ToolCall × ToolResultMessage)} (h : Executed execute executed)
    (calls : List ToolCall) : Executed execute (executeCalls execute executed calls).1 := by
  induction calls generalizing executed with
  | nil => exact h
  | cons call calls ih => exact ih (h.snoc call)

/-- Every call is executed once, in its turn, and has its result. -/
theorem executeCalls_spec {execute : ToolExecutor} (hexec : ∀ past call, ∃ content, execute past call = .forCall call content)
    (executed : List (ToolCall × ToolResultMessage)) (calls : List ToolCall) :
    ∃ contents : List String, contents.length = calls.length ∧
      (executeCalls execute executed calls).2 = List.zipWith ToolResultMessage.forCall calls contents ∧
      (executeCalls execute executed calls).1.map (fun e => (e.1, e.2.content)) =
        executed.map (fun e => (e.1, e.2.content)) ++ calls.zip contents := by
  induction calls generalizing executed with
  | nil => exact ⟨[], rfl, rfl, by simp [executeCalls]⟩
  | cons call calls ih =>
    obtain ⟨content, hcontent⟩ := hexec executed call
    obtain ⟨contents, hlen, hresults, hexecuted⟩ := ih (executed ++ [(call, execute executed call)])
    rw [hcontent] at hresults hexecuted
    refine ⟨content :: contents, by simp [hlen], ?_, ?_⟩
    · simp only [executeCalls, hcontent, hresults, List.zipWith_cons_cons]
    · simp only [executeCalls, hcontent, hexecuted, List.map_append, List.zip_cons_cons]
      simp [ToolResultMessage.forCall]

/-! ## The rounds of a run -/

/-- The calls of an answer, when it has come and has calls. -/
def Called.calls : Called ε → Option (List ToolCall × Option String)
  | .responded (.ok (.toolCalls calls reasoningContent)) => some (calls, reasoningContent)
  | _ => none

/-- The calls that a client answers the request of a round with. -/
def answeredCalls (client : LlmClient ε) (timeout : Option Nat) (sent : List ToolChatCompletionRequest) (k : Nat) :
    Option (List ToolCall × Option String) :=
  (callWithOptionalTimeout (client (sent.take (k + 1))) timeout).calls

/-- Some turns are the turns of a run: each has the calls of the client's answer in its round, with what the executor makes of each
call, and a request has all turns before it. -/
structure Conversed (client : LlmClient ε) (execute : ToolExecutor) (timeout : Option Nat) (request : ToolChatCompletionRequest)
    (turns : List Turn) (s : AgentRun) : Prop where
  answered : ∀ k < s.sent.length, turns[k]?.map (fun t => (t.calls, t.reasoningContent)) = answeredCalls client timeout s.sent k
  results : Executed execute s.executed
  executed : s.executed.map (fun e => (e.1, e.2.content)) = turns.flatMap Turn.exchanged
  sent : ∀ (k : Nat) (req : ToolChatCompletionRequest), s.sent[k]? = some req →
    k ≤ turns.length ∧ req = request.after (turns.take k)

/-- Between two rounds: one request was sent for each turn, and the next one has all of them. -/
structure Between (client : LlmClient ε) (execute : ToolExecutor) (timeout : Option Nat) (request : ToolChatCompletionRequest)
    (turns : List Turn) (s : AgentRun) : Prop extends Conversed client execute timeout request turns s where
  request : s.request = request.after turns
  length : s.sent.length = turns.length

variable {client : LlmClient ε} {execute : ToolExecutor} {timeout : Option Nat} {request : ToolChatCompletionRequest}
  {turns : List Turn} {s : AgentRun}

theorem answeredCalls_append {sent : List ToolChatCompletionRequest} {k : Nat} (h : k < sent.length)
    (rest : List ToolChatCompletionRequest) : answeredCalls client timeout (sent ++ rest) k = answeredCalls client timeout sent k := by
  rw [answeredCalls, List.take_append_of_le_length h]
  rfl

/-- What the client answers the next request with. -/
theorem Between.answeredCalls_send (h : Between client execute timeout request turns s) :
    answeredCalls client timeout (s.sent ++ [s.request]) turns.length =
      (callWithOptionalTimeout (client (s.sent ++ [s.request])) timeout).calls := by
  have htake : (s.sent ++ [s.request]).take (turns.length + 1) = s.sent ++ [s.request] := by
    rw [← h.length]
    exact List.take_of_length_le (by simp)
  rw [answeredCalls, htake]

/-- The requests, with one more that has all turns. -/
theorem Between.sent_send (h : Between client execute timeout request turns s) (k : Nat) (req : ToolChatCompletionRequest)
    (hk : (s.sent ++ [s.request])[k]? = some req) : k ≤ turns.length ∧ req = request.after (turns.take k) := by
  rw [List.getElem?_append] at hk
  split at hk
  · exact h.sent k req hk
  · rename_i hlt
    rw [List.getElem?_singleton] at hk
    split at hk
    · cases hk
      have hk : k = turns.length := by
        have := h.length
        omega
      rw [hk, List.take_length]
      exact ⟨Nat.le_refl _, h.request⟩
    · cases hk

/-- One more request is sent, and its answer has no calls. -/
theorem Between.last (h : Between client execute timeout request turns s)
    (hcalls : (callWithOptionalTimeout (client (s.sent ++ [s.request])) timeout).calls = none) :
    Conversed client execute timeout request turns { s with sent := s.sent ++ [s.request] } := by
  refine ⟨fun k hk => ?_, h.results, h.executed, h.sent_send⟩
  rw [List.length_append, List.length_singleton, Nat.lt_succ_iff] at hk
  rcases Nat.lt_or_eq_of_le hk with hlt | rfl
  · rw [answeredCalls_append hlt]
    exact h.answered k hlt
  · rw [h.length, h.answeredCalls_send, hcalls, List.getElem?_eq_none (Nat.le_refl _)]
    rfl

/-- A round with calls is one more turn. -/
theorem Between.turn (h : Between client execute timeout request turns s)
    (hexec : ∀ past call, ∃ content, execute past call = .forCall call content) {calls : List ToolCall}
    {reasoningContent : Option String}
    (hcalls : (callWithOptionalTimeout (client (s.sent ++ [s.request])) timeout).calls = some (calls, reasoningContent)) :
    ∃ turn : Turn, Between client execute timeout request (turns ++ [turn])
      { request := { s.request with
          priorRounds := s.request.priorRounds ++ [⟨calls, (executeCalls execute s.executed calls).2, reasoningContent⟩] }
        sent := s.sent ++ [s.request]
        executed := (executeCalls execute s.executed calls).1 } := by
  obtain ⟨contents, hlen, hresults, hexecuted⟩ := executeCalls_spec hexec s.executed calls
  refine ⟨⟨calls, reasoningContent, contents, hlen⟩, ⟨fun k hk => ?_, h.results.calls calls, ?_, fun k req hk => ?_⟩, ?_, ?_⟩
  · rw [List.length_append, List.length_singleton, Nat.lt_succ_iff] at hk
    rcases Nat.lt_or_eq_of_le hk with hlt | rfl
    · rw [answeredCalls_append hlt, List.getElem?_append_left (h.length ▸ hlt)]
      exact h.answered k hlt
    · rw [h.length, h.answeredCalls_send, hcalls, List.getElem?_concat_length]
      rfl
  · simp [hexecuted, h.executed, Turn.exchanged]
  · obtain ⟨hle, rfl⟩ := h.sent_send k req hk
    rw [List.length_append, List.take_append_of_le_length hle]
    exact ⟨Nat.le_add_right_of_le hle, rfl⟩
  · rw [h.request, hresults]
    simp [ToolChatCompletionRequest.after, Turn.round]
  · simp [h.length]

/-- The rounds that are left have turns of their own, and end with the first request that is not answered with calls. -/
theorem agentRounds_conversed (hexec : ∀ past call, ∃ content, execute past call = .forCall call content) (left round : Nat)
    (h : Between client execute timeout request turns s) :
    ∃ turns, Conversed client execute timeout request turns (agentRounds client execute timeout left round s).1 ∧
      (agentRounds client execute timeout left round s).1.sent.length = min (s.sent.length + left) (turns.length + 1) ∧
      turns.length ≤ (agentRounds client execute timeout left round s).1.sent.length := by
  induction left generalizing round turns s with
  | zero =>
    have hlen := h.length
    simp only [agentRounds]
    exact ⟨turns, h.toConversed, by omega, Nat.le_of_eq hlen.symm⟩
  | succ left ih =>
    have hstop : (s.sent ++ [s.request]).length = min (s.sent.length + (left + 1)) (turns.length + 1) ∧
        turns.length ≤ (s.sent ++ [s.request]).length := by
      have hlen := h.length
      rw [List.length_append, List.length_singleton]
      omega
    simp only [agentRounds]
    split
    · rename_i hcalled
      exact ⟨turns, h.last (by rw [hcalled]; rfl), hstop⟩
    · rename_i hcalled
      exact ⟨turns, h.last (by rw [hcalled]; rfl), hstop⟩
    · rename_i hcalled
      exact ⟨turns, h.last (by rw [hcalled]; rfl), hstop⟩
    · rename_i hcalled
      exact ⟨turns, h.last (by rw [hcalled]; rfl), hstop⟩
    · rename_i calls reasoningContent hcalled
      have hcalls : (callWithOptionalTimeout (client (s.sent ++ [s.request])) timeout).calls = some (calls, reasoningContent) := by
        rw [hcalled]
        rfl
      obtain ⟨turn, hturn⟩ := h.turn hexec hcalls
      obtain ⟨turns', hconversed, hlen, hle⟩ := ih (round + 1) hturn
      refine ⟨turns', hconversed, hlen.trans ?_, hle⟩
      rw [List.length_append, List.length_singleton, Nat.add_assoc, Nat.add_comm 1 left]

/-- Whatever a client answers, an agent whose executor answers the calls it is given sends at most `maxRounds` requests, and one
more than there are turns before that; there is no turn without a request. The turns have the calls of the client's answers, round
by round; each call was executed once, in this order, and its turn has what the executor made of it. The messages of each request
are the original ones, what they were given of earlier rounds, and all turns before that request. -/
theorem agent_conversation (toString : Json → String) (client : LlmClient ε) (execute : ToolExecutor)
    (hexec : ∀ past call, ∃ content, execute past call = .forCall call content) (request : ToolChatCompletionRequest)
    (opts : AgentOpts) :
    (runAgent client request execute opts).1.sent.length ≤ opts.maxRounds ∧
      ∃ turns : List Turn,
        (runAgent client request execute opts).1.sent.length = min opts.maxRounds (turns.length + 1) ∧
        turns.length ≤ (runAgent client request execute opts).1.sent.length ∧
        (∀ k < (runAgent client request execute opts).1.sent.length,
          turns[k]?.map (fun t => (t.calls, t.reasoningContent)) =
            (callWithOptionalTimeout (client ((runAgent client request execute opts).1.sent.take (k + 1)))
              opts.perRoundTimeout).calls) ∧
        (∀ (j : Nat) (call : ToolCall) (result : ToolResultMessage),
          (runAgent client request execute opts).1.executed[j]? = some (call, result) →
            result = execute ((runAgent client request execute opts).1.executed.take j) call) ∧
        (runAgent client request execute opts).1.executed.map (fun e => (e.1, e.2.content)) =
          turns.flatMap Turn.exchanged ∧
        ∀ (k : Nat) (req : ToolChatCompletionRequest), (runAgent client request execute opts).1.sent[k]? = some req →
          k ≤ turns.length ∧
            buildOpenaiMessages toString req.messages req.priorRounds =
              request.messages.map messageJson ++ request.priorRounds.flatMap (openaiRound toString) ++
                (turns.take k).flatMap (Turn.openai toString) ∧
            buildOllamaMessages req =
              request.messages.map messageJson ++ request.priorRounds.flatMap ollamaRound ++
                (turns.take k).flatMap Turn.ollama := by
  have hstart : Between client execute opts.perRoundTimeout request [] ⟨request, [], []⟩ :=
    ⟨⟨fun _ hk => absurd hk (Nat.not_lt_zero _), (fun _ _ hj => by cases hj), rfl, (fun _ _ hk => by cases hk)⟩,
      by simp [ToolChatCompletionRequest.after], rfl⟩
  obtain ⟨turns, hconversed, hlen, hle⟩ := agentRounds_conversed hexec opts.maxRounds 0 hstart
  have hsent : (runAgent client request execute opts).1.sent.length = min opts.maxRounds (turns.length + 1) := by
    simpa [runAgent] using hlen
  refine ⟨hsent ▸ Nat.min_le_left _ _, turns, hsent, hle, hconversed.answered, fun j call result hj => hconversed.results j _ hj,
    hconversed.executed, fun k req hk => ?_⟩
  obtain ⟨hle, rfl⟩ := hconversed.sent k req hk
  exact ⟨hle, buildOpenaiMessages_after toString request _, buildOllamaMessages_after request _⟩

/-! ### Two calls and an answer -/

def noopCall (id : String) : ToolCall := ⟨id, "noop", .null, none⟩

def twoCalls : LlmClient Unit := fun sent =>
  ⟨some 0, .ok (if sent.length = 1 then .toolCalls [noopCall "c1", noopCall "c1"] none else .message "done")⟩

/-- An executor that tells how many calls were before. -/
def countingExecutor : ToolExecutor := fun past call => .forCall call (call.name ++ " after " ++ toString past.length)

def hiRequest : ToolChatCompletionRequest := ⟨"test", [⟨.user, "hi"⟩], [], none, none, [], ⟨none, none⟩⟩

/-- The calls have one id, and each has its own result. -/
theorem agent_conversation_twoCalls :
    ∃ turns : List Turn, turns.length = 1 ∧
      turns.flatMap Turn.exchanged = [(noopCall "c1", "noop after 0"), (noopCall "c1", "noop after 1")] ∧
      (runAgent twoCalls hiRequest countingExecutor ⟨3, none⟩).1.sent.map buildOllamaMessages =
        [[messageJson ⟨.user, "hi"⟩], messageJson ⟨.user, "hi"⟩ :: turns.flatMap Turn.ollama] := by
  obtain ⟨_, turns, hlen, -, -, -, hexecuted, hsent⟩ :=
    agent_conversation (fun _ => "null") twoCalls countingExecutor (fun _ call => ⟨_, rfl⟩) hiRequest ⟨3, none⟩
  have hone : turns.length = 1 := by
    have htwo : 2 = min 3 (turns.length + 1) := hlen
    omega
  have hfirst := (hsent 0 _ rfl).2.2
  have hsecond := (hsent 1 _ rfl).2.2
  rw [List.take_of_length_le (Nat.le_of_eq hone)] at hsecond
  exact ⟨turns, hone, hexecuted.symm, congrArg₂ (fun a b => [a, b]) hfirst hsecond⟩

end Twitch1337.Llm
