import Twitch1337.Lib.Str
import Twitch1337.Settings.Types

/-!
# Channels and commands

`twitch/setup.rs`, the start in `main.rs`, and `run_command_dispatcher` of `twitch/handlers/commands.rs`: the channels the
bot joins, and what it does with a message. The library that joins channels is a parameter with what it accepts.
-/

namespace Twitch1337.Dispatch

open Dashboard RustStr

/-! ## Joining -/

/-- A name of 1 to 25 lower-case ASCII letters, digits and underscores. -/
def isLogin (name : String) : Bool :=
  1 ≤ name.toList.length && name.toList.length ≤ 25 && name.toList.all fun c => c.isLower || c.isDigit || c == '_'

/-- The chat library: it joins a set of channels when all of them are logins. -/
structure Irc where
  setWantedChannels : List String → Bool
  accepts_iff : ∀ channels, setWantedChannels channels = true ↔ ∀ name ∈ channels, isLogin name = true

/-- The channels that the settings add to the one of the bot. -/
def extraChannels (t : TwitchRuntime) : List String := [t.adminChannel, t.aiChannel].filterMap id

/-- The set of channels to join. -/
def wantedChannels (channel : String) (extras : List String) : List String :=
  extras.foldl (fun channels extra => if extra.isEmpty then channels else channels.insert extra) [channel]

/-- Whether the bot gets past joining its channels: an error of the library ends the process. -/
def boots (irc : Irc) (channel : String) (t : TwitchRuntime) : Bool :=
  irc.setWantedChannels (wantedChannels channel (extraChannels t))

/-! ## Messages -/

/-- A message of a channel. -/
structure Privmsg where
  channelLogin : String
  badges : List String
  senderId : String
  senderLogin : String
  senderName : String
  messageText : String
  serverTimestamp : Int
  deriving DecidableEq

/-- It is of the broadcaster. -/
def Privmsg.isBroadcaster (m : Privmsg) : Bool := m.badges.any (· == "broadcaster")

/-- The first word of a message, and the others. -/
structure CommandInvocation where
  trigger : String
  args : List String
  deriving DecidableEq

def grokAliasTrigger : String := "@grok"

/-- The words that the AI answers to. -/
def isAiTrigger (word : String) : Bool := eqIgnoreAsciiCase word "!ai" || eqIgnoreAsciiCase word grokAliasTrigger

/-- The characters of a login. -/
def isTwitchLoginChar (c : Char) : Bool := c.isAlphanum || c == '_'

/-- A word that mentions someone. -/
def isTwitchMention (word : String) : Bool :=
  match word.toList with
  | '@' :: name => !name.isEmpty && name.all isTwitchLoginChar
  | _ => false

/-- The alias counts as the trigger when only mentions stand before it. -/
def commandInvocation (messageText : String) : Option CommandInvocation :=
  let words := splitWhitespace messageText
  match words with
  | [] => none
  | firstWord :: args =>
    match words.zipIdx.find? fun w => eqIgnoreAsciiCase w.1 grokAliasTrigger && (words.take w.2).all isTwitchMention with
    | some (trigger, idx) => some ⟨trigger, words.drop (idx + 1)⟩
    | none => some ⟨firstWord, args⟩

/-! ## Dispatch -/

/-- A command, as it answers when a message is handled. -/
structure Command where
  name : String
  enabled : Bool
  accepts : String → Bool
  suspendKey : String → String

/-- The two histories. -/
inductive Buffer where
  | primary | aiChannel
  deriving DecidableEq

/-- An entry that is pushed to a buffer. -/
structure Push where
  buffer : Buffer
  username : String
  displayName : Option String
  userId : Option String
  text : String
  timestamp : Int
  deriving DecidableEq

/-- A command that is executed. -/
structure Execution where
  command : Command
  invocation : CommandInvocation

/-- What the dispatcher is started with: the channels, and which buffers there are. -/
structure Dispatcher where
  adminChannel : Option String
  aiChannel : Option String
  hasPrimaryHistory : Bool
  hasAiChannelHistory : Bool

/-- What becomes of a message. -/
structure Handled where
  message : Privmsg
  recorded : Option Push := none
  executed : Option Execution := none

namespace Dispatcher

/-- The message is of the channel for the administration. -/
def isAdminChannel (d : Dispatcher) (m : Privmsg) : Bool := d.adminChannel.any (m.channelLogin == ·)

/-- It is of the channel of the AI. -/
def isAiChannel (d : Dispatcher) (m : Privmsg) : Bool := d.aiChannel.any (m.channelLogin == ·)

/-- The history that a message goes into. -/
def targetBuffer (d : Dispatcher) (m : Privmsg) : Option Buffer :=
  if d.isAdminChannel m then none
  else if d.isAiChannel m then if d.hasAiChannelHistory then some .aiChannel else none
  else if d.hasPrimaryHistory then some .primary else none

/-- What goes into it. -/
def push (m : Privmsg) (buffer : Buffer) : Push where
  buffer
  username := m.senderLogin
  displayName := (some m.senderName).filter fun s => !s.isEmpty
  userId := (some m.senderId).filter fun s => !s.isEmpty
  text := m.messageText
  timestamp := m.serverTimestamp

/-- The command that a message runs: the first one that is enabled and accepts the trigger, unless it is suspended. -/
def execution (d : Dispatcher) (commands : List Command) (suspended : String → Bool) (m : Privmsg) : Option Execution :=
  match commandInvocation m.messageText with
  | none => none
  | some invocation =>
    if d.isAiChannel m && !isAiTrigger invocation.trigger then none
    else match commands.find? fun c => c.enabled && c.accepts invocation.trigger with
      | none => none
      | some command =>
        if suspended (command.suspendKey invocation.trigger) then none else some ⟨command, invocation⟩

/-- One message. In the admin channel, those of others than the broadcaster are dropped. -/
def handle (d : Dispatcher) (commands : List Command) (suspended : String → Bool) (m : Privmsg) : Handled :=
  if d.isAdminChannel m && !m.isBroadcaster then { message := m }
  else
    { message := m
      recorded := (d.targetBuffer m).map (push m)
      executed := d.execution commands suspended m }

/-- What the dispatcher receives, with what the commands answer and what is suspended at the time. -/
inductive Received where
  | privmsg (m : Privmsg) (commands : List Command) (suspended : String → Bool)
  | other
  | lagged (skipped : Nat)

/-- The messages handled in a run. -/
def runCommandDispatcher (d : Dispatcher) : List Received → List Handled
  | [] => []
  | .privmsg m commands suspended :: rest => d.handle commands suspended m :: d.runCommandDispatcher rest
  | .other :: rest => d.runCommandDispatcher rest
  | .lagged _ :: rest => d.runCommandDispatcher rest

end Dispatcher

/-- The dispatcher of a bot that was started with these settings. -/
def Dispatcher.ofSettings (t : TwitchRuntime) (hasPrimaryHistory hasAiChannelHistory : Bool) : Dispatcher :=
  ⟨t.adminChannel, t.aiChannel, hasPrimaryHistory, hasAiChannelHistory⟩

end Twitch1337.Dispatch
