import Twitch1337.Bot.Dispatcher
import Twitch1337.Lib.Keyed
import Twitch1337.Lib.Lowercase

/-!
# Suspension

`suspend.rs`, `commands/suspend.rs`, the names and the keys of `commands/mod.rs`, `commands/doener_calc.rs`, `ai/command.rs` and
`commands/ping_trigger.rs`, and the list of commands of `twitch/handlers/commands.rs`. Instants and durations are nanoseconds.
-/

namespace Twitch1337.Dispatch

open Dashboard RustStr

/-! ## Names -/

/-- A command name as a user gives it, without leading `!`s, in ASCII lower case, and one name for the aliases. -/
def normalizeCommandName (raw : String) : String :=
  let normalized := toAsciiLowercase (String.ofList (raw.toList.dropWhile (· == '!')))
  if normalized = "döner" then "doener" else normalized

/-- The reply to one who may not do that. -/
def adminDeniedMsg : String := "Das darfst du nicht FDM"

/-- The broadcaster, a moderator, or one of a list. -/
def isAdmin (m : Privmsg) (hiddenAdminIds : List String) : Bool :=
  m.badges.any (fun badge => badge == "broadcaster" || badge == "moderator") || hiddenAdminIds.contains m.senderId

/-! ## The manager -/

/-- When the suspension of each key expires. -/
abbrev SuspensionManager := Table String Nat

namespace SuspensionManager

/-- Suspend a key, in place of what it was suspended for. -/
def suspend (manager : SuspensionManager) (key : String) (duration now : Nat) : SuspensionManager :=
  AList.insert (toAsciiLowercase key) (now + duration) manager

/-- Lift a suspension, and whether there was one that had not expired. -/
def unsuspend (manager : SuspensionManager) (key : String) (now : Nat) : SuspensionManager × Bool :=
  (AList.erase (toAsciiLowercase key) manager, (AList.lookup (toAsciiLowercase key) manager).any (now < ·))

/-- What remains of the suspension of a key. -/
def isSuspended (manager : SuspensionManager) (key : String) (now : Nat) : Option Nat :=
  match AList.lookup (toAsciiLowercase key) manager with
  | none => none
  | some expiry => if now ≤ expiry then some (expiry - now) else none

end SuspensionManager

/-! ## Durations -/

/-- Seconds in nanoseconds. -/
def fromSecs (secs : Nat) : Nat := secs * 1000000000

/-- A week. -/
def maxSuspendDuration : Nat := fromSecs (7 * 24 * 60 * 60)

/-- Why a duration cannot be read. -/
inductive ParseDurationError where
  | empty | invalidNumber | unknownUnit | zero | tooLong
  deriving DecidableEq

/-- The number that ASCII digits write, when it has 64 bits. -/
def parseU64 (digits : List Char) : Option Nat :=
  let n := digits.foldl (fun n c => 10 * n + (c.toNat - '0'.toNat)) 0
  if n < 2 ^ 64 then some n else none

/-- The digits of a duration, and the seconds of its unit. A number alone is in seconds. -/
def splitUnit (s : List Char) (last : Char) : Option (List Char × Nat) :=
  if last.isDigit then some (s, 1)
  else if last = 's' then some (s.dropLast, 1)
  else if last = 'm' then some (s.dropLast, 60)
  else if last = 'h' then some (s.dropLast, 3600)
  else if last = 'd' then some (s.dropLast, 86400)
  else none

/-- A number and its unit, up to a week. -/
def parseDuration (input : String) : Except ParseDurationError Nat :=
  let s := trimChars input.toList
  match s.getLast? with
  | none => .error .empty
  | some last =>
    match splitUnit s last with
    | none => .error .unknownUnit
    | some (numPart, multiplier) =>
      if numPart.isEmpty || !numPart.all Char.isDigit then .error .invalidNumber
      else match parseU64 numPart with
        | none => .error .invalidNumber
        | some n =>
          if 2 ^ 64 ≤ n * multiplier then .error .invalidNumber
          else if n * multiplier = 0 then .error .zero
          else if maxSuspendDuration < fromSecs (n * multiplier) then .error .tooLong
          else .ok (fromSecs (n * multiplier))

/-- The reply to each. -/
def durationErrorMessage : ParseDurationError → String
  | .empty => "Dauer fehlt. Nutze z.B. 30s, 10m, 2h, 1d FDM"
  | .invalidNumber => "Ungültige Zahl. Nutze z.B. 30s, 10m, 2h, 1d FDM"
  | .unknownUnit => "Unbekannte Einheit. Erlaubt: s, m, h, d FDM"
  | .zero => "Dauer muss größer als 0 sein FDM"
  | .tooLong => "Dauer zu lang (max 7 Tage) FDM"

/-- What is left, in its two largest units. -/
def formatCooldownRemaining (remaining : Nat) : String :=
  let totalSecs := remaining / 1000000000
  let hours := totalSecs / 3600
  let minutes := totalSecs % 3600 / 60
  let seconds := totalSecs % 60
  if totalSecs = 0 then if remaining = 0 then "0s" else "1s"
  else if 0 < hours then if 0 < minutes then s!"{hours}h {minutes}m" else s!"{hours}h"
  else if 0 < minutes then if 0 < seconds then s!"{minutes}m {seconds}s" else s!"{minutes}m"
  else s!"{seconds}s"

/-! ## The admin commands -/

/-- What cannot be suspended. -/
def exemptCommands : List String := ["suspend", "unsuspend", "p"]

/-- What `!suspend` is asked for: a command, as it was given, and a duration; else what it answers. -/
def suspendRequest (settings : Settings) (m : Privmsg) (args : List String) : Except String (String × Nat) :=
  if !isAdmin m settings.twitch.hiddenAdmins then .error adminDeniedMsg
  else match args with
    | [] => .error "Nutze: !suspend <command> [dauer]"
    | rawCmd :: rest =>
      if exemptCommands.contains (normalizeCommandName rawCmd) then .error "Das kann nicht gesperrt werden FDM"
      else match rest with
        | [] => .ok (rawCmd, fromSecs settings.suspend.defaultDurationSecs.toNat)
        | duration :: _ =>
          match parseDuration duration with
          | .error err => .error (durationErrorMessage err)
          | .ok duration => .ok (rawCmd, duration)

/-- What `!unsuspend` is asked for. -/
def unsuspendRequest (settings : Settings) (m : Privmsg) (args : List String) : Except String String :=
  if !isAdmin m settings.twitch.hiddenAdmins then .error adminDeniedMsg
  else match args with
    | [] => .error "Nutze: !unsuspend <command>"
    | rawCmd :: _ => .ok rawCmd

/-- A call of one of the two that got past its checks. -/
inductive Call where
  | suspend (command : String) (expiry : Nat)
  | unsuspend (command : String)
  deriving DecidableEq

/-- What one of the two does to the manager, which call it was, and what it answers. -/
structure Outcome where
  manager : SuspensionManager
  call : Option Call := none
  reply : String

/-- Suspending a command, for a while. -/
def suspendExecute (settings : Settings) (m : Privmsg) (args : List String) (manager : SuspensionManager) (now : Nat) : Outcome :=
  match suspendRequest settings m args with
  | .error reply => { manager, reply }
  | .ok (rawCmd, duration) =>
    let cmd := normalizeCommandName rawCmd
    { manager := manager.suspend cmd duration now
      call := some (.suspend rawCmd (now + duration))
      reply := s!"!{cmd} gesperrt für {formatCooldownRemaining duration}" }

/-- Ending that. -/
def unsuspendExecute (settings : Settings) (m : Privmsg) (args : List String) (manager : SuspensionManager) (now : Nat) : Outcome :=
  match unsuspendRequest settings m args with
  | .error reply => { manager, reply }
  | .ok rawCmd =>
    let cmd := normalizeCommandName rawCmd
    { manager := (manager.unsuspend cmd now).1
      call := some (.unsuspend rawCmd)
      reply := if (manager.unsuspend cmd now).2 then s!"!{cmd} entsperrt Okayge" else s!"!{cmd} war nicht gesperrt FDM" }

/-! ## The list of commands -/

/-- A command that leaves the trait's defaults as they are. -/
def Command.named (name : String) : Command where
  name
  enabled := true
  accepts word := name == word
  suspendKey := normalizeCommandName

/-- The two spellings of one word. -/
def matchesDoenerTrigger (T : LowerTable) (word : String) : Bool :=
  match word.toList with
  | '!' :: stripped =>
    let lowered := T.toLowercase (String.ofList stripped)
    lowered == "döner" || lowered == "doener"
  | _ => false

/-- The command of that word. -/
def doenerCalcCommand (T : LowerTable) : Command where
  name := "!döner"
  enabled := true
  accepts := matchesDoenerTrigger T
  suspendKey _ := "doener"

/-- The command of the AI, which has several words. -/
def aiCommand : Command where
  name := "!ai"
  enabled := true
  accepts := isAiTrigger
  suspendKey _ := "ai"

/-- The command that needs a client for flights. -/
def flightsAboveCommand (hasAviationClient : Bool) : Command := { Command.named "!up" with enabled := hasAviationClient }

/-- The command of the pings, with the names there are at the time. -/
def pingTriggerCommand (names : List String) : Command where
  name := "!<ping>"
  enabled := true
  accepts word :=
    match word.toList with
    | '!' :: name => !name.isEmpty && names.any (eqIgnoreAsciiCase · (String.ofList name))
    | _ => false
  suspendKey := normalizeCommandName

/-- What the bot was started with that its list of commands depends on. -/
structure Registry where
  hasAviationClient : Bool
  hasTracker : Bool
  hasAi : Bool

/-- The commands, in the order in which the dispatcher asks them. -/
def cmdList (T : LowerTable) (r : Registry) (pingNames : List String) : List Command :=
  [.named "!v", .named "!p", .named "!suspend", .named "!unsuspend", .named "!fl", flightsAboveCommand r.hasAviationClient,
    .named "!lb", .named "!pb", .named "!fb", .named "!dpi", doenerCalcCommand T] ++
  (if r.hasTracker then [.named "!track", .named "!untrack", .named "!flights", .named "!flight", .named "!info"] else []) ++
  (if r.hasAi then [aiCommand, .named "!news", .named "!tldr", .named "!haiku"] else []) ++
  [pingTriggerCommand pingNames]

/-! ## A run -/

/-- A message, with the pings and the settings there are then, when the dispatcher looks for a suspension, and when the
command reads the clock. -/
structure Incoming where
  message : Privmsg
  pingNames : List String
  settings : Settings
  checkedAt : Nat
  executedAt : Nat

/-- The manager, with the calls that got it there, the latest first. -/
structure Running where
  manager : SuspensionManager
  calls : List Call

/-- Nothing is suspended when the bot starts. -/
def Running.new : Running := ⟨∅, []⟩

namespace Running

variable (T : LowerTable) (d : Dispatcher) (r : Registry)

/-- What the dispatcher does with a message. -/
def handle (running : Running) (e : Incoming) : Handled :=
  d.handle (cmdList T r e.pingNames) (fun key => (running.manager.isSuspended key e.checkedAt).isSome) e.message

/-- What an execution leaves: only the two admin commands write to the manager. -/
def execute (running : Running) (e : Incoming) (x : Execution) : Running :=
  if x.command.name = "!suspend" then
    let outcome := suspendExecute e.settings e.message x.invocation.args running.manager e.executedAt
    ⟨outcome.manager, outcome.call.toList ++ running.calls⟩
  else if x.command.name = "!unsuspend" then
    let outcome := unsuspendExecute e.settings e.message x.invocation.args running.manager e.executedAt
    ⟨outcome.manager, outcome.call.toList ++ running.calls⟩
  else running

/-- One message. -/
def step (running : Running) (e : Incoming) : Running :=
  match (running.handle T d r e).executed with
  | none => running
  | some x => running.execute e x

/-- The messages of a run, in their order. -/
def run (events : List Incoming) : Running := events.foldl (step T d r) .new

end Running

end Twitch1337.Dispatch
