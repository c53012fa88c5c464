import Twitch1337.Daily.Tracker1337
import Twitch1337.Lib.Machine
import Twitch1337.Lib.Text
import Twitch1337.Schedule.Trigger

/-!
# The handler of the daily session

`run_1337_handler` and `monitor_1337_messages` of `twitch/handlers/tracker_1337.rs`. What the monitor receives of the messages that
are broadcast is what it hears: those that are lost in a lag, or still on their way when it is aborted, it does not hear. The
program can end at any moment and start again. The time zone and the random part of the message are parameters. The ghosts are the
days: what was heard on each, and which of them the board and its file have.
-/

namespace Twitch1337.Daily

open Chrono Schedules

/-! ## Times -/

/-- `resolve_berlin_time`: the later of two instants, and without one the reading as UTC. -/
def resolveBerlinTime (Z : Zone) (naive : NaiveDateTime) : Instant :=
  match Z.fromLocal naive with
  | .single t => t
  | .ambiguous _ latest => latest
  | .none => naive

def calculateNextOccurrence (Z : Zone) (now : Instant) (hour minute : Nat) : Instant :=
  let target := resolveBerlinTime Z (andTime (Z.date now) (.fromHms hour minute 0))
  if target ≤ now then resolveBerlinTime Z (andTime (Z.date (now + seconds 86400)) (.fromHms hour minute 0)) else target

/-- Until when `sleep_until_hms` sleeps, when that is still to come. The latency is in milliseconds. -/
def sleepTarget (Z : Zone) (now : Instant) (hour minute second : Nat) (expectedLatency : Nat) : Instant :=
  resolveBerlinTime Z (andTime (Z.date now) (.fromHms hour minute second)) - expectedLatency * 1000000

def targetHour : Nat := 13

def targetMinute : Nat := 37

/-! ## Messages -/

structure Privmsg where
  channelLogin : String
  login : String
  messageText : String
  serverTimestamp : Instant

def isClanker (login : String) : Bool :=
  ["supibot", "potatbotat", "streamelements", "koknuts", "thedagothur"].contains login

def isValid1337Message (m : Privmsg) : Bool :=
  !isClanker m.login &&
    (Text.contains "DANKIES".toList m.messageText.toList || Text.contains "1337".toList m.messageText.toList)

def maxUsers : Nat := 10000

/-- Who has made it with a message, and after how many milliseconds. -/
def qualifies (Z : Zone) (channel : String) (m : Privmsg) : Option (String × Nat) :=
  if m.channelLogin ≠ channel then none
  else
    let time := Z.time m.serverTimestamp
    if (time.secs / 3600, time.secs / 60 % 60) ≠ (targetHour, targetMinute) then none
    else if isValid1337Message m then some (m.login, time.secs % 60 * 1000 + time.frac / 1000000)
    else none

/-- What the monitor does with a message. -/
def monitor (Z : Zone) (channel : String) (users : Table String Nat) (m : Privmsg) : Table String Nat :=
  match qualifies Z channel m with
  | none => users
  | some (login, ms) =>
    if maxUsers ≤ users.keys.length then users
    else if login ∈ users then users
    else users.insert login ms

/-! ## The handler -/

/-- Where the handler stands: at the top of its loop, asleep until 13:36, or with the monitor on, before and after its reminder. The
instant at which a session began and what was heard in it are not in the code. -/
inductive Stage where
  | planning
  | sleeping (next : Instant)
  | reminding (opened : Instant) (heard : List Privmsg) (users : Table String Nat) (target : Instant)
  | closing (opened : Instant) (heard : List Privmsg) (users : Table String Nat) (target : Instant)

/-- A day: what was heard, the session at its end, and what was said. -/
structure Day where
  heard : List Privmsg
  session : Session
  message : String

structure Handler where
  now : Instant
  stage : Stage
  board : Leaderboard
  file : Leaderboard
  days : List Day
  onBoard : List Session
  onFile : List Session

inductive HandlerEvent where
  | pass (time : Nat)
  /-- The handler goes to sleep until 13:36. -/
  | plan
  | wake (latency : Nat)
  | hear (m : Privmsg)
  | remind (latency : Nat)
  /-- It says and keeps what has happened. A save can fail. -/
  | close (stats : String) (saves : Bool)
  | restart

def Handler.step (Z : Zone) (channel : String) (h : Handler) : HandlerEvent → Option Handler
  | .pass time => some { h with now := h.now + time }
  | .plan =>
    match h.stage with
    | .planning => some { h with stage := .sleeping (calculateNextOccurrence Z h.now targetHour (targetMinute - 1)) }
    | _ => none
  | .wake latency =>
    match h.stage with
    | .sleeping next =>
      if next ≤ h.now then
        some { h with stage := .reminding h.now [] ∅ (sleepTarget Z h.now targetHour (targetMinute - 1) 30 latency) }
      else none
    | _ => none
  | .hear m =>
    match h.stage with
    | .reminding opened heard users target =>
      some { h with stage := .reminding opened (heard ++ [m]) (monitor Z channel users m) target }
    | .closing opened heard users target =>
      some { h with stage := .closing opened (heard ++ [m]) (monitor Z channel users m) target }
    | _ => none
  | .remind latency =>
    match h.stage with
    | .reminding opened heard users target =>
      if target ≤ h.now then
        some { h with stage := .closing opened heard users (sleepTarget Z h.now targetHour (targetMinute + 1) 0 latency) }
      else none
    | _ => none
  | .close stats saves =>
    match h.stage with
    | .closing _ heard users target =>
      if target ≤ h.now then
        let session : Session := ⟨users, Z.date h.now⟩
        let board := session.update h.board
        some { h with
          stage := .planning
          board
          file := if saves then board else h.file
          days := h.days ++ [⟨heard, session, session.message stats h.board⟩]
          onBoard := h.onBoard ++ [session]
          onFile := if saves then h.onBoard ++ [session] else h.onFile }
      else none
    | _ => none
  | .restart => some { h with stage := .planning, board := h.file, onBoard := h.onFile }

/-- The first start, without a file. -/
def Handler.start (now : Instant) : Handler := ⟨now, .planning, ∅, ∅, [], [], []⟩

end Twitch1337.Daily
