import Mathlib.Data.List.MinMax
import Twitch1337.Lib.Keyed
import Twitch1337.Schedule.Types

/-!
# The daily 1337 session

`twitch/handlers/tracker_1337.rs`: the leaderboard, and what is said and kept at the end of a session. The random part of the
message is an input.
-/

namespace Twitch1337.Daily

open Schedules

structure PersonalBest where
  ms : Nat
  date : NaiveDate
  deriving DecidableEq

abbrev Leaderboard := Table String PersonalBest

inductive Achievement where
  | overallRecord
  | personalBest
  | none
  deriving DecidableEq

/-- The smallest time on the board. -/
def Leaderboard.record (board : Leaderboard) : Option Nat := (board.entries.map fun e => e.2.ms).min?

def beatsOwnBest (user : String) (ms : Nat) (board : Leaderboard) : Bool := (board.lookup user).all fun own => ms < own.ms

def classifyAchievement (user : String) (ms : Nat) (board : Leaderboard) : Achievement :=
  if board.record.all fun record => ms < record then .overallRecord
  else if beatsOwnBest user ms board then .personalBest
  else .none

/-- `SLOWEST_CHATTER_MIN_MS`. -/
def slowestChatterMinMs : Nat := 50000

/-- A session: the users with their milliseconds after 13:37, and the date at its end. -/
structure Session where
  users : Table String Nat
  today : NaiveDate

def Session.timedUsers (s : Session) : List (String × Nat) := s.users.entries.map fun e => (e.1, e.2)

/-- The first of those with the smallest time below one second. -/
def Session.fastest (s : Session) : Option (String × Nat) := (s.timedUsers.filter (·.2 < 1000)).argmin (·.2)

/-- The last of those with the greatest time. -/
def Session.slowest (s : Session) : Option (String × Nat) :=
  (s.timedUsers.filter (slowestChatterMinMs ≤ ·.2)).reverse.argmax (·.2)

def Achievement.suffix : Achievement → String
  | overallRecord => " - neuer Rekord WICKED"
  | personalBest => " - neue PB!"
  | none => ""

/-- What is said after a session, with the board as it was before. -/
def Session.message (s : Session) (stats : String) (board : Leaderboard) : String :=
  let fast :=
    match s.fastest with
    | some (user, ms) =>
      s!" | {user} war mass schnellste mit {ms}ms" ++
        if ms < 1000 then (classifyAchievement user ms board).suffix else ""
    | .none => ""
  let slow :=
    match s.slowest with
    | some (user, ms) =>
      let seconds := ms / 1000
      if s.fastest.all fun f => user ≠ f.1 || ms ≠ f.2 then s!" | Am langsamsten war {user} mit {seconds}s" else ""
    | .none => ""
  stats ++ fast ++ slow

/-- The update of the board by one user. -/
def updateUser (today : NaiveDate) (board : Leaderboard) (user : String) (ms : Nat) : Leaderboard :=
  if ms < 1000 && beatsOwnBest user ms board then board.insert user ⟨ms, today⟩ else board

/-- The update of the board at the end of a session, in the order of the map. -/
def Session.update (s : Session) (board : Leaderboard) : Leaderboard :=
  s.users.entries.foldl (fun board e => updateUser s.today board e.1 e.2) board

/-- The board after some sessions. -/
def boardAfter (sessions : List Session) : Leaderboard := sessions.foldl (fun board s => s.update board) ∅

end Twitch1337.Daily
