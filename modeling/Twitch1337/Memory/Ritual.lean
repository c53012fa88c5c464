import Twitch1337.Lib.Machine
import Twitch1337.Memory.Transcript

/-!
# The ritual and the transcript

`ai/memory/ritual.rs`, `spawn_ritual` and what `run_ritual` does to the transcript, beside the appends and the edits of the
settings that come between its steps. The time zone is a parameter.
-/

namespace Twitch1337.Memory

open Chrono Schedules

/-- The settings of the dreamer that `spawn_ritual` reads. Settings with a `run_at` that is no time of day are not stored. -/
structure Dreamer where
  enabled : Bool
  runAt : NaiveTime
  deriving DecidableEq

/-- Where the task stands: at the top of its loop, asleep until the next ritual, or ended. -/
inductive Stage where
  | planning
  | sleeping (next : Instant)
  | ended
  deriving DecidableEq

structure Diary where
  transcript : Transcripts
  dreamer : Dreamer
  stage : Stage
  deriving DecidableEq

/-- `resolve_berlin_run_at`: a time of day on a date, an hour later where it falls into a gap. -/
def resolveRunAt (Z : Zone) (date : NaiveDate) (time : NaiveTime) : Option Instant :=
  let dt := andTime date time
  match (Z.fromLocal dt).single? with
  | some resolved => some resolved
  | none => (Z.fromLocal (dt + seconds 3600)).single?

/-- The next ritual: today if its time is still to come, else tomorrow. Nothing, where the task panics. -/
def nextRitual (Z : Zone) (runAt : NaiveTime) (now : Instant) : Option Instant :=
  match (resolveRunAt Z (Z.date now) runAt).filter fun t => decide (now < t) with
  | some next => some next
  | none => resolveRunAt Z (Z.date now + 1) runAt

/-- The date that the transcript of a ritual is filed under: the day before the one it is planned for. -/
def ritualDate (Z : Zone) (next : Instant) : NaiveDate := Z.date next - 1

inductive DiaryEvent where
  | append (ts : Instant) (user text : Text) (written : Written)
  /-- Settings with another dreamer are stored. -/
  | edit (dreamer : Dreamer)
  /-- The task loads the settings at the top of its loop. -/
  | plan (now : Instant)
  /-- It wakes up for the ritual, and rotates the transcript. -/
  | ritual (renames reopens : Bool)
  | shutdown

def Diary.step (Z : Zone) (s : Diary) : DiaryEvent → Option Diary
  | .append ts user text written =>
    some { s with transcript := s.transcript.appendLine (transcriptLine Z ts user text) written }
  | .edit dreamer => some { s with dreamer }
  | .plan now =>
    match s.stage with
    | .planning =>
      if s.dreamer.enabled then
        match nextRitual Z s.dreamer.runAt now with
        | some next => some { s with stage := .sleeping next }
        | none => some { s with stage := .ended }
      else some s
    | _ => none
  | .ritual renames reopens =>
    match s.stage with
    | .sleeping next =>
      some { s with transcript := s.transcript.rotateTo (ritualDate Z next) renames reopens, stage := .planning }
    | _ => none
  | .shutdown => some { s with stage := .ended }

/-- The lines that were appended with success, in order. -/
def appended (Z : Zone) (es : List DiaryEvent) : List Text :=
  es.filterMap fun
    | .append ts user text .whole => some (transcriptLine Z ts user text)
    | _ => none

end Twitch1337.Memory
