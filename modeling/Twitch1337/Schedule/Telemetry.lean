import Twitch1337.Lib.Keyed
import Twitch1337.Lib.Pool
import Twitch1337.Schedule.Trigger

/-!
# Telemetry of the schedules

`schedule/telemetry.rs`. The calls of `record_fire` and `flush` on one store are the processes of a pool. Each of their steps is
one stretch under the lock of the state, or one save, which holds no lock. The numbers of the fires are not in the code: they say
how old a map is.
-/

namespace Twitch1337.Schedules

open Chrono

structure ScheduleRuntime where
  lastFiredAt : Option Instant
  firesToday : UInt32
  dayAnchor : Option NaiveDate
  deriving DecidableEq

def ScheduleRuntime.default : ScheduleRuntime := ⟨none, 0, none⟩

abbrev RuntimeMap := Table String ScheduleRuntime

/-- `maybe_rollover`. -/
def ScheduleRuntime.maybeRollover (r : ScheduleRuntime) (today : NaiveDate) : ScheduleRuntime :=
  if r.dayAnchor = some today then r else { r with dayAnchor := some today, firesToday := 0 }

def saturatingSucc (n : UInt32) : UInt32 := if n = UInt32.ofNat (2 ^ 32 - 1) then n else n + 1

/-- An entry after one more fire. -/
def ScheduleRuntime.fired (r : ScheduleRuntime) (Z : Zone) (at_ : Instant) : ScheduleRuntime :=
  let r := r.maybeRollover (Z.date at_)
  { r with lastFiredAt := some at_, firesToday := saturatingSucc r.firesToday }

/-- `FLUSH_INTERVAL`, in nanoseconds of the monotonic clock. -/
def flushInterval : Nat := 5000000000

/-- The state of the store, and its file. -/
structure TelemetryStore where
  map : RuntimeMap
  dirty : Bool
  lastFlush : Nat
  /-- The map in the file. Nothing, when there is no file or it cannot be parsed. -/
  file : Option RuntimeMap
  /-- How many fires were recorded. -/
  fires : Nat
  /-- How many were when the map in the file was taken. -/
  written : Nat

/-- A call of the store. -/
inductive TelemetryCall where
  | recordFire (name : String) (at_ : Instant)
  | flush
  deriving DecidableEq

/-- Where a call is: before its first step, about to save the map it took, about to report that it did, or at its end. -/
inductive TelemetryPoint where
  | calling (call : TelemetryCall)
  | saving (snap : RuntimeMap) (taken : Nat)
  | completing
  | ended

/-- What a step reads from outside: the monotonic clock, and whether the file could be saved. -/
structure TelemetryIo where
  now : Nat
  saved : Bool

/-- What `open` makes of a file that is missing or cannot be parsed. -/
def readFile (file : Option RuntimeMap) : RuntimeMap := file.getD ∅

/-- `open`. -/
def TelemetryStore.open_ (file : Option RuntimeMap) (now : Nat) : TelemetryStore := ⟨readFile file, false, now, file, 0, 0⟩

/-- The locked step of `record_fire`, with the snapshot of the map where one is due. -/
def TelemetryStore.record (Z : Zone) (w : TelemetryStore) (name : String) (at_ : Instant) (now : Nat) :
    TelemetryStore × Option RuntimeMap :=
  let map := w.map.insert name (((w.map.lookup name).getD .default).fired Z at_)
  ({ w with map, dirty := true, fires := w.fires + 1 }, if flushInterval ≤ now - w.lastFlush then some map else none)

/-- The step of a call. -/
def TelemetryStore.next (Z : Zone) (w : TelemetryStore) (s : TelemetryPoint) (io : TelemetryIo) :
    TelemetryStore × TelemetryPoint :=
  match s with
  | .calling (.recordFire name at_) =>
    match w.record Z name at_ io.now with
    | (w', some snap) => (w', .saving snap w'.fires)
    | (w', none) => (w', .ended)
  | .calling .flush => if w.dirty then (w, .saving w.map w.fires) else (w, .ended)
  | .saving snap taken => if io.saved then ({ w with file := some snap, written := taken }, .completing) else (w, .ended)
  | .completing => ({ w with dirty := false, lastFlush := io.now }, .ended)
  | .ended => (w, .ended)

def TelemetryPoint.isEnded : TelemetryPoint → Bool
  | ended => true
  | _ => false

/-- The calls of a store. None holds a lock from one step to the next. -/
def telemetry (Z : Zone) : Pool.Program TelemetryStore TelemetryPoint TelemetryIo TelemetryCall Empty where
  start := .calling
  holds _ := []
  needs _ := none
  done := TelemetryPoint.isEnded
  next w _ s io := w.next Z s io

end Twitch1337.Schedules
