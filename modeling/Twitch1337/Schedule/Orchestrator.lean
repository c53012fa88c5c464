import Mathlib.Data.List.Nodup
import Twitch1337.Lib.Machine
import Twitch1337.Lib.Watch
import Twitch1337.Schedule.Trigger

/-!
# The orchestrator of the schedules

`twitch/handlers/schedule_runner.rs`, as a machine. Its events are the steps of the orchestrator between which others can act,
the two by which a commit of the settings store publishes them, and the return of a task. Hash maps are lists of entries.
-/

namespace Twitch1337.Schedules

open Chrono Watch

/-! ## State -/

/-- The schedules of settings that were committed. Their names are distinct, for these passed validation. -/
structure Committed where
  schedules : List Schedule
  distinct : (schedules.map (·.name)).Nodup

def Committed.enabled (c : Committed) : List Schedule := c.schedules.filter (·.enabled)

/-- A task that was spawned for a schedule. -/
structure Task where
  token : Nat
  schedule : Schedule
  cancelled : Bool
  returned : Bool
  deriving DecidableEq

/-- An entry of `running`: the name, the token that cancels the task, and the schedule the task has captured. -/
structure Running where
  name : String
  cancel : Nat
  captured : Schedule
  deriving DecidableEq

/-- The tasks, and those of them that the orchestrator runs. -/
structure Tasks where
  running : List Running
  spawned : List Task
  deriving DecidableEq

/-- Where the orchestrator stands. A reconcile is the first, before the loop, or one of the loop. -/
inductive Phase where
  | start
  | reconcile (first : Bool)
  | loaded (first : Bool) (settings : Committed)
  | rearm
  | select
  | stopped

/-- The live settings with their `change_notify`, and the orchestrator. -/
structure Orchestrator where
  settings : Cell Committed
  phase : Phase
  tasks : Tasks

/-- The orchestrator as it is started, over the settings there are. -/
def Orchestrator.initial (settings : Committed) : Orchestrator :=
  ⟨⟨settings, false, none⟩, .start, ⟨[], []⟩⟩

/-! ## Reconcile -/

/-- An insert into a hash map. -/
def insertEntry (m : List (String × Schedule)) (entry : String × Schedule) : List (String × Schedule) :=
  m.filter (fun e => e.1 ≠ entry.1) ++ [entry]

/-- The schedules to run, by name. Of two of one name, the later one. -/
def desired (schedules : List Schedule) : List (String × Schedule) :=
  ((schedules.filter (·.enabled)).map fun s => (s.name, s)).foldl insertEntry []

/-- Whether a running task is still wanted, with the content it has. -/
def Running.wanted (want : List (String × Schedule)) (r : Running) : Bool := want.lookup r.name = some r.captured

/-- Tasks of which some are cancelled. -/
def cancelAll (tokens : List Nat) (spawned : List Task) : List Task :=
  spawned.map fun t => if t.token ∈ tokens then { t with cancelled := true } else t

/-- Stop tasks that vanished or changed content (including disabled). -/
def Tasks.retain (ts : Tasks) (want : List (String × Schedule)) : Tasks where
  running := ts.running.filter fun r => r.wanted want
  spawned := cancelAll ((ts.running.filter fun r => !r.wanted want).map (·.cancel)) ts.spawned

/-- Spawn tasks for additions. -/
def Tasks.spawn (ts : Tasks) : List (String × Schedule) → Tasks
  | [] => ts
  | (name, schedule) :: rest =>
    if name ∈ ts.running.map (·.name) then ts.spawn rest
    else
      let token := ts.spawned.length
      Tasks.spawn ⟨ts.running ++ [⟨name, token, schedule⟩], ts.spawned ++ [⟨token, schedule, false, false⟩]⟩ rest

/-- `reconcile`, once the settings are loaded. -/
def Tasks.reconcile (ts : Tasks) (schedules : List Schedule) : Tasks :=
  (ts.retain (desired schedules)).spawn (desired schedules)

/-! ## Tasks -/

def NextFire.isFire : NextFire → Bool
  | .fire _ => true
  | _ => false

/-- A task returns when it is cancelled, or when it asks for the next fire of its schedule and there is none. -/
def Task.leave (Z : Zone) (now : Instant) (t : Task) : Task :=
  if t.cancelled || !(t.schedule.nextActiveFire Z now).isFire then { t with returned := true } else t

/-! ## Steps -/

inductive Event where
  /-- A commit stores new settings in the handle. -/
  | store (settings : Committed)
  /-- The commit notifies the waiters. -/
  | notify
  /-- The orchestrator creates the next `Notified` future, and enables it. -/
  | arm
  /-- A reconcile loads the settings. -/
  | load
  /-- The rest of the reconcile. -/
  | apply
  /-- The select takes the notification. -/
  | wake
  | shutdown
  /-- A task gets to run at a time. -/
  | leave (token : Nat) (now : Instant)

/-- The rest of a reconcile, and where the orchestrator stands after it. -/
def Orchestrator.apply (o : Orchestrator) (first : Bool) (settings : Committed) : Orchestrator :=
  { o with phase := if first then .select else .rearm, tasks := o.tasks.reconcile settings.schedules }

def Orchestrator.step (Z : Zone) (o : Orchestrator) (e : Event) : Option Orchestrator :=
  match e, o.phase with
  | .store settings, _ => (o.settings.store settings).map fun c => { o with settings := c }
  | .notify, _ => o.settings.notifyWaiters.map fun c => { o with settings := c }
  | .leave token now, _ =>
    some { o with tasks.spawned := o.tasks.spawned.map fun t => if t.token = token then t.leave Z now else t }
  | .arm, .start => some { o with settings := o.settings.arm, phase := .reconcile true }
  | .arm, .rearm => some { o with settings := o.settings.arm, phase := .select }
  | .load, .reconcile first => some { o with phase := .loaded first o.settings.value }
  | .apply, .loaded first settings => some (o.apply first settings)
  | .wake, .select => o.settings.wake.map fun c => { o with settings := c, phase := .reconcile false }
  | .shutdown, .select =>
    some { o with
      phase := .stopped
      tasks := ⟨[], cancelAll (o.tasks.running.map (·.cancel)) o.tasks.spawned⟩ }
  | _, _ => none

end Twitch1337.Schedules
