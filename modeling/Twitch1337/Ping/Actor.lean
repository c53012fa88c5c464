import Twitch1337.Lib.Machine
import Twitch1337.Ping.Manager

/-!
# The ping actor

`ping.rs`, `run_ping_actor`, as a machine. Its events are the commands it takes off its channel, one after the other.
-/

namespace Twitch1337.Pings

inductive PingCommand where
  | createPing (name template createdBy : Text) (cooldown : Option UInt64)
  | deletePing (name : Text)
  | editTemplate (name template : Text)
  | addMember (name username : Text)
  | removeMember (name username : Text)
  | tryRecordTrigger (name sender : Text) (defaultCooldown : Nat) (isPublic : Bool)
  | snapshot
  | getOne (name : Text)
  | listForUser (username : Text)
  | isMember (name username : Text)
  deriving DecidableEq

structure PingView where
  name : Text
  ping : Ping
  deriving DecidableEq

/-- What a command is answered with. -/
inductive Reply where
  | result (result : Result)
  | decision (decision : TriggerDecision)
  | views (views : List PingView)
  | view (view : Option PingView)
  | names (names : List Text)
  | member (member : Bool)
  deriving DecidableEq

/-- A command, and what the actor reads from outside while it handles it. -/
structure Event where
  command : PingCommand
  /-- The monotonic clock, when a cooldown is checked and when a trigger is recorded. -/
  checked : Nat
  recorded : Nat
  utc : Int
  /-- Whether `pings.ron` could be saved. -/
  saved : Bool

/-- The actor between two commands: its manager, the names it published last, and the last reading of the clock. -/
structure PingActor where
  manager : PingManager
  published : List Text
  clock : Nat

/-- One command. `lower` is `str::to_lowercase`. -/
def PingManager.handle (lower : Text → Text) (m : PingManager) (e : Event) : PingManager × Reply :=
  match e.command with
  | .createPing name template createdBy cooldown =>
    let (m', result) := m.createPing name template createdBy cooldown e.saved
    (m', .result result)
  | .deletePing name =>
    let (m', result) := m.deletePing name e.saved
    (m', .result result)
  | .editTemplate name template =>
    let (m', result) := m.editTemplate name template e.saved
    (m', .result result)
  | .addMember name username =>
    let (m', result) := m.addMember lower name username e.saved
    (m', .result result)
  | .removeMember name username =>
    let (m', result) := m.removeMember lower name username e.saved
    (m', .result result)
  | .tryRecordTrigger name sender default isPublic =>
    let (m', decision) := m.tryRecordTrigger name sender default isPublic e.checked e.recorded e.utc e.saved
    (m', .decision decision)
  | .snapshot => (m, .views (m.store.entries.map fun p => ⟨p.1, p.2⟩))
  | .getOne name => (m, .view ((m.store.lookup name).map fun p => ⟨name, p⟩))
  | .listForUser username => (m, .names (m.listPingsForUser username))
  | .isMember name username => (m, .member (m.isMember name username))

/-- Commands after which the names are published. -/
def PingCommand.publishes : PingCommand → Bool
  | .createPing .. => true
  | .deletePing .. => true
  | _ => false

/-- The actor as it is started, over the pings of the file. -/
def PingActor.start (stored : PingStore) (now : Nat) : PingActor :=
  ⟨.load stored, (PingManager.load stored).store.keys, now⟩

/-- A step of the actor: one command, at readings of the clock that are not before the last one. -/
def PingActor.step (lower : Text → Text) (a : PingActor) (e : Event) : Option PingActor :=
  if a.clock ≤ e.checked ∧ e.checked ≤ e.recorded then
    let m := (a.manager.handle lower e).1
    some ⟨m, if e.command.publishes then m.store.keys else a.published, e.recorded⟩
  else none

end Twitch1337.Pings
