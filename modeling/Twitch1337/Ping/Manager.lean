import Twitch1337.Lib.Keyed
import Twitch1337.Lib.Text

/-!
# The ping manager

`ping.rs`, the pings and what each command does to them. Instants of the monotonic clock and durations are in nanoseconds. What
a function reads from outside is an argument: the clocks, and whether the file could be saved.
-/

namespace Twitch1337.Pings

/-- A ping, as it is saved. -/
structure Ping where
  template : Text
  /-- A hash set, in the order in which it is iterated. -/
  members : List Text
  cooldown : Option UInt64
  createdBy : Text
  lastFiredAt : Option Int
  fireCount : UInt64
  deriving DecidableEq

/-- The pings by their names. -/
abbrev PingStore := Table Text Ping

/-- What a use of a ping leads to. -/
inductive TriggerDecision where
  | skip
  | onCooldown (remaining : Nat)
  | fire (text : Text)
  deriving DecidableEq

/-- The pings, and when each was last triggered since the manager was loaded. -/
structure PingManager where
  store : PingStore
  lastTriggered : Table Text Nat

/-- What comes back of a command that changes the pings: nothing, or the text of an error. -/
abbrev Result := Except Text Unit

/-! ## Errors -/

def invalidTemplate : Text := "Template darf keine Steuerzeichen (z.B. Zeilenumbrüche) enthalten".toList

def emptyName : Text := "Ping-Name darf nicht leer sein".toList

def invalidName : Text := "Ping-Name darf nur Buchstaben, Zahlen, - und _ enthalten".toList

def alreadyThere (name : Text) : Text := "Ping \"".toList ++ name ++ "\" gibt es schon".toList

def noSuchPing (name : Text) : Text := "Ping \"".toList ++ name ++ "\" gibt es nicht".toList

def alreadyMember (username name : Text) : Text :=
  username ++ " ist schon in \"".toList ++ name ++ "\"".toList

def notMember (username name : Text) : Text :=
  username ++ " ist nicht in \"".toList ++ name ++ "\"".toList

def notSaved : Text := "Failed to save pings.ron".toList

/-! ## Templates -/

/-- A template is in one line. -/
def validateTemplate (template : Text) : Result :=
  if template.any Text.isControl then .error invalidTemplate else .ok ()

/-- The text of a ping, or nothing when it mentions nobody. -/
def Ping.render (p : Ping) (sender : Text) : Option Text :=
  let senderInTemplate := Text.contains "{sender}".toList p.template
  let mentions := [' '].intercalate
    ((p.members.filter fun m => !senderInTemplate || m != sender).map fun m => '@' :: m)
  if mentions.isEmpty then none
  else some (Text.replace "{sender}".toList ('@' :: sender) (Text.replace "{mentions}".toList mentions p.template))

/-! ## Triggers -/

/-- The cooldown in force for a ping: its own if it has one, else the default. -/
def Ping.cooldownOr (p : Ping) (default : Nat) : Nat :=
  match p.cooldown with
  | none => default
  | some secs => secs.toNat * 1000000000

/-- One more, up to the largest number. -/
def saturatingSucc (n : UInt64) : UInt64 := if n = UInt64.ofNat (2 ^ 64 - 1) then n else n + 1

/-- A ping that was fired once more. -/
def Ping.fired (p : Ping) (utc : Int) : Ping :=
  { p with lastFiredAt := some utc, fireCount := saturatingSucc p.fireCount }

/-! ## The manager -/

namespace PingManager

/-- The manager over the pings of the file. Pings with an invalid template are dropped. -/
def load (stored : PingStore) : PingManager where
  store := (stored.entries.filter fun e => (validateTemplate e.2.template).isOk).toAList
  lastTriggered := ∅

/-- `save`, which changes nothing in memory. -/
def save (saved : Bool) : Result := if saved then .ok () else .error notSaved

/-- A new ping has a name of its own, and no members. -/
def createPing (m : PingManager) (name template createdBy : Text) (cooldown : Option UInt64) (saved : Bool) :
    PingManager × Result :=
  let name := Text.toAsciiLowercase name
  if name.isEmpty then (m, .error emptyName)
  else if !(name.all fun c => c.isAlphanum || c == '-' || c == '_') then (m, .error invalidName)
  else match validateTemplate template with
    | .error e => (m, .error e)
    | .ok () =>
      if name ∈ m.store then (m, .error (alreadyThere name))
      else ({ m with store := m.store.insert name ⟨template, [], cooldown, createdBy, none, 0⟩ }, save saved)

/-- A ping is gone with its cooldown, whether that is saved or not. -/
def deletePing (m : PingManager) (name : Text) (saved : Bool) : PingManager × Result :=
  if name ∈ m.store then (⟨m.store.erase name, m.lastTriggered.erase name⟩, save saved)
  else (m, .error (noSuchPing name))

/-- A ping is given another text. -/
def editTemplate (m : PingManager) (name template : Text) (saved : Bool) : PingManager × Result :=
  match validateTemplate template with
  | .error e => (m, .error e)
  | .ok () =>
    match m.store.lookup name with
    | none => (m, .error (noSuchPing name))
    | some p => ({ m with store := m.store.insert name { p with template } }, save saved)

/-- `add_member`. `lower` is `str::to_lowercase`. -/
def addMember (lower : Text → Text) (m : PingManager) (name username : Text) (saved : Bool) : PingManager × Result :=
  match m.store.lookup name with
  | none => (m, .error (noSuchPing name))
  | some p =>
    if lower username ∈ p.members then (m, .error (alreadyMember username name))
    else ({ m with store := m.store.insert name { p with members := p.members ++ [lower username] } }, save saved)

/-- A member leaves, under the name in lower case. -/
def removeMember (lower : Text → Text) (m : PingManager) (name username : Text) (saved : Bool) : PingManager × Result :=
  match m.store.lookup name with
  | none => (m, .error (noSuchPing name))
  | some p =>
    if lower username ∈ p.members then
      ({ m with store := m.store.insert name { p with members := p.members.filter (· ≠ lower username) } }, save saved)
    else (m, .error (notMember username name))

/-- Whether someone is a member. -/
def isMember (m : PingManager) (name username : Text) : Bool :=
  match m.store.lookup name with
  | none => false
  | some p => username ∈ p.members

/-- The pings of a member. -/
def listPingsForUser (m : PingManager) (username : Text) : List Text :=
  (m.store.entries.filter fun e => username ∈ e.2.members).map (·.1)

/-- How long a ping may not be triggered yet. `now` is read when it was triggered before. -/
def remainingCooldown (m : PingManager) (name : Text) (default now : Nat) : Option Nat :=
  match m.store.lookup name with
  | none => none
  | some p =>
    match m.lastTriggered.lookup name with
    | none => none
    | some last =>
      let elapsed := now - last
      if elapsed < p.cooldownOr default then some (p.cooldownOr default - elapsed) else none

/-- The text of a ping, when there is one. -/
def renderTemplate (m : PingManager) (name sender : Text) : Option Text :=
  match m.store.lookup name with
  | none => none
  | some p => p.render sender

/-- `record_trigger`, at the times of both clocks. -/
def recordTrigger (m : PingManager) (name : Text) (now : Nat) (utc : Int) (saved : Bool) : PingManager × Result :=
  match m.store.lookup name with
  | none => (m, .ok ())
  | some p => (⟨m.store.insert name (p.fired utc), m.lastTriggered.insert name now⟩, save saved)

/-- `try_record_trigger`. The clock is read for the cooldown, and again when the trigger is recorded. That it could not be saved
is logged and nothing else. -/
def tryRecordTrigger (m : PingManager) (name sender : Text) (default : Nat) (isPublic : Bool) (checked recorded : Nat)
    (utc : Int) (saved : Bool) : PingManager × TriggerDecision :=
  if !isPublic && !m.isMember name sender then (m, .skip)
  else match m.remainingCooldown name default checked with
    | some remaining => (m, .onCooldown remaining)
    | none =>
      match m.renderTemplate name sender with
      | none => (m, .skip)
      | some rendered => ((m.recordTrigger name recorded utc saved).1, .fire rendered)

end PingManager

end Twitch1337.Pings
