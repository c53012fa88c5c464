import Twitch1337.Bot.ChatSender
import Twitch1337.Bot.Suspension
import Twitch1337.Ping.Actor

/-!
# Triggers

`commands/ping_trigger.rs`: what is said when a ping is triggered. A set of members is iterated in any order, which need not be the
same twice.
-/

namespace Twitch1337.Pings

open Text

def parsePingTrigger (lower : Text → Text) (word : Text) : Option Text :=
  ((stripPrefix ['!'] word).filter fun name => !name.isEmpty).map lower

/-- What is handed to the sender of the chat. -/
inductive Said where
  | nothing
  | reply (text : Text)
  | say (text : Text)
  deriving DecidableEq

def TriggerDecision.said : TriggerDecision → Said
  | skip => .nothing
  | onCooldown remaining =>
    .reply ("Bitte warte noch ".toList ++ (Dispatch.formatCooldownRemaining remaining).toList ++ " Waiting".toList)
  | fire rendered => .say rendered

/-- `execute`, with the settings for the cooldown and for who may trigger a ping. -/
def execute (lower : Text → Text) (m : PingManager) (trigger invoker : Text) (cooldown : Nat) (isPublic : Bool)
    (checked recorded : Nat) (utc : Int) (saved : Bool) : PingManager × Said :=
  match parsePingTrigger lower trigger with
  | none => (m, .nothing)
  | some pingName =>
    let (m', decision) := m.tryRecordTrigger pingName invoker cooldown isPublic checked recorded utc saved
    (m', decision.said)

/-- A command of the actor, or a new order of the members of a ping. -/
inductive Move where
  | command (e : Event)
  | reorder (name : Text) (order : List Text)

def Move.step (lower : Text → Text) (m : PingManager) : Move → Option PingManager
  | command e => some (m.handle lower e).1
  | reorder name order =>
    match m.store.lookup name with
    | none => none
    | some p => if order.Perm p.members then some { m with store := m.store.insert name { p with members := order } } else none

end Twitch1337.Pings
