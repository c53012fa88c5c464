import Twitch1337.Ping.Manager

/-!
# The ping manager and its file

The calls of the manager in `ping.rs` that change pings, with what each does to `pings.ron`.
-/

namespace Twitch1337.Pings

/-- A call that changes the pings. -/
inductive Mutation where
  | createPing (name template createdBy : Text) (cooldown : Option UInt64)
  | deletePing (name : Text)
  | editTemplate (name template : Text)
  | addMember (name username : Text)
  | removeMember (name username : Text)
  deriving DecidableEq

/-- The call. `lower` is `str::to_lowercase`. -/
def Mutation.call (lower : Text → Text) (m : PingManager) (saved : Bool) : Mutation → PingManager × Result
  | createPing name template createdBy cooldown => m.createPing name template createdBy cooldown saved
  | deletePing name => m.deletePing name saved
  | editTemplate name template => m.editTemplate name template saved
  | addMember name username => m.addMember lower name username saved
  | removeMember name username => m.removeMember lower name username saved

/-- The manager, and the pings that its file holds. -/
structure Ledger where
  manager : PingManager
  file : PingStore

/-- The call on both. The save comes last: the call is a success when the file was replaced. -/
def Ledger.call (lower : Text → Text) (s : Ledger) (c : Mutation) (saved : Bool) : Ledger × Result :=
  let (m, result) := c.call lower s.manager saved
  (⟨m, if result.isOk then m.store else s.file⟩, result)

end Twitch1337.Pings
