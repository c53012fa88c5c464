import Twitch1337.Lib.Chrono
import Twitch1337.Lib.Keyed
import Twitch1337.Lib.Pool

/-!
# Sessions of the dashboard

`web/src/auth`: the table of sessions, the role gate, login and logout. Requests, logins, logouts and the periodic saves are the
processes of a pool; what one of them does between two awaits is one step. A crash ends them all, and the table is loaded from the
file. The log is not in the code: it keeps who was let in, and whose session was removed.
-/

namespace Twitch1337.Web

open Chrono

/-- The value of a cookie. -/
abbrev SessionId := String

/-- What one may do on the dashboard. -/
inductive Role where
  | viewer
  | mod
  | owner
  deriving DecidableEq

/-- Which of them may do more. -/
def Role.rank : Role → Nat
  | viewer => 0
  | mod => 1
  | owner => 2

/-- The fields of a session that a gate reads. -/
structure Session where
  userId : String
  role : Role
  lastSeen : Instant
  lastRoleCheck : Instant
  csrfValue : List UInt8

/-- `DateTime::<Utc>::MIN_UTC`. -/
def minUtc : Instant := seconds (-8334601228800)

/-- `chrono::Duration::from_std` of a number of seconds. -/
def durationFromStd (secs : Nat) : Option Instant :=
  if secs ≤ (2 ^ 63 - 1) / 1000 then some (seconds secs) else none

/-! ## The table -/

/-- The sessions by their ids. -/
abbrev Sessions := Table SessionId Session

/-- The file as it is loaded: the role of every session is due for a check. -/
def load (file : Sessions) : Sessions where
  entries := file.entries.map fun e => ⟨e.1, { e.2 with lastRoleCheck := minUtc }⟩
  nodupKeys := by
    have h := file.nodupKeys
    simpa [List.NodupKeys, List.keys, List.map_map, Function.comp_def] using h

/-- A session that is not too old, which is used from then on; one that is too old is gone. -/
def getAndTouch (table : Sessions) (id : SessionId) (ttlSecs : Nat) (now : Instant) : Sessions × Option Session :=
  match durationFromStd ttlSecs with
  | none => (table, none)
  | some ttl =>
    match table.lookup id with
    | none => (table, none)
    | some session =>
      if ttl < now - session.lastSeen then (table.erase id, none)
      else
        let session := { session with lastSeen := now }
        (table.insert id session, some session)

/-- When the role of a session was checked last. -/
def recordRoleCheck (table : Sessions) (id : SessionId) (now : Instant) : Sessions :=
  match table.lookup id with
  | none => table
  | some session => table.insert id { session with lastRoleCheck := now }

/-! ## The gate -/

/-- What a check says. -/
inductive GateOutcome where
  | allow
  | deny
  deriving DecidableEq

/-- What a step reads from outside: the clock, the settings, what Helix says of the moderators (nothing, when it fails), and the
random id and CSRF value of a login. -/
structure WebIo where
  now : Instant
  sessionTtlSecs : Nat
  modCheckRefreshSecs : Nat
  owner : Option String
  hiddenAdmins : List String
  viewerAllowlist : List String
  helix : Option Bool
  newId : SessionId
  newCsrf : List UInt8

/-- Those of a list and the broadcaster need no answer of the service. -/
def checkIsMod (broadcasterId userId : String) (hiddenAdmins : List String) (helix : Option Bool) : Option GateOutcome :=
  if hiddenAdmins.contains userId || userId = broadcasterId then some .allow
  else helix.map fun moderator => if moderator then .allow else .deny

/-- Whether one is on a list. -/
def checkInAllowlist (userId : String) (allowlist : List String) : GateOutcome :=
  if allowlist.contains userId then .allow else .deny

/-- The check of the role of a session. Nothing, when Helix fails. -/
def recheck (broadcasterId : String) (session : Session) (io : WebIo) : Option GateOutcome :=
  match session.role with
  | .owner => some (if io.owner = some session.userId then .allow else .deny)
  | .mod => checkIsMod broadcasterId session.userId io.hiddenAdmins io.helix
  | .viewer => some (checkInAllowlist session.userId io.viewerAllowlist)

/-- Whether the last check of the role is too old. -/
def Session.stale (session : Session) (io : WebIo) : Bool :=
  seconds io.modCheckRefreshSecs < max (io.now - session.lastRoleCheck) 0

/-! ## Processes -/

/-- What is noted. -/
inductive Obs where
  /-- A request of a session is let in. -/
  | admitted (id : SessionId)
  /-- The check of the role of a session denied it. -/
  | denied (id : SessionId)
  | loggedOut (id : SessionId)
  deriving DecidableEq

/-- The sessions, in memory and as they were saved. -/
structure WebState where
  table : Sessions
  /-- The sessions that were saved last. None, when there is no file. -/
  file : Sessions
  log : List Obs

/-- What is asked of the server. The CSRF value of a logout is what its text decodes to. -/
inductive WebCall where
  | request (min : Role) (sid : SessionId)
  | logout (sid : SessionId) (csrf : Option (List UInt8))
  | login (userId : String) (role : Role)
  | persist

/-- How a request ends. -/
inductive WebOutcome where
  | admitted
  | unauthenticated
  | forbidden
  | csrfMismatch
  | done
  deriving DecidableEq

/-- Where a process is: before its first step, waiting for the check of a role, about to drop a session, waiting for the write
lock, writing under it, or at its end. -/
inductive WebPoint where
  | calling (call : WebCall)
  | rechecking (sid : SessionId) (session : Session)
  | dropping (sid : SessionId)
  | persisting
  | writing (snapshot : Sessions)
  | ended (outcome : WebOutcome)

/-- The step of a process. -/
def WebState.next (broadcasterId : String) (w : WebState) (s : WebPoint) (io : WebIo) : WebState × WebPoint :=
  match s with
  | .calling (.request min sid) =>
    match getAndTouch w.table sid io.sessionTtlSecs io.now with
    | (table, none) => ({ w with table }, .ended .unauthenticated)
    | (table, some session) =>
      if session.role.rank < min.rank then ({ w with table }, .ended .forbidden)
      else if session.stale io then ({ w with table }, .rechecking sid session)
      else ({ w with table, log := w.log ++ [.admitted sid] }, .ended .admitted)
  | .rechecking sid session =>
    match recheck broadcasterId session io with
    | some .allow =>
      ({ w with table := recordRoleCheck w.table sid io.now, log := w.log ++ [.admitted sid] }, .ended .admitted)
    | some .deny => ({ w with table := w.table.erase sid, log := w.log ++ [.denied sid] }, .ended .forbidden)
    -- the last check counts
    | none => ({ w with log := w.log ++ [.admitted sid] }, .ended .admitted)
  | .calling (.logout sid csrf) =>
    match getAndTouch w.table sid io.sessionTtlSecs io.now with
    | (table, none) => ({ w with table }, .ended .csrfMismatch)
    | (table, some session) =>
      if csrf = some session.csrfValue then ({ w with table }, .dropping sid)
      else ({ w with table }, .ended .csrfMismatch)
  | .dropping sid => ({ w with table := w.table.erase sid, log := w.log ++ [.loggedOut sid] }, .persisting)
  | .calling (.login userId role) =>
    ({ w with table := w.table.insert io.newId ⟨userId, role, io.now, io.now, io.newCsrf⟩ }, .persisting)
  | .calling .persist => (w, .persisting)
  | .persisting => (w, .writing w.table)
  | .writing snapshot => ({ w with file := snapshot }, .ended .done)
  | .ended outcome => (w, .ended outcome)

def WebPoint.isEnded : WebPoint → Bool
  | ended _ => true
  | _ => false

/-- The processes of the server, and the write lock. -/
def webServer (broadcasterId : String) : Pool.Program WebState WebPoint WebIo WebCall Unit where
  start := .calling
  holds
    | .writing _ => [()]
    | _ => []
  needs
    | .persisting => some ()
    | _ => none
  done := WebPoint.isEnded
  next w _ s io := w.next broadcasterId s io

/-- What happens: something of the pool, or a crash and the start after it. -/
inductive WebEvent where
  | pool (e : Pool.Event WebIo WebCall)
  | crash

/-- One event. After the end of the program, what was saved is loaded. -/
def webStep (broadcasterId : String) (v : WebState × List WebPoint) : WebEvent → Option (WebState × List WebPoint)
  | .pool e => (webServer broadcasterId).step v e
  | .crash => some ({ v.1 with table := load v.1.file }, [])

/-- The first start, without a file. -/
def webStart : WebState × List WebPoint := (⟨∅, ∅, []⟩, [])

end Twitch1337.Web
