import Twitch1337.Lib.Pool
import Twitch1337.Memory.Tools

/-!
# Everything that goes on around the store

The tool calls of any number of turns, the pages, saves, creations and deletions of the dashboard (`routes/memory.rs`) and bare
calls of the store, as a pool of processes. Their steps are the stretches between which others can act: the accesses to shared
state, of which those under a lock are one step as long as nothing but the lock separates them. The log is not in the code: it
says what happened, for the statements.
-/

namespace Twitch1337.Memory

/-! ## Points of a program -/

/-- Where an operation comes from. A save of the dashboard has the token that was submitted with it. -/
inductive Source where
  | tool (ex : Nat)
  | save (by_ : UserId) (token : Mtime)
  | create (by_ : UserId)
  | delete (by_ : UserId)
  | api (guarded : Bool)
  deriving DecidableEq

/-- Whether the operation runs inside `write_with_guard`. -/
def Source.guarded : Source → Bool
  | save .. => true
  | api guarded => guarded
  | _ => false

/-- How a process ends. -/
inductive Reply where
  | failed
  | shown (kind : FileKind) (body : Text) (token : Mtime)
  | tool (r : ToolReply)
  | saved (outcome : Except WriteError WriteOutcome)
  | stored (result : Except WriteError Unit)
  deriving DecidableEq

/-- Where a process stands. -/
inductive Point where
  /-- A page reads the file, and then its modification time. -/
  | viewing (kind : FileKind)
  | viewed (kind : FileKind) (body : Text)
  /-- A tool call is dispatched, looks for an owner, takes a place in the quota, or takes back that it asked for one. -/
  | calling (ex : Nat) (call : ToolCall)
  | owning (ex : Nat) (slug : Text)
  | asking (ex : Nat) (op : StoreOp)
  | undoing (ex : Nat)
  /-- A guarded write checks its token. -/
  | guarding (src : Source) (kind : FileKind) (body : Text) (expected : Option Mtime) (o : FrontmatterOverride)
  /-- An operation is about to take the lock of its path, has it and is about to take the one for new files, and is about to
  write. -/
  | entering (src : Source) (op : StoreOp)
  | creating (src : Source) (op : StoreOp) (raw : Text)
  | committing (src : Source) (op : StoreOp) (raw : Text) (isNew : Bool)
  /-- A guarded write reads the new modification time. -/
  | stating (src : Source) (kind : FileKind)
  | ended (reply : Reply)

/-! ## Requests -/

/-- What is asked of the memory. -/
inductive Request where
  | view (kind : FileKind)
  | save (by_ : UserId) (kind : FileKind) (body : Text) (token : Mtime) (o : FrontmatterOverride)
  | create (by_ : UserId) (slug body : Text)
  | delete (by_ : UserId) (slug : Text)
  | call (ex : Nat) (call : ToolCall)
  | api (op : StoreOp)
  | apiGuarded (kind : FileKind) (body : Text) (expected : Option Mtime) (o : FrontmatterOverride)

/-- The ids and slugs that the routes of the dashboard let through. -/
def FileKind.routed : FileKind → Bool
  | .user userId => userId ≠ [] && userId.length ≤ 32 && userId.all Char.isDigit
  | .state slug => validateStateSlug slug
  | _ => true

/-- Where the operation of a request comes from. -/
def Request.source : Request → Option Source
  | view _ => none
  | save by_ _ _ token _ => some (.save by_ token)
  | create by_ .. => some (.create by_)
  | delete by_ _ => some (.delete by_)
  | call ex _ => some (.tool ex)
  | api _ => some (.api false)
  | apiGuarded .. => some (.api true)

/-- A request begins with a check of the path. -/
def Request.start : Request → Point
  | view kind => if kind.routed then .viewing kind else .ended .failed
  | save by_ kind body token o => if kind.routed then .guarding (.save by_ token) kind body (some token) o else .ended .failed
  | create by_ slug body =>
    if validateStateSlug slug then .entering (.create by_) (.writeState (.state slug) body (some by_.text) none)
    else .ended .failed
  | delete by_ slug => if validateStateSlug slug then .entering (.delete by_) (.deleteState slug) else .ended .failed
  | call ex c => .calling ex c
  | api op => .entering (.api false) op
  | apiGuarded kind body expected o => .guarding (.api true) kind body expected o

/-! ## The shared state -/

/-- What happened, with the number of the process that did it. -/
inductive Obs where
  | opened (p : Nat) (kind : FileKind) (body : Text)
  | shown (p : Nat) (kind : FileKind) (body : Text) (token : Mtime)
  | judged (p : Nat) (slug : Text) (owner : Option Text)
  | granted (p : Nat) (ex : Nat)
  | checked (p : Nat) (kind : FileKind) (token : Mtime)
  | wrote (p : Nat) (src : Source) (op : StoreOp) (before : Option File) (after : File)
  | removed (p : Nat) (src : Source) (kind : FileKind) (before : Option File)
  deriving DecidableEq

/-- The files, the tools with their quotas, and what was noted. -/
structure World where
  disk : Disk
  executors : List Executor
  log : List Obs

/-- One more note. -/
def World.observe (w : World) (obs : Obs) : World := { w with log := w.log ++ [obs] }

/-! ## Locks -/

/-- A lock of a path, or the one for new files. -/
inductive Lock where
  | path (kind : FileKind)
  | create
  deriving DecidableEq

/-- The order in which locks are taken. -/
def Lock.rank : Lock → Nat
  | path _ => 0
  | create => 1

/-- What a process holds. -/
def Point.holds : Point → List Lock
  | creating _ op _ => [.path op.kind]
  | committing _ op _ isNew => if isNew then [.path op.kind, .create] else [.path op.kind]
  | _ => []

/-- The lock that the next step takes. -/
def Point.needs : Point → Option Lock
  | guarding _ kind _ _ _ => some (.path kind)
  | entering _ op => if op.refusal.isNone then some (.path op.kind) else none
  | creating .. => some .create
  | _ => none

def Point.isEnded : Point → Bool
  | ended _ => true
  | _ => false

/-! ## Steps -/

/-- The reply of a process that has ended. -/
def Point.reply : Point → Option Reply
  | ended reply => some reply
  | _ => none

/-- Where an operation leads when it has come to its end. -/
def Source.finish (src : Source) (kind : FileKind) (result : Except WriteError Unit) : Point :=
  match src, result with
  | .tool _, .ok () => .ended (.tool .ok)
  | .tool _, .error e => .ended (.tool (.store e))
  | src, .ok () => if src.guarded then .stating src kind else .ended (.stored (.ok ()))
  | src, .error e => if src.guarded then .ended (.saved (.error e)) else .ended (.stored (.error e))

/-- What a write does under the lock of the path: it reads the file, and puts the new one together. -/
def Disk.prepared (R : Rfc3339) (d : Disk) (src : Source) (op : StoreOp) (io : Io) : Point :=
  match op.prepare R io.caps io.now (d.read op.kind) with
  | .error e => src.finish op.kind (.error e)
  | .ok raw => if op.isNew (d.read op.kind) then .creating src op raw else .committing src op raw false

/-- The step that takes the lock of the path. -/
def World.enter (R : Rfc3339) (w : World) (p : Nat) (src : Source) (op : StoreOp) (io : Io) : World × Point :=
  match op.refusal with
  | some e => (w, src.finish op.kind (.error e))
  | none =>
    match op with
    | .deleteState slug =>
      let before := w.disk.files.lookup (.state slug)
      match w.disk.unlink io (.state slug) with
      | (disk, .ok ()) =>
        (({ w with disk } : World).observe (.removed p src (.state slug) before), src.finish (.state slug) (.ok ()))
      | (disk, .error e) => ({ w with disk }, src.finish (.state slug) (.error e))
    | op => (w, w.disk.prepared R src op io)

/-- The step that writes the file, and gives back the locks. -/
def World.commit (w : World) (p : Nat) (src : Source) (op : StoreOp) (raw : Text) (io : Io) : World × Point :=
  let before := w.disk.files.lookup op.kind
  match w.disk.commit io op.kind raw with
  | (disk, .ok ()) =>
    (({ w with disk } : World).observe (.wrote p src op before ⟨some raw, w.disk.writes + 1⟩), src.finish op.kind (.ok ()))
  | (disk, .error e) => ({ w with disk }, src.finish op.kind (.error e))

/-- A tool with another count. -/
def World.setCount (w : World) (ex : Nat) (e : Executor) (writeCount : Nat) : World :=
  { w with executors := w.executors.set ex { e with writeCount } }

/-- The next step of a process. -/
def World.next (R : Rfc3339) (w : World) (p : Nat) (s : Point) (io : Io) : World × Point :=
  match s with
  | .viewing kind =>
    match w.disk.readKind R kind io.now with
    | none => (w, .ended .failed)
    | some mf => (w.observe (.opened p kind mf.body), .viewed kind mf.body)
  | .viewed kind body =>
    if io.stats then
      (w.observe (.shown p kind body (w.disk.currentMtime kind)), .ended (.shown kind body (w.disk.currentMtime kind)))
    else (w, .ended .failed)
  | .calling ex call =>
    match w.executors[ex]? with
    | none => (w, .ended .failed)
    | some e =>
      match e.dispatch call with
      | .reply r => (w, .ended (.tool r))
      | .perform op => (w, .asking ex op)
      | .checkOwner slug => (w, .owning ex slug)
  | .owning ex slug =>
    match w.executors[ex]? with
    | none => (w, .ended .failed)
    | some e =>
      let owner := (w.disk.readKind R (.state slug) io.now).bind (·.frontmatter.createdBy)
      if e.mayDelete owner then (w.observe (.judged p slug owner), .asking ex (.deleteState slug))
      else (w, .ended (.tool .permissionDenied))
  | .asking ex op =>
    match w.executors[ex]? with
    | none => (w, .ended .failed)
    | some e =>
      -- `fetch_add`
      let used := e.writeCount
      let w' := w.setCount ex e (used + 1)
      if e.maxWritesPerTurn ≤ used then (w', .undoing ex) else (w'.observe (.granted p ex), .entering (.tool ex) op)
  | .undoing ex =>
    match w.executors[ex]? with
    | none => (w, .ended .failed)
    | some e => (w.setCount ex e e.maxWritesPerTurn, .ended (.tool .writeQuotaExhausted))
  | .guarding src kind body expected o =>
    match w.disk.checkToken R io kind expected with
    | some outcome =>
      (match outcome, w.disk.readKind R kind io.now with
        -- the page of a conflict
        | .ok (.conflict ..), some mf =>
          (w.observe (.opened p kind mf.body)).observe (.shown p kind mf.body (w.disk.currentMtime kind))
        | _, _ => w, .ended (.saved outcome))
    | none =>
      (match expected with
        | none => w
        | some token => w.observe (.checked p kind token), .entering src (guardedOp kind body o))
  | .entering src op => w.enter R p src op io
  | .creating src op raw =>
    match w.disk.checkCount io with
    | .error e => (w, src.finish op.kind (.error e))
    | .ok () => (w, .committing src op raw true)
  | .committing src op raw _ => w.commit p src op raw io
  | .stating _ kind =>
    (w, .ended (.saved (if io.stats then .ok (.written (w.disk.currentMtime kind)) else .error .system)))
  | .ended reply => (w, .ended reply)

/-- A process has its request, and is at some point of its program. -/
structure Process where
  request : Request
  point : Point

/-- The programs of all processes. -/
def traffic (R : Rfc3339) : Pool.Program World Process Io Request Lock where
  start request := ⟨request, request.start⟩
  holds q := q.point.holds
  needs q := q.point.needs
  done q := q.point.isEnded
  next w p q io :=
    let (w', s) := w.next R p q.point io
    (w', { q with point := s })

/-- The events of the traffic, and its states. -/
abbrev TrafficEvent := Pool.Event Io Request

/-- The memory and its processes. -/
abbrev Traffic := World × List Process

/-- One event. -/
def Traffic.step (R : Rfc3339) : Traffic → TrafficEvent → Option Traffic := (traffic R).step

/-- A store before anything happens, and the executors of the turns to come. -/
def Traffic.start (disk : Disk) (executors : List Executor) : Traffic := (⟨disk, executors, []⟩, [])

end Twitch1337.Memory
