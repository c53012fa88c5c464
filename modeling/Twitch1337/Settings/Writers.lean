import Twitch1337.Lib.Pool
import Twitch1337.Settings.Store

/-!
# Writers of the settings

The calls of the store as processes beside each other and beside readers of the live handle, `settings/store/mod.rs`. A writer waits
for `write_lock`, loads the file, saves it, and publishes what it has saved; between these steps others go on. The program can end
at any moment and open the store again, but a single call is not dropped before its end. The ghosts of the world are the log, in
which a start of the program has an entry of no process, and the commit that is saved and not yet published.
-/

namespace Twitch1337.Dashboard

/-! ## The parts of a call -/

/-- What a call checks before it commits: a reset checks nothing. -/
def Call.check (L : Libs) (bootChannel : String) (resolved : Settings) : Call → Except (List Schedules.FieldError) Unit
  | reset _ => .ok ()
  | _ => resolved.validate L bootChannel

/-- What is handed to `commit`. -/
structure Commit where
  current : SettingsOverrides
  priorResolved : Settings
  resolved : Settings

/-- What a call makes of the file that it has loaded. -/
def Call.prepare (c : Call) (loaded : SettingsOverrides) : Commit :=
  ⟨c.mutate loaded, .resolve .compiledDefaults loaded, .resolve .compiledDefaults (c.mutate loaded)⟩

/-- What follows the save. -/
def SettingsStore.publish (store : SettingsStore) (append : Append) (now : Chrono.Instant) (actor : Actor) (commit : Commit) :
    SettingsStore :=
  { store with
    handle := commit.resolved
    audit := match auditEntry now actor commit.priorResolved commit.resolved with
      | some entry => appended append store.audit entry
      | none => store.audit }

/-! ## Processes -/

/-- What is asked of the store. -/
inductive WriterRequest where
  | write (actor : Actor) (call : Call)
  /-- `handle.load()` -/
  | look

/-- Where a process stands. -/
inductive Writer where
  | waiting (actor : Actor) (call : Call)
  | loading (actor : Actor) (call : Call)
  | saving (actor : Actor) (call : Call) (commit : Commit)
  | publishing (actor : Actor) (call : Call) (commit : Commit)
  | looking
  | ended (request : WriterRequest) (result : Except SettingsError Settings)
  /-- The program has ended before. -/
  | killed

/-- A call begins by waiting for the lock. -/
def WriterRequest.start : WriterRequest → Writer
  | write actor call => .waiting actor call
  | look => .looking

def Writer.isDone : Writer → Bool
  | ended _ _ => true
  | killed => true
  | _ => false

/-! ## The store as one sees it -/

/-- What is done to the store as a whole. -/
inductive StoreOp where
  | call (e : CallEvent)
  | look
  /-- The program starts again. -/
  | reopen

/-- The store as an object on which a call, a look or a start is one operation. What is live after a start is what is read. -/
def storeStep (L : Libs) (bootChannel : String) (st : SettingsStore) : StoreOp → SettingsStore × Except SettingsError Settings
  | .call e =>
    let r := st.call L bootChannel e.io e.actor e.call
    (r.2, r.1)
  | .look => (st, .ok st.handle)
  | .reopen =>
    let handle := Settings.resolve .compiledDefaults (st.file.getD {})
    ({ st with handle }, .ok handle)

/-- Whether an operation is what was asked for. -/
def StoreOp.Asks : StoreOp → WriterRequest → Prop
  | call e, .write actor c => e.actor = actor ∧ e.call = c
  | look, .look => True
  | _, _ => False

/-- The store, the log of what was done to it, and the commit that was saved and is not live yet. -/
structure StoreWorld where
  store : SettingsStore
  log : List (Option Nat × StoreOp × Except SettingsError Settings)
  unpublished : Option (Nat × Actor × Call × Commit)

/-- One more entry. -/
def StoreWorld.record (g : StoreWorld) (p : Nat) (op : StoreOp) (r : Except SettingsError Settings) : StoreWorld :=
  { g with log := g.log ++ [(some p, op, r)] }

/-- The step of a process. After the save there is no await, and what follows is seen at once. -/
def StoreWorld.next (L : Libs) (bootChannel : String) (g : StoreWorld) (p : Nat) (s : Writer) (io : Io) : StoreWorld × Writer :=
  match s with
  | .waiting actor call => (g, .loading actor call)
  | .loading actor call =>
    match io.loadError with
    | some e => (g.record p (.call ⟨io, actor, call⟩) (.error e), .ended (.write actor call) (.error e))
    | none =>
      let commit := call.prepare (g.store.file.getD {})
      match call.check L bootChannel commit.resolved with
      | .error errs =>
        (g.record p (.call ⟨io, actor, call⟩) (.error (.validation errs)), .ended (.write actor call) (.error (.validation errs)))
      | .ok () => (g, .saving actor call commit)
  | .saving actor call commit =>
    if io.saves then
      ({ g with store := { g.store with file := some (commit.current.stored L) }, unpublished := some (p, actor, call, commit) },
        .publishing actor call commit)
    else
      (g.record p (.call ⟨{ io with loadError := none }, actor, call⟩) (.error .persist),
        .ended (.write actor call) (.error .persist))
  | .publishing actor call commit =>
    ({ store := g.store.publish io.append io.now actor commit
       log := g.log ++ [(some p, .call ⟨{ io with loadError := none, saves := true }, actor, call⟩, .ok commit.resolved)]
       unpublished := none }, .ended (.write actor call) (.ok commit.resolved))
  | .looking => (g.record p .look (.ok g.store.handle), .ended .look (.ok g.store.handle))
  | s => (g, s)

/-- The calls, one at a time. -/
def writers (L : Libs) (bootChannel : String) : Pool.Program StoreWorld Writer Io WriterRequest Unit where
  start := WriterRequest.start
  holds
    | .loading _ _ => [()]
    | .saving _ _ _ => [()]
    | .publishing _ _ _ => [()]
    | _ => []
  needs
    | .waiting _ _ => some ()
    | _ => none
  done := Writer.isDone
  next := StoreWorld.next L bootChannel

/-! ## The end of the program -/

/-- The end of the program ends every call that has not returned. -/
def Writer.kill : Writer → Writer
  | ended request result => .ended request result
  | _ => .killed

/-- What happens: something of the pool, or the end of the program and its next start, at which a rename can fail. -/
inductive WriterEvent where
  | pool (e : Pool.Event Io WriterRequest)
  | restart (renames : Bool) (now : Chrono.Instant)

/-- The log when the program ends: what is saved has happened, without its entry in the audit log. -/
def StoreWorld.closed (g : StoreWorld) (now : Chrono.Instant) : List (Option Nat × StoreOp × Except SettingsError Settings) :=
  match g.unpublished with
  | none => g.log
  | some (p, actor, call, commit) =>
    g.log ++ [(some p, .call ⟨⟨none, true, .failed false, now⟩, actor, call⟩, .ok commit.resolved)]

/-- One event. -/
def writerStep (L : Libs) (bootChannel : String) (w : StoreWorld × List Writer) : WriterEvent → Option (StoreWorld × List Writer)
  | .pool e => (writers L bootChannel).step w e
  | .restart renames now =>
    (SettingsStore.open L bootChannel (w.1.store.file.elim .absent .overrides) renames w.1.store.audit).map fun store =>
      (⟨store, w.1.closed now ++ [(none, .reopen, .ok store.handle)], none⟩, w.2.map Writer.kill)

end Twitch1337.Dashboard
