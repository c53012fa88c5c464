import Twitch1337.Settings.Audit
import Twitch1337.Settings.Overrides
import Twitch1337.Settings.Validation

/-!
# The settings store

`settings/store/mod.rs` and `load.rs`. A write holds the store's lock, so writes follow one another. What the file system does
to a call is a parameter of it. An atomic save happens or fails without effect. Of `settings.ron` there is what it is read as:
what was saved, but for the sizes of media, which are read back from a rounded text.
-/

namespace Twitch1337.Dashboard

/-! ## State -/

/-- `settings.ron` as `SettingsStore::open` finds it: absent, not readable as overrides, or read. -/
inductive SettingsFile where
  | absent
  | corrupt
  | overrides (o : SettingsOverrides)

/-- The file of the store as it is read once the store is open, the live handle, and the audit log. -/
structure SettingsStore where
  file : Option SettingsOverrides
  handle : Settings
  audit : List AuditEntry
  deriving DecidableEq

inductive SettingsError where
  | validation (errs : List Schedules.FieldError)
  | io
  | ron
  | persist
  deriving DecidableEq

/-- What becomes of an append to the audit log. One that fails can have written the entry all the same. -/
inductive Append where
  | ok
  | failed (written : Bool)
  deriving DecidableEq

/-- What the file system and the clock do to a call: the error of its load, the success of its save, its append. -/
structure Io where
  loadError : Option SettingsError
  saves : Bool
  append : Append
  now : Chrono.Instant

/-! ## Open -/

/-- `SettingsStore::open`. A file that is corrupt or out of bounds is renamed, which can fail. -/
def SettingsStore.open (L : Libs) (bootChannel : String) (file : SettingsFile) (renames : Bool) (audit : List AuditEntry) :
    Option SettingsStore :=
  let loaded : Option (Option SettingsOverrides) :=
    match file with
    | .absent => some none
    | .overrides o => some (some o)
    | .corrupt => if renames then some none else none
  loaded.bind fun overrides =>
    let resolved := Settings.resolve .compiledDefaults (overrides.getD {})
    match resolved.validate L bootChannel with
    | .ok () => some ⟨overrides, resolved, audit⟩
    | .error _ => if overrides.isNone || renames then some ⟨none, .compiledDefaults, audit⟩ else none

/-! ## Writes -/

/-- What `settings.ron` is read as when it was saved with these overrides. -/
def SettingsOverrides.stored (L : Libs) (o : SettingsOverrides) : SettingsOverrides :=
  { o with
    ai := { o.ai with
      media := { o.ai.media with
        maxImageSize := o.ai.media.maxImageSize.map L.storedSize
        maxPdfSize := o.ai.media.maxPdfSize.map L.storedSize
        maxAudioSize := o.ai.media.maxAudioSize.map L.storedSize
        maxVideoSize := o.ai.media.maxVideoSize.map L.storedSize
        maxTextSize := o.ai.media.maxTextSize.map L.storedSize } } }

/-- The audit log after an entry was handed to it. -/
def appended (append : Append) (audit : List AuditEntry) (entry : AuditEntry) : List AuditEntry :=
  match append with
  | .ok => audit ++ [entry]
  | .failed written => if written then audit ++ [entry] else audit

/-- The entry of a commit, when there are changes. -/
def auditEntry (now : Chrono.Instant) (actor : Actor) (prior resolved : Settings) : Option AuditEntry :=
  let changes := diffChanges prior resolved
  if changes.isEmpty then none else some ⟨now, actor.userId, actor.userLogin, changes⟩

/-- Shared tail of every mutating path. An append that fails is only logged. -/
def SettingsStore.commit (L : Libs) (st : SettingsStore) (io : Io) (current : SettingsOverrides) (priorResolved resolved : Settings)
    (actor : Actor) : Except SettingsError Settings × SettingsStore :=
  if io.saves then
    (.ok resolved, {
      file := some (current.stored L)
      handle := resolved
      audit := match auditEntry io.now actor priorResolved resolved with
        | some entry => appended io.append st.audit entry
        | none => st.audit })
  else (.error .persist, st)

def SettingsStore.applyWith (L : Libs) (bootChannel : String) (st : SettingsStore) (io : Io)
    (mutate : SettingsOverrides → SettingsOverrides) (actor : Actor) : Except SettingsError Settings × SettingsStore :=
  match io.loadError with
  | some e => (.error e, st)
  | none =>
    let loaded := st.file.getD {}
    let priorResolved := Settings.resolve .compiledDefaults loaded
    let current := mutate loaded
    let resolved := Settings.resolve .compiledDefaults current
    match resolved.validate L bootChannel with
    | .error errs => (.error (.validation errs), st)
    | .ok () => st.commit L io current priorResolved resolved actor

def SettingsStore.apply (L : Libs) (bootChannel : String) (st : SettingsStore) (io : Io) (patch : SettingsOverrides)
    (actor : Actor) : Except SettingsError Settings × SettingsStore :=
  st.applyWith L bootChannel io (fun current => mergeInto current patch) actor

def SettingsStore.reset (L : Libs) (st : SettingsStore) (io : Io) (sec : SettingsSection) (actor : Actor) :
    Except SettingsError Settings × SettingsStore :=
  match io.loadError with
  | some e => (.error e, st)
  | none =>
    let loaded := st.file.getD {}
    let priorResolved := Settings.resolve .compiledDefaults loaded
    let current := loaded.reset sec
    st.commit L io current priorResolved (Settings.resolve .compiledDefaults current) actor

/-! ## Calls -/

inductive Call where
  | apply (patch : SettingsOverrides)
  | applyWith (mutate : SettingsOverrides → SettingsOverrides)
  | reset (sec : SettingsSection)

/-- What a call makes of the overrides it has loaded. -/
def Call.mutate : Call → SettingsOverrides → SettingsOverrides
  | apply patch, current => mergeInto current patch
  | applyWith mutate, current => mutate current
  | reset sec, current => current.reset sec

/-- A call of the store, and what it returns. -/
def SettingsStore.call (L : Libs) (bootChannel : String) (st : SettingsStore) (io : Io) (actor : Actor) :
    Call → Except SettingsError Settings × SettingsStore
  | .apply patch => st.apply L bootChannel io patch actor
  | .applyWith mutate => st.applyWith L bootChannel io mutate actor
  | .reset sec => st.reset L io sec actor

/-- A call as an event of the store. -/
structure CallEvent where
  io : Io
  actor : Actor
  call : Call

def SettingsStore.step (L : Libs) (bootChannel : String) (st : SettingsStore) (e : CallEvent) : Option SettingsStore :=
  some (st.call L bootChannel e.io e.actor e.call).2

end Twitch1337.Dashboard
