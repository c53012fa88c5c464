import Twitch1337.Lib.Rows
import Twitch1337.Settings.Store
import Twitch1337.Web.ScheduleForm

/-!
# The page of the schedules

`web/routes/schedules.rs`: what its forms do to the settings, as calls of the settings store, and which form stands on the page
when they are turned down. Calls beside each other are ordered by the lock of the store. The cards of the page, and how it shares
out the errors between them, are left out.
-/

namespace Twitch1337.Web

open Dashboard Decimal RustStr Rows Schedules

inductive PageRequest where
  | create (form : ScheduleForm)
  | update (name : String) (form : ScheduleForm)
  | delete (name : String)
  | toggle (name : String)

/-- What comes back. A page has the rows and errors it shows, and the forms to edit a row and to add one. -/
inductive SchedulesAnswer where
  | csrfMismatch
  | internal
  | redirect (flash : String)
  | page (rows : List Schedule) (errs : List FieldError) (editForm newForm : Option FormState)
  /-- The request has ended in an overflow. -/
  | panicked

/-! ## What is done to the overrides -/

def pushRow (row : Schedule) (o : SettingsOverrides) : SettingsOverrides :=
  { o with schedules := some (o.schedules.getD [] ++ [row]) }

def replaceRow (name : String) (row : Schedule) (o : SettingsOverrides) : SettingsOverrides :=
  { o with schedules := some (change Schedule.name name (fun _ => row) (o.schedules.getD [])) }

def dropRow (name : String) (o : SettingsOverrides) : SettingsOverrides :=
  { o with schedules := some ((o.schedules.getD []).filter fun row => row.name ≠ name) }

def flipRow (name : String) (o : SettingsOverrides) : SettingsOverrides :=
  { o with schedules := some (change Schedule.name name (fun row => { row with enabled := !row.enabled }) (o.schedules.getD [])) }

/-! ## Handlers -/

def formStateFromForm (form : ScheduleForm) : FormState where
  name := trim form.name
  message := trim form.message
  kind := form.kind
  intervalEvery := form.intervalEvery
  intervalActiveFrom := form.intervalActiveFrom
  intervalActiveTo := form.intervalActiveTo
  intervalDays := form.intervalDays.toFinset
  calendarAt := form.calendarAt
  calendarDays := form.calendarDays.toFinset
  startDate := form.startDate
  endDate := form.endDate
  enabled := form.enabled.isSome

def renderValidation (rows : List Schedule) (errs : List FieldError) (editOnError : Option String) (submitted : Option FormState) :
    SchedulesAnswer :=
  match editOnError, submitted with
  | some _, some fs => .page rows errs (some fs) none
  | some name, none => .page rows errs (some { name }) none
  | none, some fs => .page rows errs none (some fs)
  | none, none => .page rows errs none none

def applyOrRerender (L : Libs) (bootChannel : String) (st : SettingsStore) (io : Io) (actor : Actor)
    (mutate : SettingsOverrides → SettingsOverrides) (editOnError : Option String) (submitted : Option FormState) :
    SchedulesAnswer × SettingsStore :=
  match st.applyWith L bootChannel io mutate actor with
  | (.ok _, st') => (.redirect "Schedules saved.", st')
  | (.error (.validation errs), st') => (renderValidation st'.handle.schedules errs editOnError submitted, st')
  | (.error _, st') => (.internal, st')

/-- What the handlers use: how texts are read and written, and the channel the bot was booted with. -/
structure Page where
  build : Build
  readers : Readers
  libs : Libs
  bootChannel : String

/-- The handler of a form that has the row in it, once its token is checked. -/
def Page.submit (P : Page) (st : SettingsStore) (form : ScheduleForm) (name : Option String)
    (apply : Schedule → FormState → SchedulesAnswer × SettingsStore) : SchedulesAnswer × SettingsStore :=
  match form.tryIntoSchedule P.build P.readers P.libs.render with
  | .error _ => (.panicked, st)
  | .ok (.error errs) => (renderValidation st.handle.schedules errs name (some (formStateFromForm form)), st)
  | .ok (.ok row) => apply row (formStateFromForm form)

/-- A request, whose token is right or not. -/
def Page.handle (P : Page) (st : SettingsStore) (io : Io) (actor : Actor) (csrf : Bool) (request : PageRequest) :
    SchedulesAnswer × SettingsStore :=
  if !csrf then (.csrfMismatch, st)
  else
    match request with
    | .create form =>
      P.submit st form none fun row submitted =>
        applyOrRerender P.libs P.bootChannel st io actor (pushRow row) none (some submitted)
    | .update name form =>
      P.submit st form (some name) fun row submitted =>
        applyOrRerender P.libs P.bootChannel st io actor (replaceRow name row) (some row.name) (some submitted)
    | .delete name => applyOrRerender P.libs P.bootChannel st io actor (dropRow name) none none
    | .toggle name =>
      match st.applyWith P.libs P.bootChannel io (flipRow name) actor with
      | (.ok _, st') => (.redirect s!"Toggled {name}.", st')
      | (.error _, st') => (.internal, st')

structure PageEvent where
  io : Io
  actor : Actor
  csrf : Bool
  request : PageRequest

def Page.step (P : Page) (st : SettingsStore) (e : PageEvent) : Option SettingsStore :=
  some (P.handle st e.io e.actor e.csrf e.request).2

/-- The form to edit a row, if it is on the page that comes back. -/
def SchedulesAnswer.editForm : SchedulesAnswer → Option FormState
  | page _ _ editForm _ => editForm
  | _ => none

end Twitch1337.Web
