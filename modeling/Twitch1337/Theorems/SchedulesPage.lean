import Twitch1337.Lib.Linear
import Twitch1337.Theorems.Forms
import Twitch1337.Theorems.Settings
import Twitch1337.Web.SchedulesPage

/-!
# The schedules as a map

The page of the schedules is a map from names to schedules: to add one, to put another in its place, to remove one and to switch
one on or off. A request that is turned down changes nothing, and none changes the other settings, but that a size of media can be
read back rounded. An edit of a name that no schedule has does nothing, and the page says that it is saved.
-/

namespace Twitch1337.Web

open Dashboard Linear RustStr Rows Schedules

variable {L : Libs} {channel : String} {st : SettingsStore} {rows : List Schedule} {row : Schedule} {name : String}

/-! ## Valid rows -/

/-- Whether a row has no error of its own. -/
def Fit (R : Render) (s : Schedule) : Prop := s.validate R "" = []

/-- The errors of a row do not depend on where it stands. -/
theorem validate_eq_nil_iff {R : Render} (pre : String) : row.validate R pre = [] ↔ Fit R row := by
  have htrigger : row.trigger.validate pre = [] ↔ row.trigger.validate "" = [] := by
    cases row.trigger with
    | interval every days activeFrom activeTo =>
      simp only [Trigger.validate, List.append_eq_nil_iff, errorIf_eq_nil_iff]
      cases activeFrom <;> cases activeTo <;> simp
    | calendar => rfl
  simp only [Fit, Schedule.validate, List.append_eq_nil_iff, errorIf_eq_nil_iff, htrigger]
  cases row.startDate <;> cases row.endDate <;> simp only [errorIf_eq_nil_iff]

/-- Rows pass when each is fit and no name is there twice. -/
theorem validateSchedules_eq_nil_iff {idx : Nat} {seen : List String} {l : List Schedule} :
    validateSchedules L idx seen l = [] ↔
      (∀ s ∈ l, Fit L.render s) ∧ (l.map fun s => trim s.name).Nodup ∧ ∀ s ∈ l, trim s.name ∉ seen := by
  constructor
  · intro h
    obtain ⟨hnodup, hseen⟩ := names_of_validateSchedules h
    refine ⟨?_, hnodup, hseen⟩
    clear hnodup hseen
    induction l generalizing idx seen with
    | nil => exact fun s hs => absurd hs List.not_mem_nil
    | cons s l ih =>
      simp only [validateSchedules, List.append_eq_nil_iff] at h
      intro t ht
      rcases List.mem_cons.mp ht with rfl | ht
      · exact (validate_eq_nil_iff _).mp h.1.1
      · exact ih h.2 t ht
  · induction l generalizing idx seen with
    | nil => exact fun _ => rfl
    | cons s l ih =>
      rintro ⟨hfit, hnodup, hseen⟩
      rw [List.map_cons, List.nodup_cons] at hnodup
      simp only [validateSchedules, List.append_eq_nil_iff, errorIf_eq_nil_iff]
      refine ⟨⟨(validate_eq_nil_iff _).mpr (hfit s List.mem_cons_self), ?_⟩, ih ⟨fun t ht => ?_, hnodup.2, fun t ht hmem => ?_⟩⟩
      · rw [decide_eq_false (hseen s List.mem_cons_self), Bool.and_false]
      · exact hfit t (List.mem_cons_of_mem _ ht)
      · have hne : trim t.name ≠ trim s.name := fun heq => hnodup.1 (heq ▸ List.mem_map_of_mem ht)
        split at hmem
        · exact hseen t (List.mem_cons_of_mem _ ht) hmem
        · exact (List.mem_cons.mp hmem).elim hne (hseen t (List.mem_cons_of_mem _ ht))

/-- Rows that have no errors of their own, and names that are apart. -/
def Rowed (R : Render) (rows : List Schedule) : Prop := (∀ s ∈ rows, Fit R s) ∧ (rows.map fun s => trim s.name).Nodup

/-- Which is to say that they are in order. -/
theorem rowed_iff : validateSchedules L 0 [] rows = [] ↔ Rowed L.render rows := by
  rw [validateSchedules_eq_nil_iff, Rowed]
  simp

/-- Rows in order have different names. -/
theorem Rowed.names {R : Render} (h : Rowed R rows) : (rows.map Schedule.name).Nodup := by
  refine List.Nodup.of_map trim ?_
  rw [List.map_map]
  exact h.2

/-- A row is put between others. -/
theorem rowed_between {R : Render} {l₁ l₂ : List Schedule} (h : Rowed R (l₁ ++ l₂)) :
    Rowed R (l₁ ++ row :: l₂) ↔ Fit R row ∧ ∀ s ∈ l₁ ++ l₂, trim s.name ≠ trim row.name := by
  have hperm : (l₁ ++ row :: l₂).Perm (row :: (l₁ ++ l₂)) := List.perm_middle
  rw [Rowed, (hperm.map _).nodup_iff, List.map_cons, List.nodup_cons]
  constructor
  · rintro ⟨hfit, hname, -⟩
    exact ⟨hfit row (by simp), fun s hs heq => hname (List.mem_map.mpr ⟨s, hs, heq⟩)⟩
  · rintro ⟨hfit, hname⟩
    refine ⟨fun s hs => ?_, fun hmem => ?_, h.2⟩
    · rcases List.mem_cons.mp (hperm.mem_iff.mp hs) with rfl | hs
      · exact hfit
      · exact h.1 s hs
    · obtain ⟨s, hs, heq⟩ := List.mem_map.mp hmem
      exact hname s hs heq

/-! ## The map -/

/-- The schedules by their names. -/
abbrev Roster : Type := String → Option Schedule

/-- What one can ask for. -/
inductive RosterOp where
  | insert (row : Schedule)
  | replace (name : String) (row : Schedule)
  | remove (name : String)
  | flip (name : String)

/-- No row has the name but for spaces around it, not counting one row. -/
def Roster.Free (m : Roster) (but : Option String) (name : String) : Prop :=
  ∀ n s, m n = some s → some n ≠ but → trim n ≠ trim name

/-- What is allowed: a new row is fit, and its name is free. -/
def RosterOp.Allowed (R : Render) (m : Roster) : RosterOp → Prop
  | insert row => Fit R row ∧ m.Free none row.name
  | replace name row => m name = none ∨ (Fit R row ∧ m.Free (some name) row.name)
  | _ => True

/-- A schedule that is switched. -/
def flipped (row : Schedule) : Schedule := { row with enabled := !row.enabled }

/-- What an operation makes of the map. -/
def RosterOp.apply (m : Roster) : RosterOp → Roster
  | insert row => Function.update m row.name (some row)
  | replace name row => if (m name).isSome then Function.update (Function.update m name none) row.name (some row) else m
  | remove name => Function.update m name none
  | flip name => Function.update m name ((m name).map flipped)

open Classical in
/-- The map as an object: what is not allowed is turned down, and changes nothing. -/
noncomputable def rosterStep (R : Render) (m : Roster) (op : RosterOp) : Roster × Bool :=
  if op.Allowed R m then (op.apply m, true) else (m, false)

/-! ## What is done to the rows -/

/-- What an operation does to the list of rows. -/
def RosterOp.onRows : RosterOp → List Schedule → List Schedule
  | insert row, rows => rows ++ [row]
  | replace name row, rows => change Schedule.name name (fun _ => row) rows
  | remove name, rows => rows.filter fun row => row.name ≠ name
  | flip name, rows => change Schedule.name name flipped rows

/-- A name is free when no other row has it, blanks aside. -/
theorem free_toMap {R : Render} (h : Rowed R rows) {but : Option String} :
    Roster.Free (toMap Schedule.name rows) but name ↔ ∀ s ∈ rows, some s.name ≠ but → trim s.name ≠ trim name := by
  constructor
  · intro hfree s hs
    exact hfree s.name s ((toMap_eq_some_iff h.names).mpr ⟨hs, rfl⟩)
  · intro hfree n s hs
    obtain ⟨hmem, rfl⟩ := (toMap_eq_some_iff h.names).mp hs
    exact hfree s hmem

/-- Rows that are changed in one place. -/
theorem Rowed.change {R : Render} (h : Rowed R rows) (f : Schedule → Schedule) {a : Schedule}
    (ha : toMap Schedule.name rows name = some a) :
    Rowed R (Rows.change Schedule.name name f rows) ↔
      Fit R (f a) ∧ ∀ s ∈ rows, some s.name ≠ some name → trim s.name ≠ trim (f a).name := by
  obtain ⟨hmem, hname⟩ := (toMap_eq_some_iff h.names).mp ha
  rcases change_cases Schedule.name name f rows with ⟨hnone, -⟩ | ⟨l₁, b, l₂, hrows, hb, hl₁, hchange⟩
  · exact absurd (List.mem_map.mpr ⟨a, hmem, hname⟩) hnone
  obtain rfl : a = b := List.inj_on_of_nodup_map h.names hmem (by simp [hrows]) (hname.trans hb.symm)
  have hnames := h.names
  rw [hrows] at h hnames
  have hrest : Rowed R (l₁ ++ l₂) := by
    refine ⟨fun s hs => h.1 s ?_, h.2.sublist ?_⟩
    · rcases List.mem_append.mp hs with hs | hs <;> simp [hs]
    · exact ((List.Sublist.refl l₁).append (List.sublist_cons_self a l₂)).map _
  rw [List.map_append, List.map_cons, List.nodup_append] at hnames
  have hl₂ : name ∉ l₂.map Schedule.name := hname ▸ (List.nodup_cons.mp hnames.2.1).1
  rw [hchange, rowed_between hrest]
  refine and_congr_right fun _ => ⟨fun hfree s hs hne => ?_, fun hfree s hs => hfree s ?_ ?_⟩
  · rw [hrows] at hs
    rcases List.mem_append.mp hs with hs | hs
    · exact hfree s (List.mem_append_left _ hs)
    · rcases List.mem_cons.mp hs with rfl | hs
      · exact absurd (congrArg some hname) hne
      · exact hfree s (List.mem_append_right _ hs)
  · rw [hrows]
    rcases List.mem_append.mp hs with hs | hs <;> simp [hs]
  · intro heq
    have hmem : name ∈ (l₁ ++ l₂).map Schedule.name := List.mem_map.mpr ⟨s, hs, Option.some.inj heq⟩
    rw [List.map_append, List.mem_append] at hmem
    exact hmem.elim hl₁ hl₂

/-- The rows after an operation are in order exactly when it is allowed. -/
theorem rowed_onRows_iff {R : Render} (h : Rowed R rows) (op : RosterOp) :
    Rowed R (op.onRows rows) ↔ op.Allowed R (toMap Schedule.name rows) := by
  cases op with
  | insert row =>
    rw [RosterOp.Allowed, free_toMap h, RosterOp.onRows, rowed_between (by rwa [List.append_nil])]
    simp
  | replace name row =>
    rw [RosterOp.Allowed, free_toMap h, RosterOp.onRows]
    cases ha : toMap Schedule.name rows name with
    | none => simp only [change_of_none ha, h, true_or]
    | some a =>
      rw [h.change _ ha]
      simp
  | remove name =>
    refine iff_of_true ⟨fun s hs => h.1 s (List.mem_of_mem_filter hs), h.2.sublist ?_⟩ trivial
    exact (List.filter_sublist).map _
  | flip name =>
    refine iff_of_true ?_ trivial
    rw [RosterOp.onRows]
    cases ha : toMap Schedule.name rows name with
    | none => rwa [change_of_none ha]
    | some a =>
      obtain ⟨hmem, hname⟩ := (toMap_eq_some_iff h.names).mp ha
      rw [h.change _ ha]
      refine ⟨h.1 a hmem, fun s hs hne heq => hne ?_⟩
      rw [List.inj_on_of_nodup_map h.2 hs hmem heq, hname]

/-- An operation on the rows is the operation on their map. -/
theorem toMap_onRows {R : Render} (h : Rowed R rows) {op : RosterOp} (hop : op.Allowed R (toMap Schedule.name rows)) :
    toMap Schedule.name (op.onRows rows) = op.apply (toMap Schedule.name rows) := by
  cases op with
  | insert row =>
    refine toMap_append fun hmem => ?_
    obtain ⟨s, hs, hname⟩ := List.mem_map.mp hmem
    exact (free_toMap h).mp hop.2 s hs (by simp) (congrArg trim hname)
  | replace name row =>
    rw [RosterOp.onRows, RosterOp.apply]
    cases ha : toMap Schedule.name rows name with
    | none =>
      rw [change_of_none ha]
      rfl
    | some a =>
      rcases hop with hnone | ⟨-, hfree⟩
      · rw [hnone] at ha
        cases ha
      · rw [toMap_change h.names ha fun b hb hne heq =>
          (free_toMap h).mp hfree b hb (fun h => hne (Option.some.inj h)) (congrArg trim heq)]
        rfl
  | remove name => exact toMap_filter rows name
  | flip name =>
    rw [RosterOp.onRows, RosterOp.apply]
    cases ha : toMap Schedule.name rows name with
    | none => rw [change_of_none ha, Option.map_none, ← ha, Function.update_eq_self]
    | some a =>
      obtain ⟨-, hname⟩ := (toMap_eq_some_iff h.names).mp ha
      rw [toMap_change h.names ha fun b _ hne heq => hne (heq.trans hname)]
      have hflipped : (flipped a).name = name := hname
      rw [hflipped, Function.update_idem, Option.map_some]

/-! ## One request -/

/-- The map of the live settings. -/
def roster (st : SettingsStore) : Roster := toMap Schedule.name st.handle.schedules

/-- A load fails for what is in the file or in the way of it. -/
def LoadFails (io : Io) : Prop := ∀ errs, io.loadError ≠ some (.validation errs)

/-- The rows of a sound store are in order. -/
theorem rowed_of_sound (hs : st.Sound L channel) : Rowed L.render st.handle.schedules :=
  rowed_iff.mp hs.validHandle.schedules

/-- What becomes of a call that does an operation to the rows. -/
inductive Applied (L : Libs) (channel : String) (st : SettingsStore) (io : Io) (op : RosterOp) :
    Except SettingsError Settings × SettingsStore → Prop
  | unread (e : SettingsError) (h : io.loadError = some e) : Applied L channel st io op (.error e, st)
  | refused (errs : List FieldError) (h : ¬ op.Allowed L.render (roster st)) :
      Applied L channel st io op (.error (.validation errs), st)
  | unsaved : Applied L channel st io op (.error .persist, st)
  | done (settings : Settings) (st' : SettingsStore) (h : op.Allowed L.render (roster st)) (hs : st'.Sound L channel)
      (hhandle : st'.handle = { Settings.resolve .compiledDefaults (st.file.getD {}) with
        schedules := op.onRows st.handle.schedules })
      (hback : (st.file.getD {}).ReadsBack L → st'.Consistent L channel ∧ (st'.file.getD {}).ReadsBack L) :
      Applied L channel st io op (.ok settings, st')

/-- A call that changes the rows is the operation, or fails. -/
theorem applied_applyWith (hs : st.Sound L channel) (op : RosterOp) (mutate : SettingsOverrides → SettingsOverrides)
    (hmutate : ∀ o, mutate o = { o with schedules := some (op.onRows (o.schedules.getD [])) }) (io : Io) (actor : Actor) :
    Applied L channel st io op (st.applyWith L channel io mutate actor) := by
  have hrowed := rowed_of_sound hs
  have hresolved : Settings.resolve .compiledDefaults (mutate (st.file.getD {})) =
      { Settings.resolve .compiledDefaults (st.file.getD {}) with schedules := op.onRows st.handle.schedules } := by
    rw [hmutate, hs.upToSizes.schedules]
    rfl
  have hvalid : (Settings.resolve .compiledDefaults (mutate (st.file.getD {}))).Valid L channel ↔ op.Allowed L.render (roster st) := by
    rw [hresolved]
    constructor
    · intro h
      exact (rowed_onRows_iff hrowed op).mp (rowed_iff.mp h.schedules)
    · intro hop
      exact { hs.validFile with schedules := rowed_iff.mpr ((rowed_onRows_iff hrowed op).mpr hop) }
  unfold SettingsStore.applyWith
  split
  · rename_i e he
    exact .unread e he
  · dsimp only
    split
    · rename_i errs herrs
      refine .refused errs fun hop => ?_
      rw [Settings.validate_ok_iff.mpr (hvalid.mpr hop)] at herrs
      cases herrs
    · rename_i hok
      have hsound : (st.commit L io (mutate (st.file.getD {})) (.resolve .compiledDefaults (st.file.getD {}))
          (.resolve .compiledDefaults (mutate (st.file.getD {}))) actor).2.Sound L channel :=
        (SettingsStore.commit_keeps io _ actor (Settings.validate_ok_iff.mp hok)).1 hs
      unfold SettingsStore.commit at hsound ⊢
      split
      · rename_i hsaves
        rw [if_pos hsaves] at hsound
        refine .done _ _ (hvalid.mp (Settings.validate_ok_iff.mp hok)) hsound hresolved fun hback => ?_
        -- the rows have no sizes, so that what is saved is read back when what was read is
        have hmutated : (mutate (st.file.getD {})).ReadsBack L := by
          rw [hmutate]
          exact congrArg (fun o : SettingsOverrides => { o with schedules := some (op.onRows ((st.file.getD {}).schedules.getD [])) })
            hback
        refine ⟨⟨?_, hok⟩, ?_⟩
        · rw [Option.getD_some, hmutated]
        · rw [Option.getD_some, hmutated]
          exact hmutated
      · exact .unsaved

/-- The operation that a request asks for, when its form can be read. -/
def Page.asks (P : Page) : PageRequest → Option RosterOp
  | .create form =>
    match form.tryIntoSchedule P.build P.readers P.libs.render with
    | .ok (.ok row) => some (.insert row)
    | _ => none
  | .update name form =>
    match form.tryIntoSchedule P.build P.readers P.libs.render with
    | .ok (.ok row) => some (.replace name row)
    | _ => none
  | .delete name => some (.remove name)
  | .toggle name => some (.flip name)

/-- What the answer says of the operation: that it is done, or turned down. -/
def SchedulesAnswer.verdict : SchedulesAnswer → Option Bool
  | redirect _ => some true
  | page .. => some false
  | _ => none

/-- The entry of a request that has got through to the rows. -/
def Page.entry (P : Page) (st : SettingsStore) (e : PageEvent) : Option (RosterOp × Bool) :=
  (P.asks e.request).bind fun op => (P.handle st e.io e.actor e.csrf e.request).1.verdict.map fun v => (op, v)

/-- What comes of a request that asks for an operation. -/
inductive Handled (L : Libs) (channel : String) (st : SettingsStore) (op : RosterOp) (r : SchedulesAnswer × SettingsStore) : Prop
  | failed (h : r.1.verdict = none) (hst : r.2 = st)
  | refused (h : r.1.verdict = some false) (hop : ¬ op.Allowed L.render (roster st)) (hst : r.2 = st)
  | done (h : r.1.verdict = some true) (hop : op.Allowed L.render (roster st)) (hs : r.2.Sound L channel)
      (hhandle : r.2.handle = { Settings.resolve .compiledDefaults (st.file.getD {}) with
        schedules := op.onRows st.handle.schedules })
      (hback : (st.file.getD {}).ReadsBack L → r.2.Consistent L channel ∧ (r.2.file.getD {}).ReadsBack L)

/-- A page that is shown again turns the operation down. -/
theorem verdict_renderValidation (rows : List Schedule) (errs : List FieldError) (editOnError : Option String)
    (submitted : Option FormState) : (renderValidation rows errs editOnError submitted).verdict = some false := by
  cases editOnError <;> cases submitted <;> rfl

/-- A request is handled as the roster says, whatever the store answers. -/
theorem handled_applyOrRerender (hs : st.Sound L channel) (op : RosterOp) {mutate : SettingsOverrides → SettingsOverrides}
    (hmutate : ∀ o, mutate o = { o with schedules := some (op.onRows (o.schedules.getD [])) }) {io : Io} (hio : LoadFails io)
    (actor : Actor) (editOnError : Option String) (submitted : Option FormState) :
    Handled L channel st op (applyOrRerender L channel st io actor mutate editOnError submitted) := by
  have happlied := applied_applyWith hs op mutate hmutate io actor
  unfold applyOrRerender
  generalize st.applyWith L channel io mutate actor = result at happlied
  cases happlied with
  | unread e he =>
    cases e with
    | validation errs => exact absurd he (hio errs)
    | io | ron | persist => exact .failed rfl rfl
  | refused errs hop => exact .refused (verdict_renderValidation _ _ _ _) hop rfl
  | unsaved => exact .failed rfl rfl
  | done settings st' hop hs' hhandle hback => exact .done rfl hop hs' hhandle hback

variable {P : Page}

/-- A request that asks for an operation does it, is turned down, or fails. -/
theorem handled_handle (hs : st.Sound P.libs P.bootChannel) {e : PageEvent} (hio : LoadFails e.io) {op : RosterOp}
    (hop : P.asks e.request = some op) :
    Handled P.libs P.bootChannel st op (P.handle st e.io e.actor e.csrf e.request) := by
  unfold Page.handle
  cases hcsrf : e.csrf with
  | false => exact .failed rfl rfl
  | true =>
    simp only [Bool.not_true, Bool.false_eq_true, if_false]
    cases hrequest : e.request with
    | create form =>
      rw [hrequest, Page.asks] at hop
      simp only [Page.submit]
      split at hop
      · rename_i row hrow
        cases hop
        rw [hrow]
        exact handled_applyOrRerender hs (.insert row) (fun _ => rfl) hio _ _ _
      · cases hop
    | update name form =>
      rw [hrequest, Page.asks] at hop
      simp only [Page.submit]
      split at hop
      · rename_i row hrow
        cases hop
        rw [hrow]
        exact handled_applyOrRerender hs (.replace name row) (fun _ => rfl) hio _ _ _
      · cases hop
    | delete name =>
      rw [hrequest] at hop
      cases hop
      exact handled_applyOrRerender hs (.remove name) (fun _ => rfl) hio _ _ _
    | toggle name =>
      rw [hrequest] at hop
      cases hop
      have happlied := applied_applyWith hs (.flip name) (flipRow name) (fun _ => rfl) e.io e.actor
      dsimp only
      generalize st.applyWith P.libs P.bootChannel e.io (flipRow name) e.actor = result at happlied
      cases happlied with
      | unread | unsaved => exact .failed rfl rfl
      | refused errs hop => exact absurd trivial hop
      | done settings st' hop hs' hhandle hback => exact .done rfl hop hs' hhandle hback

/-- A request whose form cannot be read changes nothing, and does not say that it has. -/
theorem handle_unread (st : SettingsStore) {e : PageEvent} (hop : P.asks e.request = none) :
    (P.handle st e.io e.actor e.csrf e.request).2 = st ∧
      (P.handle st e.io e.actor e.csrf e.request).1.verdict ≠ some true := by
  have hsubmit : ∀ (form : ScheduleForm) (edit : Option String) (apply : Schedule → FormState → SchedulesAnswer × SettingsStore),
      (∀ row, form.tryIntoSchedule P.build P.readers P.libs.render ≠ .ok (.ok row)) →
        (P.submit st form edit apply).2 = st ∧ (P.submit st form edit apply).1.verdict ≠ some true := by
    intro form edit apply hrow
    unfold Page.submit
    split
    · exact ⟨rfl, by simp [SchedulesAnswer.verdict]⟩
    · refine ⟨rfl, ?_⟩
      rw [verdict_renderValidation]
      simp
    · rename_i row hrow'
      exact absurd hrow' (hrow row)
  unfold Page.handle
  split
  · exact ⟨rfl, by simp [SchedulesAnswer.verdict]⟩
  cases hrequest : e.request with
  | create form =>
    rw [hrequest, Page.asks] at hop
    split at hop
    · cases hop
    · rename_i hrow
      exact hsubmit form none _ hrow
  | update name form =>
    rw [hrequest, Page.asks] at hop
    split at hop
    · cases hop
    · rename_i hrow
      exact hsubmit form (some name) _ hrow
  | delete | toggle =>
    rw [hrequest] at hop
    cases hop

/-- Where an operation is done that is allowed, the map is what the operation makes of it. -/
theorem roster_of_handle (hs : st.Sound L channel) {op : RosterOp} (hop : op.Allowed L.render (roster st)) {base : Settings}
    {st' : SettingsStore} (hhandle : st'.handle = { base with schedules := op.onRows st.handle.schedules }) :
    roster st' = op.apply (roster st) := by
  rw [roster, roster, hhandle]
  exact toMap_onRows (rowed_of_sound hs) hop

/-- The same settings, but for the schedules. -/
def SameBesides (a b : Settings) : Prop := { a with schedules := [] } = { b with schedules := [] }

/-- Where a request leaves the sizes as they are read, it leaves all that is besides the schedules. -/
structure Unrounded (P : Page) (st st' : SettingsStore) : Prop where
  consistent : st'.Consistent P.libs P.bootChannel
  back : (st'.file.getD {}).ReadsBack P.libs
  besides : SameBesides st'.handle st.handle

/-- What a request keeps, and what its entry says. -/
theorem handle_refines (hs : st.Sound P.libs P.bootChannel) {e : PageEvent} (hio : LoadFails e.io) :
    Explains (rosterStep P.libs.render) (roster st) (P.entry st e).toList
        (roster (P.handle st e.io e.actor e.csrf e.request).2) ∧
      (P.handle st e.io e.actor e.csrf e.request).2.Sound P.libs P.bootChannel ∧
      SameBesides (P.handle st e.io e.actor e.csrf e.request).2.handle.unsized st.handle.unsized ∧
      (st.Consistent P.libs P.bootChannel → (st.file.getD {}).ReadsBack P.libs →
        Unrounded P st (P.handle st e.io e.actor e.csrf e.request).2) := by
  unfold Page.entry
  cases hop : P.asks e.request with
  | none =>
    rw [(handle_unread _ hop).1]
    exact ⟨rfl, hs, rfl, fun hc hback => ⟨hc, hback, rfl⟩⟩
  | some op =>
    have hhandled := handled_handle hs hio hop
    generalize P.handle st e.io e.actor e.csrf e.request = r at hhandled
    rw [Option.bind_some]
    cases hhandled with
    | failed h hst =>
      rw [h, hst]
      exact ⟨rfl, hs, rfl, fun hc hback => ⟨hc, hback, rfl⟩⟩
    | refused h hop hst =>
      rw [h, hst]
      refine ⟨⟨?_, ?_⟩, hs, rfl, fun hc hback => ⟨hc, hback, rfl⟩⟩ <;> rw [rosterStep, if_neg hop]
      rfl
    | done h hop hs' hhandle hback =>
      rw [h]
      refine ⟨⟨?_, ?_⟩, hs', ?_, fun hc hread => ⟨(hback hread).1, (hback hread).2, ?_⟩⟩
      · rw [rosterStep, if_pos hop]
      · rw [rosterStep, if_pos hop]
        exact (roster_of_handle hs hop hhandle).symm
      · rw [hhandle]
        exact congrArg (fun s : Settings => { s with schedules := [] }) hs.upToSizes.symm
      · rw [hhandle, ← hc.resolved]
        rfl

/-! ## Runs -/

/-- The entries of a run. -/
def Page.trace (P : Page) : SettingsStore → List PageEvent → List (RosterOp × Bool)
  | _, [] => []
  | st, e :: es => (P.entry st e).toList ++ P.trace (P.handle st e.io e.actor e.csrf e.request).2 es

/-- A run of requests to the page does to the schedules, as a map from names to rows, what the operations do that the requests ask
for, and answers what the map answers: done, or turned down. The other settings stay as they are up to the sizes of media, and
entirely if the sizes in the file are read back when they are saved. -/
theorem schedules_page_is_a_map (P : Page) (hclock : P.libs.parsesTime "04:00" = true) {file : SettingsFile} {renames : Bool}
    {audit : List AuditEntry} {opened : SettingsStore}
    (hopen : SettingsStore.open P.libs P.bootChannel file renames audit = some opened) (events : List PageEvent)
    (hio : ∀ e ∈ events, LoadFails e.io) (hrun : Machine.run P.step opened events = some st) :
    Explains (rosterStep P.libs.render) (roster opened) (P.trace opened events) (roster st) ∧
      st.Sound P.libs P.bootChannel ∧ SameBesides st.handle.unsized opened.handle.unsized ∧
      ((opened.file.getD {}).ReadsBack P.libs → st.Consistent P.libs P.bootChannel ∧ SameBesides st.handle opened.handle) := by
  have hc := SettingsStore.consistent_open hclock hopen
  suffices h : ∀ first : SettingsStore, first.Sound P.libs P.bootChannel → Machine.run P.step first events = some st →
      Explains (rosterStep P.libs.render) (roster first) (P.trace first events) (roster st) ∧
        st.Sound P.libs P.bootChannel ∧ SameBesides st.handle.unsized first.handle.unsized ∧
        (first.Consistent P.libs P.bootChannel → (first.file.getD {}).ReadsBack P.libs → Unrounded P first st) by
    obtain ⟨htrace, hs, hsizes, hexact⟩ := h opened hc.sound hrun
    exact ⟨htrace, hs, hsizes, fun hback => ⟨(hexact hc hback).consistent, (hexact hc hback).besides⟩⟩
  clear hopen hc hrun
  induction events with
  | nil =>
    intro first hs hrun
    cases hrun
    exact ⟨rfl, hs, rfl, fun hc hback => ⟨hc, hback, rfl⟩⟩
  | cons e es ih =>
    intro first hs hrun
    obtain ⟨next, hnext, hrun⟩ := Machine.run_cons_iff.mp hrun
    cases hnext
    obtain ⟨hentry, hs', hsame, hexact⟩ := handle_refines hs (hio e List.mem_cons_self)
    obtain ⟨htrace, hlast, hsame', hexact'⟩ := ih (fun e he => hio e (List.mem_cons_of_mem _ he)) _ hs' hrun
    refine ⟨explains_append.mpr ⟨_, hentry, htrace⟩, hlast, hsame'.trans hsame, fun hc hback => ?_⟩
    obtain ⟨hc', hback', hbesides⟩ := hexact hc hback
    obtain ⟨hlast, hread, hbesides'⟩ := hexact' hc' hback'
    exact ⟨hlast, hread, hbesides'.trans hbesides⟩

/-- The page with the plain libraries. -/
def plainPage : Page := ⟨.dev, .plain, plainLibs, "chan"⟩

/-- The form of a schedule, with another name and message in it. -/
def formOf (name message : String) : ScheduleForm := { (formStateFromSchedule fridays).submit with name, message }

def pageEvent (request : PageRequest) : PageEvent := ⟨ioWith .ok, owner, true, request⟩

/-- A schedule is added, one of the same name is turned down, and the first is switched off. -/
def quizRun : List PageEvent :=
  [.create (formOf "quiz" "Quiz!"), .create (formOf " quiz" "again"), .toggle "quiz"].map pageEvent

/-- The store of a directory in which images are limited to 5 MB. -/
def imagesStore : SettingsStore := ⟨some smallImages, .resolve .compiledDefaults smallImages, []⟩

theorem images_open : SettingsStore.open plainLibs "chan" (.overrides smallImages) true [] = some imagesStore := by decide +kernel

theorem quizRun_isSome : (Machine.run plainPage.step imagesStore quizRun).isSome = true := rfl

theorem loads_pageEvent (requests : List PageRequest) : ∀ e ∈ requests.map pageEvent, LoadFails e.io := by
  intro e he errs h
  obtain ⟨request, -, rfl⟩ := List.mem_map.mp he
  cases h

/-- The second request that is done finds the size as the first has left it, and makes it live. -/
theorem schedules_page_is_a_map_quiz :
    ∃ st, Machine.run plainPage.step imagesStore quizRun = some st ∧
      (Explains (rosterStep plainLibs.render) (roster imagesStore) (plainPage.trace imagesStore quizRun) (roster st) ∧
        st.Sound plainLibs "chan" ∧ SameBesides st.handle.unsized imagesStore.handle.unsized) ∧
      (plainPage.trace imagesStore quizRun).map Prod.snd = [true, false, true] ∧
      imagesStore.handle.ai.media.maxImageSize = ⟨5000000⟩ ∧ st.handle.ai.media.maxImageSize = ⟨5033164⟩ := by
  have hrun := (Option.some_get quizRun_isSome).symm
  refine ⟨_, hrun, ?_, by decide +kernel, by decide +kernel, by decide +kernel⟩
  obtain ⟨htrace, hsound, hsame, -⟩ :=
    schedules_page_is_a_map plainPage (by decide +kernel) images_open quizRun (loads_pageEvent _) hrun
  exact ⟨htrace, hsound, hsame⟩

/-! ## An edit that is turned down -/

/-- The store after a request of the example. -/
def after (request : PageRequest) (st : SettingsStore) : SettingsStore :=
  (plainPage.handle st (ioWith .ok) owner true request).2

end Twitch1337.Web
