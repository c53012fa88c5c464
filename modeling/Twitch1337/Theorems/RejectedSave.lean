import Twitch1337.Lemmas.Corrections
import Twitch1337.Theorems.SavedValues

/-!
# Correcting a save that was rejected

The page with the errors shows the cooldowns and the pings that were submitted, and the compiled defaults for everything else. So
a correction of that page is answered like the same correction of the submission exactly where everything else that the submission
asks for is the default.
-/

namespace Twitch1337.Web

open Dashboard RustStr Schedules

variable {T : FormTexts} {L : Libs} {channel : String} {st : SettingsStore} {r : SaveRequest} {form form' : SaveForm}
  {errs : List FieldError} {shown fixed : Submission} {s : Settings} {l : Leaf}

/-! ## Corrections -/

/-- What a save answers, and the settings and the audit log that it leaves. -/
def SameResult (a b : Answer × SettingsStore) : Prop := a.1 = b.1 ∧ a.2.handle = b.2.handle ∧ a.2.audit = b.2.audit

/-- Whatever the offending fields are corrected to, the page that is shown is saved like the submission. -/
def Harmless (T : FormTexts) (L : Libs) (channel : String) (st : SettingsStore) (sub shown : Submission)
    (errs : List FieldError) : Prop :=
  ∀ (fixed : Submission) (verified : Bool) (actor : Actor) (io : Io),
    SameResult (save T L channel st ⟨corrected errs fixed shown, verified, actor, io⟩)
      (save T L channel st ⟨corrected errs fixed sub, verified, actor, io⟩)

/-- The settings that a form asks for. -/
def candidate (T : FormTexts) (st : SettingsStore) (form : SaveForm) : Settings :=
  .resolve .compiledDefaults (mergeInto (st.file.getD {}) (overridesFromSaveForm T form))

/-- The settings that the page with the errors shows as they were submitted. -/
def isEchoed : Leaf → Bool
  | .cooldownsAi | .cooldownsNews | .cooldownsUp | .cooldownsFeedback | .cooldownsDoener | .pingsCooldown | .pingsPublic => true
  | _ => false

/-- All that a form asks for is the default, but for what the page echoes and what is offending. -/
def AsksDefaults (T : FormTexts) (st : SettingsStore) (errs : List FieldError) (form : SaveForm) : Prop :=
  ∀ l : Leaf, l ≠ .schedules → isEchoed l = false → isOffending errs l = false →
    l.read (candidate T st form) = l.read .compiledDefaults

/-- It is what a form says, or what it was. -/
theorem read_candidate (h : l.shown .compiledDefaults = true) (T : FormTexts) (st : SettingsStore) (form : SaveForm) :
    l.read (candidate T st form) =
      (l.get (overridesFromSaveForm T form)).or (l.read (.resolve .compiledDefaults (st.file.getD {}))) := by
  rw [candidate, read_resolve, if_pos (shown_of_default h _), read_resolve, if_pos (shown_of_default h _), get_mergeInto,
    Option.or_assoc, Option.or_assoc, Option.or_assoc]

/-! ## The page with the errors -/

/-- A leaf that is shown again is shown as it was submitted. -/
theorem get_echoed (h : isEchoed l = true) (T : FormTexts) (form : SaveForm) :
    l.get (overridesFromSaveForm T form) = l.read (submitted form) := by
  cases l <;> first
    | rfl
    | cases h

/-- A leaf that is not shown again is shown as its default. -/
theorem read_submitted (h : isEchoed l = false) (form : SaveForm) : l.read (submitted form) = l.read .compiledDefaults := by
  cases l <;> first
    | rfl
    | cases h

/-- The leaves that are shown again belong to no card. -/
theorem shown_of_echoed (h : isEchoed l = true) : l.shown .compiledDefaults = true := by
  cases l <;> first
    | rfl
    | cases h

/-- What the page echoes is what the form asks for. -/
theorem read_echoed (h : isEchoed l = true) (T : FormTexts) (st : SettingsStore) (form : SaveForm) :
    l.read (candidate T st form) = l.read (submitted form) := by
  have hshown := shown_of_default (shown_of_echoed h) (submitted form)
  obtain ⟨v, hv⟩ := Option.isSome_iff_exists.mp ((isSome_read (submitted form) l).trans hshown)
  rw [read_candidate (shown_of_echoed h), get_echoed h, hv, Option.some_or]

/-- What is shown again depends on the settings that were asked for. -/
theorem submitted_congr (h : candidate T st form = candidate T st form') : submitted form = submitted form' := by
  refine Settings.ext_read rfl fun l => ?_
  cases hl : isEchoed l with
  | true => rw [← read_echoed hl T st, h, read_echoed hl]
  | false => rw [read_submitted hl, read_submitted hl]

/-- It is tidy. -/
theorem tidy_submitted {v : l.Val} (h : l.read (submitted form) = some v) : Tidy l v := by
  cases l with
  | cooldownsAi | cooldownsNews | cooldownsUp | cooldownsFeedback | cooldownsDoener | pingsCooldown | pingsPublic => trivial
  | _ => exact tidy_default (.inl h)

/-- The page with the errors has the controls of the defaults. -/
theorem onPage_submitted (form : SaveForm) (l : Leaf) : onPage (submitted form) l = onPage .compiledDefaults l := by
  cases l <;> rfl

/-- The page of a form that was rejected, corrected, sets what is not offending to what the page shows. -/
theorem get_corrected (hform : SaveForm.extract T (corrected errs fixed (page T (submitted form))) = some form')
    (hschedules : l ≠ .schedules) (hshown : l.shown .compiledDefaults = true) (hl : isOffending errs l = false) :
    l.get (overridesFromSaveForm T form') = l.read (submitted form) := by
  obtain ⟨f, hf⟩ := exists_field l hschedules
  obtain ⟨paged, hpaged⟩ := exists_form (T := T) (submitted form) fun p hp => by cases hp
  have hread := extract_eq_some_iff.mp hform
  have hpage := extract_eq_some_iff.mp hpaged
  have hsame : ∀ g : Field, g.leaf.any (isOffending errs) = false → form' g = paged g := by
    intro g hg
    have hg' := hread g
    rw [corrected, hg, if_neg Bool.false_ne_true, hpage g] at hg'
    exact (Option.some.inj hg').symm
  have hget := get_page hpage (fun l v => tidy_submitted) (fun p hp => by cases hp) hf (shown_of_default hshown _)
  rw [onPage_submitted, onPage_default hschedules, if_pos rfl] at hget
  rw [← hget]
  refine get_congr hf (hsame f ?_) fun _ m hm => hsame m ?_
  · rw [hf, Option.any_some, hl]
  · rw [hm, Option.any_none]

/-! ## Saves of the same settings -/

/-- Patches that resolve to the same settings have the same effect on them. -/
theorem apply_congr (L : Libs) (channel : String) {patch patch' : SettingsOverrides}
    (h : Settings.resolve .compiledDefaults (mergeInto (st.file.getD {}) patch) =
      .resolve .compiledDefaults (mergeInto (st.file.getD {}) patch')) (io : Io) (actor : Actor) :
    (st.apply L channel io patch actor).1 = (st.apply L channel io patch' actor).1 ∧
      (st.apply L channel io patch actor).2.handle = (st.apply L channel io patch' actor).2.handle ∧
      (st.apply L channel io patch actor).2.audit = (st.apply L channel io patch' actor).2.audit := by
  unfold SettingsStore.apply SettingsStore.applyWith
  cases io.loadError with
  | some e => exact ⟨rfl, rfl, rfl⟩
  | none =>
    dsimp only
    rw [h]
    cases Settings.validate L channel (.resolve .compiledDefaults (mergeInto (st.file.getD {}) patch')) with
    | error errs => exact ⟨rfl, rfl, rfl⟩
    | ok valid =>
      unfold SettingsStore.commit
      cases io.saves <;> exact ⟨rfl, rfl, rfl⟩

/-- The answer depends on the settings that were asked for. -/
theorem answer_congr (h : submitted form = submitted form') (result : Except SettingsError Settings) :
    answer T st form result = answer T st form' result := by
  cases result with
  | ok after => rfl
  | error e =>
    cases e with
    | validation errs => exact congrArg (fun s => Answer.invalid (page T s) errs) h
    | _ => rfl

/-- A save with the token. -/
theorem save_verified {sub : Submission} (hform : SaveForm.extract T sub = some form) (actor : Actor) (io : Io) :
    save T L channel st ⟨sub, true, actor, io⟩ =
      (answer T st form (st.apply L channel io (overridesFromSaveForm T form) actor).1,
        (st.apply L channel io (overridesFromSaveForm T form) actor).2) := by
  unfold save
  rw [hform]
  exact if_pos rfl

/-- A save without it. -/
theorem save_unverified {sub : Submission} (hform : SaveForm.extract T sub = some form) (actor : Actor) (io : Io) :
    save T L channel st ⟨sub, false, actor, io⟩ = (.csrfMismatch, st) := by
  unfold save
  rw [hform]
  exact if_neg Bool.false_ne_true

/-- Forms that ask for the same settings have the same result. -/
theorem sameResult_of_candidate {sub sub' : Submission} (hform : SaveForm.extract T sub = some form)
    (hform' : SaveForm.extract T sub' = some form') (h : candidate T st form = candidate T st form') (verified : Bool)
    (actor : Actor) (io : Io) :
    SameResult (save T L channel st ⟨sub, verified, actor, io⟩) (save T L channel st ⟨sub', verified, actor, io⟩) := by
  cases verified with
  | false =>
    rw [save_unverified hform, save_unverified hform']
    exact ⟨rfl, rfl, rfl⟩
  | true =>
    obtain ⟨hresult, hhandle, haudit⟩ := apply_congr L channel h io actor
    rw [save_verified hform, save_verified hform']
    refine ⟨?_, hhandle, haudit⟩
    dsimp only
    rw [hresult, answer_congr (submitted_congr h)]

/-! ## Rejected saves -/

/-- An error of a check fits what was asked for. -/
theorem fits_candidate (hs : st.Sound L channel) (hrejects : (candidate T st form).validate L channel = .error errs) :
    ∀ e ∈ errs, Fits (candidate T st form) e := by
  have hschedules : (candidate T st form).schedules = st.handle.schedules := by
    rw [hs.upToSizes.schedules]
    rfl
  rw [errs_of_validate hrejects]
  refine fits_errs ?_
  rw [hschedules]
  exact hs.validHandle.schedules

/-- The default remembers something. -/
theorem historyLength_ne_zero (h : Leaf.read s .historyLength = Leaf.read .compiledDefaults .historyLength) :
    s.ai.history.length ≠ 0 := by
  have hlength : s.ai.history.length = Settings.compiledDefaults.ai.history.length := Option.some.inj h
  rw [hlength]
  decide

/-- The page with the errors of a save that was rejected. -/
theorem shown_of_invalid (hform : SaveForm.extract T r.sub = some form) (h : (save T L channel st r).1 = .invalid shown errs) :
    shown = page T (submitted form) := by
  unfold save at h
  rw [hform] at h
  dsimp only at h
  split at h
  · generalize (st.apply L channel r.io (overridesFromSaveForm T form) r.actor).1 = result at h
    cases result with
    | ok after => cases h
    | error e =>
      cases e with
      | validation errs => exact (Answer.invalid.inj h).1.symm
      | _ => cases h
  · cases h

/-- The page with the errors can be read. -/
theorem read_page (form : SaveForm) (f : Field) : (f.type.read T (page T (submitted form) f)).isSome = true :=
  isSome_page (submitted form) (fun p hp => by cases hp) f

/-- Corrections of the page and of the submission ask for the same settings. -/
theorem candidate_corrected (hfits : ∀ e ∈ errs, Fits (candidate T st form) e) (hasks : AsksDefaults T st errs form)
    {paged other : SaveForm} (hform : SaveForm.extract T r.sub = some form)
    (hpaged : SaveForm.extract T (corrected errs fixed (page T (submitted form))) = some paged)
    (hother : SaveForm.extract T (corrected errs fixed r.sub) = some other) : candidate T st paged = candidate T st other := by
  have htoggle : ∀ l : Leaf, isMarked l = true → l.shown .compiledDefaults = true → isOffending errs l = false :=
    fun l => toggle_not_offending hfits fun hlength => historyLength_ne_zero (hasks .historyLength (by decide) rfl hlength)
  have hpage : ∀ l : Leaf, l ≠ .schedules → l.shown .compiledDefaults = true → isOffending errs l = false →
      l.read (candidate T st paged) = l.read (submitted form) := by
    intro l hschedules hshown hl
    obtain ⟨v, hv⟩ := Option.isSome_iff_exists.mp ((isSome_read (submitted form) l).trans (shown_of_default hshown _))
    rw [read_candidate hshown, get_corrected hpaged hschedules hshown hl, hv, Option.some_or]
  refine ext_default rfl (fun card => ?_) fun l hshown => ?_
  · have hmarked : isMarked card.toggle = true := by cases card <;> rfl
    have hread := hpage card.toggle (by cases card <;> decide) (shown_toggle _ card) (htoggle _ hmarked (shown_toggle _ card))
    rw [read_submitted (by cases card <;> rfl)] at hread
    rw [isOn_eq_of_read hread, isOn_default]
  by_cases hschedules : l = .schedules
  · rw [hschedules]
    rfl
  cases hl : isOffending errs l with
  | true =>
    obtain ⟨f, hf⟩ := exists_field l hschedules
    rw [read_candidate hshown, read_candidate hshown]
    refine congrArg (Option.or · _) (get_congr hf (eq_of_offending hpaged hother ?_) fun hmarked => ?_)
    · rw [hf, Option.any_some, hl]
    · rw [htoggle l hmarked hshown] at hl
      cases hl
  | false =>
    have hsame : l.read (candidate T st other) = l.read (candidate T st form) := by
      rw [read_candidate hshown, read_candidate hshown, get_not_offending hform hother hl]
    rw [hpage l hschedules hshown hl, hsame]
    cases hechoed : isEchoed l with
    | true => exact (read_echoed hechoed T st form).symm
    | false => rw [hasks l hschedules hechoed hl, read_submitted hechoed]

/-- A save that asks for the defaults is harmless. -/
theorem harmless_of_asksDefaults (hfits : ∀ e ∈ errs, Fits (candidate T st form) e) (hasks : AsksDefaults T st errs form)
    (hform : SaveForm.extract T r.sub = some form) : Harmless T L channel st r.sub (page T (submitted form)) errs := by
  intro fixed verified actor io
  have hreadable : ∀ f : Field, (f.type.read T (r.sub f)).isSome = true :=
    extract_isSome_iff.mp (by rw [hform]; rfl)
  have hsome : (SaveForm.extract T (corrected errs fixed (page T (submitted form)))).isSome = true ↔
      (SaveForm.extract T (corrected errs fixed r.sub)).isSome = true :=
    (extract_corrected (read_page form)).trans (extract_corrected hreadable).symm
  cases hpaged : SaveForm.extract T (corrected errs fixed (page T (submitted form))) with
  | none =>
    cases hother : SaveForm.extract T (corrected errs fixed r.sub) with
    | none =>
      unfold save
      rw [hpaged, hother]
      exact ⟨rfl, rfl, rfl⟩
    | some other =>
      rw [hpaged, hother] at hsome
      cases hsome.mpr rfl
  | some paged =>
    obtain ⟨other, hother⟩ := Option.isSome_iff_exists.mp (hsome.mp (by rw [hpaged]; rfl))
    exact sameResult_of_candidate hpaged hother (candidate_corrected hfits hasks hform hpaged hother) verified actor io

/-- The page of a rejected form in which what is offending is set to the defaults. -/
theorem get_offending {paged : SaveForm}
    (hpaged : SaveForm.extract T (corrected errs (page T .compiledDefaults) (page T (submitted form))) = some paged)
    (hschedules : l ≠ .schedules) (hshown : l.shown .compiledDefaults = true) (hl : isOffending errs l = true) :
    l.get (overridesFromSaveForm T paged) = l.read .compiledDefaults := by
  obtain ⟨f, hf⟩ := exists_field l hschedules
  obtain ⟨defaults, hdefaults⟩ := exists_form (T := T) .compiledDefaults fun p hp => by cases hp
  have hread := extract_eq_some_iff.mp hpaged
  have hpage := extract_eq_some_iff.mp hdefaults
  have hget := get_page hpage (fun l v h => tidy_default (.inl h)) (fun p hp => by cases hp) hf hshown
  rw [onPage_default hschedules, if_pos rfl] at hget
  rw [← hget]
  refine get_congr hf ?_ fun _ m hm => ?_
  · have hfixed := hread f
    rw [corrected, hf, Option.any_some, hl, if_pos rfl, hpage f] at hfixed
    exact (Option.some.inj hfixed).symm
  · have hmarker := hread m
    rw [corrected, hm, Option.any_none, if_neg Bool.false_ne_true] at hmarker
    have hsame : page T (submitted form) m = page T .compiledDefaults m := by
      cases m <;> first
        | rfl
        | cases hm
    rw [hsame, hpage m] at hmarker
    exact (Option.some.inj hmarker).symm

/-- It asks for the defaults, but for what is echoed. -/
theorem read_defaulted (st : SettingsStore) {paged : SaveForm}
    (hpaged : SaveForm.extract T (corrected errs (page T .compiledDefaults) (page T (submitted form))) = some paged)
    (hschedules : l ≠ .schedules) (hshown : l.shown .compiledDefaults = true) (hechoed : isEchoed l = false) :
    l.read (candidate T st paged) = l.read .compiledDefaults := by
  have hget : l.get (overridesFromSaveForm T paged) = l.read .compiledDefaults := by
    cases hl : isOffending errs l with
    | true => exact get_offending hpaged hschedules hshown hl
    | false => rw [get_corrected hpaged hschedules hshown hl, read_submitted hechoed]
  obtain ⟨v, hv⟩ := Option.isSome_iff_exists.mp ((isSome_read .compiledDefaults l).trans hshown)
  rw [read_candidate hshown, hget, hv, Option.some_or]

/-- What is asked for after a correction, besides the schedules. -/
theorem candidate_defaulted (hs : st.Sound L channel) {paged : SaveForm}
    (hpaged : SaveForm.extract T (corrected errs (page T .compiledDefaults) (page T (submitted form))) = some paged) :
    candidate T st paged = { submitted paged with schedules := st.handle.schedules } := by
  have hread : ∀ l : Leaf, l ≠ .schedules → l.read { submitted paged with schedules := st.handle.schedules } =
      l.read (submitted paged) := by
    intro l hl
    cases l <;> first
      | rfl
      | exact absurd rfl hl
  refine ext_default rfl (fun card => ?_) fun l hshown => ?_
  · have htoggle := read_defaulted st hpaged (by cases card <;> decide) (shown_toggle _ card) (by cases card <;> rfl)
    rw [isOn_eq_of_read htoggle, isOn_default]
  by_cases hschedules : l = .schedules
  · rw [hschedules]
    exact congrArg some hs.upToSizes.schedules.symm
  rw [hread l hschedules]
  cases hechoed : isEchoed l with
  | true => exact read_echoed hechoed T st paged
  | false => rw [read_defaulted st hpaged hschedules hshown hechoed, read_submitted hechoed]

/-- It is valid, so that it is saved. -/
theorem valid_defaulted (hclock : L.parsesTime "04:00" = true) (hs : st.Sound L channel)
    (hrejects : (candidate T st form).validate L channel = .error errs) {paged : SaveForm}
    (hpaged : SaveForm.extract T (corrected errs (page T .compiledDefaults) (page T (submitted form))) = some paged) :
    (candidate T st paged).Valid L channel := by
  have hdefaults : Settings.compiledDefaults.Valid L channel := Settings.valid_compiledDefaults hclock
  have herrs := errs_of_validate hrejects
  have hcooldowns : ∀ e ∈ validateCooldowns (submitted form).cooldowns, e ∈ errs :=
    fun e he => herrs ▸ mem_errs_cooldowns he
  have hpings : ∀ e ∈ bound "pings.cooldown" (submitted form).pings.cooldown 1 86400, e ∈ errs :=
    fun e he => herrs ▸ mem_errs_pings he
  simp only [validateCooldowns, List.forall_mem_append, and_assoc] at hcooldowns
  obtain ⟨hai, hnews, hup, hfeedback, hdoener⟩ := hcooldowns
  have hvalid := hdefaults.cooldowns
  simp only [validateCooldowns, List.append_eq_nil_iff, and_assoc] at hvalid
  obtain ⟨dai, dnews, dup, dfeedback, ddoener⟩ := hvalid
  have hget : ∀ l : Leaf, l ≠ .schedules → l.shown .compiledDefaults = true → l.get (overridesFromSaveForm T paged) =
      if isOffending errs l then l.read .compiledDefaults else l.read (submitted form) := by
    intro l hschedules hshown
    split
    · rename_i hl
      exact get_offending hpaged hschedules hshown hl
    · rename_i hl
      exact get_corrected hpaged hschedules hshown (Bool.not_eq_true _ ▸ hl)
  have bai := bound_corrected (hget .cooldownsAi (by decide) rfl) dai hai (by decide)
  have bnews := bound_corrected (hget .cooldownsNews (by decide) rfl) dnews hnews (by decide)
  have bup := bound_corrected (hget .cooldownsUp (by decide) rfl) dup hup (by decide)
  have bfeedback := bound_corrected (hget .cooldownsFeedback (by decide) rfl) dfeedback hfeedback (by decide)
  have bdoener := bound_corrected (hget .cooldownsDoener (by decide) rfl) ddoener hdoener (by decide)
  have bpings := bound_corrected (hget .pingsCooldown (by decide) rfl) hdefaults.pings hpings (by decide)
  rw [candidate_defaulted hs hpaged]
  have hsections : validateCooldowns (submitted paged).cooldowns = [] := by
    simp only [validateCooldowns, List.append_eq_nil_iff, and_assoc]
    exact ⟨bai, bnews, bup, bfeedback, bdoener⟩
  exact { hdefaults with
    cooldowns := hsections
    pings := bpings
    schedules := hs.validHandle.schedules }

/-- A form that asks for valid settings is accepted where the file system saves. -/
theorem saved_of_valid {sub : Submission} (hform : SaveForm.extract T sub = some form)
    (hvalid : (candidate T st form).Valid L channel) (actor : Actor) :
    (save T L channel st ⟨sub, true, actor, ioWith .ok⟩).1.settings = some (candidate T st form) := by
  have hvalidate : (Settings.resolve .compiledDefaults
      (mergeInto (st.file.getD {}) (overridesFromSaveForm T form))).validate L channel = .ok () :=
    Settings.validate_ok_iff.mpr hvalid
  have hok : (st.apply L channel (ioWith .ok) (overridesFromSaveForm T form) actor).1 = .ok (candidate T st form) := by
    unfold SettingsStore.apply SettingsStore.applyWith
    dsimp only [ioWith]
    rw [hvalidate]
    rfl
  rw [save_verified hform, hok]
  rfl

/-- What is not offending is the default where the page can be corrected in place of the form. -/
theorem read_of_harmless (hclock : L.parsesTime "04:00" = true) (hs : st.Sound L channel)
    (hform : SaveForm.extract T r.sub = some form) (hrejects : (candidate T st form).validate L channel = .error errs)
    (h : Harmless T L channel st r.sub (page T (submitted form)) errs) (hschedules : l ≠ .schedules)
    (hshown : l.shown .compiledDefaults = true) (hechoed : isEchoed l = false) (hl : isOffending errs l = false) :
    l.read (candidate T st form) = l.read .compiledDefaults := by
  have hdefault : ∀ f : Field, (f.type.read T (page T .compiledDefaults f)).isSome = true :=
    isSome_page .compiledDefaults fun p hp => by cases hp
  have hsome : (SaveForm.extract T (corrected errs (page T .compiledDefaults) (page T (submitted form)))).isSome = true :=
    (extract_corrected (read_page form)).mpr fun f _ => hdefault f
  obtain ⟨paged, hpaged⟩ := Option.isSome_iff_exists.mp hsome
  have hsaved := saved_of_valid hpaged (valid_defaulted hclock hs hrejects hpaged) r.actor
  rw [(h (page T .compiledDefaults) true r.actor (ioWith .ok)).1] at hsaved
  obtain ⟨other, hother, hsame, -, -⟩ := of_saved hsaved
  have hread : l.read (candidate T st other) = l.read .compiledDefaults := by
    rw [← read_defaulted st hpaged hschedules hshown hechoed, hsame]
    rfl
  rw [← hread, read_candidate hshown, read_candidate hshown, get_not_offending hform hother hl]

/-- Only such a save is. -/
theorem asksDefaults_of_harmless (hclock : L.parsesTime "04:00" = true) (hs : st.Sound L channel)
    (hform : SaveForm.extract T r.sub = some form) (hrejects : (candidate T st form).validate L channel = .error errs)
    (h : Harmless T L channel st r.sub (page T (submitted form)) errs) : AsksDefaults T st errs form := by
  have hread : ∀ l : Leaf, l ≠ .schedules → l.shown .compiledDefaults = true → isEchoed l = false →
      isOffending errs l = false → l.read (candidate T st form) = l.read .compiledDefaults :=
    fun l => read_of_harmless hclock hs hform hrejects h
  have hoff : ∀ card : Card, card.isOn (candidate T st form) = false := by
    intro card
    have hmarked : isMarked card.toggle = true := by cases card <;> rfl
    have htoggle := toggle_not_offending (fits_candidate hs hrejects)
      (fun hlength => historyLength_ne_zero (hread .historyLength (by decide) rfl rfl hlength)) hmarked (shown_toggle _ card)
    rw [isOn_eq_of_read (hread card.toggle (by cases card <;> decide) (shown_toggle _ card) (by cases card <;> rfl) htoggle),
      isOn_default]
  intro l hschedules hechoed hl
  cases hshown : l.shown .compiledDefaults with
  | true => exact hread l hschedules hshown hechoed hl
  | false =>
    -- a field of a card that is off
    rw [read_hidden hshown, read_hidden]
    rw [shown_congr (fun card => (hoff card).trans (isOn_default card).symm), hshown]

/-- A save that is rejected is harmless exactly when it asks for the defaults, but for what is offending and for the cooldowns and
the pings, which the page echoes. -/
theorem rejected_harmless_iff (hclock : L.parsesTime "04:00" = true) (hs : st.Sound L channel)
    (hform : SaveForm.extract T r.sub = some form) (hrejects : (candidate T st form).validate L channel = .error errs)
    (h : (save T L channel st r).1 = .invalid shown errs) :
    Harmless T L channel st r.sub shown errs ↔ AsksDefaults T st errs form := by
  rw [shown_of_invalid hform h]
  constructor
  · exact asksDefaults_of_harmless hclock hs hform hrejects
  · exact fun hasks => harmless_of_asksDefaults (fits_candidate hs hrejects) hasks hform

/-! ## Instances -/

/-- A save that is turned down shows the page with its errors. -/
theorem save_invalid {sub : Submission} (hform : SaveForm.extract T sub = some form)
    (hrejects : (candidate T st form).validate L channel = .error errs) (actor : Actor) :
    (save T L channel st ⟨sub, true, actor, ioWith .ok⟩).1 = .invalid (page T (submitted form)) errs := by
  have hvalidate : (Settings.resolve .compiledDefaults
      (mergeInto (st.file.getD {}) (overridesFromSaveForm T form))).validate L channel = .error errs := hrejects
  have herror : (st.apply L channel (ioWith .ok) (overridesFromSaveForm T form) actor).1 = .error (.validation errs) := by
    unfold SettingsStore.apply SettingsStore.applyWith
    dsimp only [ioWith]
    rw [hvalidate]
  rw [save_verified hform, herror]
  rfl

/-- The page of a store with a cooldown that is out of bounds. -/
def zeroSave (st : SettingsStore) : SaveRequest :=
  ⟨edit (page plainTexts st.handle) .cooldownAi (some "0"), true, owner, ioWith .ok⟩

theorem zeroSave_isSome : (SaveForm.extract plainTexts (zeroSave freshStore).sub).isSome = true := by rfl

/-- The error that it gives. -/
def zeroErrs : List FieldError := [⟨"cooldowns.ai", "must be 1..=3600 seconds (got 0)"⟩]

/-- A page of the defaults can be corrected. -/
theorem rejected_harmless_zero : ∃ form shown, SaveForm.extract plainTexts (zeroSave freshStore).sub = some form ∧
    (save plainTexts plainLibs "chan" freshStore (zeroSave freshStore)).1 = .invalid shown zeroErrs ∧
    Harmless plainTexts plainLibs "chan" freshStore (zeroSave freshStore).sub shown zeroErrs := by
  have hform : SaveForm.extract plainTexts (zeroSave freshStore).sub = some (Option.get _ zeroSave_isSome) :=
    (Option.some_get _).symm
  have hcandidate : candidate plainTexts freshStore (Option.get _ zeroSave_isSome) =
      { Settings.compiledDefaults with cooldowns := { Settings.compiledDefaults.cooldowns with ai := 0 } } := by decide +kernel
  have hrejects : (candidate plainTexts freshStore (Option.get _ zeroSave_isSome)).validate plainLibs "chan" = .error zeroErrs := by
    rw [hcandidate]
    decide +kernel
  have hinvalid := save_invalid hform hrejects owner
  have hsound : freshStore.Sound plainLibs "chan" :=
    ⟨rfl, Settings.validate_ok_iff.mpr (Settings.valid_compiledDefaults (by decide))⟩
  refine ⟨_, _, hform, hinvalid, (rejected_harmless_iff (by decide) hsound hform hrejects hinvalid).mpr ?_⟩
  intro l _ hechoed _
  rw [hcandidate]
  cases l <;> first
    | rfl
    | cases hechoed

/-- A store in which a model is set. -/
def modelSet : SettingsStore where
  file := some { ai := { connection := { model := some "gpt-5" } } }
  handle := .resolve .compiledDefaults { ai := { connection := { model := some "gpt-5" } } }
  audit := []

theorem zeroSave_modelSet : (SaveForm.extract plainTexts (zeroSave modelSet).sub).isSome = true := by rfl

/-- The page of a store in which a model is set cannot be corrected after a cooldown was out of bounds: the model is lost. -/
theorem not_harmless : ∃ form shown, SaveForm.extract plainTexts (zeroSave modelSet).sub = some form ∧
    (candidate plainTexts modelSet form).validate plainLibs "chan" = .error zeroErrs ∧
    (save plainTexts plainLibs "chan" modelSet (zeroSave modelSet)).1 = .invalid shown zeroErrs ∧
    ¬ Harmless plainTexts plainLibs "chan" modelSet (zeroSave modelSet).sub shown zeroErrs := by
  have hform : SaveForm.extract plainTexts (zeroSave modelSet).sub = some (Option.get _ zeroSave_modelSet) :=
    (Option.some_get _).symm
  have hrejects : (candidate plainTexts modelSet (Option.get _ zeroSave_modelSet)).validate plainLibs "chan" = .error zeroErrs := by
    decide +kernel
  have hsound : modelSet.Sound plainLibs "chan" := ⟨rfl, by decide +kernel⟩
  refine ⟨_, _, hform, hrejects, save_invalid hform hrejects owner, fun h => ?_⟩
  have hdefault := asksDefaults_of_harmless (by decide) hsound hform hrejects h .connectionModel (by decide) rfl
    (by rfl)
  have hmodel : (candidate plainTexts modelSet (Option.get _ zeroSave_modelSet)).ai.connection.model = "" :=
    Option.some.inj hdefault
  revert hmodel
  decide

end Twitch1337.Web
