import Twitch1337.Lemmas.Diff
import Twitch1337.Lemmas.ErrorFields
import Twitch1337.Lemmas.SettingsPage

/-!
# Corrections of a submission

A correction of a submission sets the fields that errors name to something else. The errors of settings name no box of a card but
that of the prefill, for which there has to be a history.
-/

namespace Twitch1337.Web

open Dashboard RustStr Schedules

variable {T : FormTexts} {L : Libs} {channel : String} {form form' : SaveForm} {errs : List FieldError} {fixed : Submission}
  {s : Settings} {l : Leaf}

/-! ## Corrected submissions -/

/-- A leaf that an error names. -/
def isOffending (errs : List FieldError) (l : Leaf) : Bool := errs.any fun e => decide (path e.field = l.key.toList)

theorem isOffending_iff : isOffending errs l = true ↔ ∃ e ∈ errs, path e.field = l.key.toList := by
  simp [isOffending]

/-- A submission with other values of the offending fields. -/
def corrected (errs : List FieldError) (fixed sub : Submission) : Submission := fun f =>
  if f.leaf.any (isOffending errs) then fixed f else sub f

/-- A submission that can be read can be read after a correction exactly when the corrections can. -/
theorem extract_corrected {sub : Submission} (hsub : ∀ f : Field, (f.type.read T (sub f)).isSome = true) :
    (SaveForm.extract T (corrected errs fixed sub)).isSome = true ↔
      ∀ f : Field, f.leaf.any (isOffending errs) = true → (f.type.read T (fixed f)).isSome = true := by
  rw [extract_isSome_iff]
  refine forall_congr' fun f => ?_
  unfold corrected
  cases f.leaf.any (isOffending errs) with
  | true => simp
  | false => simpa using hsub f

/-- Two submissions that can be read, with the same corrections of offending fields. -/
theorem eq_of_offending {sub sub' : Submission} (hform : SaveForm.extract T (corrected errs fixed sub) = some form)
    (hform' : SaveForm.extract T (corrected errs fixed sub') = some form') {f : Field}
    (hf : f.leaf.any (isOffending errs) = true) : form f = form' f := by
  have hread := extract_eq_some_iff.mp hform f
  have hread' := extract_eq_some_iff.mp hform' f
  rw [corrected, hf, if_pos rfl] at hread hread'
  exact Option.some.inj (hread.symm.trans hread')

/-- A submission keeps what is not offending when it is corrected. -/
theorem eq_of_not_offending {sub : Submission} (hform : SaveForm.extract T sub = some form)
    (hform' : SaveForm.extract T (corrected errs fixed sub) = some form') {f : Field}
    (hf : f.leaf.any (isOffending errs) = false) : form' f = form f := by
  have hread := extract_eq_some_iff.mp hform' f
  rw [corrected, hf, if_neg Bool.false_ne_true, extract_eq_some_iff.mp hform f] at hread
  exact (Option.some.inj hread).symm

/-- A corrected submission asks for the same leaf where the leaf is not offending. -/
theorem get_not_offending {sub : Submission} (hform : SaveForm.extract T sub = some form)
    (hform' : SaveForm.extract T (corrected errs fixed sub) = some form') (hl : isOffending errs l = false) :
    l.get (overridesFromSaveForm T form') = l.get (overridesFromSaveForm T form) := by
  by_cases hschedules : l = .schedules
  · rw [hschedules]
    rfl
  obtain ⟨f, hf⟩ := exists_field l hschedules
  refine get_congr hf (eq_of_not_offending hform hform' ?_) fun _ m hm => eq_of_not_offending hform hform' ?_
  · rw [hf, Option.any_some, hl]
  · rw [hm, Option.any_none]

/-! ## What errors name -/

/-- The boxes of cards, but for that of the prefill. -/
def boxes : List String := ["ai.web", "ai.emotes", "aviationstack.enabled"]

/-- An error names no box of a card but that of the prefill, which it does for a history without messages. It names the length of
the history when that is too long. -/
structure Fits (s : Settings) (e : FieldError) : Prop where
  prefill : path e.field = Leaf.prefillEnabled.key.toList → s.ai.history.length = 0
  history : path e.field = Leaf.historyLength.key.toList → maxHistoryLength < s.ai.history.length
  boxes : ∀ box ∈ boxes, path e.field ≠ box.toList

/-- An error by the name of what it is about. -/
theorem fits_of_path {e : FieldError} {name : String} (hpath : path e.field = name.toList)
    (hprefill : name = "ai.prefill" → s.ai.history.length = 0)
    (hhistory : name = "ai.history.length" → maxHistoryLength < s.ai.history.length) (hboxes : name ∉ boxes) : Fits s e where
  prefill h := hprefill (String.toList_inj.mp (hpath.symm.trans h))
  history h := hhistory (String.toList_inj.mp (hpath.symm.trans h))
  boxes _ hbox h := hboxes (String.toList_inj.mp (hpath.symm.trans h) ▸ hbox)

/-- Errors that name none of all these. -/
theorem fits_of_names {fields : List String} (h : Names fields errs) (hplain : ∀ field ∈ fields, '[' ∉ field.toList)
    (hfields : ∀ field ∈ fields, field ∉ "ai.prefill" :: "ai.history.length" :: boxes) : ∀ e ∈ errs, Fits s e := by
  intro e he
  have hmem := h e he
  have hother := hfields e.field hmem
  rw [List.mem_cons, List.mem_cons, not_or, not_or] at hother
  exact fits_of_path (path_of_plain (hplain e.field hmem)) (fun hp => absurd hp hother.1) (fun hp => absurd hp hother.2.1) hother.2.2

theorem fits_history (s : Settings) : ∀ e ∈ validateHistory s.ai.history, Fits s e := by
  intro e he
  rcases List.mem_append.mp he with he | he
  · obtain ⟨hlong, rfl⟩ := mem_errorIf.mp he
    exact fits_of_path (path_of_plain (by simp)) (fun h => absurd h (by decide)) (fun _ => of_decide_eq_true hlong) (by decide)
  · exact fits_of_names (names_errorIf (List.mem_singleton_self _)) (by simp) (by decide) e he

theorem fits_prefill (L : Libs) (s : Settings) : ∀ e ∈ validatePrefill L s.ai.history s.ai.prefill, Fits s e := by
  intro e he
  cases hp : s.ai.prefill with
  | none =>
    rw [hp] at he
    exact absurd he List.not_mem_nil
  | some p =>
    rw [hp] at he
    simp only [validatePrefill, List.mem_append] at he
    rcases he with (he | he) | he
    · exact fits_of_names (names_validUrl (List.mem_singleton_self _) _) (by simp) (by decide) e he
    · exact fits_of_names (names_errorIf (List.mem_singleton_self _)) (by simp) (by decide) e he
    · obtain ⟨hzero, rfl⟩ := mem_errorIf.mp he
      exact fits_of_path (path_of_plain (by simp)) (fun _ => eq_of_beq hzero) (fun h => absurd h (by decide)) (by decide)

theorem fits_idList {field : String} (hplain : '[' ∉ field.toList)
    (hfield : field ∉ "ai.prefill" :: "ai.history.length" :: boxes) (s : Settings) (ids : List String) :
    ∀ e ∈ idList field ids, Fits s e := by
  intro e he
  obtain ⟨idx, hidx⟩ := field_of_mem_idList he
  have happ : s!"{field}[{idx}]" = field ++ "[" ++ (toString idx ++ "]") := String.append_assoc
  have hpath : path e.field = field.toList := by rw [hidx, happ, path_append hplain]
  rw [List.mem_cons, List.mem_cons, not_or, not_or] at hfield
  exact fits_of_path hpath (fun hp => absurd hp hfield.1) (fun hp => absurd hp hfield.2.1) hfield.2.2

/-- What the errors of settings name, when the schedules are valid. -/
theorem fits_errs (hschedules : validateSchedules L 0 [] s.schedules = []) : ∀ e ∈ s.errs L channel, Fits s e := by
  simp only [Settings.errs, validateAi, hschedules, List.forall_mem_append, and_assoc]
  refine ⟨fits_of_names (names_cooldowns _) (by simp) (by decide), ?_, fits_of_names (names_behavior _) (by simp) (by decide),
    fits_history s, fits_of_names (names_memory _) (by simp) (by decide), fits_of_names (names_dreamer _) (by simp) (by decide),
    ?_, ?_, ?_, ?_, fits_of_names (names_connection _) (by simp) (by decide), fits_prefill L s,
    fits_of_names (names_web _) (by simp) (by decide), fits_of_names (names_emotes _) (by simp) (by decide), ?_,
    fits_of_names (names_channels _ _) (by simp) (by decide), fits_idList (by simp) (by decide) s _,
    fits_idList (by simp) (by decide) s _, ?_, fits_of_names (names_aviationstack _) (by simp) (by decide),
    fits_of_names (names_webRuntime _) (by simp) (by decide), fun e he => absurd he List.not_mem_nil⟩
  · exact fits_of_names (names_bound (List.mem_singleton_self _) _ _ _) (by simp) (by decide)
  · exact fits_of_names (names_nonEmptyWhenSet (List.mem_singleton_self _) _) (by simp) (by decide)
  · exact fits_of_names (names_nonEmptyWhenSet (List.mem_singleton_self _) _) (by simp) (by decide)
  · exact fits_of_names (names_serviceTier (List.mem_singleton_self _) _) (by simp) (by decide)
  · exact fits_of_names (names_serviceTier (List.mem_singleton_self _) _) (by simp) (by decide)
  · exact fits_of_names (names_errorIf (List.mem_singleton_self _)) (by simp) (by decide)
  · exact fits_of_names (names_range (List.mem_singleton_self _) _ _ _) (by simp) (by decide)

/-- No box of a card is offending where the history has a length that is none of the two extremes, or that is offending. -/
theorem toggle_not_offending (hfits : ∀ e ∈ errs, Fits s e)
    (hhistory : isOffending errs .historyLength = false → s.ai.history.length ≠ 0) {toggle : Leaf}
    (hmarked : isMarked toggle = true) (hshown : toggle.shown .compiledDefaults = true) : isOffending errs toggle = false := by
  rw [← Bool.not_eq_true, isOffending_iff]
  rintro ⟨e, he, hpath⟩
  have hfit := hfits e he
  cases toggle with
  | prefillEnabled =>
    have hzero := hfit.prefill hpath
    refine hhistory ?_ hzero
    rw [← Bool.not_eq_true, isOffending_iff]
    rintro ⟨e', he', hpath'⟩
    have hlong := (hfits e' he').history hpath'
    rw [hzero] at hlong
    exact absurd hlong (by decide)
  | aiWebEnabled | emotesEnabled | aviationstackEnabled => exact hfit.boxes _ (by decide) hpath
  | emotesIncludeGlobal | emotesPinnedEmotes => cases hshown
  | _ => cases hmarked

/-! ## Bounds -/

/-- A number of seconds that no error names is in bounds. -/
theorem bound_of_not_offending {v lo hi : UInt64} (hmem : ∀ e ∈ bound l.key v lo hi, e ∈ errs)
    (hpath : path l.key = l.key.toList) (hl : isOffending errs l = false) : bound l.key v lo hi = [] := by
  refine List.eq_nil_iff_forall_not_mem.mpr fun e he => ?_
  have hfield : e.field = l.key := congrArg FieldError.field (mem_errorIf.mp he).2
  have hoffending : isOffending errs l = true := isOffending_iff.mpr ⟨e, hmem e he, by rw [hfield, hpath]⟩
  rw [hl] at hoffending
  cases hoffending

/-- A bound that holds of a default holds of what no error names, with the default in place where an error names it. -/
theorem bound_corrected {v v' default lo hi : UInt64} (hv' : some v' = if isOffending errs l then some default else some v)
    (hdefault : bound l.key default lo hi = []) (hmem : ∀ e ∈ bound l.key v lo hi, e ∈ errs)
    (hpath : path l.key = l.key.toList) : bound l.key v' lo hi = [] := by
  cases hl : isOffending errs l with
  | true =>
    rw [hl, if_pos rfl] at hv'
    rw [Option.some.inj hv', hdefault]
  | false =>
    rw [hl, if_neg Bool.false_ne_true] at hv'
    rw [Option.some.inj hv', bound_of_not_offending hmem hpath hl]

end Twitch1337.Web
