import Twitch1337.Lemmas.ErrorFields

/-!
# The check of the byte budget

Validation compares the budget of the memory with a sum of 64 bits. It says what is true of the numbers exactly where the sum does
not wrap around, or is so far beyond 64 bits that even what is left of it is above the budget.
-/

namespace Twitch1337.Dashboard

open Decimal Schedules

variable {L : Libs} {channel : String} {b : Build} {s : Settings}

/-! ## Errors about the budget -/

/-- The field that the check is about. -/
def budgetField : String := "ai.memory.inject_byte_budget"

/-- No error is about the budget. -/
def Spares (l : List FieldError) : Prop := ∀ e ∈ l, e.field ≠ budgetField

theorem spares_nil : Spares [] := fun _ h => absurd h List.not_mem_nil

theorem spares_append {l l' : List FieldError} : Spares (l ++ l') ↔ Spares l ∧ Spares l' := List.forall_mem_append

/-- Errors that name other fields. -/
theorem spares_of_names {fields : List String} {l : List FieldError} (h : Names fields l) (hfields : budgetField ∉ fields) :
    Spares l := fun e he heq => hfields (heq ▸ h e he)

theorem spares_errorIf {wrong : Bool} {field message : String} (h : field ≠ budgetField) : Spares (errorIf wrong field message) := by
  intro e he
  rw [(mem_errorIf.mp he).2]
  exact h

theorem spares_nonEmptyWhenSet {field : String} (h : field ≠ budgetField) (val : Option String) :
    Spares (nonEmptyWhenSet field val) :=
  spares_of_names (names_nonEmptyWhenSet (List.mem_singleton_self field) val) fun hmem => h (List.mem_singleton.mp hmem).symm

theorem spares_serviceTier {field : String} (h : field ≠ budgetField) (val : Option String) : Spares (serviceTier L field val) :=
  spares_of_names (names_serviceTier (List.mem_singleton_self field) val) fun hmem => h (List.mem_singleton.mp hmem).symm

/-- A name that starts otherwise. -/
theorem ne_budgetField {name : String} {c : Char} (h : name.toList.head? = some c) (hc : c ≠ 'a') : name ≠ budgetField := by
  rintro rfl
  exact hc (Option.some.inj h).symm

theorem head?_append {pre rest : String} {c : Char} (h : pre.toList.head? = some c) : (pre ++ rest).toList.head? = some c := by
  rw [String.toList_append, List.head?_append, h]
  rfl

theorem spares_idList {field : String} {c : Char} (h : field.toList.head? = some c) (hc : c ≠ 'a') (ids : List String) :
    Spares (idList field ids) := by
  intro e he
  obtain ⟨idx, hidx⟩ := field_of_mem_idList he
  rw [hidx]
  exact ne_budgetField (head?_append (head?_append (head?_append h))) hc

/-- A schedule's errors are under the path of its row. -/
theorem spares_schedule {pre : String} {c : Char} (h : pre.toList.head? = some c) (hc : c ≠ 'a') (R : Render) (sc : Schedule) :
    Spares (sc.validate R pre) := by
  have hfield : ∀ rest, pre ++ rest ≠ budgetField := fun rest => ne_budgetField (head?_append h) hc
  have htrigger : Spares (sc.trigger.validate pre) := by
    unfold Trigger.validate
    split
    · refine spares_append.mpr ⟨spares_errorIf (hfield _), ?_⟩
      split
      · simpa [Spares] using hfield _
      · simpa [Spares] using hfield _
      · exact spares_nil
    · exact spares_nil
  unfold Schedule.validate
  simp only [spares_append, and_assoc]
  refine ⟨spares_errorIf (hfield _), spares_errorIf (hfield _), spares_errorIf (hfield _), spares_errorIf (hfield _), htrigger, ?_⟩
  split
  · exact spares_errorIf (hfield _)
  · exact spares_nil

theorem spares_schedules (schedules : List Schedule) (idx : Nat) (seenNames : List String) :
    Spares (validateSchedules L idx seenNames schedules) := by
  induction schedules generalizing idx seenNames with
  | nil => exact spares_nil
  | cons sc rest ih =>
    have hpre : (s!"schedules[{idx}]").toList.head? = some 's' := head?_append (head?_append rfl)
    simp only [validateSchedules, spares_append, and_assoc]
    exact ⟨spares_schedule hpre (by decide) L.render sc, spares_errorIf (ne_budgetField (head?_append hpre) (by decide)), ih _ _⟩

/-- The errors about the budget are those of its own check. -/
theorem errs_eq (L : Libs) (channel : String) (s : Settings) :
    ∃ before after, s.errs L channel = before ++ validateMemory s.ai.memory ++ after ∧ Spares before ∧ Spares after := by
  refine ⟨validateCooldowns s.cooldowns ++ bound "pings.cooldown" s.pings.cooldown 1 86400 ++
    (validateBehavior s.ai.behavior ++ validateHistory s.ai.history),
    (validateDreamer L s.ai.dreamer ++ nonEmptyWhenSet "ai.connection.reasoning_effort" s.ai.connection.reasoningEffort ++
      nonEmptyWhenSet "ai.dreamer.reasoning_effort" s.ai.dreamer.reasoningEffort ++
      serviceTier L "ai.connection.service_tier" s.ai.connection.serviceTier ++
      serviceTier L "ai.dreamer.service_tier" s.ai.dreamer.serviceTier ++ validateConnection L s.ai.connection ++
      validatePrefill L s.ai.history s.ai.prefill ++ validateWeb L s.ai.web ++ validateEmotes s.ai.emotes) ++
    (errorIf (1000 < s.twitch.expectedLatency) "twitch.expected_latency"
      s!"must be <= 1000ms (got {s.twitch.expectedLatency})" ++
      validateChannels L channel s.twitch.adminChannel s.twitch.aiChannel ++
      idList "twitch.hidden_admins" s.twitch.hiddenAdmins ++
      idList "twitch.viewer_allowlist" s.twitch.viewerAllowlist ++
      range "suspend.default_duration_secs" s.suspend.defaultDurationSecs 1 604800 ++
      validateAviationstack L s.aviationstack ++ validateWebRuntime s.web ++ validateSchedules L 0 [] s.schedules), ?_, ?_, ?_⟩
  · simp only [Settings.errs, validateAi, List.append_assoc]
  · simp only [spares_append, and_assoc]
    exact ⟨spares_of_names (names_cooldowns _) (by decide), spares_errorIf (by decide),
      spares_of_names (names_behavior _) (by decide), spares_of_names (names_history _) (by decide)⟩
  · simp only [spares_append, and_assoc]
    refine ⟨spares_of_names (names_dreamer _) (by decide), spares_nonEmptyWhenSet (by decide) _,
      spares_nonEmptyWhenSet (by decide) _, spares_serviceTier (by decide) _, spares_serviceTier (by decide) _,
      spares_of_names (names_connection _) (by decide), spares_of_names (names_prefill _ _) (by decide),
      spares_of_names (names_web _) (by decide), spares_of_names (names_emotes _) (by decide), ?_⟩
    exact ⟨spares_errorIf (by decide), spares_of_names (names_channels _ _) (by decide), spares_idList rfl (by decide) _,
      spares_idList rfl (by decide) _, spares_errorIf (by decide), spares_of_names (names_aviationstack _) (by decide),
      spares_of_names (names_webRuntime _) (by decide), spares_schedules _ 0 []⟩

/-! ## The check -/

/-- Validation ends, and says that the budget is too small exactly when it is. -/
def BudgetExact (b : Build) (L : Libs) (channel : String) (s : Settings) : Prop :=
  ∃ result, s.validateIn b L channel = .ok result ∧
    ((∀ errs, result = .error errs → Spares errs) ↔
      s.ai.memory.soulBytes.toNat + s.ai.memory.loreBytes.toNat ≤ s.ai.memory.injectByteBudget.toNat)

/-- Validation says nothing of the budget when it is not below the wrapped sum. -/
theorem spares_validate_iff : (∀ errs, s.validate L channel = .error errs → Spares errs) ↔
    (s.ai.memory.soulBytes.toNat + s.ai.memory.loreBytes.toNat) % 2 ^ 64 ≤ s.ai.memory.injectByteBudget.toNat := by
  obtain ⟨before, after, herrs, hbefore, hafter⟩ := errs_eq L channel s
  have hcheck : validateMemory s.ai.memory = [] ↔
      (s.ai.memory.soulBytes.toNat + s.ai.memory.loreBytes.toNat) % 2 ^ 64 ≤ s.ai.memory.injectByteBudget.toNat := by
    rw [validateMemory, errorIf_eq_nil_iff, decide_eq_false_iff_not, UInt64.not_lt, UInt64.le_iff_toNat_le, UInt64.toNat_add]
  rw [← hcheck]
  constructor
  · intro h
    by_contra hne
    have hfull : s.errs L channel ≠ [] := by
      rw [herrs]
      simp [hne]
    have hspares := h (s.errs L channel) (by rw [Settings.validate, if_neg (by simpa using hfull)])
    obtain ⟨e, r, hmem⟩ := List.exists_cons_of_ne_nil hne
    have he : e ∈ validateMemory s.ai.memory := by simp [hmem]
    refine hspares e (by rw [herrs]; simp [he]) ?_
    unfold validateMemory errorIf at he
    split at he
    · rw [List.mem_singleton.mp he]
      rfl
    · exact absurd he List.not_mem_nil
  · intro h errs hresult
    unfold Settings.validate at hresult
    split at hresult
    · cases hresult
    · obtain rfl := Except.error.inj hresult
      rw [herrs, h, List.append_nil]
      exact spares_append.mpr ⟨hbefore, hafter⟩

theorem validateIn_eq : s.validateIn b L channel =
    (b.u64 (s.ai.memory.soulBytes.toNat + s.ai.memory.loreBytes.toNat)).map fun _ => s.validate L channel := by
  unfold Settings.validateIn
  cases b.u64 (s.ai.memory.soulBytes.toNat + s.ai.memory.loreBytes.toNat) <;> rfl

/-- Every build says what is true of the budget exactly when the sum fits into 64 bits. A release build also does when the budget
is below what is left of the sum. -/
theorem budget_exact_iff (L : Libs) (channel : String) (s : Settings) :
    ((∀ b, BudgetExact b L channel s) ↔ s.ai.memory.soulBytes.toNat + s.ai.memory.loreBytes.toNat < 2 ^ 64) ∧
      (BudgetExact .release L channel s ↔ s.ai.memory.soulBytes.toNat + s.ai.memory.loreBytes.toNat < 2 ^ 64 ∨
        s.ai.memory.injectByteBudget.toNat + 2 ^ 64 < s.ai.memory.soulBytes.toNat + s.ai.memory.loreBytes.toNat) := by
  have hsoul := s.ai.memory.soulBytes.toNat_lt
  have hlore := s.ai.memory.loreBytes.toNat_lt
  have hbudget := s.ai.memory.injectByteBudget.toNat_lt
  have hfits : s.ai.memory.soulBytes.toNat + s.ai.memory.loreBytes.toNat < 2 ^ 64 → ∀ b, BudgetExact b L channel s := by
    intro h b
    refine ⟨s.validate L channel, ?_, ?_⟩
    · rw [validateIn_eq, Build.u64_of_fits h]
      rfl
    · rw [spares_validate_iff, Nat.mod_eq_of_lt h]
  have hrelease : s.validateIn .release L channel = .ok (s.validate L channel) := by
    rw [validateIn_eq]
    unfold Build.u64
    split <;> rfl
  refine ⟨⟨fun h => ?_, hfits⟩, ?_⟩
  · obtain ⟨result, hresult, _⟩ := h .dev
    by_contra hwide
    rw [validateIn_eq, Build.u64, if_neg hwide] at hresult
    cases hresult
  · constructor
    · rintro ⟨result, hresult, hexact⟩
      obtain rfl := Except.ok.inj (hrelease.symm.trans hresult)
      rw [spares_validate_iff] at hexact
      omega
    · rintro (h | h)
      · exact hfits h .release
      · refine ⟨s.validate L channel, hrelease, ?_⟩
        rw [spares_validate_iff]
        omega

namespace Examples

def plainLibs : Libs where
  render := ⟨fun cs => String.ofList cs, fun s => s⟩
  displayF64 _ := ""
  parsesUrl _ := true
  parsesTime _ := true
  storedSize n := n

/-- The defaults, with two sizes of 8 EiB. -/
def oversized : Settings :=
  { Settings.compiledDefaults with
    ai := { Settings.compiledDefaults.ai with
      memory := { Settings.compiledDefaults.ai.memory with soulBytes := 0x8000000000000000, loreBytes := 0x8000000000000000 } } }

/-- Two sizes whose sum is zero in 64 bits pass. -/
theorem an_oversized_memory_passes : ¬ BudgetExact .release plainLibs "kanal" oversized := by
  rintro ⟨result, hresult, hexact⟩
  obtain rfl := Except.ok.inj hresult
  exact absurd (hexact.mp (spares_validate_iff.mpr (by decide))) (by decide)

end Examples

end Twitch1337.Dashboard
