import Twitch1337.Lemmas.Loop

/-!
# The names of a flight

A flight goes by its identifier, its callsign, its aliases and its hex. This is what a sample adds to them, and what is known of
the names a new flight has.
-/

namespace Twitch1337.Tracker

open RustStr Chrono

variable {Γ : Ctx}

/-! ## Identifiers and codes -/

/-- An identifier that is read from a message is ASCII. -/
theorem parse_ascii {input : String} {identifier : FlightIdentifier}
    (h : FlightIdentifier.parse Γ input = .ok identifier) : ∀ c ∈ identifier.asStr.toList, c.toNat < 128 := by
  unfold FlightIdentifier.parse at h
  simp only at h
  split at h
  · cases h
  · split at h
    · rename_i hiata
      rw [Except.ok.injEq] at h
      subst h
      intro c hc
      rw [isIataFlightNumber, Bool.and_eq_true] at hiata
      have hm := hiata.2
      simp only [FlightIdentifier.asStr] at hc
      split at hm
      · rename_i a b rest hl
        rw [hl] at hc
        simp only [Bool.and_eq_true, List.all_eq_true] at hm
        have halphanum : c.isAlphanum = true := by
          rcases List.mem_cons.mp hc with rfl | hc
          · exact isAlphanum_of_isUpper hm.1.1
          · rcases List.mem_cons.mp hc with rfl | hc
            · exact isAlphanum_of_isUpper hm.1.2
            · exact isAlphanum_of_isDigit (hm.2 c hc)
        exact ascii_of_isAlphanum halphanum
      · cases hm
    · split at h
      · rename_i hhex
        rw [Except.ok.injEq] at h
        subst h
        intro c hc
        rw [FlightIdentifier.isValidIcao24Hex, Bool.and_eq_true, List.all_eq_true] at hhex
        exact ascii_of_isAsciiHexdigit (hhex.2 c hc)
      · split at h
        · cases h
        · rename_i hal
          rw [Except.ok.injEq] at h
          subst h
          intro c hc
          simp only [Bool.or_eq_true, not_or, Bool.not_eq_true', Bool.not_eq_false, List.all_eq_true] at hal
          exact ascii_of_isAlphanum (hal.2 c hc)

/-- A normal hex is its own upper case. -/
theorem toUppercase_of_normalIcao24 {c h : String} (hn : normalizeIcao24 Γ c = some h) : Γ.upper.toUppercase h = h := by
  unfold normalizeIcao24 at hn
  simp only at hn
  split at hn
  · rw [Option.some.injEq] at hn
    rw [← hn, UpperTable.toUppercase_toUppercase]
  · cases hn

/-! ## What a flight answers to -/

/-- A flight answers to the names it has, up to ASCII case. -/
theorem answersTo_congr {u v : String} (h : eqIgnoreAsciiCase u v = true) (f : TrackedFlight) :
    answersTo f u = answersTo f v := by
  simp only [answersTo, eqIgnoreAsciiCase_congr h]

/-- What a flight goes by: its identifier, its callsign, an alias, or its hex. -/
theorem answersTo_iff {f : TrackedFlight} {u : String} :
    answersTo f u = true ↔ eqIgnoreAsciiCase f.identifier.asStr u = true ∨
      (∃ cs, f.callsign = some cs ∧ eqIgnoreAsciiCase cs u = true) ∨
      (∃ a ∈ f.aliasCallsigns, eqIgnoreAsciiCase a u = true) ∨
      ∃ h, f.hex = some h ∧ eqIgnoreAsciiCase h u = true := by
  simp only [answersTo, Bool.or_eq_true, List.any_eq_true, or_assoc, Option.any_eq_true]

/-- A flight goes by a callsign or by its hex. -/
theorem answersTo_cases {f : TrackedFlight} {u : String} (h : answersTo f u = true) :
    flightMatchesCallsign f u = true ∨ f.hex.any (eqIgnoreAsciiCase · u) = true ∨
      ∃ hx, f.identifier = .hex hx ∧ eqIgnoreAsciiCase hx u = true := by
  simp only [answersTo, flightMatchesCallsign, Bool.or_eq_true] at h ⊢
  rcases h with ((h | h) | h) | h
  · cases hid : f.identifier with
    | callsign s =>
      rw [hid] at h
      exact .inl (.inr h)
    | hex hx =>
      rw [hid] at h
      exact .inr (.inr ⟨hx, rfl, h⟩)
  · exact .inl (.inl (.inl h))
  · exact .inl (.inl (.inr h))
  · exact .inr (.inl h)

/-! ## What a sample adds -/

/-- The callsign a flight takes over from a sample. -/
def takenCallsign (f : TrackedFlight) (s : Sample) : Option String :=
  (acceptedHit f s).bind fun (ac, raw) => newlyResolvedCallsign f ac (confirmationAfter f raw s.obs.usedHex s.now)

/-- The hex a flight without one takes over from a sample. -/
def takenHex (Γ : Ctx) (f : TrackedFlight) (s : Sample) : Option String :=
  if f.hex.isNone then (acceptedHit f s).bind fun (ac, _) => ac.hex.bind (normalizeIcao24 Γ) else none

/-- A flight takes over a callsign only when it has none. -/
theorem takenCallsign_spec {f : TrackedFlight} {s : Sample} {cs : String} (h : takenCallsign f s = some cs) :
    f.callsign = none ∧ trim cs = cs := by
  rw [takenCallsign, Option.bind_eq_some_iff] at h
  obtain ⟨⟨ac, raw⟩, -, h⟩ := h
  simp only [newlyResolvedCallsign] at h
  split at h
  · rename_i hn
    rw [Bool.and_eq_true, Option.isNone_iff_eq_none] at hn
    rw [aircraftCallsign, Option.filter_eq_some_iff, Option.map_eq_some_iff] at h
    obtain ⟨⟨raw', -, rfl⟩, -⟩ := h
    exact ⟨hn.2, trim_trim raw'⟩
  · cases h

/-- The names after an offered callsign. -/
theorem resolveCallsignTo_names (f : TrackedFlight) (offer : Option String) :
    (resolveCallsignTo Γ f offer).callsign = offer.or f.callsign ∧
    ∀ a ∈ (resolveCallsignTo Γ f offer).aliasCallsigns,
      a ∈ f.aliasCallsigns ∨ ∃ cs, offer = some cs ∧ normalizeFlightCode Γ cs = some a := by
  cases offer with
  | none => exact ⟨rfl, fun a ha => .inl ha⟩
  | some cs =>
    refine ⟨by simp [resolveCallsignTo], fun a ha => ?_⟩
    rw [resolveCallsignTo, addAliasCallsign] at ha
    split at ha
    · exact .inl ha
    · rename_i code hcode
      split at ha
      · exact .inl ha
      · rcases List.mem_append.mp ha with ha | ha
        · exact .inl ha
        · rw [List.mem_singleton.mp ha]
          exact .inr ⟨cs, rfl, hcode⟩

/-- What a sample does to the names of a flight, exactly. -/
theorem pollStep_names (f : TrackedFlight) (s : Sample) :
    (pollStep Γ f s).callsign = (takenCallsign f s).or f.callsign ∧
    (∀ a ∈ (pollStep Γ f s).aliasCallsigns,
      a ∈ f.aliasCallsigns ∨ ∃ cs, takenCallsign f s = some cs ∧ normalizeFlightCode Γ cs = some a) ∧
    ((f.hex = none ∧ (pollStep Γ f s).hex = takenHex Γ f s) ∨
      ∃ old h, f.hex = some old ∧ (pollStep Γ f s).hex = some h ∧
        (h = old ∨ (Γ.upper.toUppercase h = h ∧ eqIgnoreAsciiCase old h = true))) := by
  cases ha : acceptedHit f s with
  | none =>
    have hn := (pollStep_of_ignored (Γ := Γ) ha).2.1
    have htc : takenCallsign f s = none := by rw [takenCallsign, ha]; rfl
    have hth : takenHex Γ f s = none := by
      unfold takenHex
      rw [ha]
      split <;> rfl
    rw [htc, hth, hn]
    refine ⟨rfl, fun a ha => .inl ha, ?_⟩
    cases hx : f.hex with
    | none => exact .inl ⟨rfl, rfl⟩
    | some old => exact .inr ⟨old, old, rfl, rfl, .inl rfl⟩
  | some hit =>
    obtain ⟨ac, raw⟩ := hit
    obtain ⟨-, he⟩ := advanceFlight_of_accepted (Γ := Γ) ha
    have htc : takenCallsign f s = newlyResolvedCallsign f ac (confirmationAfter f raw s.obs.usedHex s.now) := by
      rw [takenCallsign, ha]
      rfl
    obtain ⟨f₁, hf₁⟩ : ∃ g, g = resolveCallsignTo Γ
        { polledAt f s.now with
          lastVisibleAt := some s.now
          lastSeen := if raw.isTargetConfirmed then some s.now else f.lastSeen
          targetConfirmation := confirmationAfter f raw s.obs.usedHex s.now
          observedCallsign := aircraftCallsign ac } (takenCallsign f s) := ⟨_, rfl⟩
    have hnames : (pollStep Γ f s).toNames = (setHexFrom Γ f₁ ac.hex .adsb raw.isTargetConfirmed).toNames := by
      rw [pollStep, he]
      simp only [performFollowups_frame]
      rw [advanceHit]
      simp only [observePhase_frame]
      rw [hf₁, htc]
      rfl
    obtain ⟨hcs, hal⟩ := resolveCallsignTo_names (Γ := Γ)
      { polledAt f s.now with
        lastVisibleAt := some s.now
        lastSeen := if raw.isTargetConfirmed then some s.now else f.lastSeen
        targetConfirmation := confirmationAfter f raw s.obs.usedHex s.now
        observedCallsign := aircraftCallsign ac } (takenCallsign f s)
    rw [← hf₁] at hcs hal
    have hhex : f₁.hex = f.hex := by
      rw [hf₁]
      simp
    refine ⟨?_, ?_, ?_⟩
    · rw [hnames]
      simpa using hcs
    · rw [hnames]
      simpa using hal
    · rw [hnames]
      cases hx : f.hex with
      | none =>
        left
        refine ⟨rfl, ?_⟩
        rw [hx] at hhex
        unfold takenHex
        rw [ha, hx]
        simp only [Option.isNone_none, if_true, Option.bind_some]
        cases hac : ac.hex with
        | none => simpa [setHexFrom] using hhex
        | some c =>
          simp only [setHexFrom, setHexIfConsistent, hhex, Option.bind_some]
          cases normalizeIcao24 Γ c with
          | none => simpa using hhex
          | some h => simp
      | some old =>
        right
        rw [hx] at hhex
        cases setHexFrom_change (Γ := Γ) f₁ ac.hex .adsb raw.isTargetConfirmed with
        | kept same _ => exact ⟨old, old, rfl, by rw [same]; exact hhex, .inl rfl⟩
        | set c h offer normal consistent now _ =>
          exact ⟨old, h, rfl, now, .inr ⟨toUppercase_of_normalIcao24 normal, consistent old hhex⟩⟩

/-- A sample takes no alias away. -/
theorem pollStep_aliases (f : TrackedFlight) (s : Sample) : f.aliasCallsigns ⊆ (pollStep Γ f s).aliasCallsigns := by
  cases ha : acceptedHit f s with
  | none =>
    rw [(pollStep_of_ignored (Γ := Γ) ha).2.1]
    exact List.Subset.refl _
  | some hit =>
    obtain ⟨ac, raw⟩ := hit
    obtain ⟨more, hm⟩ := (pollStep_of_accepted (Γ := Γ) ha).2.1.aliases
    rw [hm]
    exact List.subset_append_left _ _

/-- The names a flight takes over from a sample: a callsign, its upper case, and a hex. -/
def Takes (Γ : Ctx) (f : TrackedFlight) (s : Sample) (n : String) : Prop :=
  takenCallsign f s = some n ∨ (takenCallsign f s).map Γ.upper.toUppercase = some n ∨ takenHex Γ f s = some n

/-- What a flight goes by after a sample, it went by before, or took over from the sample. -/
theorem answersTo_pollStep {f : TrackedFlight} {s : Sample} {u : String} (h : answersTo (pollStep Γ f s) u = true) :
    answersTo f u = true ∨ ∃ n, Takes Γ f s n ∧ eqIgnoreAsciiCase n u = true := by
  obtain ⟨hcs, hal, hhex⟩ := pollStep_names (Γ := Γ) f s
  rw [answersTo_iff, pollStep_ticket] at h
  rw [answersTo_iff]
  rcases h with h | ⟨cs, hg, h⟩ | ⟨a, ha, h⟩ | ⟨x, hg, h⟩
  · exact .inl (.inl h)
  · rw [hcs, Option.or_eq_some_iff] at hg
    rcases hg with ht | ⟨-, hf⟩
    · exact .inr ⟨cs, .inl ht, h⟩
    · exact .inl (.inr (.inl ⟨cs, hf, h⟩))
  · rcases hal a ha with ha | ⟨cs, ht, hcode⟩
    · exact .inl (.inr (.inr (.inl ⟨a, ha, h⟩)))
    · refine .inr ⟨a, .inr (.inl ?_), h⟩
      simp only [normalizeFlightCode, (takenCallsign_spec ht).2] at hcode
      split at hcode
      · cases hcode
      · rw [ht, ← hcode]
        rfl
  · rcases hhex with ⟨-, hx⟩ | ⟨old, y, ho, hx, hsame⟩
    · exact .inr ⟨x, .inr (.inr (hx ▸ hg)), h⟩
    · rw [hx, Option.some.injEq] at hg
      subst hg
      rcases hsame with rfl | ⟨-, hsame⟩
      · exact .inl (.inr (.inr (.inr ⟨_, ho, h⟩)))
      · refine .inl (.inr (.inr (.inr ⟨old, ho, ?_⟩)))
        rwa [← eqIgnoreAsciiCase_congr h]

/-- What a flight goes by, it goes by after a sample. -/
theorem answersTo_mono {f : TrackedFlight} {s : Sample} {u : String} (h : answersTo f u = true) :
    answersTo (pollStep Γ f s) u = true := by
  obtain ⟨hcs, -, hhex⟩ := pollStep_names (Γ := Γ) f s
  rw [answersTo_iff] at h
  rw [answersTo_iff, pollStep_ticket]
  rcases h with h | ⟨cs, hf, h⟩ | ⟨a, ha, h⟩ | ⟨x, hf, h⟩
  · exact .inl h
  · refine .inr (.inl ⟨cs, ?_, h⟩)
    rw [hcs, hf]
    cases ht : takenCallsign f s with
    | none => rfl
    | some cs' =>
      rw [(takenCallsign_spec ht).1] at hf
      cases hf
  · exact .inr (.inr (.inl ⟨a, pollStep_aliases f s ha, h⟩))
  · rcases hhex with ⟨hnone, -⟩ | ⟨old, y, ho, hx, hsame⟩
    · rw [hnone] at hf
      cases hf
    · rw [ho, Option.some.injEq] at hf
      subst hf
      refine .inr (.inr (.inr ⟨y, hx, ?_⟩))
      rcases hsame with rfl | ⟨-, hsame⟩
      · exact h
      · rw [eqIgnoreAsciiCase_comm, ← eqIgnoreAsciiCase_congr hsame, eqIgnoreAsciiCase_comm]
        exact h

end Twitch1337.Tracker
