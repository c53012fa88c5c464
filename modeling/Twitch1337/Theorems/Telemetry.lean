import Twitch1337.Schedule.Telemetry

/-!
# Telemetry that is clean

The flag that says that nothing is to be saved is cleared after a save, under another lock than the one the map was taken under.
What it says is true as long as it is never cleared when a fire is missing from the map that was saved last.
-/

namespace Twitch1337.Schedules

open Pool

variable {Z : Zone} {v v' : TelemetryStore × List TelemetryPoint}

abbrev TelemetryEvent := Pool.Event TelemetryIo TelemetryCall

/-- A store as it is opened, without calls. -/
def telemetryStart (file : Option RuntimeMap) (now : Nat) : TelemetryStore × List TelemetryPoint := (.open_ file now, [])

/-- When a call clears the flag, every fire is in the map that was saved last. -/
def Timely (w : TelemetryStore) (_ : Nat) (s : TelemetryPoint) (_ : TelemetryIo) : Prop :=
  match s with
  | .completing => w.written = w.fires
  | _ => True

instance (w : TelemetryStore) (p : Nat) (s : TelemetryPoint) (io : TelemetryIo) : Decidable (Timely w p s io) := by
  unfold Timely
  split <;> infer_instance

/-- No call is in progress. -/
def Quiet (v : TelemetryStore × List TelemetryPoint) : Prop := ∀ q ∈ v.2, q.isEnded = true

/-! ## The age of maps -/

/-- Maps that hold every fire are the map in memory, and the flag is not cleared while the file is older, unless a call that saved
has yet to report. -/
structure Aged (v : TelemetryStore × List TelemetryPoint) : Prop where
  written : v.1.written ≤ v.1.fires
  file : v.1.written = v.1.fires → readFile v.1.file = v.1.map
  snaps : ∀ snap taken, .saving snap taken ∈ v.2 → taken ≤ v.1.fires ∧ (taken = v.1.fires → snap = v.1.map)
  clean : v.1.dirty = false → v.1.written = v.1.fires ∨ .completing ∈ v.2

theorem aged_start (file : Option RuntimeMap) (now : Nat) : Aged (telemetryStart file now) :=
  ⟨Nat.le_refl _, fun _ => rfl, fun _ _ h => (by cases h), fun _ => .inl rfl⟩

/-- A process after a step is the one that moved, or one that was there. -/
theorem mem_set_cases {procs : List TelemetryPoint} {p : Nat} {s' t : TelemetryPoint} (h : t ∈ procs.set p s') :
    t = s' ∨ t ∈ procs :=
  (List.mem_or_eq_of_mem_set h).symm

/-- A call that reports is still there after the step of another one. -/
theorem completing_mem_set {procs : List TelemetryPoint} {p : Nat} {s s' : TelemetryPoint} (hp : procs[p]? = some s)
    (hs : s ≠ .completing) (h : .completing ∈ procs) : .completing ∈ procs.set p s' := by
  obtain ⟨q, hq⟩ := List.mem_iff_getElem?.mp h
  have hne : p ≠ q := by
    rintro rfl
    exact hs (Option.some.inj (hp.symm.trans hq))
  exact List.mem_iff_getElem?.mpr ⟨q, by rw [List.getElem?_set_ne hne, hq]⟩

/-- Every step keeps it. -/
theorem Aged.step (hv : Aged v) {e : TelemetryEvent} (hok : Allows (fun _ => True) Timely v e)
    (h : (telemetry Z).step v e = some v') : Aged v' := by
  obtain ⟨hwritten, hfile, hsnaps, hclean⟩ := hv
  rcases step_cases h with ⟨call, rfl, rfl⟩ | ⟨p, io, s, rfl, hs, hd, _, rfl⟩
  · refine ⟨hwritten, hfile, fun snap taken hmem => ?_, fun hd => ?_⟩
    · rcases List.mem_append.mp hmem with hmem | hmem
      · exact hsnaps snap taken hmem
      · cases List.mem_singleton.mp hmem
    · rcases hclean hd with h | h
      · exact .inl h
      · exact .inr (List.mem_append_left _ h)
  · have htimely := hok s hs
    -- a step that leaves the store leaves what is known of it
    have hstay : ∀ s', s ≠ .completing → (∀ snap taken, s' = .saving snap taken → taken ≤ v.1.fires ∧
        (taken = v.1.fires → snap = v.1.map)) → Aged (v.1, v.2.set p s') := by
      intro s' hne hs'
      refine ⟨hwritten, hfile, fun snap taken hmem => ?_, fun hd => ?_⟩
      · rcases mem_set_cases hmem with heq | hmem
        · exact hs' snap taken heq.symm
        · exact hsnaps snap taken hmem
      · exact (hclean hd).imp_right (completing_mem_set hs hne)
    cases s with
    | calling call =>
      cases call with
      | flush =>
        simp only [telemetry, TelemetryStore.next]
        split
        · refine hstay _ (by simp) fun snap taken heq => ?_
          cases heq
          exact ⟨Nat.le_refl _, fun _ => rfl⟩
        · exact hstay _ (by simp) (by simp)
      | recordFire name at_ =>
        -- the new fire is in the map in memory, and in no map that was taken before
        have hrec : ∀ s' map, (∀ snap taken, s' = .saving snap taken → snap = map ∧ taken = v.1.fires + 1) →
            Aged ({ v.1 with map, dirty := true, fires := v.1.fires + 1 }, v.2.set p s') := by
          intro s' map hs'
          refine ⟨Nat.le_succ_of_le hwritten, fun heq => absurd heq (by dsimp only; omega), fun snap taken hmem => ?_,
            fun hd => by cases hd⟩
          rcases mem_set_cases hmem with heq | hmem
          · obtain ⟨rfl, rfl⟩ := hs' snap taken heq.symm
            exact ⟨Nat.le_refl _, fun _ => rfl⟩
          · have := (hsnaps snap taken hmem).1
            exact ⟨by dsimp only; omega, fun heq => absurd heq (by dsimp only; omega)⟩
        simp only [telemetry, TelemetryStore.next, TelemetryStore.record]
        by_cases hdue : flushInterval ≤ io.now - v.1.lastFlush
        · simp only [if_pos hdue]
          refine hrec _ _ fun snap taken heq => ?_
          cases heq
          exact ⟨rfl, rfl⟩
        · simp only [if_neg hdue]
          exact hrec _ _ (by simp)
    | saving snap taken =>
      obtain ⟨hle, heq⟩ := hsnaps snap taken (List.mem_of_getElem? hs)
      simp only [telemetry, TelemetryStore.next]
      split
      · refine ⟨hle, heq, fun snap' taken' hmem => ?_, fun _ => .inr ?_⟩
        · rcases mem_set_cases hmem with h | hmem
          · cases h
          · exact hsnaps snap' taken' hmem
        · exact List.mem_set (List.getElem?_eq_some_iff.mp hs).1 _
      · exact hstay _ (by simp) (by simp)
    | completing =>
      have htimely : v.1.written = v.1.fires := htimely
      refine ⟨hwritten, hfile, fun snap taken hmem => ?_, fun _ => .inl htimely⟩
      rcases mem_set_cases hmem with h | hmem
      · cases h
      · exact hsnaps snap taken hmem
    | ended => cases hd

/-! ## The theorem -/

/-- What a clean store promises, in a state of a run. -/
structure CleanOnDisk (Z : Zone) (v : TelemetryStore × List TelemetryPoint) : Prop where
  /-- When no call is in progress and the flag is cleared, the file holds the map. -/
  clean : Quiet v → v.1.dirty = false → readFile v.1.file = v.1.map
  /-- When no call is in progress, a flush that can save and comes to its end leaves the map in the file. -/
  flush : Quiet v → ∀ (ios : List TelemetryIo) v', (∀ io ∈ ios, io.saved = true) →
    Machine.run (telemetry Z).step v (.spawn .flush :: ios.map (.step v.2.length)) = some v' → Quiet v' →
      v'.1.map = v.1.map ∧ readFile v'.1.file = v'.1.map

/-- The step of the last call there is. -/
theorem step_last {w : TelemetryStore} {procs : List TelemetryPoint} {s : TelemetryPoint} {io : TelemetryIo}
    (h : (telemetry Z).step (w, procs ++ [s]) (.step procs.length io) = some v') :
    s.isEnded = false ∧ v' = ((w.next Z s io).1, procs ++ [(w.next Z s io).2]) := by
  rcases step_cases h with ⟨call, heq, _⟩ | ⟨p, io', t, heq, ht, hd, _, rfl⟩
  · cases heq
  · cases heq
    have ht : t = s := by simpa using ht.symm
    subst ht
    refine ⟨hd, ?_⟩
    simp [telemetry]

/-- A call that is last and has ended takes no step. -/
theorem run_last_ended {w : TelemetryStore} {procs : List TelemetryPoint} {ios : List TelemetryIo}
    (h : Machine.run (telemetry Z).step (w, procs ++ [.ended]) (ios.map (.step procs.length)) = some v') :
    v' = (w, procs ++ [.ended]) := by
  cases ios with
  | nil => exact (Option.some.inj h).symm
  | cons io ios =>
    rw [List.map_cons] at h
    obtain ⟨u, hu, _⟩ := Machine.run_cons_iff.mp h
    cases (step_last hu).1

theorem not_quiet_last {w : TelemetryStore} {procs : List TelemetryPoint} {s : TelemetryPoint} (hs : s.isEnded = false) :
    ¬ Quiet (w, procs ++ [s]) := by
  intro h
  have := h s (List.mem_append_right _ (List.mem_singleton.mpr rfl))
  rw [hs] at this
  cases this

theorem Aged.cleanOnDisk (hv : Aged v) : CleanOnDisk Z v := by
  have hclean : Quiet v → v.1.dirty = false → readFile v.1.file = v.1.map := by
    intro hquiet hd
    rcases hv.clean hd with h | h
    · exact hv.file h
    · cases hquiet _ h
  refine ⟨hclean, fun hquiet ios v' hsaved hrun hquiet' => ?_⟩
  obtain ⟨w, procs⟩ := v
  obtain ⟨u, hu, hrun⟩ := Machine.run_cons_iff.mp hrun
  cases hu
  -- the flush takes one step when there is nothing to save, and else three
  cases ios with
  | nil =>
    cases hrun
    exact absurd hquiet' (not_quiet_last rfl)
  | cons io₁ ios =>
    rw [List.map_cons] at hrun
    obtain ⟨u, hu, hrun⟩ := Machine.run_cons_iff.mp hrun
    obtain ⟨_, rfl⟩ := step_last hu
    cases hdirty : w.dirty with
    | false =>
      simp only [TelemetryStore.next, hdirty, Bool.false_eq_true, if_false] at hrun
      rw [run_last_ended hrun]
      exact ⟨rfl, hclean hquiet hdirty⟩
    | true =>
      simp only [TelemetryStore.next, hdirty, if_true] at hrun
      cases ios with
      | nil =>
        cases hrun
        exact absurd hquiet' (not_quiet_last rfl)
      | cons io₂ ios =>
        rw [List.map_cons] at hrun
        obtain ⟨u, hu, hrun⟩ := Machine.run_cons_iff.mp hrun
        obtain ⟨_, rfl⟩ := step_last hu
        simp only [TelemetryStore.next, hsaved io₂ (by simp), if_true] at hrun
        cases ios with
        | nil =>
          cases hrun
          exact absurd hquiet' (not_quiet_last rfl)
        | cons io₃ ios =>
          rw [List.map_cons] at hrun
          obtain ⟨u, hu, hrun⟩ := Machine.run_cons_iff.mp hrun
          obtain ⟨_, rfl⟩ := step_last hu
          rw [run_last_ended hrun]
          exact ⟨rfl, rfl⟩

/-- In every run in which the flag is cleared only when every fire is in the map that was saved last, what is clean is on disk. -/
theorem clean_is_on_disk (Z : Zone) (file : Option RuntimeMap) (now : Nat) (es : List TelemetryEvent)
    (v : TelemetryStore × List TelemetryPoint)
    (hok : Machine.Meets (telemetry Z).step (Allows (fun _ => True) Timely) (telemetryStart file now) es)
    (h : Machine.run (telemetry Z).step (telemetryStart file now) es = some v) : CleanOnDisk Z v :=
  (Machine.run_invariant_of_meets (fun _ _ _ hv hok hstep => hv.step hok hstep) (aged_start file now) hok h).cleanOnDisk

/-! ### Two fires -/

/-- A fire that is saved, and one more while it is. -/
def twoFires : List TelemetryEvent :=
  [.spawn (.recordFire "morning" 0), .step 0 ⟨flushInterval, true⟩, .spawn (.recordFire "evening" 1),
    .step 1 ⟨flushInterval, true⟩, .step 0 ⟨flushInterval, true⟩, .step 1 ⟨flushInterval, true⟩,
    .step 1 ⟨flushInterval, true⟩, .step 0 ⟨flushInterval, true⟩]

/-- Both are over, nothing is dirty, and the file has both. -/
theorem clean_is_on_disk_twoFires :
    ∃ v, Machine.run (telemetry (.fixed 7200)).step (telemetryStart none 0) twoFires = some v ∧ Quiet v ∧
      v.1.dirty = false ∧ CleanOnDisk (.fixed 7200) v ∧ ((readFile v.1.file).lookup "morning").isSome = true ∧
      ((readFile v.1.file).lookup "evening").isSome = true := by
  have hruns : ((Machine.run (telemetry (.fixed 7200)).step (telemetryStart none 0) twoFires).map fun v =>
      (v.2.all (·.isEnded), v.1.dirty, (v.1.map.lookup "morning").isSome, (v.1.map.lookup "evening").isSome)) =
      some (true, false, true, true) := by
    rfl
  have hok : Machine.Meets (telemetry (.fixed 7200)).step (Allows (fun _ => True) Timely) (telemetryStart none 0)
      twoFires := by
    decide
  obtain ⟨v, hv, hout⟩ := Option.map_eq_some_iff.mp hruns
  simp only [Prod.mk.injEq] at hout
  obtain ⟨hended, hclean, hmorning, hevening⟩ := hout
  have hquiet : Quiet v := List.all_eq_true.mp hended
  have hdisk : CleanOnDisk (.fixed 7200) v := clean_is_on_disk (.fixed 7200) none 0 twoFires v hok hv
  refine ⟨v, hv, hquiet, hclean, hdisk, ?_, ?_⟩
  · rw [hdisk.clean hquiet hclean, hmorning]
  · rw [hdisk.clean hquiet hclean, hevening]

/-- A second fire is recorded while the first is saved. -/
def lostFire : List TelemetryEvent :=
  [.spawn (.recordFire "morning" 0), .step 0 ⟨flushInterval, true⟩, .spawn (.recordFire "evening" 1), .step 1 ⟨0, true⟩,
    .step 0 ⟨flushInterval, true⟩, .step 0 ⟨flushInterval, true⟩]

/-- Then no call is in progress, the store is clean, and the second fire is not in the file; a flush does not write it. -/
theorem fire_lost_in_save :
    ∃ v, Machine.run (telemetry (.fixed 7200)).step (telemetryStart none 0) lostFire = some v ∧ Quiet v ∧
      v.1.dirty = false ∧ (v.1.map.lookup "evening").isSome = true ∧ ((readFile v.1.file).lookup "evening").isSome = false ∧
      ∃ v', Machine.run (telemetry (.fixed 7200)).step v [.spawn .flush, .step 2 ⟨flushInterval, true⟩] = some v' ∧
        Quiet v' ∧ ((readFile v'.1.file).lookup "evening").isSome = false := by
  have hruns : ((Machine.run (telemetry (.fixed 7200)).step (telemetryStart none 0) lostFire).map fun v =>
      (v.2.all (·.isEnded), v.1.dirty, (v.1.map.lookup "evening").isSome, ((readFile v.1.file).lookup "evening").isSome)) =
      some (true, false, true, false) := by
    rfl
  have hflushes : ((Machine.run (telemetry (.fixed 7200)).step (telemetryStart none 0) lostFire).bind fun v =>
      (Machine.run (telemetry (.fixed 7200)).step v [.spawn .flush, .step 2 ⟨flushInterval, true⟩]).map fun v' =>
        (v'.2.all (·.isEnded), ((readFile v'.1.file).lookup "evening").isSome)) = some (true, false) := by
    rfl
  obtain ⟨v, hv, hout⟩ := Option.map_eq_some_iff.mp hruns
  simp only [Prod.mk.injEq] at hout
  obtain ⟨hquiet, hdirty, hmem, hfile⟩ := hout
  rw [hv, Option.bind_some] at hflushes
  obtain ⟨v', hv', hout'⟩ := Option.map_eq_some_iff.mp hflushes
  simp only [Prod.mk.injEq] at hout'
  exact ⟨v, hv, List.all_eq_true.mp hquiet, hdirty, hmem, hfile, v', hv', List.all_eq_true.mp hout'.1, hout'.2⟩

end Twitch1337.Schedules
