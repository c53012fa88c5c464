import Twitch1337.Lemmas.Pings

/-!
# Pings are rate limited and counted

Two fires of a ping are a cooldown apart unless the ping is removed between them, and the count of a ping is the number of its
fires. A removal after which the file could not be saved is answered with an error, but ends the cooldown all the same.
-/

namespace Twitch1337.Pings

open Machine

variable {lower : Text → Text}

/-! ## Cooldowns -/

/-- A command that removes a ping, whether or not the file can then be saved. -/
def PingActor.Removes (a : PingActor) (e : Event) (name : Text) : Prop :=
  e.command = .deletePing name ∧ name ∈ a.manager.store

/-- A `DeletePing` of a ping that is answered with success. -/
def PingActor.Deletes (lower : Text → Text) (a : PingActor) (e : Event) (name : Text) : Prop :=
  e.command = .deletePing name ∧ (a.manager.handle lower e).2 = .result (.ok ())

/-- A `DeletePing` of a ping that is there, after which the file is not saved. -/
def PingActor.DeletesUnsaved (a : PingActor) (e : Event) (name : Text) : Prop :=
  e.command = .deletePing name ∧ name ∈ a.manager.store ∧ e.saved = false

/-- A removal is answered with success, or could not be saved. -/
theorem PingActor.Removes.cases {a : PingActor} {e : Event} {name : Text} (h : a.Removes e name) :
    a.Deletes lower e name ∨ a.DeletesUnsaved e name := by
  obtain ⟨hcommand, hmem⟩ := h
  cases hsaved : e.saved with
  | true =>
    refine .inl ⟨hcommand, ?_⟩
    simp only [PingManager.handle, hcommand, PingManager.deletePing, if_pos hmem, hsaved]
    rfl
  | false => exact .inr ⟨hcommand, hmem, hsaved⟩

/-- A ping was last triggered at a time not before `t`, and the clock has passed that time. -/
def PingActor.TriggeredSince (a : PingActor) (name : Text) (t : Nat) : Prop :=
  ∃ last, a.manager.lastTriggered.lookup name = some last ∧ t ≤ last ∧ last ≤ a.clock

theorem step_eq_some {a a' : PingActor} {e : Event} (h : a.step lower e = some a') :
    a.clock ≤ e.checked ∧ e.checked ≤ e.recorded ∧ a'.clock = e.recorded ∧ Effect lower a.manager e a'.manager := by
  unfold PingActor.step at h
  split at h
  · rename_i hclock
    cases h
    exact ⟨hclock.1, hclock.2, rfl, effect_handle lower a.manager e⟩
  · cases h

/-- The trigger that fires leaves its time behind. -/
theorem triggered_of_fires {a a' : PingActor} {e : Event} {name : Text} (h : a.step lower e = some a')
    (hf : a.manager.fires lower e name = true) : a'.TriggeredSince name e.recorded := by
  obtain ⟨m', published, clock⟩ := a'
  obtain ⟨_, _, hclock, heff⟩ := step_eq_some h
  cases heff with
  | nothing quiet => simp [quiet name] at hf
  | created _ _ quiet _ _ => simp [quiet name] at hf
  | deleted _ quiet _ _ => simp [quiet name] at hf
  | edited _ _ _ quiet _ _ => simp [quiet name] at hf
  | fired n p _ fires =>
    obtain rfl := (fires name).mp hf
    refine ⟨e.recorded, ?_, Nat.le_refl _, Nat.le_of_eq hclock.symm⟩
    exact AList.lookup_insert _

/-- No command but a removal of the ping moves that time back. -/
theorem triggered_step {a a' : PingActor} {e : Event} {name : Text} {t : Nat} (ht : a.TriggeredSince name t)
    (hno : ¬ a.Removes e name) (h : a.step lower e = some a') : a'.TriggeredSince name t := by
  obtain ⟨last, hlast, hle, hclk⟩ := ht
  obtain ⟨m', published, clock⟩ := a'
  obtain ⟨h1, h2, hclock, heff⟩ := step_eq_some h
  have hnow : last ≤ clock := by
    simp only at hclock
    omega
  cases heff with
  | nothing _ => exact ⟨last, hlast, hle, hnow⟩
  | created _ _ _ _ _ => exact ⟨last, hlast, hle, hnow⟩
  | deleted n _ command present =>
    have hne : name ≠ n := by
      rintro rfl
      exact hno ⟨command, present⟩
    refine ⟨last, ?_, hle, hnow⟩
    rw [AList.lookup_erase_ne hne]
    exact hlast
  | edited _ _ _ _ _ _ => exact ⟨last, hlast, hle, hnow⟩
  | fired n p _ _ =>
    by_cases hn : name = n
    · refine ⟨e.recorded, ?_, by omega, Nat.le_of_eq hclock.symm⟩
      rw [hn]
      exact AList.lookup_insert _
    · refine ⟨last, ?_, hle, hnow⟩
      rw [AList.lookup_insert_ne hn]
      exact hlast

/-- A run without a removal of the ping does not move that time back. -/
theorem triggered_run {a a' : PingActor} {es : List Event} {name : Text} {t : Nat} (ht : a.TriggeredSince name t)
    (hno : Meets (PingActor.step lower) (fun b e => ¬ b.Removes e name) a es) (h : run (PingActor.step lower) a es = some a') :
    a'.TriggeredSince name t :=
  run_invariant_of_meets (fun _ _ _ hi hok hs => triggered_step hi hok hs) ht hno h

/-- A trigger that fires comes at least its cooldown after that time. -/
theorem cooldown_le_of_fires {a a' : PingActor} {e : Event} {name : Text} {t : Nat} (ht : a.TriggeredSince name t)
    (h : a.step lower e = some a') (hf : a.manager.fires lower e name = true) :
    ∃ cooldown, a.manager.cooldownInForce e = some cooldown ∧ t + cooldown ≤ e.checked := by
  obtain ⟨last, hlast, hle, hclk⟩ := ht
  obtain ⟨hchecked, _, _, _⟩ := step_eq_some h
  obtain ⟨p, default, hp, hcool, hnone⟩ := fires_checked hf
  refine ⟨_, hcool, ?_⟩
  simp only [PingManager.remainingCooldown, hp, hlast] at hnone
  split at hnone
  · cases hnone
  · omega

/-! ## Counts -/

/-- How often a ping was fired since it was created last, over a list of commands, when it was fired `n` times before. -/
def firesSince (lower : Text → Text) (name : Text) : Nat → PingManager → List Event → Nat
  | n, _, [] => n
  | n, m, e :: es =>
    let m' := (m.handle lower e).1
    let n' := if name ∉ m.store ∧ name ∈ m'.store then 0 else if m.fires lower e name then n + 1 else n
    firesSince lower name n' m' es

/-- The count of a ping is a number of fires, up to the largest a `u64` holds. -/
def PingManager.Counts (m : PingManager) (name : Text) (n : Nat) : Prop :=
  ∀ p, m.store.lookup name = some p → p.fireCount.toNat = min n (2 ^ 64 - 1)

theorem toNat_saturatingSucc (c : UInt64) : (saturatingSucc c).toNat = min (c.toNat + 1) (2 ^ 64 - 1) := by
  have hlt := c.toNat_lt
  unfold saturatingSucc
  by_cases h : c = UInt64.ofNat (2 ^ 64 - 1)
  · rw [if_pos h, h]
    decide
  · rw [if_neg h]
    have hne : c.toNat ≠ 2 ^ 64 - 1 := by
      intro heq
      apply h
      rw [← UInt64.toNat_inj, heq]
      decide
    rw [UInt64.toNat_add]
    have : (1 : UInt64).toNat = 1 := by decide
    omega

/-- One command keeps the count. -/
theorem counts_step {m m' : PingManager} {e : Event} {name : Text} {n : Nat} (hn : m.Counts name n)
    (heff : Effect lower m e m') :
    m'.Counts name (if name ∉ m.store ∧ name ∈ m'.store then 0 else if m.fires lower e name then n + 1 else n) := by
  cases heff with
  | nothing quiet =>
    rw [if_neg (fun h => h.1 h.2), quiet name]
    exact hn
  | created k p quiet absent fresh =>
    intro q hq
    rw [Table.lookup_insert] at hq
    by_cases hk : name = k
    · rw [if_pos hk] at hq
      cases hq
      rw [if_pos ⟨hk ▸ absent, by simp [hk]⟩, fresh]
      rfl
    · rw [if_neg hk] at hq
      rw [if_neg (by simp [hk]), quiet name]
      exact hn q hq
  | deleted k quiet _ present =>
    intro q hq
    rw [if_neg (by simp +contextual), quiet name]
    rw [Table.lookup_erase] at hq
    by_cases hk : name = k
    · rw [if_pos hk] at hq
      cases hq
    · rw [if_neg hk] at hq
      exact hn q hq
  | edited k p p' quiet there count =>
    intro q hq
    have hmem : k ∈ m.store := Table.mem_iff_lookup.mpr ⟨p, there⟩
    rw [Table.lookup_insert] at hq
    by_cases hk : name = k
    · rw [if_pos hk] at hq
      cases hq
      rw [if_neg (fun h => h.1 (hk ▸ hmem)), quiet name, count]
      exact hn p (hk ▸ there)
    · rw [if_neg hk] at hq
      rw [if_neg (by simp [hk]), quiet name]
      exact hn q hq
  | fired k p there fires =>
    intro q hq
    have hmem : k ∈ m.store := Table.mem_iff_lookup.mpr ⟨p, there⟩
    rw [Table.lookup_insert] at hq
    by_cases hk : name = k
    · rw [if_pos hk] at hq
      cases hq
      rw [if_neg (fun h => h.1 (hk ▸ hmem)), if_pos ((fires name).mpr hk)]
      have hp := hn p (hk ▸ there)
      simp only [Ping.fired, toNat_saturatingSucc, hp]
      omega
    · rw [if_neg hk] at hq
      rw [if_neg (by simp [hk]), if_neg (fun h => hk ((fires name).mp h))]
      exact hn q hq

/-- A run keeps the count, with the fires of the run added. -/
theorem counts_run {a a' : PingActor} {es : List Event} {name : Text} {n : Nat} (hn : a.manager.Counts name n)
    (h : run (PingActor.step lower) a es = some a') :
    a'.manager.Counts name (firesSince lower name n a.manager es) := by
  induction es generalizing a n with
  | nil =>
    rw [run_nil, Option.some.injEq] at h
    exact h ▸ hn
  | cons e es ih =>
    obtain ⟨b, hb, h⟩ := run_cons_iff.mp h
    have hm : b.manager = (a.manager.handle lower e).1 := by
      unfold PingActor.step at hb
      split at hb
      · cases hb
        rfl
      · cases hb
    have hstep := counts_step hn (step_eq_some hb).2.2.2
    rw [hm] at hstep
    have hrest := ih (hm ▸ hstep) h
    rw [hm] at hrest
    exact hrest

/-- What a ping was fired before the actor was started. -/
def loadedCount (stored : PingStore) (name : Text) : Nat :=
  match (PingManager.load stored).store.lookup name with
  | none => 0
  | some p => p.fireCount.toNat

theorem counts_load (stored : PingStore) (name : Text) : (PingManager.load stored).Counts name (loadedCount stored name) := by
  intro p hp
  simp only [loadedCount, hp]
  have := p.fireCount.toNat_lt
  omega

/-! ## Every run -/

/-- In every state the actor reaches: of two fires of a ping with no successful `DeletePing` of it in between, the second is checked
at least the cooldown in force at it after the first was recorded, provided that no `DeletePing` of it in between could not be
saved; and the count of every ping is the number of its fires since it was created. -/
theorem fires_apart_and_counted (lower : Text → Text) (stored : PingStore) (now : Nat) {es : List Event} {a : PingActor}
    (h : run (PingActor.step lower) (.start stored now) es = some a) (name : Text) :
    (∀ (first second : Event) (between : List Event) (b c d : PingActor), a.step lower first = some b →
      run (PingActor.step lower) b between = some c → c.step lower second = some d →
      Meets (PingActor.step lower) (fun x e => ¬ x.Deletes lower e name) b between →
      Meets (PingActor.step lower) (fun x e => ¬ x.DeletesUnsaved e name) b between →
      a.manager.fires lower first name = true → c.manager.fires lower second name = true →
      ∃ cooldown, c.manager.cooldownInForce second = some cooldown ∧ first.recorded + cooldown ≤ second.checked) ∧
    ∀ p, a.manager.store.lookup name = some p →
      p.fireCount.toNat = min (firesSince lower name (loadedCount stored name) (.load stored) es) (2 ^ 64 - 1) := by
  constructor
  · intro first second between b c d hfirst hbetween hsecond hno hsaved hf hf'
    have hstays : Meets (PingActor.step lower) (fun x e => ¬ x.Removes e name) b between :=
      (hno.and hsaved).mono fun x e hboth hremoves => hremoves.cases.elim hboth.1 hboth.2
    have ht := triggered_run (triggered_of_fires hfirst hf) hstays hbetween
    exact cooldown_le_of_fires ht hsecond hf'
  · exact counts_run (counts_load stored name) h

/-! ### Two runs -/

/-- A ping and a member of it, both new. -/
def setup (now : Nat) : List Event :=
  [⟨.createPing "raid".toList "Hey {mentions}".toList "mod".toList none, now, now, 0, true⟩,
    ⟨.addMember "raid".toList "bob".toList, now, now, 0, true⟩]

/-- A trigger of it by the member, with a default cooldown of ten seconds. -/
def trigger (now : Nat) : Event :=
  ⟨.tryRecordTrigger "raid".toList "bob".toList 10000000000 false, now, now, 0, true⟩

/-- Another ping comes, and goes although the file could not be saved. -/
def others (now : Nat) : List Event :=
  [⟨.createPing "quiz".toList "Quiz {mentions}".toList "mod".toList none, now, now, 0, true⟩,
    ⟨.deletePing "quiz".toList, now, now, 0, false⟩]

/-- The ping is fired at one second, and again as soon as ten seconds have passed. -/
theorem fires_apart_and_counted_twice : ∃ a b c d, run (PingActor.step id) (.start ∅ 0) (setup 0) = some a ∧
    a.step id (trigger 1000000000) = some b ∧ run (PingActor.step id) b (others 2000000000) = some c ∧
    c.step id (trigger 11000000000) = some d ∧
    (∃ cooldown, c.manager.cooldownInForce (trigger 11000000000) = some cooldown ∧ 1000000000 + cooldown ≤ 11000000000) ∧
    ∃ p, d.manager.store.lookup "raid".toList = some p ∧ p.fireCount.toNat = 2 := by
  refine ⟨_, _, _, _, rfl, rfl, rfl, rfl, ?_, _, rfl, ?_⟩
  · have h : run (PingActor.step id) (.start ∅ 0) (setup 0) = some _ := rfl
    refine (fires_apart_and_counted id ∅ 0 h "raid".toList).1 (trigger 1000000000) (trigger 11000000000) (others 2000000000)
      _ _ _ rfl rfl rfl ?_ ?_ (by rfl) (by rfl)
    · exact ⟨fun h => (by cases h.1), fun _ _ => ⟨fun h => (by cases h.1), fun _ _ => trivial⟩⟩
    · exact ⟨fun h => (by cases h.1), fun _ _ => ⟨fun h => (by cases h.1), fun _ _ => trivial⟩⟩
  · have h : run (PingActor.step id) (.start ∅ 0)
        (setup 0 ++ trigger 1000000000 :: others 2000000000 ++ [trigger 11000000000]) = some _ := rfl
    refine ((fires_apart_and_counted id ∅ 0 h "raid".toList).2 _ rfl).trans ?_
    rfl

/-- A removal after which the file could not be saved. -/
def failedDelete (now : Nat) : Event := ⟨.deletePing "raid".toList, now, now, 0, false⟩

/-- The ping is fired at one second. A `DeletePing` answered with an error, because the file cannot be saved, has removed the
ping all the same; it is created again, and fired one nanosecond later. -/
theorem failed_delete_ends_cooldown : ∃ a b c d, run (PingActor.step id) (.start ∅ 0) (setup 0) = some a ∧
    a.step id (trigger 1000000000) = some b ∧
    run (PingActor.step id) b (failedDelete 1000000000 :: setup 1000000000) = some c ∧
    c.step id (trigger 1000000001) = some d ∧
    Meets (PingActor.step id) (fun x e => ¬ x.Deletes id e "raid".toList) b (failedDelete 1000000000 :: setup 1000000000) ∧
    a.manager.fires id (trigger 1000000000) "raid".toList = true ∧
    c.manager.fires id (trigger 1000000001) "raid".toList = true ∧
    c.manager.cooldownInForce (trigger 1000000001) = some 10000000000 := by
  refine ⟨_, _, _, _, rfl, rfl, rfl, rfl, ?_, by rfl, by rfl, by rfl⟩
  refine ⟨?_, fun _ _ => ⟨?_, fun _ _ => ⟨?_, fun _ _ => trivial⟩⟩⟩
  · intro h
    cases h.2
  · intro h
    cases h.1
  · intro h
    cases h.1

end Twitch1337.Pings
