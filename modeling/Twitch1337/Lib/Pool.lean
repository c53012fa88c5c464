import Mathlib.Algebra.GroupWithZero.Nat
import Mathlib.Data.List.Basic
import Twitch1337.Lib.Machine

/-!
# Pools of processes with locks

A pool is a shared state and processes beside it, each at some point of its program. A step of a process may need a lock: it
can be taken when no process holds that lock. Here are the pool as a machine, the exclusion that locks give, the rule that
carries what a process relies on past the steps of the others, and the theorem that locks which are always taken in one order
let some process go on.
-/

namespace Pool

/-- A program: where a process starts, which locks it holds at a point, which one its next step needs, whether it is done, and
what its next step does. A process knows its number. -/
structure Program (γ σ ι ρ κ : Type*) where
  start : ρ → σ
  holds : σ → List κ
  needs : σ → Option κ
  done : σ → Bool
  next : γ → Nat → σ → ι → γ × σ

/-- A process is started, or one takes its next step, with what it reads from outside. -/
inductive Event (ι ρ : Type*) where
  | spawn (request : ρ)
  | step (p : Nat) (input : ι)

variable {γ σ ι ρ κ : Type*} [DecidableEq κ]

/-- Whether a step that needs a lock can be taken beside some processes. -/
def Program.free (P : Program γ σ ι ρ κ) (procs : List σ) (s : σ) : Bool :=
  match P.needs s with
  | none => true
  | some k => procs.all fun t => k ∉ P.holds t

def Program.step (P : Program γ σ ι ρ κ) (w : γ × List σ) : Event ι ρ → Option (γ × List σ)
  | .spawn request => some (w.1, w.2 ++ [P.start request])
  | .step p input =>
    match w.2[p]? with
    | none => none
    | some s =>
      if P.done s then none
      else if P.free w.2 s then
        let (g, s') := P.next w.1 p s input
        some (g, w.2.set p s')
      else none

variable {P : Program γ σ ι ρ κ}

theorem free_iff {procs : List σ} {s : σ} :
    P.free procs s = true ↔ ∀ k, P.needs s = some k → ∀ t ∈ procs, k ∉ P.holds t := by
  unfold Program.free
  split
  · rename_i h
    simp [h]
  · rename_i k h
    simp [h]

/-- A process that cannot go on waits for one that holds the lock it needs. -/
theorem blocked {procs : List σ} {s : σ} (h : ¬ P.free procs s = true) :
    ∃ k, P.needs s = some k ∧ ∃ t ∈ procs, k ∈ P.holds t := by
  unfold Program.free at h
  split at h
  · exact absurd rfl h
  · rename_i k hk
    refine ⟨k, hk, ?_⟩
    simpa using h

/-- What a step does: it adds a process, or moves one that can go on. -/
theorem step_cases {w w' : γ × List σ} {e : Event ι ρ} (h : P.step w e = some w') :
    (∃ request, e = .spawn request ∧ w' = (w.1, w.2 ++ [P.start request])) ∨
      ∃ p input s, e = .step p input ∧ w.2[p]? = some s ∧ P.done s = false ∧ P.free w.2 s = true ∧
        w' = ((P.next w.1 p s input).1, w.2.set p (P.next w.1 p s input).2) := by
  cases e with
  | spawn request =>
    cases h
    exact .inl ⟨request, rfl, rfl⟩
  | step p input =>
    simp only [Program.step] at h
    split at h
    · cases h
    rename_i s hs
    split at h
    · cases h
    rename_i hd
    split at h
    · rename_i hf
      cases h
      exact .inr ⟨p, input, s, rfl, hs, by simpa using hd, hf, rfl⟩
    · cases h

/-! ## Processes after a step -/

/-- A process of a pool with one more is one there was, or the new one. -/
theorem getElem?_spawn {procs : List σ} {s t : σ} {q : Nat} (h : (procs ++ [s])[q]? = some t) :
    procs[q]? = some t ∨ (q = procs.length ∧ t = s) := by
  rw [List.getElem?_append] at h
  split at h
  · exact .inl h
  · rename_i hq
    rw [List.getElem?_singleton] at h
    split at h
    · cases h
      exact .inr ⟨by omega, rfl⟩
    · cases h

/-- A process of a pool in which one has moved is the one that moved, or one that has not. -/
theorem getElem?_moved {procs : List σ} {s s' t : σ} {p q : Nat} (hp : procs[p]? = some s)
    (h : (procs.set p s')[q]? = some t) : (q = p ∧ t = s') ∨ (q ≠ p ∧ procs[q]? = some t) := by
  by_cases hq : q = p
  · subst hq
    have hlt : q < procs.length := (List.getElem?_eq_some_iff.mp hp).1
    rw [List.getElem?_set_self hlt, Option.some.injEq] at h
    exact .inl ⟨rfl, h.symm⟩
  · rw [List.getElem?_set_ne (Ne.symm hq)] at h
    exact .inr ⟨hq, h⟩

/-! ## Exclusion -/

/-- No two processes hold the same lock. -/
def Exclusive (P : Program γ σ ι ρ κ) (w : γ × List σ) : Prop :=
  ∀ (p q : Nat) (s t : σ), w.2[p]? = some s → w.2[q]? = some t → p ≠ q → ∀ k ∈ P.holds s, k ∉ P.holds t

/-- A program that starts without locks, and takes none but the one its step needs. -/
structure Program.Disciplined (P : Program γ σ ι ρ κ) : Prop where
  start : ∀ request, P.holds (P.start request) = []
  next : ∀ g p s input, ∀ k ∈ P.holds (P.next g p s input).2, k ∈ P.holds s ∨ P.needs s = some k

/-- Locks exclude. -/
theorem exclusive_step (hP : P.Disciplined) {w w' : γ × List σ} {e : Event ι ρ} (hw : Exclusive P w)
    (h : P.step w e = some w') : Exclusive P w' := by
  rcases step_cases h with ⟨request, rfl, rfl⟩ | ⟨p, input, s, rfl, hs, _, hfree, rfl⟩
  · intro a b sa sb ha hb hne k hk hk'
    rcases getElem?_spawn ha with ha | ⟨rfl, rfl⟩
    · rcases getElem?_spawn hb with hb | ⟨rfl, rfl⟩
      · exact hw a b sa sb ha hb hne k hk hk'
      · simp [hP.start] at hk'
    · simp [hP.start] at hk
  · -- the process that moved holds no lock of another one: it had it before, or found it free
    have key : ∀ q t, w.2[q]? = some t → q ≠ p → ∀ k ∈ P.holds (P.next w.1 p s input).2, k ∉ P.holds t := by
      intro q t hq hne k hk
      rcases hP.next _ _ _ _ k hk with hk | hk
      · exact hw p q s t hs hq (Ne.symm hne) k hk
      · exact free_iff.mp hfree k hk t (List.mem_of_getElem? hq)
    intro a b sa sb ha hb hne k hk hk'
    rcases getElem?_moved hs ha with ⟨rfl, rfl⟩ | ⟨hap, ha'⟩
    · rcases getElem?_moved hs hb with ⟨rfl, rfl⟩ | ⟨hbp, hb'⟩
      · exact hne rfl
      · exact key b sb hb' hbp k hk hk'
    · rcases getElem?_moved hs hb with ⟨rfl, rfl⟩ | ⟨hbp, hb'⟩
      · exact key a sa ha' hap k hk' hk
      · exact hw a b sa sb ha' hb' hne k hk hk'

/-! ## What a process relies on -/

/-- The shared state has a property, every process the one it relies on, and so has every number that no process has yet. -/
structure Holds (I : γ → Prop) (A : γ → Nat → σ → Prop) (F : γ → Nat → Prop) (w : γ × List σ) : Prop where
  shared : I w.1
  proc : ∀ (p : Nat) (s : σ), w.2[p]? = some s → A w.1 p s
  free : ∀ p, w.2.length ≤ p → F w.1 p

/-- A condition on the requests that start processes and on the steps they take. -/
def Allows (okStart : ρ → Prop) (okStep : γ → Nat → σ → ι → Prop) (w : γ × List σ) : Event ι ρ → Prop
  | .spawn request => okStart request
  | .step p input => ∀ s, w.2[p]? = some s → okStep w.1 p s input

instance Allows.decidable (okStart : ρ → Prop) (okStep : γ → Nat → σ → ι → Prop) [DecidablePred okStart]
    [∀ g p s i, Decidable (okStep g p s i)] (w : γ × List σ) : ∀ e, Decidable (Allows okStart okStep w e)
  | .spawn request => inferInstanceAs (Decidable (okStart request))
  | .step p input =>
    match h : w.2[p]? with
    | none => .isTrue fun _ hs => nomatch h.symm.trans hs
    | some s => decidable_of_iff (okStep w.1 p s input)
        ⟨fun hok _ ht => Option.some.inj (h.symm.trans ht) ▸ hok, fun hok => hok s h⟩

theorem allows_true (w : γ × List σ) (e : Event ι ρ) : Allows (fun _ => True) (fun _ _ _ _ => True) w e := by
  cases e with
  | spawn request => trivial
  | step p input => exact fun _ _ => trivial

/-- An outline of a proof: what a start and the own steps of a process establish, and the steps of others keep as long as they
stay clear of its locks. -/
structure Program.Outline (P : Program γ σ ι ρ κ) (okStart : ρ → Prop) (okStep : γ → Nat → σ → ι → Prop) (I : γ → Prop)
    (A : γ → Nat → σ → Prop) (F : γ → Nat → Prop) : Prop where
  start : ∀ g p request, okStart request → I g → F g p → A g p (P.start request)
  own : ∀ g p s input, I g → A g p s → P.done s = false → okStep g p s input →
    I (P.next g p s input).1 ∧ A (P.next g p s input).1 p (P.next g p s input).2
  other : ∀ g p s q t input, I g → A g p s → A g q t → p ≠ q → P.done t = false → okStep g q t input →
    (∀ k ∈ P.holds s, k ∉ P.holds t ∧ P.needs t ≠ some k) → A (P.next g q t input).1 p s
  later : ∀ g p q t input, I g → F g p → A g q t → p ≠ q → P.done t = false → F (P.next g q t input).1 p

variable {okStart : ρ → Prop} {okStep : γ → Nat → σ → ι → Prop} {I : γ → Prop} {A : γ → Nat → σ → Prop} {F : γ → Nat → Prop}

/-- With an outline, what every process relies on it has after a step. -/
theorem Program.Outline.step (o : P.Outline okStart okStep I A F) {w w' : γ × List σ} {e : Event ι ρ} (hx : Exclusive P w)
    (hw : Holds I A F w) (hok : Allows okStart okStep w e) (h : P.step w e = some w') : Holds I A F w' := by
  rcases step_cases h with ⟨request, rfl, rfl⟩ | ⟨p, input, s, rfl, hs, hd, hfree, rfl⟩
  · refine ⟨hw.shared, fun q t hq => ?_, fun q hq => ?_⟩
    · rcases getElem?_spawn hq with hq | ⟨rfl, rfl⟩
      · exact hw.proc q t hq
      · exact o.start _ _ request hok hw.shared (hw.free _ (Nat.le_refl _))
    · rw [List.length_append] at hq
      exact hw.free q (by omega)
  · have hown := o.own w.1 p s input hw.shared (hw.proc p s hs) hd (hok s hs)
    refine ⟨hown.1, fun q t hq => ?_, fun q hq => ?_⟩
    · rcases getElem?_moved hs hq with ⟨rfl, rfl⟩ | ⟨hne, hq⟩
      · exact hown.2
      · refine o.other w.1 q t p s input hw.shared (hw.proc q t hq) (hw.proc p s hs) hne hd (hok s hs) fun k hk => ⟨?_, ?_⟩
        · exact hx q p t s hq hs hne k hk
        · intro hneed
          exact free_iff.mp hfree k hneed t (List.mem_of_getElem? hq) hk
    · rw [List.length_set] at hq
      have hlt : p < w.2.length := (List.getElem?_eq_some_iff.mp hs).1
      exact o.later w.1 q p s input hw.shared (hw.free q hq) (hw.proc p s hs) (by omega) hd

/-- With an outline, what every process relies on it has along every run whose events meet the condition. -/
theorem Program.Outline.run (o : P.Outline okStart okStep I A F) (hP : P.Disciplined) {w w' : γ × List σ}
    {es : List (Event ι ρ)} (hx : Exclusive P w) (hw : Holds I A F w)
    (hok : Machine.Meets P.step (Allows okStart okStep) w es) (h : Machine.run P.step w es = some w') :
    Exclusive P w' ∧ Holds I A F w' := by
  have keeps : ∀ (v : γ × List σ) e v', Exclusive P v ∧ Holds I A F v → Allows okStart okStep v e → P.step v e = some v' →
      Exclusive P v' ∧ Holds I A F v' :=
    fun v e v' hv hok hstep => ⟨exclusive_step hP hv.1 hstep, o.step hv.1 hv.2 hok hstep⟩
  exact Machine.run_invariant_of_meets keeps ⟨hx, hw⟩ hok h

/-! ## Locks in order -/

/-- The locks have ranks, and a step needs a lock of a higher rank than those its process holds. A process that is done holds
none. -/
structure Program.Ordered (P : Program γ σ ι ρ κ) (rank : κ → Nat) : Prop where
  needs : ∀ s k, P.needs s = some k → ∀ k' ∈ P.holds s, rank k' < rank k
  done : ∀ s, P.done s = true → P.holds s = []

/-- When locks are taken in order, some process that is not done can take a step. -/
theorem exists_free {rank : κ → Nat} (hP : P.Ordered rank) {procs : List σ} (h : ∃ s ∈ procs, P.done s = false) :
    ∃ s ∈ procs, P.done s = false ∧ P.free procs s = true := by
  by_cases hex : ∃ s ∈ procs, P.done s = false ∧ P.free procs s = true
  · exact hex
  exfalso
  have hblocked : ∀ s ∈ procs, P.done s = false → ∃ k, P.needs s = some k ∧ ∃ t ∈ procs, k ∈ P.holds t :=
    fun s hs hd => blocked fun hf => hex ⟨s, hs, hd, hf⟩
  -- a process that cannot go on waits for one that waits for a lock of a higher rank, and so on
  have climb : ∀ n, ∃ s ∈ procs, P.done s = false ∧ ∃ k, P.needs s = some k ∧ n ≤ rank k := by
    intro n
    induction n with
    | zero =>
      obtain ⟨s, hs, hd⟩ := h
      obtain ⟨k, hk, _⟩ := hblocked s hs hd
      exact ⟨s, hs, hd, k, hk, Nat.zero_le _⟩
    | succ n ih =>
      obtain ⟨s, hs, hd, k, hk, hle⟩ := ih
      obtain ⟨k₁, hk₁, t, ht, hheld⟩ := hblocked s hs hd
      rw [hk, Option.some.injEq] at hk₁
      subst hk₁
      have htd : P.done t = false := by
        rw [Bool.eq_false_iff]
        intro htd
        rw [hP.done t htd] at hheld
        cases hheld
      obtain ⟨k', hk', _⟩ := hblocked t ht htd
      have := hP.needs t k' hk' k hheld
      exact ⟨t, ht, htd, k', hk', by omega⟩
  -- but there are only so many processes
  obtain ⟨top, htop⟩ : ∃ top, ∀ s ∈ procs, ∀ k, P.needs s = some k → rank k < top := by
    clear h hex hblocked climb
    induction procs with
    | nil => exact ⟨0, by simp⟩
    | cons s procs ih =>
      obtain ⟨top, htop⟩ := ih
      refine ⟨max top (((P.needs s).map rank).getD 0 + 1), fun t ht k hk => ?_⟩
      rcases List.mem_cons.mp ht with rfl | ht
      · rw [hk]
        simp only [Option.map_some, Option.getD_some]
        omega
      · have := htop t ht k hk
        omega
  obtain ⟨s, hs, _, k, hk, hle⟩ := climb top
  have := htop s hs k hk
  omega

/-! ## Runs to the end -/

/-- Lowering one entry of a list lowers its sum. -/
theorem sum_set_lt {f : σ → Nat} {procs : List σ} {s s' : σ} {p : Nat} (hp : procs[p]? = some s) (hlt : f s' < f s) :
    ((procs.set p s').map f).sum < (procs.map f).sum := by
  induction procs generalizing p with
  | nil => simp at hp
  | cons t procs ih =>
    cases p with
    | zero =>
      rw [List.getElem?_cons_zero, Option.some.injEq] at hp
      simp [hp, hlt]
    | succ p =>
      rw [List.getElem?_cons_succ] at hp
      simp only [List.set_cons_succ, List.map_cons, List.sum_cons]
      exact Nat.add_lt_add_left (ih hp) _

/-- When locks are taken in order, a pool in which not all processes are done can take a step of one of them. -/
theorem exists_step {rank : κ → Nat} (hP : P.Ordered rank) (input : ι) {w : γ × List σ} (h : ∃ s ∈ w.2, P.done s = false) :
    ∃ p s, w.2[p]? = some s ∧ P.done s = false ∧
      P.step w (.step p input) = some ((P.next w.1 p s input).1, w.2.set p (P.next w.1 p s input).2) := by
  obtain ⟨s, hs, hd, hf⟩ := exists_free hP h
  obtain ⟨p, hp⟩ := List.mem_iff_getElem?.mp hs
  refine ⟨p, s, hp, hd, ?_⟩
  simp only [Program.step, hp, hd, hf, Bool.false_eq_true, if_false, if_true]

/-- When locks are taken in order, and every step of a process brings it closer to its end, all processes of a pool can run to
their ends. -/
theorem exists_run_done {rank : κ → Nat} (hP : P.Ordered rank) (left : σ → Nat)
    (closer : ∀ g p s input, P.done s = false → left (P.next g p s input).2 < left s) (input : ι) (w : γ × List σ) :
    ∃ es w', Machine.run P.step w es = some w' ∧ (∀ e ∈ es, ∃ p, e = .step p input) ∧ ∀ s ∈ w'.2, P.done s = true := by
  refine Machine.exists_run_final (fun _ => True) (fun w => (w.2.map left).sum) _ ?_ w trivial
  intro w _ hfinal
  have hopen : ∃ s ∈ w.2, P.done s = false := by
    by_cases h : ∃ s ∈ w.2, P.done s = false
    · exact h
    · refine absurd (fun s hs => ?_) hfinal
      cases hd : P.done s with
      | true => rfl
      | false => exact absurd ⟨s, hs, hd⟩ h
  obtain ⟨p, s, hp, hd, hstep⟩ := exists_step hP input hopen
  exact ⟨.step p input, _, ⟨p, rfl⟩, hstep, trivial, sum_set_lt hp (closer w.1 p s input hd)⟩

end Pool
