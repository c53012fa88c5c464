import Mathlib.Order.Defs.PartialOrder

/-!
# Machines

A machine is a partial step function: `step s e` is the state after the event `e`, or nothing when `e` cannot happen in `s`.
Here are its runs, the rule that carries an invariant along a run, the rule that carries what is proved of one step to a
relation between the ends of a run, and the machine whose clock never runs backwards.
-/

namespace Machine

variable {σ ε : Type*}

/-- The state after a list of events, when each of them can happen in its turn. -/
def run (step : σ → ε → Option σ) : σ → List ε → Option σ
  | s, [] => some s
  | s, e :: es => (step s e).bind fun s' => run step s' es

/-- Every event of a list meets a condition in the state it happens in. -/
def Meets (step : σ → ε → Option σ) (ok : σ → ε → Prop) : σ → List ε → Prop
  | _, [] => True
  | s, e :: es => ok s e ∧ ∀ s', step s e = some s' → Meets step ok s' es

variable {step : σ → ε → Option σ}

@[simp] theorem run_nil (s : σ) : run step s [] = some s := rfl

/-- A run of at least one event is its first step and the run after it. -/
theorem run_cons_iff {s s' : σ} {e : ε} {es : List ε} :
    run step s (e :: es) = some s' ↔ ∃ t, step s e = some t ∧ run step t es = some s' := by
  rw [run, Option.bind_eq_some_iff]

/-- A run of two lists of events is the run of the second after that of the first. -/
theorem run_append (s : σ) (es more : List ε) : run step s (es ++ more) = (run step s es).bind fun t => run step t more := by
  induction es generalizing s with
  | nil => rfl
  | cons e es ih =>
    rw [List.cons_append, run, run, Option.bind_assoc]
    exact congrArg _ (funext ih)

/-- The events of a list meet a condition when the first does, and the rest after its step. -/
theorem Meets.cons {ok : σ → ε → Prop} {s s' : σ} {e : ε} {es : List ε} (hok : ok s e) (hs : step s e = some s')
    (h : Meets step ok s' es) : Meets step ok s (e :: es) := by
  refine ⟨hok, fun t ht => ?_⟩
  rw [hs, Option.some.injEq] at ht
  exact ht ▸ h

/-- A condition that every event meets in every state is met by every list of events. -/
theorem Meets.of_forall {ok : σ → ε → Prop} (h : ∀ s e, ok s e) (s : σ) (es : List ε) : Meets step ok s es := by
  induction es generalizing s with
  | nil => trivial
  | cons e es ih => exact ⟨h s e, fun s' _ => ih s'⟩

/-- A condition on the events alone. -/
theorem Meets.of_mem {ok : ε → Prop} {es : List ε} (h : ∀ e ∈ es, ok e) (s : σ) : Meets step (fun _ => ok) s es := by
  induction es generalizing s with
  | nil => trivial
  | cons e es ih => exact ⟨h e List.mem_cons_self, fun s' _ => ih (fun e he => h e (List.mem_cons_of_mem _ he)) s'⟩

/-- A condition that follows from another one, event by event. -/
theorem Meets.mono {ok ok' : σ → ε → Prop} (himp : ∀ s e, ok s e → ok' s e) {s : σ} {es : List ε} (h : Meets step ok s es) :
    Meets step ok' s es := by
  induction es generalizing s with
  | nil => trivial
  | cons e es ih => exact ⟨himp s e h.1, fun t ht => ih (h.2 t ht)⟩

/-- Two conditions that are met are met together. -/
theorem Meets.and {ok ok' : σ → ε → Prop} {s : σ} {es : List ε} (h : Meets step ok s es) (h' : Meets step ok' s es) :
    Meets step (fun s e => ok s e ∧ ok' s e) s es := by
  induction es generalizing s with
  | nil => trivial
  | cons e es ih => exact ⟨⟨h.1, h'.1⟩, fun t ht => ih (h.2 t ht) (h'.2 t ht)⟩

/-- The event that a run comes to meets the condition. -/
theorem Meets.at_run {ok : σ → ε → Prop} {s t : σ} {es rest : List ε} {e : ε} (h : Meets step ok s (es ++ e :: rest))
    (hrun : run step s es = some t) : ok t e := by
  induction es generalizing s with
  | nil =>
    rw [run_nil, Option.some.injEq] at hrun
    exact hrun ▸ h.1
  | cons a es ih =>
    obtain ⟨u, hu, hrun⟩ := run_cons_iff.mp hrun
    exact ih (h.2 u hu) hrun

/-- Whether the events of a list meet a condition is found out by running them. -/
instance Meets.decidable (step : σ → ε → Option σ) (ok : σ → ε → Prop) [∀ s e, Decidable (ok s e)] :
    ∀ (s : σ) (es : List ε), Decidable (Meets step ok s es)
  | _, [] => .isTrue trivial
  | s, e :: es =>
    match hs : step s e with
    | none => decidable_of_iff (ok s e) ⟨fun h => ⟨h, fun _ h' => nomatch hs.symm.trans h'⟩, And.left⟩
    | some t =>
      have := Meets.decidable step ok t es
      decidable_of_iff (ok s e ∧ Meets step ok t es) ⟨fun h => .cons h.1 hs h.2, fun h => ⟨h.1, h.2 t hs⟩⟩

/-! ## Invariants -/

/-- What every step that meets a condition keeps, every run of such steps keeps. -/
theorem run_invariant_of_meets {ok : σ → ε → Prop} {Inv : σ → Prop}
    (keeps : ∀ s e s', Inv s → ok s e → step s e = some s' → Inv s') {s s' : σ} {es : List ε} (hs : Inv s)
    (hok : Meets step ok s es) (h : run step s es = some s') : Inv s' := by
  induction es generalizing s with
  | nil =>
    rw [run_nil, Option.some.injEq] at h
    exact h ▸ hs
  | cons e es ih =>
    obtain ⟨t, ht, h⟩ := run_cons_iff.mp h
    exact ih (keeps s e t hs hok.1 ht) (hok.2 t ht) h

/-- What every step keeps, every run keeps. -/
theorem run_invariant {Inv : σ → Prop} (keeps : ∀ s e s', Inv s → step s e = some s' → Inv s') {s s' : σ} {es : List ε}
    (hs : Inv s) (h : run step s es = some s') : Inv s' := by
  induction es generalizing s with
  | nil =>
    rw [run_nil, Option.some.injEq] at h
    exact h ▸ hs
  | cons e es ih =>
    obtain ⟨t, ht, h⟩ := run_cons_iff.mp h
    exact ih (keeps s e t hs ht) h

/-- A reflexive and transitive relation between the ends of every step relates the ends of every run. -/
theorem run_relates (Inv : σ → Prop) (R : σ → σ → Prop) (refl : ∀ s, R s s) (trans : ∀ {a b c}, R a b → R b c → R a c)
    (keeps : ∀ s e s', Inv s → step s e = some s' → Inv s' ∧ R s s') {s s' : σ} {es : List ε} (hs : Inv s)
    (h : run step s es = some s') : R s s' := by
  induction es generalizing s with
  | nil =>
    rw [run_nil, Option.some.injEq] at h
    exact h ▸ refl s
  | cons e es ih =>
    obtain ⟨t, ht, h⟩ := run_cons_iff.mp h
    obtain ⟨hi, hr⟩ := keeps s e t hs ht
    exact trans hr (ih hi h)

/-- What the past of a state says of it, when every step keeps it, holds of every run. -/
theorem run_history (Inv : List ε → σ → Prop)
    (keeps : ∀ past s e s', Inv past s → step s e = some s' → Inv (past ++ [e]) s') (past : List ε) {s s' : σ}
    {es : List ε} (hs : Inv past s) (h : run step s es = some s') : Inv (past ++ es) s' := by
  induction es generalizing past s with
  | nil =>
    rw [run_nil, Option.some.injEq] at h
    rw [List.append_nil]
    exact h ▸ hs
  | cons e es ih =>
    obtain ⟨t, ht, h⟩ := run_cons_iff.mp h
    have hi := ih (past ++ [e]) (keeps past s e t hs ht) h
    rwa [List.append_assoc] at hi

/-! ## Progress -/

/-- A machine that can, in every state that is not final, take a step that lowers a measure, can reach a final state, and by
events of a kind when those steps are of that kind. -/
theorem exists_run_final (Inv : σ → Prop) {final : σ → Prop} (measure : σ → Nat) (kind : ε → Prop)
    (progress : ∀ s, Inv s → ¬ final s → ∃ e s', kind e ∧ step s e = some s' ∧ Inv s' ∧ measure s' < measure s) (s : σ)
    (hs : Inv s) : ∃ es s', run step s es = some s' ∧ (∀ e ∈ es, kind e) ∧ final s' := by
  induction hn : measure s using Nat.strongRecOn generalizing s with
  | ind n ih =>
    by_cases hf : final s
    · exact ⟨[], s, rfl, by simp, hf⟩
    · obtain ⟨e, t, he, ht, hi, hlt⟩ := progress s hs hf
      obtain ⟨es, s', hes, hkind, hfin⟩ := ih (measure t) (hn ▸ hlt) t hi rfl
      exact ⟨e :: es, s', run_cons_iff.mpr ⟨t, ht, hes⟩, List.forall_mem_cons.mpr ⟨he, hkind⟩, hfin⟩

/-! ## Clocks -/

section timed

variable {τ : Type*} [LE τ] [DecidableLE τ]

/-- The machine with a clock that never runs backwards: an event that reads the clock happens only at a time not before the
last reading. -/
def timed (step : σ → ε → Option σ) (time : ε → Option τ) (s : σ × τ) (e : ε) : Option (σ × τ) :=
  match time e with
  | none => (step s.1 e).map fun s' => (s', s.2)
  | some t => if s.2 ≤ t then (step s.1 e).map fun s' => (s', t) else none

/-- A step of the machine with a clock is a step of the machine, and its clock is the event's reading, or stays. -/
theorem timed_eq_some {time : ε → Option τ} {s s' : σ × τ} {e : ε} (h : timed step time s e = some s') :
    step s.1 e = some s'.1 ∧ (∀ t, time e = some t → s.2 ≤ t) ∧ s'.2 = (time e).getD s.2 := by
  unfold timed at h
  split at h
  · rename_i ht
    rw [Option.map_eq_some_iff] at h
    obtain ⟨t, hst, rfl⟩ := h
    refine ⟨hst, fun t ht' => ?_, by rw [ht]; rfl⟩
    rw [ht] at ht'
    cases ht'
  · rename_i t ht
    split at h
    · rename_i hle
      rw [Option.map_eq_some_iff] at h
      obtain ⟨u, hst, rfl⟩ := h
      refine ⟨hst, fun t' ht' => ?_, by rw [ht]; rfl⟩
      rw [ht, Option.some.injEq] at ht'
      exact ht' ▸ hle
    · cases h

end timed

end Machine
