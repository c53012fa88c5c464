import Twitch1337.Lib.Pool

/-!
# What locks guard

A lock guards a property of the shared state: the property is there whenever no process holds the lock, so a process that takes
the lock finds it, may break it while it holds the lock, and has to restore it before it gives the lock back.
-/

namespace Pool

variable {γ σ ι ρ κ : Type*}

/-- What each lock guards is there when no process holds it. -/
def Guarded (P : Program γ σ ι ρ κ) (R : κ → γ → Prop) (w : γ × List σ) : Prop :=
  ∀ k, (∀ t ∈ w.2, k ∉ P.holds t) → R k w.1

/-- A condition on steps, and that what is guarded by the lock that a step needs is there. -/
def Finds (P : Program γ σ ι ρ κ) (R : κ → γ → Prop) (okStep : γ → Nat → σ → ι → Prop) (g : γ) (p : Nat) (s : σ) (input : ι) :
    Prop :=
  okStep g p s input ∧ ∀ k, P.needs s = some k → R k g

/-- A process restores what its locks guard before it gives them back, and leaves what other locks guard. -/
structure Program.Guards (P : Program γ σ ι ρ κ) (okStep : γ → Nat → σ → ι → Prop) (I : γ → Prop) (A : γ → Nat → σ → Prop)
    (R : κ → γ → Prop) : Prop where
  restore : ∀ g p s input, I g → A g p s → Finds P R okStep g p s input → ∀ k, k ∈ P.holds s ∨ P.needs s = some k →
    k ∉ P.holds (P.next g p s input).2 → R k (P.next g p s input).1
  leave : ∀ g p s input k, I g → A g p s → Finds P R okStep g p s input → k ∉ P.holds s → P.needs s ≠ some k →
    R k g → R k (P.next g p s input).1

variable [DecidableEq κ] {P : Program γ σ ι ρ κ} {okStart : ρ → Prop} {okStep : γ → Nat → σ → ι → Prop} {I : γ → Prop}
  {A : γ → Nat → σ → Prop} {F : γ → Nat → Prop} {R : κ → γ → Prop}

/-- A step that can be taken finds what the lock it needs guards. -/
theorem Guarded.finds {w w' : γ × List σ} {e : Event ι ρ} (h : Guarded P R w) (hok : Allows okStart okStep w e)
    (hstep : P.step w e = some w') : Allows okStart (Finds P R okStep) w e := by
  rcases step_cases hstep with ⟨request, rfl, -⟩ | ⟨p, input, s, rfl, hs, -, hfree, -⟩
  · exact hok
  · intro t ht
    rw [hs, Option.some.injEq] at ht
    subst ht
    exact ⟨hok s hs, fun k hk => h k (free_iff.mp hfree k hk)⟩

/-- Steps keep what the locks guard. -/
theorem Guarded.step (hguards : P.Guards okStep I A R) {w w' : γ × List σ} {e : Event ι ρ}
    (hw : Holds I A F w) (h : Guarded P R w) (hok : Allows okStart okStep w e) (hstep : P.step w e = some w') :
    Guarded P R w' := by
  have hfinds := h.finds hok hstep
  rcases step_cases hstep with ⟨request, rfl, rfl⟩ | ⟨p, input, s, rfl, hs, -, -, rfl⟩
  · exact fun k hk => h k fun t ht => hk t (List.mem_append_left _ ht)
  · intro k hk
    have hlt : p < w.2.length := (List.getElem?_eq_some_iff.mp hs).1
    have hown : k ∉ P.holds (P.next w.1 p s input).2 := hk _ (List.mem_set hlt _)
    have hproc := hw.proc p s hs
    by_cases hheld : k ∈ P.holds s ∨ P.needs s = some k
    · exact hguards.restore _ p s input hw.shared hproc (hfinds s hs) k hheld hown
    -- a lock that the process neither held nor took was held by none before
    · rw [not_or] at hheld
      refine hguards.leave _ p s input k hw.shared hproc (hfinds s hs) hheld.1 hheld.2 (h k fun t ht => ?_)
      obtain ⟨q, hq⟩ := List.mem_iff_getElem?.mp ht
      by_cases hqp : q = p
      · rw [hqp, hs, Option.some.injEq] at hq
        exact hq ▸ hheld.1
      · exact hk t (List.mem_of_getElem? ((List.getElem?_set_ne (Ne.symm hqp)).trans hq))

/-- The rule of proof for pools whose locks guard something: the locks exclude, every process has what it relies on, and the locks
guard what they guard. -/
theorem Program.Guards.step (hP : P.Disciplined) (o : P.Outline okStart (Finds P R okStep) I A F) (hguards : P.Guards okStep I A R)
    {w w' : γ × List σ} {e : Event ι ρ} (hx : Exclusive P w) (hw : Holds I A F w) (hr : Guarded P R w)
    (hok : Allows okStart okStep w e) (h : P.step w e = some w') : Exclusive P w' ∧ Holds I A F w' ∧ Guarded P R w' :=
  ⟨exclusive_step hP hx h, o.step hx hw (hr.finds hok h) h, hr.step hguards hw hok h⟩

end Pool
