import Twitch1337.Ping.Actor

/-!
# What a ping command does

`Effect` says, once, what a command does to the manager. Everything about runs of the actor is proved from it.
-/

namespace Twitch1337.Pings

variable (lower : Text → Text)

/-- Whether a command is a trigger of a ping that is answered with `Fire`. -/
def PingManager.fires (m : PingManager) (e : Event) (name : Text) : Bool :=
  match e.command, (m.handle lower e).2 with
  | .tryRecordTrigger n _ _ _, .decision (.fire _) => n == name
  | _, _ => false

/-- The cooldown in force at a trigger: that of the ping it names, else the default passed with it. -/
def PingManager.cooldownInForce (m : PingManager) (e : Event) : Option Nat :=
  match e.command with
  | .tryRecordTrigger name _ default _ => (m.store.lookup name).map (·.cooldownOr default)
  | _ => none

/-- What a command does to the manager. Only a trigger that fires counts, and only it and a removal touch the times. -/
inductive Effect (m : PingManager) (e : Event) : PingManager → Prop where
  | nothing (quiet : ∀ name, m.fires lower e name = false) : Effect m e m
  | created (name : Text) (p : Ping) (quiet : ∀ name, m.fires lower e name = false) (absent : name ∉ m.store)
      (fresh : p.fireCount = 0) : Effect m e { m with store := m.store.insert name p }
  | deleted (name : Text) (quiet : ∀ name, m.fires lower e name = false) (command : e.command = .deletePing name)
      (present : name ∈ m.store) : Effect m e ⟨m.store.erase name, m.lastTriggered.erase name⟩
  | edited (name : Text) (p p' : Ping) (quiet : ∀ name, m.fires lower e name = false) (there : m.store.lookup name = some p)
      (count : p'.fireCount = p.fireCount) : Effect m e { m with store := m.store.insert name p' }
  | fired (name : Text) (p : Ping) (there : m.store.lookup name = some p)
      (fires : ∀ n, m.fires lower e n = true ↔ n = name) :
      Effect m e ⟨m.store.insert name (p.fired e.utc), m.lastTriggered.insert name e.recorded⟩

variable {lower} {m : PingManager} {e : Event}

/-- What is no trigger fires nothing. -/
theorem quiet_of_command (h : ∀ name sender default isPublic, e.command ≠ .tryRecordTrigger name sender default isPublic)
    (name : Text) : m.fires lower e name = false := by
  unfold PingManager.fires
  split
  · rename_i hc _
    exact absurd hc (h _ _ _ _)
  · rfl

theorem fires_iff {name : Text} : m.fires lower e name = true ↔ ∃ sender default isPublic text,
    e.command = .tryRecordTrigger name sender default isPublic ∧ (m.handle lower e).2 = .decision (.fire text) := by
  unfold PingManager.fires
  split
  · rename_i n sender default isPublic text hc hr
    rw [hc, hr, beq_iff_eq]
    constructor
    · rintro rfl
      exact ⟨sender, default, isPublic, text, rfl, rfl⟩
    · rintro ⟨_, _, _, _, h, _⟩
      cases h
      rfl
  · rename_i hno
    constructor
    · intro h
      cases h
    · rintro ⟨sender, default, isPublic, text, hc, hr⟩
      exact absurd hr (hno _ _ _ _ _ hc)

/-- The cases of a trigger. One that fires finds the ping, and no cooldown at the time it checks. -/
theorem tryRecordTrigger_cases (m : PingManager) (name sender : Text) (default : Nat) (isPublic : Bool)
    (checked recorded : Nat) (utc : Int) (saved : Bool) :
    let out := m.tryRecordTrigger name sender default isPublic checked recorded utc saved
    (out.1 = m ∧ ∀ text, out.2 ≠ .fire text) ∨
      ∃ p text, m.store.lookup name = some p ∧ m.remainingCooldown name default checked = none ∧ out.2 = .fire text ∧
        out.1 = ⟨m.store.insert name (p.fired utc), m.lastTriggered.insert name recorded⟩ := by
  intro out
  by_cases hm : (!isPublic && !m.isMember name sender) = true
  · have : out = (m, .skip) := by
      simp only [out, PingManager.tryRecordTrigger, hm, if_true]
    simp [this]
  cases hc : m.remainingCooldown name default checked with
  | some remaining =>
    have : out = (m, .onCooldown remaining) := by
      simp only [out, PingManager.tryRecordTrigger, hm, hc, Bool.false_eq_true, if_false]
    simp [this]
  | none =>
    cases hr : m.renderTemplate name sender with
    | none =>
      have : out = (m, .skip) := by
        simp only [out, PingManager.tryRecordTrigger, hm, hc, hr, Bool.false_eq_true, if_false]
      simp [this]
    | some text =>
      have hout : out = ((m.recordTrigger name recorded utc saved).1, .fire text) := by
        simp only [out, PingManager.tryRecordTrigger, hm, hc, hr, Bool.false_eq_true, if_false]
      cases hp : m.store.lookup name with
      | none => simp [PingManager.renderTemplate, hp] at hr
      | some p =>
        refine .inr ⟨p, text, rfl, rfl, ?_, ?_⟩
        · rw [hout]
        · rw [hout]
          simp only [PingManager.recordTrigger, hp]

/-- Every command has one of the effects. -/
theorem effect_handle (lower : Text → Text) (m : PingManager) (e : Event) : Effect lower m e (m.handle lower e).1 := by
  have quietOf : (∀ name sender default isPublic, e.command ≠ .tryRecordTrigger name sender default isPublic) →
      ∀ name, m.fires lower e name = false := quiet_of_command
  cases hc : e.command with
  | createPing raw template createdBy cooldown =>
    have quiet := quietOf (by simp [hc])
    simp only [PingManager.handle, hc, PingManager.createPing]
    split
    · exact .nothing quiet
    split
    · exact .nothing quiet
    split
    · exact .nothing quiet
    split
    · exact .nothing quiet
    · rename_i absent
      exact .created _ _ quiet absent rfl
  | deletePing name =>
    have quiet := quietOf (by simp [hc])
    simp only [PingManager.handle, hc, PingManager.deletePing]
    split
    · rename_i present
      exact .deleted name quiet hc present
    · exact .nothing quiet
  | editTemplate name template =>
    have quiet := quietOf (by simp [hc])
    simp only [PingManager.handle, hc, PingManager.editTemplate]
    split
    · exact .nothing quiet
    split
    · exact .nothing quiet
    · rename_i p hp
      exact .edited name p _ quiet hp rfl
  | addMember name username =>
    have quiet := quietOf (by simp [hc])
    simp only [PingManager.handle, hc, PingManager.addMember]
    split
    · exact .nothing quiet
    · rename_i p hp
      split
      · exact .nothing quiet
      · exact .edited name p _ quiet hp rfl
  | removeMember name username =>
    have quiet := quietOf (by simp [hc])
    simp only [PingManager.handle, hc, PingManager.removeMember]
    split
    · exact .nothing quiet
    · rename_i p hp
      split
      · exact .edited name p _ quiet hp rfl
      · exact .nothing quiet
  | tryRecordTrigger name sender default isPublic =>
    have hh : m.handle lower e = (let out := m.tryRecordTrigger name sender default isPublic e.checked e.recorded e.utc e.saved
        (out.1, .decision out.2)) := by
      simp only [PingManager.handle, hc]
    rcases tryRecordTrigger_cases m name sender default isPublic e.checked e.recorded e.utc e.saved with
      ⟨hm, hno⟩ | ⟨p, text, hp, _, hfire, hm⟩
    · rw [hh]
      simp only [hm]
      refine .nothing fun n => ?_
      rw [Bool.eq_false_iff]
      intro hf
      obtain ⟨_, _, _, text, _, hr⟩ := fires_iff.mp hf
      rw [hh] at hr
      exact hno text (Reply.decision.inj hr)
    · rw [hh]
      simp only [hm]
      refine .fired name p hp fun n => ?_
      rw [fires_iff, hc, hh]
      simp only [hfire]
      constructor
      · rintro ⟨_, _, _, _, h, _⟩
        cases h
        rfl
      · rintro rfl
        exact ⟨sender, default, isPublic, text, rfl, rfl⟩
  | snapshot =>
    have quiet := quietOf (by simp [hc])
    simp only [PingManager.handle, hc]
    exact .nothing quiet
  | getOne name =>
    have quiet := quietOf (by simp [hc])
    simp only [PingManager.handle, hc]
    exact .nothing quiet
  | listForUser username =>
    have quiet := quietOf (by simp [hc])
    simp only [PingManager.handle, hc]
    exact .nothing quiet
  | isMember name username =>
    have quiet := quietOf (by simp [hc])
    simp only [PingManager.handle, hc]
    exact .nothing quiet

/-- A trigger that fires finds the ping, and is checked with no cooldown left. -/
theorem fires_checked {name : Text} (h : m.fires lower e name = true) : ∃ p default, m.store.lookup name = some p ∧
    m.cooldownInForce e = some (p.cooldownOr default) ∧ m.remainingCooldown name default e.checked = none := by
  obtain ⟨sender, default, isPublic, text, hc, hr⟩ := fires_iff.mp h
  simp only [PingManager.handle, hc] at hr
  rcases tryRecordTrigger_cases m name sender default isPublic e.checked e.recorded e.utc e.saved with
    ⟨_, hno⟩ | ⟨p, _, hp, hcool, _, _⟩
  · exact absurd (Reply.decision.inj hr) (hno text)
  · refine ⟨p, default, hp, ?_, hcool⟩
    simp only [PingManager.cooldownInForce, hc, hp, Option.map_some]

end Twitch1337.Pings
