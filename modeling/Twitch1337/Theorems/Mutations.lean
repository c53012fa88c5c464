import Twitch1337.Ping.Mutation

/-!
# Changes of pings that fail

A call that changes the pings changes memory first, and then saves. It leaves everything as it was when its checks turn it down.
When the save fails after that, the change stays in memory, unless it was none.
-/

namespace Twitch1337.Pings

variable {lower : Text → Text} {m : PingManager} {saved : Bool}

/-! ## What a call is for -/

/-- The change a call is to make. -/
def Mutation.effect (lower : Text → Text) (store : PingStore) : Mutation → PingStore
  | createPing name template createdBy cooldown =>
    store.insert (Text.toAsciiLowercase name) ⟨template, [], cooldown, createdBy, none, 0⟩
  | deletePing name => store.erase name
  | editTemplate name template =>
    match store.lookup name with
    | none => store
    | some p => store.insert name { p with template }
  | addMember name username =>
    match store.lookup name with
    | none => store
    | some p => store.insert name { p with members := p.members ++ [lower username] }
  | removeMember name username =>
    match store.lookup name with
    | none => store
    | some p => store.insert name { p with members := p.members.filter (· ≠ lower username) }

/-- Whether the checks of a call let it through. -/
def Mutation.accepted (lower : Text → Text) (store : PingStore) : Mutation → Bool
  | createPing name template _ _ =>
    !(Text.toAsciiLowercase name).isEmpty && (Text.toAsciiLowercase name).all (fun c => c.isAlphanum || c == '-' || c == '_') &&
      (validateTemplate template).isOk && decide (Text.toAsciiLowercase name ∉ store)
  | deletePing name => decide (name ∈ store)
  | editTemplate name template => (validateTemplate template).isOk && decide (name ∈ store)
  | addMember name username =>
    match store.lookup name with
    | none => false
    | some p => !p.members.contains (lower username)
  | removeMember name username =>
    match store.lookup name with
    | none => false
    | some p => p.members.contains (lower username)

/-- Whether a call gives a ping the template it has. -/
def Mutation.idle (store : PingStore) : Mutation → Bool
  | editTemplate name template => (store.lookup name).any fun p => p.template = template
  | _ => false

/-- Managers with the same pings and the same times of triggers. -/
def PingManager.Same (m m' : PingManager) : Prop :=
  (∀ name, m.store.lookup name = m'.store.lookup name) ∧ ∀ name, m.lastTriggered.lookup name = m'.lastTriggered.lookup name

/-- A call that is all or nothing. -/
structure Atomic (lower : Text → Text) (s : Ledger) (c : Mutation) (saved : Bool) : Prop where
  /-- After a success, memory and the file both hold the changed pings. -/
  success : (s.call lower c saved).2 = .ok () →
    (s.call lower c saved).1.manager.store = c.effect lower s.manager.store ∧
      (s.call lower c saved).1.file = c.effect lower s.manager.store
  /-- After a failure, memory and the file are as they were. -/
  failure : ∀ e, (s.call lower c saved).2 = .error e →
    (s.call lower c saved).1.manager.Same s.manager ∧ (s.call lower c saved).1.file = s.file

/-! ## What a call does -/

/-- The manager after the change, before it is saved. -/
def Mutation.mutate (lower : Text → Text) (m : PingManager) (c : Mutation) : PingManager where
  store := c.effect lower m.store
  lastTriggered :=
    match c with
    | deletePing name => m.lastTriggered.erase name
    | _ => m.lastTriggered

theorem validateTemplate_cases (template : Text) :
    (validateTemplate template = .ok () ∧ (validateTemplate template).isOk = true) ∨
      ∃ e, validateTemplate template = .error e ∧ (validateTemplate template).isOk = false := by
  cases h : validateTemplate template with
  | ok u => exact .inl ⟨rfl, rfl⟩
  | error e => exact .inr ⟨e, rfl, rfl⟩

/-- A new member is let through when the ping is there and has no such member. -/
theorem accepted_addMember_iff {store : PingStore} {name username : Text} :
    (Mutation.addMember name username).accepted lower store = true ↔
      ∃ p, store.lookup name = some p ∧ lower username ∉ p.members := by
  rw [Mutation.accepted]
  cases store.lookup name with
  | none => simp
  | some p => simp

theorem accepted_removeMember_iff {store : PingStore} {name username : Text} :
    (Mutation.removeMember name username).accepted lower store = true ↔
      ∃ p, store.lookup name = some p ∧ lower username ∈ p.members := by
  rw [Mutation.accepted]
  cases store.lookup name with
  | none => simp
  | some p => simp

/-- A call that is let through changes memory, and then saves. -/
theorem call_of_accepted {c : Mutation} (h : c.accepted lower m.store = true) (saved : Bool) :
    c.call lower m saved = (c.mutate lower m, PingManager.save saved) := by
  cases c with
  | createPing name template createdBy cooldown =>
    simp only [Mutation.accepted, Bool.and_eq_true, Bool.not_eq_true', decide_eq_true_eq] at h
    obtain ⟨⟨⟨hne, hall⟩, ht⟩, habsent⟩ := h
    rcases validateTemplate_cases template with ⟨hok, _⟩ | ⟨e, _, hno⟩
    · simp only [Mutation.call, PingManager.createPing, hne, hall, hok, habsent, Bool.false_eq_true, Bool.not_true, if_false]
      rfl
    · rw [hno] at ht
      cases ht
  | deletePing name =>
    have hmem : name ∈ m.store := of_decide_eq_true h
    simp only [Mutation.call, PingManager.deletePing, if_pos hmem]
    rfl
  | editTemplate name template =>
    simp only [Mutation.accepted, Bool.and_eq_true, decide_eq_true_eq] at h
    obtain ⟨p, hp⟩ := Table.mem_iff_lookup.mp h.2
    rcases validateTemplate_cases template with ⟨hok, _⟩ | ⟨e, _, hno⟩
    · simp only [Mutation.call, PingManager.editTemplate, hok, hp, Mutation.mutate, Mutation.effect]
    · rw [hno] at h
      cases h.1
  | addMember name username =>
    obtain ⟨p, hp, hnew⟩ := accepted_addMember_iff.mp h
    simp only [Mutation.call, PingManager.addMember, hp, if_neg hnew, Mutation.mutate, Mutation.effect]
  | removeMember name username =>
    obtain ⟨p, hp, hthere⟩ := accepted_removeMember_iff.mp h
    simp only [Mutation.call, PingManager.removeMember, hp, if_pos hthere, Mutation.mutate, Mutation.effect]

/-- A call that is turned down changes nothing. -/
theorem call_of_rejected {c : Mutation} (h : c.accepted lower m.store = false) (saved : Bool) :
    ∃ e, c.call lower m saved = (m, .error e) := by
  cases c with
  | createPing name template createdBy cooldown =>
    simp only [Mutation.call, PingManager.createPing]
    split
    · exact ⟨_, rfl⟩
    rename_i hne
    split
    · exact ⟨_, rfl⟩
    rename_i hall
    rcases validateTemplate_cases template with ⟨hok, hisok⟩ | ⟨e, he, _⟩
    · rw [hok]
      dsimp only
      split
      · exact ⟨_, rfl⟩
      · rename_i habsent
        have haccepted : (Mutation.createPing name template createdBy cooldown).accepted lower m.store = true := by
          rw [Bool.not_eq_true] at hne hall
          rw [Bool.not_eq_false'] at hall
          simp only [Mutation.accepted, hne, hall, hisok, habsent, not_false_eq_true, decide_true]
          rfl
        exact absurd (h.symm.trans haccepted) Bool.false_ne_true
    · rw [he]
      exact ⟨e, rfl⟩
  | deletePing name =>
    simp only [Mutation.call, PingManager.deletePing, if_neg (of_decide_eq_false h)]
    exact ⟨_, rfl⟩
  | editTemplate name template =>
    simp only [Mutation.call, PingManager.editTemplate]
    rcases validateTemplate_cases template with ⟨hok, hisok⟩ | ⟨e, he, _⟩
    · rw [hok]
      simp only [Mutation.accepted, hisok, Bool.true_and, decide_eq_false_iff_not, ← AList.lookup_eq_none] at h
      rw [h]
      exact ⟨_, rfl⟩
    · rw [he]
      exact ⟨e, rfl⟩
  | addMember name username =>
    simp only [Mutation.call, PingManager.addMember]
    simp only [Mutation.accepted] at h
    cases hp : m.store.lookup name with
    | none => exact ⟨_, rfl⟩
    | some p =>
      rw [hp] at h
      have hthere : lower username ∈ p.members := by simpa using h
      simp only [if_pos hthere]
      exact ⟨_, rfl⟩
  | removeMember name username =>
    simp only [Mutation.call, PingManager.removeMember]
    simp only [Mutation.accepted] at h
    cases hp : m.store.lookup name with
    | none => exact ⟨_, rfl⟩
    | some p =>
      rw [hp] at h
      have hnot : lower username ∉ p.members := by simpa using h
      simp only [if_neg hnot]
      exact ⟨_, rfl⟩

/-- A change that is let through shows in memory, unless it gives a ping the template it has. -/
theorem same_mutate_iff {c : Mutation} (h : c.accepted lower m.store = true) :
    (c.mutate lower m).Same m ↔ c.idle m.store = true := by
  constructor
  · rintro ⟨hstore, _⟩
    cases c with
    | createPing name template createdBy cooldown =>
      simp only [Mutation.accepted, Bool.and_eq_true, decide_eq_true_eq] at h
      have := hstore (Text.toAsciiLowercase name)
      simp only [Mutation.mutate, Mutation.effect, AList.lookup_insert] at this
      exact absurd (Table.mem_iff_lookup.mpr ⟨_, this.symm⟩) h.2
    | deletePing name =>
      obtain ⟨p, hp⟩ := Table.mem_iff_lookup.mp (of_decide_eq_true h)
      have := hstore name
      simp only [Mutation.mutate, Mutation.effect, AList.lookup_erase, hp] at this
      cases this
    | editTemplate name template =>
      simp only [Mutation.accepted, Bool.and_eq_true, decide_eq_true_eq] at h
      obtain ⟨p, hp⟩ := Table.mem_iff_lookup.mp h.2
      have := hstore name
      simp only [Mutation.mutate, Mutation.effect, hp, AList.lookup_insert, Option.some.injEq] at this
      simp only [Mutation.idle, hp, Option.any_some, decide_eq_true_eq]
      rw [← this]
    | addMember name username =>
      obtain ⟨p, hp, _⟩ := accepted_addMember_iff.mp h
      have := hstore name
      simp only [Mutation.mutate, Mutation.effect, hp, AList.lookup_insert, Option.some.injEq] at this
      have hlen := congrArg (fun q : Ping => q.members.length) this
      simp at hlen
    | removeMember name username =>
      obtain ⟨p, hp, hthere⟩ := accepted_removeMember_iff.mp h
      have := hstore name
      simp only [Mutation.mutate, Mutation.effect, hp, AList.lookup_insert, Option.some.injEq] at this
      have hmembers := congrArg Ping.members this
      dsimp only at hmembers
      rw [← hmembers] at hthere
      simp at hthere
  · intro hidle
    cases c with
    | editTemplate name template =>
      obtain ⟨p, hp, ht⟩ := (Option.any_eq_true _ _).mp hidle
      have ht : p.template = template := of_decide_eq_true ht
      refine ⟨fun n => ?_, fun _ => rfl⟩
      simp only [Mutation.mutate, Mutation.effect, hp, Table.lookup_insert]
      split
      · rename_i hn
        rw [hn, hp, ← ht]
      · rfl
    | _ => cases hidle

/-! ## The theorem -/

/-- A call is all or nothing exactly when the file can be saved, or the checks turn the call down, or it gives a ping the template
it has. -/
theorem atomic_iff (lower : Text → Text) (s : Ledger) (c : Mutation) (saved : Bool) :
    Atomic lower s c saved ↔
      saved = true ∨ c.accepted lower s.manager.store = false ∨ c.idle s.manager.store = true := by
  cases haccepted : c.accepted lower s.manager.store with
  | false =>
    obtain ⟨e, he⟩ := call_of_rejected haccepted saved
    have hcall : s.call lower c saved = (s, .error e) := by
      simp only [Ledger.call, he]
      rfl
    refine ⟨fun _ => .inr (.inl rfl), fun _ => ⟨fun h => ?_, fun e' _ => ?_⟩⟩
    · rw [hcall] at h
      cases h
    · rw [hcall]
      exact ⟨⟨fun _ => rfl, fun _ => rfl⟩, rfl⟩
  | true =>
    have hmutate := call_of_accepted haccepted saved
    cases saved with
    | true =>
      have hcall : s.call lower c true = (⟨c.mutate lower s.manager, c.effect lower s.manager.store⟩, .ok ()) := by
        simp only [Ledger.call, hmutate]
        rfl
      refine ⟨fun _ => .inl rfl, fun _ => ⟨fun _ => ?_, fun e h => ?_⟩⟩
      · rw [hcall]
        exact ⟨rfl, rfl⟩
      · rw [hcall] at h
        cases h
    | false =>
      have hcall : s.call lower c false = (⟨c.mutate lower s.manager, s.file⟩, .error notSaved) := by
        simp only [Ledger.call, hmutate]
        rfl
      have hsame := same_mutate_iff haccepted
      constructor
      · intro h
        have := (h.failure notSaved (by rw [hcall])).1
        rw [hcall] at this
        exact .inr (.inr (hsame.mp this))
      · rintro (h | h | h)
        · cases h
        · cases h
        · refine ⟨fun hok => ?_, fun e _ => ?_⟩
          · rw [hcall] at hok
            cases hok
          · rw [hcall]
            exact ⟨hsame.mpr h, rfl⟩

/-! ### A ping that could not be saved -/

/-- No pings, in memory and in the file. -/
def noPings : Ledger := ⟨⟨∅, ∅⟩, ∅⟩

def createTrains : Mutation := .createPing "trains".toList "choo".toList "alice".toList none

/-- A ping that could not be saved is there all the same: the call fails, and when it is made again it fails because of itself. -/
theorem failed_create_stays :
    noPings.manager.store = noPings.file ∧ ¬ Atomic id noPings createTrains false ∧
      (noPings.call id createTrains false).2 = .error notSaved ∧
      ((noPings.call id createTrains false).1.call id createTrains true).2 = .error (alreadyThere "trains".toList) := by
  refine ⟨rfl, fun h => ?_, by decide +kernel, by decide +kernel⟩
  have hsame := (h.failure notSaved (by decide +kernel)).1.1 "trains".toList
  revert hsame
  decide +kernel

end Twitch1337.Pings
