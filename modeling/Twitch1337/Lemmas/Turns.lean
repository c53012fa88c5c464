import Twitch1337.Lemmas.History

/-!
# Turns

What the tools of a turn let through, and the executors that count its places. The slugs the tools take are slugs the store
takes.
-/

namespace Twitch1337.Memory

open Pool Text

variable {R : Rfc3339} {w w' : World} {p : Nat} {io : Io} {s s' : Point}

/-! ## Slugs and paths -/

/-- A letter or a digit of ASCII, or a hyphen: what the stems of the paths are made of. -/
def isStemChar (c : Char) : Bool := c.isAlphanum || c == '-'

theorem isStemChar_of_isSlugStart {c : Char} (h : isSlugStart c = true) : isStemChar c = true := by
  unfold isSlugStart at h
  unfold isStemChar
  rcases Bool.or_eq_true_iff.mp h with hlower | hdigit
  · rw [RustStr.isAlphanum_of_isLower hlower, Bool.true_or]
  · rw [RustStr.isAlphanum_of_isDigit hdigit, Bool.true_or]

/-- What `parse_slug` takes, it gives back: a text of stem characters, not empty, not too long, and not a reserved one. -/
theorem parseSlug_ok {slug out : Text} (h : parseSlug slug = .ok out) :
    out = slug ∧ slug ≠ [] ∧ utf8Len slug ≤ 64 ∧ slug.all isStemChar = true ∧ ∀ r ∈ reserved, r ≠ slug := by
  unfold parseSlug at h
  split at h
  · cases h
  rename_i hres
  split at h
  · cases h
  rename_i hbad
  cases h
  simp only [Bool.or_eq_true, Bool.not_eq_true', decide_eq_true_eq, not_or, Bool.not_eq_false, Nat.not_lt] at hbad
  obtain ⟨⟨hfirst, hrest⟩, hlen⟩ := hbad
  cases slug with
  | nil => cases hfirst
  | cons c cs =>
    refine ⟨rfl, List.cons_ne_nil c cs, hlen, ?_, ?_⟩
    · rw [List.all_cons, Bool.and_eq_true, List.all_eq_true]
      refine ⟨isStemChar_of_isSlugStart (by simpa using hfirst), fun x hx => ?_⟩
      rcases Bool.or_eq_true_iff.mp (List.all_eq_true.mp hrest x (by simpa using hx)) with h | h
      · exact isStemChar_of_isSlugStart h
      · simp [isStemChar, h]
    · rintro r hr rfl
      exact hres (List.any_eq_true.mpr ⟨_, hr, by simp⟩)

/-- Every slug that the tools take is one that the store takes. -/
theorem validateStateSlug_of_parseSlug {slug out : Text} (h : parseSlug slug = .ok out) : validateStateSlug out = true := by
  obtain ⟨rfl, hne, hlen, hall, hres⟩ := parseSlug_ok h
  unfold validateStateSlug
  rw [List.all_eq_true] at hall
  have hnodots : contains "..".toList out = false := by
    rw [Bool.eq_false_iff]
    intro hc
    have hdot : '.' ∈ out := (contains_iff.mp hc).subset (by decide)
    exact absurd (hall _ hdot) (by decide)
  have hnot : reservedStateSlugs.contains out = false := by
    rw [Bool.eq_false_iff]
    intro hc
    have hmem : out ∈ reservedStateSlugs := by simpa using hc
    have hsub : ∀ r ∈ reservedStateSlugs, r ∈ reserved := by decide +kernel
    exact hres out (hsub out hmem) rfl
  have hchars : (out.all fun c => c.isAlphanum || c == '.' || c == '_' || c == '-') = true := by
    rw [List.all_eq_true]
    intro c hc
    have := hall c hc
    unfold isStemChar at this
    rcases Bool.or_eq_true_iff.mp this with h | h
    · simp [h]
    · simp [h]
  have hempty : out.isEmpty = false := by simpa using hne
  rw [hnodots, hnot, hchars, hempty]
  simp [hlen]

/-- The id in a path of `write_file` is made of digits. -/
theorem parseWritePath_user {path userId : Text} (h : parseWritePath path = some (.user userId)) :
    userId ≠ [] ∧ userId.all Char.isDigit = true := by
  unfold parseWritePath at h
  split at h
  · cases h
  split at h
  · cases h
  split at h
  · split at h
    · rename_i hid
      cases h
      exact hid
    · cases h
  · cases h

/-! ## Rights -/

/-- What a speaker may change. -/
def Executor.Permits (e : Executor) : FileKind → Prop
  | .soul => e.speakerRole = .dreamer
  | .lore => e.speakerRole ≠ .regular
  | .user userId =>
    (e.speakerRole = .regular → userId = e.speakerUserId.text) ∧ userId ≠ [] ∧ userId.all Char.isDigit = true
  | .state slug => parseSlug slug = .ok slug ∧ validateStateSlug slug = true

theorem permits_of_permittedWritePath {e : Executor} {path : Text} {target : WritePath}
    (hp : parseWritePath path = some target) (h : e.permittedWritePath target = true) : e.Permits target.toKind := by
  cases target with
  | soul =>
    change e.speakerRole = .dreamer
    simpa [Executor.permittedWritePath] using h
  | lore =>
    change e.speakerRole ≠ .regular
    simpa [Executor.permittedWritePath] using h
  | user userId =>
    refine ⟨fun hr => ?_, parseWritePath_user hp⟩
    simpa [Executor.permittedWritePath, hr] using h

theorem writeOf_kind (e : Executor) (kind : FileKind) (body : Text) :
    (e.writeOf kind body).kind = kind ∧ (e.writeOf kind body).refusal = none := by
  unfold Executor.writeOf
  split <;> exact ⟨rfl, rfl⟩

/-- A call that goes through to the quota is one of a file the speaker may change, and the store does not turn it down. -/
theorem dispatch_perform {e : Executor} {call : ToolCall} {op : StoreOp} (h : e.dispatch call = .perform op) :
    e.Permits op.kind ∧ op.refusal = none := by
  have hcases := dispatch_cases e call
  rw [h] at hcases
  cases hcases with
  | file path target body parsed permitted =>
    rw [(writeOf_kind _ _ _).1]
    exact ⟨permits_of_permittedWritePath parsed permitted, (writeOf_kind _ _ _).2⟩
  | note raw slug body parsed =>
    have hv := validateStateSlug_of_parseSlug parsed
    refine ⟨⟨?_, hv⟩, if_pos hv⟩
    rwa [← (parseSlug_ok parsed).1] at parsed

/-- The slug of a deletion that looks for an owner is one that the tools take. -/
theorem dispatch_checkOwner {e : Executor} {call : ToolCall} {slug : Text} (h : e.dispatch call = .checkOwner slug) :
    parseSlug slug = .ok slug := by
  have hcases := dispatch_cases e call
  rw [h] at hcases
  cases hcases with
  | owner raw slug parsed => rwa [← (parseSlug_ok parsed).1] at parsed

/-! ## Quotas -/

/-- An executor at the start of its turn. -/
def Executor.fresh (e : Executor) : Executor := { e with writeCount := 0 }

def Obs.grantedTo (ex : Nat) : Obs → Bool
  | granted _ ex' => ex' = ex
  | _ => false

/-- The executors are those of the start, but for their counts, and have granted no more places than they counted and may. -/
structure Staffed (executors : List Executor) (w : World) : Prop where
  same : ∀ ex : Nat, (w.executors[ex]?).map Executor.fresh = (executors[ex]?).map Executor.fresh
  quota : ∀ (ex : Nat) (e : Executor), w.executors[ex]? = some e →
    w.log.countP (Obs.grantedTo ex) ≤ e.writeCount ∧ w.log.countP (Obs.grantedTo ex) ≤ e.maxWritesPerTurn

/-- An executor of now is one of the start, but for its count. -/
theorem Staffed.origin {executors : List Executor} (h : Staffed executors w) {ex : Nat} {e : Executor}
    (he : w.executors[ex]? = some e) : ∃ e₀, executors[ex]? = some e₀ ∧ e₀.fresh = e.fresh := by
  have hs := h.same ex
  rw [he, Option.map_some, eq_comm, Option.map_eq_some_iff] at hs
  exact hs

theorem permits_of_fresh {e e' : Executor} (h : e.fresh = e'.fresh) {kind : FileKind} (hp : e'.Permits kind) :
    e.Permits kind := by
  have hrole : e.speakerRole = e'.speakerRole := by
    change e.fresh.speakerRole = e'.fresh.speakerRole
    rw [h]
  have hid : e.speakerUserId = e'.speakerUserId := by
    change e.fresh.speakerUserId = e'.fresh.speakerUserId
    rw [h]
  cases kind with
  | soul => exact hrole.trans hp
  | lore => exact fun hr => hp (hrole.symm.trans hr)
  | user userId => exact ⟨fun hr => hid ▸ hp.1 (hrole.symm.trans hr), hp.2⟩
  | state slug => exact hp

/-- A count that is set anew leaves the executors staffed, when it is not below the places granted. -/
theorem Staffed.setCount {executors : List Executor} (h : Staffed executors w) {ex n : Nat} {e : Executor}
    (he : w.executors[ex]? = some e) (hn : w.log.countP (Obs.grantedTo ex) ≤ n) : Staffed executors (w.setCount ex e n) := by
  have hlt : ex < w.executors.length := (List.getElem?_eq_some_iff.mp he).1
  refine ⟨fun i => ?_, fun i e' he' => ?_⟩
  · by_cases hi : i = ex
    · subst hi
      rw [World.setCount, List.getElem?_set_self hlt, ← h.same i, he]
      rfl
    · rw [World.setCount, List.getElem?_set_ne (Ne.symm hi)]
      exact h.same i
  · by_cases hi : i = ex
    · subst hi
      rw [World.setCount, List.getElem?_set_self hlt, Option.some.injEq] at he'
      rw [← he']
      exact ⟨hn, (h.quota i e he).2⟩
    · rw [World.setCount, List.getElem?_set_ne (Ne.symm hi)] at he'
      exact h.quota i e' he'

/-- What is written down, but for a place in the quota, leaves the executors staffed. -/
theorem Staffed.note {executors : List Executor} (h : Staffed executors w) (he : w'.executors = w.executors) {new : List Obs}
    (hl : w'.log = w.log ++ new) (hnew : ∀ o ∈ new, ∀ ex, Obs.grantedTo ex o = false) : Staffed executors w' := by
  have hcount : ∀ ex, w'.log.countP (Obs.grantedTo ex) = w.log.countP (Obs.grantedTo ex) := by
    intro ex
    have hzero : new.countP (Obs.grantedTo ex) = 0 := List.countP_eq_zero.mpr fun o ho => by simp [hnew o ho ex]
    rw [hl, List.countP_append, hzero, Nat.add_zero]
  refine ⟨fun ex => he ▸ h.same ex, fun ex e hex => ?_⟩
  rw [hcount]
  exact h.quota ex e (he ▸ hex)

theorem Move.staffed {executors : List Executor} (hw : Staffed executors w) (h : Move R w p io s w' s') :
    Staffed executors w' := by
  cases h with
  | granted ex e op there left =>
    have hcounts := hw.quota ex e there
    have hset : Staffed executors (w.setCount ex e (e.writeCount + 1)) :=
      hw.setCount there (Nat.le_succ_of_le hcounts.1)
    refine ⟨hset.same, fun i e' he' => ?_⟩
    rw [World.observe, List.countP_append, List.countP_singleton]
    by_cases hi : i = ex
    · subst hi
      have hlt : i < w.executors.length := (List.getElem?_eq_some_iff.mp there).1
      rw [World.observe, World.setCount, List.getElem?_set_self hlt, Option.some.injEq] at he'
      rw [← he']
      simp only [World.setCount, Obs.grantedTo, decide_true, if_true]
      omega
    · simpa [Obs.grantedTo, Ne.symm hi] using hset.quota i e' he'
  | denied ex e op there => exact hw.setCount there (Nat.le_succ_of_le (hw.quota ex e there).1)
  | undone ex e there reply plain => exact hw.setCount there (hw.quota ex e there).2
  | views kind body read => exact hw.note rfl rfl (by simp [Obs.grantedTo])
  | shows kind body => exact hw.note rfl rfl (by simp [Obs.grantedTo])
  | owns ex e slug there may => exact hw.note rfl rfl (by simp [Obs.grantedTo])
  | conflicts src kind body expected o page read reply plain =>
    have hopened : Staffed executors (w.observe (.opened p kind page)) := hw.note rfl rfl (by simp [Obs.grantedTo])
    exact hopened.note rfl rfl (by simp [Obs.grantedTo])
  | passes src kind body token o same => exact hw.note rfl rfl (by simp [Obs.grantedTo])
  | removes src slug valid => exact hw.note rfl rfl (by simp [Obs.grantedTo])
  | writes src op raw isNew => exact hw.note rfl rfl (by simp [Obs.grantedTo])
  | _ => exact hw

end Twitch1337.Memory
