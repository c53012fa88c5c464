import Twitch1337.Lemmas.ChatHistory
import Twitch1337.Lib.Chronicle

/-!
# What the history retains

After every push the history is within the capacity of that push, and the end of what was stored, in the order of its numbers.
A push that finds no capacity leaves the entries there are, and the last number there is repeats.
-/

namespace Twitch1337.ChatHistory

open Chronicle

/-! ## What a push is to leave, and what it needs -/

/-- The history after a push: within the capacity, the latest of what was stored, and numbered upwards. -/
structure Retains (past : List Push) (p : Push) : Prop where
  bounded : (ChatHistoryBuffer.new.pushAll (past ++ [p])).entries.length ≤ p.capacity
  recent : (ChatHistoryBuffer.new.pushAll (past ++ [p])).entries.map (·.toMessage) <:+ stored (past ++ [p])
  increasing : (ChatHistoryBuffer.new.pushAll (past ++ [p])).entries.Pairwise (·.seq < ·.seq)

/-- Where there is no capacity there are no entries, and where there is room beside the newest entry, its number is not the
last there is. -/
def HasRoom (past : List Push) (p : Push) : Prop :=
  (p.capacity = 0 → (ChatHistoryBuffer.new.pushAll past).entries = []) ∧
    (2 ≤ p.capacity → ∀ e, (ChatHistoryBuffer.new.pushAll past).entries.getLast? = some e → e.seq < maxSeq)

/-! ## The newest entry -/

/-- The newest entry has the number of what was stored. -/
theorem Tracks.getLast {ms : List Message} {b : ChatHistoryBuffer} (h : Tracks ms b) {e : ChatHistoryEntry}
    (he : b.entries.getLast? = some e) : e.seq = min ms.length maxSeq := by
  obtain ⟨old, hold⟩ := h.entries
  obtain ⟨es, hes⟩ := List.getLast?_eq_some_iff.mp he
  rcases List.eq_nil_or_concat ms with rfl | ⟨ms', m, rfl⟩
  · rw [hes, ← List.append_assoc] at hold
    have := congrArg List.length hold
    simp [numbered] at this
  · rw [List.concat_eq_append] at hold ⊢
    rw [numbered_append, hes, ← List.append_assoc] at hold
    obtain ⟨-, heq⟩ := List.append_inj' hold rfl
    rw [List.singleton_inj.mp heq, List.length_append, List.length_singleton]

/-- A push keeps the numbers increasing exactly when it leaves one entry, or the number of the newest is not the last. -/
theorem pairwise_push {ms : List Message} {b : ChatHistoryBuffer} (h : Tracks ms b) (hb : b.entries.Pairwise (·.seq < ·.seq))
    (p : Push) : (b.push p).entries.Pairwise (·.seq < ·.seq) ↔
      (2 ≤ p.capacity → ∀ e, b.entries.getLast? = some e → e.seq < maxSeq) := by
  by_cases hzero : p.capacity = 0
  · rw [push_of_zero hzero]
    exact ⟨fun _ htwo => by omega, fun _ => hb⟩
  rw [push_of_pos hzero]
  have hkept : (makeRoom p.capacity b.entries).Pairwise (·.seq < ·.seq) :=
    hb.sublist (makeRoom_suffix p.capacity b.entries).sublist
  rw [List.pairwise_append]
  constructor
  · rintro ⟨-, -, hlt⟩ htwo e he
    -- the newest entry is still there, and its number is below the next one
    have hmem : e ∈ makeRoom p.capacity b.entries := by
      obtain ⟨es, hes⟩ := List.getLast?_eq_some_iff.mp he
      have hdrop : b.entries.length + 1 - p.capacity ≤ es.length := by
        rw [hes, List.length_append, List.length_singleton]
        omega
      rw [makeRoom_eq, hes] at *
      rw [List.drop_append_of_le_length hdrop]
      simp
    have := hlt e hmem _ (List.mem_singleton_self _)
    have hnext := h.nextSeq
    dsimp only at this
    omega
  · intro hroom
    refine ⟨hkept, List.pairwise_singleton _ _, fun e he x hx => ?_⟩
    rw [List.mem_singleton.mp hx]
    have hlen := List.length_pos_of_mem he
    rw [length_makeRoom] at hlen
    have hne : b.entries ≠ [] := by
      intro hnil
      simp [hnil] at hlen
    have hlast := hroom (by omega) (b.entries.getLast hne) (List.getLast?_eq_some_getLast hne)
    rw [h.getLast (List.getLast?_eq_some_getLast hne)] at hlast
    have hle : e.seq ≤ ms.length := h.seq_le ((makeRoom_suffix p.capacity b.entries).mem he)
    change e.seq < b.nextSeq
    rw [h.nextSeq]
    omega

/-- A push is within the capacity exactly when there are no entries where there is no capacity. -/
theorem length_push_le_iff (b : ChatHistoryBuffer) (p : Push) :
    (b.push p).entries.length ≤ p.capacity ↔ (p.capacity = 0 → b.entries = []) := by
  by_cases hzero : p.capacity = 0
  · rw [push_of_zero hzero, hzero, Nat.le_zero, List.length_eq_zero_iff]
    simp
  · rw [push_of_pos hzero, List.length_append, length_makeRoom, List.length_singleton]
    constructor
    · intro _ h
      exact absurd h hzero
    · intro _
      omega

/-- What was retained was in order, whatever the pushes. -/
theorem retains_iff {past : List Push} (p : Push) (h : (ChatHistoryBuffer.new.pushAll past).entries.Pairwise (·.seq < ·.seq)) :
    Retains past p ↔ HasRoom past p := by
  have hsnoc : ChatHistoryBuffer.new.pushAll (past ++ [p]) = (ChatHistoryBuffer.new.pushAll past).push p := by
    rw [pushAll_append]
    rfl
  have htracks := tracks_run past
  constructor
  · intro hr
    refine ⟨(length_push_le_iff _ p).mp (hsnoc ▸ hr.bounded), (pairwise_push htracks h p).mp (hsnoc ▸ hr.increasing)⟩
  · rintro ⟨hzero, hroom⟩
    constructor
    · rw [hsnoc]
      exact (length_push_le_iff _ p).mpr hzero
    · have := (tracks_run (past ++ [p])).entries.map (·.toMessage)
      rwa [map_numbered] at this
    · rw [hsnoc]
      exact (pairwise_push htracks h p).mpr hroom

/-! ## The theorem -/

/-- In a run every push leaves what it should, exactly when every push has room: no entries where there is no capacity, and a
number left for it where it is not the only one. -/
theorem history_retains_iff (pushes : List Push) : InOrder Retains pushes ↔ InOrder HasRoom pushes := by
  induction pushes using List.reverseRecOn with
  | nil => exact ⟨fun _ => inOrder_nil, fun _ => inOrder_nil⟩
  | append_singleton past p ih =>
    have key : InOrder Retains past → (Retains past p ↔ HasRoom past p) := by
      intro h
      refine retains_iff p ?_
      rcases List.eq_nil_or_concat past with rfl | ⟨past', q, rfl⟩
      · exact List.Pairwise.nil
      · rw [List.concat_eq_append] at h ⊢
        exact (h past' q [] rfl).increasing
    constructor
    · intro h
      exact (ih.mp h.earlier).snoc ((key h.earlier).mp (h past p [] rfl))
    · intro h
      have hpast := ih.mpr h.earlier
      exact hpast.snoc ((key hpast).mpr (h past p [] rfl))

/-! ### A capacity that is taken away -/

def hello : Message := ⟨⟨"alice".toList, none, "hello".toList, .user, 0⟩, none⟩

example : ((ChatHistoryBuffer.new.pushAll [⟨2, hello⟩, ⟨2, hello⟩, ⟨1, hello⟩]).entries.map (·.seq)) = [3] := by decide

/-- The capacity is set to nothing after a message: the next push leaves the message there. -/
theorem no_capacity_keeps_entries : ¬ InOrder Retains [⟨1, hello⟩, ⟨0, hello⟩] := by
  intro h
  have hbounded := (h [⟨1, hello⟩] ⟨0, hello⟩ [] rfl).bounded
  revert hbounded
  decide

end Twitch1337.ChatHistory
