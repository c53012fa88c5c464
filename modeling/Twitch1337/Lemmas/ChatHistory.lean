import Mathlib.Data.List.Infix
import Twitch1337.Bot.ChatHistory

/-!
# What the history holds

The history is the end of all that was stored, each message with its number. From that one invariant follow the order of the
entries, and what a later history shares with an earlier one.
-/

namespace Twitch1337.ChatHistory

/-! ## Pushes -/

/-- Room is made by dropping the oldest entries. -/
theorem makeRoom_eq (cap : Nat) (es : List ChatHistoryEntry) :
    makeRoom cap es = es.drop (es.length + 1 - cap) := by
  induction es with
  | nil => simp [makeRoom]
  | cons e rest ih =>
    unfold makeRoom
    by_cases hfull : cap ≤ (e :: rest).length
    · rw [if_pos hfull, ih]
      rw [List.length_cons] at hfull ⊢
      have hdrop : rest.length + 1 + 1 - cap = (rest.length + 1 - cap) + 1 := by omega
      rw [hdrop, List.drop_succ_cons]
    · rw [if_neg hfull]
      rw [List.length_cons] at hfull ⊢
      have hdrop : rest.length + 1 + 1 - cap = 0 := by omega
      rw [hdrop, List.drop_zero]

/-- Room is made at the front. -/
theorem makeRoom_suffix (cap : Nat) (es : List ChatHistoryEntry) : makeRoom cap es <:+ es :=
  makeRoom_eq cap es ▸ List.drop_suffix _ es

/-- One entry less than the capacity is left, or all there were. -/
theorem length_makeRoom (cap : Nat) (es : List ChatHistoryEntry) :
    (makeRoom cap es).length = min es.length (cap - 1) := by
  rw [makeRoom_eq, List.length_drop]
  omega

/-- A push that finds no capacity does nothing. -/
theorem push_of_zero {b : ChatHistoryBuffer} {p : Push} (h : p.capacity = 0) : b.push p = b := if_pos h

/-- A push that finds some capacity adds its entry behind those it leaves. -/
theorem push_of_pos {b : ChatHistoryBuffer} {p : Push} (h : p.capacity ≠ 0) :
    b.push p = ⟨min (b.nextSeq + 1) maxSeq, makeRoom p.capacity b.entries ++ [⟨p.message, b.nextSeq⟩]⟩ :=
  if_neg h

@[simp] theorem pushAll_nil (b : ChatHistoryBuffer) : b.pushAll [] = b := rfl

@[simp] theorem pushAll_cons (b : ChatHistoryBuffer) (p : Push) (ps : List Push) :
    b.pushAll (p :: ps) = (b.push p).pushAll ps := rfl

/-- Pushes after pushes. -/
theorem pushAll_append (b : ChatHistoryBuffer) (ps qs : List Push) : b.pushAll (ps ++ qs) = (b.pushAll ps).pushAll qs :=
  List.foldl_append

/-! ## What was stored -/

/-- The messages of the pushes that found a capacity. -/
def stored (pushes : List Push) : List Message := (pushes.filter fun p => p.capacity ≠ 0).map (·.message)

@[simp] theorem stored_nil : stored [] = [] := rfl

/-- What two runs of pushes store, one after the other. -/
theorem stored_append (ps qs : List Push) : stored (ps ++ qs) = stored ps ++ stored qs := by
  simp [stored]

/-- Stored messages with their numbers, from one on. The last number repeats. -/
def numbered (ms : List Message) : List ChatHistoryEntry := ms.mapIdx fun i m => ⟨m, min (i + 1) maxSeq⟩

/-- The number of a message does not depend on later ones. -/
theorem numbered_append (ms : List Message) (m : Message) :
    numbered (ms ++ [m]) = numbered ms ++ [⟨m, min (ms.length + 1) maxSeq⟩] := by
  simp [numbered, List.mapIdx_append]

/-- Every message has a number. -/
theorem length_numbered (ms : List Message) : (numbered ms).length = ms.length := List.length_mapIdx

/-- Under the numbers are the messages. -/
theorem map_numbered (ms : List Message) : (numbered ms).map (·.toMessage) = ms := by
  refine List.ext_getElem (by simp [numbered]) fun i hi hi' => ?_
  simp [numbered]

/-- The history is the end of what was stored, and the next number is one more than the number of stored messages. -/
structure Tracks (ms : List Message) (b : ChatHistoryBuffer) : Prop where
  entries : b.entries <:+ numbered ms
  nextSeq : b.nextSeq = min (ms.length + 1) maxSeq

/-- One push is tracked. -/
theorem Tracks.push {ms : List Message} {b : ChatHistoryBuffer} (h : Tracks ms b) (p : Push) :
    Tracks (ms ++ stored [p]) (b.push p) := by
  by_cases hzero : p.capacity = 0
  · rw [push_of_zero hzero]
    simpa [stored, hzero] using h
  · have hms : ms ++ stored [p] = ms ++ [p.message] := by simp [stored, hzero]
    rw [push_of_pos hzero, hms]
    constructor
    · rw [numbered_append, h.nextSeq]
      obtain ⟨old, hold⟩ := (makeRoom_suffix p.capacity b.entries).trans h.entries
      exact ⟨old, by rw [← hold, List.append_assoc]⟩
    · simp only [h.nextSeq, List.length_append, List.length_singleton]
      omega

/-- Pushes one after the other are tracked. -/
theorem Tracks.pushAll {ms : List Message} {b : ChatHistoryBuffer} (h : Tracks ms b) (ps : List Push) :
    Tracks (ms ++ stored ps) (b.pushAll ps) := by
  induction ps generalizing ms b with
  | nil => simpa using h
  | cons p ps ih =>
    have hsplit : ms ++ stored (p :: ps) = (ms ++ stored [p]) ++ stored ps := by
      rw [List.append_assoc, ← stored_append]
      rfl
    rw [hsplit]
    exact ih (h.push p)

/-- An empty history tracks nothing. -/
theorem tracks_new : Tracks [] .new := ⟨List.suffix_refl _, rfl⟩

/-- Every run tracks what it stored. -/
theorem tracks_run (ps : List Push) : Tracks (stored ps) (ChatHistoryBuffer.new.pushAll ps) := tracks_new.pushAll ps

/-- What is in a prefilled history is one of the latest messages. -/
theorem mem_fromPrefill {cap : Nat} {messages : List (Nat × Text × Text × Chrono.Instant)} {e : ChatHistoryEntry}
    (he : e ∈ (ChatHistoryBuffer.fromPrefill cap messages).entries) :
    ∃ live, (live, e.username, e.text, e.timestamp) ∈ messages.drop (messages.length - cap) := by
  have hmem : e.toMessage ∈ (numbered _).map (·.toMessage) := List.mem_map_of_mem ((tracks_run _).entries.mem he)
  rw [map_numbered] at hmem
  obtain ⟨p, hp, hmessage⟩ := List.mem_map.mp hmem
  obtain ⟨⟨live, username, text, timestamp⟩, hlatest, rfl⟩ := List.mem_map.mp (List.mem_filter.mp hp).1
  obtain ⟨message, seq⟩ := e
  obtain rfl : (userPush live username text timestamp).message = message := hmessage
  exact ⟨live, hlatest⟩

/-! ## The order of the entries -/

/-- An entry has the number of its place, up to the largest one. -/
theorem mem_numbered {ms : List Message} {e : ChatHistoryEntry} (h : e ∈ numbered ms) :
    ∃ i, i < ms.length ∧ e.seq = min (i + 1) maxSeq := by
  obtain ⟨i, hi, rfl⟩ := List.mem_mapIdx.mp h
  exact ⟨i, hi, rfl⟩

/-- The numbers are strictly increasing as long as they last. -/
theorem pairwise_numbered {ms : List Message} (h : ms.length ≤ maxSeq) : (numbered ms).Pairwise (·.seq < ·.seq) := by
  rw [List.pairwise_iff_getElem]
  intro i j hi hj hlt
  rw [length_numbered] at hi hj
  simp only [numbered, List.getElem_mapIdx]
  omega

/-- No number is larger than the number of stored messages. -/
theorem Tracks.seq_le {ms : List Message} {b : ChatHistoryBuffer} (h : Tracks ms b) {e : ChatHistoryEntry}
    (he : e ∈ b.entries) : e.seq ≤ ms.length := by
  obtain ⟨i, hi, hseq⟩ := mem_numbered (h.entries.mem he)
  omega

/-- The entries of a history are in the order of their numbers. -/
theorem Tracks.pairwise {ms : List Message} {b : ChatHistoryBuffer} (h : Tracks ms b) (hlen : ms.length ≤ maxSeq) :
    b.entries.Pairwise (·.seq < ·.seq) :=
  (pairwise_numbered hlen).sublist h.entries.sublist

end Twitch1337.ChatHistory
