import Twitch1337.Bot.News

/-!
# What a user missed

The history of a request should begin behind the user's last message before the most recent twenty. The search goes for the last
message of all, so that one among the most recent twenty hides those before them.
-/

namespace Twitch1337.News

open Text ChatHistory

variable {user : Text} {body tail : List ChatHistoryEntry}

/-! ## The last position -/

section
variable {α : Type} {p : α → Bool}

theorem rposition_eq_none {l : List α} (h : ∀ x ∈ l, p x = false) : rposition p l = none := by
  rw [rposition, Option.map_eq_none_iff, List.findIdx?_eq_none_iff]
  intro x hx
  exact h x (List.mem_reverse.mp hx)

theorem rposition_append {x : α} (front : List α) {rest : List α} (hx : p x = true) (hrest : ∀ y ∈ rest, p y = false) :
    rposition p (front ++ x :: rest) = some front.length := by
  have hnone : rest.reverse.findIdx? p = none := by
    rw [List.findIdx?_eq_none_iff]
    intro y hy
    exact hrest y (List.mem_reverse.mp hy)
  have hidx : (front ++ x :: rest).reverse.findIdx? p = some rest.length := by
    rw [List.reverse_append, List.reverse_cons, List.append_assoc, List.findIdx?_append, hnone, Option.none_or,
      List.singleton_append, List.findIdx?_cons, if_pos hx]
    simp
  rw [rposition, hidx, Option.map_some, Option.some.injEq, List.length_append, List.length_cons]
  omega

/-- The last of those that are meant, if there is one. -/
theorem exists_last (l : List α) :
    (∀ x ∈ l, p x = false) ∨ ∃ front x rest, l = front ++ x :: rest ∧ p x = true ∧ ∀ y ∈ rest, p y = false := by
  induction l with
  | nil => exact .inl (by simp)
  | cons a l ih =>
    obtain h | ⟨front, x, rest, rfl, hx, hrest⟩ := ih
    · cases ha : p a with
      | false => exact .inl (by simpa [ha] using h)
      | true => exact .inr ⟨[], a, l, rfl, ha, h⟩
    · exact .inr ⟨a :: front, x, rest, rfl, hx, hrest⟩

end

/-! ## What was missed -/

/-- The entries before the most recent twenty. -/
def older (body : List ChatHistoryEntry) : List ChatHistoryEntry := body.take (body.length - 20)

/-- The most recent twenty entries. -/
def recent (body : List ChatHistoryEntry) : List ChatHistoryEntry := body.drop (body.length - 20)

/-- What follows the user's last message among the older entries, or everything where there is none. -/
inductive Missed (user : Text) : (body tail : List ChatHistoryEntry) → Prop
  | after {front : List ChatHistoryEntry} {mine : ChatHistoryEntry} {tail : List ChatHistoryEntry} (hmine : byUser user mine = true)
      (hlen : 20 ≤ tail.length) (hno : ∀ e ∈ older tail, byUser user e = false) : Missed user (front ++ mine :: tail) tail
  | whole {body : List ChatHistoryEntry} (hno : ∀ e ∈ older body, byUser user e = false) : Missed user body body

/-- The request is for what was missed. -/
def CoversMissed (user currentMessage : Text) (buf : ChatHistoryBuffer) (now : Chrono.Instant) : Prop :=
  let body := withoutTrigger user currentMessage buf.entries
  if body = [] then relevantHistory .news (some buf) user currentMessage now = none
  else ∃ tail, Missed user body tail ∧ relevantHistory .news (some buf) user currentMessage now = some (tail.map line)

/-- The user wrote both before the most recent twenty entries and among them. -/
def WroteOnBothSides (user : Text) (body : List ChatHistoryEntry) : Prop :=
  (∃ e ∈ older body, byUser user e = true) ∧ ∃ e ∈ recent body, byUser user e = true

/-- Where the history of a request begins. -/
def startOf (user : Text) (body : List ChatHistoryEntry) : Nat :=
  (((rposition (byUser user) body).filter fun idx => idx < body.length - 20).map (· + 1)).getD 0

theorem relevantHistory_news {buf : ChatHistoryBuffer} {currentMessage : Text} {now : Chrono.Instant}
    (h : withoutTrigger user currentMessage buf.entries ≠ []) :
    relevantHistory .news (some buf) user currentMessage now =
      some (((withoutTrigger user currentMessage buf.entries).drop
        (startOf user (withoutTrigger user currentMessage buf.entries))).map line) := by
  rw [relevantHistory, Option.bind_some]
  simp only [List.isEmpty_eq_false_iff.mpr h, Bool.false_eq_true, if_false]
  rfl

theorem startOf_of_none (h : ∀ e ∈ body, byUser user e = false) : startOf user body = 0 := by
  rw [startOf, rposition_eq_none h]
  rfl

theorem startOf_append {front rest : List ChatHistoryEntry} {mine : ChatHistoryEntry} (hmine : byUser user mine = true)
    (hrest : ∀ e ∈ rest, byUser user e = false) :
    startOf user (front ++ mine :: rest) = if 20 ≤ rest.length then front.length + 1 else 0 := by
  rw [startOf, rposition_append front hmine hrest, Option.filter_some]
  by_cases h : 20 ≤ rest.length
  · rw [if_pos (by simp; omega), if_pos h, Option.map_some, Option.getD_some]
  · rw [if_neg (by simp; omega), if_neg h]
    rfl

/-! ## When it is covered -/

theorem Missed.of_length_eq (h : Missed user body tail) (hlen : tail.length = body.length) : ∀ e ∈ older body, byUser user e = false := by
  cases h with
  | after =>
    rw [List.length_append, List.length_cons] at hlen
    omega
  | whole hno => exact hno

/-- What is missed is what the search finds, unless the user wrote on both sides. -/
theorem missed_iff (user : Text) (body : List ChatHistoryEntry) :
    (∃ tail, Missed user body tail ∧ (body.drop (startOf user body)).map line = tail.map line) ↔ ¬ WroteOnBothSides user body := by
  obtain hnone | ⟨front, mine, rest, rfl, hmine, hrest⟩ := exists_last (p := byUser user) body
  · have hno : ∀ e ∈ older body, byUser user e = false := fun e he => hnone e (List.mem_of_mem_take he)
    constructor
    · rintro - ⟨⟨e, he, hby⟩, -⟩
      rw [hno e he] at hby
      cases hby
    · intro _
      exact ⟨body, .whole hno, by rw [startOf_of_none hnone, List.drop_zero]⟩
  · rw [startOf_append hmine hrest]
    by_cases hlen : 20 ≤ rest.length
    · -- The last message is an older one, and nothing of the user's is behind it.
      have hdrop : (front ++ mine :: rest).drop (front.length + 1) = rest := by simp
      have hrecent : recent (front ++ mine :: rest) <:+ rest := by
        rw [recent, List.length_append, List.length_cons,
          show front.length + (rest.length + 1) - 20 = (front.length + 1) + (rest.length - 20) by omega, ← List.drop_drop, hdrop]
        exact List.drop_suffix _ _
      rw [if_pos hlen, hdrop]
      constructor
      · rintro - ⟨-, e, he, hby⟩
        rw [hrest e (hrecent.subset he)] at hby
        cases hby
      · intro _
        exact ⟨rest, .after hmine hlen fun e he => hrest e (List.mem_of_mem_take he), rfl⟩
    · -- The last message is a recent one, and the search gives up.
      have hmem : mine ∈ recent (front ++ mine :: rest) := by
        rw [recent, List.length_append, List.length_cons, List.drop_append_of_le_length (by omega)]
        simp
      rw [if_neg hlen, List.drop_zero]
      constructor
      · rintro ⟨tail, htail, hlines⟩ ⟨⟨e, he, hby⟩, -⟩
        have hsame := congrArg List.length hlines
        rw [List.length_map, List.length_map] at hsame
        rw [htail.of_length_eq hsame.symm e he] at hby
        cases hby
      · intro hboth
        refine ⟨_, .whole fun e he => ?_, rfl⟩
        by_contra hby
        exact hboth ⟨⟨e, he, by simpa using hby⟩, mine, hmem, hmine⟩

theorem coversMissed_of_ne_nil {currentMessage : Text} {buf : ChatHistoryBuffer} {now : Chrono.Instant}
    (h : withoutTrigger user currentMessage buf.entries = body) (hne : body ≠ []) :
    CoversMissed user currentMessage buf now ↔
      ∃ tail, Missed user body tail ∧ (body.drop (startOf user body)).map line = tail.map line := by
  subst h
  simp only [CoversMissed, hne, if_false, relevantHistory_news hne, Option.some.injEq]

/-- A request covers what the user missed if and only if the user did not write on both sides of the beginning of the most recent
twenty entries. -/
theorem coversMissed_iff (user currentMessage : Text) (buf : ChatHistoryBuffer) (now : Chrono.Instant) :
    CoversMissed user currentMessage buf now ↔ ¬ WroteOnBothSides user (withoutTrigger user currentMessage buf.entries) := by
  by_cases hempty : withoutTrigger user currentMessage buf.entries = []
  · simp only [CoversMissed, hempty, if_true]
    constructor
    · rintro - ⟨⟨e, he, -⟩, -⟩
      cases List.mem_of_mem_take he
    · intro _
      simp [relevantHistory, hempty]
  · rw [coversMissed_of_ne_nil rfl hempty, missed_iff]

/-- A message of a user, with its number. -/
def said (seq : Nat) (username text : String) : ChatHistoryEntry :=
  ⟨⟨⟨username.toList, none, text.toList, .user, 0⟩, none⟩, seq⟩

/-- `alice` has written long ago, and again before she asks. -/
def twice : List ChatHistoryEntry :=
  said 1 "alice" "hi" :: (List.range 19).map (fun i => said (i + 2) "carol" "update") ++ [said 21 "alice" "lol"]

theorem not_coversMissed : ¬ CoversMissed "alice".toList "!news".toList ⟨23, twice ++ [said 22 "alice" "!news"]⟩ 0 := by
  have hbody : withoutTrigger "alice".toList "!news".toList (twice ++ [said 22 "alice" "!news"]) = twice := by rfl
  have holder : said 1 "alice" "hi" ∈ older twice := by decide
  have hrecent : said 21 "alice" "lol" ∈ recent twice := by decide
  rw [coversMissed_of_ne_nil hbody (List.cons_ne_nil _ _), missed_iff, not_not]
  exact ⟨⟨_, holder, by rfl⟩, _, hrecent, by rfl⟩

end Twitch1337.News
