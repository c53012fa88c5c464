import Twitch1337.Lib.Text

/-!
# Cursors

A parser that goes through a text by a position in bytes, as programs do over UTF-8. To look at a position that is not between
two characters stops the program, and loops count their steps down. `At` ties a position to the text that is left; `Reads` says
that a parser ends with a value, and `Meets` that it ends with a value or gives up, and never stops for another reason.
-/

namespace Cursor

open Text

/-! ## Bytes -/

/-- A text from a byte on. Nothing, when that byte is inside a character or beyond the end. -/
def dropBytes : Nat → Text → Option Text
  | 0, t => some t
  | _ + 1, [] => none
  | n + 1, c :: t => if c.utf8Size ≤ n + 1 then dropBytes (n + 1 - c.utf8Size) t else none

/-- A number of bytes of a text. Nothing, when they end inside a character or there are not as many. -/
def takeBytes : Nat → Text → Option Text
  | 0, _ => some []
  | _ + 1, [] => none
  | n + 1, c :: t => if c.utf8Size ≤ n + 1 then (takeBytes (n + 1 - c.utf8Size) t).map (c :: ·) else none

/-- The characters of a text, each with the number of bytes before it. `idx` bytes are before the text. -/
def charIndicesFrom : (idx : Nat) → Text → List (Nat × Char)
  | _, [] => []
  | idx, c :: t => (idx, c) :: charIndicesFrom (idx + c.utf8Size) t

/-- The characters of a text with the bytes they start at. -/
def charIndices (t : Text) : List (Nat × Char) := charIndicesFrom 0 t

/-- The byte at which the last occurrence of a character begins. -/
def rfind (c : Char) (t : Text) : Option Nat := ((charIndices t).reverse.find? fun e => e.2 == c).map (·.1)

theorem utf8Len_append (a b : Text) : utf8Len (a ++ b) = utf8Len a + utf8Len b := by
  simp [utf8Len]

theorem utf8Len_cons (c : Char) (t : Text) : utf8Len (c :: t) = c.utf8Size + utf8Len t := by
  simp [utf8Len]

/-- As many bytes as a beginning has are dropped with it. -/
theorem dropBytes_append (pre t : Text) : dropBytes (utf8Len pre) (pre ++ t) = some t := by
  induction pre with
  | nil => cases t <;> rfl
  | cons c pre ih =>
    have hpos := c.utf8Size_pos
    obtain ⟨n, hn⟩ := Nat.exists_eq_add_one.mpr (Nat.lt_of_lt_of_le hpos (Nat.le_add_right c.utf8Size (utf8Len pre)))
    rw [utf8Len_cons, hn, List.cons_append, dropBytes, ← hn, if_pos (Nat.le_add_right _ _), Nat.add_sub_cancel_left, ih]

/-- As many bytes as a beginning has are the beginning. -/
theorem takeBytes_append (a t : Text) : takeBytes (utf8Len a) (a ++ t) = some a := by
  induction a with
  | nil => cases t <;> rfl
  | cons c a ih =>
    have hpos := c.utf8Size_pos
    obtain ⟨n, hn⟩ := Nat.exists_eq_add_one.mpr (Nat.lt_of_lt_of_le hpos (Nat.le_add_right c.utf8Size (utf8Len a)))
    rw [utf8Len_cons, hn, List.cons_append, takeBytes, ← hn, if_pos (Nat.le_add_right _ _), Nat.add_sub_cancel_left, ih]
    rfl

/-- The characters of two texts, the second counted on from the first. -/
theorem charIndicesFrom_append (idx : Nat) (a b : Text) :
    charIndicesFrom idx (a ++ b) = charIndicesFrom idx a ++ charIndicesFrom (idx + utf8Len a) b := by
  induction a generalizing idx with
  | nil => simp [charIndicesFrom]
  | cons c a ih => simp [charIndicesFrom, ih, utf8Len_cons, Nat.add_assoc]

theorem map_snd_charIndicesFrom (idx : Nat) (t : Text) : (charIndicesFrom idx t).map (·.2) = t := by
  induction t generalizing idx with
  | nil => rfl
  | cons c t ih => simp [charIndicesFrom, ih]

/-- Every character has one place. -/
theorem length_charIndices (t : Text) : (charIndices t).length = t.length := by
  rw [← List.length_map (f := (·.2)), charIndices, map_snd_charIndicesFrom]

/-- A character has the bytes of those in front of it before it. -/
theorem getElem?_charIndices {t : Text} {n : Nat} (h : n < t.length) : (charIndices t)[n]? = some (utf8Len (t.take n), t[n]) := by
  have hlen : (charIndicesFrom 0 (t.take n)).length = n := by
    rw [← charIndices, length_charIndices, List.length_take_of_le (Nat.le_of_lt h)]
  conv_lhs => rw [← List.take_append_drop n t, List.drop_eq_getElem_cons h]
  rw [charIndices, charIndicesFrom_append, List.getElem?_append_right (by omega), hlen, Nat.sub_self, Nat.zero_add]
  rfl

/-- A character that is not there is not found. -/
theorem rfind_eq_none {c : Char} {t : Text} (h : c ∉ t) : rfind c t = none := by
  rw [rfind, Option.map_eq_none_iff, List.find?_eq_none]
  intro e he hc
  rw [← map_snd_charIndicesFrom 0 t] at h
  exact h (List.mem_map.mpr ⟨e, List.mem_reverse.mp he, by simpa using hc⟩)

/-- The last occurrence is the one that no other follows. -/
theorem rfind_append {c : Char} (a : Text) {b : Text} (h : c ∉ b) : rfind c (a ++ c :: b) = some (utf8Len a) := by
  have hb : (charIndicesFrom (0 + utf8Len a + c.utf8Size) b).reverse.find? (fun e => e.2 == c) = none := by
    rw [List.find?_eq_none]
    intro e he hc
    rw [← map_snd_charIndicesFrom (0 + utf8Len a + c.utf8Size) b] at h
    exact h (List.mem_map.mpr ⟨e, List.mem_reverse.mp he, by simpa using hc⟩)
  rw [rfind, charIndices, charIndicesFrom_append, charIndicesFrom, List.reverse_append, List.reverse_cons, List.append_assoc,
    List.find?_append, hb, Option.none_or, List.singleton_append, List.find?_cons_of_pos (by simp), Option.map_some, Nat.zero_add]

/-! ## Parsers -/

/-- Why a parser ends without a value. -/
inductive Stop where
  /-- It gives up. -/
  | fail
  /-- A position is not between two characters. -/
  | panic
  /-- A loop has no steps left. -/
  | fuel
  deriving DecidableEq

/-- A parser moves a position in bytes. -/
abbrev Parser (α : Type) := StateT Nat (Except Stop) α

variable {α β σ : Type}

/-- A parser that gives up where there is no value. -/
def orFail : Option α → Parser α
  | some a => pure a
  | none => throw .fail

section reading

variable (input : Text)

/-- The character at the position. -/
def peek : Parser (Option Char) := fun pos =>
  match dropBytes pos input with
  | none => .error .panic
  | some t => .ok (t.head?, pos)

/-- The character at the position, which moves behind it. -/
def bump : Parser (Option Char) := do
  match ← peek input with
  | none => return none
  | some c =>
    modify (· + c.utf8Size)
    return some c

/-- The text between a position and the one there is. -/
def slice (start : Nat) : Parser Text := fun pos =>
  if pos < start then .error .panic
  else
    match (dropBytes start input).bind (takeBytes (pos - start)) with
    | none => .error .panic
    | some t => .ok (t, pos)

/-- Whether the position is at the end. -/
def isEof : Parser Bool := fun pos => .ok (decide (utf8Len input ≤ pos), pos)

end reading

/-- A loop whose body says whether it goes on. -/
def loop (body : σ → Parser (Option σ)) : Nat → σ → Parser σ
  | 0, _ => throw .fuel
  | n + 1, s => do
    match ← body s with
    | none => return s
    | some s' => loop body n s'

/-- Moves behind the characters of a kind. -/
def skipWhile (input : Text) (p : Char → Bool) (fuel : Nat) : Parser Unit :=
  loop (fun _ => do
    match ← peek input with
    | none => return none
    | some c =>
      if p c then
        let _ ← bump input
        return some ()
      else return none) fuel ()

/-- What follows the first operand of a chain: operators, each with an operand behind it, applied from the left. Characters of a
kind may stand before an operator. -/
def chainRest (input : Text) (gap : Char → Bool) (ops : Char → Option (α → α → α)) (operand : Parser α) (fuel : Nat) (lhs : α) :
    Parser (Option α) := do
  skipWhile input gap fuel
  match ← peek input with
  | none => return none
  | some c =>
    match ops c with
    | none => return none
    | some op =>
      let _ ← bump input
      let rhs ← operand
      return some (op lhs rhs)

/-- An operand, and what follows it. -/
def chain (input : Text) (gap : Char → Bool) (ops : Char → Option (α → α → α)) (operand : Parser α) (fuel : Nat) : Parser α := do
  let lhs ← operand
  loop (chainRest input gap ops operand fuel) fuel lhs

/-! ## What a parser does where it stands -/

variable {input : Text}

/-- A position has a text before it and one after it. -/
def At (input : Text) (pos : Nat) (t : Text) : Prop := ∃ pre, input = pre ++ t ∧ pos = utf8Len pre

/-- Before a text, a parser ends with a value, and before another one. -/
def Reads (input : Text) (p : Parser α) (t : Text) (a : α) (t' : Text) : Prop :=
  ∀ pos, At input pos t → ∃ pos', p pos = .ok (a, pos') ∧ At input pos' t'

/-- Before a text, a parser gives up, or ends with a value and before a text that are as they should. -/
def Meets (input : Text) (p : Parser α) (t : Text) (Q : α → Text → Prop) : Prop :=
  ∀ pos, At input pos t → p pos = .error .fail ∨ ∃ a pos' t', p pos = .ok (a, pos') ∧ At input pos' t' ∧ Q a t'

/-- A parser starts before the whole input. -/
theorem At.start (input : Text) : At input 0 input := ⟨[], rfl, rfl⟩

/-- It goes forward by the bytes of what it has read. -/
theorem At.forward {pos : Nat} {a t : Text} (h : At input pos (a ++ t)) : At input (pos + utf8Len a) t := by
  obtain ⟨pre, rfl, rfl⟩ := h
  exact ⟨pre ++ a, by simp, (utf8Len_append pre a).symm⟩

/-- What is left is the input from the position on. -/
theorem At.dropBytes {pos : Nat} {t : Text} (h : At input pos t) : dropBytes pos input = some t := by
  obtain ⟨pre, rfl, rfl⟩ := h
  exact dropBytes_append pre t

/-- Where the same is left, the position is the same. -/
theorem At.pos_eq {pos pos' : Nat} {t : Text} (h : At input pos t) (h' : At input pos' t) : pos = pos' := by
  obtain ⟨pre, rfl, rfl⟩ := h
  obtain ⟨pre', hpre, rfl⟩ := h'
  rw [List.append_cancel_right hpre]

/-! ### Values -/

/-- To return reads nothing. -/
theorem Reads.pure (a : α) (t : Text) : Reads input (Pure.pure a) t a t := fun pos h => ⟨pos, rfl, h⟩

/-- One parser reads on where the other has stopped. -/
theorem Reads.bind {p : Parser α} {f : α → Parser β} {t t' t'' : Text} {a : α} {b : β} (hp : Reads input p t a t')
    (hf : Reads input (f a) t' b t'') : Reads input (p >>= f) t b t'' := by
  intro pos h
  obtain ⟨pos', heq, h'⟩ := hp pos h
  obtain ⟨pos'', heq', h''⟩ := hf pos' h'
  refine ⟨pos'', ?_, h''⟩
  change (p pos >>= fun out => f out.1 out.2) = _
  rw [heq]
  exact heq'

/-- To peek reads nothing, and gives the next character. -/
theorem Reads.peek (t : Text) : Reads input (Cursor.peek input) t t.head? t := by
  intro pos h
  refine ⟨pos, ?_, h⟩
  rw [Cursor.peek, h.dropBytes]

/-- To bump reads one character. -/
theorem Reads.bump (c : Char) (t : Text) : Reads input (Cursor.bump input) (c :: t) (some c) t := by
  refine (Reads.peek (c :: t)).bind ?_
  intro pos h
  refine ⟨pos + c.utf8Size, rfl, ?_⟩
  have hlen : utf8Len [c] = c.utf8Size := by simp [utf8Len]
  exact hlen ▸ At.forward (a := [c]) h

theorem Reads.bump_nil : Reads input (Cursor.bump input) [] none [] := (Reads.peek []).bind (Reads.pure none [])

/-- The text that was read since a position. -/
theorem Reads.slice {start : Nat} {a t : Text} (h : At input start (a ++ t)) : Reads input (Cursor.slice input start) t a t := by
  intro pos hpos
  obtain rfl : pos = start + utf8Len a := hpos.pos_eq h.forward
  refine ⟨start + utf8Len a, ?_, hpos⟩
  rw [Cursor.slice, if_neg (Nat.not_lt.mpr (Nat.le_add_right _ _)), h.dropBytes, Option.bind_some, Nat.add_sub_cancel_left,
    takeBytes_append]

/-- A parser that keeps the position at which it starts. -/
theorem Reads.get_bind {f : Nat → Parser β} {t t' : Text} {b : β} (h : ∀ pos, At input pos t → Reads input (f pos) t b t') :
    Reads input (get >>= f) t b t' := fun pos hpos => h pos hpos pos hpos

/-- The end of the input is where nothing is left. -/
theorem Reads.isEof (t : Text) : Reads input (Cursor.isEof input) t t.isEmpty t := by
  intro pos h
  refine ⟨pos, ?_, h⟩
  obtain ⟨pre, rfl, rfl⟩ := h
  rw [Cursor.isEof, utf8Len_append]
  cases t with
  | nil => simp
  | cons c t =>
    have := c.utf8Size_pos
    rw [utf8Len_cons, decide_eq_false (by omega)]
    rfl

/-! ### Conditions -/

/-- What is read meets what it is known to. -/
theorem Reads.meets {p : Parser α} {t t' : Text} {a : α} {Q : α → Text → Prop} (h : Reads input p t a t') (hQ : Q a t') :
    Meets input p t Q := by
  intro pos hpos
  obtain ⟨pos', heq, h'⟩ := h pos hpos
  exact .inr ⟨a, pos', t', heq, h', hQ⟩

/-- A condition that follows is met as well. -/
theorem Meets.mono {p : Parser α} {t : Text} {Q R : α → Text → Prop} (h : Meets input p t Q)
    (hQR : ∀ a t', Q a t' → R a t') : Meets input p t R := by
  intro pos hpos
  rcases h pos hpos with hfail | ⟨a, pos', t', heq, h', hQ⟩
  · exact .inl hfail
  · exact .inr ⟨a, pos', t', heq, h', hQR a t' hQ⟩

/-- What comes after goes on from a condition of what came before. -/
theorem Meets.bind {p : Parser α} {f : α → Parser β} {t : Text} {Q : α → Text → Prop} {R : β → Text → Prop}
    (hp : Meets input p t Q) (hf : ∀ a t', Q a t' → Meets input (f a) t' R) : Meets input (p >>= f) t R := by
  intro pos hpos
  change (p pos >>= fun out => f out.1 out.2) = _ ∨ ∃ a pos' t', (p pos >>= fun out => f out.1 out.2) = _ ∧ _
  rcases hp pos hpos with hfail | ⟨a, pos', t', heq, h', hQ⟩
  · rw [hfail]
    exact .inl rfl
  · rw [heq]
    exact hf a t' hQ pos' h'

/-- A step that is known, and what comes after it. -/
theorem Reads.bind_meets {p : Parser α} {f : α → Parser β} {t t' : Text} {a : α} {R : β → Text → Prop}
    (hp : Reads input p t a t') (hf : Meets input (f a) t' R) : Meets input (p >>= f) t R := by
  have hmeets : Meets input p t fun x u => x = a ∧ u = t' := hp.meets ⟨rfl, rfl⟩
  refine hmeets.bind fun x u h => ?_
  rw [h.1, h.2]
  exact hf

/-- To fail meets every condition. -/
theorem Meets.fail {t : Text} {Q : α → Text → Prop} : Meets input (throw .fail : Parser α) t Q := fun _ _ => .inl rfl

/-- To go on with a value that is there meets what is known of it. -/
theorem Meets.orFail {o : Option α} {t : Text} {Q : α → Text → Prop} (h : ∀ a, o = some a → Q a t) :
    Meets input (Cursor.orFail o) t Q := by
  cases o with
  | none => exact Meets.fail
  | some a => exact (Reads.pure a t).meets (h a rfl)

/-- What looks at the position may rely on where it is. -/
theorem Meets.get_bind {f : Nat → Parser β} {t : Text} {Q : β → Text → Prop}
    (h : ∀ pos, At input pos t → Meets input (f pos) t Q) : Meets input (get >>= f) t Q := fun pos hpos => h pos hpos pos hpos

/-! ### Loops -/

/-- A loop goes on with what its body leaves. -/
theorem Reads.loop_step {body : σ → Parser (Option σ)} {n : Nat} {s u a : σ} {t r t' : Text}
    (hbody : Reads input (body s) t (some u) r) (hrest : Reads input (loop body n u) r a t') :
    Reads input (loop body (n + 1) s) t a t' := hbody.bind hrest

/-- A loop ends where its body says so. -/
theorem Reads.loop_stop {body : σ → Parser (Option σ)} {n : Nat} {s : σ} {t t' : Text}
    (hbody : Reads input (body s) t none t') : Reads input (loop body (n + 1) s) t s t' := hbody.bind (Reads.pure s t')

/-- A loop whose body keeps an invariant and reads on ends with what its body ends with, when it has more steps than there are
characters. -/
theorem Meets.loop {body : σ → Parser (Option σ)} {I Q : σ → Text → Prop}
    (hbody : ∀ s t, I s t → Meets input (body s) t fun o t' =>
      match o with
      | none => Q s t'
      | some s' => I s' t' ∧ t'.length < t.length)
    {n : Nat} {s : σ} {t : Text} (hn : t.length < n) (hI : I s t) : Meets input (loop body n s) t Q := by
  induction n generalizing s t with
  | zero => exact absurd hn (Nat.not_lt_zero _)
  | succ n ih =>
    refine (hbody s t hI).bind fun o t' h => ?_
    cases o with
    | none => exact (Reads.pure s t').meets h
    | some s' => exact ih (Nat.lt_of_lt_of_le h.2 (Nat.le_of_lt_succ hn)) h.1

/-- To skip reads the longest beginning of such characters. -/
theorem Reads.skipWhile (p : Char → Bool) {fuel : Nat} {t : Text} (h : t.length < fuel) :
    Reads input (Cursor.skipWhile input p fuel) t () (t.dropWhile p) := by
  induction t generalizing fuel with
  | nil =>
    obtain ⟨fuel, rfl⟩ := Nat.exists_eq_add_one.mpr h
    exact Reads.loop_stop ((Reads.peek []).bind (Reads.pure none []))
  | cons c t ih =>
    obtain ⟨fuel, rfl⟩ := Nat.exists_eq_add_one.mpr (Nat.lt_of_le_of_lt (Nat.zero_le _) h)
    by_cases hc : p c = true
    · rw [List.dropWhile_cons_of_pos hc]
      refine Reads.loop_step (u := ()) ((Reads.peek (c :: t)).bind ?_) (ih (Nat.lt_of_succ_lt_succ h))
      simp only [List.head?_cons, hc, if_true]
      exact (Reads.bump c t).bind (Reads.pure (some ()) t)
    · rw [List.dropWhile_cons_of_neg hc]
      refine Reads.loop_stop ((Reads.peek (c :: t)).bind ?_)
      simp only [List.head?_cons, hc]
      exact Reads.pure none (c :: t)

/-! ## Chains -/

variable {gap : Char → Bool} {ops : Char → Option (α → α → α)}

/-- A text of characters of a kind only. -/
def Gap (gap : Char → Bool) (w : Text) : Prop := ∀ c ∈ w, gap c = true

/-- The texts that are operands joined by operators, and their values. Gaps may stand around an operator. -/
inductive Chain (gap : Char → Bool) (ops : Char → Option (α → α → α)) (Operand : Text → α → Prop) : Text → α → Prop
  | one {a : Text} {v : α} (h : Operand a v) : Chain gap ops Operand a v
  | more {a w w' b : Text} {v v' : α} {c : Char} {op : α → α → α} (h : Chain gap ops Operand a v) (hw : Gap gap w)
      (hop : ops c = some op) (hw' : Gap gap w') (h' : Operand b v') :
      Chain gap ops Operand (a ++ w ++ c :: (w' ++ b)) (op v v')

/-- What was read is a text of a grammar, with gaps around it. -/
def Took (gap : Char → Bool) (D : Text → α → Prop) (t : Text) (v : α) (t' : Text) : Prop :=
  ∃ w a w', t = w ++ a ++ w' ++ t' ∧ Gap gap w ∧ Gap gap w' ∧ D a v

/-- A parser reads the texts of a grammar, also behind a gap, when what follows them is as it should. It may go on over a gap. -/
def ReadsAll (input : Text) (gap : Char → Bool) (fuel : Nat) (p : Parser α) (D : Text → α → Prop) (S : Text → Prop) : Prop :=
  ∀ w a v rest, Gap gap w → D a v → S rest → (w ++ a ++ rest).length < fuel →
    ∃ rest', rest'.dropWhile gap = rest.dropWhile gap ∧ rest'.length ≤ rest.length ∧ Reads input p (w ++ a ++ rest) v rest'

theorem Gap.nil : Gap gap [] := by simp [Gap]

/-- A gap after a gap. -/
theorem Gap.append {w w' : Text} (h : Gap gap w) (h' : Gap gap w') : Gap gap (w ++ w') := by
  intro c hc
  rcases List.mem_append.mp hc with hc | hc
  · exact h c hc
  · exact h' c hc

/-- What is skipped is a gap. -/
theorem Gap.takeWhile (t : Text) : Gap gap (t.takeWhile gap) := fun _ hc => List.mem_takeWhile_imp hc

/-- A gap is skipped as a whole. -/
theorem Gap.dropWhile {w : Text} (h : Gap gap w) (t : Text) : (w ++ t).dropWhile gap = t.dropWhile gap :=
  List.dropWhile_append_of_pos h

/-- What is left is no longer than what there was. -/
theorem Took.length_le {D : Text → α → Prop} {t t' : Text} {v : α} (h : Took gap D t v t') : t'.length ≤ t.length := by
  obtain ⟨w, a, w', rfl, _⟩ := h
  rw [List.length_append]
  exact Nat.le_add_left _ _

/-- The gap behind what was read belongs to it. -/
theorem Took.skip {D : Text → α → Prop} {t t' : Text} {v : α} (h : Took gap D t v t') : Took gap D t v (t'.dropWhile gap) := by
  obtain ⟨w, a, w', rfl, hw, hw', ha⟩ := h
  refine ⟨w, a, w' ++ t'.takeWhile gap, ?_, hw, hw'.append (Gap.takeWhile t'), ha⟩
  rw [List.append_assoc _ _ (t'.dropWhile gap), List.append_assoc w', List.takeWhile_append_dropWhile, List.append_assoc (w ++ a)]

/-- One more operator and its operand. -/
theorem Took.more {Operand : Text → α → Prop} {t u t' : Text} {v v' : α} {c : Char} {op : α → α → α}
    (h : Took gap (Chain gap ops Operand) t v (c :: u)) (hop : ops c = some op) (h' : Took gap Operand u v' t') :
    Took gap (Chain gap ops Operand) t (op v v') t' := by
  obtain ⟨w, a, w₁, rfl, hw, hw₁, ha⟩ := h
  obtain ⟨w₂, b, w', rfl, hw₂, hw', hb⟩ := h'
  exact ⟨w, a ++ w₁ ++ c :: (w₂ ++ b), w', by simp, hw, hw', .more ha hw₁ hop hw₂ hb⟩

/-- A parser of chains reads nothing else. -/
theorem Meets.chain {Operand : Text → α → Prop} {operand : Parser α} {fuel : Nat}
    (hoperand : ∀ u, u.length < fuel → Meets input operand u (Took gap Operand u)) {t : Text} (ht : t.length < fuel) :
    Meets input (Cursor.chain input gap ops operand fuel) t (Took gap (Chain gap ops Operand) t) := by
  refine (hoperand t ht).bind fun v u hu => ?_
  have hfirst : Took gap (Chain gap ops Operand) t v u := by
    obtain ⟨w, a, w', heq, hw, hw', ha⟩ := hu
    exact ⟨w, a, w', heq, hw, hw', .one ha⟩
  refine Meets.loop (I := Took gap (Chain gap ops Operand) t) ?_ (Nat.lt_of_le_of_lt hu.length_le ht) hfirst
  intro lhs u hlhs
  have hu := Nat.lt_of_le_of_lt hlhs.length_le ht
  have hskip := hlhs.skip
  have hshort : (u.dropWhile gap).length ≤ u.length := (List.dropWhile_suffix gap).length_le
  refine (Reads.skipWhile gap hu).bind_meets ((Reads.peek _).bind_meets ?_)
  cases hrest : u.dropWhile gap with
  | nil => exact (Reads.pure none []).meets (hrest ▸ hskip)
  | cons c r =>
    rw [hrest] at hskip hshort
    simp only [List.head?_cons]
    cases hop : ops c with
    | none => exact (Reads.pure none (c :: r)).meets hskip
    | some op =>
      refine (Reads.bump c r).bind_meets ?_
      refine (hoperand r (Nat.lt_of_lt_of_le hshort (Nat.le_of_lt hu))).bind fun rhs r' hr => ?_
      exact (Reads.pure _ r').meets ⟨hskip.more hop hr, Nat.lt_of_le_of_lt hr.length_le hshort⟩

/-- A chain is read as far as the loop goes on behind it. -/
theorem Reads.chain_of_loop {Operand : Text → α → Prop} {S : Text → Prop} {operand : Parser α} {fuel : Nat}
    (hoperand : ReadsAll input gap fuel operand Operand S) (hops : ∀ c op, ops c = some op → gap c = false)
    (hS : ∀ w c op t, Gap gap w → ops c = some op → S (w ++ c :: t)) {w a rest : Text} {v x : α} {t' : Text} (hw : Gap gap w)
    (ha : Chain gap ops Operand a v) (hrest : S rest) (hlen : (w ++ a ++ rest).length < fuel)
    (hloop : ∀ n rest', rest'.dropWhile gap = rest.dropWhile gap → rest'.length ≤ rest.length → rest.length < n →
      Reads input (loop (chainRest input gap ops operand fuel) n v) rest' x t') :
    Reads input (Cursor.chain input gap ops operand fuel) (w ++ a ++ rest) x t' := by
  induction ha generalizing rest x t' with
  | one ha =>
    obtain ⟨rest', hsame, hle, hreads⟩ := hoperand w _ _ rest hw ha hrest hlen
    refine hreads.bind (hloop fuel rest' hsame hle ?_)
    rw [List.length_append] at hlen
    omega
  | @more a w₁ w₂ b v v' c op _ hw₁ hop hw₂ hb ih =>
    have heq : w ++ (a ++ w₁ ++ c :: (w₂ ++ b)) ++ rest = w ++ a ++ (w₁ ++ c :: (w₂ ++ b ++ rest)) := by simp
    rw [heq] at hlen ⊢
    refine ih (hS _ _ _ _ hw₁ hop) hlen ?_
    intro n rest' hsame hle hn
    obtain ⟨n, rfl⟩ := Nat.exists_eq_add_one.mpr (Nat.lt_of_le_of_lt (Nat.zero_le _) hn)
    rw [hw₁.dropWhile, List.dropWhile_cons_of_neg (by simp [hops c op hop])] at hsame
    simp only [List.length_append, List.length_cons] at hlen hle hn
    obtain ⟨r, hr, hrle, hreads⟩ := hoperand w₂ b v' rest hw₂ hb hrest (by simp only [List.length_append]; omega)
    refine Reads.loop_step (u := op v v') (r := r) ?_ (hloop n r hr hrle (by omega))
    refine (Reads.skipWhile gap (by omega)).bind ?_
    rw [hsame]
    refine (Reads.peek _).bind ?_
    simp only [List.head?_cons, hop]
    exact (Reads.bump c _).bind (hreads.bind (Reads.pure _ r))

/-- A parser of chains reads all of them. -/
theorem ReadsAll.chain {Operand : Text → α → Prop} {S S' : Text → Prop} {operand : Parser α} {fuel : Nat}
    (hoperand : ReadsAll input gap fuel operand Operand S) (hops : ∀ c op, ops c = some op → gap c = false)
    (hS : ∀ w c op t, Gap gap w → ops c = some op → S (w ++ c :: t))
    (hS' : ∀ rest, S' rest → S rest ∧ ∀ c ∈ (rest.dropWhile gap).head?, ops c = none) :
    ReadsAll input gap fuel (Cursor.chain input gap ops operand fuel) (Chain gap ops Operand) S' := by
  intro w a v rest hw ha hrest hlen
  obtain ⟨hrest, hstop⟩ := hS' rest hrest
  refine ⟨rest.dropWhile gap, List.dropWhile_idempotent gap rest, (List.dropWhile_suffix gap).length_le, ?_⟩
  refine Reads.chain_of_loop hoperand hops hS hw ha hrest hlen ?_
  intro n rest' hsame hle hn
  obtain ⟨n, rfl⟩ := Nat.exists_eq_add_one.mpr (Nat.lt_of_le_of_lt (Nat.zero_le _) hn)
  have hfuel : rest'.length < fuel := by
    rw [List.length_append] at hlen
    omega
  refine Reads.loop_stop ((Reads.skipWhile gap hfuel).bind ?_)
  rw [hsame]
  refine (Reads.peek _).bind ?_
  cases hr : rest.dropWhile gap with
  | nil => exact Reads.pure none []
  | cons c r =>
    have hc : ops c = none := hstop c (by simp [hr])
    simp only [List.head?_cons, hc]
    exact Reads.pure none (c :: r)

end Cursor
