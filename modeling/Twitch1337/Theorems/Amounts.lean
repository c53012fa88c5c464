import Twitch1337.Bot.DoenerCalc

/-!
# Which amounts are read

The grammar of the amounts, and that the recursive descent reads its texts and no others, on any input.
-/

namespace Twitch1337.DoenerCalc

open Text RustStr Cursor

/-! ## The grammar -/

/-- Digits, points and commas, with a digit among them. -/
structure Mantissa (m : Text) : Prop where
  chars : ∀ c ∈ m, c.isDigit = true ∨ c = '.' ∨ c = ','
  digit : ∃ c ∈ m, c.isDigit = true

/-- What may stand between the letter of an exponent and its digits. -/
def ExpSign (sign : Text) : Prop := sign = [] ∨ sign = ['+'] ∨ sign = ['-']

/-- The texts of numbers: a mantissa, and an exponent if there is one. -/
inductive Number : Text → Prop
  | plain {m : Text} (hm : Mantissa m) : Number m
  | exponent {m sign ds : Text} {e : Char} (hm : Mantissa m) (he : e = 'e' ∨ e = 'E') (hsign : ExpSign sign)
      (hds : ∀ c ∈ ds, c.isDigit = true) (hne : ds ≠ []) : Number (m ++ e :: (sign ++ ds))

variable {V : Type} (A : Arith V)

/-- The texts of signs, with a gap behind each, and what they make of a value. -/
inductive Signs : V → Text → V → Prop
  | nil (s : V) : Signs s [] s
  | plus {s v : V} {w t : Text} (hw : Gap isWhitespace w) (h : Signs s t v) : Signs s ('+' :: (w ++ t)) v
  | minus {s v : V} {w t : Text} (hw : Gap isWhitespace w) (h : Signs (A.neg s) t v) : Signs s ('-' :: (w ++ t)) v

/-- The texts of factors and their values: signs before a number or before an expression in parentheses. A term is a chain of
factors, and an expression is a chain of terms. -/
inductive Factor : Text → V → Prop
  | number {signs t : Text} {sign v : V} (hs : Signs A A.one signs sign) (ht : Number t)
      (hv : A.parseNumberLiteral t = some v) : Factor (signs ++ t) (A.mul sign v)
  | paren {signs w t w' : Text} {sign v : V} (hs : Signs A A.one signs sign) (hw : Gap isWhitespace w)
      (h : Chain isWhitespace (sums A) (Chain isWhitespace (products A) Factor) t v) (hw' : Gap isWhitespace w') :
      Factor (signs ++ '(' :: (w ++ t ++ w' ++ [')'])) (A.mul sign v)

def Term : Text → V → Prop := Chain isWhitespace (products A) (Factor A)

def Expr : Text → V → Prop := Chain isWhitespace (sums A) (Term A)

/-- The texts of amounts: an expression, a euro sign if there is one, and whitespace between them and around. -/
def Amount (raw : Text) (v : V) : Prop :=
  ∃ w a w' euro w'', raw = w ++ a ++ w' ++ euro ++ w'' ∧ Gap isWhitespace w ∧ Gap isWhitespace w' ∧ Gap isWhitespace w'' ∧
    (euro = [] ∨ euro = ['€']) ∧ Expr A a v

/-! ## The ends of a text -/

/-- A text that starts without whitespace, and ends with neither whitespace nor a euro sign. -/
structure Framed (t : Text) : Prop where
  starts : ∃ c r, t = c :: r ∧ isWhitespace c = false
  ends : ∃ r c, t = r ++ [c] ∧ isWhitespace c = false ∧ c ≠ '€'

/-- The characters of numbers. -/
theorem solid_of_number {t : Text} (h : Number t) : t ≠ [] ∧ ∀ c ∈ t, isWhitespace c = false ∧ c ≠ '€' := by
  have hdigit : ∀ c : Char, c.isDigit = true → isWhitespace c = false ∧ c ≠ '€' := by
    intro c hc
    refine ⟨not_isWhitespace_of_isDigit hc, ?_⟩
    rintro rfl
    exact absurd hc (by decide)
  have hmantissa : ∀ m : Text, Mantissa m → m ≠ [] ∧ ∀ c ∈ m, isWhitespace c = false ∧ c ≠ '€' := by
    intro m hm
    refine ⟨?_, fun c hc => ?_⟩
    · rintro rfl
      obtain ⟨c, hc, _⟩ := hm.digit
      exact absurd hc List.not_mem_nil
    · rcases hm.chars c hc with hc | rfl | rfl
      · exact hdigit c hc
      · decide
      · decide
  cases h with
  | plain hm => exact hmantissa t hm
  | @exponent m sign ds e hm he hsign hds hne =>
    refine ⟨by simp, fun c hc => ?_⟩
    rw [List.mem_append, List.mem_cons, List.mem_append] at hc
    rcases hc with hc | rfl | hc | hc
    · exact (hmantissa m hm).2 c hc
    · rcases he with rfl | rfl <;> decide
    · rcases hsign with rfl | rfl | rfl
      · exact absurd hc List.not_mem_nil
      · rw [List.mem_singleton.mp hc]
        decide
      · rw [List.mem_singleton.mp hc]
        decide
    · exact hdigit c (hds c hc)

/-- A number has no blank at its ends. -/
theorem framed_of_number {t : Text} (h : Number t) : Framed t := by
  obtain ⟨hne, hsolid⟩ := solid_of_number h
  constructor
  · obtain ⟨c, r, rfl⟩ := List.exists_cons_of_ne_nil hne
    exact ⟨c, r, rfl, (hsolid c List.mem_cons_self).1⟩
  · refine ⟨t.dropLast, t.getLast hne, (List.dropLast_append_getLast hne).symm, ?_⟩
    exact hsolid _ (List.getLast_mem hne)

/-- What stands before a text leaves its end. -/
theorem Framed.append {a b : Text} (ha : ∃ c r, a = c :: r ∧ isWhitespace c = false) (hb : Framed b) : Framed (a ++ b) := by
  obtain ⟨c, r, rfl, hc⟩ := ha
  obtain ⟨r', c', rfl, hc'⟩ := hb.ends
  exact ⟨⟨c, r ++ (r' ++ [c']), rfl, hc⟩, ⟨c :: r ++ r', c', by simp, hc'⟩⟩

variable {A}

/-- Signs start with a sign. -/
theorem Signs.starts {s v : V} {t : Text} (h : Signs A s t v) : t = [] ∨ ∃ c r, t = c :: r ∧ isWhitespace c = false := by
  cases h with
  | nil => exact .inl rfl
  | plus hw h => exact .inr ⟨'+', _, rfl, by decide⟩
  | minus hw h => exact .inr ⟨'-', _, rfl, by decide⟩

/-- A framed text with signs before it is framed. -/
theorem Signs.framed {s v : V} {signs t : Text} (h : Signs A s signs v) (ht : Framed t) : Framed (signs ++ t) := by
  rcases h.starts with rfl | hsigns
  · exact ht
  · exact ht.append hsigns

/-- A factor is framed. -/
theorem Factor.framed {t : Text} {v : V} (h : Factor A t v) : Framed t := by
  cases h with
  | number hs ht _ => exact hs.framed (framed_of_number ht)
  | paren hs _ _ _ => exact hs.framed ⟨⟨'(', _, rfl, by decide⟩, ⟨'(' :: (_ ++ _ ++ _), ')', by simp; rfl, by decide, by decide⟩⟩

/-- A chain of framed texts is framed. -/
theorem framed_chain {ops : Char → Option (V → V → V)} {D : Text → V → Prop} (hD : ∀ t v, D t v → Framed t) {t : Text} {v : V}
    (h : Chain isWhitespace ops D t v) : Framed t := by
  induction h with
  | one h => exact hD _ _ h
  | @more a w w' b v v' c op _ _ _ _ hb ih =>
    obtain ⟨x, r, rfl, hx⟩ := ih.starts
    have heq : x :: r ++ w ++ c :: (w' ++ b) = (x :: (r ++ w ++ c :: w')) ++ b := by simp
    rw [heq]
    exact (hD b v' hb).append ⟨x, _, rfl, hx⟩

/-- An expression is framed. -/
theorem Expr.framed {t : Text} {v : V} (h : Expr A t v) : Framed t :=
  framed_chain (fun _ _ ht => framed_chain (fun _ _ hf => hf.framed) ht) h

/-! ## Numbers -/

/-- What the loop over a number has seen, and the text it is about. -/
inductive Scanned : NumberScan → Text → Prop
  | mantissa {a : Text} (h : ∀ c ∈ a, c.isDigit = true ∨ c = '.' ∨ c = ',') : Scanned ⟨a.any Char.isDigit, false, false⟩ a
  | exponent {m sign ds : Text} {e : Char} (hm : Mantissa m) (he : e = 'e' ∨ e = 'E') (hsign : ExpSign sign)
      (hds : ∀ c ∈ ds, c.isDigit = true) : Scanned ⟨true, true, ds.isEmpty⟩ (m ++ e :: (sign ++ ds))

/-- What was scanned to its end is a number. -/
theorem Scanned.number {s : NumberScan} {a : Text} (h : Scanned s a) (hok : (!s.sawDigit || s.needExpDigit) = false) :
    Number a := by
  cases h with
  | mantissa h =>
    simp only [Bool.or_false, Bool.not_eq_false'] at hok
    exact .plain ⟨h, List.any_eq_true.mp hok⟩
  | exponent hm he hsign hds =>
    simp only [Bool.not_true, Bool.false_or, List.isEmpty_eq_false_iff] at hok
    exact .exponent hm he hsign hds hok

/-- A digit can follow anything. -/
theorem Scanned.digit {s : NumberScan} {a : Text} (h : Scanned s a) {c : Char} (hc : c.isDigit = true) :
    Scanned { s with sawDigit := true, needExpDigit := false } (a ++ [c]) := by
  cases h with
  | mantissa h =>
    have hany : (a ++ [c]).any Char.isDigit = true := by simp [hc]
    rw [← hany]
    refine .mantissa fun x hx => ?_
    rcases List.mem_append.mp hx with hx | hx
    · exact h x hx
    · exact .inl (List.mem_singleton.mp hx ▸ hc)
  | @exponent m sign ds e hm he hsign hds =>
    have heq : m ++ e :: (sign ++ ds) ++ [c] = m ++ e :: (sign ++ (ds ++ [c])) := by simp
    have hempty : (ds ++ [c]).isEmpty = false := by simp
    rw [heq, ← hempty]
    refine .exponent hm he hsign fun x hx => ?_
    rcases List.mem_append.mp hx with hx | hx
    · exact hds x hx
    · exact List.mem_singleton.mp hx ▸ hc

/-- A point, or a comma, can follow what has no exponent. -/
theorem Scanned.point {s : NumberScan} {a : Text} (h : Scanned s a) (hs : s.sawExp = false) {c : Char}
    (hc : c.isDigit = false) (hpoint : c = '.' ∨ c = ',') : Scanned s (a ++ [c]) := by
  cases h with
  | mantissa h =>
    have hany : a.any Char.isDigit = (a ++ [c]).any Char.isDigit := by simp [hc]
    rw [hany]
    refine .mantissa fun x hx => ?_
    rcases List.mem_append.mp hx with hx | hx
    · exact h x hx
    · exact .inr (List.mem_singleton.mp hx ▸ hpoint)
  | exponent => cases hs

/-- An exponent can follow digits, once. -/
theorem Scanned.exp {s : NumberScan} {a : Text} (h : Scanned s a) (hs : s.sawExp = false) (hdigit : s.sawDigit = true) {c : Char}
    (hc : c = 'e' ∨ c = 'E') {sign : Text} (hsign : ExpSign sign) :
    Scanned { s with sawExp := true, needExpDigit := true } (a ++ c :: sign) := by
  cases h with
  | mantissa h =>
    have hany : a.any Char.isDigit = true := hdigit
    have hexp : Scanned ⟨true, true, ([] : Text).isEmpty⟩ (a ++ c :: (sign ++ [])) :=
      .exponent ⟨h, List.any_eq_true.mp hany⟩ hc hsign (by simp)
    rw [List.append_nil] at hexp
    rw [hany]
    exact hexp
  | exponent => cases hs

variable {input : Text} {fuel : Nat}

/-- One character of a number, or three. -/
theorem numberStep_meets {s : NumberScan} {a t : Text} (h : Scanned s a) :
    Meets input (numberStep input s) t fun o t' =>
      match o with
      | none => t' = t
      | some s' => ∃ b, t = b ++ t' ∧ b ≠ [] ∧ Scanned s' (a ++ b) := by
  refine (Reads.peek t).bind_meets ?_
  cases t with
  | nil => exact (Reads.pure none []).meets rfl
  | cons c t =>
    simp only [List.head?_cons]
    by_cases hdigit : c.isDigit = true
    · rw [if_pos hdigit]
      exact (Reads.bump c t).bind_meets ((Reads.pure _ t).meets ⟨[c], rfl, by simp, h.digit hdigit⟩)
    rw [if_neg hdigit]
    by_cases hpoint : (!s.sawExp && (c == '.' || c == ',')) = true
    · rw [if_pos hpoint]
      simp only [Bool.and_eq_true, Bool.not_eq_true', Bool.or_eq_true, beq_iff_eq] at hpoint
      exact (Reads.bump c t).bind_meets
        ((Reads.pure _ t).meets ⟨[c], rfl, by simp, h.point hpoint.1 (Bool.not_eq_true _ ▸ hdigit) hpoint.2⟩)
    rw [if_neg hpoint]
    by_cases hexp : (!s.sawExp && (c == 'e' || c == 'E') && s.sawDigit) = true
    · rw [if_pos hexp]
      simp only [Bool.and_eq_true, Bool.not_eq_true', Bool.or_eq_true, beq_iff_eq] at hexp
      obtain ⟨⟨hnew, hc⟩, hsaw⟩ := hexp
      refine (Reads.bump c t).bind_meets ((Reads.peek t).bind_meets ?_)
      by_cases hsign : t.head? = some '+' ∨ t.head? = some '-'
      · rw [if_pos hsign]
        obtain ⟨d, r, rfl, hd⟩ : ∃ d r, t = d :: r ∧ (d = '+' ∨ d = '-') := by
          cases t with
          | nil => simp at hsign
          | cons d r => exact ⟨d, r, rfl, by simpa using hsign⟩
        refine (Reads.bump d r).bind_meets ((Reads.pure _ r).meets ⟨[c, d], rfl, by simp, h.exp hnew hsaw hc ?_⟩)
        rcases hd with rfl | rfl
        · exact .inr (.inl rfl)
        · exact .inr (.inr rfl)
      · rw [if_neg hsign]
        exact (Reads.pure _ t).meets ⟨[c], rfl, by simp, h.exp hnew hsaw hc (.inl rfl)⟩
    · rw [if_neg hexp]
      exact (Reads.pure none (c :: t)).meets rfl

/-- The number at a place, if there is one. -/
theorem parseNumber_meets {t : Text} (ht : t.length < fuel) :
    Meets input (parseNumber A input fuel) t fun v t' =>
      ∃ w a, t = w ++ a ++ t' ∧ Gap isWhitespace w ∧ Number a ∧ A.parseNumberLiteral a = some v := by
  have hsplit : t.takeWhile isWhitespace ++ t.dropWhile isWhitespace = t := List.takeWhile_append_dropWhile
  have hshort : (t.dropWhile isWhitespace).length < fuel :=
    Nat.lt_of_le_of_lt (List.dropWhile_suffix isWhitespace).length_le ht
  refine (Reads.skipWhile isWhitespace ht).bind_meets (Meets.get_bind fun pos hpos => ?_)
  generalize t.dropWhile isWhitespace = u at hsplit hshort hpos
  have hstart : Scanned {} [] := Scanned.mantissa (a := []) (by simp)
  have hloop : Meets input (loop (numberStep input) fuel {}) u fun s t' => ∃ a, u = a ++ t' ∧ Scanned s a := by
    refine Meets.loop (I := fun s t' => ∃ a, u = a ++ t' ∧ Scanned s a) ?_ hshort ⟨[], rfl, hstart⟩
    rintro s r ⟨a, hu, ha⟩
    have hstep : Meets input (numberStep input s) r _ := numberStep_meets ha
    refine hstep.mono fun o r' ho => ?_
    cases o with
    | none => exact ⟨a, (show r' = r from ho) ▸ hu, ha⟩
    | some s' =>
      obtain ⟨b, rfl, hne, hb⟩ := ho
      have := List.length_pos_iff.mpr hne
      exact ⟨⟨a ++ b, by rw [hu, List.append_assoc], hb⟩, by rw [List.length_append]; omega⟩
  refine hloop.bind ?_
  rintro s t' ⟨a, rfl, ha⟩
  by_cases hok : (!s.sawDigit || s.needExpDigit) = true
  · rw [if_pos hok]
    exact Meets.fail
  · rw [if_neg hok]
    refine (Reads.slice hpos).bind_meets (Meets.orFail fun v hv => ?_)
    exact ⟨_, a, by rw [List.append_assoc, hsplit], Gap.takeWhile t, ha.number (Bool.not_eq_true _ ▸ hok), hv⟩

/-- What may stand behind a number. -/
def NumberStop (rest : Text) : Prop :=
  ∀ c ∈ rest.head?, c.isDigit = false ∧ c ≠ '.' ∧ c ≠ ',' ∧ c ≠ 'e' ∧ c ≠ 'E'

/-- The scan ends where nothing more of a number stands. -/
theorem numberStep_stop {rest : Text} (h : NumberStop rest) (s : NumberScan) :
    Reads input (numberStep input s) rest none rest := by
  refine (Reads.peek rest).bind ?_
  cases rest with
  | nil => exact Reads.pure none []
  | cons c rest =>
    obtain ⟨hdigit, hpoint, hcomma, he, hE⟩ := h c rfl
    simp only [List.head?_cons, hdigit, beq_false_of_ne hpoint, beq_false_of_ne hcomma, beq_false_of_ne he, beq_false_of_ne hE,
      Bool.or_self, Bool.and_false, Bool.false_and, Bool.false_eq_true, if_false]
    exact Reads.pure none (c :: rest)

/-- A digit is taken. -/
theorem numberStep_digit (s : NumberScan) {c : Char} (hc : c.isDigit = true) (t : Text) :
    Reads input (numberStep input s) (c :: t) (some { s with sawDigit := true, needExpDigit := false }) t := by
  refine (Reads.peek (c :: t)).bind ?_
  simp only [List.head?_cons, if_pos hc]
  exact (Reads.bump c t).bind (Reads.pure _ t)

/-- A loop over a number goes through its mantissa. -/
theorem reads_mantissa {m : Text} (hm : ∀ c ∈ m, c.isDigit = true ∨ c = '.' ∨ c = ',') {seen : Bool} {n : Nat} {rest t' : Text}
    {s : NumberScan} (hn : (m ++ rest).length < n)
    (hrest : ∀ n, rest.length < n →
      Reads input (loop (numberStep input) n ⟨seen || m.any Char.isDigit, false, false⟩) rest s t') :
    Reads input (loop (numberStep input) n ⟨seen, false, false⟩) (m ++ rest) s t' := by
  induction m generalizing seen n with
  | nil =>
    rw [List.any_nil, Bool.or_false] at hrest
    exact hrest n hn
  | cons c m ih =>
    obtain ⟨n, rfl⟩ := Nat.exists_eq_add_one.mpr (Nat.lt_of_le_of_lt (Nat.zero_le _) hn)
    have hmore : ∀ x ∈ m, x.isDigit = true ∨ x = '.' ∨ x = ',' := fun x hx => hm x (List.mem_cons_of_mem c hx)
    have hshort : (m ++ rest).length < n := Nat.lt_of_succ_lt_succ hn
    by_cases hc : c.isDigit = true
    · refine Reads.loop_step (numberStep_digit _ hc (m ++ rest)) (ih hmore hshort fun n hn => ?_)
      have := hrest n hn
      rwa [List.any_cons, hc, Bool.true_or, Bool.or_true] at this
    · have hpoint : (c == '.' || c == ',') = true := by
        rcases hm c List.mem_cons_self with h | rfl | rfl
        · exact absurd h hc
        · rfl
        · rfl
      refine Reads.loop_step (u := ⟨seen, false, false⟩) (r := m ++ rest) ?_ (ih hmore hshort fun n hn => ?_)
      · refine (Reads.peek _).bind ?_
        simp only [List.cons_append, List.head?_cons, if_neg hc, hpoint, Bool.not_false, Bool.and_self, if_true]
        exact (Reads.bump c (m ++ rest)).bind (Reads.pure _ (m ++ rest))
      · have := hrest n hn
        rwa [List.any_cons, Bool.eq_false_of_not_eq_true hc, Bool.false_or] at this

/-- A loop over a number goes through the digits of its exponent. -/
theorem reads_digits {ds : Text} (hds : ∀ c ∈ ds, c.isDigit = true) {need : Bool} {n : Nat} {rest : Text} (hrest : NumberStop rest)
    (hn : (ds ++ rest).length < n) :
    Reads input (loop (numberStep input) n ⟨true, true, need⟩) (ds ++ rest) ⟨true, true, ds.isEmpty && need⟩ rest := by
  induction ds generalizing need n with
  | nil =>
    obtain ⟨n, rfl⟩ := Nat.exists_eq_add_one.mpr (Nat.lt_of_le_of_lt (Nat.zero_le _) hn)
    exact Reads.loop_stop (numberStep_stop hrest _)
  | cons c ds ih =>
    obtain ⟨n, rfl⟩ := Nat.exists_eq_add_one.mpr (Nat.lt_of_le_of_lt (Nat.zero_le _) hn)
    have hrun : Reads input (loop (numberStep input) n ⟨true, true, false⟩) (ds ++ rest) ⟨true, true, ds.isEmpty && false⟩ rest :=
      ih (fun x hx => hds x (List.mem_cons_of_mem c hx)) (Nat.lt_of_succ_lt_succ hn)
    rw [Bool.and_false] at hrun
    exact Reads.loop_step (numberStep_digit _ (hds c List.mem_cons_self) (ds ++ rest)) hrun

/-- The letter of an exponent, and its sign. -/
theorem numberStep_exp {c : Char} (hc : c = 'e' ∨ c = 'E') {sign t : Text} (hsign : ExpSign sign)
    (ht : ∀ d ∈ t.head?, d ≠ '+' ∧ d ≠ '-') :
    Reads input (numberStep input ⟨true, false, false⟩) (c :: (sign ++ t)) (some ⟨true, true, true⟩) t := by
  have hdigit : c.isDigit = false := by rcases hc with rfl | rfl <;> decide
  have hpoint : (c == '.' || c == ',') = false := by rcases hc with rfl | rfl <;> decide
  have hletter : (c == 'e' || c == 'E') = true := by rcases hc with rfl | rfl <;> decide
  refine (Reads.peek _).bind ?_
  simp only [List.head?_cons, hdigit, hpoint, hletter, Bool.false_eq_true, if_false, Bool.and_false, Bool.not_false, Bool.and_self,
    if_true]
  refine (Reads.bump c _).bind ((Reads.peek _).bind ?_)
  rcases hsign with rfl | rfl | rfl
  · have hnot : ¬ (t.head? = some '+' ∨ t.head? = some '-') := by
      rintro (h | h)
      · exact (ht _ h).1 rfl
      · exact (ht _ h).2 rfl
    rw [List.nil_append, if_neg hnot]
    exact Reads.pure _ t
  · rw [if_pos (.inl rfl)]
    exact (Reads.bump '+' t).bind (Reads.pure _ t)
  · rw [if_pos (.inr rfl)]
    exact (Reads.bump '-' t).bind (Reads.pure _ t)

/-- A loop over a number goes to its end. -/
theorem reads_number {t rest : Text} (h : Number t) (hrest : NumberStop rest) (hlen : (t ++ rest).length < fuel) :
    ∃ s, (!s.sawDigit || s.needExpDigit) = false ∧ Reads input (loop (numberStep input) fuel {}) (t ++ rest) s rest := by
  cases h with
  | plain hm =>
    refine ⟨⟨true, false, false⟩, rfl, reads_mantissa hm.chars hlen fun n hn => ?_⟩
    obtain ⟨n, rfl⟩ := Nat.exists_eq_add_one.mpr (Nat.lt_of_le_of_lt (Nat.zero_le _) hn)
    rw [List.any_eq_true.mpr hm.digit]
    exact Reads.loop_stop (numberStep_stop hrest _)
  | @exponent m sign ds e hm he hsign hds hne =>
    rw [List.append_assoc, List.cons_append, List.append_assoc] at hlen ⊢
    refine ⟨⟨true, true, false⟩, rfl, reads_mantissa hm.chars hlen fun n hn => ?_⟩
    obtain ⟨n, rfl⟩ := Nat.exists_eq_add_one.mpr (Nat.lt_of_le_of_lt (Nat.zero_le _) hn)
    rw [List.any_eq_true.mpr hm.digit, Bool.or_true]
    obtain ⟨d, ds', rfl⟩ := List.exists_cons_of_ne_nil hne
    have hd : d.isDigit = true := hds d List.mem_cons_self
    refine Reads.loop_step (numberStep_exp he hsign (t := d :: ds' ++ rest) ?_) ?_
    · intro x hx
      obtain rfl : d = x := Option.some.inj hx
      constructor
      · rintro rfl
        exact absurd hd (by decide)
      · rintro rfl
        exact absurd hd (by decide)
    · refine reads_digits hds hrest ?_
      simp only [List.length_append, List.length_cons] at hn ⊢
      omega

/-- A number is read to its end. -/
theorem parseNumber_reads {t rest : Text} {v : V} (h : Number t) (hv : A.parseNumberLiteral t = some v) (hrest : NumberStop rest)
    (hlen : (t ++ rest).length < fuel) : Reads input (parseNumber A input fuel) (t ++ rest) v rest := by
  obtain ⟨c, r, hstart, hc⟩ := (framed_of_number h).starts
  have hskip : (t ++ rest).dropWhile isWhitespace = t ++ rest := by
    rw [hstart]
    exact List.dropWhile_cons_of_neg (by simp [hc])
  obtain ⟨s, hok, hloop⟩ : ∃ s, _ ∧ Reads input (loop (numberStep input) fuel {}) (t ++ rest) s rest := reads_number h hrest hlen
  refine (Reads.skipWhile isWhitespace hlen).bind ?_
  rw [hskip]
  refine Reads.get_bind fun pos hpos => hloop.bind ?_
  rw [if_neg (by simp [hok])]
  refine (Reads.slice hpos).bind ?_
  rw [hv]
  exact Reads.pure v rest

/-! ## Factors -/

/-- Signs after signs. -/
theorem Signs.trans {s v x : V} {a b : Text} (h : Signs A s a v) (h' : Signs A v b x) : Signs A s (a ++ b) x := by
  induction h with
  | nil => exact h'
  | @plus s v w t hw _ ih =>
    rw [List.cons_append, List.append_assoc]
    exact .plus hw (ih h')
  | @minus s v w t hw _ ih =>
    rw [List.cons_append, List.append_assoc]
    exact .minus hw (ih h')

/-- One more sign, at the end. -/
theorem Signs.step {s v : V} {a w : Text} (h : Signs A s a v) (hw : Gap isWhitespace w) :
    Signs A s (a ++ '+' :: w) v ∧ Signs A s (a ++ '-' :: w) (A.neg v) := by
  have hplus : Signs A v ('+' :: (w ++ [])) v := .plus hw (.nil v)
  have hminus : Signs A v ('-' :: (w ++ [])) (A.neg v) := .minus hw (.nil (A.neg v))
  rw [List.append_nil] at hplus hminus
  exact ⟨h.trans hplus, h.trans hminus⟩

/-- A text does not start with whitespace. -/
def Solid (t : Text) : Prop := ∀ c ∈ t.head?, isWhitespace c = false

theorem solid_dropWhile (t : Text) : Solid (t.dropWhile isWhitespace) := by
  intro c hc
  have := List.head?_dropWhile_not isWhitespace t
  rw [Option.mem_def.mp hc] at this
  simpa using this

/-- One sign, and the gap behind it. -/
theorem signStep_reads {s v : V} {c : Char} (hc : (c = '+' ∧ v = s) ∨ (c = '-' ∧ v = A.neg s)) {t t' : Text}
    (hskip : Reads input (skipWs input fuel) t () t') : Reads input (signStep A input fuel s) (c :: t) (some v) t' := by
  refine (Reads.peek _).bind ?_
  simp only [List.head?_cons]
  rcases hc with ⟨rfl, rfl⟩ | ⟨rfl, rfl⟩
  · rw [if_pos rfl]
    exact (Reads.bump '+' t).bind (hskip.bind (Reads.pure _ t'))
  · rw [if_neg (by decide), if_pos rfl]
    exact (Reads.bump '-' t).bind (hskip.bind (Reads.pure _ t'))

/-- The signs at a place. -/
theorem signs_meets {t : Text} (ht : t.length < fuel) (hsolid : Solid t) :
    Meets input (loop (signStep A input fuel) fuel A.one) t fun v t' => ∃ a, t = a ++ t' ∧ Signs A A.one a v ∧ Solid t' := by
  refine Meets.loop (I := fun v t' => ∃ a, t = a ++ t' ∧ Signs A A.one a v ∧ Solid t') ?_ ht ⟨[], rfl, .nil A.one, hsolid⟩
  rintro v u ⟨a, rfl, ha, hu'⟩
  have hu : u.length < fuel := by
    rw [List.length_append] at ht
    omega
  cases u with
  | nil => exact (Reads.peek []).bind_meets ((Reads.pure none []).meets ⟨a, rfl, ha, hu'⟩)
  | cons c u =>
    have hshort : (u.dropWhile isWhitespace).length < (c :: u).length :=
      Nat.lt_succ_of_le (List.dropWhile_suffix isWhitespace).length_le
    have hsplit : ∀ x, a ++ x :: u = a ++ x :: u.takeWhile isWhitespace ++ u.dropWhile isWhitespace := by
      intro x
      rw [List.append_assoc, List.cons_append, List.takeWhile_append_dropWhile]
    have hskip : Reads input (skipWs input fuel) u () (u.dropWhile isWhitespace) :=
      Reads.skipWhile isWhitespace (Nat.lt_of_succ_lt hu)
    obtain ⟨hplus, hminus⟩ := ha.step (Gap.takeWhile u)
    by_cases hp : c = '+'
    · refine (signStep_reads (.inl ⟨hp, rfl⟩) hskip).meets ⟨⟨_, ?_, hplus, solid_dropWhile u⟩, hshort⟩
      rw [hp, hsplit]
    by_cases hm : c = '-'
    · refine (signStep_reads (.inr ⟨hm, rfl⟩) hskip).meets ⟨⟨_, ?_, hminus, solid_dropWhile u⟩, hshort⟩
      rw [hm, hsplit]
    · refine (Reads.peek (c :: u)).bind_meets ?_
      simp only [List.head?_cons, if_neg hp, if_neg hm]
      exact (Reads.pure none (c :: u)).meets ⟨a, rfl, ha, hu'⟩

/-- Signs are read to their end, which is before a character that is neither a sign nor whitespace. -/
theorem signs_reads {s v : V} {a : Text} (h : Signs A s a v) {c : Char} (hc : isWhitespace c = false) (hp : c ≠ '+') (hm : c ≠ '-')
    {n : Nat} {t : Text} (hn : (a ++ c :: t).length < n) (hlen : (a ++ c :: t).length < fuel) :
    Reads input (loop (signStep A input fuel) n s) (a ++ c :: t) v (c :: t) := by
  have hskip : ∀ {w b : Text} {s v : V}, Gap isWhitespace w → Signs A s b v → (w ++ (b ++ c :: t)).length < fuel →
      Reads input (skipWs input fuel) (w ++ (b ++ c :: t)) () (b ++ c :: t) := by
    intro w b s v hw hb hlen
    have hdrop : (w ++ (b ++ c :: t)).dropWhile isWhitespace = b ++ c :: t := by
      rw [hw.dropWhile]
      rcases hb.starts with rfl | ⟨d, r, rfl, hd⟩
      · exact List.dropWhile_cons_of_neg (by simp [hc])
      · exact List.dropWhile_cons_of_neg (by simp [hd])
    have hreads : Reads input (skipWs input fuel) (w ++ (b ++ c :: t)) () _ := Reads.skipWhile isWhitespace hlen
    rwa [hdrop] at hreads
  induction h generalizing n with
  | nil s =>
    obtain ⟨n, rfl⟩ := Nat.exists_eq_add_one.mpr (Nat.lt_of_le_of_lt (Nat.zero_le _) hn)
    refine Reads.loop_stop ((Reads.peek _).bind ?_)
    simp only [List.nil_append, List.head?_cons, hp, hm, if_false]
    exact Reads.pure none (c :: t)
  | @plus s v w b hw hb ih =>
    obtain ⟨n, rfl⟩ := Nat.exists_eq_add_one.mpr (Nat.lt_of_le_of_lt (Nat.zero_le _) hn)
    rw [List.cons_append, List.append_assoc, List.length_cons] at hn hlen
    have hshort : (b ++ c :: t).length ≤ (w ++ (b ++ c :: t)).length := (List.suffix_append w _).length_le
    rw [List.cons_append, List.append_assoc]
    exact Reads.loop_step (signStep_reads (.inl ⟨rfl, rfl⟩) (hskip hw hb (by omega))) (ih (by omega) (by omega))
  | @minus s v w b hw hb ih =>
    obtain ⟨n, rfl⟩ := Nat.exists_eq_add_one.mpr (Nat.lt_of_le_of_lt (Nat.zero_le _) hn)
    rw [List.cons_append, List.append_assoc, List.length_cons] at hn hlen
    have hshort : (b ++ c :: t).length ≤ (w ++ (b ++ c :: t)).length := (List.suffix_append w _).length_le
    rw [List.cons_append, List.append_assoc]
    exact Reads.loop_step (signStep_reads (.inr ⟨rfl, rfl⟩) (hskip hw hb (by omega))) (ih (by omega) (by omega))

/-- A number, or an expression in parentheses. -/
inductive Value (A : Arith V) : Text → V → Prop
  | number {t : Text} {v : V} (ht : Number t) (hv : A.parseNumberLiteral t = some v) : Value A t v
  | paren {w t w' : Text} {v : V} (hw : Gap isWhitespace w) (h : Expr A t v) (hw' : Gap isWhitespace w') :
      Value A ('(' :: (w ++ t ++ w' ++ [')'])) v

/-- A factor is a value with signs before it. -/
theorem factor_iff {t : Text} {v : V} :
    Factor A t v ↔ ∃ signs a sign x, t = signs ++ a ∧ v = A.mul sign x ∧ Signs A A.one signs sign ∧ Value A a x := by
  constructor
  · intro h
    cases h with
    | number hs ht hv => exact ⟨_, _, _, _, rfl, rfl, hs, .number ht hv⟩
    | paren hs hw h hw' => exact ⟨_, _, _, _, rfl, rfl, hs, .paren hw h hw'⟩
  · rintro ⟨signs, a, sign, x, rfl, rfl, hs, ha⟩
    cases ha with
    | number ht hv => exact .number hs ht hv
    | paren hw h hw' => exact .paren hs hw h hw'

variable {pe : Parser V}

/-- What is read as a value is one, when what is read in brackets is an expression. -/
theorem parseValue_meets (hexpr : ∀ u, u.length < fuel → Meets input pe u (Took isWhitespace (Expr A) u)) {t : Text}
    (ht : t.length < fuel + 1) (hsolid : Solid t) :
    Meets input (parseValue A input (fuel + 1) pe) t fun v t' => ∃ a, t = a ++ t' ∧ Value A a v := by
  refine (Reads.peek t).bind_meets ?_
  cases t with
  | nil => exact Meets.fail
  | cons c t =>
    simp only [List.head?_cons]
    by_cases hc : c = '('
    · rw [if_pos hc]
      refine (Reads.bump c t).bind_meets ((hexpr t (Nat.lt_of_succ_lt_succ ht)).bind fun v u hu => ?_)
      have hlen : u.length < fuel + 1 := Nat.lt_of_le_of_lt hu.length_le (Nat.lt_of_succ_lt ht)
      have hskip := hu.skip
      refine (Reads.skipWhile isWhitespace hlen).bind_meets ?_
      cases hrest : u.dropWhile isWhitespace with
      | nil =>
        refine Reads.bump_nil.bind_meets ?_
        rw [if_neg (by decide)]
        exact Meets.fail
      | cons d r =>
        rw [hrest] at hskip
        refine (Reads.bump d r).bind_meets ?_
        by_cases hd : d = ')'
        · rw [if_pos (by rw [hd])]
          obtain ⟨w, a, w', rfl, hw, hw', ha⟩ := hskip
          refine (Reads.pure v r).meets ⟨_, ?_, .paren hw ha hw'⟩
          rw [hc, hd, List.cons_append, List.append_assoc _ [')'] r]
          rfl
        · rw [if_neg (fun h => hd (Option.some.inj h))]
          exact Meets.fail
    · rw [if_neg hc]
      refine (parseNumber_meets ht).mono fun v t' h => ?_
      obtain ⟨w, a, heq, hw, ha, hv⟩ := h
      refine ⟨a, ?_, .number ha hv⟩
      -- The gap was read with the signs.
      cases w with
      | nil => exact heq
      | cons d w =>
        obtain rfl : c = d := (List.cons.inj heq).1
        exact absurd (hw c List.mem_cons_self) (by simp [hsolid c rfl])

/-- What is read as a factor is one, when what is read in brackets is an expression. -/
theorem parseFactor_meets (hexpr : ∀ u, u.length < fuel → Meets input pe u (Took isWhitespace (Expr A) u)) {t : Text}
    (ht : t.length < fuel + 1) : Meets input (parseFactor A input (fuel + 1) pe) t (Took isWhitespace (Factor A) t) := by
  have hsplit : t.takeWhile isWhitespace ++ t.dropWhile isWhitespace = t := List.takeWhile_append_dropWhile
  have hshort : (t.dropWhile isWhitespace).length < fuel + 1 :=
    Nat.lt_of_le_of_lt (List.dropWhile_suffix isWhitespace).length_le ht
  refine (Reads.skipWhile isWhitespace ht).bind_meets ((signs_meets hshort (solid_dropWhile t)).bind ?_)
  rintro sign u ⟨signs, hu, hsigns, hsolid⟩
  have hlen : u.length < fuel + 1 := by
    rw [hu, List.length_append] at hshort
    omega
  refine (parseValue_meets hexpr hlen hsolid).bind ?_
  rintro v t' ⟨a, rfl, ha⟩
  refine (Reads.pure _ t').meets ⟨_, signs ++ a, [], ?_, Gap.takeWhile t, Gap.nil, factor_iff.mpr ?_⟩
  · rw [List.append_nil, List.append_assoc _ _ t', List.append_assoc signs, ← hu, hsplit]
  · exact ⟨signs, a, sign, v, rfl, rfl, hsigns, ha⟩

/-- The recursive descent reads the texts of the grammar only. -/
theorem parseExpr_meets {t : Text} (ht : t.length < fuel) :
    Meets input (parseExpr A input fuel) t (Took isWhitespace (Expr A) t) := by
  induction fuel generalizing t with
  | zero => exact absurd ht (Nat.not_lt_zero _)
  | succ fuel ih => exact Meets.chain (fun u hu => Meets.chain (fun r hr => parseFactor_meets (fun x hx => ih hx) hr) hu) ht

/-! ## All texts of the grammar -/

/-- A number starts with its mantissa. -/
theorem number_starts {t : Text} (h : Number t) : ∃ c r, t = c :: r ∧ (c.isDigit = true ∨ c = '.' ∨ c = ',') := by
  have hmantissa : ∀ m : Text, Mantissa m → ∃ c r, m = c :: r ∧ (c.isDigit = true ∨ c = '.' ∨ c = ',') := by
    intro m hm
    obtain ⟨d, hd, _⟩ := hm.digit
    obtain ⟨c, r, rfl⟩ := List.exists_cons_of_ne_nil (List.ne_nil_of_mem hd)
    exact ⟨c, r, rfl, hm.chars c List.mem_cons_self⟩
  cases h with
  | plain hm => exact hmantissa t hm
  | exponent hm _ _ _ _ =>
    obtain ⟨c, r, rfl, hc⟩ := hmantissa _ hm
    exact ⟨c, _, rfl, hc⟩

/-- A value starts with neither a blank nor a sign. -/
theorem Value.starts {t : Text} {v : V} (h : Value A t v) :
    ∃ c r, t = c :: r ∧ isWhitespace c = false ∧ c ≠ '+' ∧ c ≠ '-' := by
  cases h with
  | paren => exact ⟨'(', _, rfl, by decide, by decide, by decide⟩
  | number ht _ =>
    obtain ⟨c, r, rfl, hc⟩ := number_starts ht
    refine ⟨c, r, rfl, ?_, ?_, ?_⟩
    · exact ((solid_of_number ht).2 c List.mem_cons_self).1
    · rintro rfl
      exact absurd hc (by decide)
    · rintro rfl
      exact absurd hc (by decide)

/-- The signs between factors. -/
theorem products_some {c : Char} {op : V → V → V} (h : products A c = some op) : c = '*' ∨ c = '/' := by
  unfold products at h
  split at h
  · exact .inl (by assumption)
  · split at h
    · exact .inr (by assumption)
    · cases h

/-- The signs between terms. -/
theorem sums_some {c : Char} {op : V → V → V} (h : sums A c = some op) : c = '+' ∨ c = '-' := by
  unfold sums at h
  split at h
  · exact .inl (by assumption)
  · split at h
    · exact .inr (by assumption)
    · cases h

/-- A number ends before an operator, a bracket or a blank. -/
theorem numberStop_cons {c : Char} (hc : c ∈ ['+', '-', '*', '/', ')'] ∨ isWhitespace c = true) (t : Text) :
    NumberStop (c :: t) := by
  intro d hd
  obtain rfl : c = d := Option.some.inj hd
  rcases hc with hc | hc
  · have hops : ∀ x ∈ ['+', '-', '*', '/', ')'], x.isDigit = false ∧ x ≠ '.' ∧ x ≠ ',' ∧ x ≠ 'e' ∧ x ≠ 'E' := by simp
    exact hops c hc
  · refine ⟨Bool.eq_false_iff.mpr fun h => ?_, ?_, ?_, ?_, ?_⟩
    · rw [not_isWhitespace_of_isDigit h] at hc
      cases hc
    all_goals
      rintro rfl
      exact absurd hc (by decide)

/-- Also when blanks stand before them. -/
theorem numberStop_gap {w : Text} (hw : Gap isWhitespace w) {c : Char} (hc : c ∈ ['+', '-', '*', '/', ')']) (t : Text) :
    NumberStop (w ++ c :: t) := by
  cases w with
  | nil => exact numberStop_cons (.inl hc) t
  | cons d w => exact numberStop_cons (.inr (hw d List.mem_cons_self)) (w ++ c :: t)

variable (A) in
/-- What may stand behind a term. -/
def TermStop (rest : Text) : Prop := NumberStop rest ∧ ∀ c ∈ (rest.dropWhile isWhitespace).head?, products A c = none

variable (A) in
/-- What may stand behind an expression. -/
def ExprStop (rest : Text) : Prop := TermStop A rest ∧ ∀ c ∈ (rest.dropWhile isWhitespace).head?, sums A c = none

theorem head?_gap {w : Text} (hw : Gap isWhitespace w) {c : Char} (hc : isWhitespace c = false) (t : Text) :
    (w ++ c :: t).dropWhile isWhitespace = c :: t := by
  rw [hw.dropWhile, List.dropWhile_cons_of_neg (by simp [hc])]

/-- A term ends before a sign between terms, or a closing bracket. -/
theorem termStop_gap {w : Text} (hw : Gap isWhitespace w) {c : Char} (hc : c ∈ ['+', '-', ')']) (t : Text) :
    TermStop A (w ++ c :: t) := by
  have hc' : c = '+' ∨ c = '-' ∨ c = ')' := by simpa using hc
  refine ⟨numberStop_gap hw (by rcases hc' with rfl | rfl | rfl <;> simp) t, ?_⟩
  have hsolid : isWhitespace c = false := by rcases hc' with rfl | rfl | rfl <;> decide
  rw [head?_gap hw hsolid]
  intro d hd
  obtain rfl : c = d := Option.some.inj hd
  rcases hc' with rfl | rfl | rfl <;> rfl

/-- An expression ends before a closing bracket. -/
theorem exprStop_paren {w : Text} (hw : Gap isWhitespace w) (t : Text) : ExprStop A (w ++ ')' :: t) := by
  refine ⟨termStop_gap hw (by simp) t, ?_⟩
  rw [head?_gap hw (by decide)]
  intro d hd
  obtain rfl : ')' = d := Option.some.inj hd
  rfl

/-- It ends with the text. -/
theorem exprStop_nil : ExprStop A [] := by
  refine ⟨⟨?_, ?_⟩, ?_⟩
  all_goals
    intro c hc
    cases hc

/-- Every value is read, when every expression in brackets is. -/
theorem parseValue_reads (hexpr : ReadsAll input isWhitespace fuel pe (Expr A) (ExprStop A)) {a rest : Text} {v : V}
    (ha : Value A a v) (hrest : NumberStop rest) (hlen : (a ++ rest).length < fuel + 1) :
    Reads input (parseValue A input (fuel + 1) pe) (a ++ rest) v rest := by
  cases ha with
  | number ht hv =>
    obtain ⟨c, r, rfl, hfirst⟩ := number_starts ht
    have hc : c ≠ '(' := by
      rintro rfl
      exact absurd hfirst (by decide)
    refine (Reads.peek _).bind ?_
    simp only [List.cons_append, List.head?_cons, if_neg hc]
    exact parseNumber_reads ht hv hrest hlen
  | @paren w t w' v hw h hw' =>
    have heq : '(' :: (w ++ t ++ w' ++ [')']) ++ rest = '(' :: (w ++ t ++ (w' ++ ')' :: rest)) := by simp
    rw [heq, List.length_cons] at hlen
    obtain ⟨r, hr, hle, hreads⟩ := hexpr w t v (w' ++ ')' :: rest) hw h (exprStop_paren hw' rest) (Nat.lt_of_succ_lt_succ hlen)
    rw [head?_gap hw' (by decide)] at hr
    have hshort : r.length < fuel + 1 := by
      rw [List.length_append] at hlen
      omega
    rw [heq]
    refine (Reads.peek _).bind ?_
    simp only [List.head?_cons, if_true]
    refine (Reads.bump '(' _).bind (hreads.bind ((Reads.skipWhile isWhitespace hshort).bind ?_))
    rw [hr]
    refine (Reads.bump ')' rest).bind ?_
    rw [if_pos rfl]
    exact Reads.pure v rest

/-- Every factor is read then. -/
theorem parseFactor_reads (hexpr : ReadsAll input isWhitespace fuel pe (Expr A) (ExprStop A)) :
    ReadsAll input isWhitespace (fuel + 1) (parseFactor A input (fuel + 1) pe) (Factor A) NumberStop := by
  intro w a v rest hw ha hrest hlen
  obtain ⟨signs, b, sign, x, rfl, rfl, hsigns, hb⟩ := factor_iff.mp ha
  obtain ⟨c, r, rfl, hc, hp, hm⟩ := hb.starts
  refine ⟨rest, rfl, Nat.le_refl _, ?_⟩
  have hskip : (w ++ (signs ++ c :: r) ++ rest).dropWhile isWhitespace = signs ++ c :: (r ++ rest) := by
    rw [List.append_assoc, hw.dropWhile, List.append_assoc, List.cons_append]
    rcases hsigns.starts with rfl | ⟨d, r', rfl, hd⟩
    · exact List.dropWhile_cons_of_neg (by simp [hc])
    · exact List.dropWhile_cons_of_neg (by simp [hd])
  have hshort : (signs ++ c :: (r ++ rest)).length < fuel + 1 := by
    rw [← hskip]
    exact Nat.lt_of_le_of_lt (List.dropWhile_suffix isWhitespace).length_le hlen
  refine (Reads.skipWhile isWhitespace hlen).bind ?_
  rw [hskip]
  refine (signs_reads hsigns hc hp hm hshort hshort).bind ?_
  rw [List.length_append] at hshort
  exact (parseValue_reads hexpr hb hrest (Nat.lt_of_le_of_lt (Nat.le_add_left _ _) hshort)).bind (Reads.pure _ rest)

/-- The recursive descent reads all texts of the grammar. -/
theorem parseExpr_reads (fuel : Nat) : ReadsAll input isWhitespace fuel (parseExpr A input fuel) (Expr A) (ExprStop A) := by
  induction fuel with
  | zero => exact fun w a v rest _ _ _ hlen => absurd hlen (Nat.not_lt_zero _)
  | succ fuel ih =>
    have hterm : ReadsAll input isWhitespace (fuel + 1) (parseTerm A input (fuel + 1) (parseExpr A input fuel)) (Term A)
        (TermStop A) := by
      refine ReadsAll.chain (parseFactor_reads ih) ?_ ?_ fun rest h => h
      · intro c op hc
        rcases products_some hc with rfl | rfl <;> decide
      · intro w c op t hw hc
        exact numberStop_gap hw (by rcases products_some hc with rfl | rfl <;> simp) t
    refine ReadsAll.chain hterm ?_ ?_ fun rest h => h
    · intro c op hc
      rcases sums_some hc with rfl | rfl <;> decide
    · intro w c op t hw hc
      exact termStop_gap hw (by rcases sums_some hc with rfl | rfl <;> simp) t

/-! ## Amounts -/

/-- What is cut off the ends of a text is blank. -/
theorem exists_gaps_trimChars (l : Text) :
    ∃ w w', l = w ++ trimChars l ++ w' ∧ Gap isWhitespace w ∧ Gap isWhitespace w' := by
  refine ⟨l.takeWhile isWhitespace, (l.dropWhile isWhitespace).rtakeWhile isWhitespace, ?_, Gap.takeWhile l, fun c hc => ?_⟩
  · rw [List.append_assoc, trimChars, List.rdropWhile_append_rtakeWhile, List.takeWhile_append_dropWhile]
  · exact List.mem_rtakeWhile_imp hc

/-- Gaps around a text without any at its ends are trimmed. -/
theorem trimChars_gaps {w a w' : Text} (hw : Gap isWhitespace w) (hw' : Gap isWhitespace w')
    (hstarts : ∃ c r, a = c :: r ∧ isWhitespace c = false) (hends : ∃ r c, a = r ++ [c] ∧ isWhitespace c = false) :
    trimChars (w ++ a ++ w') = a := by
  have hdrop : (w ++ a ++ w').dropWhile isWhitespace = a ++ w' := by
    obtain ⟨c, r, rfl, hc⟩ := hstarts
    rw [List.append_assoc, hw.dropWhile]
    exact List.dropWhile_cons_of_neg (by simp [hc])
  have hgap : Gap isWhitespace w'.reverse := fun c hc => hw' c (List.mem_reverse.mp hc)
  rw [trimChars, hdrop, List.rdropWhile, List.reverse_append, hgap.dropWhile]
  obtain ⟨r, c, rfl, hc⟩ := hends
  rw [List.reverse_append, List.reverse_singleton, List.singleton_append, List.dropWhile_cons_of_neg (by simp [hc]),
    List.reverse_cons, List.reverse_reverse]

/-- An expression, and nothing behind it. -/
def parseAll (A : Arith V) (t : Text) (fuel : Nat) : Parser V := do
  let value ← parseExpr A t fuel
  skipWs t fuel
  if ← isEof t then return value else throw .fail

/-- What is read as a whole is an expression with blanks around it. -/
theorem parseAll_meets {t : Text} (ht : t.length < fuel) :
    Meets t (parseAll A t fuel) t fun v _ =>
      ∃ w a w', t = w ++ a ++ w' ∧ Gap isWhitespace w ∧ Gap isWhitespace w' ∧ Expr A a v := by
  refine (parseExpr_meets ht).bind fun v u hu => ?_
  have hlen : u.length < fuel := Nat.lt_of_le_of_lt hu.length_le ht
  have hskip := hu.skip
  refine (Reads.skipWhile isWhitespace hlen).bind_meets ((Reads.isEof _).bind_meets ?_)
  cases hrest : u.dropWhile isWhitespace with
  | nil =>
    rw [hrest] at hskip
    obtain ⟨w, a, w', heq, hw, hw', ha⟩ := hskip
    exact (Reads.pure v []).meets ⟨w, a, w', by rw [heq, List.append_nil], hw, hw', ha⟩
  | cons c r => exact Meets.fail

/-- Every expression is read as a whole. -/
theorem parseAll_reads {a : Text} {v : V} (ha : Expr A a v) (hlen : a.length < fuel) : Reads a (parseAll A a fuel) a v [] := by
  have hall : ReadsAll a isWhitespace fuel (parseExpr A a fuel) (Expr A) (ExprStop A) := parseExpr_reads fuel
  obtain ⟨r, hr, hle, hreads⟩ := hall [] a v [] Gap.nil ha exprStop_nil (by simpa using hlen)
  rw [List.nil_append, List.append_nil] at hreads
  obtain rfl : r = [] := List.eq_nil_of_length_eq_zero (Nat.le_zero.mp hle)
  refine hreads.bind ((Reads.skipWhile isWhitespace (Nat.lt_of_le_of_lt (Nat.zero_le _) hlen)).bind ?_)
  exact (Reads.isEof []).bind (Reads.pure v [])

/-- What is left of an amount without the whitespace around it and without the euro sign. -/
def amountText (raw : Text) : Text := trimChars ((stripSuffix ['€'] (trimChars raw)).getD (trimChars raw))

/-- A blank text is no amount. -/
theorem parseEuroAmount_blank {raw : Text} (h : trimChars raw = []) : parseEuroAmount A fuel raw = .error .fail := if_pos h

/-- A text that is not blank is read as a whole, without a currency sign. -/
theorem parseEuroAmount_solid {raw : Text} (h : trimChars raw ≠ []) :
    parseEuroAmount A fuel raw = (fun r => r.1) <$> parseAll A (amountText raw) fuel 0 := if_neg h

/-- The text that is parsed is part of the amount, with whitespace and at most one euro sign around it. -/
theorem exists_amountText (raw : Text) :
    ∃ w w' euro w'', raw = w ++ amountText raw ++ w' ++ euro ++ w'' ∧ Gap isWhitespace w ∧ Gap isWhitespace w' ∧
      Gap isWhitespace w'' ∧ (euro = [] ∨ euro = ['€']) := by
  obtain ⟨w, w'', hraw, hw, hw''⟩ := exists_gaps_trimChars raw
  obtain ⟨u, euro, htrim, hget, heuro⟩ : ∃ u euro, trimChars raw = u ++ euro ∧
      (stripSuffix ['€'] (trimChars raw)).getD (trimChars raw) = u ∧ (euro = [] ∨ euro = ['€']) := by
    cases h : stripSuffix ['€'] (trimChars raw) with
    | none => exact ⟨trimChars raw, [], by simp, rfl, .inl rfl⟩
    | some u => exact ⟨u, ['€'], stripSuffix_eq_some.mp h, rfl, .inr rfl⟩
  obtain ⟨x, w', hu, hx, hw'⟩ := exists_gaps_trimChars u
  refine ⟨w ++ x, w', euro, w'', ?_, hw.append hx, hw', hw'', heuro⟩
  rw [amountText, hget]
  calc
    raw = w ++ (u ++ euro) ++ w'' := by rw [← htrim, ← hraw]
    _ = w ++ (x ++ trimChars u ++ w' ++ euro) ++ w'' := by rw [← hu]
    _ = w ++ x ++ trimChars u ++ w' ++ euro ++ w'' := by simp only [List.append_assoc]

/-- The text of an amount's expression is what is parsed. -/
theorem amountText_eq {w a w' euro w'' : Text} (hw : Gap isWhitespace w) (hw' : Gap isWhitespace w') (hw'' : Gap isWhitespace w'')
    (heuro : euro = [] ∨ euro = ['€']) (ha : Framed a) :
    trimChars (w ++ a ++ w' ++ euro ++ w'') ≠ [] ∧ amountText (w ++ a ++ w' ++ euro ++ w'') = a := by
  obtain ⟨c, r, hc, hsolid⟩ := ha.starts
  obtain ⟨r', c', hc', hsolid', heur⟩ := ha.ends
  rcases heuro with rfl | rfl
  · have htrim : trimChars (w ++ a ++ w' ++ [] ++ w'') = a := by
      rw [List.append_nil, List.append_assoc _ w']
      exact trimChars_gaps hw (hw'.append hw'') ⟨c, r, hc, hsolid⟩ ⟨r', c', hc', hsolid'⟩
    have hstrip : stripSuffix ['€'] a = none := by
      cases h : stripSuffix ['€'] a with
      | none => rfl
      | some u =>
        have := stripSuffix_eq_some.mp h
        rw [hc'] at this
        exact absurd (List.append_inj_right' this rfl) (by simp [heur])
    rw [amountText, htrim, hstrip, Option.getD_none]
    refine ⟨by simp [hc], ?_⟩
    have := trimChars_gaps Gap.nil Gap.nil ⟨c, r, hc, hsolid⟩ ⟨r', c', hc', hsolid'⟩
    simpa using this
  · have htrim : trimChars (w ++ a ++ w' ++ ['€'] ++ w'') = a ++ w' ++ ['€'] := by
      have heq : w ++ a ++ w' ++ ['€'] ++ w'' = w ++ (a ++ w' ++ ['€']) ++ w'' := by simp
      rw [heq]
      exact trimChars_gaps hw hw'' ⟨c, r ++ w' ++ ['€'], by simp [hc], hsolid⟩ ⟨a ++ w', '€', rfl, by decide⟩
    rw [amountText, htrim, stripSuffix_eq_some.mpr rfl, Option.getD_some]
    refine ⟨by simp, ?_⟩
    have := trimChars_gaps Gap.nil hw' ⟨c, r, hc, hsolid⟩ ⟨r', c', hc', hsolid'⟩
    simpa using this

/-- To give up is right when there is no value. -/
theorem of_fail {P : V → Prop} (h : ∀ v, P v → (.error .fail : Except Stop V) = .ok v) :
    (∀ v, (.error .fail : Except Stop V) = .ok v ↔ P v) ∧ (.error .fail : Except Stop V) ≠ .error .panic ∧
      (.error .fail : Except Stop V) ≠ .error .fuel := by
  refine ⟨fun v => ⟨fun hv => ?_, h v⟩, ?_, ?_⟩
  · cases hv
  · intro hstop
    cases hstop
  · intro hstop
    cases hstop

/-- An amount has a value exactly when it is one of the grammar's, and that value. To read it never stops in the middle of a
character, and it always ends. -/
theorem amounts_meet_the_grammar (A : Arith V) (raw : Text) (fuel : Nat) (hfuel : raw.length < fuel) :
    (∀ v, parseEuroAmount A fuel raw = .ok v ↔ Amount A raw v) ∧
      parseEuroAmount A fuel raw ≠ .error .panic ∧ parseEuroAmount A fuel raw ≠ .error .fuel := by
  have hlen : (amountText raw).length < fuel := by
    obtain ⟨w, w', euro, w'', hraw, _⟩ := exists_amountText raw
    have := congrArg List.length hraw
    simp only [List.length_append] at this
    omega
  have hreads : ∀ v, Amount A raw v → parseEuroAmount A fuel raw = .ok v := by
    rintro v ⟨w, a, w', euro, w'', hraw, hw, hw', hw'', heuro, ha⟩
    obtain ⟨hne, htext⟩ := amountText_eq hw hw' hw'' heuro ha.framed
    rw [← hraw] at hne htext
    rw [htext] at hlen
    obtain ⟨pos, hpos, _⟩ := parseAll_reads ha hlen 0 (At.start a)
    rw [parseEuroAmount_solid hne, htext, hpos]
    rfl
  by_cases hblank : trimChars raw = []
  · rw [parseEuroAmount_blank hblank] at hreads ⊢
    exact of_fail hreads
  · rw [parseEuroAmount_solid hblank] at hreads ⊢
    rcases parseAll_meets hlen 0 (At.start (amountText raw)) with hfail | ⟨v, pos, t', hok, _, w, a, w', heq, hw, hw', ha⟩
    · rw [hfail] at hreads ⊢
      exact of_fail hreads
    · have hamount : Amount A raw v := by
        obtain ⟨x, y, euro, z, hraw, hx, hy, hz, heuro⟩ := exists_amountText raw
        refine ⟨x ++ w, a, w' ++ y, euro, z, ?_, hx.append hw, hw'.append hy, hz, heuro, ha⟩
        rw [hraw, heq]
        simp only [List.append_assoc]
      rw [hok] at hreads ⊢
      refine ⟨fun x => ⟨fun h => ?_, hreads x⟩, ?_, ?_⟩
      · obtain rfl : v = x := Except.ok.inj h
        exact hamount
      · intro h
        cases h
      · intro h
        cases h

namespace Examples

/-- Whole numbers, with literals of digits. -/
def wholeNumbers : Arith Int where
  one := 1
  neg := Int.neg
  add := Int.add
  sub := Int.sub
  mul := Int.mul
  div := Int.tdiv
  parseNumberLiteral t := if t.all Char.isDigit then some (t.foldl (fun n c => 10 * n + (c.toNat - 48 : Nat)) 0) else none

/-- Signs, parentheses and precedence, before a euro sign. -/
theorem the_amount_of_an_expression :
    let raw := " 2 + -3 * (10-4-1) € ".toList
    parseEuroAmount wholeNumbers 30 raw = .ok (-13) ∧ Amount wholeNumbers raw (-13) := by
  have hvalue : parseEuroAmount wholeNumbers 30 " 2 + -3 * (10-4-1) € ".toList = .ok (-13) := by decide +kernel
  exact ⟨hvalue, ((amounts_meet_the_grammar wholeNumbers _ 30 (by decide)).1 (-13)).mp hvalue⟩

end Examples

end Twitch1337.DoenerCalc
