import Mathlib.Data.List.Forall2
import Twitch1337.Lib.Str

/-!
# Lower case

ASCII lower case, and Unicode lower case as a table, one character at a time but for the capital sigma, whose lower case is
another letter at the end of a word. `LowerTable` holds the table and what the character database says of it: an ASCII letter
comes out of no other letter than its capital, `i` and `k` apart, and neither does `ö`.
-/

namespace RustStr

/-- A string with its ASCII letters in lower case. -/
def toAsciiLowercase (s : String) : String := String.ofList (asciiFold s)

/-- The Unicode lower case of each character, and where a sigma is final, by what stands before and after it. -/
structure LowerTable where
  lower : Char → List Char
  isFinal : List Char → List Char → Bool
  lower_ascii : ∀ c : Char, c.toNat < 128 → lower c = [c.toLower]
  lower_umlaut : lower 'Ö' = ['ö'] ∧ lower 'ö' = ['ö']
  lower_ne_nil : ∀ c, lower c ≠ []
  lower_letter : ∀ c x, x ∈ lower c → x.isLower = true → x ≠ 'i' → x ≠ 'k' → c.toLower = x
  lower_o : ∀ c, 'ö' ∈ lower c → c = 'ö' ∨ c = 'Ö'

namespace LowerTable

variable (T : LowerTable)

def lowerFrom (before : List Char) : List Char → List Char
  | [] => []
  | c :: after =>
    (if c = 'Σ' then [if T.isFinal before after then 'ς' else 'σ'] else T.lower c) ++ lowerFrom (before ++ [c]) after

/-- A string in lower case. -/
def toLowercase (s : String) : String := String.ofList (T.lowerFrom [] s.toList)

end LowerTable

/-! ## ASCII lower case -/

theorem toLower_of_not_ascii {c : Char} (h : ¬ c.toNat < 128) : c.toLower = c := by
  unfold Char.toLower
  split
  · rename_i hupper
    obtain ⟨-, hz⟩ := hupper
    exact absurd (lt_of_le_of_lt (UInt32.le_iff_toNat_le.mp hz) (by decide)) h
  · rfl

/-- What a character in lower case is not ASCII, the character is not. -/
theorem eq_of_toLower {c x : Char} (hx : ¬ x.toNat < 128) (h : c.toLower = x) : c = x := by
  by_cases hc : c.toNat < 128
  · have hlower : c.toLower.toNat < 128 := ascii_induction (P := fun c => c.toLower.toNat < 128) (by decide) hc
    rw [h] at hlower
    exact absurd hlower hx
  · rw [← h, toLower_of_not_ascii hc]

theorem toLower_toLower (c : Char) : c.toLower.toLower = c.toLower := by
  by_cases hc : c.toNat < 128
  · exact ascii_induction (P := fun c => c.toLower.toLower = c.toLower) (by decide) hc
  · rw [toLower_of_not_ascii hc, toLower_of_not_ascii hc]

@[simp] theorem asciiFold_toAsciiLowercase (s : String) : asciiFold (toAsciiLowercase s) = asciiFold s := by
  rw [toAsciiLowercase, asciiFold, String.toList_ofList, asciiFold, List.map_map]
  exact List.map_congr_left fun c _ => toLower_toLower c

@[simp] theorem toAsciiLowercase_toAsciiLowercase (s : String) :
    toAsciiLowercase (toAsciiLowercase s) = toAsciiLowercase s := by
  rw [toAsciiLowercase, asciiFold_toAsciiLowercase, toAsciiLowercase]

theorem toAsciiLowercase_eq_iff {a b : String} : toAsciiLowercase a = toAsciiLowercase b ↔ asciiFold a = asciiFold b := by
  rw [toAsciiLowercase, toAsciiLowercase, String.ofList_inj]

/-! ## Unicode lower case -/

/-- The lower case of a character is this one. -/
def Lowers (c x : Char) : Prop := c.toLower = x ∨ (c = 'Ö' ∧ x = 'ö')

/-- The characters that come out of no other one than their capital. -/
def Plain (x : Char) : Prop := (x.isLower = true ∧ x ≠ 'i' ∧ x ≠ 'k') ∨ x = 'ö'

namespace LowerTable

variable {T : LowerTable}

theorem lower_eq_of_lowers {c x : Char} (hx : Plain x) (h : Lowers c x) : c ≠ 'Σ' ∧ T.lower c = [x] := by
  rcases h with h | ⟨rfl, rfl⟩
  · rcases hx with ⟨hx, -⟩ | rfl
    · have hc : c.toNat < 128 := by
        by_contra hc
        rw [toLower_of_not_ascii hc] at h
        exact hc (h ▸ ascii_of_isAlphanum (isAlphanum_of_isLower hx))
      refine ⟨?_, by rw [T.lower_ascii c hc, h]⟩
      rintro rfl
      exact absurd hc (by decide)
    · obtain rfl := eq_of_toLower (by decide) h
      exact ⟨by decide, T.lower_umlaut.2⟩
  · exact ⟨by decide, T.lower_umlaut.1⟩

theorem lowers_of_mem {c x : Char} (hx : Plain x) (h : x ∈ T.lower c) : Lowers c x := by
  rcases hx with ⟨hx, hi, hk⟩ | rfl
  · exact .inl (T.lower_letter c x h hx hi hk)
  · rcases T.lower_o c h with rfl | rfl
    · exact .inl (by decide)
    · exact .inr ⟨rfl, rfl⟩

/-- A string whose lower case has plain characters alone is lowered character by character. -/
theorem lowerFrom_eq_iff {before l target : List Char} (h : ∀ x ∈ target, Plain x) :
    T.lowerFrom before l = target ↔ List.Forall₂ Lowers l target := by
  induction l generalizing before target with
  | nil =>
    constructor
    · rintro rfl
      exact .nil
    · intro hall
      cases hall
      rfl
  | cons c after ih =>
    rw [lowerFrom]
    constructor
    · intro heq
      -- the first character of the image is plain, so it comes out of `c` alone
      have hhead : ∀ x rest, x :: rest = target →
          x ∈ (if c = 'Σ' then [if T.isFinal before after then 'ς' else 'σ'] else T.lower c) →
          List.Forall₂ Lowers (c :: after) target := by
        rintro x rest rfl hmem
        have hx := h x List.mem_cons_self
        by_cases hsigma : c = 'Σ'
        · rw [if_pos hsigma, List.mem_singleton] at hmem
          exfalso
          subst hmem
          split at hx
          · rcases hx with ⟨hx, -⟩ | hx
            · exact absurd hx (by decide)
            · exact absurd hx (by decide)
          · rcases hx with ⟨hx, -⟩ | hx
            · exact absurd hx (by decide)
            · exact absurd hx (by decide)
        · rw [if_neg hsigma] at hmem heq
          have hlowers := lowers_of_mem hx hmem
          rw [(lower_eq_of_lowers hx hlowers).2, List.cons_append, List.nil_append, List.cons.injEq] at heq
          exact .cons hlowers ((ih fun y hy => h y (List.mem_cons_of_mem x hy)).mp heq.2)
      have hne : (if c = 'Σ' then [if T.isFinal before after then 'ς' else 'σ'] else T.lower c) ≠ [] := by
        split
        · exact List.cons_ne_nil _ _
        · exact T.lower_ne_nil c
      obtain ⟨x, rest, himage⟩ := List.exists_cons_of_ne_nil hne
      refine hhead x (rest ++ T.lowerFrom (before ++ [c]) after) ?_ ?_
      · rw [← heq, himage, List.cons_append]
      · rw [himage]
        exact List.mem_cons_self
    · intro hall
      cases hall with
      | cons hlowers hrest =>
        have hx := h _ List.mem_cons_self
        obtain ⟨hsigma, hlower⟩ := lower_eq_of_lowers (T := T) hx hlowers
        rw [if_neg hsigma, hlower, (ih fun y hy => h y (List.mem_cons_of_mem _ hy)).mpr hrest]
        rfl

/-- The lower case of the ASCII letters and of the one umlaut, where every sigma is final. -/
def umlaut : LowerTable where
  lower c := if c = 'Ö' then ['ö'] else [c.toLower]
  isFinal _ _ := true
  lower_ascii c hc := by
    refine if_neg ?_
    rintro rfl
    exact absurd hc (by decide)
  lower_umlaut := by decide
  lower_ne_nil c := by split <;> exact List.cons_ne_nil _ _
  lower_letter c x h hx _ _ := by
    split at h
    · obtain rfl := List.mem_singleton.mp h
      exact absurd hx (by decide)
    · exact (List.mem_singleton.mp h).symm
  lower_o c h := by
    split at h
    · rename_i hc
      exact .inr hc
    · exact .inl (eq_of_toLower (by decide) (List.mem_singleton.mp h).symm)

end LowerTable

end RustStr
