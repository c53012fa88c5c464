import Twitch1337.Bot.ChatSender

/-!
# What is sent is clean

The only guard between a text and a line of the protocol. What it lets through it would not change again.
-/

namespace Twitch1337.ChatSender

open Text Cursor

/-! ## The cut -/

/-- The longest beginning of a text that some number of bytes can hold. -/
structure LongestWithin (bytes : Nat) (t p : Text) : Prop where
  isPrefix : p <+: t
  fits : utf8Len p ≤ bytes
  longest : ∀ q, q <+: t → utf8Len q ≤ bytes → q <+: p

/-- The loop stops behind the longest beginning that fits. `idx` bytes are behind it already. -/
theorem exists_endWithin (budget idx : Nat) (t : Text) (h : idx ≤ budget) :
    ∃ p, endWithin budget idx t = idx + utf8Len p ∧ LongestWithin (budget - idx) t p := by
  induction t generalizing idx with
  | nil => exact ⟨[], by simp [endWithin], List.prefix_rfl, by simp, fun q hq _ => hq⟩
  | cons ch t ih =>
    rw [endWithin]
    split
    · rename_i hlt
      refine ⟨[], by simp, List.nil_prefix, by simp, fun q hq hfit => ?_⟩
      cases q with
      | nil => exact List.nil_prefix
      | cons c q =>
        obtain rfl : c = ch := (List.cons_prefix_cons.mp hq).1
        rw [utf8Len_cons] at hfit
        omega
    · rename_i hle
      obtain ⟨p, hend, hp⟩ := ih (idx + ch.utf8Size) (by omega)
      refine ⟨ch :: p, by rw [hend, utf8Len_cons, Nat.add_assoc], List.cons_prefix_cons.mpr ⟨rfl, hp.isPrefix⟩, ?_,
        fun q hq hfit => ?_⟩
      · have := hp.fits
        rw [utf8Len_cons]
        omega
      · cases q with
        | nil => exact List.nil_prefix
        | cons c q =>
          obtain ⟨rfl, hrest⟩ := List.cons_prefix_cons.mp hq
          rw [utf8Len_cons] at hfit
          exact List.cons_prefix_cons.mpr ⟨rfl, hp.longest q hrest (by omega)⟩

/-- A long text is cut behind the longest beginning that leaves room for the ellipsis. -/
theorem exists_sanitizeOutbound_of_long {input : Text} (h : 480 < utf8Len (collapsed input)) :
    ∃ p, LongestWithin 477 (collapsed input) p ∧ sanitizeOutbound input = some (p ++ ['…']) := by
  obtain ⟨p, hend, hp⟩ := exists_endWithin 477 0 (collapsed input) (by omega)
  obtain ⟨rest, hrest⟩ := hp.isPrefix
  refine ⟨p, hp, ?_⟩
  have hbudget : maxOutboundBytes - ellipsis.utf8Size = 477 := by decide
  have htake : takeBytes (utf8Len p) (collapsed input) = some p := by
    rw [← hrest]
    exact takeBytes_append p rest
  rw [sanitizeOutbound, if_neg (show ¬ utf8Len (collapsed input) ≤ maxOutboundBytes by unfold maxOutboundBytes; omega)]
  simp only [hbudget, hend, Nat.zero_add, htake, Option.map_some]
  rfl

theorem sanitizeOutbound_of_short {input : Text} (h : utf8Len (collapsed input) ≤ 480) :
    sanitizeOutbound input = some (collapsed input) := if_pos h

/-! ## What is clean -/

/-- Blanks are spaces, and no two of them are neighbours. -/
structure Clean (t : Text) : Prop where
  space : ∀ c ∈ t, isSpace c = true → c = ' '
  spaced : Words.Spaced isSpace t

theorem clean_collapsed (input : Text) : Clean (collapsed input) where
  space c hc hb := by
    obtain h | h := Words.mem_squeeze hc
    · rw [h] at hb
      cases hb
    · exact h
  spaced := Words.spaced_squeeze false input

theorem Clean.collapsed_eq {t : Text} (h : Clean t) : collapsed t = t :=
  Words.squeeze_of_spaced h.spaced h.space (by simp)

/-- A beginning of a clean text with an ellipsis behind it is clean. -/
theorem Clean.cut {t p : Text} (h : Clean t) (hp : p <+: t) : Clean (p ++ ['…']) where
  space c hc hb := by
    obtain hc | hc := List.mem_append.mp hc
    · exact h.space c (hp.subset hc) hb
    · rw [List.mem_singleton.mp hc] at hb
      cases hb
  spaced := (h.spaced.of_start hp).append (List.isChain_singleton _) (.inr (by simp; decide))

/-- What a cleaned text is: it is clean, and short enough to pass as it is. -/
theorem exists_sanitizeOutbound (input : Text) : ∃ out, sanitizeOutbound input = some out ∧ Clean out ∧ utf8Len out ≤ 480 := by
  obtain h | h := Nat.lt_or_ge 480 (utf8Len (collapsed input))
  · obtain ⟨p, hp, hout⟩ := exists_sanitizeOutbound_of_long h
    refine ⟨_, hout, (clean_collapsed input).cut hp.isPrefix, ?_⟩
    have hfit := hp.fits
    have hlen : utf8Len ['…'] = 3 := by decide
    rw [utf8Len_append, hlen]
    omega
  · exact ⟨_, sanitizeOutbound_of_short h, clean_collapsed input, h⟩

/-! ## The normal form -/

/-- The text whose runs of blanks and control characters are single spaces. -/
def squeezed (input : Text) : Text := Words.squeezed isSpace ' ' input

/-- What is promised of an outbound text. -/
structure NormalForm (input out : Text) : Prop where
  noControl : ∀ c ∈ out, isControl c = false
  spaced : Words.Spaced RustStr.isWhitespace out
  space : ∀ c ∈ out, RustStr.isWhitespace c = true → c = ' '
  short : utf8Len out ≤ 480
  stable : sanitizeOutbound out = some out
  whole : utf8Len (squeezed input) ≤ 480 → out = squeezed input
  cut : 480 < utf8Len (squeezed input) → ∃ p, LongestWithin 477 (squeezed input) p ∧ out = p ++ ['…']

/-- Every text has a normal form, and it is what is sent. -/
theorem sanitizeOutbound_normalForm (input : Text) : ∃ out, sanitizeOutbound input = some out ∧ NormalForm input out := by
  obtain ⟨out, hout, hclean, hshort⟩ := exists_sanitizeOutbound input
  have hsq : squeezed input = collapsed input := (Words.squeeze_eq_squeezed isSpace ' ' input).symm
  refine ⟨out, hout, ?_, ?_, ?_, hshort, ?_, ?_, ?_⟩
  · intro c hc
    by_contra hctl
    have hc' := hclean.space c hc (by simp [isSpace, hctl])
    rw [hc'] at hctl
    exact hctl (by decide)
  · refine hclean.spaced.imp fun a b h => ?_
    simp only [isSpace, Bool.or_eq_false_iff] at h
    exact h.imp And.left And.left
  · intro c hc hw
    exact hclean.space c hc (by simp [isSpace, hw])
  · rw [sanitizeOutbound_of_short (by rw [hclean.collapsed_eq]; exact hshort), hclean.collapsed_eq]
  · intro h
    rw [hsq] at h ⊢
    exact Option.some.inj (hout.symm.trans (sanitizeOutbound_of_short h))
  · intro h
    rw [hsq] at h ⊢
    obtain ⟨p, hp, hcut⟩ := exists_sanitizeOutbound_of_long h
    exact ⟨p, hp, Option.some.inj (hout.symm.trans hcut)⟩

end Twitch1337.ChatSender
