import Twitch1337.Lib.Reference
import Twitch1337.Web.Redirect

/-!
# Where a login leads

A browser drops the tabs of a path, and the check does not. A path that passes stays on the site unless tabs stand between its
first slash and a second one.
-/

namespace Twitch1337.Auth

open Text Reference

/-- A second slash follows the first one, behind tabs if there are any. -/
def SecondSlash (path : Text) : Prop := (path.tail.dropWhile (· == '\t')).head? = some '/'

instance (path : Text) : Decidable (SecondSlash path) := inferInstanceAs (Decidable (_ = _))

/-- On every page the path leads to that page's site. -/
def StaysOnSite (P : Parts) (path : Text) : Prop := ∀ base, resolve P base path = some base

variable {P : Parts} {path : Text}

/-! ## Paths that pass -/

structure Safe (path rest : Text) : Prop where
  starts : path = '/' :: rest
  plain : ∀ c ∈ path, c ≠ '\r' ∧ c ≠ '\n' ∧ c ≠ '\\'

theorem exists_safe (h : isSafeRedirect path = true) : ∃ rest, Safe path rest := by
  simp only [isSafeRedirect, Bool.and_eq_true, beq_iff_eq] at h
  obtain ⟨⟨⟨⟨hslash, _⟩, _⟩, _⟩, hplain⟩ := h
  cases path with
  | nil => cases hslash
  | cons c rest =>
    obtain rfl : c = '/' := Option.some.inj hslash
    refine ⟨rest, rfl, fun c hc => ?_⟩
    rw [Bool.not_eq_true', List.any_eq_false] at hplain
    have := hplain c hc
    simpa [not_or, and_assoc] using this

/-- The redirect of a login is one that passes. -/
theorem isSafeRedirect_nextPath (cookie : Option Text) : isSafeRedirect (nextPath cookie) = true := by
  unfold nextPath
  cases h : cookie.filter isSafeRedirect with
  | none => decide
  | some path => exact (Option.filter_eq_some_iff.mp h).2

/-- A path that passes comes back from its cookie. -/
theorem nextPath_nextCookie (h : isSafeRedirect path = true) : nextPath (nextCookie (some path)) = path := by
  have hpass : (some path).filter isSafeRedirect = some path := Option.filter_eq_some_iff.mpr ⟨rfl, h⟩
  rw [nextPath, nextCookie, hpass, hpass, Option.getD_some]

/-! ## What a browser makes of them -/

/-- The first character that is read is the first one that is no tab, where that is a slash. -/
theorem head?_read_iff {rest : Text} (hplain : ∀ c ∈ rest, c ≠ '\r' ∧ c ≠ '\n' ∧ c ≠ '\\') :
    ((rest.rdropWhile isControlOrSpace).filter fun c => !isTabOrNewline c).head? = some '/' ↔
      (rest.dropWhile (· == '\t')).head? = some '/' := by
  induction rest with
  | nil => simp
  | cons c rest ih =>
    have hrest := ih fun d hd => hplain d (List.mem_cons_of_mem c hd)
    obtain ⟨hr, hn, _⟩ := hplain c List.mem_cons_self
    rw [rdropWhile_cons]
    by_cases htab : c = '\t'
    · subst htab
      rw [List.dropWhile_cons_of_pos (by decide), ← hrest]
      split
      · rename_i hnil
        rw [hnil.1]
      · rw [List.filter_cons_of_neg (by decide)]
    · have hread : isTabOrNewline c = false := by simp [isTabOrNewline, htab, hr, hn]
      rw [List.dropWhile_cons_of_neg (by simp [htab])]
      split
      · rename_i hdrop
        have hc : c ≠ '/' := by
          rintro rfl
          exact absurd hdrop.2 (by decide)
        simp [hc]
      · rw [List.filter_cons_of_pos (by simp [hread])]
        rfl

/-- A path that passes stays on the site exactly when no second slash follows its first one behind tabs. -/
theorem stays_iff (P : Parts) (path : Text) (h : isSafeRedirect path = true) : StaysOnSite P path ↔ ¬ SecondSlash path := by
  obtain ⟨rest, rfl, hplain⟩ := exists_safe h
  have hrest : ∀ c ∈ rest, c ≠ '\r' ∧ c ≠ '\n' ∧ c ≠ '\\' := fun c hc => hplain c (List.mem_cons_of_mem _ hc)
  have hfirst := head?_read_iff hrest
  have hread : ∀ c ∈ (rest.rdropWhile isControlOrSpace).filter (fun c => !isTabOrNewline c), c ≠ '\\' := fun c hc =>
    (hrest c ((List.rdropWhile_prefix isControlOrSpace rest).subset (List.mem_of_mem_filter hc))).2.2
  unfold StaysOnSite SecondSlash
  rw [List.tail_cons, ← hfirst]
  simp only [resolve_slash, clean_slash]
  generalize (rest.rdropWhile isControlOrSpace).filter (fun c => !isTabOrNewline c) = u at hread
  cases u with
  | nil => simp [relative]
  | cons d u =>
    by_cases hd : d = '/'
    · subst hd
      obtain ⟨base, hbase⟩ := exists_other_site P (u.dropWhile isSlash)
      exact ⟨fun hall => absurd (hall base) hbase, fun hne => absurd rfl hne⟩
    · have hslash : isSlash d = false := by simp [isSlash, hd, hread d List.mem_cons_self]
      simp [relative, hslash, hd]

namespace Examples

/-- A host up to the next slash, without a port. -/
def plainParts : Parts where
  authority _ t := some (t.takeWhile (· ≠ '/'), none)
  absolute _ _ := none

def bot : Site := ⟨.https, "bot.example".toList, none⟩

/-- A page of the dashboard. -/
theorem the_pings_stay : StaysOnSite plainParts "/pings".toList :=
  (stays_iff plainParts "/pings".toList (by decide)).mpr (by decide)

/-- A tab between two slashes leads to another host. -/
theorem a_tab_leads_away :
    isSafeRedirect "/\t/evil.example/x".toList = true ∧ ¬ StaysOnSite plainParts "/\t/evil.example/x".toList := by
  refine ⟨by decide, fun h => ?_⟩
  exact absurd (h bot) (by decide)

end Examples

end Twitch1337.Auth
