import Twitch1337.Lib.Text

/-!
# References

What a browser makes of a reference on a page: it drops control characters and spaces at both ends and every tab and newline, takes a
backslash for a slash, and then looks for a scheme and for slashes. How it reads an authority, and URLs of other schemes, is a
parameter.
-/

namespace Reference

open Text

/-- The schemes of pages. -/
inductive Scheme where
  | http
  | https
  deriving DecidableEq

def Scheme.name : Scheme → Text
  | .http => "http".toList
  | .https => "https".toList

/-- The site of a page. No port is the one of the scheme. -/
structure Site where
  scheme : Scheme
  host : Text
  port : Option Nat
  deriving DecidableEq

/-- What the text from an authority on says, and URLs of a scheme by what follows its colon. -/
structure Parts where
  authority : Scheme → Text → Option (Text × Option Nat)
  absolute : Text → Text → Option Site

def isControlOrSpace (c : Char) : Bool := c.toNat ≤ 0x20

def isTabOrNewline (c : Char) : Bool := c = '\t' || c = '\n' || c = '\r'

def isSlash (c : Char) : Bool := c = '/' || c = '\\'

/-- The characters that are read. -/
def clean (t : Text) : Text := ((t.dropWhile isControlOrSpace).rdropWhile isControlOrSpace).filter fun c => !isTabOrNewline c

def isSchemeChar (c : Char) : Bool := c.isAlphanum || c = '+' || c = '-' || c = '.'

/-- The scheme of a URL and what follows its colon. -/
def splitScheme (t : Text) : Option (Text × Text) :=
  (splitOnce [':'] t).filter fun s => s.1.all isSchemeChar && (s.1.head?.any Char.isAlpha)

/-- A reference without a scheme: two slashes or more stand before an authority. -/
def relative (P : Parts) (base : Site) : Text → Option Site
  | c :: d :: rest =>
    if isSlash c && isSlash d then
      (P.authority base.scheme (rest.dropWhile isSlash)).map fun a => ⟨base.scheme, a.1, a.2⟩
    else some base
  | _ => some base

/-- Where a reference on a page leads. Nothing, when it is no URL or no URL of a page. -/
def resolve (P : Parts) (base : Site) (t : Text) : Option Site :=
  match splitScheme (clean t) with
  | none => relative P base (clean t)
  | some (scheme, rest) =>
    if toAsciiLowercase scheme = base.scheme.name then relative P base rest else P.absolute (toAsciiLowercase scheme) rest

/-! ## References that start with a slash -/

variable {P : Parts} {base : Site} {t : Text}

/-- A character is dropped from the end with what follows it. -/
theorem rdropWhile_cons (p : Char → Bool) (c : Char) (t : Text) :
    (c :: t).rdropWhile p = if t.rdropWhile p = [] ∧ p c = true then [] else c :: t.rdropWhile p := by
  rw [List.rdropWhile, List.rdropWhile, List.reverse_cons, List.dropWhile_append]
  cases h : t.reverse.dropWhile p with
  | nil =>
    by_cases hc : p c = true
    · simp [hc]
    · simp [hc]
  | cons d u => simp

theorem clean_slash (t : Text) :
    clean ('/' :: t) = '/' :: (t.rdropWhile isControlOrSpace).filter fun c => !isTabOrNewline c := by
  have hslash : isControlOrSpace '/' = false := by decide
  rw [clean, List.dropWhile_cons_of_neg (by decide), rdropWhile_cons, if_neg (by simp [hslash]), List.filter_cons_of_pos (by decide)]

/-- A slash is in no scheme. -/
theorem splitScheme_slash (t : Text) : splitScheme ('/' :: t) = none := by
  unfold splitScheme
  rw [Option.filter_eq_none_iff]
  rintro ⟨scheme, rest⟩ hs
  have heq := eq_of_splitOnce hs
  cases scheme with
  | nil => simp at heq
  | cons c scheme =>
    obtain rfl : '/' = c := (List.cons.inj heq).1
    simp [isSchemeChar]

/-- One slash keeps the site, and two lead to an authority. -/
theorem resolve_slash (P : Parts) (base : Site) (t : Text) :
    resolve P base ('/' :: t) = relative P base (clean ('/' :: t)) := by
  rw [resolve, clean_slash, splitScheme_slash]

/-- An authority is not the one of every page. -/
theorem exists_other_site (P : Parts) (t : Text) :
    ∃ base : Site, ((P.authority base.scheme t).map fun a => (⟨base.scheme, a.1, a.2⟩ : Site)) ≠ some base := by
  cases h : P.authority .https t with
  | none => exact ⟨⟨.https, ['a'], none⟩, by simp [h]⟩
  | some a =>
    -- A page of the same host with another port.
    refine ⟨⟨.https, a.1, if a.2 = none then some 8443 else none⟩, ?_⟩
    intro heq
    have hport := congrArg (Option.map Site.port) heq
    simp only [h, Option.map_some, Option.some.injEq] at hport
    split at hport
    · simp_all
    · simp_all

end Reference
