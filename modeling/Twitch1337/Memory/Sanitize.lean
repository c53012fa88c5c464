import Twitch1337.Memory.Types

/-!
# Checks of paths, slugs and bodies

`ai/memory/sanitize.rs`, and the check of slugs in `ai/memory/store.rs`.
-/

namespace Twitch1337.Memory

open Text

/-! ## Paths -/

/-- What the model may write with `write_file`. -/
inductive WritePath where
  | soul
  | lore
  | user (userId : Text)
  deriving DecidableEq

def WritePath.toKind : WritePath → FileKind
  | soul => .soul
  | lore => .lore
  | user userId => .user userId

/-- The path a text names. Nothing is the error `invalid_path`. -/
def parseWritePath (path : Text) : Option WritePath :=
  if path = "SOUL.md".toList then some .soul
  else if path = "LORE.md".toList then some .lore
  else match (stripPrefix "users/".toList path).bind (stripSuffix ".md".toList) with
    | some id => if id ≠ [] ∧ id.all Char.isDigit then some (.user id) else none
    | none => none

/-! ## Slugs -/

/-- Slugs that the tools turn down in any case. -/
def reserved : List Text :=
  ["soul", "lore", "system", "admin", "assistant", "user", "tool", "dreamer", "prompt", "instructions", "new",
    "delete"].map String.toList

inductive SlugError where
  | invalid
  | reserved
  deriving DecidableEq

def SlugError.text : SlugError → Text
  | invalid => "invalid_slug".toList
  | reserved => "reserved_slug".toList

/-- A lower case letter or a digit, of ASCII. -/
def isSlugStart (c : Char) : Bool := c.isLower || c.isDigit

def parseSlug (slug : Text) : Except SlugError Text :=
  if reserved.any fun r => toAsciiLowercase r == toAsciiLowercase slug then .error .reserved
  else if !(slug.head?.any isSlugStart) || !((slug.drop 1).all fun c => isSlugStart c || c == '-') ||
      64 < utf8Len slug then .error .invalid
  else .ok slug

/-- Whether a slug of ASCII characters ends in `-YYYY-MM-DD`. -/
def hasTrailingIsoDate (slug : Text) : Bool :=
  if slug.length < 11 then false
  else match slug.drop (slug.length - 11) with
    | [d0, y0, y1, y2, y3, d1, m0, m1, d2, a0, a1] =>
      d0 == '-' && [y0, y1, y2, y3].all Char.isDigit && d1 == '-' && [m0, m1].all Char.isDigit && d2 == '-' &&
        [a0, a1].all Char.isDigit
    | _ => false

/-- Slugs that the dashboard reserves for its own routes. -/
def reservedStateSlugs : List Text := ["new".toList, "delete".toList]

/-- `validate_state_slug`, the check of the store itself. -/
def validateStateSlug (slug : Text) : Bool :=
  !(slug.isEmpty || 64 < utf8Len slug) && !reservedStateSlugs.contains slug && !contains "..".toList slug &&
    slug.all fun c => c.isAlphanum || c == '.' || c == '_' || c == '-'

/-! ## Bodies and names -/

def fenceOpen : Text := "<<<FILE ".toList

def fenceClose : Text := "<<<ENDFILE ".toList

/-- Headings that would pass for a file of the memory. -/
def forgedHeadings : List Text := ["# SOUL", "# LORE", "# users/", "# state/"].map String.toList

/-- `check_body`: whether the tools take a body. -/
def checkBody (body : Text) : Bool :=
  !decide ('\r' ∈ body) && !"---".toList.isPrefixOf body &&
    !(contains "\n---\n".toList body || "\n---".toList.isSuffixOf body) &&
    !((lines body).any fun line => forgedHeadings.any fun heading => heading.isPrefixOf line) &&
    !(contains fenceOpen body || contains fenceClose body)

/-- Zero-width characters and marks that turn the direction of writing. -/
def isHidden (c : Char) : Bool :=
  (0x200B ≤ c.toNat && c.toNat ≤ 0x200F) || (0x202A ≤ c.toNat && c.toNat ≤ 0x202E) ||
    (0x2066 ≤ c.toNat && c.toNat ≤ 0x2069) || c.toNat == 0xFEFF

/-- `normalize_display_name`. -/
def normalizeDisplayName (raw : Text) : Text := ((raw.filter fun c => !isControl c).filter fun c => !isHidden c).take 64

end Twitch1337.Memory
