import Twitch1337.Memory.Types

/-!
# The frontmatter

`ai/memory/frontmatter.rs`: how a memory file is written and read, line by line. The text of an instant is a parameter.
-/

namespace Twitch1337.Memory

open Chrono RustStr Text

/-! ## Timestamps -/

/-- The instants of the years from 0 to 9999. -/
def FourDigitYear (t : Instant) : Prop := seconds (-62167219200) ≤ t ∧ t < seconds 253402300800

instance (t : Instant) : Decidable (FourDigitYear t) := inferInstanceAs (Decidable (_ ∧ _))

/-- An instant without what is finer than a millisecond. -/
def toMillis (t : Instant) : Instant := t / 1000000 * 1000000

/-- RFC 3339: `to_rfc3339_opts` with milliseconds and `parse_from_rfc3339`, with what is known of them. The text of an instant
is on one line, without blanks around it, and the instant is read back from it, up to milliseconds. -/
structure Rfc3339 where
  format : Instant → Text
  parse : Text → Except Text Instant
  format_ne_nil : ∀ t, FourDigitYear t → format t ≠ []
  format_trimmed : ∀ t, FourDigitYear t → Trimmed (format t)
  format_one_line : ∀ t, FourDigitYear t → '\n' ∉ format t
  parse_format : ∀ t, FourDigitYear t → parse (format t) = .ok (toMillis t)

/-! ## Parse and emit -/

inductive FrontmatterError where
  | delimiters
  | missingField (name : Text)
  | badTimestamp (message : Text)
  deriving DecidableEq

/-- What an error says. -/
def FrontmatterError.text : FrontmatterError → Text
  | delimiters => "missing or malformed frontmatter delimiters".toList
  | missingField name => "missing required field: ".toList ++ name
  | badTimestamp message => "invalid timestamp: ".toList ++ message

/-- The line before and after the fields. -/
def delimiter : Text := "---\n".toList

def updatedAtKey : Text := "updated_at".toList

def usernameKey : Text := "username".toList

def displayNameKey : Text := "display_name".toList

def createdByKey : Text := "created_by".toList

/-- The fields that were read so far. -/
structure Fields where
  updatedAt : Option Instant
  username : Option Text
  displayName : Option Text
  createdBy : Option Text

def Fields.none : Fields := ⟨.none, .none, .none, .none⟩

/-- One line of the frontmatter. The last line of a key counts, lines of other keys do not, and neither do empty values. -/
def parseLine (R : Rfc3339) (f : Fields) (line : Text) : Except FrontmatterError Fields :=
  match splitOnce [':'] line with
  | none => .ok f
  | some (k, v) =>
    let v := trimChars v
    let k := trimChars k
    if k = updatedAtKey then
      match R.parse v with
      | .error message => .error (.badTimestamp message)
      | .ok dt => .ok { f with updatedAt := some dt }
    else if k = usernameKey ∧ v ≠ [] then .ok { f with username := some v }
    else if k = displayNameKey ∧ v ≠ [] then .ok { f with displayName := some v }
    else if k = createdByKey ∧ v ≠ [] then .ok { f with createdBy := some v }
    else .ok f

/-- The lines of the frontmatter, one after the other. -/
def parseLines (R : Rfc3339) : Fields → List Text → Except FrontmatterError Fields
  | f, [] => .ok f
  | f, line :: rest =>
    match parseLine R f line with
    | .error e => .error e
    | .ok f' => parseLines R f' rest

/-- The frontmatter and the body of a file. -/
def parse (R : Rfc3339) (raw : Text) : Except FrontmatterError (Frontmatter × Text) :=
  match stripPrefix delimiter raw with
  | none => .error .delimiters
  | some rest =>
    match splitOnce ('\n' :: delimiter) rest with
    | none => .error .delimiters
    | some (yaml, body) =>
      match parseLines R .none (lines yaml) with
      | .error e => .error e
      | .ok f =>
        match f.updatedAt with
        | none => .error (.missingField updatedAtKey)
        | some updatedAt => .ok (⟨updatedAt, f.username, f.displayName, f.createdBy⟩, body)

/-- The line of a field. -/
def emitField (key : Text) : Option Text → Text
  | none => []
  | some v => key ++ [':', ' '] ++ v ++ ['\n']

def emit (R : Rfc3339) (fm : Frontmatter) (body : Text) : Text :=
  delimiter ++ emitField updatedAtKey (some (R.format fm.updatedAt)) ++ emitField usernameKey fm.username ++
    emitField displayNameKey fm.displayName ++ emitField createdByKey fm.createdBy ++ delimiter ++ body

end Twitch1337.Memory
