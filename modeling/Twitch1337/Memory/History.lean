import Twitch1337.Lib.Chronicle
import Twitch1337.Memory.Traffic

/-!
# What the log of the traffic says of the files

The versions of a file that follow from the log, by the writes and removals in it. Nothing here is in the code: it is what the
statements about runs are made of.
-/

namespace Twitch1337.Memory

open Chronicle

/-! ## Versions -/

/-- The body that a version of a file is read as. No file reads as an empty body. -/
def bodyOf (R : Rfc3339) : Option File → Option Text
  | none => some []
  | some file =>
    match file.content with
    | none => none
    | some raw =>
      match parse R raw with
      | .ok (_, body) => some body
      | .error _ => none

/-- The creator in a version of a file that can be read. -/
def creatorIn (R : Rfc3339) (file : Option File) : Option Text :=
  (frontmatter? R (file.bind (·.content))).bind (·.createdBy)

/-- The modification time of a version. No file has zero. -/
def mtimeOf : Option File → Mtime
  | none => 0
  | some file => file.mtime

/-! ## Entries -/

/-- The file whose version an entry changes. -/
def Obs.changed : Obs → Option FileKind
  | wrote _ _ op _ _ => some op.kind
  | removed _ _ kind _ => some kind
  | _ => none

/-- The process that changes a file, and where its operation comes from. -/
def Obs.changer : Obs → Option (Nat × Source)
  | wrote p src .. => some (p, src)
  | removed p src .. => some (p, src)
  | _ => none

/-- What an entry makes of the version of a file. -/
def Obs.leaves (kind : FileKind) (before : Option File) : Obs → Option File
  | wrote _ _ op _ after => if op.kind = kind then some after else before
  | removed _ _ k _ => if k = kind then none else before
  | _ => before

def Obs.isWrite : Obs → Bool
  | wrote .. => true
  | _ => false

/-- The version of a file after the entries of a log. -/
def versionAfter (d : Disk) (kind : FileKind) (log : List Obs) : Option File :=
  replay (Obs.leaves kind) (d.files.lookup kind) log

/-- The entries tell the truth: each names the version there was, and the time of a write is its number. -/
def Obs.Faithful (R : Rfc3339) (d : Disk) (past : List Obs) : Obs → Prop
  | opened _ kind body => bodyOf R (versionAfter d kind past) = some body
  | shown _ kind _ token => mtimeOf (versionAfter d kind past) = token
  | judged _ slug owner => creatorIn R (versionAfter d (.state slug) past) = owner
  | granted .. => True
  | checked _ kind token => mtimeOf (versionAfter d kind past) = token
  | wrote _ _ op before after =>
    versionAfter d op.kind past = before ∧ after.mtime = d.writes + past.countP Obs.isWrite + 1 ∧ after.content.isSome
  | removed _ _ kind before => versionAfter d kind past = before

end Twitch1337.Memory
