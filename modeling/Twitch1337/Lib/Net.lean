import Twitch1337.Lib.Text

/-!
# IP addresses

The two kinds of addresses, and the parser of their textual forms, which reads as much as it can and fails where something is
left. A number of an IPv4 address has at most three digits and no leading zero, a group of an IPv6 address at most four.
-/

namespace Net

open Text

/-- Four bytes. -/
structure Ipv4Addr where
  a : UInt8
  b : UInt8
  c : UInt8
  d : UInt8
  deriving DecidableEq, Repr

/-- The eight segments of an address. -/
structure Ipv6Addr where
  a : UInt16
  b : UInt16
  c : UInt16
  d : UInt16
  e : UInt16
  f : UInt16
  g : UInt16
  h : UInt16
  deriving DecidableEq, Repr

/-- An address of either version. -/
inductive IpAddr where
  | v4 (addr : Ipv4Addr)
  | v6 (addr : Ipv6Addr)
  deriving DecidableEq, Repr

/-! ## Kinds of addresses -/

namespace Ipv4Addr

def isLoopback (x : Ipv4Addr) : Bool := x.a = 127

/-- The addresses of private networks. -/
def isPrivate (x : Ipv4Addr) : Bool :=
  x.a = 10 || (x.a = 172 && 16 ≤ x.b && x.b ≤ 31) || (x.a = 192 && x.b = 168)

def isLinkLocal (x : Ipv4Addr) : Bool := x.a = 169 && x.b = 254

def isBroadcast (x : Ipv4Addr) : Bool := x = ⟨255, 255, 255, 255⟩

def isUnspecified (x : Ipv4Addr) : Bool := x = ⟨0, 0, 0, 0⟩

/-- Those of examples. -/
def isDocumentation (x : Ipv4Addr) : Bool :=
  (x.a = 192 && x.b = 0 && x.c = 2) || (x.a = 198 && x.b = 51 && x.c = 100) || (x.a = 203 && x.b = 0 && x.c = 113)

end Ipv4Addr

namespace Ipv6Addr

def isLoopback (x : Ipv6Addr) : Bool := x = ⟨0, 0, 0, 0, 0, 0, 0, 1⟩

def isUniqueLocal (x : Ipv6Addr) : Bool := x.a &&& 0xfe00 = 0xfc00

def isUnicastLinkLocal (x : Ipv6Addr) : Bool := x.a &&& 0xffc0 = 0xfe80

def isUnspecified (x : Ipv6Addr) : Bool := x = ⟨0, 0, 0, 0, 0, 0, 0, 0⟩

/-- The IPv4 address of `::ffff:a.b.c.d`. -/
def toIpv4Mapped (x : Ipv6Addr) : Option Ipv4Addr :=
  if x.a = 0 ∧ x.b = 0 ∧ x.c = 0 ∧ x.d = 0 ∧ x.e = 0 ∧ x.f = 0xffff then
    some ⟨(x.g >>> 8).toUInt8, x.g.toUInt8, (x.h >>> 8).toUInt8, x.h.toUInt8⟩
  else none

end Ipv6Addr

/-! ## Parsing -/

/-- `char::to_digit`. -/
def toDigit (radix : Nat) (c : Char) : Option Nat :=
  let digit :=
    if '0' ≤ c ∧ c ≤ '9' then some (c.toNat - '0'.toNat)
    else if 'a' ≤ c ∧ c ≤ 'z' then some (c.toNat - 'a'.toNat + 10)
    else if 'A' ≤ c ∧ c ≤ 'Z' then some (c.toNat - 'A'.toNat + 10)
    else none
  digit.filter (· < radix)

/-- A number below a limit, and what is left after it. -/
def readNumber (radix maxDigits limit : Nat) (allowZeroPrefix : Bool) (t : Text) : Option (Nat × Text) :=
  let digits := t.takeWhile fun c => (toDigit radix c).isSome
  let value := digits.foldl (fun n c => n * radix + (toDigit radix c).getD 0) 0
  if digits.isEmpty then none
  else if maxDigits < digits.length then none
  else if !allowZeroPrefix && digits.head? = some '0' && 1 < digits.length then none
  else if limit ≤ value then none
  else some (value, t.drop digits.length)

/-- Something that is preceded by a separator when it is not the first. -/
def readSeparated {α : Type*} (sep : Char) (index : Nat) (inner : Text → Option (α × Text)) (t : Text) :
    Option (α × Text) :=
  if index = 0 then inner t
  else
    match t with
    | [] => none
    | c :: t => if c = sep then inner t else none

/-- The next byte of an address, behind a dot unless it is the first. -/
def readOctet (index : Nat) : Text → Option (Nat × Text) := readSeparated '.' index (readNumber 10 3 256 false)

/-- Four bytes with dots between them. -/
def readIpv4Addr (t : Text) : Option (Ipv4Addr × Text) := do
  let (a, t) ← readOctet 0 t
  let (b, t) ← readOctet 1 t
  let (c, t) ← readOctet 2 t
  let (d, t) ← readOctet 3 t
  return (⟨.ofNat a, .ofNat b, .ofNat c, .ofNat d⟩, t)

/-- The groups of an IPv6 address from a first one on, whether they end with an embedded IPv4 address, and what is left. -/
def readGroups (limit : Nat) : Nat → Nat → Text → List Nat × Bool × Text
  | 0, _, t => ([], false, t)
  | slots + 1, i, t =>
    match if i + 1 < limit then readSeparated ':' i readIpv4Addr t else none with
    | some (v4, t) => ([v4.a.toNat * 256 + v4.b.toNat, v4.c.toNat * 256 + v4.d.toNat], true, t)
    | none =>
      match readSeparated ':' i (readNumber 16 4 65536 true) t with
      | some (group, t) =>
        let (groups, v4, t) := readGroups limit slots (i + 1) t
        (group :: groups, v4, t)
      | none => ([], false, t)

/-- Eight groups make an address. -/
def Ipv6Addr.ofGroups : List Nat → Option Ipv6Addr
  | [a, b, c, d, e, f, g, h] => some ⟨.ofNat a, .ofNat b, .ofNat c, .ofNat d, .ofNat e, .ofNat f, .ofNat g, .ofNat h⟩
  | _ => none

/-- Groups, some of which two colons may stand for. -/
def readIpv6Addr (t : Text) : Option (Ipv6Addr × Text) :=
  let (head, headV4, t) := readGroups 8 8 0 t
  if head.length = 8 then (Ipv6Addr.ofGroups head).map (·, t)
  else if headV4 then none
  else
    match t with
    | ':' :: ':' :: t =>
      let limit := 8 - (head.length + 1)
      let (tail, _, t) := readGroups limit limit 0 t
      (Ipv6Addr.ofGroups (head ++ List.replicate (8 - head.length - tail.length) 0 ++ tail)).map (·, t)
    | _ => none

/-- An address of the first version that fits. -/
def readIpAddr (t : Text) : Option (IpAddr × Text) :=
  match readIpv4Addr t with
  | some (addr, t) => some (.v4 addr, t)
  | none => (readIpv6Addr t).map fun r => (.v6 r.1, r.2)

/-- `parse::<IpAddr>`. -/
def parseIpAddr (t : Text) : Option IpAddr :=
  match readIpAddr t with
  | some (addr, []) => some addr
  | _ => none

example : parseIpAddr "169.254.10.1".toList = some (.v4 ⟨169, 254, 10, 1⟩) := by decide +kernel

example : parseIpAddr "fe80::ffff:1.2.3.4".toList = some (.v6 ⟨0xfe80, 0, 0, 0, 0, 0xffff, 0x102, 0x304⟩) := by decide +kernel

end Net
