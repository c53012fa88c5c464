import Twitch1337.Lib.Cursor

/-!
# Amounts

`commands/doener_calc.rs`: the amount that a user asks about is an arithmetic expression. The numbers, and how a literal is read,
are parameters. The loops and the recursion count down.
-/

namespace Twitch1337.DoenerCalc

open Text RustStr Cursor

/-- The arithmetic of the amounts. -/
structure Arith (V : Type) where
  one : V
  neg : V → V
  add : V → V → V
  sub : V → V → V
  mul : V → V → V
  div : V → V → V
  parseNumberLiteral : Text → Option V

/-- What the loop over the characters of a number has seen. -/
structure NumberScan where
  sawDigit : Bool := false
  sawExp : Bool := false
  needExpDigit : Bool := false

section

variable {V : Type} (A : Arith V) (input : Text) (fuel : Nat)

def skipWs : Parser Unit := skipWhile input isWhitespace fuel

def numberStep (s : NumberScan) : Parser (Option NumberScan) := do
  match ← peek input with
  | none => return none
  | some ch =>
    if ch.isDigit then
      let _ ← bump input
      return some { s with sawDigit := true, needExpDigit := false }
    else if !s.sawExp && (ch == '.' || ch == ',') then
      let _ ← bump input
      return some s
    else if !s.sawExp && (ch == 'e' || ch == 'E') && s.sawDigit then
      let _ ← bump input
      let next ← peek input
      if next = some '+' ∨ next = some '-' then
        let _ ← bump input
        return some { s with sawExp := true, needExpDigit := true }
      else return some { s with sawExp := true, needExpDigit := true }
    else return none

def parseNumber : Parser V := do
  skipWs input fuel
  let start ← get
  let s ← loop (numberStep input) fuel {}
  if !s.sawDigit || s.needExpDigit then throw .fail
  else
    let t ← slice input start
    orFail (A.parseNumberLiteral t)

def signStep (sign : V) : Parser (Option V) := do
  match ← peek input with
  | none => return none
  | some ch =>
    if ch = '+' then
      let _ ← bump input
      skipWs input fuel
      return some sign
    else if ch = '-' then
      let _ ← bump input
      skipWs input fuel
      return some (A.neg sign)
    else return none

/-- The value of a factor without its signs. -/
def parseValue (parseExpr : Parser V) : Parser V := do
  match ← peek input with
  | none => throw .fail
  | some ch =>
    if ch = '(' then
      let _ ← bump input
      let inner ← parseExpr
      skipWs input fuel
      let close ← bump input
      if close = some ')' then return inner else throw .fail
    else parseNumber A input fuel

def parseFactor (parseExpr : Parser V) : Parser V := do
  skipWs input fuel
  let sign ← loop (signStep A input fuel) fuel A.one
  let value ← parseValue A input fuel parseExpr
  return A.mul sign value

def products (ch : Char) : Option (V → V → V) :=
  if ch = '*' then some A.mul else if ch = '/' then some A.div else none

def sums (ch : Char) : Option (V → V → V) :=
  if ch = '+' then some A.add else if ch = '-' then some A.sub else none

def parseTerm (parseExpr : Parser V) : Parser V :=
  chain input isWhitespace (products A) (parseFactor A input fuel parseExpr) fuel

def parseExpr : Nat → Parser V
  | 0 => throw .fuel
  | fuel + 1 => chain input isWhitespace (sums A) (parseTerm A input (fuel + 1) (parseExpr fuel)) (fuel + 1)

end

/-- The amount of a text. -/
def parseEuroAmount {V : Type} (A : Arith V) (fuel : Nat) (raw : Text) : Except Stop V :=
  let t := trimChars raw
  if t = [] then .error .fail
  else
    let t := trimChars ((stripSuffix ['€'] t).getD t)
    StateT.run' (do
      let value ← parseExpr A t fuel
      skipWs t fuel
      if ← isEof t then return value else throw .fail) 0

end Twitch1337.DoenerCalc
