import Cosim.Dictionary.Value

/-!
# JSON numbers

An integer that fits 64 bits stays an integer.  Any other number is the double of its leading
digits, as many as fit 64 bits, scaled once by a power of ten; this is not always the double
nearest to the literal.
-/

namespace Cosim.Json

/-- The least number that does not fit the significand. -/
def significandBound : Nat := Nat.pow 2 64

/-- Scales a double by a power of ten, in steps of at most `10 ^ 308`.  A result beyond the
doubles is refused.  The first argument bounds the number of steps. -/
private def scaleBy : Nat → Float → Int → Option Float
  | 0, f, _ => some f
  | steps + 1, f, e =>
    if e.natAbs ≤ 308 then
      let power := (Double.ofDecimal false 1 e.natAbs).toFloat
      if 0 ≤ e then
        let scaled := f * power
        if scaled.isInf then none else some scaled
      else some (f / power)
    else if f == 0.0 then some f
    else if 0 ≤ e then none
    else scaleBy steps (f / (Double.ofDecimal false 1 308).toFloat) (e + 308)

/-- The double `significand * 10 ^ exponent`, with its sign. -/
def scaled? (negative : Bool) (significand : Nat) (exponent : Int) : Option Number :=
  let steps := exponent.natAbs / 308 + 1
  (scaleBy steps (Double.ofNat significand).toFloat exponent).map fun f =>
    let x := Double.ofFloat f
    .real (if negative then x.neg else x)

/-- Appends digits to a significand while it fits; the rest of the digits is returned. -/
private def takeDigits (significand : Nat) : List Char → Nat × List Char
  | [] => (significand, [])
  | c :: cs =>
    let next := 10 * significand + (Literal.digit? c).getD 0
    if next < significandBound then takeDigits next cs else (significand, c :: cs)

/-- The exponent part of a number: the text behind the letter. -/
private def exponent? (negative : Bool) (significand : Nat) (start : Int) (cs : List Char) :
    Option (Number × List Char) :=
  let (down, body) := Literal.splitSign cs
  let digits := body.takeWhile Literal.isDigit
  let rest := body.dropWhile Literal.isDigit
  if digits.isEmpty then none else
    let power := Literal.digitsValue 0 digits
    if Nat.pow 2 31 ≤ power then
      if significand != 0 && !down then none
      else some (.real (Double.ofMagnitude negative 0), rest)
    else
      (scaled? negative significand (if down then start - power else start + power)).map (·, rest)

/-- A number that is no integer: its digits so far, and the text from the point or exponent on. -/
private def real? (negative : Bool) (significand : Nat) (start : Int) (cs : List Char) :
    Option (Number × List Char) :=
  let finish (significand : Nat) (start : Int) (cs : List Char) : Option (Number × List Char) :=
    match cs with
    | 'e' :: rest => exponent? negative significand start rest
    | 'E' :: rest => exponent? negative significand start rest
    | rest => (scaled? negative significand start).map (·, rest)
  match cs with
  | '.' :: more =>
    let digits := more.takeWhile Literal.isDigit
    if digits.isEmpty then none else
      let (significand, unused) := takeDigits significand digits
      finish significand (start - (digits.length - unused.length)) (more.dropWhile Literal.isDigit)
  | rest => finish significand start rest

/-- The number at the start of a text, and what follows it. -/
def number? (cs : List Char) : Option (Number × List Char) :=
  let (negative, body) := match cs with
    | '-' :: rest => (true, rest)
    | _ => (false, cs)
  let digits := body.takeWhile Literal.isDigit
  let rest := body.dropWhile Literal.isDigit
  if digits.isEmpty || (digits.head? == some '0' && 1 < digits.length) then none else
    let (significand, unused) := takeDigits 0 digits
    let isReal := match rest with
      | c :: _ => c == '.' || c == 'e' || c == 'E'
      | [] => false
    if isReal || !unused.isEmpty then real? negative significand unused.length rest
    else if !negative then some (.int significand, rest)
    else if significand == 0 || Nat.pow 2 63 < significand then
      some (.real (Double.ofNat significand).neg, rest)
    else some (.int (-(significand : Int)), rest)

end Cosim.Json
