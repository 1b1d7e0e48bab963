import Cosim.Number.Double

/-!
# Number literals

Reading numbers from text.  A real literal is an optional sign followed by `inf`, `infinity` or
`nan` in any case, or by digits with an optional point and an optional exponent, where at least one
digit stands before the exponent.  An integer literal is an optional sign followed by digits.
-/

namespace Cosim

namespace Literal

/-- The value of a digit. -/
def digit? (c : Char) : Option Nat :=
  if '0' ≤ c ∧ c ≤ '9' then some (c.toNat - '0'.toNat) else none

def isDigit (c : Char) : Bool := (digit? c).isSome

/-- The number that a list of digits stands for, after the digits already read. -/
def digitsValue (acc : Nat) (cs : List Char) : Nat :=
  cs.foldl (fun n c => 10 * n + (digit? c).getD 0) acc

/-- Splits off a leading sign; the flag says whether it was a minus. -/
def splitSign : List Char → Bool × List Char
  | '-' :: cs => (true, cs)
  | '+' :: cs => (false, cs)
  | cs => (false, cs)

/-- Digits without a sign, at least one. -/
def natural? (cs : List Char) : Option Nat :=
  if cs.isEmpty || !cs.all isDigit then none else some (digitsValue 0 cs)

/-- A natural number below the bound; a plus may stand before it. -/
def bounded? (bound : Nat) (cs : List Char) : Option Nat :=
  let body := match cs with
    | '+' :: rest => rest
    | _ => cs
  (natural? body).filter (· < bound)

/-- An integer from `low` up to `high`. -/
def integer? (low high : Int) (cs : List Char) : Option Int :=
  let (negative, body) := splitSign cs
  ((natural? body).map fun n => if negative then -(n : Int) else n).filter
    fun i => low ≤ i && i ≤ high

/-- An integer of 64 bits. -/
def int64? (cs : List Char) : Option Int := integer? (-Nat.pow 2 63) (Nat.pow 2 63 - 1) cs

/-- An integer of 32 bits. -/
def int32? (cs : List Char) : Option Int := integer? (-Nat.pow 2 31) (Nat.pow 2 31 - 1) cs

/-- A signed exponent, all of the text. -/
def exponent? : List Char → Option Int
  | [] => some 0
  | c :: cs =>
    if c == 'e' || c == 'E' then
      let (negative, body) := splitSign cs
      (natural? body).map fun n => if negative then -(n : Int) else n
    else none

def lower (c : Char) : Char := c.toLower

/-- A real number without its sign. -/
def magnitude? (negative : Bool) (cs : List Char) : Option Double :=
  let word := cs.map lower
  if word == "inf".toList || word == "infinity".toList then
    some (Double.ofMagnitude negative Double.infinityMagnitude)
  else if word == "nan".toList then some (Double.nan negative)
  else
    let whole := cs.takeWhile isDigit
    let afterWhole := cs.dropWhile isDigit
    let (fraction, rest) := match afterWhole with
      | '.' :: more => (more.takeWhile isDigit, more.dropWhile isDigit)
      | _ => ([], afterWhole)
    if whole.isEmpty && fraction.isEmpty then none
    else (exponent? rest).map fun e =>
      Double.ofDecimal negative (digitsValue 0 (whole ++ fraction)) (e - fraction.length)

/-- A real number, all of the text. -/
def real? (cs : List Char) : Option Double :=
  let (negative, body) := splitSign cs
  magnitude? negative body

end Literal

end Cosim
