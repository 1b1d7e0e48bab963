import Cosim.Number.Double

/-!
# Shortest decimals

Every double is the nearest one to all real numbers of an interval around it.  `Double.shortest`
is the decimal of fewest digits in that interval, and of those the one nearest to the double.
Two such decimals can be equally near; a `Tie` says which of them is taken.
-/

namespace Cosim

/-- The decimal number `digits * 10 ^ exponent`. -/
structure Decimal where
  digits : Nat
  exponent : Int
deriving DecidableEq, Inhabited

/-- Which of two equally near neighbours is taken. -/
inductive Tie where
  /-- the greater one -/
  | up
  /-- the one with an even last digit -/
  | even
deriving DecidableEq

namespace Decimal

/-- Moves the zeros at the end of the digits into the exponent.  The first argument bounds the
number of zeros. -/
def stripZeros : Nat → Decimal → Decimal
  | 0, d => d
  | bound + 1, d =>
    if d.digits % 10 == 0 && d.digits != 0 then stripZeros bound ⟨d.digits / 10, d.exponent + 1⟩
    else d

/-- The digits as text. -/
def digitList (d : Decimal) : List Char := Nat.toDigits 10 d.digits

/-- The number of digits before the decimal point, negative for zeros behind it. -/
def point (d : Decimal) : Int := d.digitList.length + d.exponent

end Decimal

namespace Double

/-- The interval of the reals that round to a positive finite double: bounds and value over a
common denominator. -/
structure Interval where
  low : Nat
  value : Nat
  high : Nat
  denominator : Nat
  /-- whether the bounds themselves round to the double -/
  closed : Bool

/-- The bounds lie half way to the neighbours; below a power of two the neighbour is half as far. -/
def interval (x : Double) : Interval :=
  let c := x.coefficient
  let scale := Nat.pow 2 x.exponent
  let below := if c == Nat.pow 2 52 && 0 < x.exponent then 1 else 2
  ⟨(4 * c - below) * scale, 4 * c * scale, (4 * c + 2) * scale, Nat.pow 2 1076, c % 2 == 0⟩

/-- Whether `digits * 10 ^ exponent` lies in the interval. -/
def Interval.contains (i : Interval) (d : Decimal) : Bool :=
  let up := Nat.pow 10 d.exponent.toNat
  let down := Nat.pow 10 (-d.exponent).toNat
  let n := d.digits * up * i.denominator
  if i.closed then i.low * down ≤ n && n ≤ i.high * down
  else i.low * down < n && n < i.high * down

/-- The exponent of the leading decimal digit of the value. -/
def Interval.leading (i : Interval) : Int :=
  (Nat.toDigits 10 (i.value * Nat.pow 10 330 / i.denominator)).length - 331

/-- The nearer of the value's two neighbours on the grid of a power of ten, among those in the
interval. -/
def Interval.neighbour (i : Interval) (tie : Tie) (exponent : Int) : Option Decimal :=
  let num := i.value * Nat.pow 10 (-exponent).toNat
  let den := i.denominator * Nat.pow 10 exponent.toNat
  let lower : Decimal := ⟨num / den, exponent⟩
  let upper : Decimal := ⟨num / den + 1, exponent⟩
  let twice := 2 * (num % den)
  let upperIsNearer := den < twice ||
    (den == twice && (tie == .up || lower.digits % 2 == 1))
  match i.contains lower, i.contains upper with
  | true, true => some (if upperIsNearer then upper else lower)
  | true, false => some lower
  | false, true => some upper
  | false, false => none

/-- The decimal of fewest digits that rounds to the absolute value of a finite double; seventeen
digits always suffice. -/
def shortest (tie : Tie) (x : Double) : Decimal :=
  if x.isZero then ⟨0, 0⟩ else
    let i := x.interval
    let leading := i.leading
    let found := (List.range 17).findSome? fun (n : Nat) => i.neighbour tie (leading - n)
    (found.getD ⟨0, 0⟩).stripZeros 400

end Double

end Cosim
