/-!
# Doubles

A `Double` is a binary floating-point number of 64 bits, kept as its bit pattern, so that two
doubles are equal exactly when their bits are: the two zeros differ, and a not-a-number keeps its
sign.  `Double.ofRatio` is the nearest double to a fraction of natural numbers, a tie going to the
even neighbour, and `Double.ofDecimal` reads a decimal coefficient with an exponent of ten.
`Double.rank` is the total order of doubles, from the negative not-a-numbers to the positive ones.
-/

namespace Cosim

/-- A floating-point number of 64 bits: a sign bit, eleven exponent bits and 52 fraction bits. -/
structure Double where
  bits : UInt64
deriving DecidableEq, Inhabited

namespace Double

/-- The pattern of the sign bit alone. -/
def signBit : Nat := Nat.pow 2 63

/-- The bits below the sign, which grow with the absolute value. -/
def magnitude (x : Double) : Nat := x.bits.toNat % signBit

def isNegative (x : Double) : Bool := signBit ≤ x.bits.toNat

/-- The magnitude of the two infinities; the not-a-numbers lie above it. -/
def infinityMagnitude : Nat := 2047 * Nat.pow 2 52

def isNaN (x : Double) : Bool := infinityMagnitude < x.magnitude

def isInfinite (x : Double) : Bool := x.magnitude == infinityMagnitude

def isFinite (x : Double) : Bool := x.magnitude < infinityMagnitude

def isZero (x : Double) : Bool := x.magnitude == 0

/-- The double with the given sign and magnitude. -/
def ofMagnitude (negative : Bool) (magnitude : Nat) : Double :=
  ⟨UInt64.ofNat (if negative then signBit + magnitude else magnitude)⟩

def zero : Double := ofMagnitude false 0

def infinity : Double := ofMagnitude false infinityMagnitude

/-- The quiet not-a-number with the given sign. -/
def nan (negative : Bool) : Double := ofMagnitude negative (infinityMagnitude + Nat.pow 2 51)

def neg (x : Double) : Double := ofMagnitude (!x.isNegative) x.magnitude

/-! ## Coefficient and exponent -/

/-- The whole coefficient of a finite double, with the leading one of a normal number. -/
def coefficient (x : Double) : Nat :=
  if x.magnitude < Nat.pow 2 52 then x.magnitude else Nat.pow 2 52 + x.magnitude % Nat.pow 2 52

/-- A finite double stands for its coefficient times two to `exponent - 1074`. -/
def exponent (x : Double) : Nat := x.magnitude / Nat.pow 2 52 - 1

/-- The natural number nearest to `num / den`, a tie going to the even one. -/
def roundRatio (num den : Nat) : Nat :=
  let quotient := num / den
  let twice := 2 * (num % den)
  if den < twice || (den == twice && quotient % 2 == 1) then quotient + 1 else quotient

/-- A fraction divided by a power of two. -/
def scaled (num den : Nat) (shift : Int) : Nat × Nat :=
  if 0 ≤ shift then (num, den * Nat.pow 2 shift.toNat) else (num * Nat.pow 2 (-shift).toNat, den)

/-- The power of two by which a fraction is divided before it is rounded.  It leaves 53 bits before
the point, or fewer where the exponent reaches its least value. -/
def scaling (num den : Nat) : Int :=
  let guess : Int := max (-1074) ((num.log2 : Int) - (den.log2 : Int) - 53)
  if (scaled num den guess).1 / (scaled num den guess).2 < Nat.pow 2 53 then guess else guess + 1

/-- The magnitude nearest to `num / den`.  A carry out of the coefficient runs into the exponent. -/
def magnitudeOfRatio (num den : Nat) : Nat :=
  if num == 0 then 0 else
    let shift := scaling num den
    let coefficient := roundRatio (scaled num den shift).1 (scaled num den shift).2
    min infinityMagnitude ((shift + 1074).toNat * Nat.pow 2 52 + coefficient)

/-- The double nearest to `num / den`, a tie going to the even neighbour. -/
def ofRatio (negative : Bool) (num den : Nat) : Double :=
  ofMagnitude negative (magnitudeOfRatio num den)

def ofNat (n : Nat) : Double := ofRatio false n 1

def ofInt (i : Int) : Double := ofRatio (i < 0) i.natAbs 1

/-- The double nearest to `digits * 10 ^ exponent`.  A value of more than 310 places before the
point is infinite and one of more than 330 zeros behind it is zero, whatever its digits are. -/
def ofDecimal (negative : Bool) (digits : Nat) (exponent : Int) : Double :=
  let places : Int := (Nat.toDigits 10 digits).length + exponent
  if digits == 0 || places < -330 then ofMagnitude negative 0
  else if 310 < places then ofMagnitude negative infinityMagnitude
  else if 0 ≤ exponent then ofRatio negative (digits * Nat.pow 10 exponent.toNat) 1
  else ofRatio negative digits (Nat.pow 10 (-exponent).toNat)

/-! ## Arithmetic and order -/

def toFloat (x : Double) : Float := Float.ofBits x.bits

def ofFloat (x : Float) : Double := ⟨x.toBits⟩

/-- Equality of values: the two zeros are equal and a not-a-number equals nothing. -/
def sameValue (x y : Double) : Bool :=
  !x.isNaN && !y.isNaN && (x.bits == y.bits || (x.isZero && y.isZero))

/-- The place of a double in the total order of all bit patterns. -/
def rank (x : Double) : Int :=
  if x.isNegative then -(x.magnitude : Int) - 1 else x.magnitude

/-- Whether a finite double is a whole number. -/
def isWhole (x : Double) : Bool :=
  x.isFinite &&
    (1074 ≤ x.exponent || x.coefficient % Nat.pow 2 (1074 - x.exponent) == 0)

/-- The whole part of the absolute value of a finite double. -/
def wholePart (x : Double) : Nat :=
  x.coefficient * Nat.pow 2 x.exponent / Nat.pow 2 1074

end Double

end Cosim
