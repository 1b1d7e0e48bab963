import Cosim.Number.Shortest

/-!
# Notations of numbers

`Double.plain` writes a double with the fewest digits that read back and without an exponent:
`1`, `0.01`, `-0`, `NaN`, `inf`.  `Double.pointed` is the notation of dictionaries and JSON, in
which a finite double always shows a point or an exponent: `1.0`, `0.00001`, `1e+16`, `5e-324`.
-/

namespace Cosim

/-- The text of an integer in decimal digits. -/
def intText (i : Int) : String :=
  let digits := String.ofList (Nat.toDigits 10 i.natAbs)
  if i < 0 then "-" ++ digits else digits

namespace Decimal

/-- Writes the digits in place around the point, filling up with zeros; `whole` follows a number
without a fraction. -/
def positional (whole : List Char) (d : Decimal) : List Char :=
  let ds := d.digitList
  if 0 ≤ d.exponent then ds ++ List.replicate d.exponent.toNat '0' ++ whole
  else if 0 < d.point then ds.take d.point.toNat ++ '.' :: ds.drop d.point.toNat
  else '0' :: '.' :: List.replicate (-d.point).toNat '0' ++ ds

/-- Writes one digit before the point and a signed exponent. -/
def scientific (d : Decimal) : List Char :=
  let fraction := d.digitList.drop 1
  let power := d.point - 1
  d.digitList.take 1 ++ (if fraction.isEmpty then [] else '.' :: fraction) ++
    'e' :: (if power < 0 then '-' else '+') :: Nat.toDigits 10 power.natAbs

end Decimal

namespace Double

def withSign (x : Double) (digits : List Char) : String :=
  String.ofList (if x.isNegative then '-' :: digits else digits)

/-- The shortest digits that read back, never with an exponent. -/
def plain (x : Double) : String :=
  if x.isNaN then "NaN"
  else if x.isInfinite then (if x.isNegative then "-inf" else "inf")
  else x.withSign ((x.shortest .up).positional [])

/-- The shortest digits that read back, with a point from `1e-5` up to `1e16` and with an exponent
beyond. -/
def pointed (x : Double) : String :=
  let d := x.shortest .even
  if x.isZero || (-5 < d.point && d.point ≤ 16) then x.withSign (d.positional ['.', '0'])
  else x.withSign d.scientific

end Double

end Cosim
