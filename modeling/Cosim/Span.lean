import Cosim.Number.Notation

/-!
# Spans of time

A span of time is a number of nanoseconds.  Its short form has the largest unit in which the span
is at least one.
-/

namespace Cosim

structure Span where
  nanoseconds : Nat
deriving DecidableEq

namespace Span

def ofMilliseconds (n : Nat) : Span := ⟨n * Nat.pow 10 6⟩

/-- The span of a number of seconds, rounded to nanoseconds.  Negative and infinite numbers have
none, and neither have numbers beyond 64 bits. -/
def ofSeconds? (x : Double) : Option Span :=
  if x.isNaN || x.isInfinite then none
  else
    let n := Double.roundRatio (x.coefficient * Nat.pow 2 x.exponent * Nat.pow 10 9) (Nat.pow 2 1074)
    if x.isNegative && n != 0 then none
    else if Nat.pow 2 64 * Nat.pow 10 9 ≤ n then none
    else some ⟨n⟩

/-- The span in seconds, as a double: whole seconds and the fraction are rounded apart. -/
def seconds (s : Span) : Double :=
  let second := Nat.pow 10 9
  let whole := (Double.ofNat (s.nanoseconds / second)).toFloat
  let fraction := (Double.ofNat (s.nanoseconds % second)).toFloat / (Double.ofNat second).toFloat
  Double.ofFloat (whole + fraction)

/-- A number of units with a decimal fraction that has no zeros at its end. -/
private def decimalText (nanoseconds unit : Nat) (name : String) : String :=
  let places := (Nat.toDigits 10 unit).length - 1
  let fraction := Nat.toDigits 10 (nanoseconds % unit)
  let filled := List.replicate (places - fraction.length) '0' ++ fraction
  let digits := (filled.reverse.dropWhile (· == '0')).reverse
  let whole := Nat.toDigits 10 (nanoseconds / unit)
  String.ofList (whole ++ (if digits.isEmpty then [] else '.' :: digits)) ++ name

/-- The short form, such as `20ms`, `1.5s` or `0ns`. -/
def short (s : Span) : String :=
  let n := s.nanoseconds
  if Nat.pow 10 9 ≤ n then decimalText n (Nat.pow 10 9) "s"
  else if Nat.pow 10 6 ≤ n then decimalText n (Nat.pow 10 6) "ms"
  else if 1000 ≤ n then decimalText n 1000 "µs"
  else decimalText n 1 "ns"

end Span

end Cosim
