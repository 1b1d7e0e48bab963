import Cosim.Dictionary.Value

/-!
# Statistics of columns

The first and the last value of a column, its mean, its sample standard deviation and its extremes,
in double precision.  Sums run from left to right.
-/

namespace Cosim.Watch

structure Statistics where
  latest : Double
  first : Double
  mean : Double
  /-- the sample standard deviation, which is zero for a single value -/
  deviation : Double
  min : Double
  max : Double
deriving DecidableEq

namespace Statistics

/-- The sum of values from left to right; nothing sums up to the negative zero. -/
def sum (xs : List Float) : Float := xs.foldl (· + ·) (-0.0)

/-- The smaller number; of two equal ones the first, and no not-a-number where there is another
number. -/
def smaller (x y : Float) : Float := if y < x || x.isNaN then y else x

/-- The greater number; of two equal ones the first, and no not-a-number where there is another
number. -/
def greater (x y : Float) : Float := if x < y || x.isNaN then y else x

/-- The sample standard deviation of values with a mean. -/
def deviationFrom (mean : Float) (xs : List Float) : Float :=
  if xs.length ≤ 1 then 0
  else (sum (xs.map fun x => (x - mean) * (x - mean)) / (xs.length.toFloat - 1)).sqrt

/-- The statistics of values, of which there must be one at least. -/
def ofValues? (values : List Double) : Option Statistics :=
  match values.head?, values.getLast? with
  | some first, some latest =>
    let xs := values.map Double.toFloat
    let mean := sum xs / xs.length.toFloat
    let infinity := Double.infinity.toFloat
    some {
      latest := latest
      first := first
      mean := Double.ofFloat mean
      deviation := Double.ofFloat (deviationFrom mean xs)
      min := Double.ofFloat (xs.foldl smaller infinity)
      max := Double.ofFloat (xs.foldl greater (-infinity)) }
  | _, _ => none

/-- The statistics as a section of a dictionary. -/
def toValue (s : Statistics) : Value :=
  .object [("latestValue", .ofReal s.latest), ("firstValue", .ofReal s.first),
    ("mean", .ofReal s.mean), ("stdev", .ofReal s.deviation), ("min", .ofReal s.min),
    ("max", .ofReal s.max)]

end Statistics

end Cosim.Watch
