import Cosim.Simulation
import Cosim.System.System

/-!
# The watch dictionary of a system

A dictionary that tells which columns of the results to watch.  The result table of a component
has the columns time and step count in front of one column for each output.
-/

namespace Cosim

/-- The header of the time column. -/
def timeColumn : String := "Time"

/-- The number of columns in front of the variables. -/
def leadingColumns : Nat := 2

/-- The columns of the outputs of a component. -/
def Component.outputColumns (c : Component) : List Nat :=
  let outputs := c.scalarVariables.values.filter fun v => v.causalityOrLocal == .output
  List.range' leadingColumns outputs.length

/-- The watch dictionary of a system under a name, given the post-processing section of a case. -/
def System.watchPlan (s : System) (name : String) (simulation : Option Simulation)
    (postProcessing : Option Value) : Dictionary :=
  let sources := Entries.ofPairs (s.components.values.map fun c =>
    (c.name, Value.object [("dataColumns", .list (c.outputColumns.map .ofNat))]))
  let endTime := (simulation.bind (·.stopTime)).toList.map fun x => ("endTime", Value.ofReal x)
  let plots := (postProcessing.bind (·.get? "plots")).toList.map fun plots =>
    ("postProcessing", Value.object [("plots", plots)])
  [("datasources", .object sources), ("delimiter", .text ","),
    ("simulation", .object (("name", .text name) :: endTime)),
    ("timeColumn", .text timeColumn)] ++ plots

end Cosim
