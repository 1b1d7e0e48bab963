import Cosim.System.System
import Cosim.Text.Table

/-!
# Reports of systems

Tables that show the components of a system, with the attributes of their FMUs, their units,
variables and connectors.
-/

namespace Cosim.Report

open Text (Table)

/-- A cell for a value that may be missing. -/
def cell {α : Type} (text : α → String) (value : Option α) : String := (value.map text).getD ""

def components (s : System) : Table where
  header := ["Component", "FMU", "Step size", "Remote access"]
  rows := s.components.values.map fun c =>
    [c.name, c.fmu.fileName, cell Double.plain c.stepSize, cell Remote.text c.remote]

/-- The attributes of a model description that are shown. -/
def shownAttributes : List String :=
  ["modelName", "fmiVersion", "guid", "author", "generationTool", "generationDateAndTime",
    "description"]

/-- The settings of an experiment that are given. -/
def experimentRows (x : Experiment) : List (List String) :=
  [("startTime", x.startTime), ("stopTime", x.stopTime), ("tolerance", x.tolerance),
    ("stepSize", x.stepSize)].filterMap fun (key, value) =>
      value.map fun number => ["DefaultExperiment." ++ key, number.plain]

def fmu (c : Component) : Table where
  header := ["Attribute", "Value"]
  rows :=
    (shownAttributes.filterMap fun key =>
      (c.fmu.description.root.attr? key).map fun value => [key, value]) ++
    (c.fmu.description.experiment?.map experimentRows).getD []

/-- The exponents of a unit other than zero, and its conversion unless that changes nothing. -/
def baseUnitText (u : BaseUnit) : String :=
  let exponents := u.exponents.filterMap fun (name, n) =>
    if n == 0 then none else some (name ++ "=" ++ intText n)
  let factor := if u.factor.sameValue Double.one then [] else ["factor=" ++ u.factor.plain]
  let offset := if u.offset.sameValue Double.zero then [] else ["offset=" ++ u.offset.plain]
  " ".intercalate (exponents ++ factor ++ offset)

def units (c : Component) : Table where
  header := ["Unit", "Base unit", "Display unit"]
  rows := c.units.values.map fun u =>
    [u.name, cell baseUnitText u.base, cell DisplayUnit.name u.display]

def scalarVariables (c : Component) : Table where
  header := ["Variable", "Type", "Causality", "Variability", "Start", "Unit", "Quantity"]
  rows := c.scalarVariables.values.map fun v =>
    [v.name, cell DataType.text v.dataType, cell Causality.text v.causality,
      cell Variability.text v.variability, cell Start.toText v.start, cell id v.unit,
      cell id v.quantity]

def connectors (c : Component) : Table where
  header := ["Connector", "Variable", "Variable group", "Type"]
  rows := c.connectors.values.map fun k =>
    [k.name, cell id k.boundVariable?, cell id k.boundGroup?, cell Direction.text k.direction]

/-- A table under a title. -/
def titled (title : String) (t : Table) : String := title ++ "\n" ++ t.render

/-- The tables of a component; units and connectors appear only if there are any. -/
def component (c : Component) : List String :=
  [titled s!"{c.name}: FMU attributes" (fmu c)] ++
  (if c.units.isEmpty then [] else [titled s!"{c.name}: unit definitions" (units c)]) ++
  [titled s!"{c.name}: variables" (scalarVariables c)] ++
  (if c.connectors.isEmpty then [] else [titled s!"{c.name}: connectors" (connectors c)])

/-- The whole report. -/
def system (s : System) : List String :=
  titled "Components" (components s) :: s.components.values.flatMap component

end Cosim.Report
