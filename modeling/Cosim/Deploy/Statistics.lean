import Cosim.Simulation
import Cosim.System.System

/-!
# Statistics of a system

A dictionary that counts and names all that a system contains.
-/

namespace Cosim

/-- The number of names, and the names. -/
def countedNames (names : List String) : Value :=
  .object [("count", .ofNat names.length), ("names", .list (names.map .text))]

/-- The settings that are given, under a name. -/
def Simulation.settings (name : String) (s : Option Simulation) : Dictionary :=
  let times := [("startTime", s.bind (·.startTime)), ("stopTime", s.bind (·.stopTime)),
    ("baseStepSize", s.bind (·.baseStepSize))]
  ("name", .text name) ::
    (times.filterMap fun (key, time) => time.map fun x => (key, Value.ofReal x)) ++
    (s.bind (·.algorithm)).toList.map fun a => ("algorithm", .text a.text)

def System.statistics (s : System) (name : String) (simulation : Option Simulation) :
    Dictionary :=
  [("simulation", .object (Simulation.settings name simulation)),
    ("components", countedNames s.components.keys),
    ("connections", countedNames s.connections.keys),
    ("connectors", countedNames s.connectors.keys),
    ("fmus", countedNames s.fmus.keys),
    ("units", countedNames s.units.keys),
    ("variables", countedNames s.scalarVariables.keys)]

end Cosim
