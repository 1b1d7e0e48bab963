import Cosim.System.Component
import Cosim.System.Connection

/-!
# Systems

A system consists of components and connections, each under its name and in order.
-/

namespace Cosim

structure System where
  components : Entries Component
  connections : Entries Connection

namespace System

/-- The FMUs of the components under their file names. -/
def fmus (s : System) : Entries Fmu :=
  Entries.ofPairs (s.components.values.map fun c => (c.fmu.fileName, c.fmu))

/-- The units of all components; of several with one name the first counts. -/
def units (s : System) : Entries UnitDefinition :=
  Entries.ofFirst (s.components.values.flatMap fun c => c.units.values.map fun u => (u.name, u))

/-- The variables of all components; of several with one name the first counts. -/
def scalarVariables (s : System) : Entries Variable :=
  Entries.ofFirst
    (s.components.values.flatMap fun c => c.scalarVariables.values.map fun v => (v.name, v))

/-- The connectors of all components; of several with one name the first counts. -/
def connectors (s : System) : Entries Connector :=
  Entries.ofFirst
    (s.components.values.flatMap fun c => c.connectors.values.map fun k => (k.name, k))

/-- The valid connections with their kinds. -/
def validConnections (s : System) : List (Connection × ConnectionKind) :=
  s.connections.values.filterMap fun c =>
    match c.validate with
    | .ok kind => some (c, kind)
    | .error _ => none

/-- Gives a step size to the components without one of their own. -/
def withStepSize (s : System) (stepSize : Option Double) : System :=
  { s with components := s.components.map fun (name, c) =>
      (name, { c with stepSize := c.stepSize.or stepSize }) }

end System

end Cosim
