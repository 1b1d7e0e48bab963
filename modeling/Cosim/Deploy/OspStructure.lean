import Cosim.Osp.Structure
import Cosim.Simulation
import Cosim.System.System

/-!
# The OSP structure of a system

The document that a co-simulation master reads: all components with their initial values, and the
valid connections.
-/

namespace Cosim

/-- The initial value that an override gives, in the type of its variable.  There is none without a
type, and none for a text that is no value of the type. -/
def Variable.initialValue? (v : Variable) : Option Osp.InitialValue := do
  let start ← v.start
  let type ← v.dataType
  match start.coerce type with
  | .text s => if type == .string then pure ⟨v.name, .text s⟩ else none
  | value => pure ⟨v.name, value⟩

/-- A list that is left out if it is empty. -/
def unlessEmpty {α : Type} (items : List α) : Option (List α) :=
  if items.isEmpty then none else some items

def Component.simulator (c : Component) : Osp.Simulator where
  name := c.name
  source := c.fmu.fileName
  stepSize := c.stepSize
  initial := unlessEmpty (c.initial.values.filterMap Variable.initialValue?)

def Endpoint.terminal (e : Endpoint) : Osp.Terminal := ⟨e.component, e.targetName⟩

/-- The link for a valid connection. -/
def Connection.link (c : Connection) (kind : ConnectionKind) : Osp.Link :=
  let terminals := [c.source.terminal, c.target.terminal]
  match kind with
  | .variable => .ofVariables terminals
  | .group => .ofGroups terminals

/-- The structure of a system under simulation settings. -/
def System.ospStructure (s : System) (simulation : Option Simulation) : Osp.Structure :=
  { Osp.Structure.blank with
    startTime := (simulation.bind (·.startTime)).map Double.plain
    baseStepSize := (simulation.bind (·.baseStepSize)).map Double.plain
    algorithm := (simulation.bind (·.algorithm)).map Algorithm.text
    simulators := s.components.values.map Component.simulator
    connections := unlessEmpty (s.validConnections.map fun (c, kind) => c.link kind) }

end Cosim
