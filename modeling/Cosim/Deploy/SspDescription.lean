import Cosim.Deploy.OspStructure
import Cosim.Ssp.Description

/-!
# The SSP description of a system

The exchange format of a system: all components with their connectors, all connections, and the
simulation settings as default experiment.
-/

namespace Cosim

/-- A connector appears under the name of what it exposes. -/
def Connector.toSsp (c : Connector) : Ssp.Connector where
  name := c.targetName
  kind := c.direction.map Direction.text
  real := some ⟨none⟩

def Component.toSsp (c : Component) : Ssp.Component where
  name := c.name
  source := c.fmu.fileName
  connectors := unlessEmpty (c.connectors.values.map Connector.toSsp)

def Connection.toSsp (c : Connection) : Ssp.Connection where
  startElement := c.source.component
  startConnector := c.source.targetName
  endElement := c.target.component
  endConnector := c.target.targetName

/-- The kind of the annotation that holds simulation settings. -/
def Ssp.Annotation.settingsType : String := "com.opensimulationplatform"

def Simulation.experiment (s : Simulation) : Ssp.Experiment :=
  let startTime := s.startTime.map Double.plain
  let stopTime := s.stopTime.map Double.plain
  let fixedStep : Ssp.FixedStep := ⟨s.baseStepSize.map Double.plain, startTime, stopTime⟩
  ⟨startTime, stopTime, some [⟨Ssp.Annotation.settingsType, some ⟨some fixedStep⟩⟩]⟩

/-- The description of a system under a name and simulation settings. -/
def System.sspDescription (s : System) (name : String) (simulation : Option Simulation) :
    Ssp.Description :=
  .of name
    { name := name
      description := some name
      components := s.components.values.map Component.toSsp
      connections := unlessEmpty (s.connections.values.map Connection.toSsp) }
    (simulation.map Simulation.experiment)

end Cosim
