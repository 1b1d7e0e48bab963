import Cosim.Fmu
import Cosim.System.Connector

/-!
# Components

A component is an instance of an FMU in a system.  Its overrides are aligned with the variables
that the FMU declares, and its connectors expose only variables that there are.
-/

namespace Cosim

/-- The address of the host that runs the FMU of a proxy. -/
structure Remote where
  host : String
  portNumber : Nat
deriving DecidableEq

def Remote.text (r : Remote) : String := s!"{r.host}:{r.portNumber}"

structure Component where
  name : String
  fmu : Fmu
  stepSize : Option Double
  remote : Option Remote
  /-- the overrides, holding only the overridden fields -/
  initial : Entries Variable
  connectors : Entries Connector
  units : Entries UnitDefinition
  /-- the variables of the FMU under the overrides -/
  scalarVariables : Entries Variable

namespace Component

/-- Whether a start value has a data type; an enumeration value is an integer. -/
def fits (start : Start) (type : DataType) : Bool :=
  start.dataType == type || (type == .enumeration && start.dataType == .integer)

/-- An override aligned with the declaration of its variable: the start value is coerced to the
declared data type, which the override takes on unless its value does not fit. -/
def align (declared override : Variable) : Variable :=
  match declared.dataType with
  | none => override
  | some type =>
    match override.start with
    | none => { override with dataType := some (override.dataType.getD type) }
    | some start =>
      let start := start.coerce type
      { override with
        start := some start
        dataType := if fits start type then some type else some (override.dataType.getD type) }

/-- Aligns overrides one after another and lays them over the variables. -/
def applyOverrides (declared : Entries Variable) :
    Entries Variable → Entries Variable × Entries Variable
  | [] => ([], declared)
  | (name, override) :: overrides =>
    match declared.get? name with
    | none =>
      let (aligned, final) := applyOverrides declared overrides
      ((name, override) :: aligned, final)
    | some v =>
      let override := align v override
      let (aligned, final) :=
        applyOverrides (declared.put name (v.overlay override)) overrides
      ((name, override) :: aligned, final)

/-- Whether a connector that exposes a variable exposes one that there is. -/
def isGrounded (declared : Entries Variable) (c : Connector) : Bool :=
  match c.boundVariable? with
  | some name => declared.has name
  | none => true

/-- A component of an FMU with given overrides and connectors. -/
def ofFmu (name : String) (fmu : Fmu) (overrides : Entries Variable)
    (connectors : Entries Connector) : Component :=
  let (initial, declared) := applyOverrides fmu.description.scalarVariables overrides
  { name := name
    fmu := fmu
    stepSize := none
    remote := none
    initial := initial
    connectors := connectors.filter fun (_, c) => isGrounded declared c
    units := fmu.description.units
    scalarVariables := declared }

/-- The variable with a name, or else the override of a variable that the FMU does not declare. -/
def lookup? (c : Component) (name : String) : Option Variable :=
  (c.scalarVariables.get? name).or (c.initial.get? name)

end Component

end Cosim
