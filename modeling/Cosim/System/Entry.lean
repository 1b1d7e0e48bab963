import Cosim.Dictionary.Record
import Cosim.Model.Variable
import Cosim.System.Component

/-!
# Entries of a system structure

The records that describe components, connectors and connections in a case dictionary, as far as
they can be read without the FMUs.
-/

namespace Cosim

open Dictionary (Field record? textField? optionalText? optionalValue flagField? entriesField?)

/-! ## Connectors -/

/-- The connector that a record describes; a variable group takes precedence over a variable. -/
def Connector.ofValue? (name : String) (v : Value) : Option Connector := do
  match ← record? (["variable", "variableGroup", "type"].map Field.plain) v with
  | [boundTo, group, direction] =>
    let boundTo ← optionalText? boundTo
    let group ← optionalText? group
    let direction ← optionalText? direction
    let binding := (group.map Binding.group).or (boundTo.map Binding.variable)
    pure ⟨name, binding, direction.bind Direction.ofText?⟩
  | _ => none

/-! ## Overrides -/

/-- The override that a value describes: an object with a causality, a variability and a start
value, or the start value alone. -/
def Variable.ofOverride? (name : String) (v : Value) : Option Variable := do
  let plain := Variable.named name
  match v with
  | .object _ =>
    match ← record? (["causality", "variability", "start"].map Field.plain) v with
    | [causality, variability, start] =>
      let causality ← optionalText? causality
      let variability ← optionalText? variability
      let typed : Variable := { plain with
        causality := causality.bind Causality.ofText?
        variability := variability.bind Variability.ofText? }
      pure (((optionalValue start).bind Start.ofValue?).elim typed typed.setStart)
    | _ => none
  | start => pure ((Start.ofValue? start).elim plain plain.setStart)

/-! ## Remote access -/

/-- The port number that a value gives: a whole number from 1 to 65535. -/
def portNumber? (v : Value) : Option Nat := do
  let x ← v.asReal
  if x.isWhole && !x.isNegative && 1 ≤ x.wholePart && x.wholePart ≤ 65535 then some x.wholePart
  else none

/-- An address as a record gives it. -/
structure RemoteEntry where
  host : Option String
  portNumber : Option Value

def RemoteEntry.ofValue? (v : Value) : Option RemoteEntry := do
  match ← record? (["host", "port"].map Field.plain) v with
  | [host, portNumber] => pure ⟨← optionalText? host, optionalValue portNumber⟩
  | _ => none

/-- The address, if it is complete. -/
def RemoteEntry.remote? (e : RemoteEntry) : Option Remote := do
  pure ⟨← e.host, ← portNumber? (← e.portNumber)⟩

/-! ## Components -/

/-- A component as a record gives it. -/
structure ComponentEntry where
  fmu : String
  stepSize : Option Value
  generateProxy : Bool
  remote : Option RemoteEntry
  overrides : Entries Value
  connectors : Entries Connector

namespace ComponentEntry

def fields : List Field :=
  [.plain "fmu", .plain "stepSize", .withDefault ["generate_proxy", "generateProxy"],
    .plain "remoteAccess", .withDefault ["initialize"], .withDefault ["connectors"]]

/-- Connectors under their names. -/
def connectorsOf? (v : Option Value) : Option (Entries Connector) :=
  match v with
  | none => some []
  | some (.object es) => es.mapM fun (name, v) => (Connector.ofValue? name v).map (name, ·)
  | _ => none

def ofValue? (v : Value) : Option ComponentEntry := do
  match ← record? fields v with
  | [fmu, stepSize, generateProxy, remote, overrides, connectors] =>
    pure {
      fmu := ← textField? fmu
      stepSize := optionalValue stepSize
      generateProxy := ← flagField? generateProxy
      remote := ← (match optionalValue remote with
        | none => some none
        | some v => (RemoteEntry.ofValue? v).map some)
      overrides := ← entriesField? some overrides
      connectors := ← connectorsOf? connectors }
  | _ => none

/-- The overrides, without those that cannot be read. -/
def initial (e : ComponentEntry) : Entries Variable :=
  e.overrides.filterMap fun (key, v) => (Variable.ofOverride? key v).map (key, ·)

/-- The address of the host, if there is a complete one. -/
def address? (e : ComponentEntry) : Option Remote := e.remote.bind RemoteEntry.remote?

end ComponentEntry

/-! ## Connections -/

/-- An endpoint as a record gives it. -/
structure EndpointEntry where
  component : String
  connector : Option String
  variableName : Option String

def EndpointEntry.ofValue? (v : Value) : Option EndpointEntry := do
  match ← record? (["component", "connector", "variable"].map Field.plain) v with
  | [component, connector, variableName] =>
    pure ⟨← textField? component, ← optionalText? connector, ← optionalText? variableName⟩
  | _ => none

/-- A connection as a record gives it. -/
structure ConnectionEntry where
  source : EndpointEntry
  target : EndpointEntry

def ConnectionEntry.ofValue? (v : Value) : Option ConnectionEntry := do
  match ← record? (["source", "target"].map Field.plain) v with
  | [source, target] =>
    pure ⟨← EndpointEntry.ofValue? (← source), ← EndpointEntry.ofValue? (← target)⟩
  | _ => none

end Cosim
