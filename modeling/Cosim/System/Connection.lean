import Cosim.Model.Variable
import Cosim.System.Connector

/-!
# Connections

A connection runs from one endpoint to another.  `Connection.validate` classifies it: between two
variables or between two variable groups.  Mixed and unbound ends are refused, and so is a known
direction other than from output to input.
-/

namespace Cosim

/-- What an endpoint refers to inside its component. -/
inductive Target where
  | connector (c : Connector)
  | variable (v : Variable)
deriving DecidableEq

/-- One end of a connection. -/
structure Endpoint where
  component : String
  target : Target
deriving DecidableEq

/-- What an endpoint connects: one variable or a group of them, with a direction if known. -/
inductive Shape where
  | single (direction : Option Direction)
  | group (direction : Option Direction)
  | unbound
deriving DecidableEq

namespace Endpoint

def isValid (e : Endpoint) : Bool := !e.component.isEmpty

/-- The name of the variable or group at the endpoint. -/
def targetName (e : Endpoint) : String :=
  match e.target with
  | .connector c => c.targetName
  | .variable v => v.name

/-- The direction that a causality gives to a variable. -/
def directionOf : Option Causality → Option Direction
  | some .output => some .output
  | some .input => some .input
  | _ => none

def shape (e : Endpoint) : Shape :=
  match e.target with
  | .variable v => .single (directionOf v.causality)
  | .connector c =>
    match c.binding with
    | some (.variable _) => .single c.direction
    | some (.group _) => .group c.direction
    | none => .unbound

end Endpoint

/-- The kinds of valid connections. -/
inductive ConnectionKind where
  | variable
  | group
deriving DecidableEq

structure Connection where
  name : String
  source : Endpoint
  target : Endpoint
deriving DecidableEq

/-- Why a connection is not valid. -/
inductive ConnectionError where
  | noComponent
  | unbound
  | mixed
  | direction (source target : Direction)
deriving DecidableEq

/-- The message of an error of the connection with a name. -/
def ConnectionError.message (name : String) : ConnectionError → String
  | .noComponent => s!"connection {name} has an endpoint without component"
  | .unbound => s!"connection {name} uses a connector without variable or variable group"
  | .mixed => s!"connection {name} mixes a variable with a variable group"
  | .direction source target =>
    s!"connection {name} runs from {source.text} to {target.text}, expected output to input"

namespace Connection

/-- Whether both ends are single variables. -/
def joinsVariables (c : Connection) : Bool :=
  match c.source.shape, c.target.shape with
  | .single _, .single _ => true
  | _, _ => false

/-- Whether both ends are variable groups. -/
def joinsGroups (c : Connection) : Bool :=
  match c.source.shape, c.target.shape with
  | .group _, .group _ => true
  | _, _ => false

/-- Refuses two known directions other than from output to input. -/
def checkDirections (kind : ConnectionKind) :
    Option Direction → Option Direction → Except ConnectionError ConnectionKind
  | some source, some target =>
    if source == .output && target == .input then .ok kind else .error (.direction source target)
  | _, _ => .ok kind

/-- The kind of a connection, if it is valid. -/
def validate (c : Connection) : Except ConnectionError ConnectionKind :=
  if !c.source.isValid || !c.target.isValid then .error .noComponent
  else match c.source.shape, c.target.shape with
    | .single source, .single target => checkDirections .variable source target
    | .group source, .group target => checkDirections .group source target
    | .unbound, _ => .error .unbound
    | _, .unbound => .error .unbound
    | _, _ => .error .mixed

end Connection

end Cosim
