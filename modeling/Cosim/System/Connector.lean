import Cosim.Names

/-!
# Connectors

A connector is a named plug of a component.  It exposes one variable or one variable group of the
component, and may have a direction.
-/

namespace Cosim

/-- The direction of a connector. -/
inductive Direction where
  | input
  | output
deriving DecidableEq

namespace Direction

def text : Direction → String
  | .input => "input"
  | .output => "output"

def all : List Direction := [.input, .output]

def ofText? (s : String) : Option Direction := all.find? (·.text == s)

def ofText (s : String) : Except UnknownName Direction := named "connector type" s (ofText? s)

end Direction

/-- What a connector exposes. -/
inductive Binding where
  | variable (name : String)
  | group (name : String)
deriving DecidableEq

structure Connector where
  name : String
  binding : Option Binding
  direction : Option Direction
deriving DecidableEq

namespace Connector

/-- The name that stands for what a connector without a binding exposes. -/
def unknown : String := "UNKNOWN"

/-- A connector without binding and direction. -/
def unbound (name : String) : Connector := ⟨name, none, none⟩

/-- Binds to a variable instead of what was exposed before. -/
def bindVariable (c : Connector) (variableName : String) : Connector :=
  { c with binding := some (.variable variableName) }

/-- Binds to a variable group instead of what was exposed before. -/
def bindGroup (c : Connector) (groupName : String) : Connector :=
  { c with binding := some (.group groupName) }

/-- Sets the direction by its name; an unknown name leaves the connector without direction. -/
def setDirection (c : Connector) (directionName : String) : Connector :=
  { c with direction := Direction.ofText? directionName }

def boundVariable? (c : Connector) : Option String :=
  match c.binding with
  | some (.variable name) => some name
  | _ => none

def boundGroup? (c : Connector) : Option String :=
  match c.binding with
  | some (.group name) => some name
  | _ => none

def isSingle (c : Connector) : Bool := c.boundVariable?.isSome

def isGroup (c : Connector) : Bool := c.boundGroup?.isSome

/-- The name of the variable or group that is exposed. -/
def targetName (c : Connector) : String :=
  match c.binding with
  | some (.variable name) => name
  | some (.group name) => name
  | none => unknown

end Connector

end Cosim
