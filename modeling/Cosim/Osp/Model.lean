import Cosim.Document.Field
import Cosim.Document.Form
import Cosim.Document.Writing
import Cosim.Number.Notation

/-!
# OSP model descriptions

What a co-simulation master reads about one model beside its FMU: unit definitions and groups of
variables.
-/

namespace Cosim.Osp

open Document (Form element required? optional? text? many? one?)
open Xml (Element)

/-- Exponents of base units under their names, and a linear conversion. -/
structure BaseUnit where
  exponents : List (Option Int)
  factor : Option Double
  offset : Option Double
deriving DecidableEq

structure DisplayUnit where
  name : String
  factor : Option Double
  offset : Option Double
deriving DecidableEq

structure Unit where
  name : String
  base : Option BaseUnit
  display : Option DisplayUnit
deriving DecidableEq

/-- A variable of a group, with its unit. -/
structure Member where
  name : String
  unit : Option String
deriving DecidableEq

structure Group where
  name : String
  members : List Member
deriving DecidableEq

structure Model where
  xmlns : Option String
  version : Option String
  units : List Unit
  groups : List Group
deriving DecidableEq

namespace BaseUnit

/-- The base units in the order of the exponents. -/
def names : List String := ["kg", "m", "s", "A", "K", "mol", "cd", "rad"]

def ofElement? (e : Element) : Option BaseUnit := do
  pure {
    exponents := ← names.mapM (optional? Literal.int32? e)
    factor := ← optional? Literal.real? e "factor"
    offset := ← optional? Literal.real? e "offset" }

def toElement (u : BaseUnit) : Element :=
  element "BaseUnit"
    (names.zip (u.exponents.map (·.map intText)) ++
      [("factor", u.factor.map Double.plain), ("offset", u.offset.map Double.plain)]) []

end BaseUnit

namespace DisplayUnit

def ofElement? (e : Element) : Option DisplayUnit := do
  pure {
    name := ← required? text? e "name"
    factor := ← optional? Literal.real? e "factor"
    offset := ← optional? Literal.real? e "offset" }

def toElement (u : DisplayUnit) : Element :=
  element "DisplayUnit"
    [("name", u.name), ("factor", u.factor.map Double.plain), ("offset", u.offset.map Double.plain)]
    []

end DisplayUnit

namespace Unit

def ofElement? (e : Element) : Option Unit := do
  pure {
    name := ← required? text? e "name"
    base := ← one? BaseUnit.ofElement? e "BaseUnit"
    display := ← one? DisplayUnit.ofElement? e "DisplayUnit" }

def toElement (u : Unit) : Element :=
  element "Unit" [("name", u.name)]
    (u.base.toList.map BaseUnit.toElement ++ u.display.toList.map DisplayUnit.toElement)

end Unit

namespace Member

def ofElement? (e : Element) : Option Member := do
  pure ⟨← required? text? e "ref", ← optional? text? e "unit"⟩

def toElement (m : Member) : Element := element "Variable" [("ref", m.name), ("unit", m.unit)] []

end Member

namespace Group

def ofElement? (e : Element) : Option Group := do
  pure ⟨← required? text? e "name", ← many? Member.ofElement? e "Variable"⟩

def toElement (g : Group) : Element :=
  element "Generic" [("name", g.name)] (g.members.map Member.toElement)

end Group

namespace Model

def namespaceName : String :=
  "https://opensimulationplatform.com/xsd/OspModelDescription-1.0.0.xsd"

/-- A description of given units and groups. -/
def of (units : List Unit) (groups : List Group) : Model :=
  ⟨some namespaceName, some "1.0", units, groups⟩

def rootName : String := "ospModelDescription"

/-- The elements of the root. -/
def known : List (String × Form) :=
  [("UnitDefinitions", .children [
      ("Unit", .children [("BaseUnit", .leaf), ("DisplayUnit", .leaf)])]),
    ("VariableGroups", .children [("Generic", .children [("Variable", .leaf)])])]

def ofElement? (e : Element) : Option Model := do
  let units ← one? (many? Unit.ofElement? · "Unit") e "UnitDefinitions"
  let groups ← one? (many? Group.ofElement? · "Generic") e "VariableGroups"
  pure {
    xmlns := ← optional? text? e "xmlns"
    version := ← optional? text? e "version"
    units := ← units
    groups := ← groups }

def toElement (m : Model) : Element :=
  element rootName [("xmlns", m.xmlns), ("version", m.version)]
    [element "UnitDefinitions" [] (m.units.map Unit.toElement),
      element "VariableGroups" [] (m.groups.map Group.toElement)]

/-- Reads a document. -/
def read? (text : String) : Option Model := (Form.read? known rootName text).bind ofElement?

/-- The numbers in a description. -/
def numbers (m : Model) : List Double :=
  m.units.flatMap fun u =>
    (u.base.toList.flatMap fun b => b.factor.toList ++ b.offset.toList) ++
      u.display.toList.flatMap fun d => d.factor.toList ++ d.offset.toList

end Model

end Cosim.Osp
