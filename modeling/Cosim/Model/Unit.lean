import Cosim.Number.Literal
import Cosim.Text.Class
import Cosim.Xml.Tree

/-!
# Units

The unit definitions of a model: exponents of the base units with a linear conversion, and a unit
for display.  An attribute that is missing or does not read as a number has its default.
-/

namespace Cosim

/-- Exponents of the base units; a value in base units is `factor * value + offset`. -/
structure BaseUnit where
  kg : Int
  m : Int
  s : Int
  a : Int
  k : Int
  mol : Int
  cd : Int
  rad : Int
  factor : Double
  offset : Double
deriving DecidableEq

/-- A unit for display; a displayed value is `factor * value + offset`. -/
structure DisplayUnit where
  name : String
  factor : Double
  offset : Double
deriving DecidableEq

structure UnitDefinition where
  name : String
  base : Option BaseUnit
  display : Option DisplayUnit
deriving DecidableEq

/-- The number one. -/
def Double.one : Double := Double.ofNat 1

/-- The real number in an attribute. -/
def Xml.Element.real? (e : Xml.Element) (key : String) : Option Double :=
  (e.attr? key).bind fun s => Literal.real? (Text.trimList s.toList)

/-- The integer of 32 bits in an attribute. -/
def Xml.Element.int32? (e : Xml.Element) (key : String) : Option Int :=
  (e.attr? key).bind fun s => Literal.int32? (Text.trimList s.toList)

namespace BaseUnit

/-- The exponents under the names of their units. -/
def exponents (u : BaseUnit) : List (String × Int) :=
  [("kg", u.kg), ("m", u.m), ("s", u.s), ("A", u.a), ("K", u.k), ("mol", u.mol), ("cd", u.cd),
    ("rad", u.rad)]

def ofElement (e : Xml.Element) : BaseUnit :=
  let exponent (key : String) : Int := (e.int32? key).getD 0
  { kg := exponent "kg"
    m := exponent "m"
    s := exponent "s"
    a := exponent "A"
    k := exponent "K"
    mol := exponent "mol"
    cd := exponent "cd"
    rad := exponent "rad"
    factor := (e.real? "factor").getD Double.one
    offset := (e.real? "offset").getD Double.zero }

end BaseUnit

def DisplayUnit.ofElement (e : Xml.Element) : DisplayUnit where
  name := (e.attr? "name").getD ""
  factor := (e.real? "factor").getD Double.one
  offset := (e.real? "offset").getD Double.zero

def UnitDefinition.ofElement (e : Xml.Element) : UnitDefinition where
  name := (e.attr? "name").getD ""
  base := (e.child? "BaseUnit").map BaseUnit.ofElement
  display := (e.child? "DisplayUnit").map DisplayUnit.ofElement

end Cosim
