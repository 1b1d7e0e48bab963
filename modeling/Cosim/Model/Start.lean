import Cosim.Dictionary.Value
import Cosim.Names

/-!
# Start values

The data types of model variables, and the scalars that variables start with.  `Start.coerce`
turns a start value towards a data type where nothing is lost.
-/

namespace Cosim

inductive DataType where
  | real
  | integer
  | boolean
  | string
  | enumeration
deriving DecidableEq

namespace DataType

def text : DataType → String
  | .real => "Real"
  | .integer => "Integer"
  | .boolean => "Boolean"
  | .string => "String"
  | .enumeration => "Enumeration"

def all : List DataType := [.real, .integer, .boolean, .string, .enumeration]

def ofText? (s : String) : Option DataType := all.find? (·.text == s)

def ofText (s : String) : Except UnknownName DataType := named "data type" s (ofText? s)

end DataType

/-- A scalar start value. -/
inductive Start where
  | real (x : Double)
  | int (i : Int)
  | bool (b : Bool)
  | text (s : String)
deriving DecidableEq

namespace Start

/-- The data type of the value itself. -/
def dataType : Start → DataType
  | .real _ => .real
  | .int _ => .integer
  | .bool _ => .boolean
  | .text _ => .string

/-- Reads a text as a value of a data type; an enumeration value is an integer. -/
def parse? (type : DataType) (s : String) : Option Start :=
  let cs := Text.trimList s.toList
  let word := String.ofList cs
  match type with
  | .real => (Literal.real? cs).map .real
  | .integer => (Literal.int64? cs).map .int
  | .enumeration => (Literal.int64? cs).map .int
  | .boolean =>
    if word == "true" || word == "True" || word == "1" then some (.bool true)
    else if word == "false" || word == "False" || word == "0" then some (.bool false)
    else none
  | .string => some (.text word)

/-- The start value that a dictionary value stands for: whole numbers of 64 bits are integers and
all other numbers are reals. -/
def ofValue? : Value → Option Start
  | .bool b => some (.bool b)
  | .number (.int i) => some (if i < Nat.pow 2 63 then .int i else .real (Double.ofInt i))
  | .number (.real x) => some (.real x)
  | .text s => some (.text s)
  | _ => none

def toValue : Start → Value
  | .real x => Value.ofReal x
  | .int i => Value.ofInt i
  | .bool b => .bool b
  | .text s => .text s

/-- The value as a data type where nothing is lost: an integer as a real, zero and one as booleans,
and a text that reads as a value of the type.  Any other value stays as it is. -/
def coerce (start : Start) (type : DataType) : Start :=
  match start, type with
  | .int i, .real => .real (Double.ofInt i)
  | .int i, .boolean => if i == 0 then .bool false else if i == 1 then .bool true else .int i
  | .text s, .string => .text s
  | .text s, type => (parse? type s).getD (.text s)
  | start, _ => start

def toText : Start → String
  | .real x => x.plain
  | .int i => intText i
  | .bool b => Value.boolText b
  | .text s => s

end Start

end Cosim
