import Cosim.Entries
import Cosim.Number.Literal
import Cosim.Number.Notation
import Cosim.Text.Class

/-!
# Dictionary values

The values of a hierarchical dictionary: scalars, lists and objects whose entries keep their
order.  `Dictionary.lookup` follows a dotted path of keys, `Value.asReal` and `Value.asText` are
the numeric and the textual view of a scalar, and `Dictionary.scalar` is the scalar of a bare word.
-/

namespace Cosim

/-- A number is an integer or a finite double, and the two are never equal. -/
inductive Number where
  | int (i : Int)
  | real (x : Double)
deriving DecidableEq

inductive Value where
  | null
  | bool (b : Bool)
  | number (n : Number)
  | text (s : String)
  | list (items : List Value)
  | object (entries : List (String × Value))
deriving Inhabited

/-- The entries of a whole dictionary. -/
abbrev Dictionary := Entries Value

namespace Number

def text : Number → String
  | .int i => intText i
  | .real x => x.pointed

/-- The nearest double. -/
def toDouble : Number → Double
  | .int i => Double.ofInt i
  | .real x => x

/-- Equality of values, for which the two real zeros are equal. -/
def same : Number → Number → Bool
  | .int i, .int j => i == j
  | .real x, .real y => x.sameValue y
  | _, _ => false

end Number

namespace Value

def ofInt (i : Int) : Value := .number (.int i)

def ofNat (n : Nat) : Value := .number (.int n)

/-- A double as a value; infinities and not-a-numbers have none. -/
def ofReal (x : Double) : Value := if x.isFinite then .number (.real x) else .null

def isObject : Value → Bool
  | .object _ => true
  | _ => false

def isList : Value → Bool
  | .list _ => true
  | _ => false

def isText : Value → Bool
  | .text _ => true
  | _ => false

/-- The entries of an object. -/
def entries? : Value → Option Dictionary
  | .object es => some es
  | _ => none

/-- The value under a key of an object. -/
def get? (v : Value) (key : String) : Option Value :=
  match v with
  | .object es => Entries.get? es key
  | _ => none

/-- The text of a boolean. -/
def boolText (b : Bool) : String := if b then "true" else "false"

/-- The numeric view: a number, or a text that reads as one once it is trimmed. -/
def asReal : Value → Option Double
  | .number n => some n.toDouble
  | .text s => Literal.real? (Text.trimList s.toList)
  | _ => none

/-- The textual view of a scalar. -/
def asText : Value → Option String
  | .text s => some s
  | .number n => some n.text
  | .bool b => some (boolText b)
  | _ => none

mutual

/-- Equality of values, in which the order of object entries does not count. -/
def same : Value → Value → Bool
  | .null, .null => true
  | .bool a, .bool b => a == b
  | .number a, .number b => a.same b
  | .text a, .text b => a == b
  | .list xs, .list ys => sameItems xs ys
  | .object es, .object fs => es.length == fs.length && sameEntries es fs
  | _, _ => false

private def sameItems : List Value → List Value → Bool
  | [], [] => true
  | x :: xs, y :: ys => x.same y && sameItems xs ys
  | _, _ => false

private def sameEntries : List (String × Value) → List (String × Value) → Bool
  | [], _ => true
  | (key, v) :: es, fs =>
    (match List.lookup key fs with
      | some w => v.same w
      | none => false) && sameEntries es fs

end

end Value

namespace Dictionary

/-- The value at the end of a path of keys. -/
def follow (v : Value) (path : List String) : Option Value :=
  path.foldl (fun found key => found.bind (·.get? key)) (some v)

/-- The parts of a text between dots. -/
def splitDots (cs : List Char) : List (List Char) := cs.splitOn '.'

/-- The value under a dotted path such as `run.simulation.stopTime`. -/
def lookup (d : Dictionary) (path : String) : Option Value :=
  follow (.object d) ((splitDots path.toList).map String.ofList)

/-! ## Bare words

The scalar that an unquoted word of a dictionary stands for. -/

/-- The characters that end a bare word. -/
def isDelimiter (c : Char) : Bool := "\x7b\x7d();'\",".toList.contains c

/-- The characters of bare words. -/
def isBare (c : Char) : Bool := !Text.isBlank c && !isDelimiter c

/-- A bare word is a boolean, the null value, an integer of 64 bits or a finite real number, and
otherwise it is text. -/
def scalar (word : String) : Value :=
  if word == "true" || word == "True" then .bool true
  else if word == "false" || word == "False" then .bool false
  else if word == "None" || word == "null" then .null
  else match Literal.int64? word.toList with
    | some i => .number (.int i)
    | none => match (Literal.real? word.toList).filter Double.isFinite with
      | some x => .number (.real x)
      | none => .text word

end Dictionary

end Cosim
