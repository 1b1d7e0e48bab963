import Cosim.Entries
import Cosim.Number.Literal

/-!
# Command lines

A command line gives one operand and some parameters.  A parameter stands behind two dashes by its
name, or behind one dash by its letter; its value follows behind an equals sign or as the next
argument.  Behind a lone pair of dashes there are only operands.  The first fault that is met is
reported.  A value is checked when the next argument is complete, so that a fault in the name of
that argument comes first.
-/

namespace Cosim.Command

/-- What is wrong with a command line, or what it asks for instead of the work. -/
inductive UsageError where
  | unknownArgument
  | missingOperand
  | missingValue
  | invalidValue
  | malformedValue
  | surplusValue
  | conflict
  | helpWanted
  | versionWanted
deriving DecidableEq

/-- The value of a parameter or of the operand. -/
inductive Argument where
  | path (s : String)
  | word (s : String)
  | natural (n : Nat)
  | real (x : Double)
deriving DecidableEq

/-- What a value may be. -/
inductive ValueKind where
  | path
  | oneOf (words : List String)
  | natural
  | real
deriving DecidableEq

/-- Reads a value.  A path is not empty, and a natural number has 64 bits. -/
def ValueKind.read (kind : ValueKind) (s : String) : Except UsageError Argument :=
  match kind with
  | .path => if s.isEmpty then .error .invalidValue else .ok (.path s)
  | .oneOf words => if words.contains s then .ok (.word s) else .error .invalidValue
  | .natural =>
    match Literal.bounded? (Nat.pow 2 64) s.toList with
    | some n => .ok (.natural n)
    | none => .error .malformedValue
  | .real =>
    match Literal.real? s.toList with
    | some x => .ok (.real x)
    | none => .error .malformedValue

/-- What a parameter does. -/
inductive Role where
  /-- is given or not -/
  | flag
  /-- is given any number of times -/
  | count
  | value (kind : ValueKind)
  | help
  | version
deriving DecidableEq

structure Parameter where
  name : String
  letter : Option Char
  role : Role

/-- What a command line may hold. -/
structure Grammar where
  operand : String
  parameters : List Parameter
  /-- two parameters that are not given together -/
  exclusive : Option (String × String)

/-- What a command line gives: the flags as often as they are given, and the values. -/
structure Line where
  flags : List String
  values : Entries Argument

namespace Line

def blank : Line := ⟨[], []⟩

def has (l : Line) (name : String) : Bool := l.flags.contains name

def count (l : Line) (name : String) : Nat := l.flags.count name

def path? (l : Line) (name : String) : Option String :=
  match l.values.get? name with
  | some (.path s) => some s
  | _ => none

def word? (l : Line) (name : String) : Option String :=
  match l.values.get? name with
  | some (.word s) => some s
  | _ => none

def natural? (l : Line) (name : String) : Option Nat :=
  match l.values.get? name with
  | some (.natural n) => some n
  | _ => none

def real? (l : Line) (name : String) : Option Double :=
  match l.values.get? name with
  | some (.real x) => some x
  | _ => none

end Line

/-- A value that is not checked yet; its text may still be missing. -/
structure Pending where
  name : String
  kind : ValueKind
  text : Option String

/-- What has been read of a command line. -/
structure Reading where
  line : Line
  pending : Option Pending
  operandSeen : Bool
  /-- whether only operands follow -/
  operandsOnly : Bool

namespace Reading

def initial : Reading := ⟨.blank, none, false, false⟩

/-- Adds a value, which is given at most once. -/
def addValue (r : Reading) (name : String) (kind : ValueKind) (text : String) :
    Except UsageError Reading := do
  if r.line.values.keys.contains name then throw .conflict
  let value ← kind.read text
  pure { r with line := { r.line with values := r.line.values ++ [(name, value)] } }

/-- Checks the pending value. -/
def settle (r : Reading) : Except UsageError Reading :=
  match r.pending with
  | none => .ok r
  | some ⟨_, _, none⟩ => .error .missingValue
  | some ⟨name, kind, some text⟩ => { r with pending := none }.addValue name kind text

/-- Gives a parameter that has no value. -/
def give (r : Reading) (p : Parameter) : Except UsageError Reading := do
  let r ← r.settle
  match p.role with
  | .help => throw .helpWanted
  | .version => throw .versionWanted
  | .flag => if r.line.has p.name then throw .conflict
  | _ => pure ()
  pure { r with line := { r.line with flags := r.line.flags ++ [p.name] } }

/-- Reads an argument behind two dashes. -/
def readName (g : Grammar) (r : Reading) (body : List Char) : Except UsageError Reading := do
  let name := String.ofList (body.takeWhile (· != '='))
  let attached := match body.dropWhile (· != '=') with
    | _ :: text => some (String.ofList text)
    | [] => none
  match g.parameters.find? (·.name == name) with
  | none => throw .unknownArgument
  | some p =>
    match p.role, attached with
    | .value kind, some text => (← r.settle).addValue p.name kind text
    | .value kind, none => pure { (← r.settle) with pending := some ⟨p.name, kind, none⟩ }
    | _, some _ => throw .surplusValue
    | _, none => r.give p

/-- Reads one letter behind a single dash; letters stand for parameters without values. -/
def readLetter (g : Grammar) (r : Reading) (c : Char) : Except UsageError Reading :=
  match g.parameters.find? (·.letter == some c) with
  | none => .error .unknownArgument
  | some p => r.give p

/-- Reads the operand. -/
def readOperand (g : Grammar) (r : Reading) (text : String) : Except UsageError Reading := do
  if r.operandSeen then throw .unknownArgument
  let r ← r.settle
  pure { r with pending := some ⟨g.operand, .path, some text⟩, operandSeen := true }

/-- Reads an argument without dashes: the value that is missing, or else the operand. -/
def readPlain (g : Grammar) (r : Reading) (text : String) : Except UsageError Reading :=
  match r.pending with
  | some ⟨name, kind, none⟩ => .ok { r with pending := some ⟨name, kind, some text⟩ }
  | _ => r.readOperand g text

/-- Reads an argument. -/
def step (g : Grammar) (r : Reading) (argument : String) : Except UsageError Reading :=
  if r.operandsOnly then r.readOperand g argument
  else
    match argument.toList with
    | ['-', '-'] => .ok { r with operandsOnly := true }
    | '-' :: '-' :: body => r.readName g body
    | '-' :: c :: more => (c :: more).foldlM (readLetter g) r
    | _ => r.readPlain g argument

/-- Ends the reading. -/
def finish (g : Grammar) (r : Reading) : Except UsageError Line := do
  let r ← r.settle
  match g.exclusive with
  | some (a, b) => if r.line.has a && r.line.has b then throw .conflict
  | none => pure ()
  if !r.operandSeen then throw .missingOperand
  pure r.line

end Reading

/-- Reads the arguments of a command line. -/
def Line.read (g : Grammar) (arguments : List String) : Except UsageError Line := do
  (← arguments.foldlM (Reading.step g) .initial).finish g

end Cosim.Command
