import Cosim.Dictionary.Value

/-!
# Writing JSON

`Json.compact` writes a value without white space, `Json.pretty` with one item or entry a line and
two spaces a level.
-/

namespace Cosim.Json

/-- Two hexadecimal digits. -/
private def hexByte (n : Nat) : List Char :=
  let ds := Nat.toDigits 16 n
  List.replicate (2 - ds.length) '0' ++ ds

/-- One character inside a JSON string. -/
def stringChar (c : Char) : List Char :=
  match c with
  | '"' => ['\\', '"']
  | '\\' => ['\\', '\\']
  | '\x08' => ['\\', 'b']
  | '\x0c' => ['\\', 'f']
  | '\n' => ['\\', 'n']
  | '\r' => ['\\', 'r']
  | '\t' => ['\\', 't']
  | c => if c.toNat < 0x20 then ['\\', 'u', '0', '0'] ++ hexByte c.toNat else [c]

def stringForm (s : String) : String :=
  String.ofList ('"' :: s.toList.flatMap stringChar ++ ['"'])

/-- The form of a value that is neither a list nor an object. -/
def scalarForm : Value → String
  | .bool b => Value.boolText b
  | .number n => n.text
  | .text s => stringForm s
  | _ => "null"

mutual

/-- A value without white space. -/
def compact : Value → String
  | .list items => "[" ++ ",".intercalate (compactItems items) ++ "]"
  | .object es => "\x7b" ++ ",".intercalate (compactEntries es) ++ "\x7d"
  | v => scalarForm v

private def compactItems : List Value → List String
  | [] => []
  | v :: vs => compact v :: compactItems vs

private def compactEntries : List (String × Value) → List String
  | [] => []
  | (key, v) :: es => (stringForm key ++ ":" ++ compact v) :: compactEntries es

end

private def indent (depth : Nat) : String := String.ofList (List.replicate (2 * depth) ' ')

/-- Lines between brackets. -/
private def bracketed (opening closing : String) (depth : Nat) (lines : List String) : String :=
  if lines.isEmpty then opening ++ closing
  else
    opening ++ "\n" ++ ",\n".intercalate (lines.map (indent (depth + 1) ++ ·)) ++ "\n" ++
      indent depth ++ closing

mutual

/-- A value at a depth, with its items and entries one level deeper. -/
def prettyAt (depth : Nat) : Value → String
  | .list items => bracketed "[" "]" depth (prettyItems (depth + 1) items)
  | .object es => bracketed "\x7b" "\x7d" depth (prettyEntries (depth + 1) es)
  | v => scalarForm v

private def prettyItems (depth : Nat) : List Value → List String
  | [] => []
  | v :: vs => prettyAt depth v :: prettyItems depth vs

private def prettyEntries (depth : Nat) : List (String × Value) → List String
  | [] => []
  | (key, v) :: es => (stringForm key ++ ": " ++ prettyAt depth v) :: prettyEntries depth es

end

/-- The indented text of a value. -/
def pretty (v : Value) : String := prettyAt 0 v

end Cosim.Json
