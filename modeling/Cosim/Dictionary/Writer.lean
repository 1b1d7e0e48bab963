import Cosim.Dictionary.Value
import Cosim.Text.Replace

/-!
# Writing dictionaries

The text of a dictionary: one entry a line, blocks between braces on lines of their own, and lists
in one line unless they hold lists or objects.  The values of one block are aligned behind their
keys.  A text is quoted only where it would not read back as the same text.
-/

namespace Cosim.Dictionary

/-- The lines at the head of every written dictionary. -/
def banner : String :=
  "/*---------------------------------*- C++ -*----------------------------------*\\\n" ++
  "filetype dictionary; coding utf-8; version 0.1; local --; purpose --;\n" ++
  "\\*----------------------------------------------------------------------------*/\n"

/-- Whether a text would read back as something else if it stood bare. -/
def needsQuotes (s : String) : Bool :=
  let cs := s.toList
  cs.isEmpty || !cs.all isBare || Text.hasPart ['/', '/'] cs || Text.hasPart ['/', '*'] cs ||
    cs.head? == some '#' || !(scalar s).isText

/-- A text as it is written, in the quotes that it does not contain where it needs any. -/
def textForm (s : String) : String :=
  if !needsQuotes s then s
  else if s.toList.contains '\'' then "\"" ++ s ++ "\""
  else "'" ++ s ++ "'"

mutual

/-- A value in one line. -/
def inlineForm : Value → String
  | .null => "None"
  | .bool b => Value.boolText b
  | .number n => n.text
  | .text s => textForm s
  | .list items => "(" ++ " ".intercalate (inlineItems items) ++ ")"
  | .object es => "\x7b " ++ " ".intercalate (inlineEntries es) ++ " \x7d"

def inlineItems : List Value → List String
  | [] => []
  | v :: vs => inlineForm v :: inlineItems vs

def inlineEntries : List (String × Value) → List String
  | [] => []
  | (key, v) :: es => (textForm key ++ " " ++ inlineForm v ++ ";") :: inlineEntries es

end

/-- The indentation of a depth: four spaces a level. -/
def pad (depth : Nat) : String := String.ofList (List.replicate (4 * depth) ' ')

def line (depth : Nat) (s : String) : String := pad depth ++ s ++ "\n"

/-- Whether a list takes one line an item. -/
def isTall (items : List Value) : Bool := items.any fun v => v.isObject || v.isList

/-- The column at which the values of a block are aligned: the most bytes of a key that is not
followed by a block. -/
def keyColumn (es : List (String × Value)) : Nat :=
  es.foldl (fun w (key, v) => if v.isObject then w else max w (textForm key).utf8ByteSize) 0

/-- A key filled up to a column. -/
def alignedKey (column : Nat) (key : String) : String :=
  let form := textForm key
  form ++ String.ofList (List.replicate (column - form.length) ' ')

mutual

/-- The lines of an entry in a block whose values start at `column`. -/
def writeEntry (column depth : Nat) (key : String) : Value → String
  | .object es =>
    line depth (textForm key) ++ line depth "\x7b" ++ writeEntries (keyColumn es) (depth + 1) es ++
      line depth "\x7d"
  | .list items =>
    if isTall items then
      line depth (textForm key) ++ line depth "(" ++ writeItems (depth + 1) items ++
        line depth ");"
    else line depth (alignedKey column key ++ " " ++ inlineForm (.list items) ++ ";")
  | v => line depth (alignedKey column key ++ " " ++ inlineForm v ++ ";")

def writeEntries (column depth : Nat) : List (String × Value) → String
  | [] => ""
  | (key, v) :: es => writeEntry column depth key v ++ writeEntries column depth es

/-- The lines of an item of a tall list. -/
def writeItem (depth : Nat) : Value → String
  | .object es =>
    line depth "\x7b" ++ writeEntries (keyColumn es) (depth + 1) es ++ line depth "\x7d"
  | .list items =>
    if isTall items then
      line depth "(" ++ writeItems (depth + 1) items ++ line depth ")"
    else line depth (inlineForm (.list items))
  | v => line depth (inlineForm v)

def writeItems (depth : Nat) : List Value → String
  | [] => ""
  | v :: vs => writeItem depth v ++ writeItems depth vs

end

/-- The text of a dictionary, with its banner. -/
def write (d : Dictionary) : String := banner ++ writeEntries (keyColumn d) 0 d

end Cosim.Dictionary
