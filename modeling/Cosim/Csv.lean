/-!
# Comma-separated values

Records of fields between delimiters.  A field in quotes may hold delimiters and line ends, and a
quote in it is written twice.  Blank lines are no records.  `Csv.write` puts quotes around a field
only where it cannot do without.
-/

namespace Cosim.Csv

/-! ## Reading -/

/-- Where the reader stands. -/
inductive Place where
  | recordStart
  | fieldStart
  | field
  | quoted
  /-- behind a quote in a quoted field -/
  | quote
deriving DecidableEq

/-- What has been read, with everything in reverse. -/
structure Reading where
  place : Place
  chars : List Char
  fields : List String
  records : List (List String)

def isLineEnd (c : Char) : Bool := c == '\r' || c == '\n'

namespace Reading

def initial : Reading := ⟨.recordStart, [], [], []⟩

def push (r : Reading) (place : Place) (c : Char) : Reading :=
  { r with place := place, chars := c :: r.chars }

def endField (r : Reading) : Reading :=
  { r with
    place := .fieldStart
    chars := []
    fields := String.ofList r.chars.reverse :: r.fields }

def endRecord (r : Reading) : Reading :=
  ⟨.recordStart, [], [], r.endField.fields.reverse :: r.records⟩

/-- Reads a character outside quotes. -/
def plain (delimiter : Char) (r : Reading) (c : Char) : Reading :=
  if c == delimiter then r.endField
  else if isLineEnd c then r.endRecord
  else r.push .field c

/-- Reads the first character of a field. -/
def first (delimiter : Char) (r : Reading) (c : Char) : Reading :=
  if c == '"' then { r with place := .quoted } else r.plain delimiter c

def step (delimiter : Char) (r : Reading) (c : Char) : Reading :=
  match r.place with
  | .recordStart => if isLineEnd c then r else r.first delimiter c
  | .fieldStart => r.first delimiter c
  | .field => r.plain delimiter c
  | .quoted => if c == '"' then { r with place := .quote } else r.push .quoted c
  | .quote => if c == '"' then r.push .quoted c else r.plain delimiter c

/-- The records when the text ends. -/
def finish (r : Reading) : List (List String) :=
  (if r.place == .recordStart then r else r.endRecord).records.reverse

end Reading

/-- The records of a text; a byte order mark in front is skipped. -/
def records (delimiter : Char) (text : String) : List (List String) :=
  let cs := match text.toList with
    | '\ufeff' :: cs => cs
    | cs => cs
  (cs.foldl (Reading.step delimiter) Reading.initial).finish

/-! ## Writing -/

/-- Whether a field can only be written in quotes. -/
def needsQuotes (delimiter : Char) (field : List Char) : Bool :=
  field.any fun c => c == delimiter || c == '"' || isLineEnd c

def fieldText (delimiter : Char) (field : String) : List Char :=
  let cs := field.toList
  if needsQuotes delimiter cs then
    '"' :: (cs.flatMap fun c => if c == '"' then ['"', '"'] else [c]) ++ ['"']
  else cs

/-- A record that would be a blank line is written as a pair of quotes. -/
def recordText (delimiter : Char) (fields : List String) : List Char :=
  let line := [delimiter].intercalate (fields.map (fieldText delimiter))
  (if line.isEmpty then ['"', '"'] else line) ++ ['\n']

def write (delimiter : Char) (records : List (List String)) : String :=
  String.ofList (records.flatMap (recordText delimiter))

end Cosim.Csv
