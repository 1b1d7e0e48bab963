import Cosim.Script.Machine

/-!
# Putting values into words

A word of a script stands for any number of fields.  What it is asked to put in is put in first;
then values outside of quotes are cut at separators, and last a field with a pattern stands for the
files that fit it.
-/

namespace Cosim.Script

/-- What a word consists of once everything has been put in. -/
inductive Atom where
  /-- a character, at which the field may be cut -/
  | mark (m : Mark) (cuttable : Bool)
  /-- what makes a field even if it has no characters -/
  | quotes
  /-- all arguments where there are none, which takes back quotes around it -/
  | void
  /-- the border between two arguments -/
  | border
deriving DecidableEq

namespace Atom

/-- The text of atoms; borders are blanks. -/
def text : List Atom → List Char
  | [] => []
  | .mark m _ :: atoms => m.char :: text atoms
  | .border :: atoms => ' ' :: text atoms
  | _ :: atoms => text atoms

/-- The marks of atoms as a pattern sees them; borders are blanks. -/
def marks : List Atom → List Mark
  | [] => []
  | .mark m _ :: atoms => m :: marks atoms
  | .border :: atoms => ⟨' ', true⟩ :: marks atoms
  | _ :: atoms => marks atoms

/-- The atoms of a value. -/
def ofValue (quoted : Bool) (cs : List Char) : List Atom :=
  cs.map fun c => .mark ⟨c, quoted⟩ !quoted

end Atom

abbrev Field := List Mark

def Field.text (f : Field) : String := String.ofList (f.map Mark.char)

/-! ## Cutting -/

/-- Where the cutting of atoms stands. -/
structure Cutting where
  done : List Field
  /-- the field that may go on, in reverse -/
  current : Option (List Mark)
  /-- whether blanks have ended the last field -/
  afterBlank : Bool
  voids : Bool

namespace Cutting

def endField (c : Cutting) (afterBlank : Bool) : Cutting :=
  match c.current with
  | some ms => ⟨ms.reverse :: c.done, none, afterBlank, false⟩
  | none => { c with afterBlank := afterBlank }

def isBlank (c : Char) : Bool := c == ' ' || c == '\t' || c == '\n'

def step (separators : List Char) (c : Cutting) : Atom → Cutting
  | .mark m cuttable =>
    if cuttable && separators.contains m.char then
      if isBlank m.char then c.endField (c.afterBlank || c.current.isSome)
      else if c.current.isSome then c.endField false
      else if c.afterBlank then { c with afterBlank := false }
      else { c with done := [] :: c.done }
    else { c with current := some (m :: c.current.getD []), afterBlank := false }
  | .quotes => { c with current := some (c.current.getD []) }
  | .void => { c with voids := true }
  | .border => c.endField false

/-- The fields of atoms. -/
def fields (separators : List Char) (atoms : List Atom) : List Field :=
  let c := atoms.foldl (step separators) ⟨[], none, false, false⟩
  let c := if c.voids && c.current == some [] then { c with current := none } else c
  (c.endField false).done.reverse

end Cutting

/-! ## Files -/

/-- Whether marks have a pattern among them. -/
def hasPattern (ms : List Mark) : Bool :=
  ms.any fun m => m.means '*' || m.means '?' || m.means '['

/-- The names in a folder, as scripts see them. -/
def folderNames (d : Disk) (folder path : String) : List String :=
  match System.look d folder (if path.isEmpty then "." else toText path), System.locate d folder
    (if path.isEmpty then "." else toText path) with
  | .ok .folder, .ok l => (d.children l).map fun (name, _) => ofText name
  | _, _ => []

/-- The paths of files that fit segments behind a path.  A name that starts with a dot fits only a
pattern that does. -/
def filesBehind (d : Disk) (folder : String) : String → List (List Mark) → List String
  | path, [] => [path]
  | path, segment :: segments =>
    let separator := if segments.isEmpty then "" else "/"
    if hasPattern segment then
      let pattern := Pattern.ofMarks segment
      let shown := segment.head?.map Mark.char == some '.'
      let names := (folderNames d folder path).filter fun name =>
        (shown || name.toList.head? != some '.') && pattern.fits name.toList
      names.flatMap fun name =>
        let next := path ++ name
        if segments.isEmpty || System.isFolder d folder (toText next) then
          filesBehind d folder (next ++ separator) segments
        else []
    else
      let next := path ++ Field.text segment
      if segments.isEmpty && !segment.isEmpty && !(System.look d folder (toText next)).isOk then []
      else filesBehind d folder (next ++ separator) segments

/-- The fields that a field stands for, where a pattern stands for the files that fit it, in order.
A pattern that no file fits stands for itself. -/
def withFiles (d : Disk) (folder : String) (f : Field) : List String :=
  if hasPattern f then
    let found := filesBehind d folder "" (f.splitOnP fun m => m.char == '/')
    if found.isEmpty then [f.text] else found.mergeSort fun a b => a ≤ b
  else [f.text]

/-! ## Putting in -/

namespace Expansion

open Run

/-- All arguments, apart or as one text. -/
def arguments (apart quoted : Bool) : Run (List Atom) := do
  let m ← get
  let separators := m.separators
  if quoted && !apart then
    let between := match separators with
      | [] => ""
      | c :: _ => c.toString
    pure (Atom.ofValue true (between.intercalate m.arguments).toList)
  else if m.arguments.isEmpty then pure (if quoted then [.void] else [])
  else
    let each := m.arguments.map fun a =>
      (if quoted then [Atom.quotes] else []) ++ Atom.ofValue quoted a.toList
    pure ([Atom.border].intercalate each)

/-- What a calculation on a text gives, with the values that it changes. -/
def calculate (text : String) : Run Int := do
  let m ← get
  let lookup (name : String) : Except CalculationFault String :=
    match m.value? name with
    | some s => .ok s
    | none => if m.options.needsValues then .error (.missingValue name) else .ok ""
  match Calculation.result lookup text with
  | .ok (n, changes) =>
    changes.forM fun (name, value) => assign name (toString value)
    pure n
  | .error (.form reason text) => fail s!"arithmetic expression: {reason}: \"{text}\""
  | .error (.noNumber value) => fail s!"Illegal number: {value}"
  | .error (.missingValue name) => fail s!"{name}: parameter not set"
  | .error (.constant name) => fail s!"{name}: is read only"

/-- A word whose first characters may stand for the home folder. -/
def home (m : Machine) (word : Word) : Word :=
  match word with
  | .mark t :: rest =>
    if t.means '~' then
      let (user, behind) := Word.splitPlain (fun c => c != '/') rest
      let ends := match behind with
        | [] => true
        | .mark s :: _ => s.means '/'
        | _ => false
      let folder := if user.isEmpty then m.value? "HOME"
        else if user == "root".toList then some "/root"
        else none
      match folder with
      | some path =>
        if ends then Piece.quotes :: Reading.quotedMarks path.toList ++ behind else word
      | none => word
    else word
  | _ => word

/-- The text of the value of a name for a use, where all arguments are one text.  An empty value may
count as missing. -/
def present? (m : Machine) (name : String) (ofEmpty : Bool) : Option String :=
  let value :=
    if name == "@" || name == "*" then
      if m.arguments.isEmpty then none else some (" ".intercalate m.arguments)
    else m.value? name
  value.filter fun s => !(ofEmpty && s.isEmpty)

/-- The atoms of a value as it is. -/
def wholeValue (name : String) (quoted : Bool) : Run (List Atom) := do
  if name == "@" || name == "*" then arguments (name == "@") quoted
  else pure (Atom.ofValue quoted ((← valueOf name).getD "").toList)

/-- The text of a value as it is, all arguments as one. -/
def textOf (name : String) : Run String := do
  if name == "@" || name == "*" then pure (" ".intercalate (← get).arguments)
  else pure ((← valueOf name).getD "")

/-- An atom as it is between quotes. -/
def quote : Atom → Atom
  | .mark m _ => .mark ⟨m.char, true⟩ false
  | a => a

/-- The text without the line ends at its end. -/
def trimLines (s : String) : List Char := (s.toList.reverse.dropWhile (· == '\n')).reverse

/-- How the output of a command is found out. -/
abbrev Capture := Command → Run String

mutual

/-- The atoms of pieces.  The flag says whether plain characters may be cut, as they may where a
word stands in for a value. -/
def atoms (capture : Capture) : Nat → Bool → Word → Run (List Atom)
  | 0, _, _ => pure []
  | _, _, [] => pure []
  | fuel + 1, cuttable, piece :: word => do
    let first ← pieceAtoms capture fuel cuttable piece
    let rest ← atoms capture fuel cuttable word
    pure (first ++ rest)

def pieceAtoms (capture : Capture) : Nat → Bool → Piece → Run (List Atom)
  | 0, _, _ => pure []
  | fuel + 1, cuttable, piece => do
    match piece with
    | .mark m => pure [Atom.mark m (cuttable && !m.quoted)]
    | .quotes => pure [Atom.quotes]
    | .output body quoted => pure (Atom.ofValue quoted (trimLines (← capture body)))
    | .number expression quoted =>
      let inner ← atoms capture fuel false expression
      let n ← calculate (String.ofList (Atom.text inner))
      pure (Atom.ofValue quoted (toString n).toList)
    | .value name use quoted =>
      let m ← get
      match use with
      | .whole => wholeValue name quoted
      | .length => pure (Atom.ofValue quoted (toString (← textOf name).length).toList)
      | .orElse ofEmpty word =>
        if (present? m name ofEmpty).isSome then wholeValue name quoted
        else standIn capture fuel quoted word
      | .ifPresent ofEmpty word =>
        if (present? m name ofEmpty).isSome then standIn capture fuel quoted word else pure []
      | .orAssigned ofEmpty word =>
        if (present? m name ofEmpty).isSome then wholeValue name quoted
        else
          let inner := Atom.text (← standIn capture fuel quoted word)
          assign name (String.ofList inner)
          pure (Atom.ofValue quoted inner)
      | .orFailure ofEmpty word =>
        if (present? m name ofEmpty).isSome then wholeValue name quoted
        else
          let reason := String.ofList (Atom.text (← standIn capture fuel quoted word))
          fail (s!"{name}: " ++
            (if !word.isEmpty then reason
            else if ofEmpty then "parameter not set or null"
            else "parameter not set"))
      | .without cut pattern =>
        let s ← textOf name
        let inner ← atoms capture fuel false pattern
        pure (Atom.ofValue quoted (cut.apply (Pattern.ofMarks (Atom.marks inner)) s.toList))
      | .unknown => fail "Bad substitution"

/-- The atoms of a word that stands in for a value. -/
def standIn (capture : Capture) : Nat → Bool → Word → Run (List Atom)
  | 0, _, _ => pure []
  | fuel + 1, quoted, word => do
    let m ← get
    let inner ← atoms capture fuel (!quoted) (if quoted then word else home m word)
    pure (if quoted then inner.map quote else inner)

end

section

variable (capture : Capture) (fuel : Nat)

/-- The text of a word that stays whole. -/
def text (word : Word) : Run String := do
  let word := home (← get) word
  pure (String.ofList (Atom.text (← atoms capture fuel false word)))

/-- The pattern that a word stands for. -/
def pattern (word : Word) : Run Pattern := do
  let word := home (← get) word
  pure (Pattern.ofMarks (Atom.marks (← atoms capture fuel false word)))

/-- The fields that a word stands for. -/
def fields (word : Word) : Run (List String) := do
  let word := home (← get) word
  let atoms ← atoms capture fuel false word
  let m ← get
  let fs := Cutting.fields m.separators atoms
  if m.options.findsNoFiles then pure (fs.map Field.text)
  else
    let d ← disk
    pure (fs.flatMap (withFiles d m.folder))

end

end Expansion

end Cosim.Script
