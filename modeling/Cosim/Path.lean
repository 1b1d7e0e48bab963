/-!
# Paths

Paths as text, with `/` between their parts.  A path is absolute if it starts with a slash.  Empty
parts do not count, and a single dot counts only in front of a relative path.  `Path.normalize`
resolves dots lexically, `Path.commonRoot` is the deepest folder that holds given files, and
`Path.relativeTo` is the way from one folder to a file.
-/

namespace Cosim.Path

/-- A part of a path. -/
inductive Part where
  | root
  | current
  | parent
  | name (s : String)
deriving DecidableEq

def Part.text : Part → String
  | .root => "/"
  | .current => "."
  | .parent => ".."
  | .name s => s

/-! ## Text and parts -/

/-- The texts between slashes. -/
def segments (path : String) : List String :=
  (path.toList.splitOn '/').map String.ofList

def isAbsolute (path : String) : Bool := path.toList.head? == some '/'

/-- The part that a segment stands for; a dot stands for one only in front. -/
def segmentPart? (isFirst : Bool) (segment : String) : Option Part :=
  if segment.isEmpty then none
  else if segment == "." then (if isFirst then some .current else none)
  else if segment == ".." then some .parent
  else some (.name segment)

/-- The parts of a path in order. -/
def parts (path : String) : List Part :=
  let rest (segments : List String) : List Part := segments.filterMap (segmentPart? false)
  match segments path with
  | [] => []
  | first :: more =>
    if isAbsolute path then .root :: rest more
    else (segmentPart? true first).toList ++ rest more

/-- Puts a path behind a folder; an absolute path stands for itself. -/
def join (folder path : String) : String :=
  if isAbsolute path || folder.isEmpty then path
  else if folder.toList.getLast? == some '/' then folder ++ path
  else folder ++ "/" ++ path

/-- The path with given parts. -/
def ofParts (parts : List Part) : String := parts.foldl (fun path part => join path part.text) ""

/-! ## Names -/

/-- The last part, if it is a name. -/
def fileName? (path : String) : Option String :=
  match (parts path).getLast? with
  | some (.name s) => some s
  | _ => none

/-- A file name before and behind its last dot; a dot in front separates nothing. -/
def splitExtension (name : String) : String × Option String :=
  match (name.toList.splitOn '.').reverse with
  | last :: before :: more =>
    let stem := (before :: more).reverse
    if stem == [[]] then (name, none)
    else (String.ofList (['.'].intercalate stem), some (String.ofList last))
  | _ => (name, none)

/-- The file name without its extension. -/
def stem? (path : String) : Option String :=
  (fileName? path).map fun name => (splitExtension name).1

def extension? (path : String) : Option String :=
  (fileName? path).bind fun name => (splitExtension name).2

/-- The segments in front of the last one that is a part, and whether there is such a segment. -/
def dropLastPart (isRelative : Bool) (reversed : List String) : Option (List String) :=
  match reversed with
  | [] => none
  | segment :: before =>
    if (segmentPart? (isRelative && before.isEmpty) segment).isSome then some before
    else dropLastPart isRelative before

/-- The segments in reverse without those at the end that are no parts. -/
def dropEmptyEnd (isRelative : Bool) (reversed : List String) : List String :=
  match reversed with
  | [] => []
  | segment :: before =>
    if (segmentPart? (isRelative && before.isEmpty) segment).isSome then segment :: before
    else dropEmptyEnd isRelative before

/-- The path without its last part; the root and the empty path have no parent. -/
def parent? (path : String) : Option String :=
  let isRelative := !isAbsolute path
  (dropLastPart isRelative (segments path).reverse).map fun before =>
    match (dropEmptyEnd isRelative before).reverse with
    | [] => if isRelative then "" else "/"
    | front => "/".intercalate front

/-- The folder of a path; that of a name alone is the current one. -/
def folder (path : String) : String :=
  match parent? path with
  | some parent => if parent.isEmpty then "." else parent
  | none => "."

/-- The path with another file name. -/
def withFileName (path name : String) : String :=
  match fileName? path with
  | some _ => join ((parent? path).getD "") name
  | none => join path name

/-! ## Lexical resolution -/

/-- Appends a part to resolved parts in reverse: a step up takes back a name. -/
def resolveStep (reversed : List Part) (part : Part) : List Part :=
  match part with
  | .current => reversed
  | .parent =>
    match reversed with
    | .name _ :: before => before
    | _ => .parent :: reversed
  | part => part :: reversed

/-- Resolves single and double dots as far as the text alone allows. -/
def resolve (parts : List Part) : List Part := (parts.foldl resolveStep []).reverse

def normalize (path : String) : String := ofParts (resolve (parts path))

/-- The common front of two lists. -/
def commonFront {α : Type} [DecidableEq α] : List α → List α → List α
  | a :: as, b :: bs => if a = b then a :: commonFront as bs else []
  | _, _ => []

/-- The deepest folder that holds all files. -/
def commonRoot? (files : List String) : Option String :=
  match files.filterMap parent? with
  | [] => none
  | first :: more =>
    some (more.foldl (fun root folder => ofParts (commonFront (parts root) (parts folder))) first)

/-- The way from a folder to a path.  A path that shares no front with the folder stands for
itself. -/
def relativeTo (path folder : String) : String :=
  let target := parts path
  let base := parts folder
  let common := (commonFront target base).length
  if common == 0 then ofParts target
  else
    let steps := List.replicate (base.length - common) ".." ++ (target.drop common).map Part.text
    if steps.isEmpty then "." else "/".intercalate steps

end Cosim.Path
