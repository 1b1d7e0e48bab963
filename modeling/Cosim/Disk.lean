import Cosim.Archive.Entry
import Cosim.Path

/-!
# Disks

A `Disk` is a tree of folders and files, given by the items at its locations.  An `Action` reads
and changes a disk; where it fails, the disk keeps what was changed before.  Paths are followed
segment by segment, and every segment but the last must lead to a folder that exists.

A file has a content and may be executable.  All other permissions are left out, so a disk never
forbids to read or to write, and so are symbolic links, so every location has its own item.
-/

namespace Cosim

/-- The content of a file: any bytes, or an archive that has been put together from entries. -/
inductive Content where
  | bytes (data : ByteArray)
  | archive (entries : Archive.Listing)
deriving DecidableEq

namespace Content

def ofText (s : String) : Content := .bytes s.toUTF8

/-- An archive without entries is its closing record alone, whose bytes happen to be text. -/
def emptyArchiveText : String :=
  String.ofList (['P', 'K', '\x05', '\x06'] ++ List.replicate 18 '\x00')

/-- The content as text, if its bytes are text.  Archives with entries never are. -/
def text? : Content → Option String
  | .bytes data => String.fromUTF8? data
  | .archive [] => some emptyArchiveText
  | .archive _ => none

end Content

/-- What stands at a location. -/
inductive Item where
  | folder
  | file (content : Content) (executable : Bool)
deriving DecidableEq

/-- The names on the way from the root. -/
abbrev Location := List String

structure Disk where
  items : List (Location × Item)
  /-- where relative paths start -/
  current : Location
deriving DecidableEq, Inhabited

/-- What reads and changes a disk and can fail. -/
abbrev Action := EStateM Failure Disk

namespace Disk

/-- The disk with nothing but its root. -/
def empty : Disk := ⟨[], []⟩

def item? (d : Disk) (l : Location) : Option Item :=
  if l.isEmpty then some .folder else d.items.lookup l

def isFolderAt (d : Disk) (l : Location) : Bool := d.item? l == some .folder

/-- Puts an item in the place of an old one, or adds it. -/
def put (d : Disk) (l : Location) (item : Item) : Disk :=
  if (d.items.lookup l).isSome then
    { d with items := d.items.map fun (k, old) => if k == l then (k, item) else (k, old) }
  else { d with items := d.items ++ [(l, item)] }

/-- Removes an item and everything below it. -/
def removeTree (d : Disk) (l : Location) : Disk :=
  { d with items := d.items.filter fun (k, _) => !l.isPrefixOf k }

/-- Puts a tree at another location as well. -/
def copyTree (d : Disk) (source target : Location) : Disk :=
  (d.items.filter fun (l, _) => source.isPrefixOf l).foldl
    (fun d (l, item) => d.put (target ++ l.drop source.length) item) d

/-- Puts a tree at another location, in the place of what stands there. -/
def moveTree (d : Disk) (source target : Location) : Disk :=
  let moved := d.items.filterMap fun (l, item) =>
    if source.isPrefixOf l then some (target ++ l.drop source.length, item) else none
  let rest := (d.removeTree source).removeTree target
  { rest with items := rest.items ++ moved }

/-- Adds a folder and the folders on the way to it. -/
def putFolders (d : Disk) (l : Location) : Disk :=
  ((List.range l.length).map fun n => l.take (n + 1)).foldl
    (fun d k => if (d.item? k).isSome then d else d.put k .folder) d

/-- The bytes that a name may have. -/
def nameLimit : Nat := 255

/-- The bytes that a path may have. -/
def pathLimit : Nat := 4095

/-- The location that the segments of a path lead to from another one.  What has a segment behind
it, if only an empty one, must be a folder. -/
def follow (d : Disk) : Location → List String → Option Location
  | l, [] => some l
  | l, s :: segments =>
    if !d.isFolderAt l || nameLimit < s.utf8ByteSize then none
    else if s.isEmpty || s == "." then d.follow l segments
    else if s == ".." then d.follow l.dropLast segments
    else d.follow (l ++ [s]) segments

/-- Whether a text can be a path at all. -/
def isPath (path : String) : Bool :=
  !path.isEmpty && path.utf8ByteSize ≤ pathLimit && !path.toList.contains '\x00'

/-- The location of a path; there may be nothing yet. -/
def locate? (d : Disk) (path : String) : Option Location :=
  if isPath path then
    d.follow (if Path.isAbsolute path then [] else d.current) (Path.segments path)
  else none

/-- The path from the root that a path stands for. -/
def absolute (d : Disk) (path : String) : String :=
  Path.join ("/" ++ "/".intercalate d.current) path

/-- The item at the end of a path. -/
def find? (d : Disk) (path : String) : Option Item := (d.locate? path).bind d.item?

def isFile (d : Disk) (path : String) : Bool :=
  match d.find? path with
  | some (.file _ _) => true
  | _ => false

def pathExists (d : Disk) (path : String) : Bool := (d.find? path).isSome

def content? (d : Disk) (path : String) : Option Content :=
  match d.find? path with
  | some (.file content _) => some content
  | _ => none

/-- The names and items of a folder. -/
def children (d : Disk) (l : Location) : List (String × Item) :=
  d.items.filterMap fun (k, item) =>
    match k.getLast? with
    | some name => if k.dropLast == l then some (name, item) else none
    | none => none

/-- Whether two paths lead to the same existing item. -/
def sameItem? (d : Disk) (path other : String) : Option Bool :=
  match d.locate? path, d.locate? other with
  | some l, some k => if (d.item? l).isSome && (d.item? k).isSome then some (l == k) else none
  | _, _ => none

end Disk

namespace Action

def ofExcept {α : Type} (r : Except Failure α) : Action α :=
  match r with
  | .ok a => pure a
  | .error e => throw e

/-- The content of a file. -/
def read (path : String) : Action Content := do
  match (← get).content? path with
  | some content => pure content
  | none => throw .file

/-- The text of a file. -/
def readText (path : String) : Action String := do
  match (← read path).text? with
  | some s => pure s
  | none => throw .file

/-- Writes a file into an existing folder, over an old one.  An old file stays executable. -/
def write (path : String) (content : Content) : Action PUnit := do
  let d ← get
  match d.locate? path with
  | none => throw .file
  | some l =>
    if l.isEmpty || !d.isFolderAt l.dropLast then throw .file
    else match d.item? l with
      | some .folder => throw .file
      | some (.file _ executable) => set (d.put l (.file content executable))
      | none => set (d.put l (.file content false))

def writeText (path text : String) : Action PUnit := write path (Content.ofText text)

def remove (path : String) : Action PUnit := do
  let d ← get
  match d.locate? path, d.isFile path with
  | some l, true => set (d.removeTree l)
  | _, _ => throw .file

/-- The names and items of a folder. -/
def list (path : String) : Action (List (String × Item)) := do
  let d ← get
  match d.locate? path with
  | some l => if d.isFolderAt l then pure (d.children l) else throw .file
  | none => throw .file

/-- Copies a file.  A file that is copied onto itself is empty afterwards. -/
def copy (source target : String) : Action PUnit := do
  let content ← read source
  let d ← get
  if d.sameItem? source target == some true then writeText target ""
  else
    write target content
    let executable := match d.find? source with
      | some (.file _ executable) => executable
      | _ => false
    let d ← get
    match d.locate? target with
    | some l => set (d.put l (.file content executable))
    | none => pure ()

end Action

end Cosim
