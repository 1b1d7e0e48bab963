import Cosim.Dictionary.Writer
import Cosim.Json.Reader
import Cosim.Simulation
import Cosim.System.Builder

/-!
# Cases

A case is a case dictionary together with its folder and what the dictionary says about them: the
folder of the FMUs, the name, and the simulation settings.  Setting up a case builds its system.
-/

namespace Cosim

/-! ## Dictionary files -/

namespace Dictionary

/-- Whether a file holds a dictionary as JSON. -/
def isJsonFile (path : String) : Bool :=
  match Path.extension? path with
  | some extension => extension.toList.map Char.toLower == "json".toList
  | none => false

/-- Reads a dictionary from a text. -/
def ofText (json : Bool) (text : String) : Except DictionaryError Dictionary :=
  if json then
    match Json.document? text with
    | none => .error .malformedJson
    | some (.object es) => .ok es
    | some other => .error (.noObject other)
  else (document text).mapError .syntactic

/-- The text of a dictionary. -/
def toText (json : Bool) (d : Dictionary) : String :=
  if json then Json.pretty (.object d) else write d

/-- Reads a dictionary file. -/
def load (path : String) : Action Dictionary := do
  if !(← get).isFile path then throw (.notFound path)
  let text ← Action.readText path
  Action.ofExcept ((ofText (isJsonFile path) text).mapError (.dictionary path))

/-- Writes a dictionary file. -/
def save (path : String) (d : Dictionary) : Action PUnit :=
  Action.writeText path (d.toText (isJsonFile path))

end Dictionary

/-! ## Cases -/

structure Case where
  dictionary : Dictionary
  /-- the folder of the case dictionary, in which all outputs are written -/
  folder : String
  /-- the folder of the FMUs that the case refers to -/
  library : String
  name : String
  simulation : Option Simulation
  system : Option System

namespace Case

/-- The folder of the FMUs: a path relative to the case folder, or the case folder itself. -/
def libraryOf (d : Dictionary) (folder : String) : String :=
  match d.lookup "_environment.libSource" with
  | some (.text path) => Path.join folder path
  | _ => folder

/-- A case that is not set up yet.  It is named by its simulation settings, or else after its
folder. -/
def ofDictionary (d : Dictionary) (folder : String) : Case :=
  let simulation := Simulation.ofDictionary? d
  let name := ((simulation.bind (·.name)).or (Path.fileName? folder)).getD "case"
  ⟨d, folder, libraryOf d folder, name, simulation, none⟩

/-- Reads a case dictionary. -/
def load (path : String) : Action Case := do
  let path := (← get).absolute path
  let d ← Dictionary.load path
  pure (ofDictionary d ((Path.parent? path).getD "."))

/-- Whether the FMUs come from the case folder itself. -/
def usesOwnFolder (c : Case) (d : Disk) : Bool :=
  match d.sameItem? c.library c.folder with
  | some same => same
  | none => Path.parts c.library == Path.parts c.folder

/-- The paths of the FMUs that components refer to, in order of first use.  Of several paths with
one file name only the first is listed. -/
def fmuFiles (c : Case) : List String :=
  let components := ((c.dictionary.lookup "systemStructure.components").bind Value.entries?).getD []
  let paths := components.values.filterMap fun v =>
    match v.get? "fmu" with
    | some (.text path) => some path
    | _ => none
  paths.foldl (fun files path =>
    if files.any fun file => Path.fileName? file == Path.fileName? path then files
    else files ++ [path]) []

/-- Builds the system of a case; components without a step size get the base step size. -/
def setUp (c : Case) (tool : ProxyTool) : Action Case := do
  match c.dictionary.get? "systemStructure" with
  | none => throw (.case .noStructure)
  | some structureValue =>
    let system ← System.build c.folder tool structureValue
    pure { c with system := some (system.withStepSize (c.simulation.bind (·.baseStepSize))) }

end Case

end Cosim
