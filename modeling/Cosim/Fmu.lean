import Cosim.Archive
import Cosim.Model.Edit
import Cosim.Text.Replace

/-!
# FMUs

An FMU is an archive file with a model description.  It can be cloned under another name, and an
edited description can be written back into it.

A change that takes more than one file, or one file more than once, is a list of steps.  Each step
changes a single file.  The steps are done one after another, up to the first that fails.
-/

namespace Cosim

/-! ## Changes in steps -/

/-- A change of one file: an archive is replaced by an edited one, or a text is written. -/
inductive Step where
  | edit (path : String) (change : Archive.Listing → Except Failure Archive.Listing)
    (failure : Failure)
  | write (path text : String)

namespace Step

/-- Does a step.  An edit that is not done fails with the failure of the step. -/
def run : Step → Action PUnit
  | edit path change failure => do
    if !(← Archive.succeeds (Archive.edit path change)) then throw failure
  | write path text => Action.writeText path text

/-- Does steps one after another, up to the first that fails. -/
def runAll : List Step → Action PUnit
  | [] => pure ()
  | step :: steps => do
    step.run
    runAll steps

end Step

/-! ## FMUs -/

/-- An archive file and the model description in it. -/
structure Fmu where
  file : String
  description : Description
deriving BEq

/-- Who edits, and when. -/
structure Editor where
  user : Option String
  time : Timestamp.Seconds

namespace Fmu

/-- The name of the entry that describes the model. -/
def descriptionEntry : String := "modelDescription.xml"

/-- The description in an archive file. -/
def readDescription (file : String) : Action Description := do
  match ← Archive.readEntry file descriptionEntry with
  | none => throw (.noDescription file descriptionEntry)
  | some text => Action.ofExcept ((Description.parse text).mapError .description)

/-- Opens an FMU. -/
def load (file : String) : Action Fmu := do
  if !(← get).isFile file then throw (.notFound file)
  pure ⟨file, ← readDescription file⟩

def fileName (f : Fmu) : String := (Path.fileName? f.file).getD ""

/-- The file name without extension. -/
def stem (f : Fmu) : String := (Path.stem? f.file).getD ""

/-- The path of the copy of a description that stands beside its archive. -/
def siblingPath (file : String) : String :=
  let stem := (Path.stem? file).getD ""
  Path.withFileName file s!"{stem}_ModelDescription.xml"

/-- A description cannot be written into an archive. -/
def updatingFailure (file : String) : Failure := .archive (.updating descriptionEntry file)

/-- Drops the description from an archive. -/
def droppingStep (file : String) : Step :=
  .edit file (Archive.removeAll [descriptionEntry]) (updatingFailure file)

/-- Puts a text for the description at the end of an archive. -/
def addingStep (file text : String) : Step :=
  .edit file (Archive.add descriptionEntry text) (updatingFailure file)

/-- Puts a copy of the text beside the archive. -/
def copyingStep (file text : String) : Step := .write (siblingPath file) text

/-- The steps by which the text of a description is written. -/
def writingSteps (file text : String) : List Step :=
  [droppingStep file, addingStep file text, copyingStep file text]

/-- Writes a description into an archive and beside it, and tells the path of the copy. -/
def writeDescription (file : String) (d : Description) : Action String := do
  Step.runAll (writingSteps file d.render)
  pure (siblingPath file)

/-! ## Clones -/

/-- The extensions of shared libraries. -/
def libraryExtensions : List String := ["dll", "so", "dylib"]

/-- The new name of an entry under `binaries/` that is a shared library named after the FMU. -/
def renamedLibrary? (stem new entry : String) : Option String := do
  if !entry.startsWith "binaries/" then none else
    let (folder, name) ← Text.splitLast? '/' entry
    let (_, extension) ← Text.splitLast? '.' name
    if libraryExtensions.contains extension && Text.hasPart stem.toList name.toList then
      some (folder ++ "/" ++ Text.replaceAll stem new name)
    else none

/-- Renames the libraries among the given entries of an archive. -/
def renameLibraries (file stem new : String) : List String → Action PUnit
  | [] => pure ()
  | entry :: entries => do
    match renamedLibrary? stem new entry with
    | none => pure ()
    | some renamed =>
      if !(← Archive.renameEntry file entry renamed) then
        throw (.archive (.renaming entry file))
    renameLibraries file stem new entries

/-- Clones an FMU under a new name beside itself: the archive is copied, its libraries are renamed
and its description gets the new name and a record of the edit. -/
def cloneAs (f : Fmu) (new : String) (editor : Editor) : Action Fmu := do
  let target := Path.withFileName f.file s!"{new}.fmu"
  Action.copy f.file target
  let entries ← Archive.load target
  renameLibraries target f.stem new (entries.map Prod.fst)
  let old := f.description.modelName?.getD f.stem
  let summary := s!"Copied from {f.fileName}: modelName {old} -> {new}"
  let description := (f.description.rename new).record summary editor.time editor.user
  let _ ← writeDescription target description
  pure ⟨target, description⟩

/-- The clone of an FMU under a new name, if it can be made.  An FMU is not cloned onto itself. -/
def clone? (f : Fmu) (new : String) (editor : Editor) : Action (Option Fmu) :=
  if new == f.stem then pure none
  else tryCatch (do pure (some (← f.cloneAs new editor))) fun _ => pure none

end Fmu

end Cosim
