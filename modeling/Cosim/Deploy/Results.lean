import Cosim.Disk

/-!
# Results in a case folder

The files that a compile or a run leaves behind are told by their names, and can be removed.
-/

namespace Cosim.Results

/-- What the names of results are or end with; files that begin with `test_` are no results. -/
inductive Pattern where
  | named (name : String)
  | endingWith (ending : String)

def Pattern.fits (fileName : String) : Pattern → Bool
  | .named name => fileName == name
  | .endingWith ending => fileName.endsWith ending

def patterns : List Pattern :=
  [.endingWith ".csv", .endingWith ".out", .endingWith ".xml", .endingWith ".fmu",
    .endingWith "callGraph", .endingWith ".pdf", .named "watchDict", .named "statisticsDict",
    .endingWith ".zip"]

/-- Whether a file is a result; FMUs may be kept. -/
def isResult (fileName : String) (keepFmus : Bool) : Bool :=
  !fileName.startsWith "test_" && !(keepFmus && fileName.endsWith ".fmu") &&
    patterns.any (·.fits fileName)

/-- The names of the results among the items of a folder, sorted. -/
def among (items : List (String × Item)) (keepFmus : Bool) : List String :=
  let names := items.filterMap fun (name, item) =>
    match item with
    | .file _ _ => if isResult name keepFmus then some name else none
    | .folder => none
  names.mergeSort fun a b => decide (a ≤ b)

/-- Removes the results from a folder, but not from the folders in it, and lists them. -/
def remove (folder : String) (keepFmus : Bool) : Action (List String) := do
  let paths := (among (← Action.list folder) keepFmus).map (Path.join folder)
  for path in paths do
    Action.remove path
  pure paths

end Cosim.Results
