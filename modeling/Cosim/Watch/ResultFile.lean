import Cosim.Disk
import Cosim.Entries
import Cosim.Number.Literal
import Cosim.Text.Replace

/-!
# Result files

A run writes the results of a component to a file `<source>_<date>_<time>_<microseconds>.csv`.  Of
several files of one source the newest counts.
-/

namespace Cosim.Watch

/-- When a result file was begun: date and time as the numbers that their digits form. -/
structure Stamp where
  date : Nat
  time : Nat
  microseconds : Nat
deriving DecidableEq

namespace Stamp

/-- Whether a stamp is earlier than another one. -/
def before (a b : Stamp) : Bool :=
  a.date < b.date ||
    (a.date == b.date &&
      (a.time < b.time || (a.time == b.time && a.microseconds < b.microseconds)))

end Stamp

structure ResultFile where
  source : String
  path : String
  stamp : Stamp
deriving DecidableEq

namespace ResultFile

/-- The number that a text of so many digits forms. -/
def digits? (count : Nat) (s : String) : Option Nat :=
  if s.length == count then Literal.natural? s.toList else none

/-- The name before an extension. -/
def beforeExtension? (extension name : String) : Option String :=
  if name.endsWith extension then
    some (String.ofList (name.toList.take (name.length - extension.length)))
  else none

/-- The source and the stamp that a file name gives. -/
def parseName? (name : String) : Option (String × Stamp) := do
  let (front, micro) ← Text.splitLast? '_' (← beforeExtension? ".csv" name)
  let (front, time) ← Text.splitLast? '_' front
  let (source, date) ← Text.splitLast? '_' front
  let stamp : Stamp := {
    date := ← digits? 8 date
    time := ← digits? 6 time
    microseconds := ← (Literal.natural? micro.toList).filter (· < Nat.pow 2 64) }
  if source.isEmpty || source.toList.contains '\n' then none else pure (source, stamp)

/-- The result file at a path, if its name is that of one. -/
def ofPath? (path : String) : Option ResultFile := do
  let (source, stamp) ← parseName? (← Path.fileName? path)
  pure ⟨source, path, stamp⟩

/-- Adds a file unless there is one of its source that is not older. -/
def keepNewer (files : Entries ResultFile) (file : ResultFile) : Entries ResultFile :=
  match files.get? file.source with
  | some existing => if existing.stamp.before file.stamp then files.put file.source file else files
  | none => files.put file.source file

/-- The newest file of each source, sorted by the names of the sources. -/
def newest (files : List ResultFile) : Entries ResultFile :=
  (files.foldl keepNewer []).mergeSort fun a b => decide (a.1 ≤ b.1)

/-- The newest result files in a folder. -/
def discover (folder : String) : Action (Entries ResultFile) := do
  let items ← Action.list folder
  pure (newest (items.filterMap fun (name, _) => ofPath? (Path.join folder name)))

end ResultFile

end Cosim.Watch
