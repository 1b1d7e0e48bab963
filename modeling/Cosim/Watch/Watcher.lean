import Cosim.Watch.Plan
import Cosim.Watch.Table

/-!
# Watching results

A watcher looks at the result files of a folder again and again.  It writes the statistics of every
look, and stops when two looks in a row have shown nothing new or when its time is up.  What other
programs do to the folder between its looks is given as a list of moments.
-/

namespace Cosim.Watch

structure Watcher where
  plan : Plan
  folder : String
  window : Table.Window
  /-- how long to wait for files, and how long to look at them -/
  limit : Span

/-- What happens before a look. -/
structure Moment where
  /-- what other programs do to the disk -/
  change : Disk → Disk
  /-- whether the time is up after the look -/
  timeUp : Bool

/-- Moments in which no other program does anything, and of which the last one ends the time. -/
def Moment.undisturbed (limit : Span) : List Moment :=
  List.replicate 4 ⟨id, limit.nanoseconds == 0⟩ ++ [⟨id, true⟩]

/-- What a look is compared by: the files and the number of rows. -/
structure Sight where
  files : List String
  rows : Nat
deriving DecidableEq

/-- What was seen last, and how many looks in a row have shown just that again. -/
structure Progress where
  last : Option Sight
  unchanged : Nat

namespace Progress

def initial : Progress := ⟨none, 0⟩

def see (p : Progress) (s : Sight) : Progress :=
  ⟨some s, if p.last = some s then p.unchanged + 1 else 0⟩

/-- Whether nothing new has been seen twice in a row. -/
def isSettled (p : Progress) : Bool := 2 ≤ p.unchanged

end Progress

namespace Watcher

/-! ## Looking -/

/-- The sources with headers among files. -/
def readSources (plan : Plan) : Entries ResultFile → Action (List (Source × List Row))
  | [] => pure []
  | (name, file) :: files => do
    let how : Source.Reading :=
      ⟨(plan.dataColumns.get? name).getD [], plan.timeColumn, plan.delimiter⟩
    let found ← Source.load? file how
    pure (found.toList ++ (← readSources plan files))

/-- The window of the joined table of files. -/
def readFiles (w : Watcher) (files : Entries ResultFile) : Action Table := do
  pure ((Table.join (← readSources w.plan files)).window w.window)

/-- The table of the newest result files. -/
def read (w : Watcher) : Action Table := do w.readFiles (← ResultFile.discover w.folder)

/-- The name of the dictionary of results. -/
def resultName : String := "resultDict"

/-- Writes the statistics of a table into the folder. -/
def writeResults (w : Watcher) (t : Table) : Action PUnit :=
  Dictionary.save (Path.join w.folder resultName) t.toDictionary

/-- One look at the results. -/
def look (w : Watcher) : Action (Sight × Table) := do
  let files ← ResultFile.discover w.folder
  let t ← w.readFiles files
  w.writeResults t
  pure (⟨files.values.map (·.path), t.rows.length⟩, t)

/-! ## Waiting and watching -/

/-- One moment of waiting for result files. -/
def waitStep (folder : String) (limit : Span) (m : Moment) :
    Action (Option (Entries ResultFile)) := do
  modify m.change
  let files ← ResultFile.discover folder
  if !files.isEmpty then pure (some files)
  else if m.timeUp then throw (.timeout (.results folder limit))
  else pure none

/-- Waits for result files.  There is no result where the moments end before the time does. -/
def await? (folder : String) (limit : Span) :
    List Moment → Action (Option (Entries ResultFile × List Moment))
  | [] => pure none
  | m :: moments => do
    match ← waitStep folder limit m with
    | some files => pure (some (files, moments))
    | none => await? folder limit moments

/-- One moment of watching: what is seen, the table, and whether the watching ends with it. -/
def watchStep (w : Watcher) (p : Progress) (m : Moment) : Action (Progress × Table × Bool) := do
  modify m.change
  let (sight, t) ← w.look
  let p := p.see sight
  pure (p, t, p.isSettled || m.timeUp)

/-- Looks again and again, until nothing changes or the time is up. -/
def follow? (w : Watcher) (p : Progress) : List Moment → Action (Option Table)
  | [] => pure none
  | m :: moments => do
    let (p, t, done) ← w.watchStep p m
    if done then pure (some t) else w.follow? p moments

/-- Waits for results and watches them. -/
def run? (w : Watcher) (moments : List Moment) : Action (Option Table) := do
  match ← await? w.folder w.limit moments with
  | some (_, moments) => w.follow? .initial moments
  | none => pure none

/-- Writes a table into an archive that is named after the simulation. -/
def dump (w : Watcher) (t : Table) : Action PUnit := do
  let name := w.plan.simulationName
  let text := t.toCsv w.plan.delimiter
  Action.write (Path.join w.folder s!"{name}.zip") (.archive [(s!"{name}.csv", .ofText text)])

/-- Watches results, and dumps the last table if that is asked for. -/
def finish (w : Watcher) (dumping : Bool) (moments : List Moment) : Action (Option Table) := do
  let found ← w.run? moments
  match found with
  | some t => if dumping then w.dump t
  | none => pure ()
  pure found

end Watcher

end Cosim.Watch
