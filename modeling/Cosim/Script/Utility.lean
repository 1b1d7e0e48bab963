import Cosim.Script.Condition
import Cosim.Script.Utility.Files
import Cosim.Script.Utility.Search
import Cosim.Script.Utility.Tree

/-!
# Utilities by name

`Utility.find?` tells what the program with a name does.
-/

namespace Cosim.Script.Utility

open Working

/-- A time in nanoseconds; a letter may stand for its unit. -/
def duration? (s : String) : Option Nat :=
  let cs := s.toList
  let unit? : Option (Nat × List Char) := match cs.getLast? with
    | some 's' => some (1, cs.dropLast)
    | some 'm' => some (60, cs.dropLast)
    | some 'h' => some (3600, cs.dropLast)
    | some 'd' => some (86400, cs.dropLast)
    | _ => some (1, cs)
  unit?.bind fun (unit, body) =>
    let (negative, n, d, wrong) := Printed.ratio (String.ofList body)
    if body == "infinity".toList || body == "inf".toList then some (Nat.pow 10 30)
    else if negative || wrong.isSome || body.isEmpty then none
    else some (n * unit * Nat.pow 10 9 / d)

def sleep (arguments : List String) : Working PUnit :=
  withOptions "" "" [] arguments fun g => do
    if g.operands.isEmpty then misused "missing operand"
    else
      let wrong := g.operands.filter fun a => (duration? a).isNone
      if wrong.isEmpty then
        modify fun e => { e with took := (g.operands.filterMap duration?).foldl (· + ·) 0 }
      else
        for a in wrong.dropLast do complain s!"invalid time interval {inQuotes a}"
        misused ("invalid time interval " ++ inQuotes (wrong.getLast?.getD ""))

def files : Working Condition.Files := do
  let d ← disk
  let folder := (← read).folder
  let look (path : String) : Option Found := (System.look d folder (toText path)).toOption
  pure {
    has := fun sign path =>
      match sign, look path with
      | _, none => false
      | "-f", some (.file _ _) => true
      | "-f", some (.program _) => true
      | "-f", some _ => false
      | "-d", some f => f == .folder
      | "-x", some (.file _ executable) => executable
      | "-s", some (.file content _) => content.toBytes.size != 0
      | sign, some _ => ["-e", "-r", "-w", "-x", "-s"].contains sign
    areSame := fun path other =>
      match System.locate d folder (toText path), System.locate d folder (toText other) with
      | .ok l, .ok k => l == k && (look path).isSome
      | _, _ => false }

def test (words : List String) : Working PUnit := do
  match Condition.holds? (← files) words with
  | .ok b => setStatus (if b then 0 else 1)
  | .error fault => complain fault.message 2

def bracket (arguments : List String) : Working PUnit :=
  if arguments.getLast? == some "]" then test arguments.dropLast
  else complain ("missing " ++ inQuotes "]") 2

def currentFolder (_ : List String) : Working PUnit := do sayLine (ofText (← read).folder)

/-- The absolute path of a name, as far as it leads somewhere. -/
def absolutePath (quiet : Bool) (arguments : List String) : Working PUnit :=
  withOptions "femqsnz" "" [("canonicalize", 'f')] arguments fun g => do
    if g.operands.isEmpty then misused "missing operand"
    else if quiet && !g.has 'f' && !g.has 'e' && !g.has 'm' then setStatus 1
    else
      for name in g.operands do
        match ← locate name with
        | .ok l => sayLine (ofText ("/" ++ "/".intercalate l))
        | .error t => if quiet then setStatus 1 else complain s!"{name}: {t.message}"

/-- Copies blocks of bytes between files. -/
def copyBlocks (arguments : List String) : Working PUnit := do
  let value? (key : String) : Option String :=
    (arguments.reverse.find? fun a => a.startsWith (key ++ "=")).map fun a =>
      String.ofList (a.toList.drop (key.length + 1))
  let size := ((value? "bs").bind amount?).getD 512
  let count := (value? "count").bind amount?
  let name := (value? "if").getD "-"
  match ← fileData name with
  | .error t => complain s!"failed to open {inQuotes name}: {t.message}"
  | .ok data =>
    let hasMore := (← get).stays
    let data : ByteArray := match count with
      | some n =>
        if hasMore && data.size < size * n then
          ⟨(repeated (min (size * n) endlessLimit) data.toList).toArray⟩
        else data.extract 0 (size * n)
      | none => data
    if count.isSome then suffice else if (value? "of").isNone then passOn
    let written ← match value? "of" with
      | none => do
        write data
        pure (Except.ok PUnit.unit)
      | some target => writeFile target data
    match written with
    | .error t =>
      let target := inQuotes ((value? "of").getD "")
      complain s!"failed to open {target}: {t.message}"
    | .ok _ =>
      if (value? "status").isNone then
        let blocks := s!"{data.size / size}+{if data.size % size == 0 then 0 else 1} records"
        modify fun e => { e with
          complaint := e.complaint ++
            s!"{blocks} in\n{blocks} out\n{data.size} bytes copied, 0 s, 0 MB/s\n" }

/-- What the program with a name does. -/
def find? : String → Option (List String → Working PUnit)
  | "true" => some fun _ => pure ()
  | "false" => some fun _ => setStatus 1
  | "echo" => some echo
  | "printf" => some printf
  | "sleep" => some sleep
  | "test" => some test
  | "[" => some bracket
  | "cat" => some printFiles
  | "head" => some head
  | "tail" => some tail
  | "tr" => some transliterate
  | "cp" => some copy
  | "mv" => some move
  | "rm" => some remove
  | "ln" => some link
  | "mkdir" => some makeFolders
  | "rmdir" => some removeFolders
  | "touch" => some touch
  | "chmod" => some changeMode
  | "ls" => some list
  | "basename" => some baseNames
  | "dirname" => some folderNames
  | "pwd" => some currentFolder
  | "wc" => some count
  | "seq" => some sequence
  | "expr" => some express
  | "tee" => some tee
  | "sort" => some sort
  | "uniq" => some unique
  | "cut" => some cut
  | "yes" => some endless
  | "tac" => some reverseLines
  | "rev" => some reverseChars
  | "cmp" => some compare
  | "diff" => some compare
  | "grep" => some grep
  | "sed" => some edit
  | "dd" => some copyBlocks
  | "find" => some findItems
  | "install" => some install
  | "unlink" => some unlink
  | "truncate" => some truncate
  | "realpath" => some (absolutePath false)
  | "readlink" => some (absolutePath true)
  | "date" => some fun _ => sayLine ""
  | "sync" => some fun _ => pure ()
  | "whoami" => some fun _ => sayLine "root"
  | "uname" => some fun _ => sayLine "Linux"
  | _ => none

end Cosim.Script.Utility
