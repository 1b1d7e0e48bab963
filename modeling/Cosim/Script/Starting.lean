import Cosim.Archive
import Cosim.Script.Bytes
import Cosim.Script.System

/-!
# Starting programs

What is run for the name of a program: a program of the system, or the one that the first line of a
file names, with the file as its argument.
-/

namespace Cosim.Script

/-- A program of the system with its arguments, under the name by which it is called. -/
structure Start where
  program : String
  name : String
  arguments : List String

namespace Start

/-- The name and the argument in the first line of a script. -/
def interpreter? (data : ByteArray) : Option (String × List String) :=
  let isBlank (c : Char) : Bool := c == ' ' || c == '\t'
  match (ofData (data.extract 0 256)).toList with
  | '#' :: '!' :: rest =>
    let line := (rest.takeWhile fun c => c != '\n' && c != '\x00').dropWhile isBlank
    let name := line.takeWhile fun c => !isBlank c
    let more := ((line.drop name.length).dropWhile isBlank).reverse.dropWhile isBlank
    if name.isEmpty then none
    else
      some (String.ofList name, if more.isEmpty then [] else [String.ofList more.reverse])
  | _ => none

/-- Whether the first line of a file cannot be one of a script. -/
def isBinary (data : ByteArray) : Bool :=
  ((ofData (data.extract 0 128)).toList.takeWhile (· != '\n')).any fun c =>
    c < '\t' || ('\x10' ≤ c && c ≤ '\x1f' && c != '\x1b') || c == '\x7f'

/-- How many scripts may name each other. -/
def chainLimit : Nat := 5

/-- What is run for a path. -/
def ofPath (d : Disk) (folder : String) : Nat → (path : String) → (arguments : List String) →
    Except Trouble Start
  | fuel, path, arguments => do
    match ← System.look d folder (toText path) with
    | .program name => pure ⟨name, path, arguments⟩
    | .file content true =>
      match interpreter? content.toBytes, fuel with
      | some (name, more), fuel + 1 => ofPath d folder fuel name (more ++ path :: arguments)
      | _, _ => throw .wrongForm
    | _ => throw .forbidden

/-- Whether a file can be run at all. -/
def canRun : Found → Bool
  | .program _ => true
  | .file _ executable => executable
  | _ => false

/-- The path of a program that is looked up by its name in folders.  What cannot be run is passed
over, but then it counts as the trouble. -/
def find (d : Disk) (folder name : String) : List String → Except Trouble String
  | [] => .error .missing
  | place :: places =>
    let path := if place.isEmpty then name else place ++ "/" ++ name
    match System.look d folder (toText path) with
    | .ok found =>
      if canRun found then .ok path
      else
        match find d folder name places with
        | .error .missing => .error .forbidden
        | r => r
    | .error .tooLong => .error .tooLong
    | .error _ => find d folder name places

end Start

end Cosim.Script
