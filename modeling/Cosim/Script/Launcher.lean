import Cosim.Script.Evaluation

/-!
# Launching scripts

`Script.launcher` starts the programs of the system and the scripts that stand as executable files
on the disk, and tells how they end.  It is the `Launcher` with which tools are run: what makes a
proxy of an FMU or draws a graph is then a script on the same disk.
-/

namespace Cosim.Script

namespace Start

/-- The bytes that an argument may have. -/
def argumentLimit : Nat := 131071

/-- What is run for a call; names of programs are looked up in the folders of the system. -/
def ofCall (d : Disk) (call : Call) : Except Trouble Start := do
  let program := ofText call.program
  let arguments := call.arguments.map ofText
  if (program :: arguments).any fun a => argumentLimit < a.length then throw .tooManyArguments
  if !program.toList.contains '/' then
    if program.isEmpty then throw .missing
    let path ← find d "/" program System.programFolders
    let start ← ofPath d "/" chainLimit path arguments
    pure { start with name := if start.name == path then program else start.name }
  else if call.folder.isNone && !Path.isAbsolute call.program then
    match d.find? call.program with
    | some _ => ofPath d (d.absolute ".") chainLimit program arguments
    | none => throw .missing
  else ofPath d (d.absolute (call.folder.getD ".")) chainLimit program arguments

end Start

/-- The folder in which a call runs. -/
def folderOf (d : Disk) (call : Call) : Except Trouble String :=
  match call.folder with
  | none => .ok (Path.normalize (d.absolute "."))
  | some folder =>
    match System.look d "/" (d.absolute folder) with
    | .ok .folder => .ok (Path.normalize (d.absolute folder))
    | .ok _ => .error .notFolder
    | .error t => .error t

/-- How a run ends that works for a program, and the machine at its end. -/
def endingOf (run : Run PUnit) (m : Machine) : Action (Ending × Machine) := do
  let (r, m) ← (ExceptT.run run).run m
  let ending : Ending := match r with
    | .error .deadline => .overdue
    | .error (.signal _ n) => .finished (.signal n) m.complaint
    | _ => .finished (.code m.status) m.complaint
  pure (ending, m)

/-- How long the jobs of a script that has ended in time are waited for, in nanoseconds. -/
def jobPatience : Nat := 60 * Nat.pow 10 9

/-- How a shell ends.  Where it ends in time and leaves jobs that do not, it starts again with the
time that they need, for what they complain of counts too. -/
def endingOfShell (run : Run PUnit) (m : Machine) : Action Ending := do
  let d ← get
  let (ending, final) ← endingOf run m
  match ending with
  | .overdue => pure ending
  | _ =>
    if final.jobs.any fun j => m.deadline ≤ j.finish then
      set d
      pure (← endingOf run { m with patience := jobPatience }).1
    else pure ending

/-- Launches the programs of a system, and scripts. -/
def launcher : Launcher := fun call deadline => do
  let d ← get
  match folderOf d call, Start.ofCall d call with
  | .error t, _ => pure (.notStarted t.numbered)
  | _, .error t => pure (.notStarted t.numbered)
  | .ok folder, .ok start =>
    let m := Machine.initial folder deadline
    let fuel := Evaluation.fuel
    if deadline.nanoseconds == 0 then pure .overdue
    else if System.shells.contains start.program then
      endingOfShell (Evaluation.finish fuel (Evaluation.shell fuel start.name start.arguments))
        { m with name := start.name }
    else
      pure (← endingOf (Evaluation.perform fuel start.program start.name start.arguments)
        { m with isReplaced := true }).1

end Cosim.Script
