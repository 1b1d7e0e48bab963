import Cosim.Failure
import Cosim.Script.Calculation

/-!
# Signals

The names of signals, and what they do to a script that has no command for them.
-/

namespace Cosim.Script.Signal

/-- The largest signal. -/
def last : Nat := 64

/-- The first signal that programs use as they like. -/
def firstFree : Nat := 34

/-- The name of a signal as scripts use it. -/
def name (n : Nat) : String :=
  if n == 0 then "0"
  else if n == 16 then "16"
  else
    match signalNames[n - 1]? with
    | some s => s
    | none =>
      if n == firstFree then "RTMIN"
      else if n == last then "RTMAX"
      else if firstFree < n && n ≤ 49 then s!"RTMIN+{n - firstFree}"
      else if 50 ≤ n && n < last then s!"RTMAX-{last - n}"
      else toString n

/-- The signal of a number, or of a name in any case; zero stands for the end of the script. -/
def ofWord? (s : String) : Option Nat :=
  if !s.isEmpty && s.toList.all Char.isDigit then
    some (Calculation.digits 10 s.toList).1 |>.filter (· ≤ last)
  else
    let upper := String.ofList (s.toList.map Char.toUpper)
    ((List.range last).map (· + 1)).find? fun n => name n == upper

/-- What a signal does. -/
inductive Effect where
  | ends
  | nothing
  | stops
deriving DecidableEq

def effect (n : Nat) : Effect :=
  if ["CHLD", "CONT", "URG", "WINCH"].contains (name n) || n == 0 then .nothing
  else if ["STOP", "TSTP", "TTIN", "TTOU"].contains (name n) then .stops
  else .ends

/-- Whether a command for a signal can be run. -/
def catchable (n : Nat) : Bool := name n != "KILL" && name n != "STOP"

/-- How a script tells that a program was ended by a signal. -/
def report (n : Nat) : String :=
  match name n with
  | "HUP" => "Hangup"
  | "INT" => ""
  | "QUIT" => "Quit"
  | "ILL" => "Illegal instruction"
  | "TRAP" => "Trace/breakpoint trap"
  | "ABRT" => "Aborted"
  | "BUS" => "Bus error"
  | "FPE" => "Floating point exception"
  | "KILL" => "Killed"
  | "USR1" => "User defined signal 1"
  | "SEGV" => "Segmentation fault"
  | "USR2" => "User defined signal 2"
  | "PIPE" => ""
  | "ALRM" => "Alarm clock"
  | "TERM" => "Terminated"
  | "16" => "Stack fault"
  | "XCPU" => "CPU time limit exceeded"
  | "XFSZ" => "File size limit exceeded"
  | "VTALRM" => "Virtual timer expired"
  | "PROF" => "Profiling timer expired"
  | "IO" => "I/O possible"
  | "PWR" => "Power failure"
  | "SYS" => "Bad system call"
  | _ => if firstFree ≤ n then s!"Real-time signal {n - firstFree}" else s!"Unknown signal {n}"

end Cosim.Script.Signal
