import Cosim.Script.Signal
import Cosim.Script.Utility

/-!
# Starters

Programs that run another program, which their arguments name: with other values, with a limit of
time, or once for some words of their input.  The options of a starter stand before that program.
-/

namespace Cosim.Script

namespace Given

/-- Options up to the first argument that is none, and the arguments from there on. -/
def readFront (form : Form) : List String → Except Fault Given
  | [] => .ok ⟨[], []⟩
  | a :: rest =>
    if a == "--" then .ok ⟨[], rest⟩
    else if !isOption a then .ok ⟨[], a :: rest⟩
    else
      match optionsOf form a with
      | .error fault => .error fault
      | .ok (options, none) =>
        (readFront form rest).map fun g => { g with options := options ++ g.options }
      | .ok (options, some c) =>
        match rest with
        | [] => .error (.noValue c)
        | b :: rest =>
          (readFront form rest).map fun g => { g with options := options ++ (c, b) :: g.options }

end Given

namespace Starter

/-- The options of the starter with a name. -/
def form : String → Given.Form
  | "env" => ⟨"iv0", "uCS", [("ignore-environment", 'i'), ("unset", 'u'), ("chdir", 'C'),
      ("split-string", 'S'), ("null", '0')]⟩
  | "timeout" => ⟨"vFP", "sk", [("signal", 's'), ("kill-after", 'k'), ("foreground", 'F'),
      ("preserve-status", 'P'), ("verbose", 'v')]⟩
  | "nice" => ⟨"", "n", [("adjustment", 'n')]⟩
  | "setsid" => ⟨"cfw", "", [("ctty", 'c'), ("fork", 'f'), ("wait", 'w')]⟩
  | "xargs" => ⟨"0rtx", "nILdPsaE", [("null", '0'), ("no-run-if-empty", 'r'), ("verbose", 't'),
      ("max-args", 'n'), ("max-lines", 'L'), ("delimiter", 'd'), ("max-procs", 'P'),
      ("max-chars", 's'), ("arg-file", 'a')]⟩
  | _ => ⟨"", "", []⟩

/-- The status of a starter that cannot do its work. -/
def troubleStatus (program : String) : Nat :=
  if program == "xargs" || program == "setsid" then 1 else 125

/-- How a starter tells that it cannot run a program. -/
def refusal (program called : String) (t : Trouble) : String :=
  match program with
  | "env" | "nice" => s!"{inQuotes called}: {t.message}"
  | "xargs" => s!"{called}: {t.message}"
  | "setsid" => s!"failed to execute {called}: {t.message}"
  | _ => s!"failed to run command {inQuotes called}: {t.message}"

/-- An adjustment that is the option itself, as an option with a value. -/
def withAdjustment : List String → List String
  | a :: rest =>
    match a.toList with
    | '-' :: c :: cs =>
      if c.isDigit || (c == '-' && cs.any Char.isDigit && cs.all Char.isDigit) then
        "-n" :: String.ofList (c :: cs) :: withAdjustment rest
      else a :: rest
    | _ => a :: rest
  | [] => []

/-! ## Words of an input -/

/-- Why an input has no words. -/
inductive Unclosed where
  | single
  | double

def Unclosed.message (u : Unclosed) : String :=
  let kind := match u with
    | .single => "single"
    | .double => "double"
  s!"unmatched {kind} quote; by default quotes are special to xargs unless you use the -0 option"

/-- The words of an input with the number of the line on which each stands.  Quotes and backslashes
keep blanks in words.  The fuel is the number of characters. -/
def words : Nat → (line : Nat) → (word : Option (List Char)) → List Char →
    Except Unclosed (List (Nat × String))
  | 0, line, word, _ => .ok (word.map fun w => (line, String.ofList w.reverse)).toList
  | _, line, word, [] => .ok (word.map fun w => (line, String.ofList w.reverse)).toList
  | fuel + 1, line, word, c :: cs =>
    if c == '\x27' || c == '"' then
      let inner := cs.takeWhile fun d => d != c && d != '\n'
      match cs.drop inner.length with
      | d :: rest =>
        if d == c then words fuel line (some (inner.reverse ++ word.getD [])) rest
        else .error (if c == '"' then .double else .single)
      | [] => .error (if c == '"' then .double else .single)
    else if c == '\\' then
      match cs with
      | d :: rest => words fuel line (some (d :: word.getD [])) rest
      | [] => words fuel line word []
    else if Calculation.isBlank c then do
      let more ← words fuel (if c == '\n' then line + 1 else line) none cs
      .ok ((word.map fun w => (line, String.ofList w.reverse)).toList ++ more)
    else words fuel line (some (c :: word.getD [])) cs

/-- Lists of so many elements. -/
def batches {α : Type} (size : Nat) : Nat → List α → List (List α)
  | 0, _ => []
  | fuel + 1, l => if l.isEmpty then [] else l.take size :: batches size fuel (l.drop size)

/-- The words of so many lines together. -/
def lineBatches (size : Nat) : List (Nat × String) → List (List String)
  | [] => []
  | (n, w) :: rest =>
    match rest, lineBatches size rest with
    | (k, _) :: _, b :: bs => if n / size == k / size then (w :: b) :: bs else [w] :: b :: bs
    | _, bs => [w] :: bs

/-- A text with each place of a part replaced.  The fuel is the number of characters. -/
def replaced (part new : List Char) : Nat → List Char → List Char
  | 0, _ => []
  | _, [] => []
  | fuel + 1, c :: cs =>
    if !part.isEmpty && part.isPrefixOf (c :: cs) then
      new ++ replaced part new fuel ((c :: cs).drop part.length)
    else c :: replaced part new fuel cs

/-- The commands that are made of an input. -/
def commands (g : Given) (input : String) : Except Unclosed (List (List String)) := do
  let command := if g.operands.isEmpty then ["echo"] else g.operands
  let separator := if g.has '0' then some '\x00' else (g.value? 'd').bind fun d => d.toList.head?
  let cs := input.toList
  match g.value? 'I' with
  | some place =>
    let lines := (cs.splitOn '\n').map fun line => line.dropWhile Calculation.isBlank
    .ok ((lines.filter fun line => !line.isEmpty).map fun line =>
      command.map fun a => String.ofList (replaced place.toList line a.length a.toList))
  | none =>
    let ws ← match separator with
      | some c =>
        let parts := cs.splitOn c
        let parts := if parts.getLast? == some [] then parts.dropLast else parts
        .ok (parts.map fun part => (0, String.ofList part))
      | none => words (cs.length + 1) 0 none cs
    let number (c : Char) : Option Nat := ((g.value? c).bind String.toNat?).filter (0 < ·)
    let parts := match number 'n', number 'L' with
      | some n, _ => batches n ws.length (ws.map Prod.snd)
      | none, some n => lineBatches n ws
      | none, none => if ws.isEmpty then [] else [ws.map Prod.snd]
    if parts.isEmpty then .ok (if g.has 'r' then [] else [command])
    else .ok (parts.map fun part => command ++ part)

/-- An option whose value should be a number and is none, with the value. -/
def noNumber? (g : Given) : Option (Char × String) :=
  g.options.find? fun (c, s) => "nLPs".toList.contains c && s.toNat?.isNone

end Starter

end Cosim.Script
