import Cosim.System.System
import Cosim.Text.Class
import Cosim.Text.Replace

/-!
# The call graph of a system

The graph of a system in the DOT language: one node for each component and one edge for each valid
connection.  The names of components choose the shapes of their nodes.
-/

namespace Cosim.CallGraph

/-! ## Nodes -/

/-- The names of operators. -/
def operators : List String :=
  ["add", "sub", "subtract", "mul", "multiply", "div", "divide", "sum", "gain", "integrator",
    "diff", "neg"]

/-- The small letter of an ASCII letter; the long s is a kind of s. -/
def foldCase (c : Char) : Char := if c == 'ſ' then 's' else c.toLower

def isInput (name : String) : Bool := name.startsWith "INP" || name.startsWith "inp"

/-- Whether a name is that of an operator, with an underscore, a digit or nothing behind it. -/
def isOperator (name : String) : Bool :=
  let cs := name.toList.map foldCase
  operators.any fun word =>
    word.toList.isPrefixOf cs &&
      match cs.drop word.length with
      | [] => true
      | c :: _ => c == '_' || Text.isDecimalDigit c

/-- The attributes that draw the node of a component. -/
def style (name : String) : String :=
  if isInput name then "shape=parallelogram, style=filled, fillcolor=\"#c6e2ff\""
  else if isOperator name then "shape=circle, style=filled, fillcolor=\"#ffe4b5\""
  else "shape=box, style=\"rounded,filled\", fillcolor=\"#f0f0f0\""

/-! ## Statements -/

/-- A character of a quoted text. -/
def escapeChar (c : Char) : List Char :=
  if c == '\\' || c == '"' then ['\\', c] else [c]

/-- A quoted text, in which backslashes and quotes have a backslash in front. -/
def quote (s : String) : String := "\"" ++ String.ofList (s.toList.flatMap escapeChar) ++ "\""

def node (c : Component) : String :=
  let stepSize := (c.stepSize.map Double.plain).getD "-"
  let label := s!"{c.name}\n{c.fmu.fileName}\nstepSize {stepSize}"
  "    " ++ quote c.name ++ " [label=" ++ quote label ++ ", " ++ style c.name ++ "];\n"

def edge (c : Connection) : String :=
  let label := s!"{c.source.targetName}-->\n{c.target.targetName}"
  "    " ++ quote c.source.component ++ " -> " ++ quote c.target.component ++
    " [label=" ++ quote label ++ "];\n"

/-- What stands before all nodes. -/
def header : String :=
  "digraph callGraph \x7b\n    rankdir=LR;\n" ++
    "    node [fontname=\"Helvetica\", fontsize=10];\n" ++
    "    edge [fontname=\"Helvetica\", fontsize=8];\n"

/-- The graph of a system. -/
def render (s : System) : String :=
  header ++ String.join (s.components.values.map node) ++
    String.join (s.validConnections.map fun (c, _) => edge c) ++ "\x7d\n"

end Cosim.CallGraph
