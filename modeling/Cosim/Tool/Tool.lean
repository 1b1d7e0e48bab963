import Cosim.Fmu

/-!
# External tools

A compile uses two tools that are no part of it: one makes a proxy of an FMU that runs elsewhere,
and one renders a graph.  Here a tool is any action on the disk.
-/

namespace Cosim

/-- Makes the proxy of an FMU for an address, and tells its path. -/
abbrev ProxyTool := (fmu host : String) → (portNumber : Nat) → Action String

/-- Renders the graph in a file to another file. -/
abbrev GraphRenderer := (source output : String) → Action PUnit

/-- The path of the proxy of an FMU. -/
def proxyPath (fmu : String) : String :=
  let stem := (Path.stem? fmu).getD ""
  Path.join (Path.folder fmu) s!"{stem}-proxy.fmu"

/-- The proxy of an FMU, or the FMU itself where the tool fails or makes no FMU. -/
def Fmu.proxify (f : Fmu) (host : String) (portNumber : Nat) (tool : ProxyTool) : Action Fmu :=
  tryCatch (do Fmu.load (← tool f.file host portNumber)) fun _ => pure f

end Cosim
