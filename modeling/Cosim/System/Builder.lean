import Cosim.System.Entry
import Cosim.System.System
import Cosim.Tool.Tool

/-!
# Building systems

A system is built from the section `systemStructure` of a case dictionary and the FMUs in a folder.
Components and connections whose records are malformed are left out, and so are connections with an
end that does not exist.  An FMU that is missing or unreadable is a failure.
-/

namespace Cosim

namespace System

/-- The entries of a block of the structure. -/
def block (structureValue : Value) (key : String) : Dictionary :=
  ((structureValue.get? key).bind Value.entries?).getD []

/-! ## Components -/

/-- The file of an FMU: the one in the folder with its file name, where there is one, and else the
declared path. -/
def fmuPath (d : Disk) (folder fmu : String) : String :=
  let declared := Path.join folder fmu
  match Path.fileName? declared with
  | some name =>
    let direct := Path.join folder name
    if d.isFile direct then direct else declared
  | none => declared

/-- The FMU of a component and the component's name, which tells whether the FMU is a proxy. -/
def proxied (name : String) (fmu : Fmu) (entry : ComponentEntry) (tool : ProxyTool) :
    Action (String × Fmu) := do
  match entry.generateProxy, entry.address? with
  | true, some address =>
    let proxy ← fmu.proxify address.host address.portNumber tool
    if Path.parts proxy.file == Path.parts fmu.file then pure (name, proxy)
    else pure (name ++ "-proxy", proxy)
  | _, _ => pure (name, fmu)

/-- The component that an entry makes of an FMU. -/
def componentOf (name : String) (fmu : Fmu) (entry : ComponentEntry) : Component :=
  { Component.ofFmu name fmu entry.initial entry.connectors with
    stepSize := entry.stepSize.bind Value.asReal
    remote := entry.address? }

/-- The component that an entry describes. -/
def component (folder : String) (tool : ProxyTool) (name : String) (entry : ComponentEntry) :
    Action Component := do
  let path := fmuPath (← get) folder entry.fmu
  if !(← get).isFile path then throw (.notFound path)
  let opened ← Fmu.load path
  let (finalName, fmu) ← proxied name opened entry tool
  pure (componentOf finalName fmu entry)

/-- Adds the components of a block one after another. -/
def addComponents (folder : String) (tool : ProxyTool) (components : Entries Component) :
    Dictionary → Action (Entries Component)
  | [] => pure components
  | (name, v) :: more =>
    match ComponentEntry.ofValue? v with
    | none => addComponents folder tool components more
    | some entry => do
      let c ← component folder tool name entry
      addComponents folder tool (components.put c.name c) more

/-! ## Connections -/

/-- The component with a name, or else the one whose proxy was generated under that name. -/
def findComponent? (components : Entries Component) (name : String) : Option Component :=
  (components.get? name).or (components.get? (name ++ "-proxy"))

/-- A connector of a component, or else the first one with its name of any component. -/
def findConnector? (components : Entries Component) (c : Component) (name : String) :
    Option Connector :=
  (c.connectors.get? name).or (components.values.findSome? (·.connectors.get? name))

/-- The endpoint that an entry describes.  It names either a connector or a variable. -/
def endpoint? (components : Entries Component) (entry : EndpointEntry) : Option Endpoint := do
  let c ← findComponent? components entry.component
  match entry.connector, entry.variableName with
  | some name, none => pure ⟨c.name, .connector (← findConnector? components c name)⟩
  | none, some name => pure ⟨c.name, .variable (← c.lookup? name)⟩
  | _, _ => none

/-- The connection that an entry describes. -/
def connection? (components : Entries Component) (name : String) (v : Value) :
    Option Connection := do
  let entry ← ConnectionEntry.ofValue? v
  pure ⟨name, ← endpoint? components entry.source, ← endpoint? components entry.target⟩

/-- Builds the system of a structure from the FMUs in a folder. -/
def build (folder : String) (tool : ProxyTool) (structureValue : Value) : Action System := do
  let components ← addComponents folder tool [] (block structureValue "components")
  let connections := (block structureValue "connections").filterMap fun (name, v) =>
    (connection? components name v).map (name, ·)
  pure ⟨components, Entries.ofPairs connections⟩

end System

end Cosim
