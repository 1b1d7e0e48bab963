import Cosim.Deploy.CallGraph
import Cosim.Proofs.Deploy.Wiring
import Cosim.Proofs.Graph.Reading
import Cosim.Proofs.System.Built

/-!
# What call graphs say

The text of a call graph is read as a node for each component and an edge for each connection of
the OSP structure, in their orders and under their names, whatever characters the names have.
-/

namespace Cosim

open Dot (Attributes Reads Statement Token Writes reads_of_read)

namespace CallGraph

/-! ## Quoted texts -/

/-- An escaped text is read back between its quotes. -/
theorem read_escaped (before : List Token) (cs acc : List Char) :
  (cs.flatMap escapeChar).foldl Dot.Scan.step ⟨before, .quoted acc⟩ =
    ⟨before, .quoted (cs.reverse ++ acc)⟩
  := by
  induction cs generalizing acc with
  | nil => rfl
  | cons c cs ih =>
    have hchar : (escapeChar c).foldl Dot.Scan.step ⟨before, .quoted acc⟩ =
        ⟨before, .quoted (c :: acc)⟩ := by
      rw [escapeChar]
      split
      · rfl
      · rename_i hplain
        simp only [Bool.or_eq_true, not_or] at hplain
        simp only [List.foldl_cons, List.foldl_nil, Dot.Scan.step, if_neg hplain.1, if_neg hplain.2]
    rw [List.flatMap_cons, List.foldl_append, hchar, ih, List.reverse_cons, List.append_assoc,
      List.singleton_append]

/-- A quoted text is one token, whatever it holds. -/
theorem reads_quote (s : String) :
  Reads (quote s) [.quoted s]
  := by
  have hquote : (quote s).toList = '"' :: (s.toList.flatMap escapeChar ++ ['"']) := by
    simp [quote]
  intro before
  have hopen : Dot.Scan.step ⟨before, .outside⟩ '"' = ⟨before, .quoted []⟩ := rfl
  have hclose (acc : List Char) : Dot.Scan.step ⟨before, .quoted acc⟩ '"' =
      ⟨.quoted (String.ofList acc.reverse) :: before, .outside⟩ := rfl
  rw [Dot.Scan.read, hquote, List.foldl_cons, hopen, List.foldl_append, read_escaped,
    List.foldl_cons, List.foldl_nil, hclose, List.append_nil, List.reverse_reverse,
    String.ofList_toList]
  rfl

/-! ## Styles -/

/-- The attributes that draw the node of a component, as they are read. -/
def styleAttributes (name : String) : Attributes :=
  if isInput name then
    [("shape", "parallelogram"), ("style", "filled"), ("fillcolor", "#c6e2ff")]
  else if isOperator name then
    [("shape", "circle"), ("style", "filled"), ("fillcolor", "#ffe4b5")]
  else [("shape", "box"), ("style", "rounded,filled"), ("fillcolor", "#f0f0f0")]

def styleTokens (name : String) : List Token :=
  let tokens (shape : String) (style : Token) (color : String) : List Token :=
    [.word "shape", .mark '=', .word shape, .mark ',', .word "style", .mark '=', style, .mark ',',
      .word "fillcolor", .mark '=', .quoted color]
  if isInput name then tokens "parallelogram" (.word "filled") "#c6e2ff"
  else if isOperator name then tokens "circle" (.word "filled") "#ffe4b5"
  else tokens "box" (.quoted "rounded,filled") "#f0f0f0"

/-- The style of a node is read as its tokens. -/
theorem reads_style (name : String) :
  Reads (style name) (styleTokens name)
  := by
  rw [style, styleTokens]
  split_ifs
  · exact reads_of_read (by decide +kernel)
  · exact reads_of_read (by decide +kernel)
  · exact reads_of_read (by decide +kernel)

/-! ## Nodes -/

/-- What stands in the node of a component. -/
def nodeLabel (c : Component) : String :=
  let stepSize := (c.stepSize.map Double.plain).getD "-"
  s!"{c.name}\n{c.fmu.fileName}\nstepSize {stepSize}"

def nodeStatement (c : Component) : Statement :=
  .node c.name (("label", nodeLabel c) :: styleAttributes c.name)

def nodeTokens (c : Component) : List Token :=
  [.quoted c.name, .mark '[', .word "label", .mark '=', .quoted (nodeLabel c), .mark ','] ++
    styleTokens c.name ++ [.mark ']']

theorem reads_indent :
  Reads "    " []
  := reads_of_read (by decide +kernel)

theorem reads_label :
  Reads " [label=" [.mark '[', .word "label", .mark '=']
  := reads_of_read (by decide +kernel)

theorem reads_end :
  Reads "];\n" [.mark ']', .mark ';']
  := reads_of_read (by decide +kernel)

/-- A node is written as a statement. -/
theorem writes_node (c : Component) :
  Writes (node c) [nodeStatement c]
  := by
  have hcomma : Reads ", " [.mark ','] := reads_of_read (by decide +kernel)
  apply Writes.single (nodeTokens c)
  · have htext : node c = "    " ++ quote c.name ++ " [label=" ++ quote (nodeLabel c) ++ ", " ++
        style c.name ++ "];\n" := rfl
    have hreads := (((((reads_indent.append (reads_quote c.name)).append reads_label).append
      (reads_quote (nodeLabel c))).append hcomma).append (reads_style c.name)).append reads_end
    rw [htext]
    simpa [nodeTokens] using hreads
  · rw [nodeTokens, styleTokens]
    split_ifs <;> simp
  · rw [nodeStatement, nodeTokens, styleTokens, styleAttributes]
    split_ifs <;> rfl

/-! ## Edges -/

/-- The edge from one terminal to another. -/
def edgeStatement (source target : Osp.Terminal) : Statement :=
  .edge source.owner target.owner [("label", source.name ++ "-->\n" ++ target.name)]

/-- An edge is written as a statement. -/
theorem writes_edge (c : Connection) :
  Writes (edge c) [edgeStatement c.source.terminal c.target.terminal]
  := by
  have harrow : Reads " -> " [.arrow] := reads_of_read (by decide +kernel)
  let label := c.source.targetName ++ "-->\n" ++ c.target.targetName
  apply Writes.single [.quoted c.source.component, .arrow, .quoted c.target.component,
    .mark '[', .word "label", .mark '=', .quoted label, .mark ']']
  · have htext : edge c = "    " ++ quote c.source.component ++ " -> " ++
        quote c.target.component ++ " [label=" ++ quote label ++ "];\n" := rfl
    have hreads := (((((reads_indent.append (reads_quote c.source.component)).append
      harrow).append (reads_quote c.target.component)).append reads_label).append
      (reads_quote label)).append reads_end
    rw [htext]
    simpa using hreads
  · simp
  · rfl

/-- The edges of a system. -/
def edgeStatements (s : System) : List Statement :=
  s.validConnections.map fun e => edgeStatement e.1.source.terminal e.1.target.terminal

/-! ## Graphs -/

/-- What is set before all nodes. -/
def headerStatements : List Statement :=
  [.setting "rankdir" "LR",
    .defaults "node" [("fontname", "Helvetica"), ("fontsize", "10")],
    .defaults "edge" [("fontname", "Helvetica"), ("fontsize", "8")]]

def headerText : String :=
  "    rankdir=LR;\n" ++ "    node [fontname=\"Helvetica\", fontsize=10];\n" ++
    "    edge [fontname=\"Helvetica\", fontsize=8];\n"

/-- The header is written as its statements. -/
theorem writes_header :
  Writes headerText headerStatements
  := by
  have hsetting : Writes "    rankdir=LR;\n" [.setting "rankdir" "LR"] :=
    Writes.single [.word "rankdir", .mark '=', .word "LR"]
      (reads_of_read (by decide +kernel)) (by decide) rfl
  have hnode : Writes "    node [fontname=\"Helvetica\", fontsize=10];\n"
      [.defaults "node" [("fontname", "Helvetica"), ("fontsize", "10")]] :=
    Writes.single [.word "node", .mark '[', .word "fontname", .mark '=',
      .quoted "Helvetica", .mark ',', .word "fontsize", .mark '=', .word "10", .mark ']']
      (reads_of_read (by decide +kernel)) (by decide) rfl
  have hedge : Writes "    edge [fontname=\"Helvetica\", fontsize=8];\n"
      [.defaults "edge" [("fontname", "Helvetica"), ("fontsize", "8")]] :=
    Writes.single [.word "edge", .mark '[', .word "fontname", .mark '=',
      .quoted "Helvetica", .mark ',', .word "fontsize", .mark '=', .word "8", .mark ']']
      (reads_of_read (by decide +kernel)) (by decide) rfl
  exact (hsetting.append hnode).append hedge

/-- A graph is read back as the header, a node for each component and the edges. -/
theorem read?_render (s : System) :
  Dot.read? (render s) = some ⟨"callGraph",
    headerStatements ++ s.components.values.map nodeStatement ++ edgeStatements s⟩
  := by
  -- the opening brace is in the header, which also sets what holds for all nodes
  have hheader : header = "digraph callGraph \x7b\n" ++ headerText := by decide +kernel
  have hopening : Reads "digraph callGraph \x7b\n"
      [.word "digraph", .word "callGraph", .mark '{'] := reads_of_read (by decide +kernel)
  have hclosing : Reads "\x7d\n" [.mark '}'] := reads_of_read (by decide +kernel)
  have hnodes := Writes.join writes_node s.components.values
  have hedges : Writes (String.join (s.validConnections.map fun e => edge e.1))
      (edgeStatements s) := by
    apply Writes.join
    intro e
    exact writes_edge e.1
  have hread := Dot.read?_of_writes hopening ((writes_header.append hnodes).append hedges) hclosing
  have htext : render s = "digraph callGraph \x7b\n" ++
      (headerText ++ String.join (s.components.values.map node) ++
        String.join (s.validConnections.map fun e => edge e.1)) ++ "\x7d\n" := by
    rw [render, hheader]
    simp only [String.append_assoc]
  rw [htext, hread]

/-- An edge that says what a connection of an OSP structure says. -/
inductive Draws : Statement → Osp.Link → Prop where
  | ofVariables (source target : Osp.Terminal) :
    Draws (edgeStatement source target) (.ofVariables [source, target])
  | ofGroups (source target : Osp.Terminal) :
    Draws (edgeStatement source target) (.ofGroups [source, target])

/-- The edge of a connection draws its link. -/
theorem draws_link (c : Connection) (kind : ConnectionKind) :
  Draws (edgeStatement c.source.terminal c.target.terminal) (c.link kind)
  := by
  cases kind <;> constructor

/-- The edges draw the connections of the OSP structure one by one. -/
theorem forall₂_draws (s : System) (simulation : Option Simulation) :
  List.Forall₂ Draws (edgeStatements s) ((s.ospStructure simulation).connections.getD [])
  := by
  rw [edgeStatements, System.connections_ospStructure, List.forall₂_map_left_iff,
    List.forall₂_map_right_iff, List.forall₂_same]
  intro e _
  exact draws_link e.1 e.2

/-- The ids of a graph are the names of its nodes alone. -/
theorem ids_append (s : System) (name : String) :
  (Dot.Graph.mk name (headerStatements ++ s.components.values.map nodeStatement ++
    edgeStatements s)).ids = s.components.values.map (·.name)
  := by
  have hnodes : (s.components.values.map nodeStatement).filterMap Statement.id? =
      s.components.values.map (·.name) := by
    rw [List.filterMap_map]
    exact List.filterMap_eq_map_iff_forall_eq_some.mpr fun _ _ => rfl
  have hedges : (edgeStatements s).filterMap Statement.id? = [] := by
    rw [edgeStatements, List.filterMap_map, List.filterMap_eq_nil_iff]
    exact fun _ _ => rfl
  rw [Dot.Graph.ids, List.filterMap_append, List.filterMap_append, hnodes, hedges,
    List.append_nil]
  rfl

variable {folder : String} {tool : ProxyTool} {structureValue : Value} {s : System} {d d' : Disk}

/-- Edges run between components of the system. -/
theorem mem_of_mem_edgeStatements (h : System.build folder tool structureValue d = .ok s d')
    {source target : String} {attributes : Attributes}
    (hedge : .edge source target attributes ∈ edgeStatements s) :
  source ∈ s.components.values.map (·.name) ∧ target ∈ s.components.values.map (·.name)
  := by
  have hsound := System.sound_build h
  obtain ⟨⟨c, kind⟩, hc, hends⟩ := List.mem_map.mp hedge
  cases hends
  obtain ⟨key, hmem⟩ := Entries.mem_values_iff.mp (System.mem_validConnections.mp hc).1
  obtain ⟨v, -, entry, -, hsource, htarget⟩ := hsound.connections _ hmem
  rw [hsound.components.map_name]
  exact ⟨Entries.has_iff.mp (hsource.has hsound.components),
    Entries.has_iff.mp (htarget.has hsound.components)⟩

/-- The call graph of a built system says what its OSP structure says, whatever the names are: it
is read as a node for each simulator and an edge for each connection, which runs between nodes. -/
theorem exists_read?_render (h : System.build folder tool structureValue d = .ok s d')
    (simulation : Option Simulation) :
  ∃ g edges, Dot.read? (render s) = some g ∧ g.name = "callGraph" ∧
    g.statements = headerStatements ++ s.components.values.map nodeStatement ++ edges ∧
    g.ids = (s.ospStructure simulation).simulators.map (·.name) ∧
    List.Forall₂ Draws edges ((s.ospStructure simulation).connections.getD []) ∧
    ∀ source target attributes, .edge source target attributes ∈ edges →
      source ∈ g.ids ∧ target ∈ g.ids
  := by
  have hsimulators : (s.ospStructure simulation).simulators.map (·.name) =
      s.components.values.map (·.name) := by
    rw [System.ospStructure, List.map_map]
    rfl
  refine ⟨_, edgeStatements s, read?_render s, rfl, rfl, ?_, forall₂_draws s simulation, ?_⟩
  · rw [ids_append, hsimulators]
  · intro source target attributes hedge
    rw [ids_append]
    exact mem_of_mem_edgeStatements h hedge

/-- Components and variables whose names look like parts of a graph. -/
def quoting : Value :=
  let endpoint (component name : String) : Value :=
    .object [("component", .text component), ("variable", .text name)]
  .object [
    ("components", .object [
      ("a\"];\\", .object [("fmu", .text "speed.fmu")]),
      ("node -> \n", .object [("fmu", .text "blank.fmu"),
        ("initialize", .object [("in\"", .object [("causality", .text "input")])])])]),
    ("connections", .object [
      ("shaft", .object [("source", endpoint "a\"];\\" "speed"),
        ("target", endpoint "node -> \n" "in\"")])])]

/-- The system of `quoting`. -/
def quoted : System :=
  let override : Value := .object [("causality", .text "input")]
  let output : Variable := { Variable.named "speed" with causality := some .output }
  let input : Variable := { Variable.named "in\"" with causality := some .input }
  { components := [
      ("a\"];\\", System.componentOf "a\"];\\" Fmu.speed
        ⟨"speed.fmu", none, false, none, [], []⟩),
      ("node -> \n", System.componentOf "node -> \n" Fmu.blank
        ⟨"blank.fmu", none, false, none, [("in\"", override)], []⟩)]
    connections := [
      ("shaft", ⟨"shaft", ⟨"a\"];\\", .variable output⟩, ⟨"node -> \n", .variable input⟩⟩)] }

/-- Names that look like parts of a graph can be built. -/
theorem build_quoting (tool : ProxyTool) :
  System.build "/" tool quoting Fmu.sampleDisk = .ok quoted Fmu.sampleDisk
  := by
  have hengine : ComponentEntry.ofValue? (.object [("fmu", .text "speed.fmu")]) =
      some ⟨"speed.fmu", none, false, none, [], []⟩ := rfl
  have hhull : ComponentEntry.ofValue? (.object [("fmu", .text "blank.fmu"),
        ("initialize", .object [("in\"", .object [("causality", .text "input")])])]) =
      some ⟨"blank.fmu", none, false, none,
        [("in\"", .object [("causality", .text "input")])], []⟩ := rfl
  have hblank : Fmu.load (System.fmuPath Fmu.sampleDisk "/" "blank.fmu") Fmu.sampleDisk =
      .ok Fmu.blank Fmu.sampleDisk := Fmu.load_blank
  have hspeed : Fmu.load (System.fmuPath Fmu.sampleDisk "/" "speed.fmu") Fmu.sampleDisk =
      .ok Fmu.speed Fmu.sampleDisk := Fmu.load_speed
  apply System.build_eq_ok.mpr
  constructor
  · rw [show System.block quoting "components" = [_, _] from rfl,
      System.addComponents_cons_of_load _ hengine rfl hspeed,
      System.addComponents_cons_of_load _ hhull rfl hblank]
    rfl
  · cbv

/-- Names that look like parts of a graph are read back as they are. -/
theorem exists_read?_render_quoted :
  System.build "/" (fun fmu _ _ => pure fmu) quoting Fmu.sampleDisk = .ok quoted Fmu.sampleDisk ∧
    ∃ g, Dot.read? (render quoted) = some g ∧ g.ids = ["a\"];\\", "node -> \n"] ∧
      .edge "a\"];\\" "node -> \n" [("label", "speed-->\nin\"")] ∈ g.statements
  := by
  have hbuild := build_quoting fun fmu _ _ => pure fmu
  obtain ⟨g, edges, hread, -, hstatements, hids, hedges, -⟩ := exists_read?_render hbuild none
  refine ⟨hbuild, g, hread, ?_, ?_⟩
  · rw [hids]
    rfl
  · have hlinks : (quoted.ospStructure none).connections.getD [] =
        [.ofVariables [⟨"a\"];\\", "speed"⟩, ⟨"node -> \n", "in\""⟩]] := rfl
    rw [hlinks, List.forall₂_cons_right_iff] at hedges
    obtain ⟨edge, rest, hdraws, -, rfl⟩ := hedges
    cases hdraws
    rw [hstatements]
    exact List.mem_append_right _ List.mem_cons_self

end CallGraph

end Cosim
