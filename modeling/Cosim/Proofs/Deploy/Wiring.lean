import Cosim.Deploy.OspStructure
import Cosim.Deploy.SspDescription
import Cosim.Proofs.System.Builder

/-!
# The wiring of deployed systems

What the connections of the OSP structure refer to, and how they compare with the connections of
the SSP description.  A terminal of a variable connection is a variable of its own simulator unless
the connection borrows a connector of another component.  The SSP description lists all connections
and the OSP structure the valid ones.
-/

namespace Cosim

/-- A list that is left out if it is empty is read as it is. -/
theorem getD_unlessEmpty {α : Type} (items : List α) :
  (unlessEmpty items).getD [] = items
  := by
  cases items <;> rfl

/-! ## Valid connections -/

/-- Checking the directions leaves the kind. -/
theorem Connection.checkDirections_eq_ok {kind kind' : ConnectionKind}
    {source target : Option Direction} (h : checkDirections kind source target = .ok kind') :
  kind' = kind
  := by
  unfold checkDirections at h
  split at h
  · split at h
    · cases h
      rfl
    · cases h
  · cases h
    rfl

/-- The kind of a valid connection is what both of its ends are. -/
theorem Connection.shapes_of_validate {c : Connection} {kind : ConnectionKind}
    (h : c.validate = .ok kind) :
  (kind = .variable ∧ ∃ x y, c.source.shape = .single x ∧ c.target.shape = .single y) ∨
    (kind = .group ∧ ∃ x y, c.source.shape = .group x ∧ c.target.shape = .group y)
  := by
  rw [validate] at h
  split at h
  · cases h
  · split at h
    · rename_i x y hx hy
      left
      exact ⟨checkDirections_eq_ok h, x, y, hx, hy⟩
    · rename_i x y hx hy
      right
      exact ⟨checkDirections_eq_ok h, x, y, hx, hy⟩
    · cases h
    · cases h
    · cases h

/-- The valid connections are those of the system that are validated as their kind. -/
theorem System.mem_validConnections {s : System} {c : Connection} {kind : ConnectionKind} :
  (c, kind) ∈ s.validConnections ↔ c ∈ s.connections.values ∧ c.validate = .ok kind
  := by
  rw [validConnections, List.mem_filterMap]
  constructor
  · rintro ⟨c', hmem, hc'⟩
    split at hc'
    · rename_i hvalid
      simp only [Option.some.injEq, Prod.mk.injEq] at hc'
      obtain ⟨rfl, rfl⟩ := hc'
      exact ⟨hmem, hvalid⟩
    · cases hc'
  · rintro ⟨hmem, hvalid⟩
    refine ⟨c, hmem, ?_⟩
    rw [hvalid]

/-- The OSP structure has the links of the valid connections. -/
theorem System.connections_ospStructure (s : System) (simulation : Option Simulation) :
  (s.ospStructure simulation).connections.getD [] =
    s.validConnections.map fun (c, kind) => c.link kind
  := getD_unlessEmpty _

/-! ## What variable connections refer to -/

/-- A variable of a component: a declared one, or one that is only overridden. -/
def Component.HasVariable (c : Component) (name : String) : Prop :=
  c.scalarVariables.has name = true ∨ c.initial.has name = true

/-- A component has a connector under a key that is bound to a variable which it declares. -/
def Component.ExposesVariable (c : Component) (key name : String) : Prop :=
  (c.connectors.get? key).bind Connector.boundVariable? = some name ∧
    c.scalarVariables.has name = true

/-- A component has no connector under the key, and the first one that has exposes the variable. -/
def Component.BorrowsVariable (components : Entries Component) (c : Component)
    (key name : String) : Prop :=
  c.connectors.has key = false ∧ ∃ owner,
    components.values.find? (·.connectors.has key) = some owner ∧ owner.ExposesVariable key name

/-- The terminal that the record of an endpoint makes.  It belongs to the component that the record
names, and it has the name of the variable that the record names or that is exposed by the connector
which the record names, be the connector one of the component or a borrowed one. -/
inductive Osp.Terminal.ResolvedBy (components : Entries Component) (entry : EndpointEntry) :
    Osp.Terminal → Prop where
  | ofVariable {c : Component} {name : String} (hnames : entry.Names components c)
    (hconnector : entry.connector = none) (hvariable : entry.variableName = some name)
    (hhas : c.HasVariable name) :
    ResolvedBy components entry ⟨c.name, name⟩
  | ofConnector {c : Component} {key name : String} (hnames : entry.Names components c)
    (hconnector : entry.connector = some key) (hvariable : entry.variableName = none)
    (hexposes : c.ExposesVariable key name) :
    ResolvedBy components entry ⟨c.name, name⟩
  | ofBorrowed {c : Component} {key name : String} (hnames : entry.Names components c)
    (hconnector : entry.connector = some key) (hvariable : entry.variableName = none)
    (hborrows : c.BorrowsVariable components key name) :
    ResolvedBy components entry ⟨c.name, name⟩

/-- A terminal is a variable of its own simulator. -/
def Osp.Terminal.IsOwn (components : Entries Component) (p : Osp.Terminal) : Prop :=
  ∃ c, components.get? p.owner = some c ∧ c.HasVariable p.name

/-- The record of an endpoint lets its component borrow a connector for a variable that the
component does not have. -/
def EndpointEntry.Strays (components : Entries Component) (entry : EndpointEntry) : Prop :=
  ∃ c key name, entry.Names components c ∧ entry.connector = some key ∧
    c.BorrowsVariable components key name ∧ ¬ c.HasVariable name

/-- A record names one component at most. -/
theorem EndpointEntry.Names.unique {components : Entries Component} {entry : EndpointEntry}
    {c c' : Component} (h : entry.Names components c) (h' : entry.Names components c') :
  c = c'
  := by
  rw [← System.findComponent?_eq_some_iff] at h h'
  exact Option.some.inj (h.symm.trans h')

/-- One variable at most is borrowed for a key. -/
theorem Component.BorrowsVariable.unique {components : Entries Component} {c : Component}
    {key name name' : String} (h : c.BorrowsVariable components key name)
    (h' : c.BorrowsVariable components key name') :
  name = name'
  := by
  obtain ⟨-, owner, hfind, hname, -⟩ := h
  obtain ⟨-, owner', hfind', hname', -⟩ := h'
  obtain rfl := Option.some.inj (hfind.symm.trans hfind')
  exact Option.some.inj (hname.symm.trans hname')

/-- A component that has a connector does not borrow it. -/
theorem Component.ExposesVariable.not_borrows {components : Entries Component} {c : Component}
    {key name other : String} (h : c.ExposesVariable key name) :
  ¬ c.BorrowsVariable components key other
  := by
  rintro ⟨hnone, -⟩
  obtain ⟨k, hk, -⟩ := Option.bind_eq_some_iff.mp h.1
  rw [Entries.has, hk] at hnone
  cases hnone

/-- A terminal that a record makes is a variable of its own simulator unless the record strays. -/
theorem Osp.Terminal.ResolvedBy.isOwn_iff {P : Component → Prop} {components : Entries Component}
    {entry : EndpointEntry} {p : Osp.Terminal} (hlisted : Component.Listed P components)
    (h : p.ResolvedBy components entry) :
  p.IsOwn components ↔ ¬ entry.Strays components
  := by
  -- the name of a terminal's owner leads back to the component that the record names
  have hown {c : Component} {name : String} (hnames : entry.Names components c) :
      Osp.Terminal.IsOwn components ⟨c.name, name⟩ ↔ c.HasVariable name := by
    have hget := (hlisted.of_names hnames).1
    constructor
    · rintro ⟨c', hget', hhas⟩
      obtain rfl := Option.some.inj (hget.symm.trans hget')
      exact hhas
    · exact fun hhas => ⟨c, hget, hhas⟩
  cases h with
  | ofVariable hnames hconnector _ hhas =>
    rw [hown hnames, iff_true_left hhas]
    rintro ⟨_, _, _, -, hkey, -⟩
    rw [hconnector] at hkey
    cases hkey
  | ofConnector hnames hconnector _ hexposes =>
    rw [hown hnames, iff_true_left (.inl hexposes.2)]
    rintro ⟨c', key', _, hnames', hkey, hborrows, -⟩
    obtain rfl := hnames.unique hnames'
    obtain rfl := Option.some.inj (hconnector.symm.trans hkey)
    exact hexposes.not_borrows hborrows
  | @ofBorrowed c key name hnames hconnector _ hborrows =>
    rw [hown hnames, iff_not_comm]
    constructor
    · rintro ⟨c', key', name', hnames', hkey, hborrows', hlacks⟩
      obtain rfl := hnames.unique hnames'
      obtain rfl := Option.some.inj (hconnector.symm.trans hkey)
      obtain rfl := hborrows.unique hborrows'
      exact hlacks
    · exact fun hlacks => ⟨c, key, name, hnames, hconnector, hborrows, hlacks⟩

/-- A connector that is found is one of the component, or else of the first one that has it. -/
theorem System.findConnector?_eq_some {components : Entries Component} {c : Component}
    {key : String} {k : Connector} (h : findConnector? components c key = some k) :
  c.connectors.get? key = some k ∨
    c.connectors.has key = false ∧ ∃ owner,
      components.values.find? (·.connectors.has key) = some owner ∧
      owner.connectors.get? key = some k
  := by
  rw [findConnector?, Option.or_eq_some_iff] at h
  apply h.imp_right
  rintro ⟨hnone, hfound⟩
  refine ⟨by rw [Entries.has, hnone, Option.isSome_none], ?_⟩
  clear hnone h
  generalize components.values = owners at hfound ⊢
  induction owners with
  | nil => cases hfound
  | cons owner owners ih =>
    rw [List.findSome?_cons] at hfound
    cases hget : owner.connectors.get? key with
    | some k' =>
      rw [hget] at hfound
      refine ⟨owner, ?_, by rw [hget, ← hfound]⟩
      rw [List.find?_cons_of_pos (by simp [Entries.has, hget])]
    | none =>
      rw [hget] at hfound
      obtain ⟨owner', hfind, hget'⟩ := ih hfound
      refine ⟨owner', ?_, hget'⟩
      rw [List.find?_cons_of_neg (by simp [Entries.has, hget]), hfind]

/-- What a single connector exposes has its name. -/
theorem Connector.boundVariable?_of_shape {component : String} {k : Connector}
    {direction : Option Direction}
    (h : (Endpoint.mk component (.connector k)).shape = .single direction) :
  k.boundVariable? = some k.targetName
  := by
  rw [boundVariable?, targetName]
  rcases hbinding : k.binding with _ | (name | name)
  · simp [Endpoint.shape, hbinding] at h
  · rfl
  · simp [Endpoint.shape, hbinding] at h

/-- An endpoint that stands for one variable makes the terminal that its record says. -/
theorem Endpoint.resolvedBy {components : Entries Component} {entry : EndpointEntry} {e : Endpoint}
    {direction : Option Direction} (hlisted : Component.Listed Component.Sound components)
    (hfound : e.FoundIn components entry) (hshape : e.shape = .single direction) :
  e.terminal.ResolvedBy components entry
  := by
  cases hfound with
  | @ofVariable c name v hnames hconnector hvariable hlookup =>
    obtain ⟨rfl, hhas⟩ := Component.lookup?_eq_some (hlisted.of_names hnames).2 hlookup
    exact .ofVariable hnames hconnector hvariable hhas
  | @ofConnector c key k hnames hconnector hvariable hfound =>
    have hbound := Connector.boundVariable?_of_shape hshape
    have hexposes {owner : Component} (howner : owner.Sound)
        (hget : owner.connectors.get? key = some k) : owner.ExposesVariable key k.targetName :=
      ⟨by rw [hget, Option.bind_some, hbound],
        howner.grounded _ (Entries.mem_of_get? hget) _ hbound⟩
    obtain hown | ⟨hnone, owner, hfind, howner⟩ := System.findConnector?_eq_some hfound
    · exact .ofConnector hnames hconnector hvariable (hexposes (hlisted.of_names hnames).2 hown)
    · obtain ⟨_, hmem⟩ := Entries.mem_values_iff.mp (List.mem_of_find?_eq_some hfind)
      exact .ofBorrowed hnames hconnector hvariable
        ⟨hnone, owner, hfind, hexposes (hlisted.holds _ hmem) howner⟩

/-- Every variable connection that is deployed joins the terminals that the two ends of a record
make.  It runs between variables of its own simulators exactly if neither end of the record
strays. -/
theorem System.resolved_ofVariables {folder : String} {tool : ProxyTool} {structureValue : Value}
    {d d' : Disk} {s : System} {simulation : Option Simulation} {terminals : List Osp.Terminal}
    (hbuild : build folder tool structureValue d = .ok s d')
    (hlink : .ofVariables terminals ∈ (s.ospStructure simulation).connections.getD []) :
  ∃ name v entry source target,
    (name, v) ∈ block structureValue "connections" ∧ ConnectionEntry.ofValue? v = some entry ∧
    terminals = [source, target] ∧
    source.ResolvedBy s.components entry.source ∧ target.ResolvedBy s.components entry.target ∧
    ((∀ p ∈ terminals, p.IsOwn s.components) ↔
      ¬ entry.source.Strays s.components ∧ ¬ entry.target.Strays s.components)
  := by
  have hsound := sound_build hbuild
  rw [connections_ospStructure, List.mem_map] at hlink
  obtain ⟨⟨c, kind⟩, hmem, hlink⟩ := hlink
  obtain ⟨hc, hvalid⟩ := mem_validConnections.mp hmem
  obtain ⟨name, hentry⟩ := Entries.mem_values_iff.mp hc
  obtain ⟨v, hv, entry, hrecord, hsource, htarget⟩ := hsound.connections _ hentry
  obtain ⟨rfl, x, y, hx, hy⟩ | ⟨rfl, -⟩ := Connection.shapes_of_validate hvalid
  · cases hlink
    have hfrom := Endpoint.resolvedBy hsound.components hsource hx
    have hto := Endpoint.resolvedBy hsound.components htarget hy
    refine ⟨name, v, entry, _, _, hv, hrecord, rfl, hfrom, hto, ?_⟩
    rw [← hfrom.isOwn_iff hsound.components, ← hto.isOwn_iff hsound.components]
    simp only [List.mem_cons, List.not_mem_nil, or_false, forall_eq_or_imp, forall_eq]
  · cases hlink

/-- A component without variables that borrows the connector of the other component. -/
def System.borrowing : Value :=
  let endpoint (component : String) : Value :=
    .object [("component", .text component), ("connector", .text "port")]
  let connectors : Value := .object [("port", .object [("variable", .text "speed")])]
  .object [
    ("components", .object [
      ("hull", .object [("fmu", .text "blank.fmu")]),
      ("engine", .object [("fmu", .text "speed.fmu"), ("connectors", connectors)])]),
    ("connections", .object [
      ("shaft", .object [("source", endpoint "hull"), ("target", endpoint "engine")])])]

/-- The system of `borrowing`. -/
def System.borrowed : System :=
  let port : Connector := ⟨"port", some (.variable "speed"), none⟩
  { components := [
      ("hull", System.componentOf "hull" Fmu.blank ⟨"blank.fmu", none, false, none, [], []⟩),
      ("engine", System.componentOf "engine" Fmu.speed
        ⟨"speed.fmu", none, false, none, [], [("port", port)]⟩)]
    connections := [
      ("shaft", ⟨"shaft", ⟨"hull", .connector port⟩, ⟨"engine", .connector port⟩⟩)] }

/-- A connector is borrowed without a failure. -/
theorem System.build_borrowing (tool : ProxyTool) :
  build "/" tool borrowing Fmu.sampleDisk = .ok borrowed Fmu.sampleDisk
  := by
  have hhull : ComponentEntry.ofValue? (.object [("fmu", .text "blank.fmu")]) =
      some ⟨"blank.fmu", none, false, none, [], []⟩ := rfl
  have hengine : ComponentEntry.ofValue? (.object [("fmu", .text "speed.fmu"),
        ("connectors", .object [("port", .object [("variable", .text "speed")])])]) =
      some ⟨"speed.fmu", none, false, none, [],
        [("port", ⟨"port", some (.variable "speed"), none⟩)]⟩ := rfl
  have hblank : Fmu.load (fmuPath Fmu.sampleDisk "/" "blank.fmu") Fmu.sampleDisk =
      .ok Fmu.blank Fmu.sampleDisk := Fmu.load_blank
  have hspeed : Fmu.load (fmuPath Fmu.sampleDisk "/" "speed.fmu") Fmu.sampleDisk =
      .ok Fmu.speed Fmu.sampleDisk := Fmu.load_speed
  apply build_eq_ok.mpr
  constructor
  · rw [show block borrowing "components" = [_, _] from rfl,
      addComponents_cons_of_load _ hhull rfl hblank,
      addComponents_cons_of_load _ hengine rfl hspeed]
    rfl
  · cbv

/-- What is borrowed is deployed under the name of the component that borrows. -/
theorem System.link_borrowed :
  .ofVariables [⟨"hull", "speed"⟩, ⟨"engine", "speed"⟩] ∈
    (borrowed.ospStructure none).connections.getD []
  := by
  rw [connections_ospStructure]
  apply List.mem_singleton.mpr rfl

/-- The component that borrows has no variables. -/
theorem System.not_isOwn_borrowed :
  ¬ Osp.Terminal.IsOwn borrowed.components ⟨"hull", "speed"⟩
  := by
  rintro ⟨c, hget, hhas⟩
  cases hget
  obtain h | h := hhas
  · cases h
  · cases h

/-- The connection that is deployed for a borrowed connector strays. -/
theorem System.resolved_borrowed :
  build "/" (fun fmu _ _ => pure fmu) borrowing Fmu.sampleDisk = .ok borrowed Fmu.sampleDisk ∧
    ∃ name v entry, ∃ source target : Osp.Terminal,
      (name, v) ∈ block borrowing "connections" ∧ ConnectionEntry.ofValue? v = some entry ∧
      [⟨"hull", "speed"⟩, ⟨"engine", "speed"⟩] = [source, target] ∧
      source.ResolvedBy borrowed.components entry.source ∧
      target.ResolvedBy borrowed.components entry.target ∧
      (entry.source.Strays borrowed.components ∨ entry.target.Strays borrowed.components)
  := by
  have hbuild := build_borrowing fun fmu _ _ => pure fmu
  obtain ⟨name, v, entry, source, target, hv, hrecord, hends, hfrom, hto, hiff⟩ :=
    resolved_ofVariables hbuild link_borrowed
  refine ⟨hbuild, name, v, entry, source, target, hv, hrecord, hends, hfrom, hto, ?_⟩
  by_contra hnone
  exact not_isOwn_borrowed (hiff.mpr (not_or.mp hnone) _ List.mem_cons_self)

/-- A borrowed connector may name a variable that the simulator does not have. -/
theorem System.dangling_borrowed :
  build "/" (fun fmu _ _ => pure fmu) borrowing Fmu.sampleDisk = .ok borrowed Fmu.sampleDisk ∧
    .ofVariables [⟨"hull", "speed"⟩, ⟨"engine", "speed"⟩] ∈
      (borrowed.ospStructure none).connections.getD [] ∧
    ¬ Osp.Terminal.IsOwn borrowed.components ⟨"hull", "speed"⟩
  := ⟨build_borrowing _, link_borrowed, not_isOwn_borrowed⟩

/-! ## Two artefacts for one system -/

/-- The connections of an OSP structure in the form of an SSP description. -/
def Osp.Structure.wires (s : Osp.Structure) : List Ssp.Connection :=
  (s.connections.getD []).filterMap fun
    | .ofVariables [source, target] => some ⟨source.owner, source.name, target.owner, target.name⟩
    | .ofGroups [source, target] => some ⟨source.owner, source.name, target.owner, target.name⟩
    | _ => none

/-- The connections of an SSP description. -/
def Ssp.Description.wires (d : Ssp.Description) : List Ssp.Connection :=
  d.system.connections.getD []

/-- Whether a connection is valid. -/
def Connection.isValid (c : Connection) : Bool := c.validate.isOk

/-- The SSP description has the wires of all connections. -/
theorem System.wires_sspDescription (s : System) (name : String)
    (simulation : Option Simulation) :
  (s.sspDescription name simulation).wires = s.connections.values.map Connection.toSsp
  := getD_unlessEmpty _

/-- The OSP structure has the wires of the valid connections. -/
theorem System.wires_ospStructure (s : System) (simulation : Option Simulation) :
  (s.ospStructure simulation).wires =
    (s.connections.values.filter Connection.isValid).map Connection.toSsp
  := by
  rw [Osp.Structure.wires, connections_ospStructure, validConnections, List.filterMap_map]
  induction s.connections.values with
  | nil => rfl
  | cons c cs ih =>
    cases hvalid : c.validate with
    | ok kind =>
      rw [List.filterMap_cons_some (b := (c, kind)) (by rw [hvalid]), List.filterMap_cons_some,
        List.filter_cons_of_pos, List.map_cons, ih]
      · rw [Connection.isValid, hvalid]
        rfl
      · cases kind <;> rfl
    | error e =>
      rw [List.filterMap_cons_none (by rw [hvalid]), List.filter_cons_of_neg, ih]
      rw [Connection.isValid, hvalid]
      simp [Except.isOk, Except.toBool]

/-- The SSP description lists every connection and the OSP structure just the valid ones, in the
same order, so the two agree exactly if all connections are valid. -/
theorem System.wires_eq_iff (s : System) (name : String) (simulation : Option Simulation) :
  (s.sspDescription name simulation).wires = s.connections.values.map Connection.toSsp ∧
    (s.ospStructure simulation).wires =
      (s.connections.values.filter Connection.isValid).map Connection.toSsp ∧
    ((s.ospStructure simulation).wires = (s.sspDescription name simulation).wires ↔
      ∀ c ∈ s.connections.values, ∃ kind, c.validate = .ok kind)
  := by
  refine ⟨wires_sspDescription s name simulation, wires_ospStructure s simulation, ?_⟩
  rw [wires_ospStructure, wires_sspDescription]
  constructor
  · intro h c hc
    have hlength := congrArg List.length h
    rw [List.length_map, List.length_map, List.length_filter_eq_length_iff] at hlength
    have hvalid := hlength c hc
    rw [Connection.isValid] at hvalid
    cases hkind : c.validate with
    | ok kind => exact ⟨kind, rfl⟩
    | error e =>
      rw [hkind] at hvalid
      cases hvalid
  · intro h
    rw [List.filter_eq_self.mpr]
    intro c hc
    obtain ⟨kind, hkind⟩ := h c hc
    rw [Connection.isValid, hkind]
    rfl

/-- A connection from an output to itself. -/
def System.looping : Value :=
  let endpoint : Value := .object [("component", .text "engine"), ("variable", .text "speed")]
  .object [
    ("components", .object [("engine", .object [("fmu", .text "speed.fmu")])]),
    ("connections", .object [("loop", .object [("source", endpoint), ("target", endpoint)])])]

/-- The system of `looping`. -/
def System.looped : System :=
  let output : Variable := { Variable.named "speed" with causality := some .output }
  { components := [
      ("engine", System.componentOf "engine" Fmu.speed ⟨"speed.fmu", none, false, none, [], []⟩)]
    connections := [
      ("loop", ⟨"loop", ⟨"engine", .variable output⟩, ⟨"engine", .variable output⟩⟩)] }

/-- A connection from an output to itself is built. -/
theorem System.build_looping (tool : ProxyTool) :
  build "/" tool looping Fmu.sampleDisk = .ok looped Fmu.sampleDisk
  := by
  have hengine : ComponentEntry.ofValue? (.object [("fmu", .text "speed.fmu")]) =
      some ⟨"speed.fmu", none, false, none, [], []⟩ := rfl
  have hspeed : Fmu.load (fmuPath Fmu.sampleDisk "/" "speed.fmu") Fmu.sampleDisk =
      .ok Fmu.speed Fmu.sampleDisk := Fmu.load_speed
  apply build_eq_ok.mpr
  constructor
  · rw [show block looping "components" = [_] from rfl,
      addComponents_cons_of_load _ hengine rfl hspeed]
    rfl
  · cbv

/-- A connection that is not valid is deployed in the SSP description alone. -/
theorem System.wires_looped :
  build "/" (fun fmu _ _ => pure fmu) looping Fmu.sampleDisk = .ok looped Fmu.sampleDisk ∧
    (looped.ospStructure none).wires = [] ∧
    (looped.sspDescription "case" none).wires = [⟨"engine", "speed", "engine", "speed"⟩]
  := by
  refine ⟨build_looping _, ?_, ?_⟩
  · rw [wires_ospStructure]
    rfl
  · rw [wires_sspDescription]
    rfl

end Cosim
