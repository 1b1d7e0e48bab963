import Cosim.Proofs.Deploy.Wiring
import Cosim.Proofs.Osp.Import
import Cosim.Proofs.System.Built

/-!
# Compiling, importing and compiling again

The OSP structure of a built system is imported as a case of the same folder.  The system of that
case has the same OSP structure.
-/

namespace Cosim

/-! ## What can be imported -/

/-- An FMU can be opened from the file with its name in a folder. -/
structure Fmu.LiesIn (f : Fmu) (folder : String) (d : Disk) : Prop where
  fileName? : Path.fileName? f.file = some f.fileName
  load : Fmu.load (Path.join folder f.fileName) d =
    .ok ⟨Path.join folder f.fileName, f.description⟩ d

/-- An FMU in a folder has a file name that is a step. -/
theorem Fmu.LiesIn.isStep {f : Fmu} {folder : String} {d : Disk} (h : f.LiesIn folder d) :
  (Path.Part.name f.fileName).IsStep
  := Path.isStep_of_fileName? h.fileName?

/-- A path that is a file name alone leads to the file in the folder. -/
theorem Fmu.LiesIn.fmuPath_eq {f : Fmu} {folder : String} {d : Disk} (h : f.LiesIn folder d) :
  System.fmuPath d folder f.fileName = Path.join folder f.fileName
  := by
  rw [System.fmuPath_of_fileName? (Path.fileName?_of_fileName? h.fileName?), ite_self]

def Connection.terminals (c : Connection) : List Osp.Terminal :=
  [c.source.terminal, c.target.terminal]

/-- A terminal names a variable that its component declares. -/
def System.Declares (s : System) (p : Osp.Terminal) : Prop :=
  ∃ c, s.components.get? p.owner = some c ∧ c.scalarVariables.has p.name = true

/-- What lets the structure of a system be imported in a folder. -/
structure System.Importable (s : System) (folder : String) (d : Disk) : Prop where
  /-- the FMUs lie directly in the folder -/
  lies : ∀ c ∈ s.components.values, c.fmu.LiesIn folder d
  /-- the ends of variable connections are declared -/
  declared : ∀ c, (c, .variable) ∈ s.validConnections → ∀ p ∈ c.terminals, s.Declares p
  /-- no terminal is a source and a target -/
  directed : ∀ c kind c' kind', (c, kind) ∈ s.validConnections → (c', kind') ∈ s.validConnections →
    c.source.terminal ≠ c'.target.terminal
  /-- no terminal stands both for a variable and for a variable group -/
  uniform : ∀ c kind c' kind', (c, kind) ∈ s.validConnections → (c', kind') ∈ s.validConnections →
    ∀ p ∈ c.terminals, p ∈ c'.terminals → kind = kind'

/-- A system is importable whatever its step size is. -/
theorem System.Importable.withStepSize {s : System} {folder : String} {d : Disk}
    (h : s.Importable folder d) (stepSize : Option Double) :
  (s.withStepSize stepSize).Importable folder d
  := by
  constructor
  · intro c hc
    obtain ⟨name, hmem⟩ := Entries.mem_values_iff.mp hc
    obtain ⟨e, he, heq⟩ := List.mem_map.mp hmem
    cases heq
    apply h.lies e.2 (List.mem_map_of_mem he)
  · intro c hc p hp
    obtain ⟨owner, howner, hhas⟩ := h.declared c hc p hp
    refine ⟨{ owner with stepSize := owner.stepSize.or stepSize }, ?_, hhas⟩
    have hmap := Entries.get?_map
      (fun c : Component => { c with stepSize := c.stepSize.or stepSize }) s.components p.owner
    rw [howner] at hmap
    apply hmap
  · apply h.directed
  · apply h.uniform

/-- The valid connections as joints. -/
def System.joints (s : System) : List Osp.Joint :=
  s.validConnections.map fun (c, kind) => ⟨kind, c.source.terminal, c.target.terminal⟩

/-- The connections of the OSP structure are the links of the joints of the system. -/
theorem System.connections_eq_joints (s : System) (simulation : Option Simulation) :
  (s.ospStructure simulation).connections = unlessEmpty (s.joints.map Osp.Joint.link)
  := by
  have hlinks : s.validConnections.map (fun (c, kind) => c.link kind) =
      s.joints.map Osp.Joint.link := by
    rw [joints, List.map_map]
    apply List.map_congr_left
    rintro ⟨c, kind⟩ -
    cases kind <;> rfl
  rw [← hlinks]
  rfl

/-- A joint of a system joins the terminals of a valid connection. -/
theorem System.mem_joints {s : System} {j : Osp.Joint} (h : j ∈ s.joints) :
  ∃ c, (c, j.kind) ∈ s.validConnections ∧ j.source = c.source.terminal ∧
    j.target = c.target.terminal
  := by
  obtain ⟨⟨c, kind⟩, hc, rfl⟩ := List.mem_map.mp h
  exact ⟨c, hc, rfl, rfl⟩

/-- The joints of an importable system do not disagree about any terminal. -/
theorem System.Importable.consistent {s : System} {folder : String} {d : Disk}
    (h : s.Importable folder d) :
  Osp.Joint.Consistent s.joints
  := by
  constructor
  · intro i hi j hj
    obtain ⟨c, hc, hsource, -⟩ := mem_joints hi
    obtain ⟨c', hc', -, htarget⟩ := mem_joints hj
    rw [hsource, htarget]
    apply h.directed c i.kind c' j.kind hc hc'
  · intro i hi j hj p hp hp'
    obtain ⟨c, hc, hsource, htarget⟩ := mem_joints hi
    obtain ⟨c', hc', hsource', htarget'⟩ := mem_joints hj
    have hterminals : p ∈ c.terminals := by
      rw [Connection.terminals, ← hsource, ← htarget]
      apply hp
    have hterminals' : p ∈ c'.terminals := by
      rw [Connection.terminals, ← hsource', ← htarget']
      apply hp'
    apply h.uniform c i.kind c' j.kind hc hc' p hterminals hterminals'

/-! ## The components of the imported case -/

/-- The record of a component in an imported case. -/
def Component.record (w : Osp.Wiring) (c : Component) : ComponentEntry :=
  ⟨c.fmu.fileName, c.stepSize.map Value.ofReal, false, none,
    Osp.overridesValue (c.simulator.initial.getD []), w.own c.name⟩

/-- A component as it is built of the imported case. -/
def Component.reimported (folder : String) (w : Osp.Wiring) (c : Component) : Component :=
  System.componentOf c.name ⟨Path.join folder c.fmu.fileName, c.fmu.description⟩ (c.record w)

/-- The components as they are built of the imported case. -/
def System.reimported (s : System) (folder : String) (w : Osp.Wiring) : Entries Component :=
  s.components.values.map fun c => (c.name, c.reimported folder w)

section Reimport

variable {s : System} {c : Component} {folder : String} {d : Disk} {w : Osp.Wiring}

/-- The numbers of a component are finite. -/
structure Component.Finite (c : Component) : Prop where
  stepSize : ∀ x ∈ c.stepSize, x.isFinite
  initial : ∀ v ∈ c.simulator.initial.getD [], ∀ x, v.value = .real x → x.isFinite

/-- A component has finite numbers if all numbers of the structure are finite. -/
theorem Component.finite_of_numbers {simulation : Option Simulation}
    (h : ∀ x ∈ (s.ospStructure simulation).numbers, x.isFinite)
    (hc : c ∈ s.components.values) :
  c.Finite
  := by
  have hsimulator : c.simulator ∈ (s.ospStructure simulation).simulators := List.mem_map_of_mem hc
  constructor
  · intro x hx
    apply h x (List.mem_flatMap.mpr ⟨c.simulator, hsimulator, _⟩)
    apply List.mem_append_left _ (Option.mem_toList.mpr hx)
  · intro v hv x hx
    apply h x (List.mem_flatMap.mpr ⟨c.simulator, hsimulator, _⟩)
    apply List.mem_append_right _ (List.mem_filterMap.mpr ⟨v, hv, _⟩)
    rw [hx]

/-- The initial values of a built component are deployed as they are when they are imported. -/
theorem Component.Built.settled (h : c.Built) :
  Settled c.fmu.description.scalarVariables (c.simulator.initial.getD [])
  := by
  obtain ⟨overrides, hkeys, hnamed, hoverrides, hinitial⟩ := h.initial_eq
  have heq : c.simulator.initial.getD [] = c.initial.values.filterMap Variable.initialValue? :=
    getD_unlessEmpty _
  rw [heq, hinitial]
  apply settled_initialValues hkeys hoverrides hnamed

/-- A component is deployed as it was, given a step size that it had already. -/
theorem Component.simulator_reimported {base : Option Double} (hbuilt : c.Built)
    (hlies : c.fmu.LiesIn folder d) (hfinite : c.Finite) (hbase : c.stepSize.or base = c.stepSize) :
  ({ c.reimported folder w with
    stepSize := (c.reimported folder w).stepSize.or base } : Component).simulator = c.simulator
  := by
  have hsource : (Path.fileName? (Path.join folder c.fmu.fileName)).getD "" = c.fmu.fileName := by
    rw [Path.fileName?_join hlies.isStep, Option.getD_some]
  have hstepSize : (c.stepSize.map Value.ofReal).bind Value.asReal = c.stepSize := by
    cases hx : c.stepSize with
    | none => rfl
    | some x =>
      rw [Option.map_some, Option.bind_some, Value.ofReal, if_pos (hfinite.stepSize x hx)]
      rfl
  have hinitial : (c.reimported folder w).initial.values.filterMap Variable.initialValue? =
      c.simulator.initial.getD [] := by
    apply Osp.initialValues_overridesValue c.name rfl hbuilt.settled hfinite.initial
  have hunless : unlessEmpty (c.simulator.initial.getD []) = c.simulator.initial := by
    rw [simulator, getD_unlessEmpty]
  have hor : ((c.stepSize.map Value.ofReal).bind Value.asReal).or base = c.stepSize := by
    rw [hstepSize, hbase]
  rw [simulator, Osp.Simulator.mk.injEq]
  refine ⟨rfl, hsource, hor, ?_⟩
  rw [hinitial, hunless]

/-- The components that are imported again are those of the system. -/
theorem System.keys_reimported (hbuilt : s.Built) :
  (s.reimported folder w).keys = s.components.keys
  := by
  rw [← hbuilt.components.map_name, reimported, Entries.keys, List.map_map]
  rfl

/-- A component is imported again under its own name. -/
theorem System.get?_reimported (hbuilt : s.Built) {name : String}
    (hc : s.components.get? name = some c) :
  (s.reimported folder w).get? name = some (c.reimported folder w)
  := by
  have hmem := Entries.mem_of_get? hc
  apply Entries.get?_of_mem
  · rw [keys_reimported hbuilt]
    apply hbuilt.components.nodup
  · have hname : c.name = name := hbuilt.components.name_eq _ hmem
    rw [← hname]
    apply List.mem_map_of_mem (Entries.mem_values_iff.mpr ⟨name, hmem⟩)

/-- A component keeps all the connectors that were made for it, since they expose what it has. -/
theorem Component.connectors_reimported (hbuilt : s.Built) (himportable : s.Importable folder d)
    (hmade : w.Made s.joints) {name : String} (hc : s.components.get? name = some c) :
  (c.reimported folder w).connectors = w.own c.name
  := by
  have hname : c.name = name := hbuilt.components.name_eq _ (Entries.mem_of_get? hc)
  have hfilter : (c.reimported folder w).connectors =
      (w.own c.name).filter fun e => isGrounded (c.reimported folder w).scalarVariables e.2 := rfl
  rw [hfilter, List.filter_eq_self]
  intro e he
  rw [hname] at he
  obtain ⟨j, hj, hmem⟩ := hmade.mem_own he
  obtain ⟨c', hc', hsource, htarget⟩ := System.mem_joints hj
  rw [isGrounded]
  split
  · rename_i variableName hbound
    obtain ⟨hkind, rfl⟩ := Osp.Joint.kind_of_mem_ends hmem hbound
    rw [hkind] at hc'
    have hterminal : ⟨name, e.1⟩ ∈ c'.terminals := by
      rw [Connection.terminals, ← hsource, ← htarget]
      apply Osp.Joint.mem_terminals_iff.mpr ⟨e.2, hmem⟩
    obtain ⟨c'', hc'', hhas⟩ := himportable.declared c' hc' _ hterminal
    rw [hc, Option.some.injEq] at hc''
    subst hc''
    have hdeclared : (c.reimported folder w).scalarVariables.has e.1 =
        c.fmu.description.scalarVariables.has e.1 :=
      has_ofFmu c.name ⟨Path.join folder c.fmu.fileName, c.fmu.description⟩ (c.record w).initial
        (w.own c.name) e.1
    have hcBuilt := hbuilt.components.holds _ (Entries.mem_of_get? hc)
    rw [hdeclared, ← hcBuilt.has_eq]
    apply hhas
  · rfl

/-! ## The connections of the imported case -/

/-- The connection that is built for a joint of the imported case. -/
def Osp.Joint.connection (name : String) (j : Osp.Joint) : Connection :=
  ⟨name, ⟨j.source.owner, .connector (j.connector j.source .output)⟩,
    ⟨j.target.owner, .connector (j.connector j.target .input)⟩⟩

/-- The connection that a joint is imported as is valid, if both its ends have an owner. -/
theorem Osp.Joint.validate_connection {j : Osp.Joint} (name : String) (hsource : j.source.owner ≠ "")
    (htarget : j.target.owner ≠ "") :
  (j.connection name).validate = .ok j.kind
  := by
  obtain ⟨kind, source, target⟩ := j
  rw [Connection.validate, if_neg (by simp [connection, Endpoint.isValid, hsource, htarget])]
  cases kind <;> rfl

/-- The connection that a joint is imported as has the link of the joint. -/
theorem Osp.Joint.link_connection (name : String) (j : Osp.Joint) :
  (j.connection name).link j.kind = j.link
  := by
  obtain ⟨kind, source, target⟩ := j
  cases kind <;> rfl

/-- The valid connections that are built for joints. -/
theorem System.map_link_connection (components : Entries Component) {named : Entries Osp.Joint}
    (howner : ∀ j ∈ named.values, j.source.owner ≠ "" ∧ j.target.owner ≠ "") :
  (System.mk components (named.map fun e => (e.1, e.2.connection e.1))).validConnections.map
      (fun (c, kind) => c.link kind) = named.values.map Osp.Joint.link
  := by
  rw [validConnections, Entries.values, List.map_map, List.filterMap_map, List.map_filterMap,
    Entries.values, List.map_map, ← List.filterMap_eq_map]
  apply List.filterMap_congr
  intro e he
  obtain ⟨hsource, htarget⟩ := howner e.2 (List.mem_map_of_mem he)
  simp only [Function.comp_apply, Osp.Joint.validate_connection e.1 hsource htarget,
    Option.map_some, Osp.Joint.link_connection]

/-- Both ends of a valid connection have a component. -/
theorem Connection.isValid_ends {kind : ConnectionKind} {c : Connection}
    (h : c.validate = .ok kind) :
  c.source.component ≠ "" ∧ c.target.component ≠ ""
  := by
  rw [validate] at h
  split at h
  · cases h
  · rename_i hvalid
    simpa [Endpoint.isValid] using hvalid

/-- Both ends of a joint have an owner. -/
theorem System.owner_ne_empty {j : Osp.Joint} (hj : j ∈ s.joints) :
  j.source.owner ≠ "" ∧ j.target.owner ≠ ""
  := by
  obtain ⟨c, hc, hsource, htarget⟩ := mem_joints hj
  rw [hsource, htarget]
  apply Connection.isValid_ends (mem_validConnections.mp hc).2

/-- A terminal with a connector is found again. -/
theorem System.endpoint?_reimported (hbuilt : s.Built) (himportable : s.Importable folder d)
    (hmade : w.Made s.joints) {p : Osp.Terminal} {k : Connector}
    (howner : s.components.has p.owner = true) (hk : w.connector? p = some k) :
  endpoint? (s.reimported folder w) ⟨p.owner, some p.name, none⟩ =
    some ⟨p.owner, .connector k⟩
  := by
  obtain ⟨c, hc⟩ := Option.isSome_iff_exists.mp howner
  have hname : c.name = p.owner := hbuilt.components.name_eq _ (Entries.mem_of_get? hc)
  have hconnector : (c.reimported folder w).connectors.get? p.name = some k := by
    rw [Component.connectors_reimported hbuilt himportable hmade hc, hname]
    apply hk
  have hcomponent : findComponent? (s.reimported folder w) p.owner =
      some (c.reimported folder w) := by
    rw [findComponent?, get?_reimported hbuilt hc, Option.some_or]
  simp only [endpoint?, hcomponent, Option.bind_eq_bind, Option.bind_some, findConnector?,
    hconnector, Option.some_or]
  rw [← hname]
  rfl

/-- The record that a joint is imported as is built as its connection again. -/
theorem System.connection?_reimported (hbuilt : s.Built) (himportable : s.Importable folder d)
    (hmade : w.Made s.joints) {j : Osp.Joint} (hj : j ∈ s.joints) (name : String) :
  connection? (s.reimported folder w) name (Osp.connectionValue j.source j.target) =
    some (j.connection name)
  := by
  obtain ⟨c, hc, hsource, htarget⟩ := mem_joints hj
  have hmem := (mem_validConnections.mp hc).1
  have hsourceEnd := endpoint?_reimported hbuilt himportable hmade
    (by rw [hsource]; apply hbuilt.source c hmem)
    ((hmade.connector?_eq j.source).trans (himportable.consistent.lookup_source hj))
  have htargetEnd := endpoint?_reimported hbuilt himportable hmade
    (by rw [htarget]; apply hbuilt.target c hmem)
    ((hmade.connector?_eq j.target).trans (himportable.consistent.lookup_target hj))
  simp only [connection?, Osp.ofValue?_connectionValue, Option.bind_eq_bind, Option.bind_some,
    hsourceEnd, htargetEnd]
  rfl

/-! ## The system of the imported case -/

/-- All terminals of the joints belong to simulators of the OSP structure. -/
theorem System.local_ospStructure (hbuilt : s.Built) (himportable : s.Importable folder d)
    (simulation : Option Simulation) :
  (s.ospStructure simulation).Local s.joints
  := by
  constructor
  · rw [connections_eq_joints, getD_unlessEmpty]
  · have hnames : (s.ospStructure simulation).simulators.map (·.name) = s.components.keys := by
      rw [← hbuilt.components.map_name, ospStructure, List.map_map]
      rfl
    rw [hnames]
    apply hbuilt.components.nodup
  · intro simulator hsimulator
    obtain ⟨c, hc, rfl⟩ := List.mem_map.mp hsimulator
    apply (himportable.lies c hc).isStep

/-- The components that are imported are built as the components of the system again. -/
theorem System.addComponents_imported {tool : ProxyTool} (hbuilt : s.Built)
    (himportable : s.Importable folder d) (hmade : w.Made s.joints)
    (hfinite : ∀ c ∈ s.components.values, c.Finite) (simulation : Option Simulation) :
  addComponents folder tool [] (Osp.importedComponents (s.ospStructure simulation) w) d =
    .ok (s.reimported folder w) d
  := by
  have hblock : Osp.importedComponents (s.ospStructure simulation) w =
      s.components.values.map fun c =>
        (c.name, Osp.componentValue c.simulator c.fmu.fileName (w.connectors.get? c.name)) := by
    rw [Osp.importedComponents, ospStructure, List.map_map]
    rfl
  have hnodup : (s.components.values.map (·.name)).Nodup := by
    rw [hbuilt.components.map_name]
    apply hbuilt.components.nodup
  rw [hblock]
  apply addComponents_map hnodup
  · intro c hc
    apply Osp.ofValue?_componentValue _ (hfinite c hc).stepSize
    intro own hown e he
    have hmem : e ∈ w.own c.name := by
      rw [Osp.Wiring.own, hown]
      apply he
    obtain ⟨j, -, hj⟩ := hmade.mem_own hmem
    apply Osp.Joint.name_of_mem_ends hj
  · intro c _
    rfl
  · intro c hc
    have hlies := himportable.lies c hc
    have hpath : fmuPath d folder (c.record w).fmu = Path.join folder c.fmu.fileName :=
      hlies.fmuPath_eq
    rw [hpath]
    apply hlies.load

/-- The imported case is built without a failure, with one connection for each joint. -/
theorem System.build_imported (tool : ProxyTool) (hbuilt : s.Built)
    (himportable : s.Importable folder d) (hfinite : ∀ c ∈ s.components.values, c.Finite)
    (hmade : w.Made s.joints) (simulation : Option Simulation) :
  ∃ named : Entries Osp.Joint, named.values = s.joints ∧
    build folder tool (Osp.importedSystem (s.ospStructure simulation) w) d =
      .ok ⟨s.reimported folder w, named.map fun e => (e.1, e.2.connection e.1)⟩ d
  := by
  obtain ⟨named, hkeys, hvalues, hconnections⟩ := hmade.connections_eq
  refine ⟨named, hvalues, build_eq_ok.mpr ⟨?_, ?_⟩⟩
  · apply addComponents_imported hbuilt himportable hmade hfinite
  · have hblock : block (Osp.importedSystem (s.ospStructure simulation) w) "connections" =
        named.map fun e => (e.1, Osp.connectionValue e.2.source e.2.target) := by
      have heq : block (Osp.importedSystem (s.ospStructure simulation) w) "connections" =
        w.connections.map fun e => (e.1, Osp.connectionValue e.2.1 e.2.2) := rfl
      rw [heq, hconnections, List.map_map]
      rfl
    have hread : (block (Osp.importedSystem (s.ospStructure simulation) w) "connections").filterMap
        (fun e => (connection? (s.reimported folder w) e.1 e.2).map (e.1, ·)) =
          named.map fun e => (e.1, e.2.connection e.1) := by
      rw [hblock, List.filterMap_map, ← List.filterMap_eq_map]
      apply List.filterMap_congr
      intro e he
      have hj : e.2 ∈ s.joints := by
        rw [← hvalues]
        apply List.mem_map_of_mem he
      simp only [Function.comp_apply, connection?_reimported hbuilt himportable hmade hj e.1,
        Option.map_some]
    apply (congrArg Entries.ofPairs hread).trans
    apply Entries.ofPairs_eq_self
    rw [Entries.keys, List.map_map]
    apply hkeys

end Reimport

/-! ## Compiling again -/

section Compile

variable {s : System} {folder : String} {d : Disk}

/-- A case is set up where its system is built. -/
theorem Case.setUp_of_build {tool : ProxyTool} {c : Case} {structureValue : Value} {built : System}
    (hstructure : c.dictionary.get? "systemStructure" = some structureValue)
    (hbuild : System.build c.folder tool structureValue d = .ok built d) :
  c.setUp tool d =
    .ok { c with system := some (built.withStepSize (c.simulation.bind (·.baseStepSize))) } d
  := by
  simp only [setUp, hstructure, Action.bind_eq_ok, Action.pure_eq_ok]
  exact ⟨built, d, hbuild, rfl, rfl⟩

/-- The system of the imported case is deployed as the system was. -/
theorem System.ospStructure_reimported {w : Osp.Wiring} {named : Entries Osp.Joint}
    {base : Option Double} (hbuilt : s.Built) (himportable : s.Importable folder d)
    (hfinite : ∀ c ∈ s.components.values, c.Finite)
    (hbase : ∀ c ∈ s.components.values, c.stepSize.or base = c.stepSize)
    (hnamed : named.values = s.joints) (simulation : Option Simulation) :
  ((System.mk (s.reimported folder w) (named.map fun e => (e.1, e.2.connection e.1))).withStepSize
    base).ospStructure simulation = s.ospStructure simulation
  := by
  have hsimulators : (((System.mk (s.reimported folder w) (named.map fun e =>
      (e.1, e.2.connection e.1))).withStepSize base).components.values.map Component.simulator) =
        s.components.values.map Component.simulator := by
    rw [withStepSize, Entries.values, reimported, List.map_map, List.map_map, List.map_map]
    apply List.map_congr_left
    intro c hc
    obtain ⟨name, hmem⟩ := Entries.mem_values_iff.mp hc
    apply Component.simulator_reimported (hbuilt.components.holds _ hmem) (himportable.lies c hc)
      (hfinite c hc) (hbase c hc)
  have howner : ∀ j ∈ named.values, j.source.owner ≠ "" ∧ j.target.owner ≠ "" := by
    intro j hj
    rw [hnamed] at hj
    apply owner_ne_empty hj
  have hlinks := map_link_connection (s.reimported folder w) howner
  rw [Osp.Structure.mk.injEq]
  refine ⟨rfl, rfl, rfl, rfl, rfl, hsimulators, ?_⟩
  rw [connections_eq_joints s, ← hnamed, ← hlinks]
  rfl

end Compile

/-- The OSP structure of a system whose components get the base step size of the simulation unless
they have a step size of their own. -/
def System.compiled (s : System) (simulation : Option Simulation) : Osp.Structure :=
  (s.withStepSize (simulation.bind (·.baseStepSize))).ospStructure simulation

/-- The structure that is compiled for a system is imported as a case from which the same structure
is compiled again. -/
theorem System.compiled_imported {folder name : String} {tool tool' : ProxyTool}
    {structureValue : Value} {d₀ d₁ d : Disk} {s : System} {simulation : Option Simulation}
    (hkeyed : structureValue.Keyed) (hbuild : build folder tool structureValue d₀ = .ok s d₁)
    (himportable : s.Importable folder d)
    (hfinite : ∀ x ∈ (s.compiled simulation).numbers, x.isFinite)
    (hstart : ∀ x ∈ simulation.bind (·.startTime), x.isFinite ∧ x ≠ Double.zero.neg)
    (hbase : ∀ x ∈ simulation.bind (·.baseStepSize), x.isFinite ∧ x ≠ Double.zero.neg) :
  ∃ dictionary c s', (s.compiled simulation).toCase folder name = .ok dictionary ∧
    (Case.ofDictionary dictionary folder).setUp tool' d = .ok c d ∧ c.system = some s' ∧
    s'.ospStructure c.simulation = s.compiled simulation
  := by
  have hbuilt := (built_build hkeyed hbuild).withStepSize (simulation.bind (·.baseStepSize))
  have himportable' := himportable.withStepSize (simulation.bind (·.baseStepSize))
  have hstepSize : ∀ c ∈ (s.withStepSize (simulation.bind (·.baseStepSize))).components.values,
      c.stepSize.or (simulation.bind (·.baseStepSize)) = c.stepSize := by
    intro c hc
    obtain ⟨name, hmem⟩ := Entries.mem_values_iff.mp hc
    obtain ⟨e, he, heq⟩ := List.mem_map.mp hmem
    cases heq
    simp only [Option.or_assoc, Option.or_self]
  rw [compiled] at hfinite ⊢
  generalize s.withStepSize (simulation.bind (·.baseStepSize)) = s
    at hbuilt himportable' hstepSize hfinite ⊢
  have hall : ∀ c ∈ s.components.values, c.Finite :=
    fun c hc => Component.finite_of_numbers hfinite hc
  have hmade := Osp.Wiring.made_foldl s.joints
  obtain ⟨environment, hcase⟩ :=
    Osp.Structure.toCase_eq (local_ospStructure hbuilt himportable' simulation) folder name
  obtain ⟨named, hvalues, hsystem⟩ :=
    build_imported tool' hbuilt himportable' hall hmade simulation
  have hsimulation := Osp.ofValue?_simulationValue (s.ospStructure simulation) name rfl rfl rfl
    hstart hbase
  refine ⟨_, _, _, hcase, Case.setUp_of_build rfl hsystem, rfl, ?_⟩
  simp only [Case.ofDictionary, Osp.ofDictionary?_case, hsimulation]
  apply ospStructure_reimported hbuilt himportable' hall hstepSize hvalues

/-- Two components of one FMU, of which the first has an override, and a connection from the first
to the second. -/
def System.coupling : Value :=
  let endpoint (component connector : String) : Value :=
    .object [("component", .text component), ("connector", .text connector)]
  let connector (type : String) : Value :=
    .object [("variable", .text "speed"), ("type", .text type)]
  .object [
    ("components", .object [
      ("engine", .object [("fmu", .text "speed.fmu"),
        ("initialize", .object [("speed", .object [("start", .number (.int 3))])]),
        ("connectors", .object [("out", connector "output")])]),
      ("gauge", .object [("fmu", .text "speed.fmu"),
        ("connectors", .object [("in", connector "input")])])]),
    ("connections", .object [
      ("shaft", .object [("source", endpoint "engine" "out"), ("target", endpoint "gauge" "in")])])]

/-- The system of `coupling`. -/
def System.coupled : System :=
  let out : Connector := ⟨"out", some (.variable "speed"), some .output⟩
  let into : Connector := ⟨"in", some (.variable "speed"), some .input⟩
  { components := [
      ("engine", System.componentOf "engine" Fmu.speed
        ⟨"speed.fmu", none, false, none, [("speed", .object [("start", .number (.int 3))])],
          [("out", out)]⟩),
      ("gauge", System.componentOf "gauge" Fmu.speed
        ⟨"speed.fmu", none, false, none, [], [("in", into)]⟩)]
    connections := [
      ("shaft", ⟨"shaft", ⟨"engine", .connector out⟩, ⟨"gauge", .connector into⟩⟩)] }

/-- The sample is built as the coupled system. -/
theorem System.build_coupling (tool : ProxyTool) :
  build "/" tool coupling Fmu.sampleDisk = .ok coupled Fmu.sampleDisk
  := by
  have hengine : ComponentEntry.ofValue? (.object [("fmu", .text "speed.fmu"),
        ("initialize", .object [("speed", .object [("start", .number (.int 3))])]),
        ("connectors", .object [
          ("out", .object [("variable", .text "speed"), ("type", .text "output")])])]) =
      some ⟨"speed.fmu", none, false, none, [("speed", .object [("start", .number (.int 3))])],
        [("out", ⟨"out", some (.variable "speed"), some .output⟩)]⟩ := rfl
  have hgauge : ComponentEntry.ofValue? (.object [("fmu", .text "speed.fmu"),
        ("connectors", .object [
          ("in", .object [("variable", .text "speed"), ("type", .text "input")])])]) =
      some ⟨"speed.fmu", none, false, none, [],
        [("in", ⟨"in", some (.variable "speed"), some .input⟩)]⟩ := rfl
  have hspeed : Fmu.load (fmuPath Fmu.sampleDisk "/" "speed.fmu") Fmu.sampleDisk =
      .ok Fmu.speed Fmu.sampleDisk := Fmu.load_speed
  apply build_eq_ok.mpr
  constructor
  · rw [show block coupling "components" = [_, _] from rfl,
      addComponents_cons_of_load _ hengine rfl hspeed,
      addComponents_cons_of_load _ hgauge rfl hspeed]
    rfl
  · decide +kernel

theorem System.keyed_coupling :
  coupling.Keyed
  := Value.keyed_of_isKeyed (by decide)

/-- The coupled system can be imported from the folder of its FMUs. -/
theorem System.importable_coupled :
  coupled.Importable "/" Fmu.sampleDisk
  := by
  have hvalid : coupled.validConnections = [(⟨"shaft",
      ⟨"engine", .connector ⟨"out", some (.variable "speed"), some .output⟩⟩,
      ⟨"gauge", .connector ⟨"in", some (.variable "speed"), some .input⟩⟩⟩, .variable)] := rfl
  have hlies : Fmu.speed.LiesIn "/" Fmu.sampleDisk := ⟨by decide, Fmu.load_speed⟩
  constructor
  · intro c hc
    simp only [coupled, Entries.values, List.map_cons, List.map_nil, List.mem_cons,
      List.not_mem_nil, or_false] at hc
    obtain rfl | rfl := hc <;> apply hlies
  · intro c hc p hp
    rw [hvalid, List.mem_singleton, Prod.mk.injEq] at hc
    obtain ⟨rfl, -⟩ := hc
    simp only [Connection.terminals, List.mem_cons, List.not_mem_nil, or_false] at hp
    obtain rfl | rfl := hp <;> exact ⟨_, rfl, by decide +kernel⟩
  · intro c kind c' kind' hc hc'
    rw [hvalid, List.mem_singleton, Prod.mk.injEq] at hc hc'
    obtain ⟨⟨rfl, -⟩, rfl, -⟩ := And.intro hc hc'
    decide
  · intro c kind c' kind' hc hc' _ _ _
    rw [hvalid, List.mem_singleton, Prod.mk.injEq] at hc hc'
    rw [hc.2, hc'.2]

/-- The settings of a simulation that starts at zero with steps of one. -/
def Simulation.stepping : Simulation :=
  ⟨none, some Double.zero, none, some (Double.ofInt 1), some .fixedStep⟩

/-- The coupled system is compiled, imported and compiled to the same structure again. -/
theorem System.compiled_coupled :
  coupling.Keyed ∧
    build "/" (fun fmu _ _ => pure fmu) coupling Fmu.sampleDisk = .ok coupled Fmu.sampleDisk ∧
    coupled.Importable "/" Fmu.sampleDisk ∧
    ∃ dictionary c s', (coupled.compiled (some .stepping)).toCase "/" "case" = .ok dictionary ∧
      (Case.ofDictionary dictionary "/").setUp (fun fmu _ _ => pure fmu) Fmu.sampleDisk =
        .ok c Fmu.sampleDisk ∧
      c.system = some s' ∧ s'.ospStructure c.simulation = coupled.compiled (some .stepping)
  := by
  have hbuild := build_coupling fun fmu _ _ => pure fmu
  refine ⟨keyed_coupling, hbuild, importable_coupled, ?_⟩
  apply compiled_imported keyed_coupling hbuild importable_coupled
  · have hnumbers : (coupled.compiled (some .stepping)).numbers =
        [Double.ofInt 1, Double.ofInt 1] := by decide +kernel
    rw [hnumbers]
    decide +kernel
  · decide +kernel
  · decide +kernel

end Cosim
