import Cosim.Proofs.Deploy.Override
import Cosim.Proofs.Dictionary.Word
import Cosim.Proofs.Osp.Wiring
import Cosim.Proofs.Path
import Cosim.Proofs.System.Builder
import Cosim.Proofs.System.Entry

/-!
# Imported structures

What an import writes into a case dictionary is read again: connectors, connections, components with
their initial values, and the settings of the simulation.  When the case of a structure whose FMUs
lie in the case folder is set up again, it has one component for each simulator and one connection
for each joint.
-/

namespace Cosim.Osp

/-! ## Connectors and connections -/

theorem ofValue?_connectorValue (c : Connector) :
  Connector.ofValue? c.name (connectorValue c) = some c
  := by
  obtain ⟨name, binding, direction⟩ := c
  obtain _ | _ | _ := binding <;> obtain _ | _ | _ := direction <;> rfl

theorem ofValue?_connectionValue (source target : Terminal) :
  ConnectionEntry.ofValue? (connectionValue source target) =
    some ⟨⟨source.owner, some source.name, none⟩, ⟨target.owner, some target.name, none⟩⟩
  := rfl

/-! ## Components -/

theorem connectorsOf?_map {connectors : Entries Connector}
    (hnames : ∀ e ∈ connectors, e.2.name = e.1) :
  ComponentEntry.connectorsOf?
      (some (.object (connectors.map fun (name, c) => (name, connectorValue c)))) =
    some connectors
  := by
  have hread : ∀ e ∈ connectors,
      (Connector.ofValue? e.1 (connectorValue e.2)).map (e.1, ·) = some e := by
    intro e he
    rw [← hnames e he, ofValue?_connectorValue, Option.map_some, hnames e he]
  have hall := mapM_eq_some hread
  rw [List.map_id'] at hall
  simp only [ComponentEntry.connectorsOf?, List.mapM_map]
  apply hall

/-- The fields of the record of a component. -/
theorem record?_componentValue (s : Simulator) (fmu : String)
    (connectors : Option (Entries Connector)) :
  ∃ overrides, Dictionary.record? ComponentEntry.fields (componentValue s fmu connectors) =
      some [some (.text fmu), s.stepSize.map Value.ofReal, none, none, overrides,
        connectors.map fun cs => .object (cs.map fun (name, c) => (name, connectorValue c))] ∧
    Dictionary.entriesField? some overrides = some (overridesValue (s.initial.getD []))
  := by
  obtain ⟨name, source, stepSize, initial⟩ := s
  rw [componentValue]
  generalize overridesValue (initial.getD []) = overrides
  cases overrides with
  | nil =>
    refine ⟨none, ?_, rfl⟩
    cases connectors <;> cases stepSize <;> rfl
  | cons e overrides =>
    refine ⟨some (.object (e :: overrides)), ?_, Dictionary.entriesField?_some _⟩
    cases connectors <;> cases stepSize <;> rfl

/-- The record of a component with a finite step size is read. -/
theorem ofValue?_componentValue {s : Simulator} (fmu : String)
    {connectors : Option (Entries Connector)} (hstep : ∀ x ∈ s.stepSize, x.isFinite)
    (hnames : ∀ cs ∈ connectors, ∀ e ∈ cs, e.2.name = e.1) :
  ComponentEntry.ofValue? (componentValue s fmu connectors) =
    some ⟨fmu, s.stepSize.map Value.ofReal, false, none, overridesValue (s.initial.getD []),
      connectors.getD []⟩
  := by
  obtain ⟨overrides, hrecord, hoverrides⟩ := record?_componentValue s fmu connectors
  have hstepSize : Dictionary.optionalValue (s.stepSize.map Value.ofReal) =
      s.stepSize.map Value.ofReal := by
    cases hs : s.stepSize with
    | none => rfl
    | some x => rw [Option.map_some, Value.ofReal, if_pos (hstep x hs), Dictionary.optionalValue]; simp
  have hconnectors : ComponentEntry.connectorsOf? (connectors.map fun cs =>
      .object (cs.map fun (name, c) => (name, connectorValue c))) = some (connectors.getD []) := by
    cases connectors with
    | none => rfl
    | some cs => apply connectorsOf?_map (hnames cs rfl)
  simp only [ComponentEntry.ofValue?, hrecord, Option.bind_eq_bind, Option.bind_some,
    Dictionary.textField?, Dictionary.flagField?, hoverrides, hconnectors, hstepSize]
  rfl

/-! ## Initial values -/

theorem overridesValue_eq {values : List InitialValue} (h : (values.map (·.name)).Nodup) :
  overridesValue values = values.map fun v => (v.name, .object [("start", v.value.toValue)])
  := by
  apply Entries.ofPairs_eq_self
  rw [Entries.keys, List.map_map]
  apply h

/-- Initial values with finite numbers are read as overrides. -/
theorem filterMap_overridesValue {values : List InitialValue} {declared : Entries Variable}
    (h : Component.Settled declared values)
    (hfinite : ∀ v ∈ values, ∀ x, v.value = .real x → x.isFinite) :
  (overridesValue values).filterMap
      (fun (key, value) => (Variable.ofOverride? key value).map (key, ·)) =
    values.map fun v => (v.name, (Variable.named v.name).setStart v.value)
  := by
  rw [overridesValue_eq h.nodup, List.filterMap_map, ← List.filterMap_eq_map]
  apply List.filterMap_congr
  intro v hv
  have hread := Start.ofValue?_toValue (h.stored v hv) (hfinite v hv)
  simp only [Function.comp_apply, Variable.ofOverride?_start v.name hread, Option.map_some]

/-- Initial values of a component that are imported are deployed as they are. -/
theorem initialValues_overridesValue {values : List InitialValue} {fmu : Fmu}
    {entry : ComponentEntry} (name : String)
    (hentry : entry.overrides = overridesValue values)
    (h : Component.Settled fmu.description.scalarVariables values)
    (hfinite : ∀ v ∈ values, ∀ x, v.value = .real x → x.isFinite) :
  (System.componentOf name fmu entry).initial.values.filterMap Variable.initialValue? = values
  := by
  have hinitial : entry.initial =
      values.map fun v => (v.name, (Variable.named v.name).setStart v.value) := by
    rw [ComponentEntry.initial, hentry, filterMap_overridesValue h hfinite]
  have hkeys : entry.initial.keys.Nodup := by
    rw [hinitial, Entries.keys, List.map_map]
    apply h.nodup
  have haligned : (System.componentOf name fmu entry).initial =
      entry.initial.map fun e =>
        (e.1, Component.alignIn fmu.description.scalarVariables e.1 e.2) :=
    Component.applyOverrides_initial hkeys
  rw [haligned, hinitial, Entries.values, List.map_map, List.map_map, List.filterMap_map]
  nth_rewrite 2 [← List.map_id values]
  rw [← List.filterMap_eq_map]
  apply List.filterMap_congr
  intro v hv
  apply Component.initialValue?_imported (h.stored v hv) (h.fixed v hv)

/-! ## Simulations -/

/-- The settings of a structure that gives finite times are read. -/
theorem ofValue?_simulationValue (s : Structure) (name : String) {start base : Option Double}
    {algorithm : Option Algorithm} (hstart : s.startTime = start.map Double.plain)
    (hbase : s.baseStepSize = base.map Double.plain)
    (halgorithm : s.algorithm = algorithm.map Algorithm.text)
    (hstartPlain : ∀ x ∈ start, x.isFinite ∧ x ≠ Double.zero.neg)
    (hbasePlain : ∀ x ∈ base, x.isFinite ∧ x ≠ Double.zero.neg) :
  Simulation.ofValue? (simulationValue s name) = some ⟨some name, start, none, base, algorithm⟩
  := by
  have htime (time : Option Double) (htime : ∀ x ∈ time, x.isFinite ∧ x ≠ Double.zero.neg) :
      (Dictionary.optionalValue (time.map fun x => Dictionary.scalar (Text.trim x.plain))).bind
        Value.asReal = time := by
    cases time with
    | none => rfl
    | some x =>
      obtain ⟨hfinite, hzero⟩ := htime x rfl
      obtain ⟨n, hn, rfl⟩ := Dictionary.scalar_plain hfinite hzero
      simp [hn, Dictionary.optionalValue, Value.asReal]
  have hrecord : Dictionary.record? Simulation.fields (simulationValue s name) =
      some [some (.text name), start.map fun x => Dictionary.scalar (Text.trim x.plain), none,
        base.map fun x => Dictionary.scalar (Text.trim x.plain),
        algorithm.map fun a => Dictionary.scalar (Text.trim a.text)] := by
    rw [simulationValue, hstart, hbase, halgorithm]
    cases start <;> cases base <;> cases algorithm <;> rfl
  have halgorithm' : Dictionary.optionalText?
      (algorithm.map fun a => Dictionary.scalar (Text.trim a.text)) =
        some (algorithm.map Algorithm.text) := by
    cases algorithm with
    | none => rfl
    | some a =>
      cases a
      have htrim : Text.trim Algorithm.fixedStep.text = "fixedStep" := by decide
      have hquotes : Dictionary.needsQuotes "fixedStep" = false := by decide +kernel
      rw [Option.map_some, htrim, (Dictionary.isBareWord_of_needsQuotes hquotes).2]
      rfl
  have hread : (algorithm.map Algorithm.text).bind Algorithm.ofText? = algorithm := by
    obtain _ | _ | _ := algorithm <;> rfl
  simp only [Simulation.ofValue?, hrecord, Option.bind_eq_bind, Option.bind_some, halgorithm',
    htime start hstartPlain, htime base hbasePlain, hread]
  rfl

/-! ## Structures of one folder -/

/-- A structure that links terminals by joints and whose simulators have different names and FMUs
that are given by their file names alone. -/
structure Structure.Local (s : Structure) (joints : List Joint) : Prop where
  links_eq : s.connections.getD [] = joints.map Joint.link
  nodup_names : (s.simulators.map (·.name)).Nodup
  isStep_source : ∀ simulator ∈ s.simulators, (Path.Part.name simulator.source).IsStep

/-- The components of an imported case. -/
def importedComponents (s : Structure) (w : Wiring) : Dictionary :=
  s.simulators.map fun simulator =>
    (simulator.name,
      componentValue simulator simulator.source (w.connectors.get? simulator.name))

/-- The system structure of an imported case. -/
def importedSystem (s : Structure) (w : Wiring) : Value :=
  .object [
    ("connections", .object (w.connections.map fun e => (e.1, connectionValue e.2.1 e.2.2))),
    ("components", .object (importedComponents s w))]

/-- The FMUs lie in the library of the case, so their paths are their names again. -/
theorem Structure.Local.relativeTo_library {s : Structure} {joints : List Joint}
    (h : s.Local joints) (folder : String) :
  ∀ simulator ∈ s.simulators,
    Path.relativeTo (Path.normalize (Path.join folder simulator.source))
      ((Path.commonRoot? (s.simulators.map fun simulator =>
        Path.normalize (Path.join folder simulator.source))).getD (Path.normalize folder)) =
      simulator.source
  := by
  intro simulator hsimulator
  have hsources : s.simulators.map (fun simulator =>
      Path.normalize (Path.join folder simulator.source)) =
        (s.simulators.map (·.source)).map (Path.join (Path.normalize folder)) := by
    rw [List.map_map]
    apply List.map_congr_left
    intro other hother
    apply Path.normalize_join (h.isStep_source other hother)
  have hne : s.simulators.map (·.source) ≠ [] :=
    List.ne_nil_of_mem (List.mem_map_of_mem hsimulator)
  have hroot := Path.commonRoot?_join folder hne (List.forall_mem_map.mpr h.isStep_source)
  rw [hsources, hroot, Option.getD_some, Path.normalize_join (h.isStep_source _ hsimulator)]
  apply Path.relativeTo_join (h.isStep_source _ hsimulator)

/-- The case of a structure, but for the folder of its FMUs. -/
theorem Structure.toCase_eq {s : Structure} {joints : List Joint} (h : s.Local joints)
    (folder name : String) :
  ∃ environment, s.toCase folder name = .ok [
    ("_environment", environment),
    ("systemStructure", importedSystem s (joints.foldl Wiring.addJoint Wiring.blank)),
    ("run", .object [("simulation", simulationValue s name)])]
  := by
  rw [toCase, h.links_eq, Wiring.ofLinks_map_link]
  simp only [bind, Except.bind, pure, Except.pure]
  have hlibrary := h.relativeTo_library folder
  generalize (Path.commonRoot? _).getD _ = library at hlibrary ⊢
  have hcomponents (w : Wiring) : Entries.ofPairs ((s.simulators.zip (s.simulators.map
      fun simulator => Path.normalize (Path.join folder simulator.source))).map
        fun e => (e.1.name, componentValue e.1 (Path.relativeTo e.2 library)
          (w.connectors.get? e.1.name))) = importedComponents s w := by
    nth_rewrite 1 [← List.map_id s.simulators]
    rw [List.zip_map', List.map_map, Entries.ofPairs_eq_self]
    · apply List.map_congr_left
      intro simulator hsimulator
      simp only [Function.comp_apply, id_eq, hlibrary simulator hsimulator]
    · rw [Entries.keys, List.map_map]
      apply h.nodup_names
  refine ⟨.object [("libSource", .text (Path.relativeTo library (Path.normalize folder)))], ?_⟩
  rw [importedSystem, ← hcomponents]

/-- The settings of an imported case. -/
theorem ofDictionary?_case (environment structureValue simulation : Value) :
  Simulation.ofDictionary? [
    ("_environment", environment),
    ("systemStructure", structureValue),
    ("run", .object [("simulation", simulation)])] = Simulation.ofValue? simulation
  := rfl

end Cosim.Osp
