import Cosim.Proofs.Deploy.Reimport
import Cosim.Proofs.Deploy.Wiring
import Cosim.Proofs.Osp.Structure
import Cosim.Proofs.System.Built

/-!
# The integrity of built systems

Everything in a built system stands under its own name, and what refers to something in it refers to
something that is there: connections to components, and connectors to variables.  The variables of a
component are those of its FMU under its overrides.
-/

namespace Cosim

/-! ## Components -/

/-- What is named in a component stands under its name, connectors expose variables that there are,
and the variables are those of the FMU under the overrides. -/
structure Component.Integral (c : Component) : Prop where
  connectors : ∀ e ∈ c.connectors, e.2.name = e.1
  initial : ∀ e ∈ c.initial, e.2.name = e.1
  bound : ∀ e ∈ c.connectors, ∀ name, e.2.boundVariable? = some name →
    c.scalarVariables.has name = true
  typed : ∀ e ∈ c.initial, e.2.start.isSome = true → e.2.dataType.isSome = true
  overlaid : c.scalarVariables =
    c.fmu.description.scalarVariables.map fun e => (e.1, overlaidBy c.initial e.1 e.2)

/-- An override that is aligned with a declaration has a data type if it has a start value. -/
theorem Component.dataType_alignIn (declared : Entries Variable) (key : String) {v : Variable}
    (h : v.IsOverride) (hstart : (alignIn declared key v).start.isSome = true) :
  (alignIn declared key v).dataType.isSome = true
  := by
  have hown (hstart : v.start.isSome = true) : v.dataType.isSome = true := by
    rwa [h.dataType_eq, Option.isSome_map]
  unfold alignIn at hstart ⊢
  split
  · simp_all
  · unfold align at hstart ⊢
    split
    · simp_all
    · split
      · rfl
      · dsimp only
        split <;> rfl

theorem Component.integral_componentOf (name : String) (fmu : Fmu) {v : Value}
    {entry : ComponentEntry} (hkeyed : v.Keyed) (h : ComponentEntry.ofValue? v = some entry) :
  (System.componentOf name fmu entry).Integral
  := by
  have hnodup := ComponentEntry.nodup_initial (ComponentEntry.nodup_overrides hkeyed h)
  have hsound := sound_ofFmu name fmu entry.connectors entry.named_initial
  constructor
  · intro e he
    exact ComponentEntry.connectors_named h e (List.mem_filter.mp he).1
  · exact hsound.named_initial
  · exact hsound.grounded
  · intro e he
    rw [show (System.componentOf name fmu entry).initial = _ from applyOverrides_initial hnodup] at he
    obtain ⟨f, hf, rfl⟩ := List.mem_map.mp he
    exact dataType_alignIn _ f.1 (entry.isOverride_initial f hf)
  · exact applyOverrides_final (Description.nodup_scalarVariables fmu.description) hnodup

/-! ## Systems -/

/-- Components and connections stand under their names, all components are integral, and the ends
of every connection are components. -/
structure System.Integral (s : System) : Prop where
  components : Component.Listed Component.Integral s.components
  distinct : s.connections.keys.Nodup
  connections : ∀ e ∈ s.connections, e.2.name = e.1
  source : ∀ e ∈ s.connections, s.components.has e.2.source.component = true
  target : ∀ e ∈ s.connections, s.components.has e.2.target.component = true

namespace System

variable {folder name : String} {tool : ProxyTool} {structureValue : Value} {d d' : Disk}
  {s : System}

theorem connection?_name {components : Entries Component} {v : Value} {c : Connection}
    (h : connection? components name v = some c) :
  c.name = name
  := by
  simp only [connection?, Option.bind_eq_bind, Option.bind_eq_some_iff, Option.pure_def,
    Option.some.injEq] at h
  obtain ⟨_, -, _, -, _, -, rfl⟩ := h
  rfl

theorem integral_build (hkeyed : structureValue.Keyed)
    (h : build folder tool structureValue d = .ok s d') :
  s.Integral
  := by
  have hbuilt := built_build hkeyed h
  obtain ⟨hcomponents, hconnections⟩ := build_eq_ok.mp h
  constructor
  · apply listed_addComponents Component.Listed.nil _ hcomponents
    intro e he entry hentry finalName fmu
    exact Component.integral_componentOf finalName fmu (keyed_block hkeyed e he) hentry
  · rw [← hconnections]
    apply Entries.nodup_keys_ofPairs
  · intro e he
    rw [← hconnections] at he
    obtain ⟨f, -, hf⟩ := List.mem_filterMap.mp (Entries.mem_of_mem_ofPairs he)
    obtain ⟨c, hc, rfl⟩ := Option.map_eq_some_iff.mp hf
    exact connection?_name hc
  · intro e he
    exact hbuilt.source e.2 (Entries.mem_values_iff.mpr ⟨e.1, he⟩)
  · intro e he
    exact hbuilt.target e.2 (Entries.mem_values_iff.mpr ⟨e.1, he⟩)

/-- Every simulator that a deployed connection names is deployed. -/
theorem Integral.owner_mem (h : s.Integral) {simulation : Option Simulation} {link : Osp.Link}
    {p : Osp.Terminal} (hlink : link ∈ (s.ospStructure simulation).connections.getD [])
    (hp : p ∈ link.terminals) :
  p.owner ∈ (s.ospStructure simulation).simulators.map (·.name)
  := by
  have hsimulators : (s.ospStructure simulation).simulators.map (·.name) = s.components.keys := by
    rw [← h.components.map_name, ospStructure, List.map_map]
    rfl
  rw [connections_ospStructure] at hlink
  obtain ⟨⟨c, kind⟩, hvalid, rfl⟩ := List.mem_map.mp hlink
  obtain ⟨key, hc⟩ := Entries.mem_values_iff.mp (mem_validConnections.mp hvalid).1
  have hends : p = c.source.terminal ∨ p = c.target.terminal := by
    cases kind <;> simpa [Connection.link, Osp.Link.terminals] using hp
  rw [hsimulators, ← Entries.has_iff]
  obtain rfl | rfl := hends
  · exact h.source _ hc
  · exact h.target _ hc

end System

end Cosim
