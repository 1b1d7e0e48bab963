import Cosim.Proofs.System.Builder
import Cosim.Proofs.System.Entry

/-!
# Built systems

What is known of a system that was built without looking at the records again: its components stand
under their own names, with overrides that are aligned with the declared variables, and every
connection runs between two of them.  A step size that is given to the components changes none of
this.
-/

namespace Cosim

/-- What a build makes of an FMU: the overrides of different variables are aligned with the declared
variables, and no variable is added to these. -/
structure Component.Built (c : Component) : Prop where
  initial_eq : ∃ overrides : Entries Variable, overrides.keys.Nodup ∧ Variable.Named overrides ∧
    (∀ e ∈ overrides, e.2.IsOverride) ∧
    c.initial = (applyOverrides c.fmu.description.scalarVariables overrides).1
  has_eq : ∀ name, c.scalarVariables.has name = c.fmu.description.scalarVariables.has name

theorem Component.built_componentOf (name : String) (fmu : Fmu) {entry : ComponentEntry}
    (h : entry.overrides.keys.Nodup) :
  (System.componentOf name fmu entry).Built
  := by
  refine ⟨⟨entry.initial, ComponentEntry.nodup_initial h, entry.named_initial,
    entry.isOverride_initial, rfl⟩, ?_⟩
  apply Component.has_ofFmu name fmu entry.initial entry.connectors

/-- Components as they are built stand under their own names, and every connection runs between
two of them. -/
structure System.Built (s : System) : Prop where
  components : Component.Listed Component.Built s.components
  source : ∀ c ∈ s.connections.values, s.components.has c.source.component = true
  target : ∀ c ∈ s.connections.values, s.components.has c.target.component = true

/-- The component of an endpoint that was found is there. -/
theorem Endpoint.FoundIn.has {P : Component → Prop} {components : Entries Component}
    {entry : EndpointEntry} {e : Endpoint} (hlisted : Component.Listed P components)
    (h : e.FoundIn components entry) :
  components.has e.component = true
  := by
  cases h with
  | ofVariable hnames => rw [Entries.has, (hlisted.of_names hnames).1, Option.isSome_some]
  | ofConnector hnames => rw [Entries.has, (hlisted.of_names hnames).1, Option.isSome_some]

/-- Every system that is built from a keyed structure is as systems are built. -/
theorem System.built_build {folder : String} {tool : ProxyTool} {structureValue : Value}
    {d d' : Disk} {s : System} (hkeyed : structureValue.Keyed)
    (h : build folder tool structureValue d = .ok s d') :
  s.Built
  := by
  have hsound := sound_build h
  constructor
  · apply listed_addComponents Component.Listed.nil _ (build_eq_ok.mp h).1
    intro e he entry hentry finalName fmu
    apply Component.built_componentOf
    apply ComponentEntry.nodup_overrides (keyed_block hkeyed e he) hentry
  · intro c hc
    obtain ⟨name, hmem⟩ := Entries.mem_values_iff.mp hc
    obtain ⟨v, -, entry, -, hsource, -⟩ := hsound.connections _ hmem
    apply hsource.has hsound.components
  · intro c hc
    obtain ⟨name, hmem⟩ := Entries.mem_values_iff.mp hc
    obtain ⟨v, -, entry, -, -, htarget⟩ := hsound.connections _ hmem
    apply htarget.has hsound.components

theorem System.Built.withStepSize {s : System} (h : s.Built) (stepSize : Option Double) :
  (s.withStepSize stepSize).Built
  := by
  have hkeys : (s.withStepSize stepSize).components.keys = s.components.keys := by
    rw [System.withStepSize, Entries.keys, List.map_map]
    rfl
  have hhas (name : String) :
      (s.withStepSize stepSize).components.has name = s.components.has name := by
    rw [Bool.eq_iff_iff, Entries.has_iff, Entries.has_iff, hkeys]
  constructor
  · constructor
    · rw [hkeys]
      apply h.components.nodup
    · intro e he
      obtain ⟨e', he', rfl⟩ := List.mem_map.mp he
      apply h.components.name_eq e' he'
    · intro e he
      obtain ⟨e', he', rfl⟩ := List.mem_map.mp he
      obtain ⟨hinitial, hhas⟩ := h.components.holds e' he'
      exact ⟨hinitial, hhas⟩
  · intro c hc
    rw [hhas]
    apply h.source c hc
  · intro c hc
    rw [hhas]
    apply h.target c hc

end Cosim
