import Cosim.Proofs.System.Entry
import Cosim.Proofs.System.Turns

/-!
# Names of components

A component stands under the name of its record, which has the suffix `-proxy` if a proxy was
generated.  All components that were made are kept, in the order of their records, exactly if no
component with a proxy gets the name that another record has for itself.
-/

namespace Cosim

/-- A tool that copies an FMU to the path of its proxy. -/
def ProxyTool.copying : ProxyTool := fun fmu _ _ => do
  Action.copy fmu (proxyPath fmu)
  pure (proxyPath fmu)

namespace Fmu

/-- A copy of the FMU `speed` as its proxy. -/
def speedProxy : Fmu := { speed with file := "/speed-proxy.fmu" }

/-- The disk of samples with that proxy. -/
def proxyDisk : Disk :=
  sampleDisk.put ["speed-proxy.fmu"]
    (.file (.archive [(descriptionEntry, .ofText speedText)]) false)

/-- The tool that copies leaves a copy beside the FMU. -/
theorem copying_speed :
  ProxyTool.copying "/speed.fmu" "localhost" 9000 sampleDisk = .ok "/speed-proxy.fmu" proxyDisk
  := rfl

theorem load_speedProxy :
  load "/speed-proxy.fmu" proxyDisk = .ok speedProxy proxyDisk
  := by
  have hfile : proxyDisk.find? "/speed-proxy.fmu" =
    some (.file (.archive [(descriptionEntry, .ofText speedText)]) false) := rfl
  apply load_of_find? hfile rfl
  cbv

theorem load_blank_proxyDisk :
  load "/blank.fmu" proxyDisk = .ok blank proxyDisk
  := ((reads_load "/blank.fmu").eq_ok load_blank).2 proxyDisk rfl

end Fmu

namespace System

variable {folder : String} {tool : ProxyTool} {d d' : Disk} {turns : List Turn}
  {structureValue : Value}

/-! ## Distinct names -/

/-- The records of components have different names. -/
theorem nodup_names (hkeyed : structureValue.Keyed)
    (h : turns.map Turn.record = records structureValue) :
  (turns.map Turn.name).Nodup
  := by
  have hnames : turns.map Turn.name = (records structureValue).keys := by
    rw [← h, Entries.keys, List.map_map]
    rfl
  rw [hnames]
  apply Entries.nodup_map_filterMap (nodup_block hkeyed "components")
  intro e _ f hf
  obtain ⟨entry, -, rfl⟩ := Option.map_eq_some_iff.mp hf
  rfl

/-- A component with a proxy gets the name that another record has for itself. -/
def Clashes (turns : List Turn) : Prop :=
  ∃ t ∈ turns, ∃ u ∈ turns, t.isProxied = true ∧ u.isProxied = false ∧ u.name = t.name ++ "-proxy"

/-- Two records have different names, and so do two of them with the suffix. -/
theorem nodup_componentNames_iff (hnames : (turns.map Turn.name).Nodup)
    (hruns : Runs folder tool d turns d') :
  (turns.map (·.component.name)).Nodup ↔ ¬ Clashes turns
  := by
  have hname := hruns.forall_mem fun _ _ _ ht => ht.name_eq
  constructor
  · rintro hnodup ⟨t, ht, u, hu, hproxied, hplain, hclash⟩
    have hsame : u.component.name = t.component.name := by
      rw [hname t ht, hname u hu, if_pos hproxied, if_neg (by simp [hplain]), hclash]
    obtain rfl := List.inj_on_of_nodup_map hnodup hu ht hsame
    rw [hproxied] at hplain
    cases hplain
  · intro hclash
    apply (List.Nodup.of_map _ hnames).map_on
    intro t ht u hu hsame
    rw [hname t ht, hname u hu] at hsame
    apply List.inj_on_of_nodup_map hnames ht hu
    cases htp : t.isProxied with
    | true =>
      cases hup : u.isProxied with
      | true => simpa [htp, hup] using hsame
      | false => exact absurd ⟨t, ht, u, hu, htp, hup, by simpa [htp, hup] using hsame.symm⟩ hclash
    | false =>
      cases hup : u.isProxied with
      | true => exact absurd ⟨u, hu, t, ht, hup, htp, by simpa [htp, hup] using hsame⟩ hclash
      | false => simpa [htp, hup] using hsame

/-! ## Kept components -/

theorem keys_named (turns : List Turn) :
  Entries.keys (turns.map Turn.named) = turns.map (·.component.name)
  := by
  rw [Entries.keys, List.map_map]
  rfl

theorem map_snd_named (turns : List Turn) :
  (turns.map Turn.named).map Prod.snd = turns.map Turn.component
  := by
  rw [List.map_map]
  rfl

/-- A build makes one component of every well-formed record, in order, each under the name of its
record or, if its proxy was generated, under that name with the suffix.  The system has just these
components unless one of them takes the place of another one, which is where names clash. -/
theorem components_kept_iff {s : System} (hkeyed : structureValue.Keyed)
    (h : build folder tool structureValue d = .ok s d') :
  ∃ turns : List Turn, turns.map Turn.record = records structureValue ∧
    Runs folder tool d turns d' ∧
    (∀ t ∈ turns, t.component.name = if t.isProxied then t.name ++ "-proxy" else t.name) ∧
    s.components = Entries.ofPairs (turns.map Turn.named) ∧
    (s.components.values = turns.map Turn.component ↔ ¬ Clashes turns)
  := by
  obtain ⟨turns, hrecords, hruns, hcomponents⟩ := exists_runs_of_build h
  refine ⟨turns, hrecords, hruns, hruns.forall_mem fun _ _ _ ht => ht.name_eq, hcomponents, ?_⟩
  rw [← nodup_componentNames_iff (nodup_names hkeyed hrecords) hruns, ← keys_named,
    ← Entries.values_ofPairs_eq_iff, hcomponents, map_snd_named]

/-! ## A clash -/

/-- A component with a proxy, and another one that is named like it. -/
def eclipsing : Value :=
  let remote : Value := .object [("host", .text "localhost"), ("port", .number (.int 9000))]
  .object [("components", .object [
    ("engine", .object [("fmu", .text "speed.fmu"), ("generate_proxy", .bool true),
      ("remoteAccess", remote)]),
    ("engine-proxy", .object [("fmu", .text "blank.fmu")])])]

/-- The turns of a build of `eclipsing` with a tool that copies FMUs. -/
def eclipsingTurns : List Turn :=
  let remote : RemoteEntry := ⟨some "localhost", some (.number (.int 9000))⟩
  let engine : ComponentEntry := ⟨"speed.fmu", none, true, some remote, [], []⟩
  let other : ComponentEntry := ⟨"blank.fmu", none, false, none, [], []⟩
  [⟨"engine", engine, Fmu.speed, componentOf "engine-proxy" Fmu.speedProxy engine⟩,
    ⟨"engine-proxy", other, Fmu.blank, componentOf "engine-proxy" Fmu.blank other⟩]

/-- The system of `eclipsing`, which lacks the component with the proxy. -/
def eclipsed : System :=
  { components := [("engine-proxy", componentOf "engine-proxy" Fmu.blank
      ⟨"blank.fmu", none, false, none, [], []⟩)]
    connections := [] }

theorem runs_eclipsing :
  Runs "/" ProxyTool.copying Fmu.sampleDisk eclipsingTurns Fmu.proxyDisk
  := by
  have hblank : fmuPath Fmu.proxyDisk "/" "blank.fmu" = "/blank.fmu" := by decide +kernel
  refine Runs.cons (Turn.runs_of_tool rfl ?_ ?_ Fmu.copying_speed Fmu.load_speedProxy (by decide))
    (Runs.cons (Turn.runs_of_load rfl ?_) (Runs.nil _))
  · decide +kernel
  · exact Fmu.load_speed
  · rw [hblank]
    exact Fmu.load_blank_proxyDisk

theorem build_eclipsing :
  build "/" ProxyTool.copying eclipsing Fmu.sampleDisk = .ok eclipsed Fmu.proxyDisk
  := build_of_runs rfl runs_eclipsing rfl rfl

theorem keyed_eclipsing :
  eclipsing.Keyed
  := Value.keyed_of_isKeyed (by decide)

/-- The proxy of one component takes the place of another one, so the names clash. -/
theorem components_kept_eclipsing :
  eclipsing.Keyed ∧
    build "/" ProxyTool.copying eclipsing Fmu.sampleDisk = .ok eclipsed Fmu.proxyDisk ∧
    ∃ turns : List Turn, turns.map Turn.record = records eclipsing ∧
      Runs "/" ProxyTool.copying Fmu.sampleDisk turns Fmu.proxyDisk ∧
      (∀ t ∈ turns, t.component.name = if t.isProxied then t.name ++ "-proxy" else t.name) ∧
      eclipsed.components = Entries.ofPairs (turns.map Turn.named) ∧
      (eclipsed.components.values = turns.map Turn.component ↔ ¬ Clashes turns)
  := ⟨keyed_eclipsing, build_eclipsing, components_kept_iff keyed_eclipsing build_eclipsing⟩

/-- Of two well-formed records one may be left without a component. -/
theorem component_eclipsed :
  eclipsing.Keyed ∧
    build "/" ProxyTool.copying eclipsing Fmu.sampleDisk = .ok eclipsed Fmu.proxyDisk ∧
    (records eclipsing).keys = ["engine", "engine-proxy"] ∧
    eclipsed.components.values.map (fun c => (c.name, c.fmu.file)) =
      [("engine-proxy", "/blank.fmu")]
  := ⟨keyed_eclipsing, build_eclipsing, rfl, rfl⟩

end System

end Cosim
