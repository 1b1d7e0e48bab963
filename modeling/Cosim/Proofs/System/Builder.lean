import Cosim.Proofs.FileName
import Cosim.Proofs.Fmu
import Cosim.Proofs.System.Component
import Cosim.System.Builder

/-!
# What builds give

Every component of a built system is one that a record of the structure makes of an FMU, and stands
under its own name.  Every endpoint of a connection was found among these components as its record
says: as a variable, or as a connector of the component or of another one.
-/

namespace Cosim

/-- The component that the record of an endpoint names: the one under the name, or, where there is
none, the one whose proxy was generated under that name. -/
def EndpointEntry.Names (components : Entries Component) (entry : EndpointEntry) (c : Component) :
    Prop :=
  components.get? entry.component = some c ∨
    components.get? entry.component = none ∧
      components.get? (entry.component ++ "-proxy") = some c

/-- How an endpoint was found among components, given its record. -/
inductive Endpoint.FoundIn (components : Entries Component) (entry : EndpointEntry) :
    Endpoint → Prop where
  | ofVariable {c : Component} {name : String} {v : Variable} (hnames : entry.Names components c)
    (hconnector : entry.connector = none) (hvariable : entry.variableName = some name)
    (hlookup : c.lookup? name = some v) :
    FoundIn components entry ⟨c.name, .variable v⟩
  | ofConnector {c : Component} {key : String} {k : Connector} (hnames : entry.Names components c)
    (hconnector : entry.connector = some key) (hvariable : entry.variableName = none)
    (hfound : System.findConnector? components c key = some k) :
    FoundIn components entry ⟨c.name, .connector k⟩

/-- Both ends of a connection were found as a value describes them. -/
def Connection.FoundIn (components : Entries Component) (v : Value) (c : Connection) : Prop :=
  ∃ entry, ConnectionEntry.ofValue? v = some entry ∧
    c.source.FoundIn components entry.source ∧ c.target.FoundIn components entry.target

/-- Components under their own names, each of which has a property. -/
structure Component.Listed (P : Component → Prop) (components : Entries Component) : Prop where
  nodup : components.keys.Nodup
  name_eq : ∀ e ∈ components, e.2.name = e.1
  holds : ∀ e ∈ components, P e.2

namespace Component.Listed

variable {P : Component → Prop} {components : Entries Component} {c : Component} {name : String}

theorem nil :
  Listed P []
  := ⟨List.nodup_nil, by simp, by simp⟩

/-- Components stay listed under their names when one is put under its own. -/
theorem put (h : Listed P components) (hc : P c) :
  Listed P (components.put c.name c)
  := by
  constructor
  · apply Entries.nodup_keys_put h.nodup
  · intro e he
    obtain rfl | he := Entries.mem_put he
    · rfl
    · apply h.name_eq e he
  · intro e he
    obtain rfl | he := Entries.mem_put he
    · apply hc
    · apply h.holds e he

/-- A component that is found under a name has that name. -/
theorem of_get? (h : Listed P components) (hget : components.get? name = some c) :
  components.get? c.name = some c ∧ P c
  := by
  have hmem := Entries.mem_of_get? hget
  rw [h.name_eq _ hmem]
  exact ⟨hget, h.holds _ hmem⟩

/-- Listed components have the names under which they stand. -/
theorem map_name (h : Listed P components) :
  components.values.map (·.name) = components.keys
  := by
  rw [Entries.values, Entries.keys, List.map_map]
  apply List.map_congr_left
  intro e he
  apply h.name_eq e he

/-- The component that a record names is found under its own name. -/
theorem of_names {entry : EndpointEntry} (h : Listed P components)
    (hnames : entry.Names components c) :
  components.get? c.name = some c ∧ P c
  := by
  obtain hget | ⟨-, hget⟩ := hnames
  · exact h.of_get? hget
  · exact h.of_get? hget

end Component.Listed

/-- What holds of every system that was built from a structure. -/
structure System.Sound (structureValue : Value) (s : System) : Prop where
  components : Component.Listed Component.Sound s.components
  connections : ∀ e ∈ s.connections, ∃ v, (e.1, v) ∈ System.block structureValue "connections" ∧
    e.2.FoundIn s.components v

namespace System

variable {folder name : String} {tool : ProxyTool} {d d' : Disk}

/-! ## Components -/

/-- A file at the top of the folder goes before the declared one. -/
theorem fmuPath_of_join {fmu : String} (h : Path.fileName? (Path.join folder fmu) = some name)
    (d : Disk) :
  fmuPath d folder fmu =
    if d.isFile (Path.join folder name) then Path.join folder name else Path.join folder fmu
  := by
  -- the equation of `fmuPath` takes long to derive
  delta fmuPath
  simp only [h]

/-- An FMU is taken from the case folder if a file of its name is there. -/
theorem fmuPath_of_fileName? {fmu : String} (h : Path.fileName? fmu = some name) (d : Disk)
    (folder : String) :
  fmuPath d folder fmu =
    if d.isFile (Path.join folder name) then Path.join folder name else Path.join folder fmu
  := fmuPath_of_join (Path.fileName?_join_of_fileName? h folder) d

/-- A component is made of its record and of an FMU. -/
theorem component_eq_ok {entry : ComponentEntry} {c : Component}
    (h : component folder tool name entry d = .ok c d') :
  ∃ finalName fmu, c = componentOf finalName fmu entry
  := by
  simp only [component, Action.bind_eq_ok, Action.get_eq_ok] at h
  obtain ⟨_, _, ⟨rfl, rfl⟩, _, _, ⟨rfl, rfl⟩, h⟩ := h
  split at h
  · simp only [Action.bind_eq_ok, Action.throw_ne_ok, false_and, exists_false] at h
  · simp only [Action.bind_eq_ok, Action.pure_eq_ok] at h
    obtain ⟨_, _, -, ⟨finalName, fmu⟩, _, -, rfl, -⟩ := h
    exact ⟨finalName, fmu, rfl⟩

/-- The component of an entry that asks for no proxy. -/
theorem component_of_load {entry : ComponentEntry} {fmu : Fmu}
    (hproxy : entry.generateProxy = false)
    (hload : Fmu.load (fmuPath d folder entry.fmu) d = .ok fmu d) :
  component folder tool name entry d = .ok (componentOf name fmu entry) d
  := by
  simp only [component, Action.bind_eq_ok, Action.get_eq_ok]
  refine ⟨d, d, ⟨rfl, rfl⟩, d, d, ⟨rfl, rfl⟩, ?_⟩
  rw [if_neg (by simp [(Fmu.load_eq_ok hload).1])]
  simp only [Action.bind_eq_ok, Action.pure_eq_ok]
  refine ⟨fmu, d, hload, (name, fmu), d, ?_, rfl, rfl⟩
  simp [proxied, hproxy, pure, EStateM.pure]

/-- A component without a proxy is added under the name of its entry. -/
theorem addComponents_cons_of_load {components : Entries Component} {v : Value}
    {entry : ComponentEntry} {fmu : Fmu} (block : Dictionary)
    (hentry : ComponentEntry.ofValue? v = some entry) (hproxy : entry.generateProxy = false)
    (hload : Fmu.load (fmuPath d folder entry.fmu) d = .ok fmu d) :
  addComponents folder tool components ((name, v) :: block) d =
    addComponents folder tool (components.put name (componentOf name fmu entry)) block d
  := by
  rw [addComponents, hentry]
  simp only [bind, EStateM.bind, component_of_load hproxy hload]
  rfl

/-- Components without proxies and under different names are added in order. -/
theorem addComponents_map {α : Type} {items : List α} {name : α → String} {value : α → Value}
    {entry : α → ComponentEntry} {fmu : α → Fmu} (hnames : (items.map name).Nodup)
    (hentry : ∀ a ∈ items, ComponentEntry.ofValue? (value a) = some (entry a))
    (hproxy : ∀ a ∈ items, (entry a).generateProxy = false)
    (hload : ∀ a ∈ items, Fmu.load (fmuPath d folder (entry a).fmu) d = .ok (fmu a) d) :
  addComponents folder tool [] (items.map fun a => (name a, value a)) d =
    .ok (items.map fun a => (name a, componentOf (name a) (fmu a) (entry a))) d
  := by
  have hfold (components : Entries Component) :
      addComponents folder tool components (items.map fun a => (name a, value a)) d =
        .ok ((items.map fun a => (name a, componentOf (name a) (fmu a) (entry a))).foldl
          (fun components e => components.put e.1 e.2) components) d := by
    clear hnames
    induction items generalizing components with
    | nil => rfl
    | cons a items ih =>
      rw [List.forall_mem_cons] at hentry hproxy hload
      rw [List.map_cons, addComponents_cons_of_load _ hentry.1 hproxy.1 hload.1,
        ih hentry.2 hproxy.2 hload.2]
      rfl
  have hkeys : (Entries.keys (items.map fun a =>
      (name a, componentOf (name a) (fmu a) (entry a)))).Nodup := by
    rw [Entries.keys, List.map_map]
    apply hnames
  rw [hfold]
  apply congrArg (EStateM.Result.ok · d) (Entries.ofPairs_eq_self hkeys)

/-- Whatever holds of all components that the entries of a block make holds of all components that
were added. -/
theorem listed_addComponents {P : Component → Prop} {components added : Entries Component}
    {block : Dictionary} (hlisted : Component.Listed P components)
    (hP : ∀ e ∈ block, ∀ entry, ComponentEntry.ofValue? e.2 = some entry →
      ∀ finalName fmu, P (componentOf finalName fmu entry))
    (h : addComponents folder tool components block d = .ok added d') :
  Component.Listed P added
  := by
  induction block generalizing components d with
  | nil =>
    obtain ⟨rfl, -⟩ := Action.pure_eq_ok.mp h
    apply hlisted
  | cons e block ih =>
    obtain ⟨key, v⟩ := e
    rw [List.forall_mem_cons] at hP
    rw [addComponents] at h
    cases hentry : ComponentEntry.ofValue? v with
    | none =>
      rw [hentry] at h
      apply ih hlisted hP.2 h
    | some entry =>
      rw [hentry] at h
      simp only [Action.bind_eq_ok] at h
      obtain ⟨c, _, hc, h⟩ := h
      obtain ⟨finalName, fmu, rfl⟩ := component_eq_ok hc
      apply ih (hlisted.put (hP.1 entry hentry finalName fmu)) hP.2 h

/-! ## Connections -/

/-- The component of a record is looked for as the record names it. -/
theorem findComponent?_eq_some_iff {components : Entries Component} {entry : EndpointEntry}
    {c : Component} :
  findComponent? components entry.component = some c ↔ entry.Names components c
  := Option.or_eq_some_iff

/-- Every endpoint that a record gives was found as the record says. -/
theorem foundIn_of_endpoint? {components : Entries Component} {entry : EndpointEntry} {e : Endpoint}
    (h : endpoint? components entry = some e) :
  e.FoundIn components entry
  := by
  simp only [endpoint?, Option.bind_eq_bind, Option.bind_eq_some_iff] at h
  obtain ⟨c, hc, h⟩ := h
  have hnames := findComponent?_eq_some_iff.mp hc
  split at h
  · rename_i hconnector hvariable
    simp only [Option.bind_eq_some_iff, Option.pure_def, Option.some.injEq] at h
    obtain ⟨k, hk, rfl⟩ := h
    exact .ofConnector hnames hconnector hvariable hk
  · rename_i hconnector hvariable
    simp only [Option.bind_eq_some_iff, Option.pure_def, Option.some.injEq] at h
    obtain ⟨v, hv, rfl⟩ := h
    exact .ofVariable hnames hconnector hvariable hv
  · cases h

/-- Both ends of a connection that a value gives were found as the value describes them. -/
theorem foundIn_of_connection? {components : Entries Component} {v : Value} {c : Connection}
    (h : connection? components name v = some c) :
  c.FoundIn components v
  := by
  simp only [connection?, Option.bind_eq_bind, Option.bind_eq_some_iff, Option.pure_def,
    Option.some.injEq] at h
  obtain ⟨entry, hentry, source, hsource, target, htarget, rfl⟩ := h
  exact ⟨entry, hentry, foundIn_of_endpoint? hsource, foundIn_of_endpoint? htarget⟩

/-! ## Systems -/

/-- A build makes the components in turn, and then the connections that can be resolved. -/
theorem build_eq_ok {structureValue : Value} {s : System} :
  build folder tool structureValue d = .ok s d' ↔
    addComponents folder tool [] (block structureValue "components") d = .ok s.components d' ∧
    Entries.ofPairs ((block structureValue "connections").filterMap
      fun (name, v) => (connection? s.components name v).map (name, ·)) = s.connections
  := by
  simp only [build, Action.bind_eq_ok, Action.pure_eq_ok]
  constructor
  · rintro ⟨components, _, hcomponents, rfl, rfl⟩
    exact ⟨hcomponents, rfl⟩
  · rintro ⟨hcomponents, hconnections⟩
    refine ⟨s.components, d', hcomponents, ?_, rfl⟩
    rw [hconnections]

/-- Every system that is built is sound. -/
theorem sound_build {structureValue : Value} {s : System}
    (h : build folder tool structureValue d = .ok s d') :
  s.Sound structureValue
  := by
  obtain ⟨hcomponents, hconnections⟩ := build_eq_ok.mp h
  have hlisted : Component.Listed Component.Sound s.components := by
    apply listed_addComponents Component.Listed.nil _ hcomponents
    intro e _ entry _ finalName fmu
    have hsound := Component.sound_ofFmu finalName fmu entry.connectors entry.named_initial
    exact ⟨hsound.named_variables, hsound.named_initial, hsound.grounded⟩
  refine ⟨hlisted, ?_⟩
  intro e he
  rw [← hconnections] at he
  have hmem := Entries.mem_of_mem_ofPairs he
  rw [List.mem_filterMap] at hmem
  obtain ⟨⟨name, v⟩, hv, hmap⟩ := hmem
  rw [Option.map_eq_some_iff] at hmap
  obtain ⟨c, hc, rfl⟩ := hmap
  exact ⟨v, hv, foundIn_of_connection? hc⟩

end System

end Cosim
