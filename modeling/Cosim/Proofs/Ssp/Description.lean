import Cosim.Proofs.Document.Field
import Cosim.Ssp.Description

/-!
# Written SSP descriptions

An SSP description is read again as it was from either of its written forms, if its strings can
stand in XML.
-/

namespace Cosim.Ssp

open Document (Form IsText Listed element many? one? optional?_text required?_text many?_map one?_eq
  one?_map)

/-! ## What a description holds -/

def Connector.strings (c : Connector) : List String :=
  c.name :: c.kind.toList ++ c.real.toList.flatMap (·.unit.toList)

def Component.strings (c : Component) : List String :=
  c.name :: c.source :: c.connectors.toList.flatMap (·.flatMap Connector.strings)

def Connection.strings (c : Connection) : List String :=
  [c.startElement, c.startConnector, c.endElement, c.endConnector]

def System.strings (s : System) : List String :=
  s.name :: s.description.toList ++ s.components.flatMap Component.strings ++
    s.connections.toList.flatMap (·.flatMap Connection.strings)

def FixedStep.strings (s : FixedStep) : List String :=
  s.baseStepSize.toList ++ s.startTime.toList ++ s.stopTime.toList

def Annotation.strings (a : Annotation) : List String :=
  a.type :: a.algorithm.toList.flatMap (·.fixedStep.toList.flatMap FixedStep.strings)

def Experiment.strings (x : Experiment) : List String :=
  x.startTime.toList ++ x.stopTime.toList ++
    x.annotations.toList.flatMap (·.flatMap Annotation.strings)

/-- The strings in a description. -/
def Description.strings (d : Description) : List String :=
  d.ssdSpace.toList ++ d.sscSpace.toList ++ d.ssvSpace.toList ++ d.ospSpace.toList ++
    [d.version, d.name] ++ d.system.strings ++ d.experiment.toList.flatMap Experiment.strings

/-- A description whose strings are made of characters of XML. -/
def Description.WellFormed (d : Description) : Prop := ∀ s ∈ d.strings, IsText s

/-! ## Reading what is written -/

/-- The type of a connector is read back. -/
theorem RealType.ofElement?_toElement (t : RealType) :
  ofElement? t.toElement = some t
  := by
  simp [ofElement?, toElement, optional?_text, List.lookup]

/-- A connector is read back. -/
theorem Connector.ofElement?_toElement (c : Connector) :
  ofElement? c.toElement = some c
  := by
  have hreal : one? RealType.ofElement? c.toElement "ssc:Real" = some c.real :=
    one?_map RealType.toElement (fun _ => rfl) fun t _ => t.ofElement?_toElement
  rw [ofElement?, hreal]
  simp [toElement, required?_text, optional?_text, List.lookup]

/-- A component is read back with its connectors. -/
theorem Component.ofElement?_toElement (c : Component) :
  ofElement? c.toElement = some c
  := by
  have hconnectors : one? (many? Connector.ofElement? · "ssd:Connector") c.toElement
      "ssd:Connectors" = some c.connectors :=
    one?_map (fun connectors : List Connector =>
        element "ssd:Connectors" [] (connectors.map Connector.toElement)) (fun _ => rfl)
      fun connectors _ =>
        many?_map Connector.toElement (fun _ => rfl) fun c _ => c.ofElement?_toElement
  rw [ofElement?, hconnectors]
  simp [toElement, required?_text, List.lookup]

/-- A connection is read back. -/
theorem Connection.ofElement?_toElement (c : Connection) :
  ofElement? c.toElement = some c
  := by
  simp [ofElement?, toElement, required?_text, List.lookup]

/-- A system is read back with its components and its connections. -/
theorem System.ofElement?_toElement (s : System) :
  ofElement? s.toElement = some s
  := by
  have hcomponents : one? (many? Component.ofElement? · "ssd:Component") s.toElement
      "ssd:Elements" = some (some s.components) := by
    apply one?_eq (f := fun components : List Component =>
      element "ssd:Elements" [] (components.map Component.toElement))
    · simp
    · rintro components ⟨⟩
      exact many?_map Component.toElement (fun _ => rfl) fun c _ => c.ofElement?_toElement
  have hconnections : one? (many? Connection.ofElement? · "ssd:Connection") s.toElement
      "ssd:Connections" = some s.connections := by
    apply one?_eq (f := fun connections : List Connection =>
      element "ssd:Connections" [] (connections.map Connection.toElement))
    · simp
    · rintro connections -
      exact many?_map Connection.toElement (fun _ => rfl) fun c _ => c.ofElement?_toElement
  rw [ofElement?, hcomponents, hconnections]
  simp [toElement, required?_text, optional?_text, List.lookup]

/-- A fixed step is read back. -/
theorem FixedStep.ofElement?_toElement (s : FixedStep) :
  ofElement? s.toElement = some s
  := by
  simp [ofElement?, toElement, optional?_text, List.lookup]

/-- An algorithm is read back. -/
theorem Algorithm.ofElement?_toElement (a : Algorithm) :
  ofElement? a.toElement = some a
  := by
  have hstep : one? FixedStep.ofElement? a.toElement "osp:FixedStepAlgorithm" = some a.fixedStep :=
    one?_map FixedStep.toElement (fun _ => rfl) fun s _ => s.ofElement?_toElement
  rw [ofElement?, hstep]
  rfl

/-- An annotation is read back. -/
theorem Annotation.ofElement?_toElement (a : Annotation) :
  ofElement? a.toElement = some a
  := by
  have halgorithm : one? Algorithm.ofElement? a.toElement "osp:Algorithm" = some a.algorithm :=
    one?_map Algorithm.toElement (fun _ => rfl) fun x _ => x.ofElement?_toElement
  rw [ofElement?, halgorithm]
  simp [toElement, required?_text, List.lookup]

/-- An experiment is read back with its annotations. -/
theorem Experiment.ofElement?_toElement (x : Experiment) :
  ofElement? x.toElement = some x
  := by
  have hannotations : one? (many? Annotation.ofElement? · "ssc:Annotation") x.toElement
      "ssd:Annotations" = some x.annotations :=
    one?_map (fun annotations : List Annotation =>
        element "ssd:Annotations" [] (annotations.map Annotation.toElement)) (fun _ => rfl)
      fun annotations _ =>
        many?_map Annotation.toElement (fun _ => rfl) fun a _ => a.ofElement?_toElement
  rw [ofElement?, hannotations]
  simp [toElement, optional?_text, List.lookup]

/-- A description is read back from its element. -/
theorem Description.ofElement?_toElement (d : Description) :
  ofElement? d.toElement = some d
  := by
  have hexperimentName (x : Experiment) : x.toElement.name = "ssd:DefaultExperiment" := rfl
  have hsystemName : d.system.toElement.name = "ssd:System" := rfl
  have hsystem : one? System.ofElement? d.toElement "ssd:System" = some (some d.system) := by
    apply one?_eq (f := System.toElement)
    · simp [Document.filter_map_name hexperimentName, hsystemName]
    · rintro s ⟨⟩
      apply System.ofElement?_toElement
  have hexperiment : one? Experiment.ofElement? d.toElement "ssd:DefaultExperiment" =
      some d.experiment := by
    apply one?_eq (f := Experiment.toElement)
    · simp [Document.filter_map_name hexperimentName, hsystemName]
    · exact fun x _ => x.ofElement?_toElement
  rw [ofElement?, hsystem, hexperiment]
  simp [toElement, required?_text, optional?_text, List.lookup]

/-! ## Forms -/

/-- A connector is listed by every form that knows connectors, if its texts can be written. -/
theorem Connector.listed {known : List (String × Form)} {c : Connector}
    (hknown : known.lookup "ssd:Connector" = some (.children [("ssc:Real", .leaf)]))
    (h : ∀ s ∈ c.strings, IsText s) :
  Listed known [c.toElement]
  := by
  simp only [strings, List.forall_mem_append, List.forall_mem_cons, List.forall_mem_flatMap] at h
  obtain ⟨⟨hname, hkind⟩, hreal⟩ := h
  apply Listed.of_element hknown rfl (by simp; decide) (by simpa using And.intro hname hkind)
  apply Listed.map
  intro t ht
  apply Listed.of_element rfl rfl (by simp; decide) (by simpa using hreal t ht) (.nil _)

/-- A component is listed by every form that knows components, if its texts can be written. -/
theorem Component.listed {known : List (String × Form)} {c : Component}
    (hknown : known.lookup "ssd:Component" = some (.children [("ssd:Connectors",
      .children [("ssd:Connector", .children [("ssc:Real", .leaf)])])]))
    (h : ∀ s ∈ c.strings, IsText s) :
  Listed known [c.toElement]
  := by
  simp only [strings, List.forall_mem_cons, List.forall_mem_flatMap] at h
  obtain ⟨hname, hsource, hconnectors⟩ := h
  apply Listed.of_element hknown rfl (by simp; decide) (by simpa using And.intro hname hsource)
  apply Listed.map
  intro connectors hmem
  apply Listed.of_element rfl rfl (List.forall_mem_nil _) (List.forall_mem_nil _)
  exact .map fun c hc => Connector.listed rfl (hconnectors connectors hmem c hc)

/-- A connection is listed by every form that knows connections, if its texts can be written. -/
theorem Connection.listed {known : List (String × Form)} {c : Connection}
    (hknown : known.lookup "ssd:Connection" = some .leaf) (h : ∀ s ∈ c.strings, IsText s) :
  Listed known [c.toElement]
  := by
  apply Listed.of_element hknown rfl (by simp; decide) _ (.nil _)
  simpa [strings] using h

/-- A system is listed by every form that knows systems, if its texts can be written. -/
theorem System.listed {known : List (String × Form)} {s : System}
    (hknown : known.lookup "ssd:System" = Description.known.lookup "ssd:System")
    (h : ∀ t ∈ s.strings, IsText t) :
  Listed known [s.toElement]
  := by
  simp only [strings, List.forall_mem_append, List.forall_mem_cons, List.forall_mem_flatMap] at h
  obtain ⟨⟨⟨hname, hdescription⟩, hcomponents⟩, hconnections⟩ := h
  apply Listed.of_element hknown rfl (by simp; decide)
    (by simpa using And.intro hname hdescription)
  apply Listed.cons
  · apply Listed.of_element rfl rfl (List.forall_mem_nil _) (List.forall_mem_nil _)
    exact .map fun c hc => Component.listed rfl (hcomponents c hc)
  · apply Listed.map
    intro connections hmem
    apply Listed.of_element rfl rfl (List.forall_mem_nil _) (List.forall_mem_nil _)
    exact .map fun c hc => Connection.listed rfl (hconnections connections hmem c hc)

/-- A fixed step is listed by every form that knows fixed steps, if its texts can be written. -/
theorem FixedStep.listed {known : List (String × Form)} {s : FixedStep}
    (hknown : known.lookup "osp:FixedStepAlgorithm" = some .leaf)
    (h : ∀ t ∈ s.strings, IsText t) :
  Listed known [s.toElement]
  := by
  rw [strings, List.forall_mem_append, List.forall_mem_append] at h
  obtain ⟨⟨hsize, hstart⟩, hstop⟩ := h
  apply Listed.of_element hknown rfl (by simp; decide) _ (.nil _)
  simpa using And.intro hsize (And.intro hstart hstop)

/-- An annotation is listed by every form that knows annotations, if its texts can be written. -/
theorem Annotation.listed {known : List (String × Form)} {a : Annotation}
    (hknown : known.lookup "ssc:Annotation" = some (.children [("osp:Algorithm",
      .children [("osp:FixedStepAlgorithm", .leaf)])]))
    (h : ∀ s ∈ a.strings, IsText s) :
  Listed known [a.toElement]
  := by
  simp only [strings, List.forall_mem_cons, List.forall_mem_flatMap] at h
  obtain ⟨htype, hsteps⟩ := h
  apply Listed.of_element hknown rfl (by simp; decide) (by simpa using htype)
  apply Listed.map
  intro algorithm hmem
  apply Listed.of_element rfl rfl (List.forall_mem_nil _) (List.forall_mem_nil _)
  exact .map fun s hs => FixedStep.listed rfl (hsteps algorithm hmem s hs)

/-- An experiment is listed by every form that knows experiments, if its texts can be written. -/
theorem Experiment.listed {known : List (String × Form)} {x : Experiment}
    (hknown : known.lookup "ssd:DefaultExperiment" =
      Description.known.lookup "ssd:DefaultExperiment")
    (h : ∀ s ∈ x.strings, IsText s) :
  Listed known [x.toElement]
  := by
  simp only [strings, List.forall_mem_append, List.forall_mem_flatMap] at h
  obtain ⟨⟨hstart, hstop⟩, hannotations⟩ := h
  apply Listed.of_element hknown rfl (by simp; decide) (by simpa using And.intro hstart hstop)
  apply Listed.map
  intro annotations hmem
  apply Listed.of_element rfl rfl (List.forall_mem_nil _) (List.forall_mem_nil _)
  exact .map fun a ha => Annotation.listed rfl (hannotations annotations hmem a ha)

namespace Description

/-- A well-formed description is listed by the form of descriptions. -/
theorem listed {d : Description} (h : d.WellFormed) :
  Listed [(rootName, .children known)] [d.toElement]
  := by
  simp only [WellFormed, strings, List.forall_mem_append, List.forall_mem_cons,
    List.forall_mem_flatMap] at h
  obtain ⟨⟨⟨⟨⟨⟨hssd, hssc⟩, hssv⟩, hosp⟩, hversion, hname, -⟩, hsystem⟩, hexperiment⟩ := h
  apply Listed.of_element rfl rfl (by simp; decide)
    (by simpa using And.intro hssd (And.intro hssc (And.intro hssv (And.intro hosp
      (And.intro hversion hname)))))
  apply Listed.cons (System.listed rfl hsystem)
  exact .map fun x hx => Experiment.listed rfl (hexperiment x hx)

/-- A description is read again from either of its written forms. -/
theorem WellFormed.survives {d : Description} (h : d.WellFormed) :
  Document.Survives read? d.toElement d
  := Document.survives_of_listed (listed h) (ofElement?_toElement d)

end Description

end Cosim.Ssp
