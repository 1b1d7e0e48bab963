import Cosim.Proofs.Deploy.Copying
import Cosim.Proofs.System.Opened

/-!
# Stages of a compile

A compile removes old results, copies FMUs, builds the system and writes outputs.  What a stage does
to the disk is known by file names: a removal leaves nothing new, a copy changes the file of its own
name, a build without proxies changes nothing, and outputs change only outputs.
-/

namespace Cosim

open Cosim.Action (Keeping keeping_bind keeping_pure keeping_throw keeping_mapM keeping_tryCatch
  keeping_writeText)
open Disk (Keeps)

/-! ## Outputs -/

namespace Case

variable {c : Case} {d d' : Disk}

/-- The names of the files that a compile writes. -/
inductive IsOutput : String → Prop where
  | model (component : String) : IsOutput (ospModelName component)
  | ospStructure : IsOutput ospStructureName
  | sspDescription : IsOutput sspDescriptionName
  | statistics : IsOutput statisticsName
  | watchPlan : IsOutput watchPlanName
  | graph : IsOutput graphName
  | renderedGraph : IsOutput (graphName ++ ".pdf")

/-- An output has its own name in the case folder. -/
theorem fileName?_output {folder name : String} (hname : Path.fileName? name = some name) :
  Path.fileName? (Path.join folder name) = some name
  := Path.fileName?_join_of_fileName? hname folder

/-- The description of a component is written under a name of outputs. -/
theorem exists_fileName?_ospModelName (component : String) :
  ∃ name, Path.fileName? (ospModelName component) = some name ∧ IsOutput name
  := by
  obtain ⟨front, hname⟩ :=
    Path.exists_fileName?_append component "_OspModelDescription.xml" (by decide) (by decide)
  exact ⟨_, hname, .model front⟩

/-- Writing an output touches no other name than its own. -/
theorem keeping_output {names : String → Prop} {file name : String}
    (hname : Path.fileName? file = some name) (hin : names name) (text : String) :
  Keeping names (c.output file text)
  := by
  apply keeping_bind
  · apply keeping_writeText (Path.fileName?_join_of_fileName? hname c.folder) hin
  · intro _
    apply keeping_pure

/-- Writing a dictionary touches no other name than its own. -/
theorem keeping_outputDictionary {names : String → Prop} {file name : String}
    (hname : Path.fileName? file = some name) (hin : names name) (dictionary : Dictionary) :
  Keeping names (c.outputDictionary file dictionary)
  := by
  apply keeping_bind
  · apply keeping_writeText (Path.fileName?_join_of_fileName? hname c.folder) hin
  · intro _
    apply keeping_pure

/-- Writing all outputs touches names of outputs only. -/
theorem keeping_writeOutputs (c : Case) :
  Keeping IsOutput c.writeOutputs
  := by
  rw [writeOutputs]
  cases c.system with
  | none => apply keeping_throw
  | some s =>
    apply keeping_bind
    · apply keeping_mapM
      intro component _
      obtain ⟨name, hname, hin⟩ := exists_fileName?_ospModelName component.name
      apply keeping_output hname hin
    · intro models
      apply keeping_bind (keeping_output rfl .ospStructure _)
      intro _
      apply keeping_bind (keeping_output rfl .sspDescription _)
      intro _
      apply keeping_bind (keeping_outputDictionary rfl .statistics _)
      intro _
      apply keeping_bind (keeping_outputDictionary rfl .watchPlan _)
      intro _
      apply keeping_pure

/-- An output that has been written has its text. -/
theorem output_eq_ok {file text path : String} (h : c.output file text d = .ok path d') :
  d'.content? (Path.join c.folder file) = some (Content.ofText text)
  := by
  simp only [output, Action.writeText, Action.bind_eq_ok, Action.pure_eq_ok] at h
  obtain ⟨_, _, hwrite, -, rfl⟩ := h
  obtain ⟨l, executable, hl, hne, hfolder, rfl⟩ := Action.write_eq_ok hwrite
  rw [Disk.content?, Action.find?_put hne hfolder hl]

/-- The two documents that refer to FMUs are in the case folder when all outputs are written. -/
theorem writeOutputs_eq_ok {s : System} {files : List String} (hsystem : c.system = some s)
    (h : c.writeOutputs d = .ok files d') :
  d'.content? (Path.join c.folder ospStructureName) =
    some (Content.ofText (Document.pretty (s.ospStructure c.simulation).toElement)) ∧
  d'.content? (Path.join c.folder sspDescriptionName) =
    some (Content.ofText (Document.pretty (s.sspDescription c.name c.simulation).toElement))
  := by
  simp only [writeOutputs, hsystem, Action.bind_eq_ok, Action.pure_eq_ok] at h
  obtain ⟨_, d₁, -, _, d₂, hosp, _, d₃, hssp, _, d₄, hstatistics, _, d₅, hplan, -, rfl⟩ := h
  have hafterOsp : Keeps (· ≠ ospStructureName) d₂ d₅ :=
    ((keeping_output rfl (by decide) _).of_ok hssp).trans
      (((keeping_outputDictionary rfl (by decide) _).of_ok hstatistics).trans
        ((keeping_outputDictionary rfl (by decide) _).of_ok hplan))
  have hafterSsp : Keeps (· ≠ sspDescriptionName) d₃ d₅ :=
    ((keeping_outputDictionary rfl (by decide) _).of_ok hstatistics).trans
      ((keeping_outputDictionary rfl (by decide) _).of_ok hplan)
  rw [hafterOsp.content?_eq (fileName?_output rfl) (by simp),
    hafterSsp.content?_eq (fileName?_output rfl) (by simp)]
  exact ⟨output_eq_ok hosp, output_eq_ok hssp⟩

end Case

/-- A renderer that changes nothing but its output. -/
def GraphRenderer.WritesOutput (renderer : GraphRenderer) : Prop :=
  ∀ source output name, Path.fileName? output = some name →
    Keeping (· = name) (renderer source output)

/-- An action that touches few names touches no more than many. -/
theorem Action.Keeping.mono {α : Type} {names more : String → Prop} {x : Action α}
    (h : Keeping names x) (hle : ∀ name, names name → more name) :
  Keeping more x
  := fun d => (h d).mono hle

namespace Case

variable {c : Case} {d d' : Disk}

/-- The names of the files that a graph is written to. -/
def IsGraph (name : String) : Prop := name = graphName ∨ name = graphName ++ ".pdf"

/-- The files of a graph are outputs. -/
theorem IsGraph.isOutput {name : String} (h : IsGraph name) :
  IsOutput name
  := by
  obtain rfl | rfl := h
  · apply IsOutput.graph
  · apply IsOutput.renderedGraph

/-- The OSP structure is no file of a graph. -/
theorem not_isGraph_ospStructureName :
  ¬ IsGraph ospStructureName
  := by
  rw [IsGraph]
  decide

/-- The SSP description is no file of a graph. -/
theorem not_isGraph_sspDescriptionName :
  ¬ IsGraph sspDescriptionName
  := by
  rw [IsGraph]
  decide

/-- Rendering a graph touches its own files only, if the renderer does. -/
theorem keeping_renderGraph {renderer : GraphRenderer} (h : renderer.WritesOutput) (folder : String)
    (s : System) :
  Keeping IsGraph (renderGraph folder s renderer)
  := by
  apply keeping_tryCatch
  · apply keeping_bind (keeping_writeText (fileName?_output rfl) (.inl rfl) _)
    intro _
    apply keeping_bind
    · exact (h _ _ _ (fileName?_output rfl)).mono fun _ => .inr
    · intro _
      apply keeping_pure
  · intro _
    apply keeping_pure

/-! ## Stages of a compile -/

/-- A case is read from its dictionary file alone. -/
theorem load_eq_ok_iff {path : String} :
  load path d = .ok c d' ↔ ∃ dictionary, Dictionary.load (d.absolute path) d = .ok dictionary d' ∧
    c = ofDictionary dictionary ((Path.parent? (d.absolute path)).getD ".")
  := by
  simp only [load, Action.bind_eq_ok, Action.get_eq_ok, Action.pure_eq_ok]
  constructor
  · rintro ⟨_, _, ⟨rfl, rfl⟩, dictionary, _, hload, rfl, rfl⟩
    exact ⟨dictionary, hload, rfl⟩
  · rintro ⟨dictionary, hload, rfl⟩
    exact ⟨d, d, ⟨rfl, rfl⟩, dictionary, d', hload, rfl, rfl⟩

/-- Loading a dictionary reads its file. -/
theorem reads_loadDictionary (path : String) :
  Action.Reads path (Dictionary.load path)
  := by
  apply Action.reads_of_isFile
  apply Action.reads_bind (Action.reads_readText path)
  intro text
  apply Action.reads_ofExcept

/-- Loading a case changes nothing. -/
theorem load_eq_ok {path : String} (h : load path d = .ok c d') :
  d' = d
  := by
  obtain ⟨dictionary, hload, -⟩ := load_eq_ok_iff.mp h
  exact ((reads_loadDictionary _).eq_ok hload).1

/-- Setting up a case builds the system of its dictionary and gives it the step size. -/
theorem setUp_eq_ok_iff {c₀ : Case} {tool : ProxyTool} :
  c₀.setUp tool d = .ok c d' ↔
    ∃ structureValue s, c₀.dictionary.get? "systemStructure" = some structureValue ∧
      System.build c₀.folder tool structureValue d = .ok s d' ∧
      c = { c₀ with system := some (s.withStepSize (c₀.simulation.bind (·.baseStepSize))) }
  := by
  rw [setUp]
  cases hvalue : c₀.dictionary.get? "systemStructure" with
  | none => simp [Action.throw_ne_ok]
  | some structureValue =>
    simp only [Action.bind_eq_ok, Action.pure_eq_ok]
    constructor
    · rintro ⟨s, _, hbuild, rfl, rfl⟩
      exact ⟨structureValue, s, rfl, hbuild, rfl⟩
    · rintro ⟨_, s, ⟨⟩, hbuild, rfl⟩
      exact ⟨s, d', hbuild, rfl, rfl⟩

/-- The records of the components of a case. -/
def records (c : Case) : Dictionary :=
  ((c.dictionary.get? "systemStructure").map (System.block · "components")).getD []

/-- Setting up adds a system of opened FMUs to a case. -/
theorem opened_setUp {c₀ : Case} {tool : ProxyTool}
    (hproxy : ∀ e ∈ c₀.records, ∀ entry, ComponentEntry.ofValue? e.2 = some entry →
      entry.Unproxied tool)
    (h : c₀.setUp tool d = .ok c d') :
  d' = d ∧ ∃ s, c = { c₀ with system := some s } ∧ ∀ component ∈ s.components.values,
    ∃ e ∈ c₀.records, ∃ entry, ComponentEntry.ofValue? e.2 = some entry ∧
      System.Opened d c₀.folder e.1 entry component
  := by
  obtain ⟨structureValue, s, hvalue, hbuild, hc⟩ := setUp_eq_ok_iff.mp h
  rw [records, hvalue] at hproxy ⊢
  obtain ⟨hsame, hopened⟩ := System.opened_build hproxy hbuild
  refine ⟨hsame, _, hc, ?_⟩
  intro component hmem
  rw [System.withStepSize, Entries.values, List.map_map] at hmem
  obtain ⟨⟨name, built⟩, hbuilt, rfl⟩ := List.mem_map.mp hmem
  obtain ⟨e, he, entry, hentry, hload⟩ := hopened built (List.mem_map_of_mem hbuilt)
  exact ⟨e, he, entry, hentry, hload.name_eq, hload.load⟩

/-- The part of a compile that copies FMUs and sets the case up. -/
def prepare (c : Case) (tool : ProxyTool) (ownFolder : Bool) : Action Case := do
  if !ownFolder then
    let _ ← c.copyFmus
  c.setUp tool

/-- The part of a compile that writes documents and the graph. -/
def emit (c : Case) (options : CompileOptions) (renderer : GraphRenderer) : Action PUnit := do
  if !options.inspect then
    let _ ← c.writeOutputs
    if options.graph then
      match c.system with
      | some system =>
        let _ ← renderGraph c.folder system renderer
      | none => pure ()

/-- The report of a compile. -/
def reportOf (c : Case) (options : CompileOptions) : List String :=
  if options.inspect then (c.system.map Report.system).getD [] else []

/-- Compiling loads, cleans up, prepares and emits, one after the other. -/
theorem compile_eq (options : CompileOptions) (tool : ProxyTool) (renderer : GraphRenderer)
    (path : String) :
  compile options tool renderer path = (do
    let c ← load path
    let ownFolder := c.usesOwnFolder (← get)
    let _ ← Results.remove c.folder ownFolder
    let c ← c.prepare tool ownFolder
    c.emit options renderer
    pure (c, c.reportOf options))
  := by
  have hemit (c : Case) : (do
      let report := if options.inspect then (c.system.map Report.system).getD [] else []
      if !options.inspect then
        let _ ← c.writeOutputs
        if options.graph then
          match c.system with
          | some system =>
            let _ ← renderGraph c.folder system renderer
          | none => pure ()
      pure (c, report) : Action (Case × List String)) = (do
      c.emit options renderer
      pure (c, c.reportOf options)) := by
    rw [emit, reportOf]
    cases options.inspect with
    | true => rfl
    | false =>
      cases options.graph with
      | false => simp
      | true => cases c.system <;> simp
  rw [compile]
  apply bind_congr
  intro c
  apply bind_congr
  intro d
  apply bind_congr
  intro removed
  cases c.usesOwnFolder d with
  | true => exact bind_congr hemit
  | false =>
    have hassoc : (c.prepare tool false >>= fun c => do
        c.emit options renderer
        pure (c, c.reportOf options)) = (do
        let _ ← c.copyFmus
        let c ← c.setUp tool
        c.emit options renderer
        pure (c, c.reportOf options)) := by
      apply bind_assoc
    rw [hassoc]
    exact bind_congr fun _ => bind_congr hemit

/-- Compiling succeeds exactly if all its stages do, each on the disk that the one before leaves. -/
theorem compile_eq_ok {options : CompileOptions} {tool : ProxyTool} {renderer : GraphRenderer}
    {path : String} {report : List String} :
  compile options tool renderer path d = .ok (c, report) d' ↔
    ∃ (c₀ : Case) (removed : List String) (d₁ d₂ : Disk), load path d = .ok c₀ d ∧
      Results.remove c₀.folder (c₀.usesOwnFolder d) d = .ok removed d₁ ∧
      c₀.prepare tool (c₀.usesOwnFolder d) d₁ = .ok c d₂ ∧
      c.emit options renderer d₂ = .ok () d' ∧ report = c.reportOf options
  := by
  simp only [compile_eq, Action.bind_eq_ok, Action.get_eq_ok, Action.pure_eq_ok]
  constructor
  · rintro ⟨c₀, _, hload, _, _, ⟨rfl, rfl⟩, removed, d₁, hremove, c₁, d₂, hprepare, _, _, hemit,
      heq, rfl⟩
    obtain ⟨rfl, rfl⟩ := Prod.mk.inj heq
    obtain rfl := load_eq_ok hload
    exact ⟨c₀, removed, d₁, d₂, hload, hremove, hprepare, hemit, rfl⟩
  · rintro ⟨c₀, removed, d₁, d₂, hload, hremove, hprepare, hemit, rfl⟩
    exact ⟨c₀, d, hload, d, d, ⟨rfl, rfl⟩, removed, d₁, hremove, c, d₂, hprepare, (), d', hemit,
      rfl, rfl⟩

/-- Preparing a case copies the FMUs unless they are in its own folder, and sets it up. -/
theorem prepare_eq_ok {c₀ : Case} {tool : ProxyTool} {ownFolder : Bool}
    (h : c₀.prepare tool ownFolder d = .ok c d') :
  ∃ d₁, (ownFolder = false → ∃ targets, c₀.copyFmus d = .ok targets d₁) ∧
    (ownFolder = true → d₁ = d) ∧ c₀.setUp tool d₁ = .ok c d'
  := by
  cases ownFolder with
  | true => exact ⟨d, by simp, fun _ => rfl, h⟩
  | false =>
    simp only [prepare, Bool.not_false, if_true, Action.bind_eq_ok] at h
    obtain ⟨targets, d₁, hcopy, hsetUp⟩ := h
    exact ⟨d₁, fun _ => ⟨targets, hcopy⟩, by simp, hsetUp⟩

/-- What is emitted are all outputs, and then a graph or nothing. -/
theorem emit_eq_ok_iff {options : CompileOptions} {renderer : GraphRenderer} {u : PUnit}
    (hinspect : options.inspect = false) :
  c.emit options renderer d = .ok u d' ↔
    ∃ s files d₁, c.system = some s ∧ c.writeOutputs d = .ok files d₁ ∧
      (options.graph = false → d' = d₁) ∧
      (options.graph = true → ∃ r, renderGraph c.folder s renderer d₁ = .ok r d')
  := by
  simp only [emit, hinspect, Bool.not_false, if_true, Action.bind_eq_ok]
  cases hsystem : c.system with
  | none => simp [writeOutputs, hsystem, Action.throw_ne_ok]
  | some s =>
    cases hgraph : options.graph with
    | false =>
      simp only [Bool.false_eq_true, if_false, Action.pure_eq_ok]
      constructor
      · rintro ⟨files, d₁, hwrite, -, rfl⟩
        exact ⟨s, files, d₁, rfl, hwrite, fun _ => rfl, by simp⟩
      · rintro ⟨_, files, d₁, -, hwrite, hplain, -⟩
        exact ⟨files, d₁, hwrite, trivial, (hplain trivial).symm⟩
    | true =>
      simp only [if_true, Action.bind_eq_ok, Action.pure_eq_ok]
      constructor
      · rintro ⟨files, d₁, hwrite, r, _, hrender, -, rfl⟩
        exact ⟨s, files, d₁, rfl, hwrite, by simp, fun _ => ⟨r, hrender⟩⟩
      · rintro ⟨_, files, d₁, ⟨⟩, hwrite, -, hdrawn⟩
        obtain ⟨r, hrender⟩ := hdrawn trivial
        exact ⟨files, d₁, hwrite, r, d', hrender, trivial, rfl⟩

/-- What the stages of a compile that writes outputs do to the disk: old results are removed, FMUs
are copied, the system is built of opened FMUs, and then only outputs are written. -/
structure Stages (c : Case) (s : System) (d d₁ d₂ d' : Disk) : Prop where
  system : c.system = some s
  removed : d₁.Within d
  copied : c.usesOwnFolder d = false → ∃ targets, c.copyFmus d₁ = .ok targets d₂
  uncopied : c.usesOwnFolder d = true → d₂ = d₁
  opened : ∀ component ∈ s.components.values, ∃ e ∈ c.records, ∃ entry,
    ComponentEntry.ofValue? e.2 = some entry ∧ System.Opened d₂ c.folder e.1 entry component
  kept : Keeps IsOutput d₂ d'
  ospStructure : d'.content? (Path.join c.folder ospStructureName) =
    some (Content.ofText (Document.pretty (s.ospStructure c.simulation).toElement))
  sspDescription : d'.content? (Path.join c.folder sspDescriptionName) =
    some (Content.ofText (Document.pretty (s.sspDescription c.name c.simulation).toElement))

/-- A case that is compiled without proxies has gone through all stages. -/
theorem stages_of_compile {options : CompileOptions} {tool : ProxyTool} {renderer : GraphRenderer}
    {path : String} {report : List String}
    (hcompile : compile options tool renderer path d = .ok (c, report) d')
    (hemit : options.inspect = false)
    (hproxy : ∀ e ∈ c.records, ∀ entry, ComponentEntry.ofValue? e.2 = some entry →
      entry.Unproxied tool)
    (hrenderer : options.graph = true → renderer.WritesOutput) :
  ∃ s d₁ d₂, c.Stages s d d₁ d₂ d'
  := by
  obtain ⟨c₀, removed, d₁, d₄, -, hremove, hprepare, hemitted, -⟩ := compile_eq_ok.mp hcompile
  obtain ⟨d₂, hcopied, huncopied, hsetUp⟩ := prepare_eq_ok hprepare
  have hrecords : c.records = c₀.records := by
    obtain ⟨structureValue, s, -, -, rfl⟩ := setUp_eq_ok_iff.mp hsetUp
    rfl
  rw [hrecords] at hproxy
  obtain ⟨rfl, s, rfl, hopened⟩ := opened_setUp hproxy hsetUp
  obtain ⟨s', files, d₃, hsystem, hwrite, hplain, hdrawn⟩ := (emit_eq_ok_iff hemit).mp hemitted
  have hgraph : Keeps IsGraph d₃ d' := by
    cases hoption : options.graph with
    | false =>
      rw [hplain hoption]
      apply Keeps.refl
    | true =>
      obtain ⟨r, hrender⟩ := hdrawn hoption
      apply (keeping_renderGraph (hrenderer hoption) _ _).of_ok hrender
  have hwritten := (keeping_writeOutputs _).of_ok hwrite
  obtain ⟨hosp, hssp⟩ := writeOutputs_eq_ok hsystem hwrite
  obtain rfl : s = s' := Option.some.inj hsystem
  refine ⟨_, d₁, _, hsystem, Results.remove_eq_ok hremove, hcopied, huncopied, hopened,
    hwritten.trans (hgraph.mono fun _ => IsGraph.isOutput), ?osp, ?ssp⟩
  case osp => rw [hgraph.content?_eq (fileName?_output rfl) not_isGraph_ospStructureName, hosp]
  case ssp => rw [hgraph.content?_eq (fileName?_output rfl) not_isGraph_sspDescriptionName, hssp]

end Case

end Cosim
