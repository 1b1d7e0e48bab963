import Cosim.Proofs.Deploy.Stages

/-!
# References to FMUs

The documents that a compile writes refer to FMUs by file names, relative to the case folder.  Where
the FMUs were copied, every reference leads to the copy of the first declared path of its name.
Where the library is the case folder itself nothing is copied: a reference leads to a file at the
top of the folder, and to nothing if the FMU lies deeper.
-/

namespace Cosim

namespace Case

variable {c : Case} {d d' d₁ d₂ : Disk} {s : System} {component : Component} {name : String}
  {v : Value} {entry : ComponentEntry}

/-! ## Declared paths -/

/-- Unless it is a list, a record that can be read declares the path that is read from it. -/
theorem declaredFmu?_of_ofValue? (hentry : ComponentEntry.ofValue? v = some entry)
    (hobject : v.isObject = true) :
  declaredFmu? v = some entry.fmu
  := by
  cases v with
  | object es =>
    simp only [ComponentEntry.ofValue?, Option.bind_eq_bind, Option.bind_eq_some_iff] at hentry
    obtain ⟨found, hfound, hentry⟩ := hentry
    simp only [Dictionary.record?, ComponentEntry.fields, List.mapM_cons,
      Dictionary.fieldOf?_plain, Option.bind_eq_bind, Option.bind_some, Option.bind_eq_some_iff]
      at hfound
    obtain ⟨more, -, hfound⟩ := hfound
    obtain rfl := Option.some.inj hfound
    split at hentry
    · rename_i fmu stepSize generateProxy remote overrides connectors hfields
      obtain ⟨hfmu, -⟩ := List.cons.inj hfields
      simp only [Option.bind_eq_some_iff, Option.pure_def, Option.some.injEq] at hentry
      obtain ⟨path, hpath, _, -, _, -, _, -, _, -, rfl⟩ := hentry
      rw [← hfmu] at hpath
      apply hpath
    · cases hentry
  | _ => cases hobject

theorem lookup_components (es : Dictionary) :
  es.lookup "systemStructure.components" =
    (es.get? "systemStructure").bind (·.get? "components")
  := by
  have hpath : (Dictionary.splitDots "systemStructure.components".toList).map String.ofList =
      ["systemStructure", "components"] := by
    decide +kernel
  rw [Dictionary.lookup, hpath]
  rfl

theorem declaredFmus_eq (c : Case) :
  c.declaredFmus = c.records.values.filterMap declaredFmu?
  := by
  rw [declaredFmus, lookup_components, records]
  cases c.dictionary.get? "systemStructure" <;> rfl

theorem mem_declaredFmus (hrecord : (name, v) ∈ c.records)
    (hentry : ComponentEntry.ofValue? v = some entry) (hobject : v.isObject = true) :
  entry.fmu ∈ c.declaredFmus
  := by
  rw [declaredFmus_eq, List.mem_filterMap]
  exact ⟨v, List.mem_map_of_mem hrecord, declaredFmu?_of_ofValue? hentry hobject⟩

/-! ## References -/

/-- A source that leads from the case folder to the content of another path, which is still
there. -/
def Resolves (c : Case) (d d' : Disk) (origin source : String) : Prop :=
  ∃ content, d.content? origin = some content ∧ d'.content? origin = some content ∧
    d'.content? (Path.join c.folder source) = some content

/-- What a source leads to that stands for a component of a case, if no output has its name. -/
structure Reference (c : Case) (d d' : Disk) (name source : String) (v : Value)
    (entry : ComponentEntry) : Prop where
  record : (name, v) ∈ c.records
  read : ComponentEntry.ofValue? v = some entry
  /-- a copied FMU is that of the first declared path of its file name -/
  copied : c.usesOwnFolder d = false → v.isObject = true → ¬ IsOutput source →
    ∃ first, c.declaredFmus.find? (sameName · entry.fmu) = some first ∧
      Path.fileName? first = some source ∧ c.Resolves d d' (Path.join c.library first) source
  /-- an FMU at the top of the case folder is found where it is -/
  direct : c.usesOwnFolder d = true → Path.fileName? entry.fmu = some entry.fmu →
    ¬ IsOutput source → source = entry.fmu ∧ c.Resolves d d' (Path.join c.folder entry.fmu) source
  /-- an FMU that lies deeper is not found -/
  dangling : c.usesOwnFolder d = true → Path.fileName? entry.fmu = some source →
    ¬ IsOutput source → d.isFile (Path.join c.folder source) = false →
      d'.isFile (Path.join c.folder source) = false

/-- The FMU of a component that is opened at the top of the folder has the name of its file. -/
theorem fileName_of_opened {folder : String} (hopened : System.Opened d folder name entry component)
    {source : String} (hsource : Path.fileName? source = some source)
    (hpath : System.fmuPath d folder entry.fmu = Path.join folder source) :
  component.fmu.fileName = source
  := by
  have hload := hopened.load
  rw [hpath] at hload
  obtain ⟨-, hfile, -⟩ := Fmu.load_eq_ok hload
  rw [Fmu.fileName, hfile, Path.fileName?_join_of_fileName? hsource, Option.getD_some]

namespace Stages

theorem copied_resolves (stages : c.Stages s d d₁ d₂ d')
    (hopened : System.Opened d₂ c.folder name entry component) (hown : c.usesOwnFolder d = false)
    (hmem : entry.fmu ∈ c.declaredFmus) (hout : ¬ IsOutput component.fmu.fileName) :
  ∃ first, c.declaredFmus.find? (sameName · entry.fmu) = some first ∧
    Path.fileName? first = some component.fmu.fileName ∧
    c.Resolves d d' (Path.join c.library first) component.fmu.fileName
  := by
  obtain ⟨targets, hcopy⟩ := stages.copied hown
  obtain ⟨first, source, hfind, hname, hfirst, content, hcontent, hcopied⟩ :=
    copyFmus_eq_ok hcopy _ hmem
  have hisFile : d₂.isFile (Path.join c.folder source) = true := by
    obtain hempty | ⟨hplaced, -⟩ := hcopied
    · exact Disk.isFile_iff.mpr ⟨_, hempty⟩
    · exact Disk.isFile_iff.mpr ⟨_, hplaced⟩
  have hpath := System.fmuPath_of_fileName? hname d₂ c.folder
  rw [if_pos hisFile] at hpath
  have hsource := fileName_of_opened hopened (Path.fileName?_of_fileName? hname) hpath
  have hload := hopened.load
  rw [hpath] at hload
  obtain ⟨hplaced, hkept⟩ := hcopied.resolve_left (Fmu.content?_ne_empty hload)
  rw [hsource] at hout ⊢
  refine ⟨first, hfind, hfirst, content, stages.removed.content?_eq hcontent, ?_, ?_⟩
  · rw [stages.kept.content?_eq (Path.fileName?_join_of_fileName? hfirst _) hout, hkept]
  · rw [stages.kept.content?_eq (Path.fileName?_join_of_fileName? (Path.fileName?_of_fileName? hname) _)
      hout, hplaced]

theorem direct_resolves (stages : c.Stages s d d₁ d₂ d')
    (hopened : System.Opened d₂ c.folder name entry component) (hown : c.usesOwnFolder d = true)
    (hname : Path.fileName? entry.fmu = some entry.fmu)
    (hout : ¬ IsOutput component.fmu.fileName) :
  component.fmu.fileName = entry.fmu ∧
    c.Resolves d d' (Path.join c.folder entry.fmu) component.fmu.fileName
  := by
  have hpath : System.fmuPath d₂ c.folder entry.fmu = Path.join c.folder entry.fmu := by
    rw [System.fmuPath_of_fileName? hname, ite_self]
  have hsource := fileName_of_opened hopened hname hpath
  have hload := hopened.load
  rw [hpath] at hload
  obtain ⟨content, hcontent⟩ := Disk.isFile_iff.mp (Fmu.load_eq_ok hload).1
  rw [hsource] at hout ⊢
  have hkept := (stages.kept.content?_eq (Path.fileName?_join_of_fileName? hname c.folder) hout).trans
    hcontent
  rw [stages.uncopied hown] at hcontent
  exact ⟨rfl, content, stages.removed.content?_eq hcontent, hkept, hkept⟩

theorem dangles (stages : c.Stages s d d₁ d₂ d') (hown : c.usesOwnFolder d = true)
    {source : String} (hname : Path.fileName? entry.fmu = some source) (hout : ¬ IsOutput source)
    (hnone : d.isFile (Path.join c.folder source) = false) :
  d'.isFile (Path.join c.folder source) = false
  := by
  rw [stages.kept.isFile_eq (Path.fileName?_join_of_fileName? (Path.fileName?_of_fileName? hname) _)
    hout, stages.uncopied hown, Bool.eq_false_iff]
  intro hfile
  obtain ⟨content, hcontent⟩ := Disk.isFile_iff.mp hfile
  rw [Disk.isFile_iff.mpr ⟨content, stages.removed.content?_eq hcontent⟩] at hnone
  cases hnone

theorem reference (stages : c.Stages s d d₁ d₂ d')
    (hopened : System.Opened d₂ c.folder name entry component) (hrecord : (name, v) ∈ c.records)
    (hread : ComponentEntry.ofValue? v = some entry) :
  c.Reference d d' component.name component.fmu.fileName v entry
  where
  record := by rw [hopened.name_eq]; exact hrecord
  read := hread
  copied hown hobject hout :=
    stages.copied_resolves hopened hown (mem_declaredFmus hrecord hread hobject) hout
  direct hown hname hout := stages.direct_resolves hopened hown hname hout
  dangling hown hname hout hnone := stages.dangles hown hname hout hnone

end Stages

/-- The documents of a case whose components refer to their FMUs. -/
structure Referring (c : Case) (s : System) (d d' : Disk) : Prop where
  system : c.system = some s
  ospStructure : d'.content? (Path.join c.folder ospStructureName) =
    some (Content.ofText (Document.pretty (s.ospStructure c.simulation).toElement))
  sspDescription : d'.content? (Path.join c.folder sspDescriptionName) =
    some (Content.ofText (Document.pretty (s.sspDescription c.name c.simulation).toElement))
  simulators : ∀ simulator ∈ (s.ospStructure c.simulation).simulators, ∃ v entry,
    c.Reference d d' simulator.name simulator.source v entry
  components : ∀ component ∈ (s.sspDescription c.name c.simulation).system.components, ∃ v entry,
    c.Reference d d' component.name component.source v entry

/-- A compile that makes no proxies writes documents whose references lead to copied FMUs and to
those at the top of the case folder. -/
theorem references_resolve {options : CompileOptions} {tool : ProxyTool}
    {renderer : GraphRenderer} {path : String} {report : List String}
    (hcompile : compile options tool renderer path d = .ok (c, report) d')
    (hemit : options.inspect = false)
    (hproxy : ∀ e ∈ c.records, ∀ entry, ComponentEntry.ofValue? e.2 = some entry →
      entry.Unproxied tool)
    (hrenderer : options.graph = true → renderer.WritesOutput) :
  ∃ s, c.Referring s d d'
  := by
  obtain ⟨s, d₁, d₂, stages⟩ := stages_of_compile hcompile hemit hproxy hrenderer
  have hall : ∀ component ∈ s.components.values, ∃ v entry,
      c.Reference d d' component.name component.fmu.fileName v entry := by
    intro component hmem
    obtain ⟨⟨name, v⟩, hrecord, entry, hread, hopened⟩ := stages.opened component hmem
    exact ⟨v, entry, stages.reference hopened hrecord hread⟩
  exact ⟨s, stages.system, stages.ospStructure, stages.sspDescription,
    List.forall_mem_map.mpr hall, List.forall_mem_map.mpr hall⟩

/-! ## FMUs in a folder of the library -/

/-- A case dictionary with one component, whose FMU lies in a folder of the library. -/
def nestedText (library : String) : String :=
  "\x7b\"_environment\": \x7b\"libSource\": \"../" ++ library ++ "\"\x7d, " ++
  "\"systemStructure\": \x7b\"components\": \x7b\"hull\": " ++
  "\x7b\"fmu\": \"sub/hull.fmu\"\x7d\x7d\x7d\x7d"

def nestedDisk (library : String) : Disk where
  items := [(["case"], .folder), (["lib"], .folder), ([library, "sub"], .folder),
    ([library, "sub", "hull.fmu"],
      .file (.archive [(Fmu.descriptionEntry, .ofText Fmu.blankText)]) false),
    (["case", "case.json"], .file (.ofText (nestedText library)) false)]
  current := []

def nestedCompile : Action (Case × List String) :=
  compile ⟨false, true⟩ (fun fmu _ _ => pure fmu) (fun _ output => Action.writeText output "")
    "/case/case.json"

/-- The sources in the documents of a case. -/
def sources (c : Case) : List String :=
  match c.system with
  | none => []
  | some s => (s.ospStructure c.simulation).simulators.map (·.source) ++
    (s.sspDescription c.name c.simulation).system.components.map (·.source)

set_option maxRecDepth 100000 in
/-- In a library of its own, the FMU is copied to where the documents say. -/
theorem references_resolve_nested :
  ∃ c s report d', nestedCompile (nestedDisk "lib") = .ok (c, report) d' ∧
    c.usesOwnFolder (nestedDisk "lib") = false ∧ c.sources = ["hull.fmu", "hull.fmu"] ∧
    c.Referring s (nestedDisk "lib") d'
  := by
  have hrun : nestedCompile.gives (nestedDisk "lib") (fun (c, _) _ =>
      !c.usesOwnFolder (nestedDisk "lib") && c.sources == ["hull.fmu", "hull.fmu"] &&
      c.records.all fun e => (ComponentEntry.ofValue? e.2).all fun entry => !entry.generateProxy) =
        true := by
    decide +kernel
  obtain ⟨⟨c, report⟩, d', hcompile, hcase⟩ := Action.exists_of_gives hrun
  simp only [Bool.and_eq_true, Bool.not_eq_true', beq_iff_eq] at hcase
  obtain ⟨⟨hown, hsources⟩, hplain⟩ := hcase
  have hproxy : ∀ e ∈ c.records, ∀ entry, ComponentEntry.ofValue? e.2 = some entry →
      entry.Unproxied fun fmu _ _ => pure fmu := by
    intro e he entry hentry
    have hflag := List.all_eq_true.mp hplain e he
    rw [hentry, Option.all_some, Bool.not_eq_true'] at hflag
    refine ComponentEntry.unproxied_of_fails fun hask => ?_
    rw [hflag] at hask
    cases hask
  have hrenderer : GraphRenderer.WritesOutput fun _ output => Action.writeText output "" := by
    intro source output name hname
    apply Action.keeping_writeText hname
    rfl
  obtain ⟨s, hreferring⟩ := references_resolve hcompile rfl hproxy fun _ => hrenderer
  exact ⟨c, s, report, d', hcompile, hown, hsources, hreferring⟩

set_option maxRecDepth 100000 in
/-- In the case folder itself, the FMU stays where it is, and the documents lead to nothing. -/
theorem references_dangle_nested :
  ∃ c report d', nestedCompile (nestedDisk "case") = .ok (c, report) d' ∧
    c.sources = ["hull.fmu", "hull.fmu"] ∧ d'.isFile (Path.join c.folder "hull.fmu") = false
  := by
  have hrun : nestedCompile.gives (nestedDisk "case") (fun (c, _) d' =>
      c.sources == ["hull.fmu", "hull.fmu"] && !d'.isFile (Path.join c.folder "hull.fmu")) =
        true := by
    decide +kernel
  obtain ⟨⟨c, report⟩, d', hcompile, hcase⟩ := Action.exists_of_gives hrun
  simp only [Bool.and_eq_true, Bool.not_eq_true', beq_iff_eq] at hcase
  exact ⟨c, report, d', hcompile, hcase.1, hcase.2⟩

end Case

end Cosim
