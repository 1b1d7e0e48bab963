import Cosim.Proofs.Deploy.References
import Cosim.Proofs.Disk.Alike

/-!
# Resolved FMUs

Copying and building take file names from the paths of a case dictionary independently of each
other.  They agree where the FMUs lie outside the case folder: whatever path a component declares,
the build finds the copy of the first declared path of the same file name.  Only the record of a
component that is a list of its fields declares no path, so that its FMU can be missing.
-/

namespace Cosim

/-! ## Causes of failures -/

namespace Action

variable {α β : Type} {P : Failure → Prop} {d : Disk}

/-- Every failure of an action on a disk has a property. -/
def Raises (P : Failure → Prop) (x : Action α) (d : Disk) : Prop :=
  ∀ e d', x d = .error e d' → P e

theorem raises_pure (a : α) :
  Raises P (pure a) d
  := by
  rintro _ _ ⟨⟩

/-- A failure that has the property may be raised. -/
theorem raises_throw {e : Failure} (h : P e) :
  Raises P (throw e : Action α) d
  := by
  rintro _ _ ⟨⟩
  exact h

/-- A result raises what it fails with. -/
theorem raises_ofExcept {r : Except Failure α} (h : ∀ e, r = .error e → P e) :
  Raises P (ofExcept r) d
  := by
  cases r with
  | ok a => apply raises_pure
  | error e => apply raises_throw (h e rfl)

/-- Two actions raise what each of them may raise. -/
theorem raises_bind {x : Action α} {f : α → Action β} (h : x.Raises P d)
    (hf : ∀ a d', x d = .ok a d' → (f a).Raises P d') :
  (x >>= f).Raises P d
  := by
  intro e d'' herror
  cases hx : x d with
  | ok a d' =>
    rw [bind_of_ok hx] at herror
    apply hf a d' hx e d'' herror
  | error u d' =>
    rw [bind_of_error hx] at herror
    cases herror
    apply h e d'' hx

end Action

/-- A failure that, if it is for want of a file, is for want of one of given paths. -/
def Failure.WantsOnly (paths : String → Prop) (e : Failure) : Prop :=
  ∀ path, e = .notFound path → paths path

open Cosim.Action (Raises raises_pure raises_throw raises_ofExcept raises_bind)

variable {d d' : Disk} {paths : String → Prop}

/-- Reading an entry wants no file. -/
theorem Archive.Entry.raises_read (e : Archive.Entry) :
  Raises (Failure.WantsOnly paths) (Action.ofExcept e.read) d
  := by
  apply raises_ofExcept
  rintro _ h path rfl
  rw [Archive.Entry.read] at h
  split at h
  · cases h
  · cases hunpack : e.unpack with
    | error u =>
      rw [hunpack] at h
      cases h
      unfold Archive.Entry.unpack at hunpack
      split at hunpack
      · cases hunpack
      · cases hunpack
      · split at hunpack <;> cases hunpack
      · cases hunpack
    | ok data =>
      rw [hunpack] at h
      simp only [bind, Except.bind] at h
      split at h <;> cases h

/-- An archive is missing only where there is no file. -/
theorem Archive.raises_readEntry {path : String} (hfile : d.isFile path = true) (name : String) :
  Raises (Failure.WantsOnly paths) (Archive.readEntry path name) d
  := by
  obtain ⟨content, hcontent⟩ := Disk.isFile_iff.mp hfile
  apply raises_bind
  · rintro _ _ h missing rfl
    rw [Archive.load, Action.get_bind] at h
    have hexists : d.pathExists path = true := by
      rw [Disk.isFile] at hfile
      rw [Disk.pathExists]
      cases hitem : d.find? path with
      | none => simp [hitem] at hfile
      | some item => rfl
    rw [hexists, hcontent, Option.bind_some] at h
    cases hentries : content.entries? with
    | none =>
      rw [hentries] at h
      cases h
    | some entries =>
      rw [hentries] at h
      cases h
  · intro entries d₁ _
    cases entries.lookup name with
    | none => apply raises_pure
    | some e =>
      refine raises_bind e.raises_read ?_
      intro data d₂ _
      cases String.fromUTF8? data with
      | some s => apply raises_pure
      | none =>
        apply raises_throw
        rintro _ ⟨⟩

/-- Opening an FMU fails for want of a file only where there is none at its path. -/
theorem Fmu.raises_load (path : String) :
  Raises (Failure.WantsOnly fun missing => missing = path ∧ d.isFile missing = false)
    (Fmu.load path) d
  := by
  cases hfile : d.isFile path with
  | false =>
    rw [Fmu.load]
    rintro _ _ h missing rfl
    rw [Action.get_bind, hfile] at h
    cases h
    exact ⟨rfl, hfile⟩
  | true =>
    have hload : Fmu.load path d = (do pure ⟨path, ← readDescription path⟩ : Action Fmu) d := by
      rw [Fmu.load, Action.get_bind, hfile]
      rfl
    intro e d' herror
    rw [hload] at herror
    revert e d'
    apply raises_bind
    · refine raises_bind (Archive.raises_readEntry hfile _) ?_
      intro text d₁ _
      cases text with
      | none =>
        apply raises_throw
        rintro _ ⟨⟩
      | some text =>
        apply raises_ofExcept
        rintro _ h missing rfl
        cases hparse : Description.parse text <;> rw [hparse] at h <;> cases h
    · intro description d₁ _
      apply raises_pure

namespace System

variable {folder : String} {tool : ProxyTool}

/-- Making a component without a proxy wants no file but its FMU. -/
theorem raises_component {name : String} {entry : ComponentEntry}
    (hproxy : entry.Unproxied tool) :
  Raises (Failure.WantsOnly fun path =>
      path = fmuPath d folder entry.fmu ∧ d.isFile path = false)
    (component folder tool name entry) d
  := by
  cases hfile : d.isFile (fmuPath d folder entry.fmu) with
  | false =>
    rintro _ _ h missing rfl
    rw [component, Action.get_bind, Action.get_bind, hfile] at h
    cases h
    exact ⟨rfl, hfile⟩
  | true =>
    intro e d' herror
    rw [component, Action.get_bind, Action.get_bind, hfile] at herror
    revert e d'
    apply raises_bind (Fmu.raises_load _)
    intro fmu d₁ _
    apply raises_bind
    · intro e d₂ herror
      rw [hproxy] at herror
      cases herror
    · intro final d₂ _
      apply raises_pure

/-- A path whose file is missing, so that the component of a record cannot be made. -/
def Missing (d : Disk) (folder : String) (records : Dictionary) (path : String) : Prop :=
  ∃ e ∈ records, ∃ entry, ComponentEntry.ofValue? e.2 = some entry ∧
    path = fmuPath d folder entry.fmu ∧ d.isFile path = false

/-- What is missing for some records is missing for more. -/
theorem Missing.mono {records more : Dictionary} {path : String}
    (h : Missing d folder records path) (hsub : records ⊆ more) :
  Missing d folder more path
  := by
  obtain ⟨e, he, hmissing⟩ := h
  exact ⟨e, hsub he, hmissing⟩

/-- Making components without proxies wants no files but their FMUs. -/
theorem raises_addComponents {components : Entries Component} {records : Dictionary}
    (hproxy : ∀ e ∈ records, ∀ entry, ComponentEntry.ofValue? e.2 = some entry →
      entry.Unproxied tool) :
  Raises (Failure.WantsOnly (Missing d folder records))
    (addComponents folder tool components records) d
  := by
  induction records generalizing components with
  | nil => apply raises_pure
  | cons e records ih =>
    obtain ⟨key, v⟩ := e
    rw [List.forall_mem_cons] at hproxy
    have hrest (components : Entries Component) :
        Raises (Failure.WantsOnly (Missing d folder ((key, v) :: records)))
          (addComponents folder tool components records) d := by
      intro e d' herror path hpath
      exact (ih hproxy.2 e d' herror path hpath).mono (List.subset_cons_self _ _)
    rw [addComponents]
    cases hentry : ComponentEntry.ofValue? v with
    | none => apply hrest
    | some entry =>
      apply raises_bind
      · intro e d' herror path hpath
        obtain ⟨rfl, hmissing⟩ := raises_component (hproxy.1 entry hentry) e d' herror path hpath
        exact ⟨(key, v), List.mem_cons_self, entry, hentry, rfl, hmissing⟩
      · intro c d' hc
        obtain ⟨rfl, -⟩ := opened_of_component (hproxy.1 entry hentry) hc
        apply hrest

/-- A build without proxies fails for want of a file only if that of a component is missing. -/
theorem raises_build {structureValue : Value}
    (hproxy : ∀ e ∈ block structureValue "components", ∀ entry,
      ComponentEntry.ofValue? e.2 = some entry → entry.Unproxied tool) :
  Raises (Failure.WantsOnly (Missing d folder (block structureValue "components")))
    (build folder tool structureValue) d
  := by
  apply raises_bind (raises_addComponents hproxy)
  intro components d' _
  apply raises_pure

end System

namespace Case

variable {c : Case} {fmu : String} {targets : List String}

/-! ## Copies of FMUs from elsewhere -/

/-- An FMU of the library that is no file directly in the case folder. -/
def IsElsewhere (c : Case) (d : Disk) (fmu : String) : Prop :=
  ∀ name, Path.fileName? name = some name → ∀ l,
    d.locate? (Path.join c.library fmu) = some l → d.locate? (Path.join c.folder name) ≠ some l

/-- An FMU is elsewhere if its path does not lead directly into the case folder. -/
theorem isElsewhere_of_locate? {k : Location} (hfolder : d.locate? c.folder = some k)
    (h : ∀ l, d.locate? (Path.join c.library fmu) = some l → l.dropLast ≠ k) :
  c.IsElsewhere d fmu
  := by
  intro name hname l hl htarget
  apply h l hl
  rw [Disk.eq_of_locate?_join (Path.isStep_of_fileName? hname) hfolder htarget,
    List.dropLast_concat]

/-- The file of an FMU's name in the case folder has the content of the FMU in the library. -/
def IsPlaced (c : Case) (d d' : Disk) (fmu : String) : Prop :=
  ∃ name content, Path.fileName? fmu = some name ∧
    d.content? (Path.join c.library fmu) = some content ∧
    d'.content? (Path.join c.folder name) = some content

/-- Copying an FMU from elsewhere places it in the case folder. -/
theorem isPlaced_of_copyFmu {target : String} (helsewhere : c.IsElsewhere d fmu)
    (h : c.copyFmu fmu d = .ok target d') :
  c.IsPlaced d d' fmu
  := by
  obtain ⟨name, hjoin, hfile, -, hcopy⟩ := copyFmu_eq_ok_iff.mp h
  have hname := Disk.fileName?_of_isFile hfile hjoin
  obtain ⟨content, hcontent⟩ := Disk.isFile_iff.mp hfile
  obtain ⟨l, executable, hl, hitem⟩ := Disk.content?_eq_some_iff.mp hcontent
  have hne := helsewhere name (Path.fileName?_of_fileName? hname) l hl
  obtain ⟨k, hk, hplace, rfl⟩ := (Action.copy_eq_ok_iff hl hitem hne).mp hcopy
  refine ⟨name, content, hname, hcontent, ?_⟩
  have hkeeps := Disk.keeps_put hplace content executable
  simp only [Disk.writableAt, Bool.and_eq_true, Bool.not_eq_true', List.isEmpty_eq_false_iff]
    at hplace
  rw [Disk.content?_eq_some_iff]
  refine ⟨k, executable, (hkeeps.locate?_eq _).trans hk, ?_⟩
  rw [Disk.item?_put hplace.1.1, if_pos rfl]

/-- Copies of different names stay as they were made. -/
theorem isPlaced_of_mapM {fmus : List String} (helsewhere : ∀ fmu ∈ fmus, c.IsElsewhere d fmu)
    (hdistinct : fmus.Pairwise fun fmu other => sameName fmu other = false)
    (h : fmus.mapM c.copyFmu d = .ok targets d') :
  ∀ fmu ∈ fmus, c.IsPlaced d d' fmu
  := by
  induction fmus generalizing d targets with
  | nil => apply List.forall_mem_nil
  | cons fmu fmus ih =>
    simp only [List.mapM_cons, Action.bind_eq_ok, Action.pure_eq_ok] at h
    obtain ⟨target, d₁, hcopy, rest, _, hrest, -, rfl⟩ := h
    rw [List.forall_mem_cons] at helsewhere ⊢
    rw [List.pairwise_cons] at hdistinct
    obtain ⟨name, hname, hkeeps, -⟩ := copyFmu_eq_ok hcopy
    have hothers : ¬ ∃ other ∈ fmus, Path.fileName? other = some name := by
      rintro ⟨other, hmem, hother⟩
      have hsame := hdistinct.1 other hmem
      rw [sameName, hname, hother, beq_self_eq_true] at hsame
      cases hsame
    constructor
    · obtain ⟨_, content, hname', hcontent, hplaced⟩ := isPlaced_of_copyFmu helsewhere.1 hcopy
      obtain rfl := Option.some.inj (hname.symm.trans hname')
      refine ⟨name, content, hname, hcontent, ?_⟩
      rw [(mapM_copyFmu_eq_ok hdistinct.2 hrest).1.content?_eq _ hothers, hplaced]
      exact Path.fileName?_join_of_fileName? (Path.fileName?_of_fileName? hname) c.folder
    · have helsewhere₁ : ∀ other ∈ fmus, c.IsElsewhere d₁ other := by
        intro other hmem name' hname' l
        rw [hkeeps.locate?_eq, hkeeps.locate?_eq]
        apply helsewhere.2 other hmem name' hname'
      intro other hmem
      obtain ⟨otherName, content, hother, hcontent, hplaced⟩ :=
        ih helsewhere₁ hdistinct.2 hrest other hmem
      refine ⟨otherName, content, hother, ?_, hplaced⟩
      rw [← hkeeps.content?_eq (Path.fileName?_join_of_fileName? hother c.library)]
      · exact hcontent
      · rintro rfl
        exact hothers ⟨other, hmem, hother⟩

/-! ## Agreement of copying and building -/

/-- Whether some component declares a path of the same file name. -/
def Declares (c : Case) (path : String) : Prop :=
  ∃ declared ∈ c.declaredFmus, Path.fileName? declared = Path.fileName? path

/-- A path that leads a build to a file of its name in the case folder, whose content is that of
the first declared path of the name. -/
structure Resolved (c : Case) (d d' : Disk) (path name first : String) (content : Content) :
    Prop where
  fileName : Path.fileName? path = some name
  found : System.fmuPath d' c.folder path = Path.join c.folder name
  declared : c.declaredFmus.find? (sameName · path) = some first
  source : d.content? (Path.join c.library first) = some content
  copy : d'.content? (Path.join c.folder name) = some content

/-- A resolved path leads to a file. -/
theorem Resolved.isFile {path name first : String} {content : Content}
    (h : c.Resolved d d' path name first content) :
  d'.isFile (System.fmuPath d' c.folder path) = true
  := by
  rw [h.found]
  exact Disk.isFile_iff.mpr ⟨content, h.copy⟩

/-- After copying, each declared path is resolved. -/
theorem resolved_of_declares {path : String} (helsewhere : ∀ fmu ∈ c.fmuFiles, c.IsElsewhere d fmu)
    (hcopy : c.copyFmus d = .ok targets d') (hpath : c.Declares path) :
  ∃ name first content, c.Resolved d d' path name first content
  := by
  obtain ⟨declared, hdeclared, hsame⟩ := hpath
  obtain ⟨hdistinct, -, hfirst⟩ := foldl_addNew c.declaredFmus
  rw [← fmuFiles_eq] at hdistinct hfirst
  obtain ⟨first, hmem, hfind⟩ := hfirst declared hdeclared
  obtain ⟨name, content, hname, hsource, hplaced⟩ :=
    isPlaced_of_mapM helsewhere hdistinct hcopy first hmem
  have hfirstName := List.find?_some hfind
  rw [sameName, beq_iff_eq, hname, hsame] at hfirstName
  refine ⟨name, first, content, hfirstName.symm, ?_, ?_, hsource, hplaced⟩
  · rw [System.fmuPath_of_fileName? hfirstName.symm, if_pos]
    exact Disk.isFile_iff.mpr ⟨content, hplaced⟩
  · simp only [sameName, hsame] at hfind ⊢
    exact hfind

/-- What a build finds after copying. -/
structure Served (c : Case) (tool : ProxyTool) (structureValue : Value) (d d' : Disk) : Prop where
  /-- a component is given the copy of the first FMU of the name that it declares -/
  resolved : ∀ e ∈ c.records, ∀ entry, ComponentEntry.ofValue? e.2 = some entry →
    e.2.isObject = true ∨ c.Declares entry.fmu →
      ∃ name first content, c.Resolved d d' entry.fmu name first content
  /-- only a list of fields can lead to an FMU that is missing -/
  missing : ∀ path d'', System.build c.folder tool structureValue d' = .error (.notFound path) d'' →
    ∃ e ∈ c.records, ∃ entry, ComponentEntry.ofValue? e.2 = some entry ∧
      e.2.isObject = false ∧ ¬ c.Declares entry.fmu ∧
      path = System.fmuPath d' c.folder entry.fmu ∧ d'.isFile path = false

/-- Copying and building agree on the FMUs of components that are given as objects. -/
theorem served_of_copyFmus {tool : ProxyTool} {structureValue : Value}
    (hstructure : c.dictionary.get? "systemStructure" = some structureValue)
    (hproxy : ∀ e ∈ c.records, ∀ entry, ComponentEntry.ofValue? e.2 = some entry →
      entry.Unproxied tool)
    (helsewhere : ∀ fmu ∈ c.fmuFiles, c.IsElsewhere d fmu)
    (hcopy : c.copyFmus d = .ok targets d') :
  c.Served tool structureValue d d'
  := by
  have hrecords : c.records = System.block structureValue "components" := by
    rw [records, hstructure]
    rfl
  have hresolved : ∀ e ∈ c.records, ∀ entry, ComponentEntry.ofValue? e.2 = some entry →
      e.2.isObject = true ∨ c.Declares entry.fmu →
        ∃ name first content, c.Resolved d d' entry.fmu name first content := by
    rintro ⟨key, v⟩ he entry hentry hdeclares
    apply resolved_of_declares helsewhere hcopy
    obtain hobject | hdeclares := hdeclares
    · exact ⟨entry.fmu, mem_declaredFmus he hentry hobject, rfl⟩
    · exact hdeclares
  refine ⟨hresolved, ?_⟩
  intro path d'' hbuild
  rw [hrecords] at hproxy
  obtain ⟨e, he, entry, hentry, hpath, hmissing⟩ :=
    System.raises_build hproxy _ d'' hbuild path rfl
  rw [← hrecords] at he
  have hnot : ¬ (e.2.isObject = true ∨ c.Declares entry.fmu) := by
    intro hdeclares
    obtain ⟨name, first, content, h⟩ := hresolved e he entry hentry hdeclares
    rw [hpath, h.isFile] at hmissing
    cases hmissing
  rw [not_or, Bool.not_eq_true] at hnot
  exact ⟨e, he, entry, hentry, hnot.1, hnot.2, hpath, hmissing⟩

/-! ## Components given as objects and as lists -/

/-- A case with one component, whose FMU comes from a library. -/
def libraryCase (record : Value) : Case :=
  ofDictionary [("_environment", .object [("libSource", .text "../lib")]),
    ("systemStructure", .object [("components", .object [("hull", record)])])] "/case"

/-- What is read of a component that has nothing but an FMU in a folder of the library. -/
def hullEntry : ComponentEntry := ⟨"sub/hull.fmu", none, false, none, [], []⟩

/-- The component as an object. -/
def hullObject : Value := .object [("fmu", .text "sub/hull.fmu")]

/-- The component as the list of its fields. -/
def hullList : Value := .list [.text "sub/hull.fmu", .null, .bool false, .null]

/-- The component from the library has no proxy. -/
theorem unproxied_libraryCase {record : Value} {tool : ProxyTool}
    (hentry : ComponentEntry.ofValue? record = some hullEntry) :
  ∀ e ∈ (libraryCase record).records, ∀ entry, ComponentEntry.ofValue? e.2 = some entry →
    entry.Unproxied tool
  := by
  have hrecords : (libraryCase record).records = [("hull", record)] := rfl
  rw [hrecords, List.forall_mem_singleton, hentry]
  rintro _ ⟨⟩
  apply ComponentEntry.unproxied_of_fails
  rintro ⟨⟩

/-- A component that is given as an object is given the copy of its FMU. -/
theorem served_of_copyFmus_object :
  ∃ structureValue targets d',
    (libraryCase hullObject).dictionary.get? "systemStructure" = some structureValue ∧
    (∀ e ∈ (libraryCase hullObject).records, ∀ entry, ComponentEntry.ofValue? e.2 = some entry →
      entry.Unproxied fun fmu _ _ => pure fmu) ∧
    (∀ fmu ∈ (libraryCase hullObject).fmuFiles,
      (libraryCase hullObject).IsElsewhere (nestedDisk "lib") fmu) ∧
    (libraryCase hullObject).copyFmus (nestedDisk "lib") = .ok targets d' ∧
    d'.isFile "/case/hull.fmu" = true ∧
    (libraryCase hullObject).Served (fun fmu _ _ => pure fmu) structureValue (nestedDisk "lib") d'
  := by
  have hproxy : ∀ e ∈ (libraryCase hullObject).records, ∀ entry,
      ComponentEntry.ofValue? e.2 = some entry → entry.Unproxied fun fmu _ _ => pure fmu :=
    unproxied_libraryCase rfl
  have helsewhere : ∀ fmu ∈ (libraryCase hullObject).fmuFiles,
      (libraryCase hullObject).IsElsewhere (nestedDisk "lib") fmu := by
    have hfiles : (libraryCase hullObject).fmuFiles = ["sub/hull.fmu"] := by decide +kernel
    have hfolder : (nestedDisk "lib").locate? (libraryCase hullObject).folder = some ["case"] := by
      decide +kernel
    rw [hfiles, List.forall_mem_singleton]
    apply isElsewhere_of_locate? hfolder
    decide +kernel
  have hrun : (libraryCase hullObject).copyFmus.gives (nestedDisk "lib")
      (fun _ d' => d'.isFile "/case/hull.fmu") = true := by
    decide +kernel
  obtain ⟨targets, d', hcopy, hfile⟩ := Action.exists_of_gives hrun
  exact ⟨_, targets, d', rfl, hproxy, helsewhere, hcopy, hfile,
    served_of_copyFmus rfl hproxy helsewhere hcopy⟩

/-- A component that is given as the list of its fields is read in the same way, but its FMU is not
copied, and the build misses it. -/
theorem notFound_of_list :
  (libraryCase hullList).usesOwnFolder (nestedDisk "lib") = false ∧
  ("hull", hullList) ∈ (libraryCase hullList).records ∧
  ComponentEntry.ofValue? hullList = ComponentEntry.ofValue? hullObject ∧
  ComponentEntry.ofValue? hullList = some hullEntry ∧
  (∀ e ∈ (libraryCase hullList).records, ∀ entry, ComponentEntry.ofValue? e.2 = some entry →
    entry.Unproxied fun fmu _ _ => pure fmu) ∧
  (nestedDisk "lib").isFile (Path.join (libraryCase hullList).library hullEntry.fmu) = true ∧
  (libraryCase hullList).IsElsewhere (nestedDisk "lib") hullEntry.fmu ∧
  (libraryCase hullList).copyFmus (nestedDisk "lib") = .ok [] (nestedDisk "lib") ∧
  ∃ structureValue,
    (libraryCase hullList).dictionary.get? "systemStructure" = some structureValue ∧
    System.build (libraryCase hullList).folder (fun fmu _ _ => pure fmu) structureValue
      (nestedDisk "lib") = .error (.notFound "/case/sub/hull.fmu") (nestedDisk "lib")
  := by
  have hfolder : (nestedDisk "lib").locate? (libraryCase hullList).folder = some ["case"] := by
    decide +kernel
  refine ⟨by decide +kernel, List.mem_singleton_self _, rfl, rfl, unproxied_libraryCase rfl,
    by decide +kernel, ?_, rfl, _, rfl, rfl⟩
  apply isElsewhere_of_locate? hfolder
  decide +kernel

end Case

end Cosim
