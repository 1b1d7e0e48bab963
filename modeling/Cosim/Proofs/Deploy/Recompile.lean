import Cosim.Proofs.Deploy.References
import Cosim.Proofs.Deploy.Repeating

/-!
# Compiling again

A compile that succeeded succeeds again, and the second run leaves the disk as it finds it.  The
case may not use files of its folder that a compile removes or writes: neither as its dictionary,
nor as FMUs that are opened or copied.
-/

namespace Cosim

open Disk (AlikeBut Keeps Written)
open Results (Cleaned)

/-- Two disks with the same items. -/
structure Disk.Same (d e : Disk) : Prop where
  current : e.current = d.current
  items : ∀ l, e.item? l = d.item? l

namespace Case

variable {c : Case} {options : CompileOptions} {tool : ProxyTool} {d d' d₁ d₂ d₃ : Disk}
  {k : Location} {path name : String} {ownFolder : Bool}

/-! ## Files of a compile -/

/-- The names of the files in its folder that a compile may remove or write. -/
def Touches (c : Case) (options : CompileOptions) (ownFolder : Bool) (name : String) : Prop :=
  Results.isResult name ownFolder = true ∨ c.Copies ownFolder name ∨ c.Writes options name

instance : Decidable (c.Touches options ownFolder name) :=
  inferInstanceAs (Decidable (_ ∨ (_ ∧ ∃ fmu ∈ c.fmuFiles, _) ∨ _))

/-- What a compile in a folder leaves as it was: every file that it may not touch, and that there is
a file wherever there was a test. -/
structure Spares (c : Case) (options : CompileOptions) (ownFolder : Bool) (k : Location)
    (d d' : Disk) : Prop where
  others : ∀ l, (∀ name, c.Touches options ownFolder name → l ≠ k ++ [name]) →
    d'.item? l = d.item? l
  tests : ∀ l name, l.getLast? = some name → name.startsWith "test_" = true →
    d.isFileAt l = true → d'.isFileAt l = true

theorem spares_of_same (h : d.Same d') :
  c.Spares options ownFolder k d d'
  where
  others l _ := h.items l
  tests l name _ _ hfile := by
    rw [Disk.isFileAt, h.items]
    exact hfile

theorem spares_of_cleaned {folder : String} (hclean : Cleaned k ownFolder d d₁)
    (hwrite : Written folder k (fun name => c.Copies ownFolder name ∨ c.Writes options name)
      (fun _ => True) d₁ d') :
  c.Spares options ownFolder k d d'
  := by
  constructor
  · intro l hl
    rw [hwrite.alike.items, hclean.alike.items]
    · intro name hresult
      exact hl name (.inl hresult)
    · intro name hin
      exact hl name (.inr hin)
  · intro l name hname htest hfile
    apply hwrite.files
    rw [Disk.isFileAt, hclean.alike.items]
    · exact hfile
    · rintro other hresult rfl
      rw [List.getLast?_concat, Option.some.injEq] at hname
      rw [hname, Results.isResult, htest] at hresult
      cases hresult

/-- A graph is a result, also where FMUs are kept. -/
theorem IsGraph.isResult (h : IsGraph name) (keepFmus : Bool) :
  Results.isResult name keepFmus = true
  := by
  obtain rfl | rfl := h
  · cases keepFmus <;> decide +kernel
  · cases keepFmus <;> decide +kernel

/-! ## The case folder -/

/-- Whether the FMUs come from a case folder that exists is told by the places of paths. -/
theorem usesOwnFolder_eq (hk : d.locate? c.folder = some k) (hfolder : d.isFolderAt k = true) :
  c.usesOwnFolder d = match d.locate? c.library with
    | some l => l == k
    | none => Path.parts c.library == Path.parts c.folder
  := by
  have hitem : (d.item? k).isSome = true := by
    rw [Disk.isFolderAt_iff.mp hfolder]
    rfl
  rw [usesOwnFolder, Disk.sameItem?, hk]
  cases hl : d.locate? c.library with
  | none => rfl
  | some l =>
    simp only [hitem, Bool.and_true]
    cases hlibrary : (d.item? l).isSome with
    | true => rfl
    | false =>
      have hne : l ≠ k := by
        rintro rfl
        cases hlibrary.symm.trans hitem
      have hparts : Path.parts c.library ≠ Path.parts c.folder := by
        intro heq
        apply hne
        rw [Disk.eq_of_locate? hl, Disk.eq_of_locate? hk, heq]
      simp only [Bool.false_eq_true, if_false]
      rw [beq_false_of_ne hne, beq_false_of_ne hparts]

theorem usesOwnFolder_of_keeps {names : String → Prop} (hk : d.locate? c.folder = some k)
    (hfolder : d.isFolderAt k = true) (hkeeps : Keeps names d d') :
  c.usesOwnFolder d' = c.usesOwnFolder d
  := by
  rw [usesOwnFolder_eq hk hfolder, usesOwnFolder_eq ((hkeeps.locate?_eq _).trans hk)
    ((hkeeps.folders k).trans hfolder), hkeeps.locate?_eq]

/-- A case is read again if its dictionary is kept. -/
theorem load_of_keeps {names : String → Prop} (hd : d.Proper) (hkeeps : Keeps names d d')
    (hname : ∀ name, Path.fileName? path = some name → ¬ names name)
    (h : load path d = .ok c d) :
  load path d' = .ok c d'
  := by
  obtain ⟨dictionary, hload, hc⟩ := load_eq_ok_iff.mp h
  have habsolute : d'.absolute path = d.absolute path := by
    rw [Disk.absolute, Disk.absolute, hkeeps.current]
  have hfile : d.isFile (d.absolute path) = true := by
    rw [Dictionary.load] at hload
    simp only [Action.bind_eq_ok, Action.get_eq_ok] at hload
    obtain ⟨_, _, ⟨rfl, rfl⟩, hload⟩ := hload
    by_contra hnot
    rw [Bool.not_eq_true] at hnot
    simp [hnot, Action.bind_eq_ok, Action.throw_ne_ok] at hload
  obtain ⟨name, hdictionary⟩ := hd.exists_fileName? hfile
  have hnot := hname name (Disk.fileName?_of_isFile hfile hdictionary)
  obtain ⟨-, hagain⟩ := (reads_loadDictionary _).eq_ok hload
  rw [load_eq_ok_iff, habsolute]
  exact ⟨dictionary, hagain d' (hkeeps.find?_eq hdictionary hnot), hc⟩

/-! ## Cases that can be compiled again -/

/-- What a compile on a disk demands of a case to be repeatable. -/
structure Repeatable (c : Case) (options : CompileOptions) (tool : ProxyTool) (path : String)
    (d : Disk) : Prop where
  /-- no proxy takes the place of an FMU -/
  unproxied : ∀ record ∈ c.records, ∀ entry, ComponentEntry.ofValue? record.2 = some entry →
    entry.Unproxied tool
  /-- the names of components have no slashes -/
  names : ∀ record ∈ c.records, ∀ entry, ComponentEntry.ofValue? record.2 = some entry →
    '/' ∉ record.1.toList
  /-- no FMU is named like a file that the compile writes -/
  fmus : ∀ name, c.Opens name → ¬ c.Writes options name
  /-- the dictionary is no file that the compile may touch -/
  dictionary : ∀ name, Path.fileName? path = some name →
    ¬ c.Touches options (c.usesOwnFolder d) name
  /-- no FMU is copied that lies directly in the case folder -/
  sources : c.usesOwnFolder d = false → ∀ fmu ∈ c.fmuFiles, ∀ l,
    d.locate? (Path.join c.library fmu) = some l → d.isFileAt l = true →
      d.locate? c.folder ≠ some l.dropLast

/-- FMUs were copied from elsewhere if none of them lies directly in the case folder. -/
theorem locate?_library_ne {targets : List String} (hk : d.locate? c.folder = some k)
    (hwithin : d₁.Within d) (hkeeps : Keeps (fun _ => True) d d₁)
    (hsources : ∀ fmu ∈ c.fmuFiles, ∀ l, d.locate? (Path.join c.library fmu) = some l →
      d.isFileAt l = true → d.locate? c.folder ≠ some l.dropLast)
    (hcopy : c.copyFmus d₁ = .ok targets d₂) :
  ∀ fmu ∈ c.fmuFiles, ∀ name, d₁.locate? (Path.join c.library fmu) ≠ some (k ++ [name])
  := by
  obtain ⟨hdistinct, -⟩ := foldl_addNew c.declaredFmus
  obtain ⟨-, hcopied⟩ := mapM_copyFmu_eq_ok hdistinct hcopy
  intro fmu hfmu name hl
  rw [hkeeps.locate?_eq] at hl
  obtain ⟨-, -, content, hcontent, -⟩ := hcopied fmu hfmu
  have hfile := Disk.isFile_iff.mpr ⟨content, hwithin.content?_eq hcontent⟩
  rw [Disk.isFile_of_locate? hl] at hfile
  apply hsources fmu hfmu _ hl hfile
  rw [List.dropLast_concat, hk]

/-! ## The second run -/

/-- What a compile has written can be removed again. -/
theorem exists_remove_again {names : String → Prop} {folder : String}
    (hk : d.locate? folder = some k) (hclean : Cleaned k ownFolder d d₁)
    (hwrite : Written folder k names (fun _ => True) d₁ d') :
  ∃ removed d₃, Results.remove folder ownFolder d' = .ok removed d₃ ∧ Cleaned k ownFolder d' d₃
  := by
  have hlocate (path : String) : d'.locate? path = d₁.locate? path :=
    hwrite.alike.keeps.locate?_eq path
  have hk' : d'.locate? folder = some k := by
    rw [hlocate, hclean.alike.keeps.locate?_eq, hk]
  have hfolder : d'.isFolderAt k = true := by
    rw [hwrite.alike.folders, hclean.alike.folders, hclean.folder]
  obtain ⟨removed, d₃, hremove⟩ := Results.exists_remove hwrite.proper hk' hfolder
    fun name hresult hfile => by
      rw [hlocate]
      apply hwrite.located
      intro hsame
      rw [Disk.isFileAt, hsame] at hfile
      exact Bool.false_ne_true ((hclean.removed name hresult).symm.trans hfile)
  obtain ⟨l, hl, hclean'⟩ := Results.cleaned_of_remove hwrite.proper hremove
  cases hk'.symm.trans hl
  exact ⟨removed, d₃, hremove, hclean'⟩

/-- When results are removed again, copies and documents may still be there, and nothing else is
different from the first time. -/
theorem alikeBut_cleaned {folder : String} (hclean : Cleaned k ownFolder d d₁)
    (hcopy : Written folder k (c.Copies ownFolder) (fun _ => True) d₁ d₂)
    (hwrite : Written folder k (c.Writes options) (fun _ => False) d₂ d')
    (hclean' : Cleaned k ownFolder d' d₃) :
  AlikeBut k (fun name => c.Copies ownFolder name ∨ c.Documents options name)
    (c.Copies ownFolder) d₁ d₃
  := by
  have hfolders (l : Location) : d₃.isFolderAt l = d₁.isFolderAt l := by
    rw [hclean'.alike.folders, hwrite.alike.folders, hcopy.alike.folders]
  constructor
  · rw [hclean'.alike.current, hwrite.alike.current, hcopy.alike.current]
  · exact hfolders
  · intro l hl
    by_cases hresult : ∃ name, Results.isResult name ownFolder = true ∧ l = k ++ [name]
    · obtain ⟨name, hresult, rfl⟩ := hresult
      rw [Disk.item?_of_isFileAt (hclean.removed name hresult),
        Disk.item?_of_isFileAt (hclean'.removed name hresult), hfolders]
    · have hnot : ∀ name, Results.isResult name ownFolder = true → l ≠ k ++ [name] := by
        intro name hname heq
        exact hresult ⟨name, hname, heq⟩
      rw [hclean'.alike.items l hnot, hwrite.alike.items, hcopy.alike.items]
      · intro name hin
        exact hl name (.inl hin)
      · rintro name (hin | ⟨-, -, hgraph⟩)
        · exact hl name (.inr hin)
        · exact hnot name (hgraph.isResult ownFolder)
  · intro name hname
    by_cases hresult : Results.isResult name ownFolder = true
    · rw [Disk.executableAt_of_isFileAt (hclean.removed name hresult),
        Disk.executableAt_of_isFileAt (hclean'.removed name hresult)]
    · rw [hclean'.alike.executable name hresult, hwrite.alike.executable name id,
        Disk.executableAt, Disk.executableAt, hcopy.alike.item?_eq hname]

/-- A case as it was before its set-up. -/
def loaded (c : Case) : Case := { c with system := none }

/-- What the stages of a compile do to the disk, and how its last two stages repeat. -/
structure Passed (c : Case) (options : CompileOptions) (tool : ProxyTool) (draw : String → Drawing)
    (path : String) (k : Location) (d d₁ d₂ d' : Disk) : Prop where
  loaded : load path d = .ok c.loaded d
  folder : d.locate? c.folder = some k
  cleaned : Cleaned k (c.usesOwnFolder d) d d₁
  prepared : (c.loaded.prepare tool (c.usesOwnFolder d)).Repeats c.folder k
    (c.Copies (c.usesOwnFolder d))
    (fun name => c.Opens name ∧ ¬ c.Copies (c.usesOwnFolder d) name) True d₁ c d₂
  emitted : (c.emit options (.ofDrawing draw)).Repeats c.folder k (c.Writes options)
    (fun name => ¬ c.Documents options name) False d₂ () d'

theorem passed_of_compile {draw : String → Drawing} {report : List String} (hd : d.Proper)
    (hcompile : compile options tool (.ofDrawing draw) path d = .ok (c, report) d')
    (hrepeatable : c.Repeatable options tool path d) :
  report = c.reportOf options ∧ ∃ k d₁ d₂, c.Passed options tool draw path k d d₁ d₂ d'
  := by
  obtain ⟨c₀, removed, d₁, d₂, hload, hremove, hprepare, hemit, rfl⟩ := compile_eq_ok.mp hcompile
  obtain ⟨d₀, hcopied, -, hsetUp⟩ := prepare_eq_ok hprepare
  have hc : c₀ = c.loaded := by
    obtain ⟨dictionary, -, rfl⟩ := load_eq_ok_iff.mp hload
    obtain ⟨structureValue, s, -, -, rfl⟩ := setUp_eq_ok_iff.mp hsetUp
    rfl
  obtain rfl := hc
  obtain ⟨-, s, hs, hopened⟩ := opened_setUp hrepeatable.unproxied hsetUp
  have hsystem : c.system = some s := by
    rw [hs]
  obtain ⟨k, hk, hclean⟩ := Results.cleaned_of_remove hd hremove
  have hk₁ : d₁.locate? c.folder = some k := (hclean.alike.keeps.locate?_eq _).trans hk
  have hsource : c.usesOwnFolder d = false → ∀ fmu ∈ c.fmuFiles, ∀ name,
      d₁.locate? (Path.join c.library fmu) ≠ some (k ++ [name]) := by
    intro hown
    obtain ⟨targets, hcopy⟩ := hcopied hown
    apply locate?_library_ne hk (Results.remove_eq_ok hremove)
      (hclean.alike.keeps.mono fun _ _ => trivial) (hrepeatable.sources hown) hcopy
  have hprepared := repeats_prepare hclean.proper hk₁ hsource hrepeatable.unproxied hprepare
  have hnames : ∀ s, c.system = some s → ∀ component ∈ s.components.values,
      '/' ∉ component.name.toList := by
    intro s' hs' component hmem
    obtain rfl := Option.some.inj (hsystem.symm.trans hs')
    obtain ⟨record, hrecord, entry, hentry, hload⟩ := hopened component hmem
    rw [hload.name_eq]
    apply hrepeatable.names record hrecord entry hentry
  have hk₂ : d₂.locate? c.folder = some k :=
    (hprepared.written.alike.keeps.locate?_eq _).trans hk₁
  have hemitted := repeats_emit hnames hprepared.written.proper hk₂ hemit
  exact ⟨rfl, k, d₁, d₂, hload, hk, hclean, hprepared, hemitted⟩

/-- A second compile succeeds like the first one, and leaves the disk as it was before.  Both spare
tests and whatever is neither a result nor a copied FMU nor an output. -/
theorem compile_again {draw : String → Drawing} {report : List String} (hd : d.Proper)
    (hcompile : compile options tool (.ofDrawing draw) path d = .ok (c, report) d')
    (hrepeatable : c.Repeatable options tool path d) :
  ∃ k d'', d.locate? c.folder = some k ∧
    compile options tool (.ofDrawing draw) path d' = .ok (c, report) d'' ∧ d'.Same d'' ∧
    c.Spares options (c.usesOwnFolder d) k d d' ∧ c.Spares options (c.usesOwnFolder d) k d' d''
  := by
  obtain ⟨rfl, k, d₁, d₂, passed⟩ := passed_of_compile hd hcompile hrepeatable
  have hwritten : Written c.folder k
      (fun name => c.Copies (c.usesOwnFolder d) name ∨ c.Writes options name) (fun _ => True)
      d₁ d' :=
    (passed.prepared.written.mono (fun _ => Or.inl) fun _ => id).trans
      (passed.emitted.written.mono (fun _ => Or.inr) fun _ _ => trivial)
  have hkeeps : Keeps (c.Touches options (c.usesOwnFolder d)) d d' :=
    (passed.cleaned.alike.keeps.mono fun _ => Or.inl).trans
      (hwritten.alike.keeps.mono fun _ => Or.inr)
  -- in the second run, first copies and documents differ, then documents, and then nothing
  have hload := load_of_keeps hd hkeeps hrepeatable.dictionary passed.loaded
  have hown : c.usesOwnFolder d' = c.usesOwnFolder d :=
    usesOwnFolder_of_keeps passed.folder passed.cleaned.folder hkeeps
  obtain ⟨removed, d₃, hremove, hclean⟩ :=
    exists_remove_again passed.folder passed.cleaned hwritten
  have halike₁ := alikeBut_cleaned passed.cleaned passed.prepared.written passed.emitted.written
    hclean
  obtain ⟨d₄, hprepare, halike₂⟩ := passed.prepared.again d₃ _ _ halike₁
    (fun name hread hin => hin.elim hread.2 fun hdocument =>
      hrepeatable.fmus name hread.1 (.inl hdocument))
    (.inl trivial)
  obtain ⟨d'', hemit, hsame⟩ := passed.emitted.again d₄ _ _ halike₂
    (fun name hread hin => hin.1.elim hin.2 hread)
    (.inr fun name hin => hin.2 ⟨trivial, hin.1⟩)
  have hagain : compile options tool (.ofDrawing draw) path d' =
      .ok (c, c.reportOf options) d'' := by
    apply compile_eq_ok.mpr
    refine ⟨c.loaded, removed, d₃, d₄, hload, ?_, ?_, hemit, rfl⟩
    · exact hown ▸ hremove
    · exact hown ▸ hprepare
  have hitems : d'.Same d'' := by
    refine ⟨hsame.current, fun l => hsame.items l ?_⟩
    rintro name ⟨⟨hin, hnot⟩, hwrites⟩
    exact (hwrites (.inl (hin.resolve_left hnot))).elim
  exact ⟨k, d'', passed.folder, hagain, hitems, spares_of_cleaned passed.cleaned hwritten,
    spares_of_same hitems⟩

/-- The pictures are the texts themselves. -/
def plainDrawing (text : String) : Drawing := ⟨some (Content.ofText text), none⟩

def drawnCompile : Action (Case × List String) :=
  compile ⟨false, true⟩ (fun fmu _ _ => pure fmu) (.ofDrawing plainDrawing) "/case/case.json"

set_option maxRecDepth 100000 in
/-- The case of an FMU in a folder of the library can be compiled again. -/
theorem compile_again_nested :
  ∃ c report d' k d'', (nestedDisk "lib").Proper ∧
    drawnCompile (nestedDisk "lib") = .ok (c, report) d' ∧
    c.Repeatable ⟨false, true⟩ (fun fmu _ _ => pure fmu) "/case/case.json" (nestedDisk "lib") ∧
    drawnCompile d' = .ok (c, report) d'' ∧ d'.Same d'' ∧
    c.Spares ⟨false, true⟩ (c.usesOwnFolder (nestedDisk "lib")) k (nestedDisk "lib") d'
  := by
  have hproper : (nestedDisk "lib").Proper := by decide +kernel
  have hrun : drawnCompile.gives (nestedDisk "lib") (fun (c, _) _ =>
      decide (∀ record ∈ c.records, ∀ entry, ComponentEntry.ofValue? record.2 = some entry →
        entry.generateProxy = false ∧ '/' ∉ record.1.toList ∧
        ∀ name, Path.fileName? (Path.join c.folder entry.fmu) = some name →
          ¬ c.Writes ⟨false, true⟩ name) &&
      decide (∀ name, Path.fileName? "/case/case.json" = some name →
        ¬ c.Touches ⟨false, true⟩ (c.usesOwnFolder (nestedDisk "lib")) name) &&
      decide (∀ fmu ∈ c.fmuFiles, ∀ l,
        (nestedDisk "lib").locate? (Path.join c.library fmu) = some l →
          (nestedDisk "lib").locate? c.folder ≠ some l.dropLast)) = true := by
    decide +kernel
  obtain ⟨⟨c, report⟩, d', hcompile, hcase⟩ := Action.exists_of_gives hrun
  simp only [Bool.and_eq_true, decide_eq_true_eq] at hcase
  obtain ⟨⟨hrecords, hdictionary⟩, hsources⟩ := hcase
  have hrepeatable : c.Repeatable ⟨false, true⟩ (fun fmu _ _ => pure fmu) "/case/case.json"
      (nestedDisk "lib") := by
    constructor
    · intro record hrecord entry hentry
      apply ComponentEntry.unproxied_of_fails
      intro hask
      rw [(hrecords record hrecord entry hentry).1] at hask
      cases hask
    · intro record hrecord entry hentry
      exact (hrecords record hrecord entry hentry).2.1
    · rintro name ⟨record, hrecord, entry, hentry, hname⟩
      exact (hrecords record hrecord entry hentry).2.2 name hname
    · exact hdictionary
    · intro _ fmu hfmu l hl _
      exact hsources fmu hfmu l hl
  obtain ⟨k, d'', -, hagain, hsame, hspares, -⟩ := compile_again hproper hcompile hrepeatable
  exact ⟨c, report, d', k, d'', hproper, hcompile, hrepeatable, hagain, hsame, hspares⟩

end Case

end Cosim
