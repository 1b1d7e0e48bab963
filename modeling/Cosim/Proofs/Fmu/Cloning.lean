import Cosim.Proofs.Fmu.Libraries
import Cosim.Proofs.Model.Renaming

/-!
# Clones

An FMU is cloned by copying its archive, renaming its libraries and writing a description.  Nothing
but the archive of the clone and the copy of the description beside it is written, whatever happens.
A clone that is made has the entries of the FMU, with all libraries renamed at once, and tells the
same about the model but for its name.  Cloning that fails leaves the archive as far as it was made.
-/

namespace Cosim

/-! ## File names of clones -/

namespace Path

/-- The name of an FMU is divided before its extension. -/
theorem splitExtension_fmu {stem : String} (h : stem ≠ "") :
  splitExtension (stem ++ ".fmu") = (stem, some "fmu")
  := by
  have hsplit : (stem ++ ".fmu").toList.splitOn '.' =
      stem.toList.splitOn '.' ++ ["fmu".toList] := by
    have hlist : (stem ++ ".fmu").toList = stem.toList ++ '.' :: "fmu".toList :=
      String.toList_append
    have hlast : "fmu".toList.splitOn '.' = ["fmu".toList] := List.splitOn_eq_singleton (by decide)
    rw [hlist, List.splitOn_append_cons_self, hlast]
  have hne : ¬ (stem.toList.splitOn '.' == [[]]) = true := by
    rw [beq_iff_eq]
    intro hnil
    have hjoin : ['.'].intercalate (stem.toList.splitOn '.') = stem.toList :=
      List.intercalate_splitOn '.'
    rw [hnil] at hjoin
    exact h (String.toList_eq_nil_iff.mp hjoin.symm)
  obtain ⟨before, more, hparts⟩ : ∃ before more,
      (stem.toList.splitOn '.').reverse = before :: more :=
    List.exists_cons_of_ne_nil (by simp)
  have hback : (before :: more).reverse = stem.toList.splitOn '.' := by
    rw [← hparts, List.reverse_reverse]
  rw [splitExtension, hsplit, List.reverse_append, hparts]
  simp only [List.reverse_singleton, List.singleton_append]
  rw [hback, if_neg hne, List.intercalate_splitOn, String.ofList_toList, String.ofList_toList]

end Path

namespace Fmu

open Archive (Holds ChangedAt Listing Entry Edit contents names IsWhole)

variable {f g : Fmu} {d d' : Disk} {new name : String} {editor : Editor} {entries : Listing}

/-- The path of a clone. -/
def clonePath (f : Fmu) (new : String) : String := Path.withFileName f.file s!"{new}.fmu"

/-- The description of a clone. -/
def cloneDescription (f : Fmu) (new : String) (editor : Editor) : Description :=
  let old := f.description.modelName?.getD f.stem
  (f.description.rename new).record s!"Copied from {f.fileName}: modelName {old} -> {new}"
    editor.time editor.user

/-! ### Names -/

/-- The clone is named as it is asked for. -/
theorem fileName?_clonePath (hslash : '/' ∉ new.toList) (f : Fmu) :
  Path.fileName? (clonePath f new) = some (new ++ ".fmu")
  := by
  have hname : s!"{new}.fmu" = new ++ ".fmu" := by simp [toString]
  rw [clonePath, hname]
  apply Path.fileName?_withFileName
  apply Path.isStep_of_length
  · simp [hslash]
  · simp

/-- The copy of the description is named after the clone. -/
theorem fileName?_siblingPath_clone (hnew : new ≠ "") (hslash : '/' ∉ new.toList) (f : Fmu) :
  Path.fileName? (siblingPath (clonePath f new)) = some (new ++ "_ModelDescription.xml")
  := by
  rw [fileName?_siblingPath (fileName?_clonePath hslash f), Path.splitExtension_fmu hnew]

/-- A clone that has not the stem of the FMU has not its file name. -/
theorem clone_ne (hnew : new ≠ "") (hname : Path.fileName? f.file = some name)
    (hstem : new ≠ f.stem) :
  new ++ ".fmu" ≠ name
  := by
  rintro rfl
  apply hstem
  rw [Fmu.stem, Path.stem?, hname, Option.map_some, Option.getD_some, Path.splitExtension_fmu hnew]

/-! ## Runs -/

/-- A copy of an archive beside it is an archive of the same entries. -/
theorem holds_of_copy {source target own : String} {u : PUnit} (h : Holds d source entries)
    (hname : Path.fileName? source = some name) (hown : Path.fileName? target = some own)
    (hne : own ≠ name) (hcopy : Action.copy source target d = .ok u d') :
  Holds d' target entries ∧ ChangedAt target d d'
  := by
  obtain ⟨content, hcontent, hentries⟩ := Archive.load_eq_ok_iff.mp h.load
  obtain ⟨l, executable, hl, hitem⟩ := Disk.content?_eq_some_iff.mp hcontent
  have hother := Disk.locate?_ne hname hown hne hl
  obtain ⟨k, hk, hplace, rfl⟩ := (Action.copy_eq_ok_iff hl hitem hother).mp hcopy
  have hloaded : (d.put k (.file content executable)).content? target = some content := by
    have hfree : d.isFolderAt k = false := by
      rw [Disk.writableAt, Bool.and_eq_true, Bool.not_eq_true'] at hplace
      exact hplace.2
    rw [Disk.content?, Action.find?_put (Disk.ne_nil_of_writableAt hplace) hfree hk]
  exact ⟨⟨h.proper.put_path hown hk hplace content executable,
    Archive.load_eq_ok_iff.mpr ⟨content, hloaded, hentries⟩, h.nodup⟩,
    Archive.changedAt_put hk hplace content executable⟩

/-- How a run that clones an FMU from a disk ends. -/
inductive Ends (f : Fmu) (new : String) (editor : Editor) (entries : Listing) (d : Disk) :
    EStateM.Result Failure Disk Fmu → Prop where
  /-- The archive could not be copied. -/
  | uncopied {u : Failure} (hcopy : Action.copy f.file (clonePath f new) d = .error u d) :
    Ends f new editor entries d (.error u d)
  /-- A library could not be renamed. -/
  | refused {u : Failure} {d₁ d' : Disk} {done more : Listing} {e : String × Entry}
    (hcopy : Action.copy f.file (clonePath f new) d = .ok () d₁)
    (hentries : entries = done ++ e :: more)
    (hrefuses : Refuses f.stem new done e more)
    (hrenamed : Renamed (clonePath f new) f.stem new d done (e :: more) d') :
    Ends f new editor entries d (.error u d')
  /-- The description could not be written, because an entry is missing. -/
  | undescribed {u : Failure} {d₁ d' : Disk}
    (hcopy : Action.copy f.file (clonePath f new) d = .ok () d₁) (hmissing : ¬ IsWhole entries)
    (hrenamed : Renamed (clonePath f new) f.stem new d entries [] d') :
    Ends f new editor entries d (.error u d')
  /-- The description was written, but not the copy of it. -/
  | unaccompanied {u : Failure} {d₁ d' : Disk} {listing : Listing}
    (hcopy : Action.copy f.file (clonePath f new) d = .ok () d₁)
    (hothers : others listing = (others entries).map (renameLibrary f.stem new))
    (hholds : Holds d' (clonePath f new)
      (described listing (cloneDescription f new editor).render)) :
    Ends f new editor entries d (.error u d')
  | cloned {d₁ d₂ d' : Disk} {listing : Listing}
    (hcopy : Action.copy f.file (clonePath f new) d = .ok () d₁)
    (hothers : others listing = (others entries).map (renameLibrary f.stem new))
    (hchanged : ChangedAt (clonePath f new) d d₂)
    (hcopied : ChangedAt (siblingPath (clonePath f new)) d₂ d')
    (hholds : Holds d' (clonePath f new)
      (described listing (cloneDescription f new editor).render)) :
    Ends f new editor entries d (.ok ⟨clonePath f new, cloneDescription f new editor⟩ d')

/-- An FMU is cloned by copying it, renaming its libraries and writing its new description. -/
theorem cloneAs_eq (f : Fmu) (new : String) (editor : Editor) :
  f.cloneAs new editor = (do
    Action.copy f.file (clonePath f new)
    let entries ← Archive.load (clonePath f new)
    renameLibraries (clonePath f new) f.stem new (names entries)
    let _ ← writeDescription (clonePath f new) (cloneDescription f new editor)
    pure ⟨clonePath f new, cloneDescription f new editor⟩)
  := rfl

/-- Cloning comes to one of its ends. -/
theorem ends_cloneAs (h : Holds d f.file entries) (hnew : new ≠ "") (hslash : '/' ∉ new.toList)
    (hstem : new ≠ f.stem) (editor : Editor) :
  Ends f new editor entries d (f.cloneAs new editor d)
  := by
  obtain ⟨name, hname⟩ := h.proper.exists_fileName? h.isFile
  have htarget := fileName?_clonePath hslash f
  have hne := clone_ne hnew hname hstem
  rw [cloneAs_eq]
  cases hcopy : Action.copy f.file (clonePath f new) d with
  | error u d₁ =>
    obtain rfl := Action.copy_eq_error hcopy
    rw [Action.bind_of_error hcopy]
    exact .uncopied hcopy
  | ok u d₁ =>
    obtain ⟨hholds, hchanged⟩ := holds_of_copy h hname htarget hne hcopy
    have hstart : Renamed (clonePath f new) f.stem new d [] entries d₁ :=
      ⟨hchanged, entries, hholds, rfl⟩
    rw [Action.bind_of_ok hcopy, Action.bind_of_ok hholds.load]
    obtain ⟨d₂, hrun, hrenamed⟩ | ⟨done, e, more, u', d₂, hentries, hrefuses, hrun, hrenamed⟩ :=
      renameLibraries_cases hstart
    · rw [Action.bind_of_ok hrun]
      obtain ⟨listing, hlisting, hothers, hwhole⟩ := hrenamed.exists_others
      obtain ⟨hmissing, u', hwrite⟩ |
          ⟨-, d₃, hholds, hchanged', ⟨u', hwrite⟩ | ⟨d₄, hholds', hcopied, hwrite⟩⟩ :=
        writeDescription_cases hlisting (cloneDescription f new editor)
      · rw [Action.bind_of_error hwrite]
        exact .undescribed hcopy (fun hall => hmissing (hwhole.mpr hall)) hrenamed
      · rw [Action.bind_of_error hwrite]
        exact .unaccompanied hcopy hothers hholds
      · rw [Action.bind_of_ok hwrite]
        exact .cloned hcopy hothers (hrenamed.changed.trans hchanged') hcopied hholds'
    · rw [Action.bind_of_error hrun]
      exact .refused hcopy hentries hrefuses hrenamed

/-- An FMU is not cloned onto itself. -/
theorem clone?_of_eq (hstem : new = f.stem) :
  f.clone? new editor d = .ok none d
  := by
  rw [clone?, if_pos (beq_iff_eq.mpr hstem)]
  rfl

/-- No clone is returned where the run fails, and the disk stays as the run has left it. -/
theorem clone?_of_ne (hstem : new ≠ f.stem) :
  f.clone? new editor d =
    match f.cloneAs new editor d with
    | .ok g d' => .ok (some g) d'
    | .error _ d' => .ok none d'
  := by
  rw [clone?, if_neg (by rwa [beq_iff_eq])]
  cases hrun : f.cloneAs new editor d with
  | ok g d' =>
    have hmade : (do pure (some (← f.cloneAs new editor)) : Action (Option Fmu)) d =
        .ok (some g) d' := Action.bind_of_ok hrun
    exact Action.tryCatch_of_ok hmade
  | error u d' =>
    have hfailed : (do pure (some (← f.cloneAs new editor)) : Action (Option Fmu)) d =
        .error u d' := Action.bind_of_error hrun
    exact Action.tryCatch_of_error hfailed

/-- A clone that is made has been made under a name of its own. -/
theorem cloneAs_of_clone? (hclone : f.clone? new editor d = .ok (some g) d') :
  new ≠ f.stem ∧ f.cloneAs new editor d = .ok g d'
  := by
  by_cases hstem : new = f.stem
  · rw [clone?_of_eq hstem] at hclone
    cases hclone
  · rw [clone?_of_ne hstem] at hclone
    cases hrun : f.cloneAs new editor d with
    | ok g' d₁ =>
      rw [hrun] at hclone
      cases hclone
      exact ⟨hstem, rfl⟩
    | error u d₁ =>
      rw [hrun] at hclone
      cases hclone

/-- A clone that is not made under a name of its own has failed on the way. -/
theorem error_of_clone? (hstem : new ≠ f.stem) (hclone : f.clone? new editor d = .ok none d') :
  ∃ u, f.cloneAs new editor d = .error u d'
  := by
  rw [clone?_of_ne hstem] at hclone
  cases hrun : f.cloneAs new editor d with
  | ok g' d₁ =>
    rw [hrun] at hclone
    cases hclone
  | error u d₁ =>
    rw [hrun] at hclone
    cases hclone
    exact ⟨u, rfl⟩

/-! ## Clones that are made -/

/-- A clone has the other entries of its FMU, in their order and with all libraries renamed at once,
and its description behind them, from which the same is read under the new name.  The file of the
FMU is untouched, unless it has the name of the description beside the clone. -/
theorem clone_made {origin : Disk} (hload : load f.file origin = .ok f origin)
    (hnamed : (Xml.Node.ofElement f.description.root).Named) (h : Holds d f.file entries)
    (hnew : new ≠ "") (hslash : '/' ∉ new.toList)
    (hclone : f.clone? new editor d = .ok (some g) d') :
  g.file = clonePath f new ∧
  Holds d' g.file ((others entries).map (renameLibrary f.stem new) ++
    [(descriptionEntry, .ofText g.description.render)]) ∧
  (Path.fileName? f.file ≠ some (new ++ "_ModelDescription.xml") →
    d'.find? f.file = d.find? f.file) ∧
  ∃ g', load g.file d' = .ok g' d' ∧ Description.Renames new f.description g'.description
  := by
  obtain ⟨hstem, hrun⟩ := cloneAs_of_clone? hclone
  obtain ⟨name, hname⟩ := h.proper.exists_fileName? h.isFile
  have htarget := fileName?_clonePath hslash f
  have hends := ends_cloneAs h hnew hslash hstem editor
  rw [hrun] at hends
  cases hends with
  | @cloned d₁ d₂ _ listing hcopy hothers hchanged hcopied hholds =>
    have hread := hholds.readEntry_of_lookup (lookup_described listing _)
    rw [described, hothers] at hholds
    refine ⟨rfl, hholds, ?_, ?_⟩
    · intro hsibling
      have hother : name ≠ new ++ "_ModelDescription.xml" := by
        rintro rfl
        exact hsibling hname
      calc d'.find? f.file
        _ = d₂.find? f.file :=
          hcopied.find?_eq (fileName?_siblingPath_clone hnew hslash f) hname hother
        _ = d.find? f.file := hchanged.find?_eq htarget hname (clone_ne hnew hname hstem).symm
    · obtain ⟨-, hdescription, -⟩ := load_eq_ok_iff.mp hload
      obtain ⟨text, -, hparse⟩ := readDescription_eq_ok_iff.mp hdescription
      obtain ⟨description, hparsed, hrenames⟩ := Description.exists_renames hparse hnamed new
        s!"Copied from {f.fileName}: modelName {f.description.modelName?.getD f.stem} -> {new}"
        editor.time editor.user
      have hmade := readDescription_eq_ok_iff.mpr ⟨_, hread, hparsed⟩
      exact ⟨⟨clonePath f new, description⟩,
        load_eq_ok_iff.mpr ⟨hholds.isFile, hmade, rfl, rfl⟩, hrenames⟩

theorem load_pump :
  load pump.file pumpDisk = .ok pump pumpDisk
  := by
  have hfile : pumpDisk.find? pump.file = some (.file (.archive pumpEntries) false) := rfl
  have hparse : Description.parse blankText = .ok pump.description := by cbv
  exact load_of_find? hfile rfl hparse

/-- The valve is cloned from the pump with its library renamed. -/
theorem clone_made_pump :
  load pump.file pumpDisk = .ok pump pumpDisk ∧
  (Xml.Node.ofElement pump.description.root).Named ∧
  Holds pumpDisk pump.file pumpEntries ∧
  ∃ g d', pump.clone? "valve" ⟨none, 0⟩ pumpDisk = .ok (some g) d' ∧
    Holds d' g.file [("note", .ofText "old"), ("binaries/linux64/valve.so", .ofText "code"),
      (descriptionEntry, .ofText g.description.render)]
  := by
  have hnamed : (Xml.Node.ofElement pump.description.root).Named :=
    .element ⟨Xml.isName_of_all (by decide), List.forall_mem_nil _⟩ (List.forall_mem_nil _)
  have hclone : (pump.clone? "valve" ⟨none, 0⟩).gives pumpDisk (fun r _ => r.isSome) = true := by
    decide +kernel
  obtain ⟨r, d', hrun, hsome⟩ := Action.exists_of_gives hclone
  obtain ⟨g, rfl⟩ := Option.isSome_iff_exists.mp hsome
  have hmade := clone_made load_pump hnamed holds_pump (by decide) (by decide) hrun
  refine ⟨load_pump, hnamed, holds_pump, g, d', hrun, ?_⟩
  have hentries : (others pumpEntries).map (renameLibrary pump.stem "valve") =
      [("note", .ofText "old"), ("binaries/linux64/valve.so", .ofText "code")] := by
    decide +kernel
  have hholds := hmade.2.1
  rw [hentries] at hholds
  exact hholds

/-- An FMU under the name of the description of its clone is overwritten. -/
theorem source_overwritten :
  pumpDisk.content? "/valve_ModelDescription.xml" = some (.archive pumpEntries) ∧
  ∃ g d' data, (⟨"/valve_ModelDescription.xml", blank.description⟩ : Fmu).clone? "valve" ⟨none, 0⟩
      pumpDisk = .ok (some g) d' ∧
    d'.content? "/valve_ModelDescription.xml" = some (.bytes data)
  := by
  refine ⟨rfl, ?_⟩
  have hrun : ((⟨"/valve_ModelDescription.xml", blank.description⟩ : Fmu).clone? "valve"
      ⟨none, 0⟩).gives pumpDisk (fun r d' => r.isSome &&
        match d'.content? "/valve_ModelDescription.xml" with
        | some (.bytes _) => true
        | some (.archive _) => false
        | none => false) = true := by
    decide +kernel
  obtain ⟨r, d', hclone, hafter⟩ := Action.exists_of_gives hrun
  rw [Bool.and_eq_true] at hafter
  obtain ⟨g, rfl⟩ := Option.isSome_iff_exists.mp hafter.1
  have hbytes := hafter.2
  split at hbytes
  case h_1 data hdata => exact ⟨g, d', data, hclone, hdata⟩
  case h_2 => cases hbytes
  case h_3 => cases hbytes

end Fmu

end Cosim
