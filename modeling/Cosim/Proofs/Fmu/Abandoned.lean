import Cosim.Proofs.Fmu.Cloning

/-!
# Abandoned clones

Cloning that fails writes nothing but the archive of the clone.  That file is left behind with what
the run had come to: the entries of the FMU with the libraries in front of the first refused one
renamed, or the whole clone, if only the copy of its description could not be written.
-/

namespace Cosim

/-! ## Actions that write one file -/

/-- Copying changes nothing but the target. -/
theorem Action.changedAt_copy {d d' : Disk} {source target : String} {u : PUnit}
    (h : copy source target d = .ok u d') :
  Archive.ChangedAt target d d'
  := by
  simp only [copy, bind_eq_ok, read_eq_ok, get_eq_ok] at h
  obtain ⟨content, _, ⟨hcontent, rfl⟩, _, _, ⟨rfl, rfl⟩, h⟩ := h
  split at h
  · exact Archive.changedAt_of_write h
  · rw [bind_eq_ok] at h
    obtain ⟨_, d₁, hwrite, h⟩ := h
    obtain ⟨l, hl, hplace, rfl⟩ := write_eq_ok_iff.mp hwrite
    have hchanged := Archive.changedAt_put hl hplace content (d.executableAt l)
    rw [get_bind] at h
    simp only [hchanged.locate, hl, Disk.put_put, set_eq_ok] at h
    rw [← h]
    exact Archive.changedAt_put hl hplace content _

namespace Archive

variable {d d' : Disk} {path : String}

/-- An edit of a file always comes to an end, be the file an archive or not. -/
theorem exists_run (edit : Edit) (path : String) (d : Disk) :
  ∃ done d', edit.run path d = .ok done d' ∧ ChangedAt path d d'
  := by
  rw [Edit.run_eq]
  obtain hedit | ⟨d', hedit, hchanged⟩ := succeeds_edit_cases path edit.change d
  · exact ⟨false, d, hedit, .refl path d⟩
  · exact ⟨true, d', hedit, hchanged⟩

end Archive

namespace Fmu

open Archive (Holds ChangedAt Listing Entry Edit contents names IsWhole)

variable {f : Fmu} {d d' : Disk} {new stem file : String} {editor : Editor} {entries : Listing}

/-- Renaming libraries changes nothing but the archive, whether it fails or not. -/
theorem changedAt_renameLibraries (file stem new : String) (pending : List String) (d : Disk) :
  ∃ d', ChangedAt file d d' ∧ (renameLibraries file stem new pending d = .ok () d' ∨
    ∃ u, renameLibraries file stem new pending d = .error u d')
  := by
  induction pending generalizing d with
  | nil => exact ⟨d, .refl file d, .inl rfl⟩
  | cons name pending ih =>
    cases hlibrary : renamedLibrary? stem new name with
    | none =>
      rw [renameLibraries_of_none hlibrary]
      exact ih d
    | some library =>
      obtain ⟨done, d₁, hrun, hchanged⟩ := Archive.exists_run (.rename name library) file d
      cases done with
      | true =>
        rw [renameLibraries_of_done hlibrary hrun]
        obtain ⟨d', hrest, hends⟩ := ih d₁
        exact ⟨d', hchanged.trans hrest, hends⟩
      | false => exact ⟨d₁, hchanged, .inr ⟨_, renameLibraries_of_refused hlibrary hrun pending⟩⟩

/-- Writing a description that fails has written nothing but the archive. -/
theorem changedAt_of_writeDescription {model : Description} {u : Failure}
    (h : writeDescription file model d = .error u d') :
  ChangedAt file d d'
  := by
  apply Step.changedAt_of_runAll_error _ (runAll_of_writeDescription_error h)
  intro step hstep
  obtain rfl | hstep := List.mem_cons.mp hstep
  · rfl
  · obtain rfl := List.mem_singleton.mp hstep
    rfl

/-- A run that fails writes nothing but the archive of the clone. -/
theorem changedAt_of_cloneAs {u : Failure} (h : f.cloneAs new editor d = .error u d') :
  ChangedAt (clonePath f new) d d'
  := by
  rw [cloneAs_eq] at h
  cases hcopy : Action.copy f.file (clonePath f new) d with
  | error u' d₁ =>
    rw [Action.bind_of_error hcopy] at h
    cases h
    rw [Action.copy_eq_error hcopy]
    exact .refl _ d
  | ok u' d₁ =>
    have hcopied := Action.changedAt_copy hcopy
    rw [Action.bind_of_ok hcopy] at h
    obtain ⟨entries, hload, -⟩ | ⟨u', hload, -⟩ := Archive.reads_load (clonePath f new) d₁ d₁ rfl
    · rw [Action.bind_of_ok hload] at h
      obtain ⟨d₂, hrenamed, hrun | ⟨u', hrun⟩⟩ :=
        changedAt_renameLibraries (clonePath f new) f.stem new (names entries) d₁
      · rw [Action.bind_of_ok hrun] at h
        cases hwrite : writeDescription (clonePath f new) (cloneDescription f new editor) d₂ with
        | error u' d₃ =>
          rw [Action.bind_of_error hwrite] at h
          cases h
          exact (hcopied.trans hrenamed).trans (changedAt_of_writeDescription hwrite)
        | ok sibling d₃ =>
          rw [Action.bind_of_ok hwrite] at h
          cases h
      · rw [Action.bind_of_error hrun] at h
        cases h
        exact hcopied.trans hrenamed
    · rw [Action.bind_of_error hload] at h
      cases h
      exact hcopied

/-! ## What is left behind -/

/-- The entries that an abandoned clone can have. -/
inductive LeftBehind (f : Fmu) (new : String) (editor : Editor) (entries : Listing) :
    Listing → Prop where
  /-- The libraries in front of one that cannot be renamed have their new names. -/
  | refused {done more listing : Listing} {e : String × Entry}
    (hentries : entries = done ++ e :: more)
    (hrefuses : Refuses f.stem new done e more)
    (hlisting : contents listing = partly f.stem new done (e :: more)) :
    LeftBehind f new editor entries listing
  /-- An entry is missing, so that no description can be written. -/
  | undescribed {listing : Listing} (hmissing : ¬ IsWhole entries)
    (hlisting : contents listing = partly f.stem new entries []) :
    LeftBehind f new editor entries listing
  /-- The clone is complete, but for the copy of the description beside it. -/
  | unaccompanied : LeftBehind f new editor entries
      ((others entries).map (renameLibrary f.stem new) ++
        [(descriptionEntry, .ofText (cloneDescription f new editor).render)])

/-- If no clone is returned, nothing has changed but the file of the clone, and that has not either
if the FMU has the new name or cannot be copied there.  Otherwise the file is left behind. -/
theorem clone_abandoned (hclone : f.clone? new editor d = .ok none d') :
  ChangedAt (clonePath f new) d d' ∧
  (new = f.stem → d' = d) ∧
  (∀ u d₁, Action.copy f.file (clonePath f new) d = .error u d₁ → d' = d) ∧
  ∀ entries, Holds d f.file entries → new ≠ "" → '/' ∉ new.toList → new ≠ f.stem →
    (∃ d₁, Action.copy f.file (clonePath f new) d = .ok () d₁) →
    ∃ listing, Holds d' (clonePath f new) listing ∧ LeftBehind f new editor entries listing
  := by
  by_cases hstem : new = f.stem
  · rw [clone?_of_eq hstem] at hclone
    cases hclone
    exact ⟨.refl _ d, fun _ => rfl, fun _ _ _ => rfl, fun _ _ _ _ hne => absurd hstem hne⟩
  · obtain ⟨u, hrun⟩ := error_of_clone? hstem hclone
    refine ⟨changedAt_of_cloneAs hrun, fun heq => absurd heq hstem, ?_, ?_⟩
    · intro u' d₁ hcopy
      rw [cloneAs_eq, Action.bind_of_error hcopy] at hrun
      cases hrun
      exact Action.copy_eq_error hcopy
    · rintro entries h hnew hslash - ⟨d₁, hcopied⟩
      have hends := ends_cloneAs h hnew hslash hstem editor
      rw [hrun] at hends
      cases hends with
      | uncopied hcopy =>
        rw [hcopied] at hcopy
        cases hcopy
      | refused _ hentries hrefuses hrenamed =>
        obtain ⟨listing, hholds, hlisting⟩ := hrenamed.holds
        exact ⟨listing, hholds, .refused hentries hrefuses hlisting⟩
      | undescribed _ hmissing hrenamed =>
        obtain ⟨listing, hholds, hlisting⟩ := hrenamed.holds
        exact ⟨listing, hholds, .undescribed hmissing hlisting⟩
      | unaccompanied _ hothers hholds =>
        rw [described, hothers] at hholds
        exact ⟨_, hholds, .unaccompanied⟩

/-- An FMU with two libraries, of which the second has the new name of the first. -/
def rivalEntries : Listing := [
  (descriptionEntry, .ofText blankText), ("binaries/linux64/a.so", .ofText "a"),
  ("binaries/linux64/b.so", .ofText "b")]

def rivalDisk : Disk where
  items := [(["a.fmu"], .file (.archive rivalEntries) false)]
  current := []

def rival : Fmu := ⟨"/a.fmu", blank.description⟩

theorem holds_rival :
  Holds rivalDisk rival.file rivalEntries
  where
  proper := by decide +kernel
  load := Archive.load_eq_ok_iff.mpr ⟨.archive rivalEntries, rfl, rfl⟩
  nodup := by decide

/-- Cloning gives up at the library whose new name is taken, and the file of the clone stays. -/
theorem exists_clone?_rival :
  ∃ d', rival.clone? "b" ⟨none, 0⟩ rivalDisk = .ok none d' ∧ d'.isFile "/b.fmu" = true
  := by
  have hrun : (rival.clone? "b" ⟨none, 0⟩).gives rivalDisk
      (fun r d' => r.isNone && d'.isFile "/b.fmu") = true := by
    decide +kernel
  obtain ⟨r, d', hclone, hafter⟩ := Action.exists_of_gives hrun
  rw [Bool.and_eq_true, Option.isNone_iff_eq_none] at hafter
  obtain ⟨rfl, hfile⟩ := hafter
  exact ⟨d', hclone, hfile⟩

/-- What is left of the clone is an archive with some libraries renamed. -/
theorem clone_abandoned_rival :
  ∃ d', rival.clone? "b" ⟨none, 0⟩ rivalDisk = .ok none d' ∧
    ChangedAt (clonePath rival "b") rivalDisk d' ∧
    ∃ listing, Holds d' (clonePath rival "b") listing ∧
      LeftBehind rival "b" ⟨none, 0⟩ rivalEntries listing
  := by
  obtain ⟨d', hclone, -⟩ := exists_clone?_rival
  have hcopy : (Action.copy rival.file (clonePath rival "b")).gives rivalDisk
      (fun _ _ => true) = true := by
    decide +kernel
  obtain ⟨_, d₁, hcopied, -⟩ := Action.exists_of_gives hcopy
  obtain ⟨hchanged, -, -, hleft⟩ := clone_abandoned hclone
  exact ⟨d', hclone, hchanged, hleft rivalEntries holds_rival (by decide) (by decide)
    (by decide +kernel) ⟨d₁, hcopied⟩⟩

/-- No clone is returned, and there is a file that was not there before. -/
theorem remains_rival :
  rivalDisk.find? "/b.fmu" = none ∧
  ∃ d', rival.clone? "b" ⟨none, 0⟩ rivalDisk = .ok none d' ∧ d'.isFile "/b.fmu" = true
  := ⟨rfl, exists_clone?_rival⟩

end Fmu

end Cosim
