import Cosim.Proofs.Archive.Edits

/-!
# Archives among other files

A file that is written changes no file of another name, so that an archive keeps its entries while
another file is written.  An edit of an archive is done, and then it has written the archive alone,
or it is not done and nothing has changed.
-/

namespace Cosim

namespace Disk

variable {d d' : Disk} {path other name own : String} {l : Location} {content : Content}

/-- Paths with different file names lead to different places. -/
theorem locate?_ne (hname : Path.fileName? path = some name)
    (hown : Path.fileName? other = some own) (hne : own ≠ name) (hl : d.locate? path = some l) :
  d.locate? other ≠ some l
  := by
  intro hother
  have hlast := (place_of_fileName? hname hl).1
  rw [(place_of_fileName? hown hother).1, Option.some.injEq] at hlast
  exact hne hlast

theorem ne_nil_of_writableAt (h : d.writableAt l = true) :
  l ≠ []
  := by
  rintro rfl
  cases h

/-- A proper disk is proper with a file put where a path leads. -/
theorem Proper.put_path (hd : d.Proper) (hname : Path.fileName? path = some name)
    (hl : d.locate? path = some l) (hplace : d.writableAt l = true) (content : Content)
    (executable : Bool) :
  (d.put l (.file content executable)).Proper
  := by
  obtain ⟨k, own, rfl⟩ := List.eq_nil_or_concat' l |>.resolve_left (ne_nil_of_writableAt hplace)
  have hlast := (place_of_fileName? hname hl).1
  rw [List.getLast?_concat, Option.some.injEq] at hlast
  subst hlast
  obtain ⟨hfolder, hfree⟩ := writableAt_iff.mp hplace
  exact hd.put (Path.isStep_of_fileName? hname) hfolder hfree content executable

end Disk

namespace Archive

variable {d d' : Disk} {path other name own : String} {entries : Listing} {content : Content}

/-- Putting a file where a path leads changes nothing else. -/
theorem changedAt_put {l : Location} (hl : d.locate? path = some l) (hplace : d.writableAt l = true)
    (content : Content) (executable : Bool) :
  ChangedAt path d (d.put l (.file content executable))
  where
  locate := (Disk.keeps_put hplace content executable).locate?_eq
  kept k hk := by
    rw [Disk.item?_put (Disk.ne_nil_of_writableAt hplace), if_neg]
    rintro rfl
    exact hk hl

/-- Writing a file changes nothing else. -/
theorem changedAt_of_write {u : PUnit} (h : Action.write path content d = .ok u d') :
  ChangedAt path d d'
  := by
  obtain ⟨l, hl, hplace, rfl⟩ := Action.write_eq_ok_iff.mp h
  exact changedAt_put hl hplace content _

/-- A path with another name finds what it found. -/
theorem ChangedAt.find?_eq (h : ChangedAt path d d') (hname : Path.fileName? path = some name)
    (hown : Path.fileName? other = some own) (hne : own ≠ name) :
  d'.find? other = d.find? other
  := by
  rw [Disk.find?, Disk.find?, h.locate]
  cases hl : d.locate? other with
  | none => rfl
  | some l => exact h.kept l (Disk.locate?_ne hown hname hne.symm hl)

namespace Holds

theorem isFile (h : Holds d path entries) :
  d.isFile path = true
  := by
  obtain ⟨content, hcontent, -⟩ := load_eq_ok_iff.mp h.load
  exact Disk.isFile_iff.mpr ⟨content, hcontent⟩

/-- An archive stays as it is when a file of another name is written. -/
theorem write_other {u : PUnit} (h : Holds d path entries) (hname : Path.fileName? path = some name)
    (hown : Path.fileName? other = some own) (hne : own ≠ name)
    (hwrite : Action.write other content d = .ok u d') :
  Holds d' path entries
  where
  proper := by
    obtain ⟨l, hl, hplace, rfl⟩ := Action.write_eq_ok_iff.mp hwrite
    exact h.proper.put_path hown hl hplace content _
  load := by
    have hsame := (changedAt_of_write hwrite).find?_eq hown hname hne.symm
    obtain ⟨content, hcontent, hentries⟩ := load_eq_ok_iff.mp h.load
    refine load_eq_ok_iff.mpr ⟨content, ?_, hentries⟩
    rwa [Disk.content?, hsame, ← Disk.content?]
  nodup := h.nodup

/-- An entry that was made of text is read. -/
theorem readEntry_of_lookup {text : String} (h : Holds d path entries)
    (hentry : entries.lookup name = some (.ofText text)) :
  readEntry path name d = .ok (some text) d
  := by
  rw [readEntry, Action.bind_of_ok h.load, hentry]
  dsimp only
  rw [read_ofText, Action.bind_of_ok (Action.ofExcept_eq_ok.mpr ⟨rfl, rfl⟩), fromUTF8?_toUTF8]
  rfl

/-- An entry that is not there is read as nothing. -/
theorem readEntry_of_lookup_eq_none (h : Holds d path entries)
    (hentry : entries.lookup name = none) :
  readEntry path name d = .ok none d
  := by
  rw [readEntry, Action.bind_of_ok h.load, hentry]
  rfl

/-- An edit that was done has changed the archive as it changes the list of its entries. -/
theorem of_run_eq_ok (h : Holds d path entries) (edit : Edit)
    (hrun : edit.run path d = .ok true d') :
  IsWhole entries ∧ ¬ edit.Refused (names entries) ∧
    Holds d' path (edit.apply (contents entries)) ∧ ChangedAt path d d'
  := by
  obtain ⟨hdone, hnot⟩ := h.run edit
  by_cases hrefused : ¬ IsWhole entries ∨ edit.Refused (names entries)
  · rw [hnot hrefused] at hrun
    cases hrun
  · rw [not_or, not_not] at hrefused
    obtain ⟨d₁, hok, hholds, hchanged⟩ := hdone hrefused.1 hrefused.2
    rw [hok] at hrun
    cases hrun
    exact ⟨hrefused.1, hrefused.2, hholds, hchanged⟩

end Holds

/-! ## Edits of any file -/

/-- An edit of a file, be it an archive or not, is done or changes nothing. -/
theorem succeeds_edit_cases (path : String) (change : Listing → Except Failure Listing) (d : Disk) :
  succeeds (edit path change) d = .ok false d ∨
  ∃ d', succeeds (edit path change) d = .ok true d' ∧ ChangedAt path d d'
  := by
  have hfailed {u : Failure} (h : edit path change d = .error u d) :
      succeeds (edit path change) d = .ok false d :=
    Action.tryCatch_of_error (Action.bind_of_error h)
  obtain ⟨entries, hload, -⟩ | ⟨u, hload, -⟩ := reads_load path d d rfl
  · cases hchange : change entries with
    | error u =>
      have hrefused : Action.ofExcept (change entries) d = .error u d := by
        rw [hchange]
        rfl
      exact .inl (hfailed ((Action.bind_of_ok hload).trans (Action.bind_of_error hrefused)))
    | ok edited =>
      have hwhole : edit path change d = Action.write path (.archive edited) d := by
        rw [edit, Action.bind_of_ok hload, hchange,
          Action.bind_of_ok (Action.ofExcept_eq_ok.mpr ⟨rfl, rfl⟩)]
      cases hwrite : Action.write path (.archive edited) d with
      | ok u d' =>
        exact .inr ⟨d', Action.tryCatch_of_ok (Action.bind_of_ok (hwhole.trans hwrite)),
          changedAt_of_write hwrite⟩
      | error u d' =>
        obtain rfl := Action.write_eq_error hwrite
        exact .inl (hfailed (hwhole.trans hwrite))
  · exact .inl (hfailed (Action.bind_of_error hload))

end Archive

end Cosim
