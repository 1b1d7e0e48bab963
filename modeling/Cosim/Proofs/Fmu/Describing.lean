import Cosim.Proofs.Step

/-!
# Descriptions written into archives

A description is written in three steps: the old one is dropped, the new one is put at the end, and
a copy of it is put beside the archive.  At no moment has another entry changed, but between the
first two steps the archive has no description, and it is left without one if the second step fails.
-/

namespace Cosim.Fmu

open Archive (Holds ChangedAt Listing Edit contents names IsWhole)
open Step (Moment Progress)

variable {d d' d'' : Disk} {file text name : String} {entries : Listing} {model : Description}

/-! ## The copy beside the archive -/

/-- The copy is named after the archive. -/
theorem fileName?_siblingPath (hname : Path.fileName? file = some name) :
  Path.fileName? (siblingPath file) =
    some ((Path.splitExtension name).1 ++ "_ModelDescription.xml")
  := by
  have hstem : Path.stem? file = some (Path.splitExtension name).1 := by
    rw [Path.stem?, hname, Option.map_some]
  rw [siblingPath, hstem]
  apply Path.fileName?_withFileName
  apply Path.isStep_of_length
  · simp [toString, Path.not_mem_stem hname]
  · simp [toString]

/-- The copy is another file than the archive. -/
theorem sibling_ne (name : String) :
  (Path.splitExtension name).1 ++ "_ModelDescription.xml" ≠ name
  := Path.stem_append_ne (by decide) (by decide)

/-! ## Entries -/

/-- The entries that describe no model. -/
def others (entries : Listing) : Listing :=
  (contents entries).filter fun e => e.1 ≠ descriptionEntry

/-- The entries of an archive with a text for its description. -/
def described (entries : Listing) (text : String) : Listing :=
  others entries ++ [(descriptionEntry, .ofText text)]

/-- Dropping the description leaves the other entries. -/
theorem apply_remove (entries : Listing) :
  (Edit.remove [descriptionEntry]).apply (contents entries) = others entries
  := by
  rw [Edit.apply, others]
  simp only [List.mem_singleton]

theorem others_append (entries more : Listing) :
  others (entries ++ more) = others entries ++ others more
  := by
  rw [others, contents, List.map_append, List.filter_append]
  rfl

/-- Of the other entries none describes the model. -/
theorem others_others (entries : Listing) :
  others (others entries) = others entries
  := by
  have hcontents : contents (others entries) = others entries := by
    rw [← apply_remove, Edit.contents_apply]
  rw [others, hcontents, others, List.filter_filter]
  simp only [Bool.and_self]

/-- Adding a text to the other entries describes the model by it. -/
theorem apply_add (entries : Listing) (text : String) :
  (Edit.add descriptionEntry text).apply (contents (others entries)) = described entries text
  := by
  rw [Edit.apply, ← others, others_others, described]

/-- A new description leaves the other entries. -/
theorem others_described (entries : Listing) (text : String) :
  others (described entries text) = others entries
  := by
  have hnew : others [(descriptionEntry, .ofText text)] = [] := by
    rw [others, List.filter_eq_nil_iff]
    intro e he
    obtain rfl := List.mem_singleton.mp he
    simp
  rw [described, others_append, others_others, hnew, List.append_nil]

/-- There is no description among the other entries. -/
theorem lookup_others (entries : Listing) :
  (others entries).lookup descriptionEntry = none
  := by
  rw [List.lookup_eq_none_iff]
  intro e he
  have hne := List.of_mem_filter he
  rw [decide_eq_true_eq] at hne
  rw [bne_iff_ne]
  exact hne.symm

/-- The description that is found is the new one. -/
theorem lookup_described (entries : Listing) (text : String) :
  (described entries text).lookup descriptionEntry = some (.ofText text)
  := by
  rw [described, List.lookup_append, lookup_others, Option.none_or, List.lookup_cons_self]

theorem isWhole_others (h : IsWhole entries) :
  IsWhole (others entries)
  := by
  rw [← apply_remove]
  exact Edit.isWhole_apply (Archive.isWhole_contents.mpr h)

/-! ## Single steps -/

/-- An archive whose description has been dropped has the other entries. -/
theorem holds_of_dropping {u : PUnit} (h : Holds d file entries)
    (hrun : (droppingStep file).run d = .ok u d') :
  Holds d' file (others entries) ∧ ChangedAt file d d'
  := by
  have hedit := Step.run_edit_eq_ok_iff.mp hrun
  obtain ⟨-, -, hholds, hchanged⟩ := h.of_run_eq_ok (.remove [descriptionEntry]) hedit
  rw [apply_remove] at hholds
  exact ⟨hholds, hchanged⟩

/-- An archive without a description has the text that is added at its end. -/
theorem holds_of_adding {u : PUnit} (h : Holds d file (others entries))
    (hrun : (addingStep file text).run d = .ok u d') :
  Holds d' file (described entries text) ∧ ChangedAt file d d'
  := by
  have hedit := Step.run_edit_eq_ok_iff.mp hrun
  obtain ⟨-, -, hholds, hchanged⟩ := h.of_run_eq_ok (.add descriptionEntry text) hedit
  rw [apply_add] at hholds
  exact ⟨hholds, hchanged⟩

/-- Whatever is written beside an archive, its entries stay. -/
theorem holds_of_writeSibling {content : Content} {u : PUnit} (h : Holds d file entries)
    (hwrite : Action.write (siblingPath file) content d = .ok u d') :
  Holds d' file entries
  := by
  obtain ⟨name, hname⟩ := h.proper.exists_fileName? h.isFile
  exact h.write_other hname (fileName?_siblingPath hname) (sibling_ne name) hwrite

/-- The description of an archive is dropped unless an entry is missing. -/
theorem exists_dropping (h : Holds d file entries) :
  (IsWhole entries → ∃ d', (droppingStep file).run d = .ok () d') ∧
  (¬ IsWhole entries → (droppingStep file).run d = .error (updatingFailure file) d)
  := by
  obtain ⟨hdone, hrefused⟩ := h.run (.remove [descriptionEntry])
  constructor
  · intro hwhole
    obtain ⟨d', hedit, -⟩ := hdone hwhole id
    exact ⟨d', Step.run_edit_eq_ok_iff.mpr hedit⟩
  · exact fun hmissing => Step.run_edit_of_refused (hrefused (.inl hmissing))

/-- A text is added to an archive in which no entry is missing. -/
theorem exists_adding (h : Holds d file entries) (hwhole : IsWhole entries) (text : String) :
  ∃ d', (addingStep file text).run d = .ok () d'
  := by
  obtain ⟨d', hedit, -⟩ := (h.run (.add descriptionEntry text)).1 hwhole id
  exact ⟨d', Step.run_edit_eq_ok_iff.mpr hedit⟩

/-! ## Moments -/

/-- What an archive has for a description while one is written. -/
inductive Phase where
  | old
  | absent
  | new
deriving DecidableEq

/-- The entries of the archive in each phase. -/
def Phase.listing (phase : Phase) (entries : Listing) (text : String) : Listing :=
  match phase with
  | .old => entries
  | .absent => others entries
  | .new => described entries text

/-- The phase when a run has come so far.  A run that fails can have stopped in any of them. -/
inductive Phase.At (file text : String) : Progress → Phase → Prop where
  | old : At file text (.running (writingSteps file text)) .old
  | absent : At file text (.running [addingStep file text, copyingStep file text]) .absent
  | new : At file text (.running [copyingStep file text]) .new
  | copied : At file text (.running []) .new
  | returned : At file text .returned .new
  | failed (phase : Phase) : At file text .failed phase

/-- At a moment of writing a text, the archive has the entries of a phase. -/
structure Phase.HoldsAt (file text : String) (d : Disk) (entries : Listing) (phase : Phase)
    (m : Moment) : Prop where
  phase_at : phase.At file text m.progress
  holds : Holds m.disk file (phase.listing entries text)
  untouched : phase = .old → m.disk = d

/-- Whatever the phase, the other entries are the same and in the same order. -/
theorem others_listing (phase : Phase) (entries : Listing) (text : String) :
  others (phase.listing entries text) = others entries
  := by
  cases phase with
  | old => rfl
  | absent => exact others_others entries
  | new => exact others_described entries text

/-- The phases go on from each moment to the next one. -/
theorem Phase.HoldsAt.next {phase : Phase} {m m' : Moment}
    (h : phase.HoldsAt file text d entries m) (hnext : m.Next m') :
  ∃ phase' : Phase, phase'.HoldsAt file text d entries m'
  := by
  obtain ⟨hat, hholds, huntouched⟩ := h
  -- only a step that is done goes on to another phase, and the steps left tell which one is over
  cases hnext with
  | failed => exact ⟨phase, .failed phase, hholds, huntouched⟩
  | returned =>
    generalize hleft : Progress.running [] = progress at hat
    cases hat with
    | copied => exact ⟨.new, .returned, hholds, nofun⟩
    | old | absent | new => cases hleft
    | returned | failed => cases hleft
  | done hrun =>
    generalize hleft : Progress.running _ = progress at hat
    cases hat with
    | old =>
      cases hleft
      exact ⟨.absent, .absent, (holds_of_dropping hholds hrun).1, nofun⟩
    | absent =>
      cases hleft
      exact ⟨.new, .new, (holds_of_adding hholds hrun).1, nofun⟩
    | new =>
      cases hleft
      exact ⟨.new, .copied, holds_of_writeSibling hholds hrun, nofun⟩
    | copied | returned | failed => cases hleft
  | writing hwrite =>
    generalize hleft : Progress.running _ = progress at hat
    cases hat with
    | new =>
      cases hleft
      exact ⟨.new, .new, holds_of_writeSibling hholds hwrite, nofun⟩
    | old | absent => cases hleft
    | copied | returned | failed => cases hleft

/-- At every moment the archive has the entries of a phase. -/
theorem exists_phase {m : Moment} (h : Holds d file entries)
    (hm : Moment.Of (writingSteps file text) d m) :
  ∃ phase : Phase, phase.HoldsAt file text d entries m
  := by
  apply hm.induction
  · exact ⟨.old, .old, h, fun _ => rfl⟩
  · rintro m m' ⟨phase, hphase⟩ hnext
    exact hphase.next hnext

/-! ## Whole runs -/

/-- An archive with a missing entry is left as it is.  In any other one the description is replaced,
and then the copy is written or fails. -/
theorem writeDescription_cases (h : Holds d file entries) (model : Description) :
  (¬ IsWhole entries ∧ ∃ e, writeDescription file model d = .error e d) ∨
  IsWhole entries ∧ ∃ d', Holds d' file (described entries model.render) ∧ ChangedAt file d d' ∧
    ((∃ e, writeDescription file model d = .error e d') ∨
      ∃ d'', Holds d'' file (described entries model.render) ∧
        ChangedAt (siblingPath file) d' d'' ∧
        writeDescription file model d = .ok (siblingPath file) d'')
  := by
  rw [writeDescription, writingSteps]
  obtain ⟨hdropping, hkept⟩ := exists_dropping h
  by_cases hwhole : IsWhole entries
  · obtain ⟨d₁, hdropped⟩ := hdropping hwhole
    obtain ⟨hothers, hchanged⟩ := holds_of_dropping h hdropped
    obtain ⟨d₂, hadded⟩ := exists_adding hothers (isWhole_others hwhole) model.render
    obtain ⟨hdescribed, hchanged'⟩ := holds_of_adding hothers hadded
    refine .inr ⟨hwhole, d₂, hdescribed, hchanged.trans hchanged', ?_⟩
    have hsteps := (Step.runAll_cons_of_ok hdropped
      [addingStep file model.render, copyingStep file model.render]).trans
        (Step.runAll_cons_of_ok hadded _)
    cases hcopy : (copyingStep file model.render).run d₂ with
    | ok u d₃ =>
      have hall := hsteps.trans (Step.runAll_cons_of_ok hcopy [])
      exact .inr ⟨d₃, holds_of_writeSibling hdescribed hcopy, Archive.changedAt_of_write hcopy,
        Action.bind_of_ok hall⟩
    | error e d₃ =>
      obtain rfl := Step.run_eq_error hcopy
      have hall := hsteps.trans (Step.runAll_cons_of_error hcopy [])
      exact .inl ⟨e, Action.bind_of_error hall⟩
  · exact .inl ⟨hwhole, _, Action.bind_of_error (Step.runAll_cons_of_error (hkept hwhole) _)⟩

/-- Writing that returns has done all its steps. -/
theorem runAll_of_writeDescription_ok {sibling : String}
    (h : writeDescription file model d = .ok sibling d') :
  Step.runAll (writingSteps file model.render) d = .ok () d'
  := by
  rw [writeDescription, Action.bind_eq_ok] at h
  obtain ⟨_, d₁, hrun, hreturn⟩ := h
  cases hreturn
  exact hrun

/-- Writing that fails has failed at one of its steps. -/
theorem runAll_of_writeDescription_error {e : Failure}
    (h : writeDescription file model d = .error e d') :
  Step.runAll (writingSteps file model.render) d = .error e d'
  := by
  rw [writeDescription] at h
  cases hrun : Step.runAll (writingSteps file model.render) d with
  | ok u d₁ =>
    rw [Action.bind_of_ok hrun] at h
    cases h
  | error e' d₁ =>
    rw [Action.bind_of_error hrun] at h
    cases h
    rfl

/-- At every moment while a description is written, all other entries are the same and in the same
order, and the archive has the old description, or none, or the new one.  A step that fails for
whatever reason ends the run in the phase that it has come to.  A run that returns has the new
description in the archive, and where nothing but the disk makes it fail, the description is the old
or the new one. -/
theorem described_throughout (h : Holds d file entries) (model : Description) :
  (∀ m, Moment.Of (writingSteps file model.render) d m →
    ∃ phase : Phase, phase.At file model.render m.progress ∧
      Holds m.disk file (phase.listing entries model.render) ∧
      others (phase.listing entries model.render) = others entries ∧
      match phase with
      | .old => m.disk = d
      | .absent => Archive.readEntry file descriptionEntry m.disk = .ok none m.disk
      | .new => Archive.readEntry file descriptionEntry m.disk = .ok (some model.render) m.disk) ∧
  (∀ sibling d', writeDescription file model d = .ok sibling d' →
    Moment.Of (writingSteps file model.render) d ⟨.returned, d'⟩) ∧
  ∀ e d', writeDescription file model d = .error e d' →
    Moment.Of (writingSteps file model.render) d ⟨.failed, d'⟩ ∧
      (d' = d ∨ Archive.readEntry file descriptionEntry d' = .ok (some model.render) d')
  := by
  refine ⟨?_, fun sibling d' hrun => ?_, fun e d' hrun => ⟨?_, ?_⟩⟩
  · intro m hm
    obtain ⟨phase, hat, hholds, huntouched⟩ := exists_phase h hm
    refine ⟨phase, hat, hholds, others_listing phase entries model.render, ?_⟩
    cases phase with
    | old => exact huntouched rfl
    | absent => exact hholds.readEntry_of_lookup_eq_none (lookup_others entries)
    | new => exact hholds.readEntry_of_lookup (lookup_described entries model.render)
  · have hmoment := Step.moment_runAll (writingSteps file model.render) d
    rwa [runAll_of_writeDescription_ok hrun] at hmoment
  · have hmoment := Step.moment_runAll (writingSteps file model.render) d
    rwa [runAll_of_writeDescription_error hrun] at hmoment
  · obtain ⟨-, e', hkept⟩ | ⟨-, d₁, hholds, -, ⟨e', hnew⟩ | ⟨d₂, -, -, hcopied⟩⟩ :=
      writeDescription_cases h model
    · rw [hkept] at hrun
      cases hrun
      exact .inl rfl
    · rw [hnew] at hrun
      cases hrun
      exact .inr (hholds.readEntry_of_lookup (lookup_described entries model.render))
    · rw [hcopied] at hrun
      cases hrun

/-- A pump with a library and a note, and the same FMU under a name that is that of the description
of a clone. -/
def pumpEntries : Listing := [
  ("note", .ofText "old"), (descriptionEntry, .ofText blankText),
  ("binaries/linux64/pump.so", .ofText "code")]

def pumpDisk : Disk where
  items := [(["pump.fmu"], .file (.archive pumpEntries) false),
    (["valve_ModelDescription.xml"], .file (.archive pumpEntries) false)]
  current := []

def pump : Fmu := ⟨"/pump.fmu", blank.description⟩

theorem holds_pump :
  Holds pumpDisk pump.file pumpEntries
  where
  proper := by decide +kernel
  load := Archive.load_eq_ok_iff.mpr ⟨.archive pumpEntries, rfl, rfl⟩
  nodup := by decide

/-- The library and the note of the pump are there at every moment, and in the end the new
description is behind them. -/
theorem described_throughout_pump :
  Holds pumpDisk pump.file pumpEntries ∧
  (∀ m, Moment.Of (writingSteps pump.file blank.description.render) pumpDisk m →
    ∃ phase : Phase, phase.At pump.file blank.description.render m.progress ∧
      Holds m.disk pump.file (phase.listing pumpEntries blank.description.render) ∧
      others (phase.listing pumpEntries blank.description.render) =
        [("note", .ofText "old"), ("binaries/linux64/pump.so", .ofText "code")]) ∧
  ∃ sibling d', writeDescription pump.file blank.description pumpDisk = .ok sibling d' ∧
    Holds d' pump.file [("note", .ofText "old"), ("binaries/linux64/pump.so", .ofText "code"),
      (descriptionEntry, .ofText blank.description.render)]
  := by
  have hothers : others pumpEntries =
      [("note", .ofText "old"), ("binaries/linux64/pump.so", .ofText "code")] := by
    decide +kernel
  obtain ⟨hmoments, hreturned, -⟩ := described_throughout holds_pump blank.description
  refine ⟨holds_pump, fun m hm => ?_, ?_⟩
  · obtain ⟨phase, hat, hholds, hsame, -⟩ := hmoments m hm
    exact ⟨phase, hat, hholds, hsame.trans hothers⟩
  · have hreturns : (writeDescription pump.file blank.description).gives pumpDisk
        (fun _ _ => true) = true := by
      decide +kernel
    obtain ⟨sibling, d', hwritten, -⟩ := Action.exists_of_gives hreturns
    obtain ⟨phase, hat, hholds, -⟩ := hmoments _ (hreturned _ _ hwritten)
    cases hat
    rw [Phase.listing, described, hothers] at hholds
    exact ⟨sibling, d', hwritten, hholds⟩

/-- A model with a key that takes a password. -/
def lockedDisk : Disk where
  items := [(["locked.fmu"], .file (.archive [(descriptionEntry, .ofText blankText),
    ("key", { Archive.Entry.ofText "secret" with locked := true })]) false)]
  current := []

/-- Between the first two steps there is no description, and a second step that fails leaves the
archive without one.  The key does not take a password any more. -/
theorem undescribed_locked :
  Archive.readEntry "/locked.fmu" descriptionEntry lockedDisk =
    .ok (some blankText) lockedDisk ∧
  (∃ d', Moment.Of (writingSteps "/locked.fmu" blank.description.render) lockedDisk
      ⟨.running [addingStep "/locked.fmu" blank.description.render,
        copyingStep "/locked.fmu" blank.description.render], d'⟩ ∧
    Moment.Of (writingSteps "/locked.fmu" blank.description.render) lockedDisk ⟨.failed, d'⟩ ∧
    Archive.readEntry "/locked.fmu" descriptionEntry d' = .ok none d') ∧
  Archive.readEntry "/locked.fmu" "key" lockedDisk = .error .archiveFormat lockedDisk ∧
  ∃ sibling d', writeDescription "/locked.fmu" blank.description lockedDisk = .ok sibling d' ∧
    ((Archive.readEntry "/locked.fmu" "key").gives d' fun text _ => text == some "secret") = true
  := by
  have hholds : Holds lockedDisk "/locked.fmu" [(descriptionEntry, .ofText blankText),
      ("key", { Archive.Entry.ofText "secret" with locked := true })] := by
    refine ⟨by decide +kernel, Archive.load_eq_ok_iff.mpr ⟨_, rfl, rfl⟩, by decide⟩
  obtain ⟨d', hdropped⟩ := (exists_dropping hholds).1 (by decide)
  have hbetween : Moment.Of (writingSteps "/locked.fmu" blank.description.render) lockedDisk
      ⟨.running [addingStep "/locked.fmu" blank.description.render,
        copyingStep "/locked.fmu" blank.description.render], d'⟩ :=
    .single (.done hdropped)
  have hnone := (holds_of_dropping hholds hdropped).1.readEntry_of_lookup_eq_none (lookup_others _)
  refine ⟨hholds.readEntry_of_lookup rfl, ⟨d', hbetween, hbetween.tail .failed, hnone⟩, rfl, ?_⟩
  apply Action.exists_of_gives
  decide +kernel

end Cosim.Fmu
