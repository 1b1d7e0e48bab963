import Cosim.Proofs.Fmu.Describing

/-!
# Renamed libraries

The libraries of an archive are renamed one after another, each in an edit of its own.  If every
edit is done, all libraries have been renamed at once, each of them a single time: a new name does
not hide an entry that is still to be renamed.  The first edit that is refused ends the renaming,
and the libraries in front of it keep their new names.
-/

namespace Cosim.Fmu

open Archive (Holds ChangedAt Listing Entry Edit contents names IsWhole)

variable {d d' origin : Disk} {file stem new name : String} {entries front back more : Listing}
  {e : String × Entry}

/-! ## Names of libraries -/

/-- An entry under its name in a clone. -/
def renameLibrary (stem new : String) (e : String × Entry) : String × Entry :=
  ((renamedLibrary? stem new e.1).getD e.1, e.2)

/-- A library that is renamed lies among the binaries, and its new name is one in a folder. -/
theorem renamedLibrary?_eq_some {library : String}
    (h : renamedLibrary? stem new name = some library) :
  name.startsWith "binaries/" = true ∧ '/' ∈ library.toList
  := by
  rw [renamedLibrary?] at h
  split at h
  · cases h
  · rename_i hstart
    rw [Bool.not_eq_true, Bool.not_eq_false'] at hstart
    refine ⟨hstart, ?_⟩
    obtain ⟨⟨folder, own⟩, -, h⟩ := Option.bind_eq_some_iff.mp h
    obtain ⟨⟨stem', extension⟩, -, h⟩ := Option.bind_eq_some_iff.mp h
    dsimp only at h
    split at h
    · cases h
      simp
    · cases h

/-- What is no library of the FMU keeps its name. -/
theorem renameLibrary_of_none (h : renamedLibrary? stem new e.1 = none) :
  renameLibrary stem new e = e
  := by
  rw [renameLibrary, h, Option.getD_none]

/-- A library of the FMU gets its new name. -/
theorem renameLibrary_of_some {library : String} (h : renamedLibrary? stem new e.1 = some library) :
  renameLibrary stem new e = (library, e.2)
  := by
  rw [renameLibrary, h, Option.getD_some]

/-- No other entry becomes the description, which keeps its name. -/
theorem renameLibrary_fst_eq_iff (e : String × Entry) :
  (renameLibrary stem new e).1 = descriptionEntry ↔ e.1 = descriptionEntry
  := by
  cases h : renamedLibrary? stem new e.1 with
  | none => rw [renameLibrary_of_none h]
  | some library =>
    obtain ⟨hstart, hslash⟩ := renamedLibrary?_eq_some h
    rw [renameLibrary_of_some h]
    constructor
    · rintro rfl
      exact absurd hslash (by decide)
    · intro hname
      have hnot : descriptionEntry.startsWith "binaries/" = false := by decide +kernel
      rw [hname, hnot] at hstart
      cases hstart

/-- Renaming libraries has nothing to do with the description. -/
theorem others_map_renameLibrary
    (h : contents entries = (contents more).map (renameLibrary stem new)) :
  others entries = (others more).map (renameLibrary stem new)
  := by
  rw [others, h, List.filter_map, others]
  congr 1
  apply List.filter_congr
  intro e _
  simp only [Function.comp_apply, ne_eq, renameLibrary_fst_eq_iff]

/-! ## Renaming one after another -/

/-- The entries of an archive when the libraries of its front have been renamed. -/
def partly (stem new : String) (front back : Listing) : Listing :=
  (contents front).map (renameLibrary stem new) ++ contents back

theorem isWhole_append :
  IsWhole (front ++ back) ↔ IsWhole front ∧ IsWhole back
  := List.forall_mem_append

/-- Renaming libraries has nothing to do with missing entries. -/
theorem isWhole_partly :
  IsWhole (partly stem new front back) ↔ IsWhole (front ++ back)
  := by
  have hrenamed : IsWhole ((contents front).map (renameLibrary stem new)) ↔ IsWhole front := by
    have hcontents : IsWhole (contents front) ↔ IsWhole front := Archive.isWhole_contents
    exact List.forall_mem_map.trans hcontents
  rw [partly, isWhole_append, isWhole_append, hrenamed, Archive.isWhole_contents]

/-- The next entry of the back gets its new name, or keeps its own. -/
theorem partly_concat (stem new : String) (front : Listing) (e : String × Entry) (back : Listing) :
  partly stem new (front ++ [e]) back =
    (contents front).map (renameLibrary stem new) ++
      renameLibrary stem new (e.1, e.2.unlocked) :: contents back
  := by
  rw [partly, contents, List.map_append, List.map_append, List.append_assoc]
  rfl

/-- A new name in the middle of distinct names. -/
theorem apply_rename_between {old : String} {entry : Entry}
    (h : (names (front ++ (old, entry) :: back)).Nodup) (new : String) :
  (Edit.rename old new).apply (front ++ (old, entry) :: back) = front ++ (new, entry) :: back
  := by
  rw [Archive.names_append, names, names, List.map_cons, List.nodup_append, List.nodup_cons] at h
  obtain ⟨-, ⟨hback, -⟩, hfront⟩ := h
  have hkept {more : Listing} (hmore : ∀ e ∈ more, e.1 ≠ old) :
      more.map (fun e => if e.1 = old then (new, e.2) else e) = more := by
    apply (List.map_congr_left _).trans (List.map_id more)
    intro e he
    rw [if_neg (hmore e he), id]
  have hbefore : ∀ e ∈ front, e.1 ≠ old := fun e he =>
    hfront e.1 (List.mem_map_of_mem he) old List.mem_cons_self
  have hbehind : ∀ e ∈ back, e.1 ≠ old := by
    intro e he heq
    exact hback (List.mem_map.mpr ⟨e, he, heq⟩)
  rw [Edit.apply, List.map_append, List.map_cons, if_pos rfl, hkept hbefore, hkept hbehind]

/-- A disk on which some libraries of an archive have been renamed, and nothing else has changed. -/
structure Renamed (file stem new : String) (origin : Disk) (front back : Listing) (d : Disk) :
    Prop where
  changed : ChangedAt file origin d
  holds : ∃ listing, Holds d file listing ∧ contents listing = partly stem new front back

/-- When all libraries have been renamed, the description is as it was, and the other entries have
their new names. -/
theorem Renamed.exists_others (h : Renamed file stem new origin entries [] d) :
  ∃ listing, Holds d file listing ∧ others listing = (others entries).map (renameLibrary stem new) ∧
    (IsWhole listing ↔ IsWhole entries)
  := by
  obtain ⟨listing, hholds, hlisting⟩ := h.holds
  refine ⟨listing, hholds, ?_, ?_⟩
  · apply others_map_renameLibrary
    rw [hlisting, partly]
    exact List.append_nil _
  · rw [← Archive.isWhole_contents, hlisting, isWhole_partly, List.append_nil]

/-- A library that cannot be renamed: an entry is missing in the archive, or another entry has the
new name. -/
def Refuses (stem new : String) (front : Listing) (e : String × Entry) (back : Listing) : Prop :=
  ∃ library, renamedLibrary? stem new e.1 = some library ∧
    (¬ IsWhole (front ++ e :: back) ∨
      library ≠ e.1 ∧ library ∈ names (partly stem new front (e :: back)))

/-- One library is renamed, unless it cannot be. -/
theorem Renamed.step {library : String} (h : Renamed file stem new origin front (e :: back) d)
    (hlibrary : renamedLibrary? stem new e.1 = some library) :
  (∃ d', Archive.renameEntry file e.1 library d = .ok true d' ∧
    Renamed file stem new origin (front ++ [e]) back d') ∨
  Archive.renameEntry file e.1 library d = .ok false d ∧ Refuses stem new front e back
  := by
  obtain ⟨listing, hholds, hlisting⟩ := h.holds
  obtain ⟨hdone, hnot⟩ := hholds.run (.rename e.1 library)
  have hwhole : IsWhole listing ↔ IsWhole (front ++ e :: back) := by
    rw [← Archive.isWhole_contents, hlisting, isWhole_partly]
  have hnames : names listing = names (partly stem new front (e :: back)) := by
    rw [← Archive.names_contents, hlisting]
  by_cases hrefused : ¬ IsWhole listing ∨ (Edit.rename e.1 library).Refused (names listing)
  · refine .inr ⟨hnot hrefused, library, hlibrary, ?_⟩
    rw [hwhole, hnames] at hrefused
    have hmem : e.1 ∈ names (partly stem new front (e :: back)) := by
      rw [partly, Archive.names_append]
      exact List.mem_append_right _ List.mem_cons_self
    exact hrefused.imp_right fun h => h.resolve_left fun habsent => habsent hmem
  · rw [not_or, not_not] at hrefused
    obtain ⟨d', hrun, hholds', hchanged⟩ := hdone hrefused.1 hrefused.2
    refine .inl ⟨d', hrun, h.changed.trans hchanged, _, hholds', ?_⟩
    have hnodup : (names (partly stem new front (e :: back))).Nodup := by
      rw [← hnames]
      exact hholds.nodup
    have hmoved : renameLibrary stem new (e.1, e.2.unlocked) = (library, e.2.unlocked) :=
      renameLibrary_of_some hlibrary
    rw [Edit.contents_apply, hlisting, partly_concat, hmoved]
    exact apply_rename_between hnodup library

/-- What is no library of the FMU is passed over. -/
theorem renameLibraries_of_none (h : renamedLibrary? stem new name = none) (more : List String) :
  renameLibraries file stem new (name :: more) d = renameLibraries file stem new more d
  := by
  rw [renameLibraries, h]

/-- A library that has been renamed is followed by the others. -/
theorem renameLibraries_of_done {library : String}
    (h : renamedLibrary? stem new name = some library)
    (hrun : Archive.renameEntry file name library d = .ok true d') (more : List String) :
  renameLibraries file stem new (name :: more) d = renameLibraries file stem new more d'
  := by
  rw [renameLibraries, h]
  exact Action.bind_of_ok hrun

/-- A library that cannot be renamed ends the renaming. -/
theorem renameLibraries_of_refused {library : String}
    (h : renamedLibrary? stem new name = some library)
    (hrun : Archive.renameEntry file name library d = .ok false d') (more : List String) :
  renameLibraries file stem new (name :: more) d = .error (.archive (.renaming name file)) d'
  := by
  rw [renameLibraries, h]
  exact Action.bind_of_ok hrun

/-- Libraries are renamed up to the end of the archive, or up to the first one that cannot be. -/
theorem renameLibraries_cases (h : Renamed file stem new origin front back d) :
  (∃ d', renameLibraries file stem new (names back) d = .ok () d' ∧
    Renamed file stem new origin (front ++ back) [] d') ∨
  ∃ done e more u d', back = done ++ e :: more ∧ Refuses stem new (front ++ done) e more ∧
    renameLibraries file stem new (names back) d = .error u d' ∧
    Renamed file stem new origin (front ++ done) (e :: more) d'
  := by
  induction back generalizing front d with
  | nil =>
    rw [← List.append_nil front] at h
    exact .inl ⟨d, rfl, h⟩
  | cons e back ih =>
    have hnames : names (e :: back) = e.1 :: names back := rfl
    have hskip (hnone : renamedLibrary? stem new e.1 = none) :
        Renamed file stem new origin (front ++ [e]) back d := by
      obtain ⟨listing, hholds, hlisting⟩ := h.holds
      refine ⟨h.changed, listing, hholds, ?_⟩
      have hkept : renameLibrary stem new (e.1, e.2.unlocked) = (e.1, e.2.unlocked) :=
        renameLibrary_of_none hnone
      rw [hlisting, partly_concat, hkept]
      rfl
    -- what becomes of the rest, behind what has been renamed so far
    have hrest {d₁ : Disk} (hstep : Renamed file stem new origin (front ++ [e]) back d₁)
        (hrun : renameLibraries file stem new (names (e :: back)) d =
          renameLibraries file stem new (names back) d₁) :
        (∃ d', renameLibraries file stem new (names (e :: back)) d = .ok () d' ∧
          Renamed file stem new origin (front ++ e :: back) [] d') ∨
        ∃ done e' more u d', e :: back = done ++ e' :: more ∧
          Refuses stem new (front ++ done) e' more ∧
          renameLibraries file stem new (names (e :: back)) d = .error u d' ∧
          Renamed file stem new origin (front ++ done) (e' :: more) d' := by
      obtain ⟨d', hok, hrenamed⟩ | ⟨done, e', more, u, d', rfl, hrefuses, herror, hrenamed⟩ :=
        ih hstep
      · rw [List.append_assoc] at hrenamed
        exact .inl ⟨d', hrun.trans hok, hrenamed⟩
      · rw [List.append_assoc] at hrefuses hrenamed
        exact .inr ⟨e :: done, e', more, u, d', rfl, hrefuses, hrun.trans herror, hrenamed⟩
    cases hlibrary : renamedLibrary? stem new e.1 with
    | none => exact hrest (hskip hlibrary) (renameLibraries_of_none hlibrary _)
    | some library =>
      obtain ⟨d₁, hrun, hstep⟩ | ⟨hrun, hrefuses⟩ := h.step hlibrary
      · exact hrest hstep (renameLibraries_of_done hlibrary hrun _)
      · rw [← List.append_nil front] at h hrefuses
        exact .inr ⟨[], e, back, _, d, rfl, hrefuses, renameLibraries_of_refused hlibrary hrun _, h⟩

end Cosim.Fmu
