import Cosim.Proofs.Disk.Alike
import Cosim.Proofs.Fmu

/-!
# Edits of archives

The entries of an archive file are edited as an ordered list is: some are dropped, one is renamed in
its place, or one is put at the end.  However an archive is edited, the names of its entries stay
distinct, and an edit that is refused changes nothing.
-/

namespace Cosim.Archive

variable {entries written : Listing} {newName : String → Option String} {path : String}
  {d d' : Disk}

/-! ## Rewritten listings -/

def names (entries : Listing) : List String := entries.map Prod.fst

/-- No entry of the listing is missing. -/
def IsWhole (entries : Listing) : Prop := ∀ e ∈ entries, e.2.packed.isSome = true

instance (entries : Listing) : Decidable (IsWhole entries) :=
  inferInstanceAs (Decidable (∀ e ∈ entries, e.2.packed.isSome = true))

/-- An entry that is not locked. -/
def Entry.unlocked (e : Entry) : Entry := { e with locked := false }

/-- What the entries hold, whether they are locked or not. -/
def contents (entries : Listing) : Listing := entries.map fun e => (e.1, e.2.unlocked)

/-- The entries that have a new name, under their new names. -/
def renamed (newName : String → Option String) (entries : Listing) : Listing :=
  entries.filterMap fun e => (newName e.1).map (·, e.2.unlocked)

/-- The first entry is left out, or stands first under its new name. -/
theorem renamed_cons (newName : String → Option String) (e : String × Entry) (entries : Listing) :
  renamed newName (e :: entries) =
    ((newName e.1).map (·, e.2.unlocked)).toList ++ renamed newName entries
  := by
  cases h : newName e.1 <;> simp [renamed, h]

theorem names_append (front more : Listing) :
  names (front ++ more) = names front ++ names more
  := List.map_append

/-- Locks have nothing to do with names. -/
@[simp]
theorem names_contents (entries : Listing) :
  names (contents entries) = names entries
  := by
  rw [names, contents, List.map_map]
  rfl

/-- Locks have nothing to do with missing entries. -/
theorem isWhole_contents :
  IsWhole (contents entries) ↔ IsWhole entries
  := by
  rw [IsWhole, contents, List.forall_mem_map]
  rfl

/-- Names stay distinct when an entry of a new name is put behind the others. -/
theorem nodup_concat {name : String} {e : Entry} (h : (names written).Nodup)
    (hmem : name ∉ names written) :
  (names (written ++ [(name, e)])).Nodup
  := by
  rw [names_append, List.nodup_append]
  refine ⟨h, List.nodup_singleton _, ?_⟩
  rintro other hother _ hlast rfl
  obtain rfl := List.mem_singleton.mp hlast
  exact hmem hother

/-- An entry whose name is taken is not written. -/
theorem append_of_mem {name : String} (h : name ∈ names written) (e : Entry) :
  append written name e = .error .archiveFormat
  := if_pos (List.contains_iff_mem.mpr h)

/-- An entry of a new name is written behind the others. -/
theorem append_of_not_mem {name : String} (h : name ∉ names written) (e : Entry) :
  append written name e = .ok (written ++ [(name, e)])
  := if_neg fun hmem => h (List.contains_iff_mem.mp hmem)

/-- A missing entry is not taken over. -/
theorem takeOver_of_missing {e : String × Entry} (h : e.2.packed = none) :
  takeOver newName written e = .error .archiveFormat
  := if_pos (Option.isNone_iff_eq_none.mpr h)

/-- An entry that is not missing is written unlocked under its new name, or left out. -/
theorem takeOver_of_packed {e : String × Entry} (h : e.2.packed.isSome = true) :
  takeOver newName written e =
    match newName e.1 with
    | some name => append written name e.2.unlocked
    | none => .ok written
  := if_neg (by simpa [Option.isSome_iff_ne_none] using h)

/-- Two steps give something exactly if the first one does and the second one goes on from it. -/
theorem bind_eq_ok_iff {α β : Type} {x : Except Failure α} {f : α → Except Failure β} {b : β} :
  (x >>= f) = .ok b ↔ ∃ a, x = .ok a ∧ f a = .ok b
  := by
  cases x with
  | ok a => simp [bind, Except.bind]
  | error e => simp [bind, Except.bind]

/-- An entry is written exactly if its name is not taken, and then it stands behind the others. -/
theorem append_eq_ok_iff {name : String} {e : Entry} {result : Listing} :
  append written name e = .ok result ↔ name ∉ names written ∧ result = written ++ [(name, e)]
  := by
  by_cases hmem : name ∈ names written
  · rw [append_of_mem hmem]
    simp [hmem]
  · rw [append_of_not_mem hmem, Except.ok.injEq, eq_comm, and_iff_right hmem]

/-- The entries are rewritten behind those that are there exactly if none is missing and no two
names are the same. -/
theorem foldlM_takeOver_eq_ok_iff {result : Listing} (hwritten : (names written).Nodup) :
  entries.foldlM (takeOver newName) written = .ok result ↔
    IsWhole entries ∧ (names (written ++ renamed newName entries)).Nodup ∧
      result = written ++ renamed newName entries
  := by
  induction entries generalizing written with
  | nil =>
    have hwhole : IsWhole [] := List.forall_mem_nil _
    rw [renamed, List.filterMap_nil, List.append_nil, List.foldlM_nil, and_iff_right hwhole,
      and_iff_right hwritten]
    simp [pure, Except.pure, eq_comm]
  | cons e entries ih =>
    have hwhole : IsWhole (e :: entries) ↔ e.2.packed.isSome = true ∧ IsWhole entries :=
      List.forall_mem_cons
    rw [List.foldlM_cons, bind_eq_ok_iff, hwhole]
    cases hpacked : e.2.packed with
    | none => simp [takeOver_of_missing hpacked]
    | some data =>
      have hsome : e.2.packed.isSome = true := by rw [hpacked, Option.isSome_some]
      rw [takeOver_of_packed hsome, Option.isSome_some, eq_self, true_and]
      cases hname : newName e.1 with
      | none =>
        have hskip : renamed newName (e :: entries) = renamed newName entries := by
          rw [renamed_cons, hname]
          rfl
        rw [hskip, ← ih hwritten]
        simp
      | some name =>
        have hnext : written ++ renamed newName (e :: entries) =
            (written ++ [(name, e.2.unlocked)]) ++ renamed newName entries := by
          rw [renamed_cons, hname, List.append_assoc]
          rfl
        simp only [append_eq_ok_iff, hnext]
        constructor
        · rintro ⟨_, ⟨hmem, rfl⟩, hrest⟩
          exact (ih (nodup_concat hwritten hmem)).mp hrest
        · rintro ⟨hall, hnodup, hresult⟩
          have hconcat : (names (written ++ [(name, e.2.unlocked)])).Nodup := by
            rw [names_append] at hnodup
            exact hnodup.of_append_left
          refine ⟨_, ⟨?_, rfl⟩, (ih hconcat).mpr ⟨hall, hnodup, hresult⟩⟩
          rw [names_append, List.nodup_append] at hconcat
          exact fun hmem => hconcat.2.2 name hmem name List.mem_cons_self rfl

/-- Entries are rewritten exactly if none is missing and their new names are distinct. -/
theorem rewrite_eq_ok_iff {result : Listing} :
  rewrite newName entries = .ok result ↔
    IsWhole entries ∧ (names (renamed newName entries)).Nodup ∧ result = renamed newName entries
  := foldlM_takeOver_eq_ok_iff List.nodup_nil

/-! ## Edits -/

/-- An edit of an archive. -/
inductive Edit where
  | remove (names : List String)
  | rename (old new : String)
  | add (name text : String)

namespace Edit

/-- What an edit makes of the entries of an archive. -/
def apply (entries : Listing) : Edit → Listing
  | remove names => entries.filter fun e => e.1 ∉ names
  | rename old new => entries.map fun e => if e.1 = old then (new, e.2) else e
  | add name text => (entries.filter fun e => e.1 ≠ name) ++ [(name, .ofText text)]

/-- An edit is refused that renames an absent entry, or that renames an entry to the name of another
one. -/
def Refused (names : List String) : Edit → Prop
  | remove _ => False
  | rename old new => old ∉ names ∨ new ≠ old ∧ new ∈ names
  | add _ _ => False

instance (names : List String) : DecidablePred (Refused names)
  | remove _ => inferInstanceAs (Decidable False)
  | rename old new => inferInstanceAs (Decidable (old ∉ names ∨ new ≠ old ∧ new ∈ names))
  | add _ _ => inferInstanceAs (Decidable False)

/-- What is left of the entries when an edit was tried. -/
def outcome (entries : Listing) (edit : Edit) : Listing :=
  if edit.Refused (names entries) then entries else edit.apply entries

/-- The edited entries as a file gets them. -/
def change : Edit → Listing → Except Failure Listing
  | remove names => removeAll names
  | rename old new => Archive.rename old new
  | add name text => Archive.add name text

/-- Edits an archive file, and tells whether the edit was done. -/
def run (path : String) : Edit → Action Bool
  | remove names => removeEntries path names
  | rename old new => renameEntry path old new
  | add name text => addEntry path name text

/-- Running an edit tells whether its change of the archive succeeds. -/
theorem run_eq (path : String) (edit : Edit) :
  edit.run path = succeeds (Archive.edit path edit.change)
  := by
  cases edit <;> rfl

/-! ### Single edits -/

/-- Taking out names leaves the entries of the other names, unlocked. -/
theorem renamed_filter (p : String → Bool) (entries : Listing) :
  renamed (fun name => if p name then none else some name) entries =
    (contents entries).filter fun e => !p e.1
  := by
  induction entries with
  | nil => rfl
  | cons e entries ih =>
    have hcontents : contents (e :: entries) = (e.1, e.2.unlocked) :: contents entries := rfl
    rw [renamed_cons, ih, hcontents, List.filter_cons]
    cases p e.1 <;> rfl

/-- Distinct names stay distinct when some entries are left out. -/
theorem nodup_names_filter (h : (names entries).Nodup) (p : String × Entry → Bool) :
  (names (entries.filter p)).Nodup
  := h.sublist (List.filter_sublist.map Prod.fst)

/-- A name that is left out is not among the names any more. -/
theorem not_mem_names_filter (name : String) (entries : Listing) :
  name ∉ names (entries.filter fun e => e.1 ≠ name)
  := by
  simp [names]

/-- Renaming one entry is what the edit says. -/
theorem renamed_rename (old new : String) (entries : Listing) :
  renamed (fun name => some (if name == old then new else name)) entries =
    (rename old new).apply (contents entries)
  := by
  rw [apply, contents, List.map_map, ← List.filterMap_eq_map]
  apply List.filterMap_congr
  intro e _
  by_cases he : e.1 = old <;> simp [he]

/-- An edit that renames changes the one name and leaves the others. -/
theorem names_rename (old new : String) (entries : Listing) :
  names ((rename old new).apply entries) =
    (names entries).map fun name => if name = old then new else name
  := by
  rw [names, names, apply, List.map_map, List.map_map]
  apply List.map_congr_left
  intro e _
  simp only [Function.comp_apply]
  split <;> rfl

/-- Names stay distinct under a new name that is not that of another entry, be it in front of the
renamed one or behind it. -/
theorem nodup_map_rename_iff {names : List String} {old new : String} (h : names.Nodup)
    (hold : old ∈ names) :
  (names.map fun name => if name = old then new else name).Nodup ↔ ¬ (new ≠ old ∧ new ∈ names)
  := by
  constructor
  · rintro hnodup ⟨hne, hnew⟩
    apply hne
    apply List.inj_on_of_nodup_map hnodup hnew hold
    simp [hne]
  · intro hfree
    apply List.Nodup.map_on _ h
    intro name hname other hother hsame
    by_contra hne
    apply hfree
    by_cases hfirst : name = old
    · have hsecond : ¬ other = old := fun heq => hne (hfirst.trans heq.symm)
      rw [if_pos hfirst, if_neg hsecond] at hsame
      exact ⟨hsame ▸ hsecond, hsame ▸ hother⟩
    · rw [if_neg hfirst] at hsame
      by_cases hsecond : other = old
      · rw [if_pos hsecond] at hsame
        exact ⟨hsame ▸ hfirst, hsame ▸ hname⟩
      · rw [if_neg hsecond] at hsame
        exact absurd hsame hne

/-- Names stay distinct under an edit that is not refused. -/
theorem nodup_apply {edit : Edit} (h : (names entries).Nodup)
    (hedit : ¬ edit.Refused (names entries)) :
  (names (edit.apply entries)).Nodup
  := by
  cases edit with
  | remove dropped => exact nodup_names_filter h _
  | rename old new =>
    rw [Refused, not_or, not_not] at hedit
    rw [names_rename]
    exact (nodup_map_rename_iff h hedit.1).mpr hedit.2
  | add name text =>
    apply nodup_concat (nodup_names_filter h _) (not_mem_names_filter name entries)

/-- An edit of an archive is one of its list of entries, and it is refused only where a name
forbids it or an entry is missing. -/
theorem change_eq_ok_iff {edit : Edit} {edited : Listing} (hnames : (names entries).Nodup) :
  edit.change entries = .ok edited ↔
    IsWhole entries ∧ ¬ edit.Refused (names entries) ∧ edited = edit.apply (contents entries)
  := by
  have hcontents : (names (contents entries)).Nodup := by rwa [names_contents]
  cases edit with
  | remove dropped =>
    have hdrop : renamed (fun name => if dropped.contains name then none else some name) entries =
        (remove dropped).apply (contents entries) := by
      rw [renamed_filter, apply]
      simp
    rw [change, removeAll, rewrite_eq_ok_iff, hdrop, and_iff_right (nodup_apply hcontents id),
      Refused, not_false_eq_true, true_and]
  | rename old new =>
    rw [change, Archive.rename, bind_eq_ok_iff]
    simp only [rewrite_eq_ok_iff, renamed_rename, names_rename, names_contents]
    by_cases hold : old ∈ names entries
    · have hcontains : (entries.map Prod.fst).contains old = true :=
        List.contains_iff_mem.mpr hold
      rw [nodup_map_rename_iff hnames hold, Refused, not_or, not_not, and_iff_right hold]
      simp only [hcontains, if_true, Except.ok.injEq]
      constructor
      · rintro ⟨_, ⟨hwhole, hfree, rfl⟩, rfl⟩
        exact ⟨hwhole, hfree, rfl⟩
      · rintro ⟨hwhole, hfree, rfl⟩
        exact ⟨_, ⟨hwhole, hfree, rfl⟩, rfl⟩
    · have hcontains : ¬ (entries.map Prod.fst).contains old = true := by
        rw [List.contains_iff_mem]
        exact hold
      constructor
      · rintro ⟨_, -, h⟩
        rw [if_neg hcontains] at h
        cases h
      · rintro ⟨-, hfree, -⟩
        exact absurd (Or.inl hold) hfree
  | add name text =>
    have hothers : renamed (fun other => if other == name then none else some other) entries =
        (contents entries).filter fun e => e.1 ≠ name := by
      rw [renamed_filter]
      apply List.filter_congr
      intro e _
      by_cases he : e.1 = name <;> simp [he]
    rw [change, Archive.add, bind_eq_ok_iff]
    simp only [rewrite_eq_ok_iff, hothers, append_eq_ok_iff]
    constructor
    · rintro ⟨_, ⟨hwhole, -, rfl⟩, -, rfl⟩
      exact ⟨hwhole, id, rfl⟩
    · rintro ⟨hwhole, -, rfl⟩
      exact ⟨_, ⟨hwhole, nodup_names_filter hcontents _, rfl⟩, not_mem_names_filter name _, rfl⟩

/-- No edit makes an entry missing. -/
theorem isWhole_apply {edit : Edit} (h : IsWhole entries) :
  IsWhole (edit.apply entries)
  := by
  have hfilter (p : String × Entry → Bool) : IsWhole (entries.filter p) :=
    fun e he => h e (List.mem_of_mem_filter he)
  cases edit with
  | remove dropped => exact hfilter _
  | rename old new =>
    rw [apply, IsWhole, List.forall_mem_map]
    intro e he
    split <;> exact h e he
  | add name text =>
    rw [apply, IsWhole, List.forall_mem_append, List.forall_mem_singleton]
    exact ⟨hfilter _, rfl⟩

/-- What an edit makes of contents are contents. -/
theorem contents_apply (edit : Edit) (entries : Listing) :
  contents (edit.apply (contents entries)) = edit.apply (contents entries)
  := by
  have hunlocked : ∀ e ∈ contents entries, (e.1, e.2.unlocked) = e := by
    rw [contents, List.forall_mem_map]
    intro e _
    rfl
  have hedited : ∀ e ∈ edit.apply (contents entries), (e.1, e.2.unlocked) = e := by
    cases edit with
    | remove dropped => exact fun e he => hunlocked e (List.mem_of_mem_filter he)
    | rename old new =>
      rw [apply, List.forall_mem_map]
      intro e he
      split
      · exact congrArg (new, ·.2) (hunlocked e he)
      · exact hunlocked e he
    | add name text =>
      rw [apply, List.forall_mem_append, List.forall_mem_singleton]
      exact ⟨fun e he => hunlocked e (List.mem_of_mem_filter he), rfl⟩
  exact (List.map_congr_left hedited).trans (List.map_id _)

end Edit

/-! ## Edited files -/

/-- An archive is loaded exactly if its path has a content that is an archive of these entries. -/
theorem load_eq_ok_iff :
  load path d = .ok entries d ↔
    ∃ content, d.content? path = some content ∧ content.entries? = some entries
  := by
  rw [load, Action.get_bind]
  cases hcontent : d.content? path with
  | none =>
    cases d.pathExists path <;>
      simp [Action.bind_eq_ok, Action.throw_ne_ok]
  | some content =>
    have hfound : d.pathExists path = true := by
      obtain ⟨l, executable, hl, hitem⟩ := Disk.content?_eq_some_iff.mp hcontent
      rw [Disk.pathExists, Disk.find?, hl, Option.bind_some, hitem, Option.isSome_some]
    cases hentries : content.entries? <;>
      simp [hfound, hentries, Action.pure_eq_ok, Action.throw_ne_ok]

/-- A file of a proper disk is an archive with given entries, whose names are distinct. -/
structure Holds (d : Disk) (path : String) (entries : Listing) : Prop where
  proper : d.Proper
  load : load path d = .ok entries d
  nodup : (names entries).Nodup

/-- Paths lead where they led, and nothing but what is at one of them has changed. -/
structure ChangedAt (path : String) (d d' : Disk) : Prop where
  locate : ∀ other, d'.locate? other = d.locate? other
  kept : ∀ l, d.locate? path ≠ some l → d'.item? l = d.item? l

namespace ChangedAt

theorem refl (path : String) (d : Disk) :
  ChangedAt path d d
  := ⟨fun _ => rfl, fun _ _ => rfl⟩

/-- Two changes at the same path are one. -/
theorem trans {d'' : Disk} (h : ChangedAt path d d') (h' : ChangedAt path d' d'') :
  ChangedAt path d d''
  where
  locate other := (h'.locate other).trans (h.locate other)
  kept l hl := (h'.kept l (by rwa [h.locate])).trans (h.kept l hl)

end ChangedAt

namespace Holds

/-- The file is replaced by an archive of other entries. -/
theorem write {edited : Listing} (h : Holds d path entries) (hedited : (names edited).Nodup) :
  ∃ d', Action.write path (.archive edited) d = .ok () d' ∧ Holds d' path edited ∧
    ChangedAt path d d'
  := by
  obtain ⟨content, hcontent, -⟩ := load_eq_ok_iff.mp h.load
  obtain ⟨l, executable, hl, hitem⟩ := Disk.content?_eq_some_iff.mp hcontent
  have hfile : d.isFileAt l = true := Disk.isFileAt_iff.mpr ⟨content, executable, hitem⟩
  have hne : l ≠ [] := by
    rintro rfl
    cases hfile
  have hfree := Disk.isFolderAt_of_isFileAt hfile
  obtain ⟨k, name, rfl, hname, hfolder⟩ := h.proper.placed _ (Disk.mem_of_item? hne hitem)
  have hwritable : d.writableAt (k ++ [name]) = true := by
    simp [Disk.writableAt, hfolder, hfree]
  have hkeeps : Disk.Keeps (fun _ => True) d
      (d.put (k ++ [name]) (.file (.archive edited) (d.executableAt (k ++ [name])))) :=
    .put hne hfree _ _ fun _ _ => trivial
  refine ⟨_, by rw [Action.write_eq, hl]; exact if_pos hwritable, ?_, hkeeps.locate?_eq, ?_⟩
  · refine ⟨h.proper.put hname hfolder hfree _ _, load_eq_ok_iff.mpr ⟨.archive edited, ?_, rfl⟩,
      hedited⟩
    rw [Disk.content?, Action.find?_put hne hfree hl]
  · intro place hplace
    rw [Disk.item?_put hne, if_neg]
    rintro rfl
    exact hplace hl

/-- An edit is done exactly if it is not refused and no entry is missing, and it changes the archive
as it changes the list of its entries.  An edit that is not done changes nothing. -/
theorem run (h : Holds d path entries) (edit : Edit) :
  (IsWhole entries → ¬ edit.Refused (names entries) →
    ∃ d', edit.run path d = .ok true d' ∧ Holds d' path (edit.apply (contents entries)) ∧
      ChangedAt path d d') ∧
  (¬ IsWhole entries ∨ edit.Refused (names entries) → edit.run path d = .ok false d)
  := by
  rw [Edit.run_eq, succeeds]
  constructor
  · intro hwhole hedit
    have hchange : edit.change entries = .ok (edit.apply (contents entries)) :=
      (Edit.change_eq_ok_iff h.nodup).mpr ⟨hwhole, hedit, rfl⟩
    rw [← names_contents] at hedit
    obtain ⟨d', hwrite, hholds, hkept⟩ :=
      h.write (Edit.nodup_apply (by rw [names_contents]; exact h.nodup) hedit)
    have hrun : Archive.edit path edit.change d = .ok () d' := by
      rw [Archive.edit, Action.bind_of_ok h.load, hchange,
        Action.bind_of_ok (Action.ofExcept_eq_ok.mpr ⟨rfl, rfl⟩), hwrite]
    refine ⟨d', Action.tryCatch_of_ok ?_, hholds, hkept⟩
    rw [Action.bind_of_ok hrun]
    rfl
  · intro hnot
    cases hchange : edit.change entries with
    | ok edited =>
      obtain ⟨hwhole, hedit, -⟩ := (Edit.change_eq_ok_iff h.nodup).mp hchange
      exact absurd hnot (not_or.mpr ⟨not_not.mpr hwhole, hedit⟩)
    | error e =>
      have hfail : Archive.edit path edit.change d = .error e d := by
        rw [Archive.edit, Action.bind_of_ok h.load, hchange]
        rfl
      rw [Action.tryCatch_of_error (Action.bind_of_error hfail)]
      rfl

/-- Edits of an archive without missing entries, one after another. -/
theorem runs_of_isWhole (h : Holds d path entries) (hwhole : IsWhole entries)
    (edits : List Edit) :
  ∃ done d' entries', edits.mapM (Edit.run path) d = .ok done d' ∧ Holds d' path entries' ∧
    ChangedAt path d d' ∧ IsWhole entries' ∧
    contents entries' = edits.foldl Edit.outcome (contents entries)
  := by
  induction edits generalizing d entries with
  | nil => exact ⟨[], d, entries, rfl, h, .refl path d, hwhole, rfl⟩
  | cons edit edits ih =>
    obtain ⟨hdone, hrefused⟩ := h.run edit
    by_cases hedit : edit.Refused (names entries)
    · obtain ⟨done, d', entries', hruns, hrest⟩ := ih h hwhole
      refine ⟨false :: done, d', entries', ?_, ?_⟩
      · rw [List.mapM_cons, Action.bind_of_ok (hrefused (.inr hedit)), Action.bind_of_ok hruns]
        rfl
      · rw [List.foldl_cons, Edit.outcome, names_contents, if_pos hedit]
        exact hrest
    · obtain ⟨d₁, hrun, hholds, hchanged⟩ := hdone hwhole hedit
      obtain ⟨done, d', entries', hruns, hholds', hchanged', hwhole', hcontents⟩ :=
        ih hholds (Edit.isWhole_apply (isWhole_contents.mpr hwhole))
      refine ⟨true :: done, d', entries', ?_, hholds', hchanged.trans hchanged', hwhole', ?_⟩
      · rw [List.mapM_cons, Action.bind_of_ok hrun, Action.bind_of_ok hruns]
        rfl
      · rw [List.foldl_cons, Edit.outcome, names_contents, if_neg hedit, hcontents,
          Edit.contents_apply]

/-- An archive with a missing entry is not edited. -/
theorem runs_of_not_isWhole (h : Holds d path entries) (hmissing : ¬ IsWhole entries)
    (edits : List Edit) :
  ∃ done, edits.mapM (Edit.run path) d = .ok done d
  := by
  induction edits with
  | nil => exact ⟨[], rfl⟩
  | cons edit edits ih =>
    obtain ⟨done, hruns⟩ := ih
    refine ⟨false :: done, ?_⟩
    rw [List.mapM_cons, Action.bind_of_ok ((h.run edit).2 (.inl hmissing)),
      Action.bind_of_ok hruns]
    rfl

end Holds

/-- However an archive is edited, its names stay distinct, and its entries are what the edits make
of their list, those left out that a name forbids.  Each further edit is done, or is refused and
leaves the disk as it is.  The contents of an entry are its packing, its packed data, its checksum
and its size; whether it is locked is none of them, and the first edit that is done clears the locks
of all entries.  An archive with a missing entry is never edited: every edit is refused. -/
theorem edits_refine (h : Holds d path entries) (edits : List Edit) :
  ∃ done d' entries', edits.mapM (Edit.run path) d = .ok done d' ∧ Holds d' path entries' ∧
    ChangedAt path d d' ∧
    (IsWhole entries → contents entries' = edits.foldl Edit.outcome (contents entries)) ∧
    (¬ IsWhole entries → d' = d) ∧
    ∀ edit : Edit,
      (IsWhole entries → ¬ edit.Refused (names entries') →
        ∃ d'', edit.run path d' = .ok true d'') ∧
      (¬ IsWhole entries ∨ edit.Refused (names entries') → edit.run path d' = .ok false d')
  := by
  by_cases hwhole : IsWhole entries
  · obtain ⟨done, d', entries', hruns, hholds, hchanged, hwhole', hcontents⟩ :=
      h.runs_of_isWhole hwhole edits
    refine ⟨done, d', entries', hruns, hholds, hchanged, fun _ => hcontents,
      fun hmissing => absurd hwhole hmissing, fun edit => ⟨fun _ hedit => ?_, fun hnot => ?_⟩⟩
    · obtain ⟨d'', hrun, -⟩ := (hholds.run edit).1 hwhole' hedit
      exact ⟨d'', hrun⟩
    · exact (hholds.run edit).2 (.inr (hnot.resolve_left fun hmissing => hmissing hwhole))
  · obtain ⟨done, hruns⟩ := h.runs_of_not_isWhole hwhole edits
    exact ⟨done, d, entries, hruns, h, .refl path d, fun hall => absurd hall hwhole, fun _ => rfl,
      fun edit => ⟨fun hall => absurd hall hwhole, fun _ => (h.run edit).2 (.inl hwhole)⟩⟩

/-- The FMU without variables is an archive that has its description alone. -/
theorem holds_blank :
  Holds Fmu.sampleDisk "/blank.fmu" [(Fmu.descriptionEntry, .ofText Fmu.blankText)]
  where
  proper := by decide +kernel
  load := load_eq_ok_iff.mpr ⟨.archive [(Fmu.descriptionEntry, .ofText Fmu.blankText)], rfl, rfl⟩
  nodup := List.nodup_singleton _

/-- An entry is added, cannot take the name of another one, and is added again behind the other one,
which has got a new name. -/
theorem edits_refine_blank :
  ∃ done d' entries', [Edit.add "a" "1", .rename "a" Fmu.descriptionEntry,
      .rename Fmu.descriptionEntry "b", .remove ["c"], .add "a" "2"].mapM (Edit.run "/blank.fmu")
        Fmu.sampleDisk = .ok done d' ∧
    Holds d' "/blank.fmu" entries' ∧
    contents entries' = [("b", .ofText Fmu.blankText), ("a", .ofText "2")]
  := by
  obtain ⟨done, d', entries', hruns, hholds, -, hcontents, -⟩ := edits_refine holds_blank
    [.add "a" "1", .rename "a" Fmu.descriptionEntry, .rename Fmu.descriptionEntry "b",
      .remove ["c"], .add "a" "2"]
  exact ⟨done, d', entries', hruns, hholds, hcontents (by decide)⟩

end Cosim.Archive
