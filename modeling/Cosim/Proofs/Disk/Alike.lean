import Cosim.Proofs.Disk.Proper

/-!
# Disks that differ in some files

Two disks are alike but for some names in a folder if they have the same folders and, except for
files of these names there, the same files.  The relation has two uses.  Between the disks before
and behind an action it says what the action may change.  Between the disks of two runs it says what
the runs do not have in common, and that shrinks with every file that both of them write.
-/

namespace Cosim

namespace Disk

variable {d d' d'' e : Disk} {k l : Location} {names more flags moreFlags : String → Prop}
  {name path folder : String}

/-! ## Alike disks -/

/-- The same disks, but for files of given names in one folder.  They are executable in both or in
none, except for files of the names in `flags`. -/
structure AlikeBut (k : Location) (names flags : String → Prop) (d e : Disk) : Prop where
  current : e.current = d.current
  folders : ∀ l, e.isFolderAt l = d.isFolderAt l
  items : ∀ l, (∀ name, names name → l ≠ k ++ [name]) → e.item? l = d.item? l
  executable : ∀ name, ¬ flags name → e.executableAt (k ++ [name]) = d.executableAt (k ++ [name])

namespace AlikeBut

theorem refl (k : Location) (names flags : String → Prop) (d : Disk) :
  AlikeBut k names flags d d
  := ⟨rfl, fun _ => rfl, fun _ _ => rfl, fun _ _ => rfl⟩

/-- Disks that are alike in turn are alike. -/
theorem trans (h : AlikeBut k names flags d d') (h' : AlikeBut k names flags d' d'') :
  AlikeBut k names flags d d''
  where
  current := h'.current.trans h.current
  folders l := (h'.folders l).trans (h.folders l)
  items l hl := (h'.items l hl).trans (h.items l hl)
  executable name hname := (h'.executable name hname).trans (h.executable name hname)

/-- Disks that are alike but for few files are alike but for more. -/
theorem mono (h : AlikeBut k names flags d e) (hnames : ∀ name, names name → more name)
    (hflags : ∀ name, flags name → moreFlags name) :
  AlikeBut k more moreFlags d e
  where
  current := h.current
  folders := h.folders
  items l hl := h.items l fun name hname => hl name (hnames name hname)
  executable name hname := h.executable name fun hflag => hname (hflags name hflag)

/-- Files of other names are the same. -/
theorem item?_eq (h : AlikeBut k names flags d e) (hname : ¬ names name) :
  e.item? (k ++ [name]) = d.item? (k ++ [name])
  := by
  apply h.items
  rintro other hother heq
  obtain ⟨-, rfl⟩ := List.append_singleton_inj.mp heq
  exact hname hother

/-- Alike disks keep the files of other names, wherever they are. -/
theorem keeps (h : AlikeBut k names flags d e) :
  Keeps names d e
  where
  current := h.current
  folders := h.folders
  files l name hname hnot := by
    apply h.items
    rintro other hother rfl
    rw [List.getLast?_concat] at hname
    apply hnot
    rw [← Option.some.inj hname]
    exact hother

/-- A file can be written at the same locations. -/
theorem writableAt_eq (h : AlikeBut k names flags d e) (l : Location) :
  e.writableAt l = d.writableAt l
  := by
  rw [writableAt, writableAt, h.folders, h.folders]

end AlikeBut

/-- A file is put without a change to folders. -/
theorem keeps_put (h : d.writableAt l = true) (content : Content) (executable : Bool) :
  Keeps (fun _ => True) d (d.put l (.file content executable))
  := by
  simp only [writableAt, Bool.and_eq_true, Bool.not_eq_true', List.isEmpty_eq_false_iff] at h
  exact .put h.1.1 h.2 content executable fun _ _ => trivial

/-- Putting a file changes that file alone. -/
theorem alikeBut_put (hnot : d.isFolderAt (k ++ [name]) = false) (content : Content)
    {executable : Bool} (hflag : flags name ∨ executable = d.executableAt (k ++ [name])) :
  AlikeBut k (· = name) flags d (d.put (k ++ [name]) (.file content executable))
  where
  current := current_put d _ _
  folders := (Keeps.put (by simp) hnot content executable fun _ _ => trivial).folders
  items l hl := by
    rw [item?_put (by simp), if_neg (hl name rfl)]
  executable other hother := by
    rw [executableAt, item?_put (by simp)]
    by_cases heq : k ++ [other] = k ++ [name]
    · rw [if_pos heq]
      obtain ⟨-, rfl⟩ := List.append_singleton_inj.mp heq
      exact hflag.resolve_left hother
    · rw [if_neg heq]
      rfl

/-- When a file is put on both disks, they do not differ in it any more. -/
theorem AlikeBut.put (h : AlikeBut k names flags d e)
    (hnot : d.isFolderAt (k ++ [name]) = false) (content : Content) (executable : Bool) :
  AlikeBut k (fun other => names other ∧ other ≠ name) (fun other => flags other ∧ other ≠ name)
    (d.put (k ++ [name]) (.file content executable))
    (e.put (k ++ [name]) (.file content executable))
  where
  current := by
    rw [current_put, current_put, h.current]
  folders l := by
    rw [isFolderAt, isFolderAt, item?_put (by simp), item?_put (by simp)]
    split
    · rfl
    · apply h.folders
  items l hl := by
    rw [item?_put (by simp), item?_put (by simp)]
    split
    · rfl
    · rename_i hne
      apply h.items
      rintro other hother rfl
      apply hl other ⟨hother, ?_⟩ rfl
      rintro rfl
      exact hne rfl
  executable other hother := by
    rw [executableAt, executableAt, item?_put (by simp), item?_put (by simp)]
    by_cases heq : k ++ [other] = k ++ [name]
    · rw [if_pos heq, if_pos heq]
    · rw [if_neg heq, if_neg heq]
      apply h.executable
      intro hflag
      apply hother ⟨hflag, ?_⟩
      rintro rfl
      exact heq rfl

/-- The item at a location is exchanged for another one. -/
def exchange (l : Location) (item : Item) (e : Location × Item) : Location × Item :=
  if e.1 == l then (e.1, item) else e

/-- An item at a location is exchanged in its place. -/
theorem put_of_lookup {old : Item} (h : d.items.lookup l = some old) (item : Item) :
  d.put l item = ⟨d.items.map (exchange l item), d.current⟩
  := by
  rw [Disk.put, h]
  rfl

/-- An item at a new location is put behind the others. -/
theorem put_of_lookup_none (h : d.items.lookup l = none) (item : Item) :
  d.put l item = ⟨d.items ++ [(l, item)], d.current⟩
  := by
  rw [Disk.put, h]
  rfl

/-- A second file in the same place takes the place of the first. -/
theorem put_put (d : Disk) (l : Location) (item other : Item) :
  (d.put l item).put l other = d.put l other
  := by
  cases hold : d.items.lookup l with
  | some old =>
    have hnow : (d.put l item).items.lookup l = some item := by
      have hlookup := lookup_map_put d.items l l item
      rw [if_pos rfl, hold, Option.map_some] at hlookup
      rw [put_of_lookup hold]
      exact hlookup
    rw [put_of_lookup hnow, put_of_lookup hold, put_of_lookup hold, List.map_map]
    congr 1
    apply List.map_congr_left
    intro e _
    by_cases hkey : (e.1 == l) = true
    · simp [exchange, hkey]
    · simp [exchange, hkey]
  | none =>
    have hnow : (d.put l item).items.lookup l = some item := by
      rw [put_of_lookup_none hold, List.lookup_append, hold]
      simp
    rw [put_of_lookup hnow, put_of_lookup_none hold, put_of_lookup_none hold, List.map_append]
    congr 1
    have hsame : d.items.map (exchange l other) = d.items := by
      apply (List.map_congr_left _).trans (List.map_id _)
      intro e he
      rw [List.lookup_eq_none_iff] at hold
      have hkey : (e.1 == l) = false := by
        rw [BEq.comm, ← Bool.not_eq_true', ← bne]
        exact hold e he
      rw [exchange, hkey]
      rfl
    rw [hsame, List.map_singleton, exchange, if_pos (beq_self_eq_true _)]

/-! ## Written files -/

/-- What an action does that writes files of given names into a folder, where they can be found by
their paths; it removes no file. -/
structure Written (folder : String) (k : Location) (names flags : String → Prop) (d d' : Disk) :
    Prop where
  proper : d'.Proper
  alike : AlikeBut k names flags d d'
  files : ∀ l, d.isFileAt l = true → d'.isFileAt l = true
  located : ∀ name, d'.item? (k ++ [name]) ≠ d.item? (k ++ [name]) →
    d.locate? (Path.join folder name) = some (k ++ [name])

namespace Written

theorem refl (hd : d.Proper) :
  Written folder k names flags d d
  := ⟨hd, .refl k names flags d, fun _ h => h, fun _ h => absurd rfl h⟩

/-- Two changes that write into a folder are one. -/
theorem trans (h : Written folder k names flags d d') (h' : Written folder k names flags d' d'') :
  Written folder k names flags d d''
  where
  proper := h'.proper
  alike := h.alike.trans h'.alike
  files l hl := h'.files l (h.files l hl)
  located name hne := by
    by_cases hsame : d'.item? (k ++ [name]) = d.item? (k ++ [name])
    · rw [← h.alike.keeps.locate?_eq]
      apply h'.located
      rwa [hsame]
    · apply h.located name hsame

/-- What is written under few names is written under more. -/
theorem mono (h : Written folder k names flags d d') (hnames : ∀ name, names name → more name)
    (hflags : ∀ name, flags name → moreFlags name) :
  Written folder k more moreFlags d d'
  := ⟨h.proper, h.alike.mono hnames hflags, h.files, h.located⟩

end Written

/-- A file can be written in a folder unless there is a folder of its name. -/
theorem writableAt_iff :
  d.writableAt (k ++ [name]) = true ↔
    d.isFolderAt k = true ∧ d.isFolderAt (k ++ [name]) = false
  := by
  simp [writableAt]

/-- A file that is put into a folder is written there. -/
theorem written_put (hd : d.Proper) (hname : (Path.Part.name name).IsStep)
    (hl : d.locate? (Path.join folder name) = some (k ++ [name]))
    (hplace : d.writableAt (k ++ [name]) = true) (content : Content) {executable : Bool}
    (hflag : flags name ∨ executable = d.executableAt (k ++ [name])) :
  Written folder k (· = name) flags d (d.put (k ++ [name]) (.file content executable))
  := by
  obtain ⟨hparent, hfree⟩ := writableAt_iff.mp hplace
  have halike : AlikeBut k (· = name) flags d (d.put (k ++ [name]) (.file content executable)) :=
    alikeBut_put hfree content hflag
  refine ⟨hd.put hname hparent hfree content executable, halike, ?_, ?_⟩
  · intro l hfile
    rw [isFileAt, item?_put (by simp)]
    by_cases hl : l = k ++ [name]
    · rw [if_pos hl]
    · rw [if_neg hl]
      exact hfile
  · intro other hne
    by_cases hother : other = name
    · rwa [hother]
    · exact absurd (halike.item?_eq hother) hne

end Disk

namespace Action

open Disk (AlikeBut Written)

variable {d d' e : Disk} {k l : Location} {names flags : String → Prop} {content : Content}
  {folder name source path : String}

/-! ## Writing -/

/-- Writing succeeds exactly where the path leads to a place for a file, and keeps its flag. -/
theorem write_eq_ok_iff {u : PUnit} :
  write path content d = .ok u d' ↔ ∃ l, d.locate? path = some l ∧ d.writableAt l = true ∧
    d' = d.put l (.file content (d.executableAt l))
  := by
  rw [write_eq]
  constructor
  · intro h
    cases hl : d.locate? path with
    | none =>
      rw [hl] at h
      cases h
    | some l =>
      simp only [hl] at h
      split at h
      · rename_i hplace
        cases h
        exact ⟨l, rfl, hplace, rfl⟩
      · cases h
  · rintro ⟨l, hl, hplace, rfl⟩
    simp only [hl, if_pos hplace]

/-- Writing a file into a folder writes its name alone. -/
theorem written_of_write {u : PUnit} (hd : d.Proper) (hname : (Path.Part.name name).IsStep)
    (hfolder : d.locate? folder = some k) (h : write (Path.join folder name) content d = .ok u d') :
  Written folder k (· = name) (fun _ => False) d d'
  := by
  obtain ⟨l, hl, hplace, rfl⟩ := write_eq_ok_iff.mp h
  obtain rfl := Disk.eq_of_locate?_join hname hfolder hl
  apply Disk.written_put hd hname hl hplace
  right
  rfl

/-- Alike disks are written to in the same way. -/
theorem write_alike (h : AlikeBut k names flags d e) (hname : (Path.Part.name name).IsStep)
    (hfolder : d.locate? folder = some k) (hflag : ¬ flags name) (content : Content) :
  (∃ u, write (Path.join folder name) content d = .error u d ∧
    write (Path.join folder name) content e = .error u e) ∨
  ∃ d' e', write (Path.join folder name) content d = .ok () d' ∧
    write (Path.join folder name) content e = .ok () e' ∧
    AlikeBut k (fun other => names other ∧ other ≠ name) flags d' e'
  := by
  rw [write_eq, write_eq, h.keeps.locate?_eq]
  cases hl : d.locate? (Path.join folder name) with
  | none => exact .inl ⟨_, rfl, rfl⟩
  | some l =>
    obtain rfl := Disk.eq_of_locate?_join hname hfolder hl
    simp only [h.writableAt_eq, h.executable name hflag]
    cases hplace : d.writableAt (k ++ [name]) with
    | false => exact .inl ⟨_, rfl, rfl⟩
    | true =>
      refine .inr ⟨_, _, rfl, rfl, ?_⟩
      apply (h.put (Disk.writableAt_iff.mp hplace).2 content _).mono
      · exact fun _ => id
      · exact fun _ => And.left

/-! ## Copying -/

/-- A copy of a file from elsewhere is a file like its source. -/
theorem copy_eq_ok_iff {target : String} {executable : Bool} {u : PUnit}
    (hsource : d.locate? source = some l) (hitem : d.item? l = some (.file content executable))
    (hne : d.locate? target ≠ some l) :
  copy source target d = .ok u d' ↔ ∃ k, d.locate? target = some k ∧ d.writableAt k = true ∧
    d' = d.put k (.file content executable)
  := by
  have hfind : d.find? source = some (.file content executable) := by
    rw [Disk.find?, hsource, Option.bind_some, hitem]
  have hread : read source d = .ok content d := by
    rw [read_eq_ok, Disk.content?, hfind]
    exact ⟨rfl, rfl⟩
  have hsame : ¬ (d.sameItem? source target == some true) = true := by
    rw [Disk.sameItem?, hsource]
    cases htarget : d.locate? target with
    | none => simp
    | some k =>
      have hplace : (l == k) = false := by
        apply beq_false_of_ne
        rintro rfl
        exact hne htarget
      simp only [hplace]
      split <;> simp
  rw [copy, bind_of_ok hread, get_bind, if_neg hsame, bind_eq_ok]
  constructor
  · rintro ⟨_, d₁, hwrite, h⟩
    obtain ⟨k, htarget, hplace, rfl⟩ := write_eq_ok_iff.mp hwrite
    have hkeeps := Disk.keeps_put hplace content (d.executableAt k)
    simp only [get_bind, hkeeps.locate?_eq, htarget, hfind, Disk.put_put] at h
    cases h
    exact ⟨k, htarget, hplace, rfl⟩
  · rintro ⟨k, htarget, hplace, rfl⟩
    have hkeeps := Disk.keeps_put hplace content (d.executableAt k)
    refine ⟨(), _, write_eq_ok_iff.mpr ⟨k, htarget, hplace, rfl⟩, ?_⟩
    simp only [get_bind, hkeeps.locate?_eq, htarget, hfind, Disk.put_put]
    rfl

end Action

end Cosim
