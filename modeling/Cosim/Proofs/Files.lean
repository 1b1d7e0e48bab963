import Cosim.Deploy.Results
import Cosim.Proofs.Disk
import Cosim.Proofs.FileName

/-!
# Runs that write files

An action is said to keep a disk up to some file names if it changes files of those names at most,
makes no folder and removes none.  What is found at a path of another name is then the same before
and after it, however it ends.
-/

namespace Cosim

open Cosim.Path (IsDot)

namespace Disk

variable {d d' d'' : Disk} {path name : String} {l k : Location}

/-! ## Following paths -/

/-- Following two runs of segments is following the first one and going on from there. -/
theorem follow_append (d : Disk) (l : Location) (front more : List String) :
  d.follow l (front ++ more) = (d.follow l front).bind (d.follow · more)
  := by
  induction front generalizing l with
  | nil => rfl
  | cons s front ih =>
    rw [List.cons_append, follow, follow]
    split
    · rfl
    · split
      · apply ih
      · split <;> apply ih

/-- Segments that are no parts lead nowhere else, and only on from a folder. -/
theorem eq_of_follow_dots {dots : List String} (hdots : ∀ s ∈ dots, IsDot s)
    (h : d.follow l dots = some k) :
  k = l ∧ (dots ≠ [] → d.isFolderAt l = true)
  := by
  induction dots with
  | nil => exact ⟨(Option.some.inj h).symm, fun hne => absurd rfl hne⟩
  | cons s dots ih =>
    rw [List.forall_mem_cons] at hdots
    obtain ⟨hs, hdots⟩ := hdots
    have hdot : (s.isEmpty || s == ".") = true := by
      obtain rfl | rfl := hs <;> decide
    rw [follow, if_pos hdot] at h
    split at h
    · cases h
    · rename_i hfolder
      rw [Bool.not_eq_true, Bool.or_eq_false_iff, Bool.not_eq_false'] at hfolder
      exact ⟨(ih hdots h).1, fun _ => hfolder.1⟩

/-- A name followed by dots leads to the item of that name, which is a folder if there are any dots.
-/
theorem eq_of_follow_name {dots : List String} (hname : (Path.Part.name name).IsStep)
    (hdots : ∀ s ∈ dots, IsDot s) (h : d.follow l (name :: dots) = some k) :
  k = l ++ [name] ∧ (dots ≠ [] → d.isFolderAt k = true)
  := by
  have hdot : ¬ (name.isEmpty || name == ".") = true := by
    intro hor
    apply hname.not_isDot
    rw [Bool.or_eq_true, String.isEmpty_iff, beq_iff_eq] at hor
    apply hor
  have hparent : ¬ (name == "..") = true := by simpa using hname.ne_parent
  rw [follow, if_neg hdot, if_neg hparent] at h
  split at h
  · cases h
  · obtain ⟨rfl, hfolder⟩ := eq_of_follow_dots hdots h
    exact ⟨rfl, hfolder⟩

/-- A path that is located is followed along its segments from some location. -/
theorem follow_of_locate? (h : d.locate? path = some l) :
  ∃ start, d.follow start (Path.segments path) = some l
  := by
  rw [locate?] at h
  split at h
  · exact ⟨_, h⟩
  · cases h

/-- The place of a path has the file name of the path, and only a folder may have dots behind it. -/
theorem place_of_fileName? (hname : Path.fileName? path = some name)
    (h : d.locate? path = some l) :
  l.getLast? = some name ∧
  (d.isFolderAt l = true ∨ ∃ front, Path.segments path = front ++ [name])
  := by
  obtain ⟨front, dots, hsegments, hstep, hdots⟩ := Path.fileName?_eq_some_iff.mp hname
  obtain ⟨start, hfollow⟩ := follow_of_locate? h
  rw [hsegments, follow_append] at hfollow
  obtain ⟨outer, -, hfollow⟩ := Option.bind_eq_some_iff.mp hfollow
  obtain ⟨rfl, hfolder⟩ := eq_of_follow_name hstep hdots hfollow
  refine ⟨List.getLast?_concat, ?_⟩
  by_cases hnil : dots = []
  · exact .inr ⟨front, by rw [hsegments, hnil]⟩
  · exact .inl (hfolder hnil)

/-- A path has a content exactly if it leads to a file with that content. -/
theorem content?_eq_some_iff {content : Content} :
  d.content? path = some content ↔
    ∃ l executable, d.locate? path = some l ∧ d.item? l = some (.file content executable)
  := by
  rw [content?, find?]
  constructor
  · intro h
    cases hl : d.locate? path with
    | none => simp [hl] at h
    | some l =>
      rw [hl, Option.bind_some] at h
      split at h
      · rename_i found executable hitem
        exact ⟨l, executable, rfl, by rw [hitem, Option.some.inj h]⟩
      · cases h
  · rintro ⟨l, executable, hl, hitem⟩
    rw [hl, Option.bind_some, hitem]

/-- A path leads to a file exactly if it has some content. -/
theorem isFile_iff :
  d.isFile path = true ↔ ∃ content, d.content? path = some content
  := by
  rw [isFile, content?]
  split <;> simp

/-- Behind a folder, the path of a file has a file name only if it has one of its own. -/
theorem fileName?_of_isFile {folder : String} (hfile : d.isFile (Path.join folder path) = true)
    (hname : Path.fileName? (Path.join folder path) = some name) :
  Path.fileName? path = some name
  := by
  obtain ⟨content, hcontent⟩ := isFile_iff.mp hfile
  obtain ⟨l, executable, hl, hitem⟩ := content?_eq_some_iff.mp hcontent
  obtain ⟨-, hfolder | ⟨front, hsegments⟩⟩ := place_of_fileName? hname hl
  · rw [isFolderAt, hitem] at hfolder
    cases hfolder
  · obtain ⟨outer, hjoin⟩ := Path.exists_segments_join folder path
    obtain ⟨own, s, hown⟩ := List.eq_nil_or_concat' (Path.segments path) |>.resolve_left
      (Path.segments_ne_nil path)
    rw [hsegments, hown, ← List.append_assoc] at hjoin
    obtain rfl := List.singleton_inj.mp (List.append_inj_right' hjoin rfl)
    exact Path.fileName?_eq_some_iff.mpr
      ⟨own, [], hown, Path.isStep_of_fileName? hname, List.forall_mem_nil _⟩

/-! ## Putting items -/

def isFileAt (d : Disk) (l : Location) : Bool :=
  match d.item? l with
  | some (.file _ _) => true
  | _ => false

/-- Whether a path leads to a file is told by the location it leads to. -/
theorem isFile_of_locate? (h : d.locate? path = some l) :
  d.isFile path = d.isFileAt l
  := by
  rw [isFile, find?, h, Option.bind_some]
  rfl

/-- Whether there is a file that can be executed. -/
def executableAt (d : Disk) (l : Location) : Bool :=
  match d.item? l with
  | some (.file _ executable) => executable
  | _ => false

/-- Whether a file can be put at a place: under a name in a folder, but not over a folder. -/
def writableAt (d : Disk) (l : Location) : Bool :=
  !l.isEmpty && d.isFolderAt l.dropLast && !d.isFolderAt l

/-- Replacing the item of one location changes the look-up of that location alone. -/
theorem lookup_map_put (items : List (Location × Item)) (l k : Location) (item : Item) :
  (items.map fun (key, old) => if key == l then (key, item) else (key, old)).lookup k =
    if k = l then (items.lookup l).map fun _ => item else items.lookup k
  := by
  induction items with
  | nil => simp
  | cons entry items ih =>
    obtain ⟨key, old⟩ := entry
    rw [List.map_cons]
    by_cases hkey : key = l
    · subst hkey
      by_cases hk : k = key
      · simp [hk]
      · have hne : (k == key) = false := by simpa using hk
        simpa [hk, hne, List.lookup_cons] using ih
    · have hskip : (key == l) = false := by simpa using hkey
      by_cases hk : k = key
      · subst hk
        simp [hkey]
      · have hne : (k == key) = false := by simpa using hk
        have hback : (l == key) = false := by simpa using Ne.symm hkey
        simpa [hskip, hne, hback, List.lookup_cons] using ih

/-- After an item has been put at a location it is found there, and all other locations are as
before. -/
theorem item?_put (hl : l ≠ []) (item : Item) (k : Location) :
  (d.put l item).item? k = if k = l then some item else d.item? k
  := by
  have hroot : l.isEmpty = false := List.isEmpty_eq_false_iff.mpr hl
  rw [item?, item?, put]
  by_cases hempty : k.isEmpty
  · have hne : ¬ k = l := by
      rintro rfl
      rw [hroot] at hempty
      cases hempty
    rw [if_pos hempty, if_pos hempty, if_neg hne]
  · rw [if_neg hempty, if_neg hempty]
    cases hold : d.items.lookup l with
    | some old =>
      simp only [Option.isSome_some, if_true, lookup_map_put, hold, Option.map_some]
    | none =>
      simp only [Option.isSome_none, Bool.false_eq_true, if_false, List.lookup_append,
        List.lookup_cons, List.lookup_nil]
      by_cases hk : k = l
      · subst hk
        simp [hold]
      · have hne : (k == l) = false := by simpa using hk
        rw [if_neg hk, hne, Option.or_none]

@[simp]
theorem current_put (d : Disk) (l : Location) (item : Item) :
  (d.put l item).current = d.current
  := by
  rw [put]
  split <;> rfl

/-! ## What is kept -/

/-- Only files of given names differ, and folders are the same. -/
structure Keeps (names : String → Prop) (d d' : Disk) : Prop where
  current : d'.current = d.current
  folders : ∀ l, d'.isFolderAt l = d.isFolderAt l
  files : ∀ l name, l.getLast? = some name → ¬ names name → d'.item? l = d.item? l

namespace Keeps

variable {names more : String → Prop}

theorem refl (names : String → Prop) (d : Disk) :
  Keeps names d d
  := ⟨rfl, fun _ => rfl, fun _ _ _ _ => rfl⟩

/-- What is kept by each of two changes is kept by both. -/
theorem trans (h : Keeps names d d') (h' : Keeps names d' d'') :
  Keeps names d d''
  where
  current := h'.current.trans h.current
  folders l := (h'.folders l).trans (h.folders l)
  files l name hname hnot := (h'.files l name hname hnot).trans (h.files l name hname hnot)

/-- A change that may touch fewer names keeps what one may that touches more. -/
theorem mono (h : Keeps names d d') (hle : ∀ name, names name → more name) :
  Keeps more d d'
  where
  current := h.current
  folders := h.folders
  files l name hname hnot := h.files l name hname fun hin => hnot (hle name hin)

/-- Segments lead where they led, since folders are kept. -/
theorem follow_eq (h : Keeps names d d') (l : Location) (segments : List String) :
  d'.follow l segments = d.follow l segments
  := by
  induction segments generalizing l with
  | nil => rfl
  | cons s segments ih => simp only [follow, h.folders, ih]

/-- Paths lead where they led, since folders are kept. -/
theorem locate?_eq (h : Keeps names d d') (path : String) :
  d'.locate? path = d.locate? path
  := by
  rw [locate?, locate?, h.follow_eq, h.current]

/-- At a path of another name the same is found. -/
theorem find?_eq (h : Keeps names d d') (hname : Path.fileName? path = some name)
    (hnot : ¬ names name) :
  d'.find? path = d.find? path
  := by
  rw [find?, find?, h.locate?_eq]
  cases hl : d.locate? path with
  | none => rfl
  | some l => exact h.files l name (place_of_fileName? hname hl).1 hnot

/-- A file whose name may not be touched has the content that it had. -/
theorem content?_eq (h : Keeps names d d') (hname : Path.fileName? path = some name)
    (hnot : ¬ names name) :
  d'.content? path = d.content? path
  := by
  rw [content?, content?, h.find?_eq hname hnot]

/-- A path whose last name may not be touched leads to a file exactly if it did. -/
theorem isFile_eq (h : Keeps names d d') (hname : Path.fileName? path = some name)
    (hnot : ¬ names name) :
  d'.isFile path = d.isFile path
  := by
  rw [isFile, isFile, h.find?_eq hname hnot]

/-- A file is put where there is no folder. -/
theorem put (hl : l ≠ []) (hitem : d.isFolderAt l = false) (content : Content)
    (executable : Bool) (hnames : ∀ name ∈ l.getLast?, names name) :
  Keeps names d (d.put l (.file content executable))
  where
  current := current_put d l _
  folders k := by
    rw [isFolderAt, item?_put hl]
    split
    · rename_i heq
      rw [heq, hitem]
      rfl
    · rfl
  files k name hname hnot := by
    rw [item?_put hl, if_neg]
    rintro rfl
    apply hnot (hnames name hname)

end Keeps

/-! ## Removing items -/

/-- Of a list cut down to some locations only these are looked up as before. -/
theorem lookup_filter_keys (items : List (Location × Item)) (p : Location → Bool) (k : Location) :
  (items.filter fun (key, _) => p key).lookup k = if p k then items.lookup k else none
  := by
  induction items with
  | nil => simp
  | cons entry items ih =>
    obtain ⟨key, item⟩ := entry
    by_cases hk : k = key
    · subst hk
      cases hp : p k with
      | true => simp [hp]
      | false => simpa [hp] using ih
    · have hne : (k == key) = false := by simpa using hk
      cases hp : p key with
      | true => simpa [hp, hne, List.lookup_cons] using ih
      | false => simpa [hp, hne, List.lookup_cons] using ih

/-- A disk without any items but those of another one. -/
structure Within (d' d : Disk) : Prop where
  current : d'.current = d.current
  items : ∀ l item, d'.item? l = some item → d.item? l = some item

namespace Within

theorem refl (d : Disk) :
  d.Within d
  := ⟨rfl, fun _ _ h => h⟩

/-- What is within a disk within another one is within that one. -/
theorem trans (h : d''.Within d') (h' : d'.Within d) :
  d''.Within d
  := ⟨h.current.trans h'.current, fun l item hitem => h'.items l item (h.items l item hitem)⟩

/-- A disk without one of its trees is within it. -/
theorem removeTree (d : Disk) (l : Location) :
  (d.removeTree l).Within d
  where
  current := rfl
  items k item h := by
    rw [item?] at h ⊢
    by_cases hroot : k.isEmpty
    · rw [if_pos hroot] at h ⊢
      exact h
    · rw [if_neg hroot, Disk.removeTree, lookup_filter_keys d.items fun key => !l.isPrefixOf key] at h
      rw [if_neg hroot]
      split at h
      · exact h
      · cases h

/-- Segments that lead somewhere on the smaller disk lead to the same place on the larger one. -/
theorem follow_eq (h : d'.Within d) {segments : List String} (hk : d'.follow l segments = some k) :
  d.follow l segments = some k
  := by
  have hfolder {place : Location} (hplace : d'.isFolderAt place = true) :
      d.isFolderAt place = true := by
    rw [isFolderAt, beq_iff_eq] at hplace ⊢
    apply h.items place _ hplace
  induction segments generalizing l with
  | nil => apply hk
  | cons s segments ih =>
    rw [follow] at hk ⊢
    split at hk
    · cases hk
    · rename_i hgo
      simp only [Bool.not_eq_true, Bool.or_eq_false_iff, Bool.not_eq_false'] at hgo
      rw [if_neg (by simpa [hfolder hgo.1] using hgo.2)]
      split at hk
      · rename_i hdot
        rw [if_pos hdot]
        apply ih hk
      · rename_i hdot
        rw [if_neg hdot]
        split at hk
        · rename_i hparent
          rw [if_pos hparent]
          apply ih hk
        · rename_i hparent
          rw [if_neg hparent]
          apply ih hk

/-- What a path finds on the smaller disk it finds on the larger one. -/
theorem find?_eq (h : d'.Within d) {item : Item} (hfound : d'.find? path = some item) :
  d.find? path = some item
  := by
  rw [find?, Option.bind_eq_some_iff] at hfound ⊢
  obtain ⟨l, hl, hitem⟩ := hfound
  refine ⟨l, ?_, h.items l item hitem⟩
  rw [locate?, h.current] at hl
  rw [locate?]
  split at hl
  · rename_i hpath
    rw [if_pos hpath]
    apply h.follow_eq hl
  · cases hl

/-- A content on the smaller disk is the same on the larger one. -/
theorem content?_eq (h : d'.Within d) {content : Content} (hfound : d'.content? path = some content) :
  d.content? path = some content
  := by
  rw [content?] at hfound
  split at hfound
  · rename_i found executable hitem
    rw [content?, h.find?_eq hitem]
    exact hfound
  · cases hfound

end Within

end Disk

namespace Action

open Disk (Keeps)

variable {α β : Type} {d d' : Disk} {names : String → Prop} {path source target name : String}

/-! ## Actions that keep -/

/-- The disk behind an action, however it ends. -/
def after (x : Action α) (d : Disk) : Disk :=
  match x d with
  | .ok _ d' => d'
  | .error _ d' => d'

/-- An action that changes files of given names at most. -/
def Keeping (names : String → Prop) (x : Action α) : Prop := ∀ d, Keeps names d (after x d)

theorem after_of_ok {x : Action α} {a : α} (h : x d = .ok a d') :
  after x d = d'
  := by
  rw [after, h]

/-- An action that keeps and succeeds leaves a disk that is kept. -/
theorem Keeping.of_ok {x : Action α} {a : α} (h : Keeping names x) (hx : x d = .ok a d') :
  Keeps names d d'
  := by
  rw [← after_of_ok hx]
  apply h

theorem keeping_pure (a : α) :
  Keeping names (pure a : Action α)
  := fun d => .refl names d

theorem keeping_throw (e : Failure) :
  Keeping names (throw e : Action α)
  := fun d => .refl names d

theorem keeping_get :
  Keeping names (get : Action Disk)
  := fun d => .refl names d

/-- An action that reads touches no file at all. -/
theorem keeping_of_reads {x : Action α} (h : Reads path x) :
  Keeping names x
  := by
  intro d
  obtain ⟨a, hd, -⟩ | ⟨u, hd, -⟩ := h d d rfl
  · rw [after, hd]
    apply Keeps.refl
  · rw [after, hd]
    apply Keeps.refl

/-- Two actions one after the other keep what each of them keeps. -/
theorem keeping_bind {x : Action α} {f : α → Action β} (h : Keeping names x)
    (hf : ∀ a, Keeping names (f a)) :
  Keeping names (x >>= f)
  := by
  intro d
  have hx := h d
  rw [after] at hx ⊢
  simp only [bind, EStateM.bind]
  cases hrun : x d with
  | ok a d' =>
    rw [hrun] at hx
    apply hx.trans (hf a d')
  | error e d' =>
    rw [hrun] at hx
    apply hx

/-- What is done after a failure keeps what was kept up to it. -/
theorem keeping_tryCatch {x : Action α} {f : Failure → Action α} (h : Keeping names x)
    (hf : ∀ e, Keeping names (f e)) :
  Keeping names (tryCatch x f)
  := by
  intro d
  have hx := h d
  rw [after] at hx ⊢
  simp only [tryCatch, tryCatchThe, MonadExceptOf.tryCatch, EStateM.tryCatch]
  cases hrun : x d with
  | ok a d' =>
    rw [hrun] at hx
    apply hx
  | error e d' =>
    rw [hrun] at hx
    apply hx.trans (hf e d')

/-- An action for each of several things keeps what it keeps for each. -/
theorem keeping_mapM {f : α → Action β} {as : List α} (h : ∀ a ∈ as, Keeping names (f a)) :
  Keeping names (as.mapM f)
  := by
  induction as with
  | nil =>
    rw [List.mapM_nil]
    apply keeping_pure
  | cons a as ih =>
    rw [List.forall_mem_cons] at h
    rw [List.mapM_cons]
    apply keeping_bind h.1
    intro b
    apply keeping_bind (ih h.2)
    intro bs
    apply keeping_pure

/-! ## Writing -/

theorem set_eq_ok {e : Disk} {u : PUnit} :
  (set e : Action PUnit) d = .ok u d' ↔ e = d'
  := by
  simp [set, MonadStateOf.set, EStateM.set]

/-- Reading gives the content that the path has, and changes nothing. -/
theorem read_eq_ok {content : Content} :
  read path d = .ok content d' ↔ d.content? path = some content ∧ d = d'
  := by
  simp only [read, bind_eq_ok, get_eq_ok]
  constructor
  · rintro ⟨_, _, ⟨rfl, rfl⟩, h⟩
    cases hfound : d.content? path with
    | none => simp [hfound, throw_ne_ok] at h
    | some found =>
      simp only [hfound, pure_eq_ok] at h
      exact ⟨congrArg some h.1, h.2⟩
  · rintro ⟨hfound, rfl⟩
    refine ⟨d, d, ⟨rfl, rfl⟩, ?_⟩
    simp only [hfound, pure_eq_ok, and_self]

/-- Writing puts a file where the path leads, and is refused where that is no place for one. -/
theorem write_eq (path : String) (content : Content) (d : Disk) :
  write path content d =
    match d.locate? path with
    | none => .error .file d
    | some l =>
      if d.writableAt l then .ok () (d.put l (.file content (d.executableAt l)))
      else .error .file d
  := by
  simp only [write, bind, EStateM.bind, get, getThe, MonadStateOf.get, EStateM.get]
  cases d.locate? path with
  | none => rfl
  | some l =>
    cases hroot : l.isEmpty with
    | true => simp only [Disk.writableAt, hroot, Bool.true_or, if_true]; rfl
    | false =>
      cases hparent : d.isFolderAt l.dropLast with
      | false => simp only [Disk.writableAt, hroot, hparent, Bool.not_false, Bool.or_true, if_true]; rfl
      | true =>
        simp only [Disk.writableAt, Disk.executableAt, hroot, hparent]
        rw [Disk.isFolderAt]
        cases d.item? l with
        | none => rfl
        | some item => cases item <;> rfl

/-- A write that fails changes nothing, and one that does not puts a file. -/
theorem write_cases (path : String) (content : Content) (d : Disk) :
  (∃ e, write path content d = .error e d) ∨
  ∃ l executable, d.locate? path = some l ∧ l ≠ [] ∧ d.isFolderAt l = false ∧
    write path content d = .ok () (d.put l (.file content executable))
  := by
  rw [write_eq]
  cases d.locate? path with
  | none => exact .inl ⟨_, rfl⟩
  | some l =>
    by_cases hplace : d.writableAt l = true
    · have hfree := hplace
      simp only [Disk.writableAt, Bool.and_eq_true, Bool.not_eq_true', List.isEmpty_eq_false_iff]
        at hfree
      exact .inr ⟨l, _, rfl, hfree.1.1, hfree.2, if_pos hplace⟩
    · exact .inl ⟨_, if_neg hplace⟩

/-- A file that has been written stands where its path leads, which is neither the root nor a
folder. -/
theorem write_eq_ok {content : Content} {u : PUnit} (h : write path content d = .ok u d') :
  ∃ l executable, d.locate? path = some l ∧ l ≠ [] ∧ d.isFolderAt l = false ∧
    d' = d.put l (.file content executable)
  := by
  obtain ⟨e, hwrite⟩ | ⟨l, executable, hl, hne, hfolder, hwrite⟩ := write_cases path content d
  · rw [hwrite] at h
    cases h
  · rw [hwrite] at h
    cases h
    exact ⟨l, executable, hl, hne, hfolder, rfl⟩

/-- Writing that fails changes nothing. -/
theorem write_eq_error {content : Content} {e : Failure} (h : write path content d = .error e d') :
  d' = d
  := by
  obtain ⟨_, hwrite⟩ | ⟨l, executable, -, -, -, hwrite⟩ := write_cases path content d
  · rw [hwrite] at h
    cases h
    rfl
  · rw [hwrite] at h
    cases h

/-- Writing a file touches no other name than that of the file. -/
theorem keeping_write (hname : Path.fileName? path = some name) (hin : names name)
    (content : Content) :
  Keeping names (write path content)
  := by
  intro d
  obtain ⟨e, h⟩ | ⟨l, executable, hl, hne, hfolder, h⟩ := write_cases path content d
  · rw [after, h]
    apply Keeps.refl
  · rw [after, h]
    apply Keeps.put hne hfolder
    rw [(Disk.place_of_fileName? hname hl).1]
    rintro _ ⟨⟩
    apply hin

/-- Writing a text touches no other name than that of its file. -/
theorem keeping_writeText (hname : Path.fileName? path = some name) (hin : names name)
    (text : String) :
  Keeping names (writeText path text)
  := keeping_write hname hin _

/-- What was written is found. -/
theorem find?_put {l : Location} (hne : l ≠ []) (hfolder : d.isFolderAt l = false)
    (hl : d.locate? path = some l) (content : Content) (executable : Bool) :
  (d.put l (.file content executable)).find? path = some (.file content executable)
  := by
  have hkeeps : Keeps (fun _ => True) d (d.put l (.file content executable)) :=
    .put hne hfolder content executable fun _ _ => trivial
  rw [Disk.find?, hkeeps.locate?_eq, hl, Option.bind_some, Disk.item?_put hne, if_pos rfl]

/-! ## Copying -/

/-- A copy has the content of its source, which keeps it, unless a file is copied onto itself. -/
theorem copy_eq_ok {u : PUnit} (hname : Path.fileName? target = some name)
    (h : copy source target d = .ok u d') :
  Keeps (· = name) d d' ∧ ∃ content, d.content? source = some content ∧
    (d'.content? target = some (Content.ofText "") ∨
      d'.content? target = some content ∧ d'.content? source = some content)
  := by
  simp only [copy, bind_eq_ok, read_eq_ok, get_eq_ok] at h
  obtain ⟨content, _, ⟨hcontent, rfl⟩, _, _, ⟨rfl, rfl⟩, h⟩ := h
  by_cases hsame : (d.sameItem? source target == some true) = true
  · rw [if_pos hsame] at h
    have hwrite : Keeping (· = name) (writeText target "") := by
      apply keeping_writeText hname
      rfl
    have hkeeps := hwrite.of_ok h
    obtain ⟨l, executable, hl, hne, hfolder, rfl⟩ := write_eq_ok h
    refine ⟨hkeeps, content, hcontent, .inl ?_⟩
    rw [Disk.content?, find?_put hne hfolder hl]
  · rw [if_neg hsame, bind_eq_ok] at h
    obtain ⟨_, d₁, hwrite, h⟩ := h
    have hwriting : Keeping (· = name) (write target content) := by
      apply keeping_write hname
      rfl
    have hkeeps := hwriting.of_ok hwrite
    obtain ⟨l, executable, hl, hne, hfolder, rfl⟩ := write_eq_ok hwrite
    simp only [bind_eq_ok, get_eq_ok] at h
    obtain ⟨_, _, ⟨rfl, rfl⟩, h⟩ := h
    have hplace := (hkeeps.locate?_eq target).trans hl
    have hfolder' := (hkeeps.folders l).trans hfolder
    have hlast := (Disk.place_of_fileName? hname hl).1
    simp only [hplace, set_eq_ok] at h
    have hagain : Keeps (· = name) (d.put l (.file content executable)) d' := by
      rw [← h]
      apply Keeps.put hne hfolder'
      rw [hlast]
      rintro _ ⟨⟩
      rfl
    obtain ⟨k, found, hk, hitem⟩ := Disk.content?_eq_some_iff.mp hcontent
    have hother : k ≠ l := by
      rintro rfl
      apply hsame
      simp [Disk.sameItem?, hk, hl, hitem]
    have hsource := (hagain.locate?_eq source).trans ((hkeeps.locate?_eq source).trans hk)
    refine ⟨hkeeps.trans hagain, content, hcontent, .inr ⟨?_, ?_⟩⟩
    · rw [← h, Disk.content?, find?_put hne hfolder' hplace]
    · rw [Disk.content?, Disk.find?, hsource, ← h, Option.bind_some, Disk.item?_put hne,
        if_neg hother, Disk.item?_put hne, if_neg hother, hitem]

/-- A copy that fails changes nothing. -/
theorem copy_eq_error {e : Failure} (h : copy source target d = .error e d') :
  d' = d
  := by
  rw [copy] at h
  cases hcontent : d.content? source with
  | none =>
    have hread : read source d = .error .file d := by
      rw [read, get_bind, hcontent]
      rfl
    rw [bind_of_error hread] at h
    cases h
    rfl
  | some content =>
    rw [bind_of_ok (read_eq_ok.mpr ⟨hcontent, rfl⟩), get_bind] at h
    by_cases hsame : (d.sameItem? source target == some true) = true
    · rw [if_pos hsame] at h
      apply write_eq_error h
    · rw [if_neg hsame] at h
      cases hrun : write target content d with
      | error e' d₁ =>
        rw [bind_of_error hrun] at h
        cases h
        apply write_eq_error hrun
      | ok u d₁ =>
        rw [bind_of_ok hrun] at h
        simp only [get_bind] at h
        cases hl : d₁.locate? target with
        | none =>
          simp only [hl] at h
          cases h
        | some l =>
          simp only [hl] at h
          cases h

/-- Copying touches no other name than that of the copy. -/
theorem keeping_copy (hname : Path.fileName? target = some name) (hin : names name) :
  Keeping names (copy source target)
  := by
  intro d
  rw [after]
  cases hrun : copy source target d with
  | ok u d' =>
    apply (copy_eq_ok hname hrun).1.mono
    rintro _ rfl
    exact hin
  | error e d' =>
    rw [copy_eq_error hrun]
    apply Keeps.refl

/-! ## Removing -/

/-- Removing succeeds exactly where the path leads to a file, which is then gone. -/
theorem remove_eq_ok_iff {u : PUnit} :
  remove path d = .ok u d' ↔
    ∃ l, d.locate? path = some l ∧ d.isFileAt l = true ∧ d' = d.removeTree l
  := by
  simp only [remove, bind_eq_ok, get_eq_ok]
  constructor
  · rintro ⟨_, _, ⟨rfl, rfl⟩, h⟩
    cases hl : d.locate? path with
    | none => simp [hl, throw_ne_ok] at h
    | some l =>
      rw [hl, Disk.isFile_of_locate? hl] at h
      cases hfile : d.isFileAt l with
      | false => simp [hfile, throw_ne_ok] at h
      | true =>
        simp only [hfile, set_eq_ok] at h
        exact ⟨l, rfl, hfile, h.symm⟩
  · rintro ⟨l, hl, hfile, rfl⟩
    refine ⟨d, d, ⟨rfl, rfl⟩, ?_⟩
    rw [hl, Disk.isFile_of_locate? hl, hfile]
    rfl

/-- Listing succeeds exactly where the path leads to a folder, and gives what is in it. -/
theorem list_eq_ok_iff {items : List (String × Item)} :
  list path d = .ok items d' ↔
    ∃ l, d.locate? path = some l ∧ d.isFolderAt l = true ∧ items = d.children l ∧ d' = d
  := by
  simp only [list, bind_eq_ok, get_eq_ok]
  constructor
  · rintro ⟨_, _, ⟨rfl, rfl⟩, h⟩
    cases hl : d.locate? path with
    | none => simp [hl, throw_ne_ok] at h
    | some l =>
      cases hfolder : d.isFolderAt l with
      | false => simp [hl, hfolder, throw_ne_ok] at h
      | true =>
        simp only [hl, hfolder, if_true, pure_eq_ok] at h
        exact ⟨l, rfl, hfolder, h.1.symm, h.2.symm⟩
  · rintro ⟨l, hl, hfolder, rfl, rfl⟩
    refine ⟨d', d', ⟨rfl, rfl⟩, ?_⟩
    simp only [hl, hfolder, if_true]
    rfl

/-- Listing changes nothing. -/
theorem list_eq_ok {items : List (String × Item)} (h : list path d = .ok items d') :
  d = d'
  := by
  obtain ⟨-, -, -, -, rfl⟩ := list_eq_ok_iff.mp h
  rfl

/-- Removes the files of given names from a folder, one after another. -/
def removeAll (folder : String) (names : List String) : Action PUnit :=
  forIn (names.map (Path.join folder)) PUnit.unit fun path _ => do
    remove path
    pure (ForInStep.yield PUnit.unit)

/-- Removing several files is removing the first one and then the others. -/
theorem removeAll_cons_eq_ok {folder : String} {names : List String} {u : PUnit} :
  removeAll folder (name :: names) d = .ok u d' ↔
    ∃ l, d.locate? (Path.join folder name) = some l ∧ d.isFileAt l = true ∧
      removeAll folder names (d.removeTree l) = .ok u d'
  := by
  rw [removeAll, List.map_cons]
  simp only [List.forIn_cons, bind_eq_ok, pure_eq_ok]
  constructor
  · rintro ⟨_, _, ⟨_, _, hremove, rfl, rfl⟩, h⟩
    obtain ⟨l, hl, hfile, rfl⟩ := remove_eq_ok_iff.mp hremove
    exact ⟨l, hl, hfile, h⟩
  · rintro ⟨l, hl, hfile, h⟩
    have hremove : remove (Path.join folder name) d = .ok () (d.removeTree l) :=
      remove_eq_ok_iff.mpr ⟨l, hl, hfile, rfl⟩
    exact ⟨_, _, ⟨_, _, hremove, rfl, rfl⟩, h⟩

/-- Removing files leaves a disk within the one before. -/
theorem within_of_removeAll {folder : String} {names : List String} {u : PUnit}
    (h : removeAll folder names d = .ok u d') :
  d'.Within d
  := by
  induction names generalizing d with
  | nil =>
    obtain ⟨-, rfl⟩ := pure_eq_ok.mp h
    apply Disk.Within.refl
  | cons name names ih =>
    obtain ⟨l, -, -, h⟩ := removeAll_cons_eq_ok.mp h
    exact (ih h).trans (Disk.Within.removeTree d l)

end Action

namespace Results

variable {folder : String} {keepFmus : Bool} {d d' : Disk}

/-- Cleaning a folder lists it, removes those of its files that are to go, and tells their paths. -/
theorem remove_eq (folder : String) (keepFmus : Bool) :
  remove folder keepFmus = (do
    let items ← Action.list folder
    Action.removeAll folder (among items keepFmus)
    pure ((among items keepFmus).map (Path.join folder)))
  := rfl

/-- Removing results leaves nothing new. -/
theorem remove_eq_ok {paths : List String} (h : remove folder keepFmus d = .ok paths d') :
  d'.Within d
  := by
  simp only [remove_eq, Action.bind_eq_ok, Action.pure_eq_ok] at h
  obtain ⟨items, _, hlist, _, _, hloop, -, rfl⟩ := h
  rw [Action.list_eq_ok hlist]
  exact Action.within_of_removeAll hloop

end Results

end Cosim
