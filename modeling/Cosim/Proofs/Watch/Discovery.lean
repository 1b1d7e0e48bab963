import Cosim.Proofs.Number.Notation
import Cosim.Proofs.Text
import Cosim.Proofs.Watch.Watching

/-!
# Discovered result files

What is discovered in a folder depends on the names in it only, and not on the order in which the
folder lists them: of every source that a name tells there is the file with the greatest stamp.
A name tells its source and its stamp in one way, whatever the source looks like.
-/

namespace Cosim

namespace Literal

/-- A text of digits, and the number that they form. -/
structure IsNumber (s : String) (n : ℕ) : Prop where
  nonempty : s ≠ ""
  digits : ∀ c ∈ s.toList, c.isDigit = true
  value : Nat.ofDigitChars 10 s.toList 0 = n

/-- The digits of a number are the decimal ones. -/
theorem isDigit_iff {c : Char} :
  isDigit c = true ↔ c.isDigit = true
  := by
  constructor
  · intro h
    obtain ⟨hlow, hhigh⟩ := le_of_isDigit h
    rw [Char.isDigit, Bool.and_eq_true, decide_eq_true_eq, decide_eq_true_eq]
    exact ⟨hlow, hhigh⟩
  · apply isDigit_of_isDigit

/-- A natural number is read exactly from a text that is its number. -/
theorem natural?_eq_some_iff {s : String} {n : ℕ} :
  natural? s.toList = some n ↔ IsNumber s n
  := by
  constructor
  · intro h
    obtain ⟨hne, hdigits, hvalue⟩ := natural?_eq_some h
    refine ⟨?_, fun c hc => isDigit_iff.mp (hdigits c hc), ?_⟩
    · rintro rfl
      exact hne rfl
    · rw [← digitsValue_eq hdigits, hvalue]
  · rintro ⟨hne, hdigits, hvalue⟩
    have hall : ∀ c ∈ s.toList, isDigit c = true := fun c hc => isDigit_iff.mpr (hdigits c hc)
    rw [natural?, if_neg, digitsValue_eq hall, hvalue]
    simpa [hne] using hall

/-- There is no other character among digits. -/
theorem IsNumber.not_mem {s : String} {n : ℕ} (h : IsNumber s n) {mark : Char}
    (hmark : mark.isDigit = false) :
  mark ∉ s.toList
  := by
  intro hmem
  rw [h.digits mark hmem] at hmark
  cases hmark

end Literal

namespace Watch

open Literal (IsNumber natural?_eq_some_iff)

/-! ## Stamps -/

namespace Stamp

/-- Stamps are compared by date, then by time, then by microseconds. -/
def key (s : Stamp) : ℕ ×ₗ ℕ ×ₗ ℕ := toLex (s.date, toLex (s.time, s.microseconds))

/-- Stamps are told apart by their keys. -/
theorem key_injective :
  Function.Injective key
  := by
  intro a b h
  simp only [key, toLex_inj, Prod.mk.injEq] at h
  obtain ⟨hdate, htime, hmicro⟩ := h
  cases a
  cases b
  simp_all

/-- A stamp is before another one exactly if its key is less. -/
theorem before_iff {a b : Stamp} :
  a.before b = true ↔ a.key < b.key
  := by
  simp only [before, key, Prod.Lex.toLex_lt_toLex, Bool.or_eq_true, Bool.and_eq_true,
    decide_eq_true_eq, beq_iff_eq]

end Stamp

/-! ## Names -/

namespace ResultFile

variable {name source path folder : String} {stamp : Stamp} {file : ResultFile}

/-- A name `<source>_<date>_<time>_<microseconds>.csv` with eight and six digits for date and
time. -/
structure IsNamed (name source date time micro : String) (stamp : Stamp) : Prop where
  name : name = source ++ "_" ++ date ++ "_" ++ time ++ "_" ++ micro ++ ".csv"
  source : source ≠ "" ∧ '\n' ∉ source.toList
  date : IsNumber date stamp.date ∧ date.length = 8
  time : IsNumber time stamp.time ∧ time.length = 6
  micro : IsNumber micro stamp.microseconds ∧ stamp.microseconds < 2 ^ 64

/-- The source and the stamp that a name tells. -/
def Tells (name source : String) (stamp : Stamp) : Prop :=
  ∃ date time micro, IsNamed name source date time micro stamp

/-- So many digits are read exactly from a number of that length. -/
theorem digits?_eq_some_iff {count n : ℕ} {s : String} :
  digits? count s = some n ↔ IsNumber s n ∧ s.length = count
  := by
  rw [digits?, Option.ite_none_right_eq_some, natural?_eq_some_iff, beq_iff_eq, and_comm]

/-- What is before an extension is what the extension follows. -/
theorem beforeExtension?_eq_some_iff {extension front : String} :
  beforeExtension? extension name = some front ↔ name = front ++ extension
  := by
  rw [beforeExtension?, Option.ite_none_right_eq_some, Text.endsWith_iff, Option.some.injEq]
  constructor
  · rintro ⟨⟨cs, hcs⟩, rfl⟩
    apply String.toList_injective
    rw [String.toList_append, String.toList_ofList, ← String.length_toList, ← hcs,
      List.length_append, String.length_toList, Nat.add_sub_cancel, List.take_left]
  · rintro rfl
    refine ⟨?_, ?_⟩
    · rw [String.toList_append]
      apply List.suffix_append
    · apply String.toList_injective
      rw [String.toList_append, String.toList_ofList, String.length_append, Nat.add_sub_cancel,
        ← String.length_toList, List.take_left]

/-- A source has a name without line breaks. -/
theorem isSource_iff :
  ¬ (source.isEmpty || source.toList.contains '\n') = true ↔ source ≠ "" ∧ '\n' ∉ source.toList
  := by
  simp

/-- A name tells what is read from it, and nothing else: no `_` is left behind the source. -/
theorem parseName?_eq_some_iff :
  parseName? name = some (source, stamp) ↔ Tells name source stamp
  := by
  have hmark : String.singleton '_' = "_" := rfl
  simp only [parseName?, Option.bind_eq_bind, Option.bind_eq_some_iff, Prod.exists,
    beforeExtension?_eq_some_iff, Text.splitLast?_eq_some_iff, digits?_eq_some_iff,
    Option.filter_eq_some_iff, natural?_eq_some_iff, hmark]
  constructor
  · rintro ⟨_, hname, _, micro, ⟨rfl, -⟩, _, time, ⟨rfl, -⟩, _, date, ⟨rfl, -⟩, d, hdate, t, htime,
      m, ⟨hmicro, hbound⟩, h⟩
    split at h
    · cases h
    · rename_i hsource
      cases h
      exact ⟨date, time, micro, hname, isSource_iff.mp hsource, hdate, htime, hmicro,
        of_decide_eq_true hbound⟩
  · rintro ⟨date, time, micro, hname, hsource, hdate, htime, hmicro, hbound⟩
    refine ⟨_, hname, _, micro, ⟨rfl, hmicro.not_mem rfl⟩, _, time, ⟨rfl, htime.1.not_mem rfl⟩,
      source, date, ⟨rfl, hdate.1.not_mem rfl⟩, stamp.date, hdate, stamp.time, htime,
      stamp.microseconds, ⟨hmicro, decide_eq_true hbound⟩, ?_⟩
    rw [if_neg (isSource_iff.mpr hsource)]
    rfl

/-- A path is one of a result file exactly if its name tells the source and the stamp. -/
theorem ofPath?_eq_some_iff (hname : Path.fileName? path = some name) :
  ofPath? path = some file ↔ file.path = path ∧ Tells name file.source file.stamp
  := by
  simp only [ofPath?, hname, Option.bind_eq_bind, Option.bind_some, Option.bind_eq_some_iff,
    Prod.exists, parseName?_eq_some_iff, Option.pure_def, Option.some.injEq]
  constructor
  · rintro ⟨source, stamp, htells, rfl⟩
    exact ⟨rfl, htells⟩
  · rintro ⟨rfl, htells⟩
    exact ⟨file.source, file.stamp, htells, rfl⟩

/-! ## Newest files -/

/-- The files that are kept of those seen: one of each source, and none of it is newer. -/
structure Kept (seen : List ResultFile) (files : Entries ResultFile) : Prop where
  nodup : files.keys.Nodup
  covers : ∀ file ∈ seen, file.source ∈ files.keys
  newest : ∀ e ∈ files, e.2 ∈ seen ∧ e.2.source = e.1 ∧
    ∀ other ∈ seen, other.source = e.1 → other.stamp.key ≤ e.2.stamp.key

theorem kept_nil :
  Kept [] []
  := ⟨List.nodup_nil, List.forall_mem_nil _, List.forall_mem_nil _⟩

namespace Kept

variable {seen : List ResultFile} {files : Entries ResultFile}

/-- A file that is newer than all of its source takes their place. -/
theorem put (h : Kept seen files)
    (hnewer : ∀ existing, files.get? file.source = some existing →
      existing.stamp.key ≤ file.stamp.key) :
  Kept (seen ++ [file]) (files.put file.source file)
  := by
  have hnodup : (files.put file.source file).keys.Nodup := Entries.nodup_keys_put h.nodup
  refine ⟨hnodup, ?_, ?_⟩
  · intro other hother
    rw [Entries.mem_keys_put]
    obtain hold | hnew := List.mem_append.mp hother
    · exact .inr (h.covers other hold)
    · exact .inl (congrArg _ (List.mem_singleton.mp hnew))
  · rintro ⟨source, newest⟩ he
    have hget := Entries.get?_of_mem hnodup he
    rw [Entries.get?_put] at hget
    split at hget
    · rename_i hsource
      cases hget
      refine ⟨List.mem_append_right _ (List.mem_singleton_self _), hsource.symm, ?_⟩
      intro other hother hsame
      obtain hold | hnew := List.mem_append.mp hother
      · -- what was seen before is not newer than what was kept of it
        obtain ⟨existing, hexisting⟩ :=
          Option.isSome_iff_exists.mp (Entries.has_iff.mpr (h.covers other hold))
        rw [hsame, hsource] at hexisting
        have hbelow := (h.newest _ (Entries.mem_of_get? hexisting)).2.2 other hold
        exact (hbelow (hsame.trans hsource)).trans (hnewer existing hexisting)
      · rw [List.mem_singleton.mp hnew]
    · rename_i hne
      obtain ⟨hseen, hown, hnewest⟩ := h.newest _ (Entries.mem_of_get? hget)
      refine ⟨List.mem_append_left _ hseen, hown, ?_⟩
      intro other hother hsame
      obtain hold | hnew := List.mem_append.mp hother
      · exact hnewest other hold hsame
      · rw [List.mem_singleton.mp hnew] at hsame
        exact absurd hsame.symm hne

/-- A file that is not newer than the one of its source is left out. -/
theorem skip {existing : ResultFile} (h : Kept seen files)
    (hexisting : files.get? file.source = some existing)
    (holder : file.stamp.key ≤ existing.stamp.key) :
  Kept (seen ++ [file]) files
  := by
  refine ⟨h.nodup, ?_, ?_⟩
  · intro other hother
    obtain hold | hnew := List.mem_append.mp hother
    · exact h.covers other hold
    · rw [List.mem_singleton.mp hnew]
      exact Entries.mem_keys_of_mem (Entries.mem_of_get? hexisting)
  · intro e he
    obtain ⟨hseen, hown, hnewest⟩ := h.newest e he
    refine ⟨List.mem_append_left _ hseen, hown, ?_⟩
    intro other hother hsame
    obtain hold | hnew := List.mem_append.mp hother
    · exact hnewest other hold hsame
    · rw [List.mem_singleton.mp hnew] at hsame ⊢
      rw [hsame, Entries.get?_of_mem h.nodup he] at hexisting
      cases hexisting
      exact holder

/-- Of all files up to one more, the newest of each source are kept. -/
theorem keepNewer (h : Kept seen files) (file : ResultFile) :
  Kept (seen ++ [file]) (ResultFile.keepNewer files file)
  := by
  rw [ResultFile.keepNewer]
  split
  · rename_i existing hexisting
    split
    · rename_i hbefore
      apply h.put
      intro other hother
      rw [hexisting] at hother
      cases hother
      exact (Stamp.before_iff.mp hbefore).le
    · rename_i hbefore
      apply h.skip hexisting
      rw [Stamp.before_iff, not_lt] at hbefore
      exact hbefore
  · rename_i hnone
    apply h.put
    intro other hother
    rw [hnone] at hother
    cases hother

/-- Of all files up to several more, the newest of each source are kept. -/
theorem foldl (h : Kept seen files) (more : List ResultFile) :
  Kept (seen ++ more) (more.foldl ResultFile.keepNewer files)
  := by
  induction more generalizing seen files with
  | nil => rwa [List.append_nil]
  | cons file more ih =>
    rw [List.append_cons, List.foldl_cons]
    apply ih (h.keepNewer file)

/-- The order of the entries does not count. -/
theorem perm {others : Entries ResultFile} (h : Kept seen files) (hperm : others.Perm files) :
  Kept seen others
  := by
  have hkeys : others.keys.Perm files.keys := hperm.map Prod.fst
  refine ⟨hkeys.nodup_iff.mpr h.nodup, ?_, ?_⟩
  · intro file hfile
    exact hkeys.mem_iff.mpr (h.covers file hfile)
  · intro e he
    exact h.newest e (hperm.mem_iff.mp he)

end Kept

/-- Of files, the newest of each source are kept. -/
theorem kept_newest (files : List ResultFile) :
  Kept files (newest files)
  := (kept_nil.foldl files).perm (List.mergeSort_perm _ _)

/-- The newest files are sorted by their sources. -/
theorem sorted_keys_newest (files : List ResultFile) :
  (newest files).keys.Pairwise (· < ·)
  := by
  have hle : (newest files).keys.Pairwise (· ≤ ·) := by
    rw [Entries.keys, List.pairwise_map]
    apply (List.pairwise_mergeSort _ _ _).imp
    · intro a b h
      exact of_decide_eq_true h
    · intro a b c hab hbc
      exact decide_eq_true ((of_decide_eq_true hab).trans (of_decide_eq_true hbc))
    · intro a b
      simpa using le_total a.1 b.1
  have hne := (kept_newest files).nodup
  rw [List.nodup_iff_pairwise_ne] at hne
  exact (hle.and hne).imp fun h => lt_of_le_of_ne h.1 h.2

/-! ## Folders -/

/-- The newest result files of a folder with given names: the sources that the names tell, in
order, and for each of them the file with the greatest stamp. -/
structure IsNewest (folder : String) (names : List String) (files : Entries ResultFile) : Prop where
  sorted : files.keys.Pairwise (· < ·)
  keys : ∀ source, source ∈ files.keys ↔ ∃ name ∈ names, ∃ stamp, Tells name source stamp
  source : ∀ e ∈ files, e.2.source = e.1
  path : ∀ e ∈ files, ∃ name ∈ names, e.2.path = Path.join folder name ∧ Tells name e.1 e.2.stamp
  greatest : ∀ e ∈ files, ∀ name ∈ names, ∀ stamp, Tells name e.1 stamp →
    stamp.key ≤ e.2.stamp.key

/-- No two names tell the same stamp of one source. -/
def Distinct (names : List String) : Prop :=
  ∀ name ∈ names, ∀ other ∈ names, ∀ source stamp,
    Tells name source stamp → Tells other source stamp → name = other

/-- No two names tell the same stamp of one source if what is read from them is distinct. -/
theorem distinct_of_nodup {names : List String} (h : (names.filterMap parseName?).Nodup) :
  Distinct names
  := by
  rw [List.nodup_iff_pairwise_ne, List.pairwise_filterMap] at h
  intro name hname other hother source stamp htells htells'
  rw [← parseName?_eq_some_iff] at htells htells'
  by_contra hne
  have hsymm : Std.Symm fun a b : String =>
      ∀ x, parseName? a = some x → ∀ y, parseName? b = some y → x ≠ y :=
    ⟨fun _ _ hdiffer x hx y hy => (hdiffer y hy x hx).symm⟩
  exact h.forall hname hother hne _ htells _ htells' rfl

/-- The result files in a folder with given names. -/
def inFolder (folder : String) (names : List String) : List ResultFile :=
  names.filterMap fun name => ofPath? (Path.join folder name)

variable {names : List String} {files others : Entries ResultFile}

/-- The result files of a folder are those that its names tell. -/
theorem mem_inFolder (hnames : ∀ name ∈ names, (Path.Part.name name).IsStep) :
  file ∈ inFolder folder names ↔
    ∃ name ∈ names, file.path = Path.join folder name ∧ Tells name file.source file.stamp
  := by
  rw [inFolder, List.mem_filterMap]
  constructor
  · rintro ⟨name, hname, hfile⟩
    rw [ofPath?_eq_some_iff (Path.fileName?_join (hnames name hname) folder)] at hfile
    exact ⟨name, hname, hfile⟩
  · rintro ⟨name, hname, hfile⟩
    rw [← ofPath?_eq_some_iff (Path.fileName?_join (hnames name hname) folder)] at hfile
    exact ⟨name, hname, hfile⟩

/-- The newest of the result files of a folder are the newest that its names tell. -/
theorem isNewest_newest (folder : String)
    (hnames : ∀ name ∈ names, (Path.Part.name name).IsStep) :
  IsNewest folder names (newest (inFolder folder names))
  := by
  have hkept := kept_newest (inFolder folder names)
  have hseen {name source : String} {stamp : Stamp} (hname : name ∈ names)
      (htells : Tells name source stamp) :
      ⟨source, Path.join folder name, stamp⟩ ∈ inFolder folder names :=
    (mem_inFolder hnames).mpr ⟨name, hname, rfl, htells⟩
  refine ⟨sorted_keys_newest _, ?_, fun e he => (hkept.newest e he).2.1, ?_, ?_⟩
  · intro source
    constructor
    · intro hsource
      obtain ⟨e, he, rfl⟩ := List.mem_map.mp hsource
      obtain ⟨hmem, hown, -⟩ := hkept.newest e he
      obtain ⟨name, hname, -, htells⟩ := (mem_inFolder hnames).mp hmem
      exact ⟨name, hname, e.2.stamp, hown ▸ htells⟩
    · rintro ⟨name, hname, stamp, htells⟩
      exact hkept.covers _ (hseen hname htells)
  · intro e he
    obtain ⟨hmem, hown, -⟩ := hkept.newest e he
    rw [← hown]
    exact (mem_inFolder hnames).mp hmem
  · intro e he name hname stamp htells
    exact (hkept.newest e he).2.2 _ (hseen hname htells) rfl

namespace IsNewest

/-- Which files are the newest does not depend on the order of the names. -/
theorem of_perm {more : List String} (h : IsNewest folder names files) (hperm : more.Perm names) :
  IsNewest folder more files
  := by
  obtain ⟨hsorted, hkeys, hsource, hpath, hgreatest⟩ := h
  simp only [← hperm.mem_iff] at hkeys hpath hgreatest
  exact ⟨hsorted, hkeys, hsource, hpath, hgreatest⟩

/-- Where stamps differ, one file of a source is as new as any. -/
theorem mem_of_mem (hdistinct : Distinct names) (h : IsNewest folder names files)
    (hothers : IsNewest folder names others) {e : String × ResultFile} (he : e ∈ files) :
  e ∈ others
  := by
  obtain ⟨source, file⟩ := e
  have hmem : source ∈ others.keys :=
    (hothers.keys source).mpr ((h.keys source).mp (Entries.mem_keys_of_mem he))
  obtain ⟨⟨_, other⟩, hother, rfl⟩ := List.mem_map.mp hmem
  obtain ⟨name, hname, hpath, htells⟩ := h.path _ he
  obtain ⟨name', hname', hpath', htells'⟩ := hothers.path _ hother
  -- each of the two files is as new as the other, so their names are the same
  have hstamp : file.stamp = other.stamp :=
    Stamp.key_injective (le_antisymm (hothers.greatest _ hother name hname _ htells)
      (h.greatest _ he name' hname' _ htells'))
  rw [hstamp] at htells
  obtain rfl := hdistinct name hname name' hname' _ _ htells htells'
  have hfile : file = other := by
    have hsource := (h.source _ he).trans (hothers.source _ hother).symm
    cases file
    cases other
    simp_all
  rwa [hfile]

/-- Where stamps differ, there is only one way to keep the newest files. -/
theorem eq (hdistinct : Distinct names) (h : IsNewest folder names files)
    (hothers : IsNewest folder names others) :
  files = others
  := by
  have hnodup {es : Entries ResultFile} (hes : IsNewest folder names es) : es.Nodup :=
    List.Nodup.of_map Prod.fst (hes.sorted.imp ne_of_lt)
  have hperm : files.Perm others :=
    (List.perm_ext_iff_of_nodup (hnodup h) (hnodup hothers)).mpr fun e =>
      ⟨mem_of_mem hdistinct h hothers, mem_of_mem hdistinct hothers h⟩
  refine hperm.eq_of_pairwise ?_ (List.pairwise_map.mp h.sorted)
    (List.pairwise_map.mp hothers.sorted)
  intro a b _ _ hab hba
  exact absurd hba hab.asymm

end IsNewest

/-- What is discovered is the newest of what the folder lists. -/
theorem discover_of_list {items : List (String × Item)} {d d' : Disk}
    (hlist : Action.list folder d = .ok items d') :
  discover folder d = .ok (newest (inFolder folder (items.map Prod.fst))) d'
  := by
  rw [discover, Action.bind_of_ok hlist, inFolder, List.filterMap_map]
  rfl

/-- What is discovered does not depend on the order in which a folder lists its names, where the
stamps of one source differ: of every source that a name tells it is the file with the greatest
stamp.  What the name of a path tells is what is read from the path, and nothing else is. -/
theorem exists_discover (folder : String) {names : List String}
    (hnames : ∀ name ∈ names, (Path.Part.name name).IsStep) (hdistinct : Distinct names) :
  (∃ files, IsNewest folder names files ∧
    ∀ d items, Action.list folder d = .ok items d → (items.map Prod.fst).Perm names →
      discover folder d = .ok files d) ∧
  ∀ path name file, Path.fileName? path = some name →
    (ofPath? path = some file ↔ file.path = path ∧ Tells name file.source file.stamp)
  := by
  refine ⟨⟨_, isNewest_newest folder hnames, ?_⟩, fun _ _ _ => ofPath?_eq_some_iff⟩
  intro d items hlist hperm
  rw [discover_of_list hlist]
  have hlisted : ∀ name ∈ items.map Prod.fst, (Path.Part.name name).IsStep := by
    intro name hname
    exact hnames name (hperm.mem_iff.mp hname)
  have hnewest := (isNewest_newest folder hlisted).of_perm hperm.symm
  rw [hnewest.eq hdistinct (isNewest_newest folder hnames)]

/-- A disk with a folder of empty files. -/
def diskOf (folder : String) (names : List String) : Disk where
  items := ([folder], .folder) ::
    names.map fun name => ([folder, name], .file (.bytes ByteArray.empty) false)
  current := []

/-- The names of an earlier and a later file, and of a source that is called like the earlier
file. -/
def sampleNames : List String :=
  ["a_20240101_120000_1.csv", "a_20240101_120001_0.csv",
    "a_20240101_120000_1_20240101_120001_0.csv"]

/-- In both orders the sample names lead to the same files. -/
theorem exists_discover_sampleNames :
  ∃ files, IsNewest "/results" sampleNames files ∧
    discover "/results" (diskOf "results" sampleNames) =
      .ok files (diskOf "results" sampleNames) ∧
    discover "/results" (diskOf "results" sampleNames.reverse) =
      .ok files (diskOf "results" sampleNames.reverse)
  := by
  have hnames : ∀ name ∈ sampleNames, (Path.Part.name name).IsStep := by
    have hlong : ∀ name ∈ sampleNames, '/' ∉ name.toList ∧ 2 < name.toList.length := by decide
    intro name hname
    exact Path.isStep_of_length (hlong name hname).1 (hlong name hname).2
  have hdistinct : Distinct sampleNames := distinct_of_nodup (by decide +kernel)
  have hlist (names : List String)
      (hlocate : (diskOf "results" names).locate? "/results" = some ["results"])
      (hfolder : (diskOf "results" names).isFolderAt ["results"] = true) :
      Action.list "/results" (diskOf "results" names) =
        .ok ((diskOf "results" names).children ["results"]) (diskOf "results" names) :=
    Action.list_eq_ok_iff.mpr ⟨_, hlocate, hfolder, rfl, rfl⟩
  obtain ⟨⟨files, hnewest, hdiscover⟩, -⟩ := exists_discover "/results" hnames hdistinct
  refine ⟨files, hnewest, ?_, ?_⟩
  · apply hdiscover _ _ (hlist _ (by decide +kernel) (by decide +kernel)) (by decide +kernel)
  · apply hdiscover _ _ (hlist _ (by decide +kernel) (by decide +kernel)) (by decide +kernel)

end ResultFile

end Watch

end Cosim
