import Cosim.Case
import Cosim.Deploy.Compile
import Cosim.Proofs.Files
import Cosim.Proofs.Fmu

/-!
# Copied FMUs

Of the paths that components declare, the first one of each file name is copied into the case
folder.  The copies do not get into each other's way, since their names differ.
-/

namespace Cosim

open Disk (Keeps)

namespace Case

variable {c : Case} {d d' : Disk} {fmu target name : String}

/-! ## Declared paths -/

/-- The path that the record of a component declares, if the record is an object. -/
def declaredFmu? (v : Value) : Option String :=
  Dictionary.textField? (v.get? "fmu")

/-- The paths that components declare, in order. -/
def declaredFmus (c : Case) : List String :=
  (Entries.values (((c.dictionary.lookup "systemStructure.components").bind
    Value.entries?).getD [])).filterMap declaredFmu?

/-- Whether two paths have one file name. -/
def sameName (path other : String) : Bool := Path.fileName? path == Path.fileName? other

/-- Adds a path to paths of other file names. -/
def addNew (files : List String) (path : String) : List String :=
  if files.any (sameName · path) then files else files ++ [path]

theorem fmuFiles_eq (c : Case) :
  c.fmuFiles = c.declaredFmus.foldl addNew []
  := rfl

/-- The paths that are kept are the first ones of their file names. -/
theorem foldl_addNew (paths : List String) :
  (paths.foldl addNew []).Pairwise (fun path other => sameName path other = false) ∧
  (∀ path ∈ paths.foldl addNew [], path ∈ paths) ∧
  ∀ path ∈ paths, ∃ first ∈ paths.foldl addNew [],
    paths.find? (sameName · path) = some first
  := by
  induction paths using List.reverseRecOn with
  | nil => exact ⟨.nil, fun _ h => h, fun _ h => absurd h List.not_mem_nil⟩
  | append_singleton paths path ih =>
    obtain ⟨hdistinct, hsub, hfirst⟩ := ih
    rw [List.foldl_append, List.foldl_cons, List.foldl_nil]
    generalize paths.foldl addNew [] = files at hdistinct hsub hfirst ⊢
    have hold {other : String} (hmem : other ∈ paths) :
        ∃ first ∈ files, (paths ++ [path]).find? (sameName · other) = some first := by
      obtain ⟨first, hfiles, hfind⟩ := hfirst other hmem
      exact ⟨first, hfiles, by rw [List.find?_append, hfind, Option.some_or]⟩
    by_cases hany : files.any (sameName · path)
    · obtain ⟨file, hfile, hsame⟩ := List.any_eq_true.mp hany
      rw [addNew, if_pos hany]
      refine ⟨hdistinct, fun other h => List.mem_append_left _ (hsub other h), ?_⟩
      rw [List.forall_mem_append, List.forall_mem_singleton]
      refine ⟨fun other hmem => hold hmem, ?_⟩
      obtain ⟨first, hfirst, hfind⟩ := hold (hsub file hfile)
      simp only [sameName, beq_iff_eq.mp hsame] at hfind
      exact ⟨first, hfirst, hfind⟩
    · have hnew : ∀ file ∈ files, sameName file path = false := by simpa using hany
      rw [addNew, if_neg hany]
      refine ⟨?_, ?_, ?_⟩
      · rw [List.pairwise_append]
        exact ⟨hdistinct, List.pairwise_singleton _ _, fun file hfile other hother => by
          rw [List.mem_singleton.mp hother, hnew file hfile]⟩
      · rw [List.forall_mem_append, List.forall_mem_singleton]
        exact ⟨fun other h => List.mem_append_left _ (hsub other h),
          List.mem_append_right _ (List.mem_singleton_self _)⟩
      · rw [List.forall_mem_append, List.forall_mem_singleton]
        constructor
        · intro other hmem
          obtain ⟨first, hfirst, hfind⟩ := hold hmem
          exact ⟨first, List.mem_append_left _ hfirst, hfind⟩
        · refine ⟨path, List.mem_append_right _ (List.mem_singleton_self _), ?_⟩
          have hnone : paths.find? (sameName · path) = none := by
            rw [List.find?_eq_none]
            intro other hmem hsame
            obtain ⟨first, hfirst, hfind⟩ := hfirst other hmem
            have hfound := List.find?_some hfind
            rw [sameName, beq_iff_eq] at hsame
            rw [sameName, hsame] at hfound
            exact Bool.false_ne_true ((hnew first hfirst).symm.trans hfound)
          rw [List.find?_append, hnone, Option.none_or, List.find?_singleton, sameName,
            if_pos (beq_self_eq_true _)]

/-! ## Copies -/

/-- A copied FMU: unless it is emptied by being copied onto itself, it is found under its name with
the content that it has in the library. -/
def IsCopied (c : Case) (d d' : Disk) (fmu name : String) : Prop :=
  ∃ content, d.content? (Path.join c.library fmu) = some content ∧
    (d'.content? (Path.join c.folder name) = some (Content.ofText "") ∨
      d'.content? (Path.join c.folder name) = some content ∧
      d'.content? (Path.join c.library fmu) = some content)

theorem copyFmu_eq_ok_iff :
  c.copyFmu fmu d = .ok target d' ↔
    ∃ name, Path.fileName? (Path.join c.library fmu) = some name ∧
      d.isFile (Path.join c.library fmu) = true ∧ target = Path.join c.folder name ∧
      Action.copy (Path.join c.library fmu) (Path.join c.folder name) d = .ok () d'
  := by
  -- the equation of `copyFmu` takes long to derive
  delta copyFmu
  cases hname : Path.fileName? (Path.join c.library fmu) with
  | none => simp [Action.throw_ne_ok]
  | some name =>
    simp only [Action.bind_eq_ok, Action.get_eq_ok]
    cases hfile : d.isFile (Path.join c.library fmu) with
    | false =>
      constructor
      · rintro ⟨_, _, ⟨rfl, rfl⟩, h⟩
        simp [hfile, Action.bind_eq_ok, Action.throw_ne_ok] at h
      · rintro ⟨_, -, h, -⟩
        cases h
    | true =>
      constructor
      · rintro ⟨_, _, ⟨rfl, rfl⟩, h⟩
        simp only [hfile, Bool.not_true, Bool.false_eq_true, if_false, Action.bind_eq_ok,
          Action.pure_eq_ok] at h
        obtain ⟨_, _, hcopy, rfl, rfl⟩ := h
        exact ⟨name, rfl, rfl, rfl, hcopy⟩
      · rintro ⟨_, ⟨⟩, -, rfl, hcopy⟩
        refine ⟨d, d, ⟨rfl, rfl⟩, ?_⟩
        simp only [hfile, Bool.not_true, Bool.false_eq_true, if_false, Action.bind_eq_ok,
          Action.pure_eq_ok]
        exact ⟨(), d', hcopy, trivial, rfl⟩

theorem copyFmu_eq_ok (h : c.copyFmu fmu d = .ok target d') :
  ∃ name, Path.fileName? fmu = some name ∧ Keeps (· = name) d d' ∧ c.IsCopied d d' fmu name
  := by
  obtain ⟨name, hname, hfile, -, hcopy⟩ := copyFmu_eq_ok_iff.mp h
  have htarget := Path.fileName?_join (Path.isStep_of_fileName? hname) c.folder
  obtain ⟨hkeeps, hcopied⟩ := Action.copy_eq_ok htarget hcopy
  exact ⟨name, Disk.fileName?_of_isFile hfile hname, hkeeps, hcopied⟩

/-- The names of the files that are copied into the case folder, unless the FMUs are taken from
there. -/
def Copies (c : Case) (ownFolder : Bool) (name : String) : Prop :=
  ownFolder = false ∧ ∃ fmu ∈ c.fmuFiles, Path.fileName? fmu = some name

/-- However copying ends, only the file of the FMU's name is changed. -/
theorem keeping_copyFmu {names : String → Prop}
    (hnames : ∀ name, Path.fileName? fmu = some name → names name) :
  Action.Keeping names (c.copyFmu fmu)
  := by
  -- the equation of `copyFmu` takes long to derive
  delta copyFmu
  cases hname : Path.fileName? (Path.join c.library fmu) with
  | none =>
    simp only [hname]
    apply Action.keeping_throw
  | some name =>
    simp only [hname]
    apply Action.keeping_bind Action.keeping_get
    intro d
    cases hfile : d.isFile (Path.join c.library fmu) with
    | false => exact Action.keeping_throw (.notFound (Path.join c.library fmu))
    | true =>
      have hown := Disk.fileName?_of_isFile hfile hname
      have htarget := Path.fileName?_join (Path.isStep_of_fileName? hname) c.folder
      apply Action.keeping_bind (Action.keeping_copy htarget (hnames name hown))
      intro _
      apply Action.keeping_pure

theorem keeping_copyFmus {names : String → Prop}
    (hnames : ∀ fmu ∈ c.fmuFiles, ∀ name, Path.fileName? fmu = some name → names name) :
  Action.Keeping names c.copyFmus
  := by
  apply Action.keeping_mapM
  intro fmu hfmu
  apply keeping_copyFmu (hnames fmu hfmu)

/-- What other names are changed later does not matter to a copy. -/
theorem IsCopied.keeps {names : String → Prop} {d₀ d d' : Disk}
    (hname : Path.fileName? fmu = some name) (h : c.IsCopied d₀ d fmu name)
    (hkeeps : Keeps names d d') (hnot : ¬ names name) :
  c.IsCopied d₀ d' fmu name
  := by
  have htarget := Path.fileName?_join (Path.isStep_of_fileName? hname) c.folder
  have hsource := Path.fileName?_join_of_fileName? hname c.library
  rw [IsCopied, hkeeps.content?_eq htarget hnot, hkeeps.content?_eq hsource hnot]
  exact h

theorem mapM_copyFmu_eq_ok {fmus targets : List String}
    (hdistinct : fmus.Pairwise fun fmu other => sameName fmu other = false)
    (h : fmus.mapM c.copyFmu d = .ok targets d') :
  Keeps (fun name => ∃ fmu ∈ fmus, Path.fileName? fmu = some name) d d' ∧
  ∀ fmu ∈ fmus, ∃ name, Path.fileName? fmu = some name ∧ c.IsCopied d d' fmu name
  := by
  induction fmus generalizing d targets with
  | nil =>
    rw [List.mapM_nil, Action.pure_eq_ok] at h
    rw [h.2]
    exact ⟨.refl _ _, List.forall_mem_nil _⟩
  | cons fmu fmus ih =>
    simp only [List.mapM_cons, Action.bind_eq_ok, Action.pure_eq_ok] at h
    obtain ⟨target, d₁, hcopy, rest, _, hrest, -, rfl⟩ := h
    obtain ⟨name, hname, hkeeps, hcopied⟩ := copyFmu_eq_ok hcopy
    rw [List.pairwise_cons] at hdistinct
    obtain ⟨hothers, hdistinct⟩ := hdistinct
    obtain ⟨hkept, hall⟩ := ih hdistinct hrest
    have hnot : ¬ ∃ other ∈ fmus, Path.fileName? other = some name := by
      rintro ⟨other, hmem, hother⟩
      have hsame := hothers other hmem
      rw [sameName, hname, hother, beq_self_eq_true] at hsame
      cases hsame
    constructor
    · refine (hkeeps.mono ?_).trans (hkept.mono ?_)
      · rintro _ rfl
        exact ⟨fmu, List.mem_cons_self, hname⟩
      · rintro _ ⟨other, hmem, hother⟩
        exact ⟨other, List.mem_cons_of_mem _ hmem, hother⟩
    · rw [List.forall_mem_cons]
      refine ⟨⟨name, hname, hcopied.keeps hname hkept hnot⟩, fun other hmem => ?_⟩
      obtain ⟨otherName, hother, content, hcontent, hplaced⟩ := hall other hmem
      refine ⟨otherName, hother, content, ?_, hplaced⟩
      rw [← hkeeps.content?_eq (Path.fileName?_join_of_fileName? hother c.library)]
      · exact hcontent
      · rintro rfl
        exact hnot ⟨other, hmem, hother⟩

/-- Every declared path is copied as the first path of its file name. -/
theorem copyFmus_eq_ok {targets : List String} (h : c.copyFmus d = .ok targets d') :
  ∀ path ∈ c.declaredFmus, ∃ first name, c.declaredFmus.find? (sameName · path) = some first ∧
    Path.fileName? path = some name ∧ Path.fileName? first = some name ∧
    c.IsCopied d d' first name
  := by
  obtain ⟨hdistinct, -, hfirst⟩ := foldl_addNew c.declaredFmus
  rw [← fmuFiles_eq] at hdistinct hfirst
  obtain ⟨-, hcopied⟩ := mapM_copyFmu_eq_ok hdistinct h
  intro path hpath
  obtain ⟨first, hmem, hfind⟩ := hfirst path hpath
  obtain ⟨name, hname, hplaced⟩ := hcopied first hmem
  have hsame := List.find?_some hfind
  rw [sameName, beq_iff_eq] at hsame
  exact ⟨first, name, hfind, hsame ▸ hname, hname, hplaced⟩

end Case

/-! ## Opening copies -/

/-- An empty file is no archive. -/
theorem Fmu.content?_ne_empty {path : String} {f : Fmu} {d d' : Disk}
    (h : Fmu.load path d = .ok f d') :
  d.content? path ≠ some (Content.ofText "")
  := by
  intro hempty
  have hnone : (Content.ofText "").entries? = none := by decide +kernel
  obtain ⟨-, hdescription, -⟩ := Fmu.load_eq_ok_iff.mp h
  obtain ⟨_, hentry, -⟩ := Fmu.readDescription_eq_ok_iff.mp hdescription
  simp only [Archive.readEntry, Archive.load, Action.bind_eq_ok, Action.get_eq_ok] at hentry
  obtain ⟨_, _, ⟨_, _, ⟨rfl, rfl⟩, hload⟩, -⟩ := hentry
  split at hload
  · simp [Action.bind_eq_ok, Action.throw_ne_ok] at hload
  · simp [hempty, hnone, Action.throw_ne_ok] at hload

end Cosim
