import Cosim.Proofs.Disk
import Cosim.Fmu

/-!
# Opening FMUs

An FMU is opened only where there is a file, and opening it leaves the disk alone.  What was put
into an archive as text is read from it again.
-/

namespace Cosim

namespace Archive

/-- The text that an entry was made of is read from it. -/
theorem read_ofText (s : String) :
  (Entry.ofText s).read = .ok s.toUTF8
  := by
  simp [Entry.ofText, Entry.ofData, Entry.read, Entry.unpack, bind, Except.bind]

theorem fromUTF8?_toUTF8 (s : String) :
  String.fromUTF8? s.toUTF8 = some s
  := by
  rw [String.fromUTF8?, String.toUTF8_eq_toByteArray, dif_pos s.isValidUTF8]
  rfl

/-- An entry of an archive file that was made of text. -/
theorem readEntry_of_find? {d : Disk} {path name text : String} {entries : Listing}
    {executable : Bool} (hfile : d.find? path = some (.file (.archive entries) executable))
    (hentry : entries.lookup name = some (.ofText text)) :
  readEntry path name d = .ok (some text) d
  := by
  have hload : load path d = .ok entries d := by
    simp only [load, Action.bind_eq_ok, Action.get_eq_ok]
    refine ⟨d, d, ⟨rfl, rfl⟩, ?_⟩
    simp [Disk.pathExists, Disk.content?, hfile, Content.entries?, pure, EStateM.pure]
  simp only [readEntry, Action.bind_eq_ok]
  refine ⟨entries, d, hload, ?_⟩
  simp only [hentry, Action.bind_eq_ok, read_ofText, Action.ofExcept]
  refine ⟨text.toUTF8, d, rfl, ?_⟩
  rw [fromUTF8?_toUTF8]
  rfl

theorem reads_load (path : String) :
  Action.Reads path (load path)
  := by
  intro d e hde
  rw [load, Action.get_bind, Action.get_bind, Disk.pathExists, Disk.pathExists, Disk.content?,
    Disk.content?, hde]
  rcases d.find? path with _ | _ | ⟨content, executable⟩
  · exact .inr ⟨.notFound path, rfl, rfl⟩
  · exact .inr ⟨.archiveFormat, rfl, rfl⟩
  · simp only [Option.bind_some]
    cases content.entries? with
    | none => exact .inr ⟨.archiveFormat, rfl, rfl⟩
    | some entries => exact .inl ⟨entries, rfl, rfl⟩

theorem reads_readEntry (path name : String) :
  Action.Reads path (readEntry path name)
  := by
  apply Action.reads_bind (reads_load path)
  intro entries
  cases entries.lookup name with
  | none => apply Action.reads_pure
  | some e =>
    apply Action.reads_bind (Action.reads_ofExcept path _)
    intro data
    cases String.fromUTF8? data with
    | none => apply Action.reads_throw
    | some s => apply Action.reads_pure

end Archive

namespace Fmu

variable {d d' : Disk} {path text : String} {description : Description} {f : Fmu}

theorem reads_readDescription (file : String) :
  Action.Reads file (readDescription file)
  := by
  apply Action.reads_bind (Archive.reads_readEntry file descriptionEntry)
  intro text
  cases text with
  | none => apply Action.reads_throw
  | some text => apply Action.reads_ofExcept

/-- Opening an FMU is reading its file. -/
theorem reads_load (file : String) :
  Action.Reads file (load file)
  := by
  apply Action.reads_of_isFile
  apply Action.reads_bind (reads_readDescription file)
  intro description
  apply Action.reads_pure

/-- A description is read from an archive exactly where its entry can be parsed. -/
theorem readDescription_eq_ok_iff :
  readDescription path d = .ok description d ↔
    ∃ text, Archive.readEntry path descriptionEntry d = .ok (some text) d ∧
      Description.parse text = .ok description
  := by
  constructor
  · intro h
    simp only [readDescription, Action.bind_eq_ok] at h
    obtain ⟨text?, d₁, hentry, h⟩ := h
    obtain ⟨rfl, -⟩ := (Archive.reads_readEntry path descriptionEntry).eq_ok hentry
    cases text? with
    | none => exact absurd h Action.throw_ne_ok
    | some text =>
      obtain ⟨hparse, -⟩ := Action.ofExcept_eq_ok.mp h
      cases hresult : Description.parse text with
      | ok parsed =>
        rw [hresult] at hparse
        cases hparse
        exact ⟨text, hentry, hresult⟩
      | error u =>
        rw [hresult] at hparse
        cases hparse
  · rintro ⟨text, hentry, hparse⟩
    rw [readDescription, Action.bind_of_ok hentry]
    dsimp only
    rw [hparse]
    rfl

/-- An FMU is opened exactly where a file has a description, and the disk stays as it is. -/
theorem load_eq_ok_iff :
  load path d = .ok f d' ↔
    d.isFile path = true ∧ readDescription path d = .ok f.description d ∧ f.file = path ∧ d' = d
  := by
  constructor
  · intro h
    obtain ⟨rfl, -⟩ := (reads_load path).eq_ok h
    simp only [load, Action.bind_eq_ok, Action.get_eq_ok] at h
    obtain ⟨_, _, ⟨rfl, rfl⟩, h⟩ := h
    split at h
    · simp [Action.bind_eq_ok, Action.throw_ne_ok] at h
    · rename_i hfile
      simp only [Action.bind_eq_ok, Action.pure_eq_ok] at h
      obtain ⟨description, _, hread, rfl, rfl⟩ := h
      exact ⟨by simpa using hfile, hread, rfl, rfl⟩
  · rintro ⟨hfile, hread, rfl, rfl⟩
    rw [load, Action.get_bind, hfile]
    exact Action.bind_of_ok hread

/-- What an opened FMU tells about its file. -/
theorem load_eq_ok (h : load path d = .ok f d') :
  d.isFile path ∧ f.file = path ∧ d' = d
  := by
  obtain ⟨hfile, -, hpath, hsame⟩ := load_eq_ok_iff.mp h
  exact ⟨hfile, hpath, hsame⟩

/-- An archive with a description that can be parsed is opened. -/
theorem load_of_find? {entries : Archive.Listing} {executable : Bool}
    (hfile : d.find? path = some (.file (.archive entries) executable))
    (hentry : entries.lookup descriptionEntry = some (.ofText text))
    (hparse : Description.parse text = .ok description) :
  load path d = .ok ⟨path, description⟩ d
  := by
  have hread := readDescription_eq_ok_iff.mpr
    ⟨text, Archive.readEntry_of_find? hfile hentry, hparse⟩
  exact load_eq_ok_iff.mpr ⟨by rw [Disk.isFile, hfile], hread, rfl, rfl⟩

/-! ## A disk with two FMUs -/

/-- A model without variables. -/
def blankText : String := "<fmiModelDescription/>"

/-- A model with one output. -/
def speedText : String :=
  "<fmiModelDescription><ModelVariables>" ++
  "<ScalarVariable name=\"speed\" causality=\"output\"/></ModelVariables></fmiModelDescription>"

def blank : Fmu := ⟨"/blank.fmu", ⟨⟨"fmiModelDescription", [], []⟩⟩⟩

def speed : Fmu where
  file := "/speed.fmu"
  description := ⟨⟨"fmiModelDescription", [], [.element "ModelVariables" []
    [.element "ScalarVariable" [("name", "speed"), ("causality", "output")] []]]⟩⟩

/-- The two models as FMUs at the root. -/
def sampleDisk : Disk where
  items :=
    [(["blank.fmu"], .file (.archive [(descriptionEntry, .ofText blankText)]) false),
      (["speed.fmu"], .file (.archive [(descriptionEntry, .ofText speedText)]) false)]
  current := []

theorem load_blank :
  load "/blank.fmu" sampleDisk = .ok blank sampleDisk
  := by
  have hfile : sampleDisk.find? "/blank.fmu" =
    some (.file (.archive [(descriptionEntry, .ofText blankText)]) false) := rfl
  apply load_of_find? hfile rfl
  cbv

theorem load_speed :
  load "/speed.fmu" sampleDisk = .ok speed sampleDisk
  := by
  have hfile : sampleDisk.find? "/speed.fmu" =
    some (.file (.archive [(descriptionEntry, .ofText speedText)]) false) := rfl
  apply load_of_find? hfile rfl
  cbv

end Fmu

end Cosim
