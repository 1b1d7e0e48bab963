import Cosim.Proofs.Osp.Connections
import Cosim.Proofs.Path.Relative

/-!
# Libraries of imported structures

An import writes the library folder of a case relative to the folder of the document, and the FMUs
relative to the library.  The library is the deepest folder that holds all FMUs, and every FMU that
is written is found where the simulator has it.  The root is no file: no folder holds it, and from
a library above the root no way leads back to it.
-/

namespace Cosim.Osp

open Cosim.Path (IsNormal)

/-- Where the FMU of a simulator lies, if its source is relative to a folder. -/
def Simulator.file (simulator : Simulator) (folder : String) : String :=
  Path.normalize (Path.join folder simulator.source)

/-- The library folder that an imported case names. -/
def librarySourceIn (case : Dictionary) : Option Value :=
  Dictionary.follow (.object case) ["_environment", "libSource"]

/-- The FMU that an imported case names for a component. -/
def fmuIn (case : Dictionary) (owner : String) : Option Value :=
  Dictionary.follow (.object case) ["systemStructure", "components", owner, "fmu"]

theorem fmuIn_eq (environment run connections : Value) (components : Dictionary)
    (owner : String) :
  fmuIn [
      ("_environment", environment),
      ("systemStructure",
        .object [("connections", connections), ("components", .object components)]),
      ("run", run)] owner =
    (Entries.get? components owner).bind (·.get? "fmu")
  := rfl

theorem get?_componentValue (simulator : Simulator) (fmu : String)
    (connectors : Option (Entries Connector)) :
  (componentValue simulator fmu connectors).get? "fmu" = some (.text fmu)
  := by
  cases connectors <;> rfl

namespace Structure

variable {s : Structure} {folder name : String} {case : Dictionary}

/-- The simulator that is imported under a name: of several simulators with one name, the last. -/
def imported? (s : Structure) (owner : String) : Option Simulator :=
  s.simulators.reverse.find? (·.name == owner)

/-- Where the FMUs of the simulators lie, but for the root, which is no file. -/
def files (s : Structure) (folder : String) : List String :=
  (s.simulators.map (·.file folder)).filter (· ≠ "/")

/-- The library of a structure: the deepest folder that holds its files, and the folder of the
document if there are no files. -/
def IsLibrary (s : Structure) (folder library : String) : Prop :=
  if s.files folder = [] then library = Path.normalize folder
  else Path.IsDeepest library (s.files folder)

/-- The library that an import finds. -/
def library (s : Structure) (folder : String) : String :=
  (Path.commonRoot? (s.simulators.map (·.file folder))).getD (Path.normalize folder)

/-- The case that is made of a structure, but for its connections and its settings. -/
theorem exists_of_toCase (h : s.toCase folder name = .ok case) :
  ∃ (w : Wiring) (connections run : Value), case = [
    ("_environment", .object [("libSource",
      .text (Path.relativeTo (s.library folder) (Path.normalize folder)))]),
    ("systemStructure", .object [("connections", connections),
      ("components", .object (Entries.ofPairs ((s.simulators.zip (s.simulators.map
        (·.file folder))).map fun e => (e.1.name, componentValue e.1
          (Path.relativeTo e.2 (s.library folder)) (w.connectors.get? e.1.name)))))]),
    ("run", run)]
  := by
  rw [toCase] at h
  cases hwiring : Wiring.ofLinks (s.connections.getD []) with
  | error e =>
    rw [hwiring] at h
    cases h
  | ok w =>
    rw [hwiring] at h
    cases h
    exact ⟨w, _, _, rfl⟩

theorem librarySourceIn_toCase (h : s.toCase folder name = .ok case) :
  librarySourceIn case =
    some (.text (Path.relativeTo (s.library folder) (Path.normalize folder)))
  := by
  obtain ⟨w, connections, run, rfl⟩ := exists_of_toCase h
  rfl

theorem fmuIn_toCase {owner : String} {simulator : Simulator}
    (h : s.toCase folder name = .ok case) (howner : s.imported? owner = some simulator) :
  fmuIn case owner = some (.text (Path.relativeTo (simulator.file folder) (s.library folder)))
  := by
  obtain ⟨w, connections, run, rfl⟩ := exists_of_toCase h
  have hget := Entries.get?_ofPairs_named Simulator.name (fun simulator =>
    componentValue simulator (Path.relativeTo (simulator.file folder) (s.library folder))
      (w.connectors.get? simulator.name)) s.simulators owner
  rw [← imported?, howner, Option.map_some] at hget
  rw [fmuIn_eq, ← List.map_prod_left_eq_zip, List.map_map]
  exact (congrArg (·.bind (·.get? "fmu")) hget).trans (get?_componentValue _ _ _)

theorem isNormal_files (hfolder : Path.isAbsolute folder = true) :
  ∀ path ∈ s.simulators.map (·.file folder), IsNormal path
  := by
  rw [List.forall_mem_map]
  intro simulator _
  exact IsNormal.normalize (Path.isAbsolute_join_of_isAbsolute hfolder _)

/-- The library that an import finds is the library of the structure, and every FMU but the root
lies in it. -/
theorem library_spec (hfolder : Path.isAbsolute folder = true) :
  IsNormal (s.library folder) ∧ s.IsLibrary folder (s.library folder) ∧
    ∀ path ∈ s.files folder, Path.Holds (s.library folder) path
  := by
  have hroot := Path.commonRoot?_isDeepest (isNormal_files (s := s) hfolder)
  rw [library, IsLibrary, files]
  cases hfound : Path.commonRoot? (s.simulators.map (·.file folder)) with
  | none =>
    simp only [hfound] at hroot
    rw [Option.getD_none, List.filter_eq_nil_iff.mpr (by simpa using hroot), if_pos rfl]
    exact ⟨IsNormal.normalize hfolder, rfl, by simp⟩
  | some root =>
    simp only [hfound] at hroot
    obtain ⟨hnormal, ⟨path, hpath, hne⟩, hdeepest⟩ := hroot
    have hmem : path ∈ (s.simulators.map (·.file folder)).filter (· ≠ "/") := by
      simpa using ⟨List.mem_map.mp hpath, hne⟩
    rw [Option.getD_some, if_neg (List.ne_nil_of_mem hmem)]
    exact ⟨hnormal, hdeepest, hdeepest.holds⟩

/-- The paths of a case lead back from a folder: to the library of the structure, and from there to
the FMU of every simulator that is written, but for the root as an FMU below a library above it. -/
structure LeadsBack (s : Structure) (folder : String) (case : Dictionary) (libSource : String) :
    Prop where
  source : librarySourceIn case = some (.text libSource)
  library : s.IsLibrary folder (Path.normalize (Path.join folder libSource))
  fmus : ∀ owner simulator, s.imported? owner = some simulator →
    ∃ fmu, fmuIn case owner = some (.text fmu) ∧
      (simulator.file folder ≠ "/" ∨
        Path.Part.parent ∉ Path.parts (Path.normalize (Path.join folder libSource)) →
        Path.normalize (Path.join (Path.join folder libSource) fmu) = simulator.file folder)

/-- From the folder of the document, the paths of an import lead back to the sources. -/
theorem leadsBack_toCase (hfolder : Path.isAbsolute folder = true)
    (hup : Path.Part.parent ∉ Path.parts (Path.normalize folder))
    (h : s.toCase folder name = .ok case) :
  ∃ libSource, s.LeadsBack folder case libSource
  := by
  obtain ⟨hlibrary, hdeepest, hholds⟩ := library_spec (s := s) hfolder
  have hhome : IsNormal (Path.normalize folder) := IsNormal.normalize hfolder
  have hreach := Path.resolve_join_relativeTo hfolder (Path.parts_normalize folder).symm hlibrary
    hhome (Path.exists_name_of_mem_drop hlibrary hhome (Or.inr hup))
  have hfound := hlibrary.normalize_eq hreach
  refine ⟨Path.relativeTo (s.library folder) (Path.normalize folder), ?_⟩
  constructor
  case source => exact librarySourceIn_toCase h
  case library => rwa [hfound]
  case fmus =>
    intro owner simulator howner
    refine ⟨_, fmuIn_toCase h howner, ?_⟩
    rw [hfound]
    intro hreached
    have hmem : simulator ∈ s.simulators :=
      List.mem_reverse.mp (List.mem_of_find?_eq_some howner)
    have hfile : IsNormal (simulator.file folder) :=
      isNormal_files hfolder _ (List.mem_map_of_mem hmem)
    have hback : Path.Holds (s.library folder) (simulator.file folder) ∨
        Path.Part.parent ∉ Path.parts (s.library folder) := by
      apply hreached.imp_left
      intro hne
      apply hholds
      simpa [files] using ⟨⟨simulator, hmem, rfl⟩, hne⟩
    apply hfile.normalize_eq
    exact Path.resolve_join_relativeTo (Path.isAbsolute_join_of_isAbsolute hfolder _) hreach hfile
      hlibrary (Path.exists_name_of_mem_drop hfile hlibrary hback)

/-- A structure with FMUs below its folder, beside it and above the root. -/
def scattered : Structure :=
  { blank with
    simulators := [⟨"A", "fmus/./a.fmu", none, none⟩, ⟨"B", "../b.fmu", none, none⟩,
      ⟨"C", "/../c.fmu", none, none⟩, ⟨"C", "../../../c.fmu", none, none⟩] }

theorem leadsBack_scattered :
  Path.isAbsolute "/case" = true ∧
  Path.Part.parent ∉ Path.parts (Path.normalize "/case") ∧
  ∃ case, scattered.toCase "/case" "scattered" = .ok case ∧
    ∃ libSource, scattered.LeadsBack "/case" case libSource
  := ⟨by decide, by decide, _, rfl, leadsBack_toCase (by decide) (by decide) rfl⟩

/-- A structure with the root as an FMU, and one above the root. -/
def climbing : Structure :=
  { blank with simulators := [⟨"A", "/", none, none⟩, ⟨"B", "/../x.fmu", none, none⟩] }

/-- The library above the root does not hold the root, and no way leads back to it from there.  Of
two simulators of one name, the FMU of the first is not written. -/
theorem not_leadsBack_climbing :
  Path.isAbsolute "/case" = true ∧
  Path.Part.parent ∉ Path.parts (Path.normalize "/case") ∧
  (∃ case libSource fmu, climbing.toCase "/case" "climbing" = .ok case ∧
    librarySourceIn case = some (.text libSource) ∧ fmuIn case "A" = some (.text fmu) ∧
    ⟨"A", "/", none, none⟩ ∈ climbing.simulators ∧
    ¬ Path.Holds (Path.normalize (Path.join "/case" libSource)) (Path.normalize "/") ∧
    Path.normalize (Path.join (Path.join "/case" libSource) fmu) ≠
      Path.normalize (Path.join "/case" "/")) ∧
  ∃ case libSource fmu, scattered.toCase "/case" "scattered" = .ok case ∧
    librarySourceIn case = some (.text libSource) ∧ fmuIn case "C" = some (.text fmu) ∧
    ⟨"C", "/../c.fmu", none, none⟩ ∈ scattered.simulators ∧
    Path.normalize (Path.join (Path.join "/case" libSource) fmu) ≠
      Path.normalize (Path.join "/case" "/../c.fmu")
  := by
  have hroot : ¬ Path.Holds (Path.normalize (Path.join "/case" "../.."))
      (Path.normalize "/") := by
    rintro ⟨rest, hne, heq⟩
    have hlength := congrArg List.length heq
    rw [List.length_append, show (Path.parts (Path.normalize "/")).length = 1 by decide,
      show (Path.parts (Path.normalize (Path.join "/case" "../.."))).length = 2 by decide]
      at hlength
    omega
  refine ⟨by decide, by decide, ?_, ?_⟩
  · exact ⟨_, "../..", "..", rfl, rfl, rfl, List.mem_cons_self, hroot, by decide⟩
  · exact ⟨_, "..", "../../c.fmu", rfl, rfl, rfl, by simp [scattered], by decide⟩

end Structure

end Cosim.Osp
