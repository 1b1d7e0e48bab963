import Cosim.Proofs.Osp.Model
import Cosim.Proofs.Osp.Structure
import Cosim.Proofs.Ssp.Description

/-!
# Documents of the three formats

System structures, system structure descriptions and model descriptions all survive being written
and read again, in one line or indented, so that indenting changes nothing of what they say.
-/

namespace Cosim.Document

theorem survives_documents :
  (∀ s : Osp.Structure, s.WellFormed → Survives Osp.Structure.read? s.toElement s) ∧
  (∀ d : Ssp.Description, d.WellFormed → Survives Ssp.Description.read? d.toElement d) ∧
  ∀ m : Osp.Model, m.WellFormed → Survives Osp.Model.read? m.toElement m
  := ⟨fun _ h => h.survives, fun _ h => Ssp.Description.WellFormed.survives h, fun _ h => h.survives⟩

/-! ## Samples -/

/-- A structure with values of all kinds and with marks in its strings. -/
def sampleStructure : Osp.Structure where
  xmlns := none
  version := some "<0.1>"
  startTime := some "0 \"&\" 1"
  baseStepSize := none
  algorithm := some "fixedStep"
  simulators := [
    ⟨"engine", "engine.fmu", some .infinity, some [
      ⟨"speed", .real (.neg .zero)⟩, ⟨"gear", .int (-2 ^ 63)⟩, ⟨"on", .bool true⟩,
      ⟨"mode", .text " a\n'b' "⟩]⟩,
    ⟨"load", "load.fmu", none, some []⟩]
  connections := some [
    .ofVariables [⟨"engine", "speed"⟩, ⟨"load", "speed"⟩], .ofGroups [],
    .ofSignals [⟨"engine", "speed"⟩] [⟨"sum", "in"⟩], .ofSignalGroups [] [⟨"sum", "out"⟩]]

/-- A description with all that is optional in one place and none of it in another. -/
def sampleDescription : Ssp.Description where
  ssdSpace := none
  sscSpace := some ""
  ssvSpace := none
  ospSpace := none
  version := "1.0"
  name := "a & b"
  system := {
    name := "system"
    description := some "\ttwo\nlines"
    components := [
      ⟨"engine", "engine.fmu", some [⟨"speed", some "output", some ⟨some "rad/s"⟩⟩,
        ⟨"load", none, none⟩]⟩,
      ⟨"load", "load.fmu", none⟩]
    connections := some [⟨"engine", "speed", "load", "in"⟩] }
  experiment := some ⟨some "0", none, some [⟨"fixed", some ⟨some ⟨some "0.1", none, none⟩⟩⟩,
    ⟨"none", none⟩]⟩

/-- A model description with a unit and a group of each shape. -/
def sampleModel : Osp.Model where
  xmlns := some "x"
  version := none
  units := [
    ⟨"<m>", some ⟨[none, some 1, some (-1), none, none, none, none, some 0],
      some (.ofDecimal false 15 (-1)), none⟩, some ⟨"mm", some (.ofNat 1000), some .zero⟩⟩,
    ⟨"1", none, none⟩]
  groups := [⟨"speed", [⟨"speed", some "<m>"⟩, ⟨"other", none⟩]⟩, ⟨"", []⟩]

theorem survives_samples :
  Survives Osp.Structure.read? sampleStructure.toElement sampleStructure ∧
  Survives Ssp.Description.read? sampleDescription.toElement sampleDescription ∧
  Survives Osp.Model.read? sampleModel.toElement sampleModel
  := by
  have htext {ss : List String} (h : (ss.all fun s => s.toList.all isXmlChar) = true) :
      ∀ s ∈ ss, IsText s :=
    fun s hs => List.all_eq_true.mp (List.all_eq_true.mp h s hs)
  have hstructure : sampleStructure.WellFormed :=
    ⟨htext (by decide), by decide, by decide, by decide⟩
  have hdescription : sampleDescription.WellFormed := htext (by decide)
  have hbases : ∀ u ∈ sampleModel.bases, u.WellFormed :=
    List.forall_mem_singleton.mpr ⟨rfl, by decide⟩
  have hmodel : sampleModel.WellFormed := ⟨htext (by decide), by decide, hbases⟩
  obtain ⟨hstructures, hdescriptions, hmodels⟩ := survives_documents
  exact ⟨hstructures _ hstructure, hdescriptions _ hdescription, hmodels _ hmodel⟩

end Cosim.Document
