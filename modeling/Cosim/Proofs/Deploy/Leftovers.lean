import Cosim.Proofs.Deploy.Cleaning
import Cosim.Proofs.Deploy.Stages
import Cosim.Proofs.Text

/-!
# What a compile leaves behind when it fails

A compile removes old results before it copies FMUs and builds the system.  If one of these fails,
then no output is left in the case folder, neither of this compile nor of an earlier one, with one
exception: the name of the SSP description is not the name of a result, and so an old description
stays where it is.
-/

namespace Cosim

open Cosim.Action (Keeping keeping_bind keeping_get keeping_pure keeping_throw keeping_tryCatch
  keeping_of_reads)

/-! ## Names with endings -/

namespace Text

/-- A text has only one ending of a length. -/
theorem endsWith_eq_false {s ending other : String} (h : s.endsWith ending = true)
    (hlength : other.length = ending.length) (hne : other ≠ ending) :
  s.endsWith other = false
  := by
  rw [Bool.eq_false_iff]
  intro hother
  rw [endsWith_iff] at h hother
  apply hne
  apply String.toList_injective
  apply (List.suffix_of_suffix_length_le hother h _).eq_of_length
  · rw [String.length_toList, String.length_toList, hlength]
  · rw [String.length_toList, String.length_toList, hlength]

end Text

namespace Case

theorem endsWith_ospModelName (component : String) :
  (ospModelName component).endsWith ".xml" = true
  := by
  rw [Text.endsWith_iff, ospModelName, String.toList_append]
  apply List.IsSuffix.trans _ (List.suffix_append _ _)
  decide

/-- No output is an FMU. -/
theorem IsOutput.endsWith_fmu {name : String} (h : IsOutput name) :
  name.endsWith ".fmu" = false
  := by
  cases h with
  | model component =>
    apply Text.endsWith_eq_false (endsWith_ospModelName component)
    · rfl
    · decide
  | sspDescription => decide +kernel
  | ospStructure => decide +kernel
  | statistics => decide +kernel
  | watchPlan => decide +kernel
  | graph => decide +kernel
  | renderedGraph => decide +kernel

/-- Every output but the SSP description is a result, unless it has the name of a test. -/
theorem IsOutput.isResult {name : String} (h : IsOutput name)
    (htest : name.startsWith "test_" = false) (hne : name ≠ sspDescriptionName) (keepFmus : Bool) :
  Results.isResult name keepFmus = true
  := by
  cases h with
  | model component =>
    have hfmu : (ospModelName component).endsWith ".fmu" = false :=
      (IsOutput.model component).endsWith_fmu
    simp [Results.isResult, Results.patterns, Results.Pattern.fits, htest, hfmu,
      endsWith_ospModelName]
  | sspDescription => exact absurd rfl hne
  | ospStructure => cases keepFmus <;> decide +kernel
  | statistics => cases keepFmus <;> decide +kernel
  | watchPlan => cases keepFmus <;> decide +kernel
  | graph => cases keepFmus <;> decide +kernel
  | renderedGraph => cases keepFmus <;> decide +kernel

end Case

/-! ## Changes up to the set-up -/

/-- A tool that changes FMUs only. -/
def ProxyTool.WritesFmus (tool : ProxyTool) : Prop :=
  ∀ fmu host portNumber, Keeping (·.endsWith ".fmu" = true) (tool fmu host portNumber)

namespace System

variable {names : String → Prop} {tool : ProxyTool}

/-- Making a component touches the files that the tool touches. -/
theorem keeping_component (htool : ∀ fmu host portNumber, Keeping names (tool fmu host portNumber))
    (folder name : String) (entry : ComponentEntry) :
  Keeping names (component folder tool name entry)
  := by
  have hload (file : String) : Keeping names (Fmu.load file) :=
    keeping_of_reads (Fmu.reads_load file)
  have hproxied (fmu : Fmu) : Keeping names (proxied name fmu entry tool) := by
    rw [proxied]
    split
    · apply keeping_bind
      · apply keeping_tryCatch
        · apply keeping_bind (htool _ _ _)
          apply hload
        · intro _
          apply keeping_pure
      · intro proxy
        split
        · apply keeping_pure
        · apply keeping_pure
    · apply keeping_pure
  apply keeping_bind keeping_get
  intro d
  apply keeping_bind keeping_get
  intro d'
  split
  · exact keeping_throw _
  · apply keeping_bind (hload _)
    intro fmu
    apply keeping_bind (hproxied fmu)
    intro _
    apply keeping_pure

/-- Making components touches the files that the tool touches. -/
theorem keeping_addComponents
    (htool : ∀ fmu host portNumber, Keeping names (tool fmu host portNumber)) (folder : String)
    (components : Entries Component) (block : Dictionary) :
  Keeping names (addComponents folder tool components block)
  := by
  induction block generalizing components with
  | nil => apply keeping_pure
  | cons e block ih =>
    obtain ⟨key, v⟩ := e
    rw [addComponents]
    cases ComponentEntry.ofValue? v with
    | none => apply ih
    | some entry =>
      apply keeping_bind (keeping_component htool folder key entry)
      intro c
      apply ih

end System

namespace Case

variable {c : Case} {d d₁ d' : Disk} {path : String} {tool : ProxyTool}
  {removed : List String} {e : Failure}

/-- Setting up a case touches the files that the tool touches. -/
theorem keeping_setUp {names : String → Prop}
    (htool : ∀ fmu host portNumber, Keeping names (tool fmu host portNumber)) (c : Case) :
  Keeping names (c.setUp tool)
  := by
  rw [setUp]
  cases c.dictionary.get? "systemStructure" with
  | none => apply keeping_throw
  | some structureValue =>
    apply keeping_bind
    · apply keeping_bind (System.keeping_addComponents htool _ _ _)
      intro components
      apply keeping_pure
    · intro s
      apply keeping_pure

/-- Preparing a case touches the FMUs that it copies and those that the tool writes. -/
theorem keeping_prepare (htool : tool.WritesFmus) (c : Case) (ownFolder : Bool) :
  Keeping (fun name => c.Copies ownFolder name ∨ name.endsWith ".fmu" = true)
    (c.prepare tool ownFolder)
  := by
  have hsetUp : Keeping (fun name => c.Copies ownFolder name ∨ name.endsWith ".fmu" = true)
      (c.setUp tool) := by
    apply keeping_setUp
    intro fmu host portNumber
    apply (htool fmu host portNumber).mono
    intro name hname
    exact .inr hname
  cases ownFolder with
  | true => apply hsetUp
  | false =>
    apply keeping_bind
    · apply keeping_copyFmus
      intro fmu hfmu name hname
      exact .inl ⟨rfl, fmu, hfmu, hname⟩
    · intro _
      apply hsetUp

/-- A run that reads the case dictionary, removes results and fails to copy FMUs or to set the case
up. -/
structure FailsToPrepare (tool : ProxyTool) (path : String) (d : Disk) (c : Case) (e : Failure)
    (d' : Disk) : Prop where
  load : load path d = .ok c d
  prepare : ∃ removed d₁, Results.remove c.folder (c.usesOwnFolder d) d = .ok removed d₁ ∧
    c.prepare tool (c.usesOwnFolder d) d₁ = .error e d'

/-- A case that cannot be prepared is not compiled. -/
theorem FailsToPrepare.compile (h : FailsToPrepare tool path d c e d') (options : CompileOptions)
    (renderer : GraphRenderer) :
  compile options tool renderer path d = .error e d'
  := by
  obtain ⟨removed, d₁, hremove, hfail⟩ := h.prepare
  rw [compile_eq, Action.bind_of_ok h.load, Action.get_bind, Action.bind_of_ok hremove]
  apply Action.bind_of_error hfail

/-! ## Outputs behind a failure -/

/-- What is left of outputs in the folder of a case, where no FMU is copied under the name of an
output. -/
structure Leftover (c : Case) (k : Location) (d d' : Disk) : Prop where
  folder : d.locate? c.folder = some k
  gone : ∀ name, IsOutput name → name.startsWith "test_" = false → name ≠ sspDescriptionName →
    ¬ c.Copies (c.usesOwnFolder d) name → d'.isFileAt (k ++ [name]) = false
  description : ¬ c.Copies (c.usesOwnFolder d) sspDescriptionName →
    d'.item? (k ++ [sspDescriptionName]) = d.item? (k ++ [sspDescriptionName])

/-- A compile whose copying or set-up fails leaves no output but an old SSP description. -/
theorem leftover_of_failure (hd : d.Proper) (htool : tool.WritesFmus)
    (h : FailsToPrepare tool path d c e d') (options : CompileOptions) (renderer : GraphRenderer) :
  compile options tool renderer path d = .error e d' ∧ ∃ k, c.Leftover k d d'
  := by
  obtain ⟨removed, d₁, hremove, hfail⟩ := h.prepare
  obtain ⟨k, hk, hcleaned⟩ := Results.cleaned_of_remove hd hremove
  have hkeeps := keeping_prepare htool c (c.usesOwnFolder d) d₁
  rw [Action.after, hfail] at hkeeps
  have hkept {name : String} (hout : IsOutput name) (hnot : ¬ c.Copies (c.usesOwnFolder d) name) :
      d'.item? (k ++ [name]) = d₁.item? (k ++ [name]) := by
    apply hkeeps.files _ name List.getLast?_concat
    rintro (hcopied | hfmu)
    · exact hnot hcopied
    · rw [hout.endsWith_fmu] at hfmu
      cases hfmu
  refine ⟨h.compile options renderer, k, hk, ?_, ?_⟩
  · intro name hout htest hne hnot
    rw [Disk.isFileAt, hkept hout hnot]
    apply hcleaned.removed name (hout.isResult htest hne _)
  · intro hnot
    rw [hkept .sspDescription hnot]
    apply hcleaned.alike.item?_eq
    cases c.usesOwnFolder d <;> decide +kernel

/-- A case whose FMU is missing, with documents of an earlier compile beside its dictionary. -/
def missingDisk : Disk where
  items := [(["case"], .folder),
    (["case", "case.json"], .file (.ofText ("\x7b\"systemStructure\": \x7b\"components\": " ++
      "\x7b\"hull\": \x7b\"fmu\": \"hull.fmu\"\x7d\x7d\x7d\x7d")) false),
    (["case", "OspSystemStructure.xml"], .file (.ofText "") false),
    (["case", "SystemStructure.ssd"], .file (.ofText "") false)]
  current := []

/-- A tool that makes no proxies. -/
def noProxy : ProxyTool := fun fmu _ _ => pure fmu

/-- A renderer that draws nothing. -/
def noPicture : GraphRenderer := fun _ _ => pure ()

set_option maxRecDepth 100000 in
theorem failsToPrepare_missing :
  ∃ c e d', FailsToPrepare noProxy "/case/case.json" missingDisk c e d' ∧
    d'.isFileAt ["case", sspDescriptionName] = true
  := by
  have hrun : (load "/case/case.json").gives missingDisk (fun c _ =>
      (Results.remove c.folder (c.usesOwnFolder missingDisk)).gives missingDisk fun _ d₁ =>
        (c.prepare noProxy (c.usesOwnFolder missingDisk)).fails d₁ fun d' =>
          d'.isFileAt ["case", sspDescriptionName]) = true := by
    decide +kernel
  obtain ⟨c, d₀, hload, hrun⟩ := Action.exists_of_gives hrun
  obtain ⟨removed, d₁, hremove, hrun⟩ := Action.exists_of_gives hrun
  obtain ⟨e, d', hfail, hfile⟩ := Action.exists_of_fails hrun
  rw [load_eq_ok hload] at hload
  exact ⟨c, e, d', ⟨hload, removed, d₁, hremove, hfail⟩, hfile⟩

/-- The library has lost its FMU, and the old SSP description is what is left. -/
theorem leftover_missing :
  missingDisk.Proper ∧ noProxy.WritesFmus ∧
  ∃ c e d', FailsToPrepare noProxy "/case/case.json" missingDisk c e d' ∧
    compile ⟨false, true⟩ noProxy noPicture "/case/case.json" missingDisk = .error e d' ∧
    ∃ k, c.Leftover k missingDisk d'
  := by
  have hd : missingDisk.Proper := by decide
  have htool : noProxy.WritesFmus := by
    intro fmu host portNumber
    apply keeping_pure
  obtain ⟨c, e, d', hfails, -⟩ := failsToPrepare_missing
  exact ⟨hd, htool, c, e, d', hfails, leftover_of_failure hd htool hfails _ _⟩

/-- The old SSP description is an output, and it is still there. -/
theorem description_missing :
  IsOutput sspDescriptionName ∧ sspDescriptionName.startsWith "test_" = false ∧
  ∃ c e d', FailsToPrepare noProxy "/case/case.json" missingDisk c e d' ∧
    compile ⟨false, true⟩ noProxy noPicture "/case/case.json" missingDisk = .error e d' ∧
    d'.isFileAt ["case", sspDescriptionName] = true
  := by
  obtain ⟨c, e, d', hfails, hfile⟩ := failsToPrepare_missing
  refine ⟨.sspDescription, by decide +kernel, c, e, d', hfails, hfails.compile _ _, hfile⟩

end Case

end Cosim
