import Cosim.Proofs.Deploy.Cleaning
import Cosim.Proofs.Deploy.Stages

/-!
# Stages that repeat

A stage of a compile that runs on one disk also runs on every disk that differs from it only in
files that the stage does not read.  It has the same result there, and the disks behind the two runs
do not differ any more in what the stage has written.
-/

namespace Cosim

open Disk (AlikeBut Written)

variable {α β : Type} {d d' e : Disk} {k : Location} {folder : String}

/-! ## Repeated actions -/

namespace Action

/-- A run that writes files of given names in a folder, and that repeats on disks that are alike in
the files that it reads.  Unless it copies, it may read whether files are executable. -/
structure Repeats (x : Action α) (folder : String) (k : Location) (names reads : String → Prop)
    (copying : Prop) (d : Disk) (a : α) (d' : Disk) : Prop where
  written : Written folder k names (fun _ => copying) d d'
  again : ∀ e differing flags, AlikeBut k differing flags d e →
    (∀ name, reads name → ¬ differing name) → (copying ∨ ∀ name, ¬ flags name) →
    ∃ e', x e = .ok a e' ∧ AlikeBut k (fun name => differing name ∧ ¬ names name)
      (fun name => flags name ∧ ¬ (copying ∧ names name)) d' e'

namespace Repeats

variable {names more reads moreReads : String → Prop} {copying : Prop} {a : α} {b : β} {d₁ : Disk}

/-- Whether a run repeats depends only on which names it writes and reads, and more may be read. -/
theorem congr {x : Action α} (h : x.Repeats folder k names reads copying d a d')
    (hnames : ∀ name, names name ↔ more name) (hreads : ∀ name, reads name → moreReads name) :
  x.Repeats folder k more moreReads copying d a d'
  := by
  obtain rfl : names = more := by
    funext name
    exact propext (hnames name)
  refine ⟨h.written, ?_⟩
  intro e differing flags halike hdiffering
  exact h.again e differing flags halike fun name hread => hdiffering name (hreads name hread)

/-- A run that changes nothing repeats where it has the same result. -/
theorem of_unchanged {x : Action α} (hd : d.Proper)
    (h : ∀ e differing flags, AlikeBut k differing flags d e →
      (∀ name, reads name → ¬ differing name) → x e = .ok a e) :
  x.Repeats folder k (fun _ => False) reads copying d a d
  := by
  refine ⟨.refl hd, ?_⟩
  intro e differing flags halike hdiffering _
  refine ⟨e, h e differing flags halike hdiffering, halike.mono ?_ ?_⟩
  · intro name hin
    exact ⟨hin, id⟩
  · intro name hin
    exact ⟨hin, And.right⟩

/-- Giving a value repeats, with nothing read or written. -/
theorem pure (hd : d.Proper) (a : α) :
  Repeats (Pure.pure a) folder k (fun _ => False) (fun _ => False) copying d a d
  := of_unchanged hd fun _ _ _ _ _ => rfl

/-- What is written first may differ when it is read later. -/
theorem bind {x : Action α} {f : α → Action β}
    (h : x.Repeats folder k names reads copying d a d₁)
    (hf : (f a).Repeats folder k more moreReads copying d₁ b d') :
  (x >>= f).Repeats folder k (fun name => names name ∨ more name)
    (fun name => reads name ∨ moreReads name ∧ ¬ names name) copying d b d'
  := by
  constructor
  · apply (h.written.mono _ fun _ => id).trans (hf.written.mono _ fun _ => id)
    · intro name
      exact .inl
    · intro name
      exact .inr
  · intro e differing flags halike hdiffering hflags
    obtain ⟨e₁, hrun, halike₁⟩ := h.again e differing flags halike
      (fun name hread => hdiffering name (.inl hread)) hflags
    obtain ⟨e', hrun', halike'⟩ := hf.again e₁ _ _ halike₁
      (fun name hread hin => hdiffering name (.inr ⟨hread, hin.2⟩) hin.1)
      (hflags.imp_right fun hnone name hin => hnone name hin.1)
    refine ⟨e', (bind_of_ok hrun).trans hrun', halike'.mono ?_ ?_⟩
    · rintro name ⟨⟨hin, hnot⟩, hnot'⟩
      exact ⟨hin, not_or.mpr ⟨hnot, hnot'⟩⟩
    · rintro name ⟨⟨hin, hnot⟩, hnot'⟩
      refine ⟨hin, ?_⟩
      rintro ⟨hcopying, hname | hname⟩
      · exact hnot ⟨hcopying, hname⟩
      · exact hnot' ⟨hcopying, hname⟩

/-- Actions that each write one file repeat one after another. -/
theorem mapM {f : α → Action β} {name : α → Option String} {as : List α} {bs : List β}
    {start : Disk}
    (hstep : ∀ a ∈ as, ∀ d b d', d.Proper → AlikeBut k (fun _ => True) (fun _ => True) start d →
      f a d = .ok b d' →
        ∃ n, name a = some n ∧ (f a).Repeats folder k (· = n) (fun _ => False) copying d b d')
    (hd : d.Proper) (halike : AlikeBut k (fun _ => True) (fun _ => True) start d)
    (h : as.mapM f d = .ok bs d') :
  (as.mapM f).Repeats folder k (fun n => ∃ a ∈ as, name a = some n) (fun _ => False) copying
    d bs d'
  := by
  induction as generalizing d bs with
  | nil =>
    rw [List.mapM_nil, pure_eq_ok] at h
    obtain ⟨rfl, rfl⟩ := h
    exact (pure hd []).congr (by simp) fun _ => id
  | cons a as ih =>
    rw [List.mapM_cons] at h ⊢
    simp only [bind_eq_ok, pure_eq_ok] at h
    obtain ⟨b, d₁, hrun, rest, _, hrest, rfl, rfl⟩ := h
    rw [List.forall_mem_cons] at hstep
    obtain ⟨n, hn, hfirst⟩ := hstep.1 d b d₁ hd halike hrun
    have hmore := ih hstep.2 hfirst.written.proper
      (halike.trans (hfirst.written.alike.mono (fun _ _ => trivial) fun _ _ => trivial)) hrest
    apply (hfirst.bind (hmore.bind (pure hmore.written.proper (b :: rest)))).congr
    · intro other
      rw [List.exists_mem_cons_iff, hn, Option.some.injEq, or_false, @eq_comm _ n]
    · rintro other (hfalse | ⟨hfalse | ⟨hfalse, -⟩, -⟩)
      · exact hfalse
      · exact hfalse
      · exact hfalse

end Repeats

end Action

namespace Case

variable {c : Case} {fmu target name : String}

/-! ## Copies -/

/-- A copy of an FMU from elsewhere repeats. -/
theorem repeats_copyFmu (hd : d.Proper) (hfolder : d.locate? c.folder = some k)
    (hsource : ∀ name, d.locate? (Path.join c.library fmu) ≠ some (k ++ [name]))
    (h : c.copyFmu fmu d = .ok target d') :
  ∃ name, Path.fileName? fmu = some name ∧
    (c.copyFmu fmu).Repeats c.folder k (· = name) (fun _ => False) True d target d'
  := by
  obtain ⟨name, hname, hfile, rfl, hcopy⟩ := copyFmu_eq_ok_iff.mp h
  have hstep := Path.isStep_of_fileName? hname
  obtain ⟨content, hcontent⟩ := Disk.isFile_iff.mp hfile
  obtain ⟨l, executable, hl, hitem⟩ := Disk.content?_eq_some_iff.mp hcontent
  have helsewhere (name : String) : l ≠ k ++ [name] := by
    rintro rfl
    exact hsource name hl
  have hne {place : Location} (hplace : d.locate? (Path.join c.folder name) = some place) :
      place = k ++ [name] := Disk.eq_of_locate?_join hstep hfolder hplace
  have htarget : d.locate? (Path.join c.folder name) ≠ some l := by
    intro hplace
    exact helsewhere name (hne hplace)
  obtain ⟨place, hplace, hfree, rfl⟩ := (Action.copy_eq_ok_iff hl hitem htarget).mp hcopy
  obtain rfl := hne hplace
  refine ⟨name, Disk.fileName?_of_isFile hfile hname,
    Disk.written_put hd hstep hplace hfree content (.inl trivial), ?_⟩
  intro e differing flags halike _ _
  have hlocate := halike.keeps.locate?_eq
  have hitem' : e.item? l = some (.file content executable) := by
    rw [halike.items l fun name _ => helsewhere name, hitem]
  have hfile' : e.isFile (Path.join c.library fmu) = true := by
    rw [Disk.isFile, Disk.find?, hlocate, hl, Option.bind_some, hitem']
  have hcopy' : Action.copy (Path.join c.library fmu) (Path.join c.folder name) e =
      .ok () (e.put (k ++ [name]) (.file content executable)) := by
    rw [Action.copy_eq_ok_iff ((hlocate _).trans hl) hitem' (by rwa [hlocate])]
    exact ⟨_, (hlocate _).trans hplace, (halike.writableAt_eq _).trans hfree, rfl⟩
  refine ⟨_, copyFmu_eq_ok_iff.mpr ⟨name, hname, hfile', rfl, hcopy'⟩, ?_⟩
  apply (halike.put (Disk.writableAt_iff.mp hfree).2 content executable).mono fun _ => id
  intro other hother
  exact ⟨hother.1, fun hin => hother.2 hin.2⟩

/-- However copying ends well, it repeats if no FMU comes from the case folder itself. -/
theorem repeats_copyFmus {targets : List String} (hd : d.Proper)
    (hfolder : d.locate? c.folder = some k)
    (hsource : ∀ fmu ∈ c.fmuFiles, ∀ name,
      d.locate? (Path.join c.library fmu) ≠ some (k ++ [name]))
    (h : c.copyFmus d = .ok targets d') :
  c.copyFmus.Repeats c.folder k (c.Copies false) (fun _ => False) True d targets d'
  := by
  have hrepeats : c.copyFmus.Repeats c.folder k
      (fun name => ∃ fmu ∈ c.fmuFiles, Path.fileName? fmu = some name) (fun _ => False) True
      d targets d' := by
    apply Action.Repeats.mapM _ hd (.refl k _ _ d) h
    intro fmu hfmu d₁ target d₂ hd₁ halike hrun
    have hlocate := halike.keeps.locate?_eq
    apply repeats_copyFmu hd₁ ((hlocate _).trans hfolder) _ hrun
    intro name
    rw [hlocate]
    apply hsource fmu hfmu
  apply hrepeats.congr _ fun _ => id
  intro name
  simp [Copies]

/-! ## Documents -/

/-- An output is written exactly if its file is, and its path is told. -/
theorem output_eq_ok_iff {text path : String} :
  c.output name text d = .ok path d' ↔
    path = Path.join c.folder name ∧
      Action.write (Path.join c.folder name) (Content.ofText text) d = .ok () d'
  := by
  simp only [output, Action.writeText, Action.bind_eq_ok, Action.pure_eq_ok]
  constructor
  · rintro ⟨_, _, hwrite, rfl, rfl⟩
    exact ⟨rfl, hwrite⟩
  · rintro ⟨rfl, hwrite⟩
    exact ⟨(), d', hwrite, rfl, rfl⟩

/-- A document repeats. -/
theorem repeats_output {text path : String} (hd : d.Proper) (hname : (Path.Part.name name).IsStep)
    (hfolder : d.locate? c.folder = some k) (h : c.output name text d = .ok path d') :
  (c.output name text).Repeats c.folder k (· = name) (fun _ => False) False d path d'
  := by
  obtain ⟨rfl, hwrite⟩ := output_eq_ok_iff.mp h
  refine ⟨Action.written_of_write hd hname hfolder hwrite, ?_⟩
  intro e differing flags halike _ hflags
  obtain ⟨u, hwrite', -⟩ | ⟨d₁, e', hwrite', hagain, halike'⟩ :=
    Action.write_alike halike hname hfolder (hflags.resolve_left id name) (Content.ofText text)
  · cases hwrite.symm.trans hwrite'
  · cases hwrite.symm.trans hwrite'
    refine ⟨e', output_eq_ok_iff.mpr ⟨rfl, hagain⟩, halike'.mono (fun _ => id) ?_⟩
    intro other hother
    exact ⟨hother, fun hin => hin.1⟩

/-- The names and texts of the documents about the system of a case. -/
def documents (c : Case) (s : System) : List (String × String) :=
  (s.components.values.map fun component =>
    (ospModelName component.name, Document.pretty component.ospModel.toElement)) ++
  [(ospStructureName, Document.pretty (s.ospStructure c.simulation).toElement),
    (sspDescriptionName, Document.pretty (s.sspDescription c.name c.simulation).toElement),
    (statisticsName, (s.statistics c.name c.simulation).toText
      (Dictionary.isJsonFile (Path.join c.folder statisticsName))),
    (watchPlanName, (s.watchPlan c.name c.simulation (c.dictionary.get? "postProcessing")).toText
      (Dictionary.isJsonFile (Path.join c.folder watchPlanName)))]

/-- All that is written about a system is its documents. -/
theorem writeOutputs_eq {s : System} (hsystem : c.system = some s) :
  c.writeOutputs = (c.documents s).mapM fun e => c.output e.1 e.2
  := by
  rw [writeOutputs, hsystem, documents, List.mapM_append, List.mapM_map]
  simp only [List.mapM_cons, List.mapM_nil, bind_assoc, pure_bind]
  rfl

/-- The description of a component has a name that is a step, if that of the component has no slash.
-/
theorem isStep_ospModelName {component : String} (h : '/' ∉ component.toList) :
  (Path.Part.name (ospModelName component)).IsStep
  := by
  apply Path.isStep_of_length
  · rw [ospModelName, String.toList_append, List.mem_append, not_or]
    exact ⟨h, by decide⟩
  · rw [ospModelName, String.toList_append, List.length_append]
    have hlength : "_OspModelDescription.xml".toList.length = 24 := rfl
    omega

/-- The names of documents are names of files, unless names of components have slashes. -/
theorem isStep_documents {s : System}
    (h : ∀ component ∈ s.components.values, '/' ∉ component.name.toList) :
  ∀ document ∈ c.documents s, (Path.Part.name document.1).IsStep
  := by
  have hstep {name : String} (hname : Path.fileName? name = some name) :
      (Path.Part.name name).IsStep := Path.isStep_of_fileName? hname
  rw [documents, List.forall_mem_append, List.forall_mem_map]
  constructor
  · intro component hcomponent
    apply isStep_ospModelName (h component hcomponent)
  · simp only [List.forall_mem_cons]
    exact ⟨hstep rfl, hstep rfl, hstep rfl, hstep rfl, List.forall_mem_nil _⟩

/-- All documents together repeat. -/
theorem repeats_writeOutputs {s : System} {files : List String} (hsystem : c.system = some s)
    (hnames : ∀ component ∈ s.components.values, '/' ∉ component.name.toList) (hd : d.Proper)
    (hfolder : d.locate? c.folder = some k) (h : c.writeOutputs d = .ok files d') :
  c.writeOutputs.Repeats c.folder k (fun name => ∃ document ∈ c.documents s,
    some document.1 = some name) (fun _ => False) False d files d'
  := by
  rw [writeOutputs_eq hsystem] at h ⊢
  apply Action.Repeats.mapM _ hd (.refl k _ _ d) h
  intro document hdocument d₁ path d₂ hd₁ halike hrun
  refine ⟨document.1, rfl, ?_⟩
  apply repeats_output hd₁ (isStep_documents hnames document hdocument) _ hrun
  rw [halike.keeps.locate?_eq, hfolder]

end Case

/-! ## Graphs -/

/-- A picture, if one is drawn, and a failure, if the drawing fails in the end. -/
structure Drawing where
  picture : Option Content
  failure : Option Failure

/-- Writes the picture of a drawing. -/
def Drawing.write (drawing : Drawing) (output : String) : Action PUnit := do
  match drawing.picture with
  | some picture => Action.write output picture
  | none => pure ()
  match drawing.failure with
  | some e => throw e
  | none => pure ()

/-- The renderer that draws the text of a graph, and looks at nothing else. -/
def GraphRenderer.ofDrawing (draw : String → Drawing) : GraphRenderer := fun source output => do
  let text ← Action.readText source
  (draw text).write output

namespace Action

/-- Two runs of an action end alike: both with one result or both with one failure. -/
def Agrees (R : Disk → Disk → Prop) (x : Action α) : Prop := ∀ d e, R d e →
  (∃ a d' e', x d = .ok a d' ∧ x e = .ok a e' ∧ R d' e') ∨
  ∃ u d' e', x d = .error u d' ∧ x e = .error u e' ∧ R d' e'

variable {R : Disk → Disk → Prop}

theorem agrees_pure (a : α) :
  Agrees R (pure a)
  := fun d e h => .inl ⟨a, d, e, rfl, rfl, h⟩

theorem agrees_throw (u : Failure) :
  Agrees R (throw u : Action α)
  := fun d e h => .inr ⟨u, d, e, rfl, rfl, h⟩

/-- Actions that agree do so one after the other. -/
theorem agrees_bind {x : Action α} {f : α → Action β} (h : Agrees R x)
    (hf : ∀ a, Agrees R (f a)) :
  Agrees R (x >>= f)
  := by
  intro d e hde
  obtain ⟨a, d', e', hd, he, hde'⟩ | ⟨u, d', e', hd, he, hde'⟩ := h d e hde
  · rw [bind_of_ok hd, bind_of_ok he]
    apply hf a d' e' hde'
  · rw [bind_of_error hd, bind_of_error he]
    exact .inr ⟨u, d', e', rfl, rfl, hde'⟩

/-- An action that agrees does so with its rescue. -/
theorem agrees_tryCatch {x : Action α} {f : Failure → Action α} (h : Agrees R x)
    (hf : ∀ u, Agrees R (f u)) :
  Agrees R (tryCatch x f)
  := by
  intro d e hde
  obtain ⟨a, d', e', hd, he, hde'⟩ | ⟨u, d', e', hd, he, hde'⟩ := h d e hde
  · rw [tryCatch_of_ok hd, tryCatch_of_ok he]
    exact .inl ⟨a, d', e', rfl, rfl, hde'⟩
  · rw [tryCatch_of_error hd, tryCatch_of_error he]
    apply hf u d' e' hde'

/-- An action that reads a path agrees on disks where that is the same. -/
theorem agrees_of_reads {x : Action α} {path : String} (h : Reads path x)
    (hfind : ∀ d e, R d e → e.find? path = d.find? path) :
  Agrees R x
  := by
  intro d e hde
  obtain ⟨a, hd, he⟩ | ⟨u, hd, he⟩ := h d e (hfind d e hde)
  · exact .inl ⟨a, d, e, hd, he, hde⟩
  · exact .inr ⟨u, d, e, hd, he, hde⟩

end Action

namespace Case

variable {c : Case}

/-- Two disks without a difference, while a graph is written to the first. -/
structure Drawn (folder : String) (k : Location) (start d e : Disk) : Prop where
  written : Written folder k IsGraph (fun _ => False) start d
  alike : AlikeBut k (fun _ => False) (fun _ => False) d e

/-- Writing a file of the graph agrees on two disks without a difference. -/
theorem agrees_write {start : Disk} {name : String} (hfolder : start.locate? folder = some k)
    (hname : IsGraph name) (content : Content) :
  Action.Agrees (Drawn folder k start) (Action.write (Path.join folder name) content)
  := by
  have hstep : (Path.Part.name name).IsStep := by
    have hown : Path.fileName? name = some name := by
      obtain rfl | rfl := hname <;> rfl
    exact Path.isStep_of_fileName? hown
  intro d e h
  have hlocate : d.locate? folder = some k :=
    (h.written.alike.keeps.locate?_eq folder).trans hfolder
  obtain ⟨u, hd, he⟩ | ⟨d', e', hd, he, halike⟩ :=
    Action.write_alike h.alike hstep hlocate id content
  · exact .inr ⟨u, d, e, hd, he, h⟩
  · refine .inl ⟨(), d', e', hd, he, ?_, halike.mono (fun _ => And.left) fun _ => id⟩
    apply h.written.trans
    apply (Action.written_of_write h.written.proper hstep hlocate hd).mono _ fun _ => id
    rintro _ rfl
    exact hname

/-- A graph is written and rendered alike. -/
theorem agrees_renderGraph {start : Disk} (hfolder : start.locate? folder = some k) (s : System)
    (draw : String → Drawing) :
  Action.Agrees (Drawn folder k start) (renderGraph folder s (.ofDrawing draw))
  := by
  apply Action.agrees_tryCatch
  · apply Action.agrees_bind (agrees_write hfolder (.inl rfl) _)
    intro _
    apply Action.agrees_bind
    · apply Action.agrees_bind
      · apply Action.agrees_of_reads (Action.reads_readText _)
        intro d e h
        rw [Disk.find?, Disk.find?, h.alike.keeps.locate?_eq]
        apply congrArg
        funext l
        apply h.alike.items l
        intro _ hfalse
        exact hfalse.elim
      · intro text
        have hfailure : Action.Agrees (Drawn folder k start) (match (draw text).failure with
            | some e => throw e
            | none => pure () : Action PUnit) := by
          cases (draw text).failure with
          | none => apply Action.agrees_pure
          | some u => apply Action.agrees_throw
        rw [Drawing.write]
        cases (draw text).picture with
        | none => exact hfailure
        | some picture =>
          apply Action.agrees_bind (agrees_write hfolder (.inr rfl) picture)
          intro _
          exact hfailure
    · intro _
      apply Action.agrees_pure
  · intro _
    apply Action.agrees_pure

/-- Rendering a graph repeats. -/
theorem repeats_renderGraph {s : System} {draw : String → Drawing} {result : Option String}
    (hd : d.Proper) (hfolder : d.locate? folder = some k)
    (h : renderGraph folder s (.ofDrawing draw) d = .ok result d') :
  (renderGraph folder s (.ofDrawing draw)).Repeats folder k IsGraph (fun _ => True) False
    d result d'
  := by
  have hagain {e : Disk} (halike : AlikeBut k (fun _ => False) (fun _ => False) d e) :
      ∃ e', renderGraph folder s (.ofDrawing draw) e = .ok result e' ∧ Drawn folder k d d' e' := by
    obtain ⟨a, d₁, e', hd₁, he', hdrawn⟩ | ⟨u, d₁, e', hd₁, -⟩ :=
      agrees_renderGraph hfolder s draw d e ⟨.refl hd, halike⟩
    · cases h.symm.trans hd₁
      exact ⟨e', he', hdrawn⟩
    · cases h.symm.trans hd₁
  constructor
  · obtain ⟨_, -, hdrawn⟩ := hagain (.refl k _ _ d)
    exact hdrawn.written
  · intro e differing flags halike hdiffering hflags
    obtain ⟨e', he', hdrawn⟩ := hagain (halike.mono (fun name => hdiffering name trivial)
      (hflags.resolve_left id))
    exact ⟨e', he', hdrawn.alike.mono (fun _ => False.elim) fun _ => False.elim⟩

/-! ## Stages -/

/-- The names of the FMUs that components are made of. -/
def Opens (c : Case) (name : String) : Prop :=
  ∃ record ∈ c.records, ∃ entry, ComponentEntry.ofValue? record.2 = some entry ∧
    Path.fileName? (Path.join c.folder entry.fmu) = some name

/-- Setting up a case without proxies repeats, and reads the FMUs. -/
theorem repeats_setUp {c₀ : Case} {tool : ProxyTool} {copying : Prop} (hd : d.Proper)
    (hproxy : ∀ record ∈ c₀.records, ∀ entry, ComponentEntry.ofValue? record.2 = some entry →
      entry.Unproxied tool)
    (h : c₀.setUp tool d = .ok c d') :
  (c₀.setUp tool).Repeats folder k (fun _ => False) c₀.Opens copying d c d'
  := by
  obtain ⟨rfl, -⟩ := opened_setUp hproxy h
  apply Action.Repeats.of_unchanged hd
  intro e differing flags halike hdiffering
  have hnames : ∀ record ∈ c₀.records, ∀ entry, ComponentEntry.ofValue? record.2 = some entry →
      ∀ name, Path.fileName? (Path.join c₀.folder entry.fmu) = some name → ¬ differing name :=
    fun record hrecord entry hentry name hname =>
      hdiffering name ⟨record, hrecord, entry, hentry, hname⟩
  obtain ⟨structureValue, s, hvalue, hbuild, hc⟩ := setUp_eq_ok_iff.mp h
  rw [records, hvalue] at hproxy hnames
  have hbuild' := System.build_of_keeps hd halike.keeps hproxy hnames hbuild
  exact setUp_eq_ok_iff.mpr ⟨structureValue, s, hvalue, hbuild', hc⟩

/-- The stage that copies FMUs and sets the case up repeats where the FMUs are the same that it does
not copy. -/
theorem repeats_prepare {c₀ : Case} {tool : ProxyTool} {ownFolder : Bool} (hd : d.Proper)
    (hfolder : d.locate? c₀.folder = some k)
    (hsource : ownFolder = false → ∀ fmu ∈ c₀.fmuFiles, ∀ name,
      d.locate? (Path.join c₀.library fmu) ≠ some (k ++ [name]))
    (hproxy : ∀ record ∈ c₀.records, ∀ entry, ComponentEntry.ofValue? record.2 = some entry →
      entry.Unproxied tool)
    (h : c₀.prepare tool ownFolder d = .ok c d') :
  (c₀.prepare tool ownFolder).Repeats c₀.folder k (c₀.Copies ownFolder)
    (fun name => c₀.Opens name ∧ ¬ c₀.Copies ownFolder name) True d c d'
  := by
  cases ownFolder with
  | true =>
    have hnone (name : String) : ¬ c₀.Copies true name := by simp [Copies]
    apply (repeats_setUp hd hproxy h).congr
    · intro name
      exact iff_of_false id (hnone name)
    · intro name hopens
      exact ⟨hopens, hnone name⟩
  | false =>
    simp only [prepare, Bool.not_false, if_true, Action.bind_eq_ok] at h ⊢
    obtain ⟨targets, d₁, hcopy, h⟩ := h
    have hcopies := repeats_copyFmus hd hfolder (hsource rfl) hcopy
    apply (hcopies.bind (repeats_setUp hcopies.written.proper hproxy h)).congr
    · intro name
      rw [or_false]
    · rintro name (hfalse | hopens)
      · exact hfalse.elim
      · exact hopens

/-- The names of the documents that a compile writes. -/
def Documents (c : Case) (options : CompileOptions) (name : String) : Prop :=
  options.inspect = false ∧
    ∃ s, c.system = some s ∧ ∃ document ∈ c.documents s, document.1 = name

/-- The names of the files that a compile writes. -/
def Writes (c : Case) (options : CompileOptions) (name : String) : Prop :=
  c.Documents options name ∨ options.inspect = false ∧ options.graph = true ∧ IsGraph name

instance (options : CompileOptions) (name : String) : Decidable (c.Documents options name) :=
  inferInstanceAs (Decidable (_ ∧ ∃ s, c.system = some s ∧ ∃ document ∈ c.documents s, _))

instance (options : CompileOptions) (name : String) : Decidable (c.Writes options name) :=
  inferInstanceAs (Decidable (_ ∨ _ ∧ _ ∧ (_ ∨ _)))

/-- The stage that writes documents and the graph repeats where everything else is the same. -/
theorem repeats_emit {options : CompileOptions} {draw : String → Drawing} {u : PUnit}
    (hnames : ∀ s, c.system = some s → ∀ component ∈ s.components.values,
      '/' ∉ component.name.toList)
    (hd : d.Proper) (hfolder : d.locate? c.folder = some k)
    (h : c.emit options (.ofDrawing draw) d = .ok u d') :
  (c.emit options (.ofDrawing draw)).Repeats c.folder k (c.Writes options)
    (fun name => ¬ c.Documents options name) False d u d'
  := by
  cases hinspect : options.inspect with
  | true =>
    simp only [emit, hinspect, Bool.not_true, Bool.false_eq_true, if_false] at h ⊢
    obtain ⟨rfl, rfl⟩ := Action.pure_eq_ok.mp h
    apply (Action.Repeats.pure hd ()).congr _ fun _ => False.elim
    simp [Writes, Documents, hinspect]
  | false =>
    obtain ⟨s, files, d₁, hsystem, hwrite, hplain, hdrawn⟩ := (emit_eq_ok_iff hinspect).mp h
    have hwritten := repeats_writeOutputs hsystem (hnames s hsystem) hd hfolder hwrite
    have hdocuments {name : String} :
        (∃ document ∈ c.documents s, some document.1 = some name) ↔ c.Documents options name := by
      simp [Documents, hinspect, hsystem]
    simp only [emit, hinspect, Bool.not_false, if_true]
    cases hgraph : options.graph with
    | false =>
      obtain rfl := hplain hgraph
      apply (hwritten.bind (.pure hwritten.written.proper ())).congr
      · intro name
        rw [or_false, hdocuments]
        simp [Writes, hgraph]
      · rintro name (hfalse | ⟨hfalse, -⟩)
        · exact hfalse.elim
        · exact hfalse.elim
    | true =>
      obtain ⟨r, hrender⟩ := hdrawn hgraph
      have hlocate : d₁.locate? c.folder = some k :=
        (hwritten.written.alike.keeps.locate?_eq c.folder).trans hfolder
      have hgraphs := repeats_renderGraph hwritten.written.proper hlocate hrender
      simp only [hsystem, if_true]
      apply (hwritten.bind (hgraphs.bind (.pure hgraphs.written.proper ()))).congr
      · intro name
        rw [or_false, hdocuments]
        simp [Writes, hinspect, hgraph]
      · rintro name (hfalse | ⟨-, hnot⟩)
        · exact hfalse.elim
        · exact fun hdocument => hnot (hdocuments.mpr hdocument)

end Case

end Cosim
