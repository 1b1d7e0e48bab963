import Cosim.Proofs.Disk.Proper
import Cosim.Proofs.System.Builder

/-!
# Opened FMUs

A build that makes no proxies leaves the disk alone, and each of its components is what a record
makes of the FMU that was opened at the record's path.  Such a build repeats on every disk that has
the same files under the names of FMUs.
-/

namespace Cosim

/-- No proxy takes the place of an FMU that an entry describes. -/
def ComponentEntry.Unproxied (entry : ComponentEntry) (tool : ProxyTool) : Prop :=
  ∀ name fmu d, System.proxied name fmu entry tool d = .ok (name, fmu) d

namespace ComponentEntry

variable {entry : ComponentEntry} {tool : ProxyTool}

/-- A proxy is made only where an entry asks for one, and not by a tool that fails. -/
theorem unproxied_of_fails
    (h : entry.generateProxy = true → ∀ fmu host portNumber d,
      ∃ e, tool fmu host portNumber d = .error e d) :
  entry.Unproxied tool
  := by
  intro name fmu d
  rw [System.proxied]
  cases hflag : entry.generateProxy with
  | false => rfl
  | true =>
    cases entry.address? with
    | none => rfl
    | some address =>
      obtain ⟨e, he⟩ := h hflag fmu.file address.host address.portNumber d
      have hproxify : fmu.proxify address.host address.portNumber tool d = .ok fmu d := by
        simp only [Fmu.proxify, tryCatch, tryCatchThe, MonadExceptOf.tryCatch, EStateM.tryCatch,
          bind, EStateM.bind, he]
        rfl
      simp only [bind, EStateM.bind, hproxify, beq_self_eq_true, if_true]
      rfl

end ComponentEntry

namespace System

variable {folder : String} {tool : ProxyTool} {d d' : Disk}

/-- A component made of the FMU that is opened as an entry says. -/
structure Opened (d : Disk) (folder : String) (name : String) (entry : ComponentEntry)
    (c : Component) : Prop where
  name_eq : c.name = name
  load : Fmu.load (fmuPath d folder entry.fmu) d = .ok c.fmu d

theorem component_eq_ok_iff {name : String} {entry : ComponentEntry} {c : Component}
    (hproxy : entry.Unproxied tool) :
  component folder tool name entry d = .ok c d' ↔ d' = d ∧ ∃ fmu,
    Fmu.load (fmuPath d folder entry.fmu) d = .ok fmu d ∧ c = componentOf name fmu entry
  := by
  simp only [component, Action.bind_eq_ok, Action.get_eq_ok]
  constructor
  · rintro ⟨_, _, ⟨rfl, rfl⟩, _, _, ⟨rfl, rfl⟩, h⟩
    split at h
    · simp only [Action.bind_eq_ok, Action.throw_ne_ok, false_and, exists_false] at h
    · simp only [Action.bind_eq_ok, Action.pure_eq_ok] at h
      obtain ⟨fmu, _, hload, ⟨finalName, final⟩, _, hproxied, rfl, rfl⟩ := h
      obtain ⟨-, -, rfl⟩ := Fmu.load_eq_ok hload
      rw [hproxy] at hproxied
      cases hproxied
      exact ⟨rfl, fmu, hload, rfl⟩
  · rintro ⟨rfl, fmu, hload, rfl⟩
    refine ⟨d', d', ⟨rfl, rfl⟩, d', d', ⟨rfl, rfl⟩, ?_⟩
    rw [if_neg (by simp [(Fmu.load_eq_ok hload).1])]
    simp only [Action.bind_eq_ok, Action.pure_eq_ok]
    exact ⟨fmu, d', hload, (name, fmu), d', hproxy name fmu d', rfl, rfl⟩

theorem opened_of_component {name : String} {entry : ComponentEntry} {c : Component}
    (hproxy : entry.Unproxied tool) (h : component folder tool name entry d = .ok c d') :
  d' = d ∧ Opened d folder name entry c
  := by
  obtain ⟨rfl, fmu, hload, rfl⟩ := (component_eq_ok_iff hproxy).mp h
  exact ⟨rfl, rfl, hload⟩

/-- The components that are added are those that were there and those that entries of the block
describe. -/
theorem opened_addComponents {components added : Entries Component} {block : Dictionary}
    (hproxy : ∀ e ∈ block, ∀ entry, ComponentEntry.ofValue? e.2 = some entry → entry.Unproxied tool)
    (h : addComponents folder tool components block d = .ok added d') :
  d' = d ∧ ∀ c ∈ added.values, c ∈ components.values ∨
    ∃ e ∈ block, ∃ entry, ComponentEntry.ofValue? e.2 = some entry ∧
      Opened d folder e.1 entry c
  := by
  induction block generalizing components with
  | nil =>
    obtain ⟨rfl, rfl⟩ := Action.pure_eq_ok.mp h
    exact ⟨rfl, fun c hc => .inl hc⟩
  | cons e block ih =>
    obtain ⟨key, v⟩ := e
    rw [List.forall_mem_cons] at hproxy
    rw [addComponents] at h
    cases hentry : ComponentEntry.ofValue? v with
    | none =>
      rw [hentry] at h
      obtain ⟨rfl, hadded⟩ := ih hproxy.2 h
      refine ⟨rfl, fun c hc => (hadded c hc).imp_right ?_⟩
      rintro ⟨e, he, hopened⟩
      exact ⟨e, List.mem_cons_of_mem _ he, hopened⟩
    | some entry =>
      rw [hentry] at h
      simp only [Action.bind_eq_ok] at h
      obtain ⟨c, _, hc, h⟩ := h
      obtain ⟨rfl, hopened⟩ := opened_of_component (hproxy.1 entry hentry) hc
      obtain ⟨rfl, hadded⟩ := ih hproxy.2 h
      refine ⟨rfl, fun c' hc' => ?_⟩
      obtain hold | ⟨e, he, hopened'⟩ := hadded c' hc'
      · obtain ⟨e, he, rfl⟩ := List.mem_map.mp hold
        obtain rfl | he := Entries.mem_put he
        · exact .inr ⟨(key, v), List.mem_cons_self, entry, hentry, hopened⟩
        · exact .inl (List.mem_map_of_mem he)
      · exact .inr ⟨e, List.mem_cons_of_mem _ he, hopened'⟩

theorem opened_build {structureValue : Value} {s : System}
    (hproxy : ∀ e ∈ block structureValue "components", ∀ entry,
      ComponentEntry.ofValue? e.2 = some entry → entry.Unproxied tool)
    (h : build folder tool structureValue d = .ok s d') :
  d' = d ∧ ∀ c ∈ s.components.values, ∃ e ∈ block structureValue "components", ∃ entry,
    ComponentEntry.ofValue? e.2 = some entry ∧ Opened d folder e.1 entry c
  := by
  obtain ⟨hadded, -⟩ := build_eq_ok.mp h
  obtain ⟨rfl, hopened⟩ := opened_addComponents hproxy hadded
  refine ⟨rfl, fun c hc => (hopened c hc).resolve_left ?_⟩
  rintro ⟨⟩

/-! ## Repeated builds -/

variable {e : Disk} {names : String → Prop}

/-- An FMU that was opened is opened again where files of its name are the same. -/
theorem load_of_keeps {entry : ComponentEntry} {fmu : Fmu} (hd : d.Proper)
    (hkeeps : Disk.Keeps names d e)
    (hnames : ∀ name, Path.fileName? (Path.join folder entry.fmu) = some name → ¬ names name)
    (h : Fmu.load (fmuPath d folder entry.fmu) d = .ok fmu d) :
  Fmu.load (fmuPath e folder entry.fmu) e = .ok fmu e
  := by
  have hfile := (Fmu.load_eq_ok h).1
  cases hname : Path.fileName? (Path.join folder entry.fmu) with
  | none =>
    have hpath : fmuPath d folder entry.fmu = Path.join folder entry.fmu := by
      -- the equation of `fmuPath` takes long to derive
      delta fmuPath
      simp only [hname]
    rw [hpath] at hfile
    obtain ⟨name, hsome⟩ := hd.exists_fileName? hfile
    cases hname.symm.trans hsome
  | some name =>
    have hnot := hnames name hname
    have hdirect : Path.fileName? (Path.join folder name) = some name :=
      Path.fileName?_join (Path.isStep_of_fileName? hname) folder
    have hpath : fmuPath e folder entry.fmu = fmuPath d folder entry.fmu := by
      rw [fmuPath_of_join hname, fmuPath_of_join hname, hkeeps.isFile_eq hdirect hnot]
    have hown : Path.fileName? (fmuPath d folder entry.fmu) = some name := by
      rw [fmuPath_of_join hname]
      split
      · exact hdirect
      · exact hname
    rw [hpath]
    exact ((Fmu.reads_load _).eq_ok h).2 e (hkeeps.find?_eq hown hnot)

/-- Components are added again where files of the names of their FMUs are the same. -/
theorem addComponents_of_keeps {components added : Entries Component} {block : Dictionary}
    (hd : d.Proper) (hkeeps : Disk.Keeps names d e)
    (hproxy : ∀ e ∈ block, ∀ entry, ComponentEntry.ofValue? e.2 = some entry → entry.Unproxied tool)
    (hnames : ∀ e ∈ block, ∀ entry, ComponentEntry.ofValue? e.2 = some entry →
      ∀ name, Path.fileName? (Path.join folder entry.fmu) = some name → ¬ names name)
    (h : addComponents folder tool components block d = .ok added d') :
  addComponents folder tool components block e = .ok added e
  := by
  induction block generalizing components with
  | nil =>
    obtain ⟨rfl, -⟩ := Action.pure_eq_ok.mp h
    rfl
  | cons record block ih =>
    obtain ⟨key, v⟩ := record
    rw [List.forall_mem_cons] at hproxy hnames
    rw [addComponents] at h ⊢
    cases hentry : ComponentEntry.ofValue? v with
    | none =>
      rw [hentry] at h
      exact ih hproxy.2 hnames.2 h
    | some entry =>
      simp only [hentry, Action.bind_eq_ok] at h ⊢
      obtain ⟨c, _, hc, h⟩ := h
      have hunproxied := hproxy.1 entry hentry
      obtain ⟨rfl, fmu, hload, rfl⟩ := (component_eq_ok_iff hunproxied).mp hc
      have hload' := load_of_keeps hd hkeeps (hnames.1 entry hentry) hload
      exact ⟨_, e, (component_eq_ok_iff hunproxied).mpr ⟨rfl, fmu, hload', rfl⟩,
        ih hproxy.2 hnames.2 h⟩

theorem build_of_keeps {structureValue : Value} {s : System} (hd : d.Proper)
    (hkeeps : Disk.Keeps names d e)
    (hproxy : ∀ e ∈ block structureValue "components", ∀ entry,
      ComponentEntry.ofValue? e.2 = some entry → entry.Unproxied tool)
    (hnames : ∀ e ∈ block structureValue "components", ∀ entry,
      ComponentEntry.ofValue? e.2 = some entry →
        ∀ name, Path.fileName? (Path.join folder entry.fmu) = some name → ¬ names name)
    (h : build folder tool structureValue d = .ok s d') :
  build folder tool structureValue e = .ok s e
  := by
  obtain ⟨hcomponents, hconnections⟩ := build_eq_ok.mp h
  exact build_eq_ok.mpr ⟨addComponents_of_keeps hd hkeeps hproxy hnames hcomponents, hconnections⟩

end System

end Cosim
