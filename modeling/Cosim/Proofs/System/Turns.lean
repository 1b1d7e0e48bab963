import Cosim.Proofs.System.Builder

/-!
# Builds turn by turn

A build takes one turn for every well-formed record of a component, in the order of the records.  A
turn opens the FMU of the record, lets the tool make a proxy of it where the record asks for one,
and puts the component under its name.  A build succeeds exactly if all its turns do.
-/

namespace Cosim

/-- The well-formed records of a block of components. -/
def ComponentEntry.ofBlock (block : Dictionary) : Entries ComponentEntry :=
  block.filterMap fun (name, v) => (ComponentEntry.ofValue? v).map (name, ·)

namespace System

/-- The well-formed records of the components of a structure. -/
def records (structureValue : Value) : Entries ComponentEntry :=
  ComponentEntry.ofBlock (block structureValue "components")

/-- One turn of a build. -/
structure Turn where
  name : String
  entry : ComponentEntry
  /-- the FMU that was opened for the record -/
  opened : Fmu
  component : Component

namespace Turn

def record (t : Turn) : String × ComponentEntry := (t.name, t.entry)

/-- The component under the name that it is put under. -/
def named (t : Turn) : String × Component := (t.component.name, t.component)

/-- Whether a proxy was generated: the component has another file than the FMU that was opened. -/
def isProxied (t : Turn) : Bool :=
  !(Path.parts t.component.fmu.file == Path.parts t.opened.file)

/-- A turn that succeeds on a disk, and the disk behind it. -/
structure Runs (folder : String) (tool : ProxyTool) (d : Disk) (t : Turn) (d' : Disk) : Prop where
  opens : Fmu.load (fmuPath d folder t.entry.fmu) d = .ok t.opened d
  gives : ∃ finalName fmu, proxied t.name t.opened t.entry tool d = .ok (finalName, fmu) d' ∧
    t.component = componentOf finalName fmu t.entry

end Turn

/-- Turns that succeed one after another. -/
inductive Runs (folder : String) (tool : ProxyTool) : Disk → List Turn → Disk → Prop where
  | nil (d : Disk) : Runs folder tool d [] d
  | cons {d d' d'' : Disk} {t : Turn} {turns : List Turn} :
    t.Runs folder tool d d' → Runs folder tool d' turns d'' → Runs folder tool d (t :: turns) d''

variable {folder name : String} {tool : ProxyTool} {d d' : Disk} {t : Turn} {turns : List Turn}

/-! ## Single turns -/

theorem component_eq_ok_iff_runs {entry : ComponentEntry} {c : Component} :
  component folder tool name entry d = .ok c d' ↔
    ∃ opened, Turn.Runs folder tool d ⟨name, entry, opened, c⟩ d'
  := by
  rw [component, Action.get_bind, Action.get_bind]
  constructor
  · intro h
    split at h
    · simp only [Action.bind_eq_ok, Action.throw_ne_ok, false_and, exists_false] at h
    · simp only [Action.bind_eq_ok, Action.pure_eq_ok] at h
      obtain ⟨opened, _, hload, ⟨finalName, fmu⟩, _, hproxied, rfl, rfl⟩ := h
      obtain ⟨-, -, rfl⟩ := Fmu.load_eq_ok hload
      exact ⟨opened, hload, finalName, fmu, hproxied, rfl⟩
  · rintro ⟨opened, hload, finalName, fmu, hproxied, hcomponent⟩
    rw [if_neg (by simp [(Fmu.load_eq_ok hload).1])]
    simp only [Action.bind_eq_ok, Action.pure_eq_ok]
    exact ⟨opened, d, hload, (finalName, fmu), d', hproxied, hcomponent.symm, rfl⟩

/-- Where the tool makes an FMU, it takes the place of the other one. -/
theorem proxify_of_ok {fmu proxy : Fmu} {host : String} {portNumber : Nat}
    (htool : tool fmu.file host portNumber d = .ok proxy.file d')
    (hproxy : Fmu.load proxy.file d' = .ok proxy d') :
  fmu.proxify host portNumber tool d = .ok proxy d'
  := Action.tryCatch_of_ok ((Action.bind_of_ok htool).trans hproxy)

/-- Where the tool fails, the FMU stays what it was. -/
theorem proxify_of_error {fmu : Fmu} {host : String} {portNumber : Nat} {u : Failure}
    (htool : tool fmu.file host portNumber d = .error u d') :
  fmu.proxify host portNumber tool d = .ok fmu d'
  := by
  rw [Fmu.proxify, Action.tryCatch_of_error (Action.bind_of_error htool)]
  rfl

/-- A record either asks for no proxy, and then nothing is done, or the FMU is replaced, and the
name tells whether it is by another one. -/
theorem proxied_cases {fmu final : Fmu} {entry : ComponentEntry} {finalName : String}
    (h : proxied name fmu entry tool d = .ok (finalName, final) d') :
  ((entry.generateProxy = false ∨ entry.address? = none) ∧
    finalName = name ∧ final = fmu ∧ d' = d) ∨
  ∃ address, entry.generateProxy = true ∧ entry.address? = some address ∧
    fmu.proxify address.host address.portNumber tool d = .ok final d' ∧
    finalName = if Path.parts final.file == Path.parts fmu.file then name else name ++ "-proxy"
  := by
  have hpure {first : String} {second : Fmu} {e : Disk}
      (h : (pure (first, second) : Action (String × Fmu)) e = .ok (finalName, final) d') :
      finalName = first ∧ final = second ∧ d' = e := by
    obtain ⟨heq, rfl⟩ := Action.pure_eq_ok.mp h
    cases heq
    exact ⟨rfl, rfl, rfl⟩
  rw [proxied] at h
  cases hflag : entry.generateProxy with
  | false =>
    rw [hflag] at h
    exact .inl ⟨.inl rfl, hpure h⟩
  | true =>
    cases haddress : entry.address? with
    | none =>
      rw [hflag, haddress] at h
      exact .inl ⟨.inr rfl, hpure h⟩
    | some address =>
      rw [hflag, haddress] at h
      simp only [Action.bind_eq_ok] at h
      obtain ⟨proxy, _, hproxify, h⟩ := h
      refine .inr ⟨address, rfl, rfl, ?_⟩
      split at h
      · rename_i hsame
        obtain ⟨rfl, rfl, rfl⟩ := hpure h
        exact ⟨hproxify, (if_pos hsame).symm⟩
      · rename_i hother
        obtain ⟨rfl, rfl, rfl⟩ := hpure h
        exact ⟨hproxify, (if_neg hother).symm⟩

namespace Turn.Runs

/-- The component of a turn is made of the FMU that stands for the one that was opened. -/
theorem exists_proxied (h : t.Runs folder tool d d') :
  ∃ finalName,
    proxied t.name t.opened t.entry tool d = .ok (finalName, t.component.fmu) d' ∧
    t.component = componentOf finalName t.component.fmu t.entry
  := by
  obtain ⟨-, finalName, fmu, hproxied, hcomponent⟩ := h
  have hfmu : t.component.fmu = fmu := by
    rw [hcomponent]
    rfl
  rw [hfmu]
  exact ⟨finalName, hproxied, hcomponent⟩

/-- The component of a turn stands under the name of the record, which has a suffix if a proxy was
generated. -/
theorem component_eq (h : t.Runs folder tool d d') :
  t.component =
    componentOf (if t.isProxied then t.name ++ "-proxy" else t.name) t.component.fmu t.entry
  := by
  obtain ⟨finalName, hproxied, hcomponent⟩ := h.exists_proxied
  have hname : finalName = if t.isProxied then t.name ++ "-proxy" else t.name := by
    rw [isProxied]
    obtain ⟨-, rfl, hfmu, -⟩ | ⟨address, -, -, -, rfl⟩ := proxied_cases hproxied
    · simp [hfmu]
    · cases Path.parts t.component.fmu.file == Path.parts t.opened.file <;> rfl
  rw [← hname]
  exact hcomponent

theorem name_eq (h : t.Runs folder tool d d') :
  t.component.name = if t.isProxied then t.name ++ "-proxy" else t.name
  := by
  rw [h.component_eq]
  rfl

end Turn.Runs

/-- A turn whose record asks for no proxy. -/
theorem Turn.runs_of_load {entry : ComponentEntry} {fmu : Fmu} (hflag : entry.generateProxy = false)
    (hload : Fmu.load (fmuPath d folder entry.fmu) d = .ok fmu d) :
  Turn.Runs folder tool d ⟨name, entry, fmu, componentOf name fmu entry⟩ d
  := by
  refine ⟨hload, name, fmu, ?_, rfl⟩
  rw [proxied, hflag]
  rfl

/-- A turn in which the tool makes a proxy. -/
theorem Turn.runs_of_tool {entry : ComponentEntry} {host : String} {portNumber : Nat}
    {fmu proxy : Fmu} (hflag : entry.generateProxy = true)
    (haddress : entry.address? = some ⟨host, portNumber⟩)
    (hload : Fmu.load (fmuPath d folder entry.fmu) d = .ok fmu d)
    (htool : tool fmu.file host portNumber d = .ok proxy.file d')
    (hproxy : Fmu.load proxy.file d' = .ok proxy d')
    (hother : (Path.parts proxy.file == Path.parts fmu.file) = false) :
  Turn.Runs folder tool d ⟨name, entry, fmu, componentOf (name ++ "-proxy") proxy entry⟩ d'
  := by
  refine ⟨hload, name ++ "-proxy", proxy, ?_, rfl⟩
  simp only [proxied, hflag, haddress, Action.bind_of_ok (proxify_of_ok htool hproxy), hother]
  rfl

/-! ## All turns -/

/-- What holds of every turn that succeeds holds of all turns of a run. -/
theorem Runs.forall_mem {P : Turn → Prop} (h : Runs folder tool d turns d')
    (hturn : ∀ t d d', t.Runs folder tool d d' → P t) :
  ∀ t ∈ turns, P t
  := by
  induction h with
  | nil d => apply List.forall_mem_nil
  | cons hfirst _ ih =>
    rw [List.forall_mem_cons]
    exact ⟨hturn _ _ _ hfirst, ih⟩

theorem addComponents_eq_ok_iff {components added : Entries Component} {block : Dictionary} :
  addComponents folder tool components block d = .ok added d' ↔
    ∃ turns : List Turn, turns.map Turn.record = ComponentEntry.ofBlock block ∧
      Runs folder tool d turns d' ∧
      (turns.map Turn.named).foldl (fun es e => es.put e.1 e.2) components = added
  := by
  induction block generalizing components d with
  | nil =>
    rw [addComponents, Action.pure_eq_ok]
    constructor
    · rintro ⟨rfl, rfl⟩
      exact ⟨[], rfl, .nil d, rfl⟩
    · rintro ⟨turns, hrecords, hruns, rfl⟩
      obtain rfl := List.map_eq_nil_iff.mp hrecords
      cases hruns
      exact ⟨rfl, rfl⟩
  | cons e block ih =>
    obtain ⟨name, v⟩ := e
    rw [addComponents, ComponentEntry.ofBlock]
    cases hentry : ComponentEntry.ofValue? v with
    | none =>
      rw [List.filterMap_cons_none (by simp only [hentry, Option.map_none])]
      apply ih
    | some entry =>
      rw [List.filterMap_cons_some (b := (name, entry)) (by simp only [hentry, Option.map_some]),
        Action.bind_eq_ok, ← ComponentEntry.ofBlock]
      constructor
      · rintro ⟨c, d₁, hc, h⟩
        obtain ⟨opened, hturn⟩ := component_eq_ok_iff_runs.mp hc
        obtain ⟨turns, hrecords, hruns, hadded⟩ := ih.mp h
        refine ⟨⟨name, entry, opened, c⟩ :: turns, ?_, .cons hturn hruns, hadded⟩
        rw [List.map_cons, hrecords]
        rfl
      · rintro ⟨turns, hrecords, hruns, hadded⟩
        cases hruns with
        | nil d => cases hrecords
        | @cons _ d₁ _ t turns hturn hruns =>
          obtain ⟨hrecord, hmore⟩ := List.cons.inj hrecords
          cases hrecord
          exact ⟨t.component, d₁, component_eq_ok_iff_runs.mpr ⟨t.opened, hturn⟩,
            ih.mpr ⟨turns, hmore, hruns, hadded⟩⟩

theorem build_of_runs {structureValue : Value} {s : System}
    (hrecords : turns.map Turn.record = records structureValue) (hruns : Runs folder tool d turns d')
    (hcomponents : Entries.ofPairs (turns.map Turn.named) = s.components)
    (hconnections : Entries.ofPairs ((block structureValue "connections").filterMap
      fun (name, v) => (connection? s.components name v).map (name, ·)) = s.connections) :
  build folder tool structureValue d = .ok s d'
  := build_eq_ok.mpr
    ⟨addComponents_eq_ok_iff.mpr ⟨turns, hrecords, hruns, hcomponents⟩, hconnections⟩

/-- The components of a system that was built are those of the turns, put one after another. -/
theorem exists_runs_of_build {structureValue : Value} {s : System}
    (h : build folder tool structureValue d = .ok s d') :
  ∃ turns : List Turn, turns.map Turn.record = records structureValue ∧
    Runs folder tool d turns d' ∧ s.components = Entries.ofPairs (turns.map Turn.named)
  := by
  obtain ⟨hcomponents, -⟩ := build_eq_ok.mp h
  obtain ⟨turns, hrecords, hruns, hadded⟩ := addComponents_eq_ok_iff.mp hcomponents
  exact ⟨turns, hrecords, hruns, hadded.symm⟩

end System

end Cosim
