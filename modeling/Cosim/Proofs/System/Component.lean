import Cosim.Proofs.Entries
import Cosim.System.Entry

/-!
# What components are made of

The overrides of a component are aligned one by one with the declarations of the FMU, which keeps
the names of all variables, and a connector that exposes a variable exposes a declared one.
-/

namespace Cosim

/-- Every variable stands under its own name. -/
def Variable.Named (es : Entries Variable) : Prop := ∀ e ∈ es, e.2.name = e.1

/-- Variables stay under their names when one is put under its own. -/
theorem Variable.named_put {es : Entries Variable} {key : String} {v : Variable}
    (h : Variable.Named es) (hv : v.name = key) :
  Variable.Named (es.put key v)
  := by
  intro e he
  obtain rfl | he := Entries.mem_put he
  · apply hv
  · apply h e he

/-- The variables of a description stand under their names. -/
theorem Variable.named_scalarVariables (d : Description) :
  Variable.Named d.scalarVariables
  := by
  rw [Description.scalarVariables]
  split
  · simp [Variable.Named]
  · intro e he
    have hmem := Entries.mem_of_mem_ofPairs he
    rw [List.mem_filterMap] at hmem
    obtain ⟨element, -, helement⟩ := hmem
    rw [Option.map_eq_some_iff] at helement
    obtain ⟨v, -, rfl⟩ := helement
    rfl

/-- The variables of a description have different names. -/
theorem Description.nodup_scalarVariables (d : Description) :
  d.scalarVariables.keys.Nodup
  := by
  rw [scalarVariables]
  split
  · apply List.nodup_nil
  · apply Entries.nodup_keys_ofPairs

/-! ## Overrides in dictionaries -/

/-- A plain field is looked up under its key. -/
theorem Dictionary.fieldOf?_plain (es : Dictionary) (key : String) :
  fieldOf? es (.plain key) = some (es.get? key)
  := by
  rw [fieldOf?, Field.plain, List.filterMap_cons, List.filterMap_nil]
  cases Entries.get? es key <;> rfl

/-- The fields of an object that all stand under one key. -/
theorem Dictionary.record?_plain (keys : List String) (es : Dictionary) :
  record? (keys.map Field.plain) (.object es) = some (keys.map es.get?)
  := by
  rw [record?, List.mapM_map]
  exact mapM_eq_some fun key _ => fieldOf?_plain es key

/-- The value that is to be the start value: the value itself, or what an object has for it. -/
def Value.stated? : Value → Option Value
  | .object es => Entries.get? es "start"
  | v => some v

/-- A null is no start value, so it need not be told from a value that is not there. -/
theorem Start.bind_optionalValue (v : Option Value) :
  (Dictionary.optionalValue v).bind ofValue? = v.bind ofValue?
  := by
  cases v with
  | none => rfl
  | some v => cases v <;> rfl

/-- An override is a variable of its key that has the stated start value, and no other. -/
theorem Variable.exists_of_ofOverride? {key : String} {v : Value} {w : Variable}
    (h : ofOverride? key v = some w) :
  ∃ plain : Variable, plain.name = key ∧ plain.dataType = none ∧ plain.start = none ∧
    w = (v.stated?.bind Start.ofValue?).elim plain plain.setStart
  := by
  cases v with
  | object es =>
    rw [ofOverride?, Dictionary.record?_plain] at h
    simp only [Option.bind_eq_bind, Option.bind_some, List.map_cons, List.map_nil,
      Option.bind_eq_some_iff, Option.pure_def, Option.some.injEq, Start.bind_optionalValue] at h
    obtain ⟨_, -, _, -, rfl⟩ := h
    exact ⟨_, rfl, rfl, rfl, rfl⟩
  | _ =>
    simp only [ofOverride?, Option.pure_def, Option.some.injEq] at h
    exact ⟨_, rfl, rfl, rfl, h.symm⟩

/-- An override has the name of its record. -/
theorem Variable.ofOverride?_name {key : String} {value : Value} {v : Variable}
    (h : Variable.ofOverride? key value = some v) :
  v.name = key
  := by
  obtain ⟨plain, hname, -, -, rfl⟩ := exists_of_ofOverride? h
  rw [← hname]
  cases value.stated?.bind Start.ofValue? <;> rfl

/-- The initial values of a record stand under their names. -/
theorem ComponentEntry.named_initial (e : ComponentEntry) :
  Variable.Named e.initial
  := by
  intro f hf
  rw [ComponentEntry.initial, List.mem_filterMap] at hf
  obtain ⟨⟨key, value⟩, -, hvalue⟩ := hf
  rw [Option.map_eq_some_iff] at hvalue
  obtain ⟨v, hv, rfl⟩ := hvalue
  apply Variable.ofOverride?_name hv

namespace Component

/-! ## Aligned overrides -/

/-- Aligning leaves the name of an override. -/
theorem align_name (declared override : Variable) :
  (align declared override).name = override.name
  := by
  rw [align]
  split
  · rfl
  · split <;> rfl

/-- The override of a variable under a key, aligned with its declaration if there is one. -/
def alignIn (declared : Entries Variable) (key : String) (override : Variable) : Variable :=
  match declared.get? key with
  | none => override
  | some v => align v override

/-- Overrides are applied one by one, each to the variable of its own name. -/
theorem applyOverrides_cons (declared : Entries Variable) (key : String) (override : Variable)
    (overrides : Entries Variable) :
  ∃ declared' : Entries Variable, declared'.keys = declared.keys ∧
    (∀ k, k ≠ key → declared'.get? k = declared.get? k) ∧
    (Variable.Named declared → Variable.Named declared') ∧
    applyOverrides declared ((key, override) :: overrides) =
      ((key, alignIn declared key override) :: (applyOverrides declared' overrides).1,
        (applyOverrides declared' overrides).2)
  := by
  rw [applyOverrides, alignIn]
  cases hget : declared.get? key with
  | none => exact ⟨declared, rfl, fun _ _ => rfl, id, rfl⟩
  | some v =>
    refine ⟨declared.put key (v.overlay (align v override)), ?_, ?_, ?_, rfl⟩
    · apply Entries.keys_put_of_mem
      apply Entries.mem_keys_of_mem (Entries.mem_of_get? hget)
    · intro k hk
      rw [Entries.get?_put, if_neg hk]
    · intro hnamed
      apply Variable.named_put hnamed
      apply hnamed _ (Entries.mem_of_get? hget)

/-- Overrides change no name of a declared variable and add none. -/
theorem keys_applyOverrides (declared overrides : Entries Variable) :
  (applyOverrides declared overrides).2.keys = declared.keys
  := by
  induction overrides generalizing declared with
  | nil => rfl
  | cons e overrides ih =>
    obtain ⟨declared', hkeys, -, -, heq⟩ := applyOverrides_cons declared e.1 e.2 overrides
    rw [heq, ih, hkeys]

/-- Overrides that are applied stand under their names, and so do the variables. -/
theorem named_applyOverrides {declared overrides : Entries Variable}
    (hdeclared : Variable.Named declared) (hoverrides : Variable.Named overrides) :
  Variable.Named (applyOverrides declared overrides).1 ∧
    Variable.Named (applyOverrides declared overrides).2
  := by
  induction overrides generalizing declared with
  | nil => exact ⟨hoverrides, hdeclared⟩
  | cons e overrides ih =>
    obtain ⟨declared', -, -, hnamed, heq⟩ := applyOverrides_cons declared e.1 e.2 overrides
    simp only [Variable.Named, List.forall_mem_cons] at hoverrides
    obtain ⟨hinitial, hfinal⟩ := ih (hnamed hdeclared) hoverrides.2
    rw [heq]
    refine ⟨?_, hfinal⟩
    simp only [Variable.Named, List.forall_mem_cons]
    refine ⟨?_, hinitial⟩
    rw [alignIn]
    split
    · apply hoverrides.1
    · rw [align_name, hoverrides.1]

/-- Overrides of different variables are aligned independently of each other. -/
theorem applyOverrides_initial {declared overrides : Entries Variable}
    (h : overrides.keys.Nodup) :
  (applyOverrides declared overrides).1 =
    overrides.map fun e => (e.1, alignIn declared e.1 e.2)
  := by
  induction overrides generalizing declared with
  | nil => rfl
  | cons e overrides ih =>
    obtain ⟨declared', -, hget, -, heq⟩ := applyOverrides_cons declared e.1 e.2 overrides
    rw [Entries.keys_cons, List.nodup_cons] at h
    rw [heq, ih h.2, List.map_cons, List.cons.injEq]
    refine ⟨rfl, ?_⟩
    apply List.map_congr_left
    intro f hf
    rw [alignIn, alignIn, hget]
    rintro hkey
    apply h.1
    rw [← hkey]
    apply List.mem_map_of_mem hf

/-- Applying leaves the names of the overrides. -/
theorem keys_applyOverrides_initial (declared overrides : Entries Variable) :
  (applyOverrides declared overrides).1.keys = overrides.keys
  := by
  induction overrides generalizing declared with
  | nil => rfl
  | cons e overrides ih =>
    obtain ⟨declared', -, -, -, heq⟩ := applyOverrides_cons declared e.1 e.2 overrides
    rw [heq, Entries.keys_cons, ih, Entries.keys_cons]

/-- A variable under the override of its name, if there is one. -/
def overlaidBy (overrides : Entries Variable) (key : String) (v : Variable) : Variable :=
  (overrides.get? key).elim v v.overlay

/-- Overrides of different variables are laid over the declared variables, each over its own. -/
theorem applyOverrides_final {declared overrides : Entries Variable}
    (hdeclared : declared.keys.Nodup) (h : overrides.keys.Nodup) :
  (applyOverrides declared overrides).2 =
    declared.map fun e => (e.1, overlaidBy (applyOverrides declared overrides).1 e.1 e.2)
  := by
  induction overrides generalizing declared with
  | nil => exact (List.map_id declared).symm
  | cons e overrides ih =>
    obtain ⟨key, override⟩ := e
    rw [Entries.keys_cons, List.nodup_cons] at h
    rw [applyOverrides]
    cases hget : declared.get? key with
    | none =>
      rw [ih hdeclared h.2]
      apply List.map_congr_left
      intro f hf
      have hne : f.1 ≠ key := by
        rintro rfl
        exact Entries.get?_eq_none_iff.mp hget (Entries.mem_keys_of_mem hf)
      rw [overlaidBy, overlaidBy, Entries.get?_cons, if_neg hne]
    | some v =>
      have hmem := Entries.mem_of_get? hget
      have hkey := Entries.mem_keys_of_mem hmem
      -- no later override changes the variable again
      have hlater (declared' : Entries Variable) :
          (applyOverrides declared' overrides).1.get? key = none := by
        rw [Entries.get?_eq_none_iff, keys_applyOverrides_initial]
        exact h.1
      simp only
      rw [ih (by rwa [Entries.keys_put_of_mem hkey]) h.2, Entries.put_of_mem hdeclared hkey,
        List.map_map]
      apply List.map_congr_left
      intro f hf
      rw [Function.comp_apply, overlaidBy, overlaidBy, Entries.get?_cons]
      by_cases hfkey : f.1 = key
      · obtain ⟨name, w⟩ := f
        obtain rfl : name = key := hfkey
        obtain rfl : w = v := Option.some.inj ((Entries.get?_of_mem hdeclared hf).symm.trans hget)
        rw [if_pos rfl, if_pos rfl, hlater]
        rfl
      · rw [if_neg hfkey, if_neg hfkey]

/-! ## Sound components -/

/-- What holds of every component of an FMU. -/
structure Sound (c : Component) : Prop where
  named_variables : Variable.Named c.scalarVariables
  named_initial : Variable.Named c.initial
  grounded : ∀ e ∈ c.connectors, ∀ name, e.2.boundVariable? = some name →
    c.scalarVariables.has name = true

/-- A component that is made of an FMU is sound. -/
theorem sound_ofFmu (name : String) (fmu : Fmu) {overrides : Entries Variable}
    (connectors : Entries Connector) (h : Variable.Named overrides) :
  (ofFmu name fmu overrides connectors).Sound
  := by
  obtain ⟨hinitial, hfinal⟩ :=
    named_applyOverrides (Variable.named_scalarVariables fmu.description) h
  refine ⟨hfinal, hinitial, ?_⟩
  intro e he variableName hbound
  have hgrounded := (List.mem_filter.mp he).2
  simp only [isGrounded, hbound] at hgrounded
  apply hgrounded

/-- A component that is made of an FMU declares the variables of the FMU. -/
theorem has_ofFmu (name : String) (fmu : Fmu) (overrides : Entries Variable)
    (connectors : Entries Connector) (key : String) :
  (ofFmu name fmu overrides connectors).scalarVariables.has key =
    fmu.description.scalarVariables.has key
  := by
  rw [Bool.eq_iff_iff, Entries.has_iff, Entries.has_iff, ofFmu, keys_applyOverrides]

/-- A variable that is found under a name has that name, and is declared or overridden. -/
theorem lookup?_eq_some {c : Component} {name : String} {v : Variable} (hsound : c.Sound)
    (h : c.lookup? name = some v) :
  v.name = name ∧ (c.scalarVariables.has name = true ∨ c.initial.has name = true)
  := by
  rw [lookup?, Option.or_eq_some_iff] at h
  obtain h | ⟨-, h⟩ := h
  · refine ⟨hsound.named_variables _ (Entries.mem_of_get? h), ?_⟩
    left
    rw [Entries.has, h, Option.isSome_some]
  · refine ⟨hsound.named_initial _ (Entries.mem_of_get? h), ?_⟩
    right
    rw [Entries.has, h, Option.isSome_some]

end Component

end Cosim
