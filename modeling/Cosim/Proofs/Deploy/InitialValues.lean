import Cosim.Proofs.Deploy.Override
import Cosim.Proofs.Deploy.Wiring
import Cosim.Proofs.Osp.Structure
import Cosim.Proofs.System.Turns
import Cosim.Proofs.Xml.RoundTrip

/-!
# Initial values that records state

Every entry of overrides that is well-formed and states a boolean, a number or a text is deployed as
one initial value, and nothing else is.  Where the value can be turned into one of the data type
that the FMU declares, the element has that type and holds the value that was turned.  Otherwise it
holds the stated value in its own type.
-/

namespace Cosim

/-! ## What entries of overrides state -/

/-- Whether a value is a boolean, a number or a text. -/
def Value.isScalar : Value → Bool
  | .bool _ => true
  | .number _ => true
  | .text _ => true
  | _ => false

/-- A value is a start value exactly if it is a scalar. -/
theorem Start.isSome_ofValue? (v : Value) :
  (ofValue? v).isSome = v.isScalar
  := by
  cases v with
  | number n => cases n <;> rfl
  | _ => rfl

namespace Variable

/-- Whether an entry of overrides is well-formed and states a scalar. -/
def isStated (e : String × Value) : Bool :=
  (ofOverride? e.1 e.2).isSome && e.2.stated?.any Value.isScalar

/-- The start value that an entry of overrides states. -/
def stated? (e : String × Value) : Option Start :=
  if isStated e then e.2.stated?.bind Start.ofValue? else none

/-- An override states a start value exactly if it is found to. -/
theorem isSome_stated? (e : String × Value) :
  (stated? e).isSome = isStated e
  := by
  rw [stated?]
  cases h : isStated e with
  | false => rfl
  | true =>
    rw [isStated, Bool.and_eq_true, Option.any_eq_true] at h
    obtain ⟨-, v, hv, hscalar⟩ := h
    rw [if_pos rfl, hv, Option.bind_some, Start.isSome_ofValue?, hscalar]

/-- The start value of an override that can be read. -/
theorem start_of_ofOverride? {key : String} {v : Value} {w : Variable}
    (h : ofOverride? key v = some w) :
  w.start = v.stated?.bind Start.ofValue?
  := by
  obtain ⟨plain, -, -, hplain, rfl⟩ := exists_of_ofOverride? h
  cases v.stated?.bind Start.ofValue? with
  | none => exact hplain
  | some start => rfl

/-- What is read of an entry of overrides has the start value that the entry states. -/
theorem bind_start_ofOverride? (e : String × Value) :
  (ofOverride? e.1 e.2).bind (·.start) = stated? e
  := by
  cases hread : ofOverride? e.1 e.2 with
  | none => simp [stated?, isStated, hread]
  | some w =>
    rw [Option.bind_some, start_of_ofOverride? hread, stated?, isStated, hread]
    cases e.2.stated? with
    | none => rfl
    | some v =>
      simp [← Start.isSome_ofValue?]

end Variable

/-- The start values that the overrides of a record state. -/
def ComponentEntry.stated (entry : ComponentEntry) : Entries Start :=
  entry.overrides.filterMap fun e => (Variable.stated? e).map (e.1, ·)

/-- There is one for every entry that states a scalar, in order. -/
theorem ComponentEntry.keys_stated (entry : ComponentEntry) :
  entry.stated.keys = Entries.keys (entry.overrides.filter Variable.isStated)
  := by
  rw [stated]
  induction entry.overrides with
  | nil => rfl
  | cons e es ih =>
    have hstated := Variable.isSome_stated? e
    cases hstart : Variable.stated? e with
    | none =>
      rw [hstart, Option.isSome_none] at hstated
      rw [List.filterMap_cons_none (by rw [hstart, Option.map_none]),
        List.filter_cons_of_neg (by simp [← hstated]), ih]
    | some start =>
      rw [hstart, Option.isSome_some] at hstated
      rw [List.filterMap_cons_some (b := (e.1, start)) (by rw [hstart, Option.map_some]),
        List.filter_cons_of_pos hstated.symm, Entries.keys_cons, Entries.keys_cons, ih]

/-! ## Elements -/

/-- The data type of the elements that hold values of a data type: an enumeration value is an
integer. -/
def DataType.held : DataType → DataType
  | .enumeration => .integer
  | type => type

/-- What is deployed for a start value of a variable: the data type of the element and its value. -/
def Start.deployed (declared : Option DataType) (start : Start) : DataType × Start :=
  match declared with
  | none => (start.dataType, start)
  | some type =>
    if (start.coerce type).dataType = type.held then (type.held, start.coerce type)
    else (start.dataType, start)

/-- A start value fits a type exactly if it is of the type in which values of that are held. -/
theorem Start.fits_iff {start : Start} {type : DataType} :
  Component.fits start type = true ↔ start.dataType = type.held
  := by
  cases start <;> cases type <;> simp [Component.fits, dataType, DataType.held]

/-- A deployed start value has the type that is deployed with it. -/
theorem Start.dataType_deployed (declared : Option DataType) (start : Start) :
  (start.deployed declared).2.dataType = (start.deployed declared).1
  := by
  unfold deployed
  split
  · rfl
  · split
    · assumption
    · rfl

namespace Component

/-- The data type that the FMU declares for a variable. -/
def declaredType? (c : Component) (name : String) : Option DataType :=
  (c.fmu.description.scalarVariables.get? name).bind (·.dataType)

/-- A start value of a component is deployed for the type that the FMU declares. -/
theorem startIn_eq (c : Component) (key : String) (start : Start) :
  startIn c.fmu.description.scalarVariables key start = (start.deployed (c.declaredType? key)).2
  := by
  rw [startIn, declaredType?]
  cases (c.fmu.description.scalarVariables.get? key).bind (·.dataType) with
  | none => rfl
  | some type =>
    by_cases hheld : (start.coerce type).dataType = type.held
    · simp only [Start.deployed, if_pos hheld]
    · simp only [Start.deployed, if_neg hheld]
      exact (Start.fits_coerce start type).resolve_left (mt Start.fits_iff.mp hheld)

/-- The initial values of a component are those that its record states. -/
theorem values_simulator {name : String} {fmu : Fmu} {entry : ComponentEntry}
    (hkeys : entry.overrides.keys.Nodup) :
  (System.componentOf name fmu entry).simulator.values =
    entry.stated.map fun e =>
      ⟨e.1, (e.2.deployed ((System.componentOf name fmu entry).declaredType? e.1)).2⟩
  := by
  have hinitial : (System.componentOf name fmu entry).simulator.values =
      (applyOverrides fmu.description.scalarVariables entry.initial).1.values.filterMap
        Variable.initialValue? := getD_unlessEmpty _
  rw [hinitial, initialValues_applyOverrides (ComponentEntry.nodup_initial hkeys)
    entry.isOverride_initial, ComponentEntry.initial, ComponentEntry.stated,
    List.filterMap_filterMap, List.map_filterMap]
  apply List.filterMap_congr
  rintro ⟨key, v⟩ _
  rw [← Variable.bind_start_ofOverride?]
  cases hread : Variable.ofOverride? key v with
  | none => simp only [hread, Option.map_none, Option.bind_none]
  | some w =>
    simp only [hread, Option.map_some, Option.bind_some, Option.map_map,
      Variable.ofOverride?_name hread, Function.comp_def]
    simp only [← startIn_eq]
    rfl

end Component

/-! ## Built systems -/

namespace System

variable {folder : String} {tool : ProxyTool} {structureValue : Value} {d d' : Disk} {s : System}

/-- The overrides of the records of a keyed structure are for different variables. -/
theorem nodup_overrides {turns : List Turn} (hkeyed : structureValue.Keyed)
    (hrecords : turns.map Turn.record = records structureValue) :
  ∀ t ∈ turns, t.entry.overrides.keys.Nodup
  := by
  intro t ht
  have hmem : t.record ∈ records structureValue := hrecords ▸ List.mem_map_of_mem ht
  obtain ⟨e, he, hrecord⟩ := List.mem_filterMap.mp hmem
  obtain ⟨entry, hentry, heq⟩ := Option.map_eq_some_iff.mp hrecord
  obtain ⟨-, rfl⟩ := Prod.mk.inj heq
  exact ComponentEntry.nodup_overrides (keyed_block hkeyed e he) hentry

end System

/-! ## A model with typed variables -/

namespace Fmu

/-- The description of a model with a variable of every data type but one. -/
def typedRoot : Xml.Element :=
  let declared (name type : String) : Xml.Node :=
    .element "ScalarVariable" [("name", name)] [.element type [] []]
  ⟨"fmiModelDescription", [], [.element "ModelVariables" []
    [declared "gain" "Real", declared "isOn" "Boolean", declared "mode" "Enumeration",
      declared "label" "String"]]⟩

theorem wellFormed_typedRoot :
  typedRoot.WellFormed
  := by
  have htag {name : String} (h : Xml.IsName name.toList) : Xml.Tag.WellFormed ⟨name, []⟩ :=
    ⟨⟨h, List.forall_mem_nil _⟩, List.nodup_nil⟩
  have hvariable : Xml.IsName "ScalarVariable".toList := Xml.isName_of_all (by decide)
  have hkey : Xml.IsName "name".toList := Xml.isName_of_all (by decide)
  have hdeclared (name : String) {type : String} (h : Xml.IsName type.toList) :
      (Xml.Node.element "ScalarVariable" [("name", name)] [.element type [] []]).WellFormed :=
    .element ⟨⟨hvariable, List.forall_mem_singleton.mpr hkey⟩, List.nodup_singleton _⟩
      (List.forall_mem_singleton.mpr (.element (htag h) (List.forall_mem_nil _)))
  refine .element (htag (Xml.isName_of_all (by decide)))
    (List.forall_mem_singleton.mpr (.element (htag (Xml.isName_of_all (by decide))) ?_))
  refine List.forall_mem_cons.mpr ⟨hdeclared _ (Xml.isName_of_all ?_),
    List.forall_mem_cons.mpr ⟨hdeclared _ (Xml.isName_of_all ?_),
      List.forall_mem_cons.mpr ⟨hdeclared _ (Xml.isName_of_all ?_),
        List.forall_mem_singleton.mpr (hdeclared _ (Xml.isName_of_all ?_))⟩⟩⟩
  all_goals decide

def typed : Fmu := ⟨"/typed.fmu", ⟨typedRoot⟩⟩

def typedDisk : Disk where
  items :=
    [(["typed.fmu"], .file (.archive [(descriptionEntry, .ofText typedRoot.render)]) false)]
  current := []

theorem load_typed :
  load "/typed.fmu" typedDisk = .ok typed typedDisk
  := by
  have hfile : typedDisk.find? "/typed.fmu" =
    some (.file (.archive [(descriptionEntry, .ofText typedRoot.render)]) false) := rfl
  have hnorm : typedRoot.norm = typedRoot := rfl
  apply load_of_find? hfile rfl
  rw [Description.parse, Xml.Element.parse_render_eq wellFormed_typedRoot, hnorm]
  rfl

end Fmu

namespace System

/-- The overrides of the component of `tuning`. -/
def tuningOverrides : Entries Value :=
  [("gain", .number (.int 3)), ("isOn", .object [("start", .number (.int 1))]),
    ("mode", .text "2"), ("label", .number (.int 5)), ("other", .text "x"),
    ("broken", .object [("causality", .bool true), ("start", .number (.int 1))]),
    ("items", .list [])]

/-- A component with overrides of many kinds. -/
def tuning : Value :=
  .object [("components", .object [
    ("unit", .object [("fmu", .text "typed.fmu"), ("initialize", .object tuningOverrides)])])]

def tunedEntry : ComponentEntry := ⟨"typed.fmu", none, false, none, tuningOverrides, []⟩

/-- The system of `tuning`. -/
def tuned : System := ⟨[("unit", componentOf "unit" Fmu.typed tunedEntry)], []⟩

theorem build_tuning (tool : ProxyTool) :
  build "/" tool tuning Fmu.typedDisk = .ok tuned Fmu.typedDisk
  := by
  have hpath : fmuPath Fmu.typedDisk "/" "typed.fmu" = "/typed.fmu" := by decide +kernel
  have hload : Fmu.load (fmuPath Fmu.typedDisk "/" tunedEntry.fmu) Fmu.typedDisk =
      .ok Fmu.typed Fmu.typedDisk := by
    rw [show tunedEntry.fmu = "typed.fmu" from rfl, hpath]
    exact Fmu.load_typed
  have hruns : Runs "/" tool Fmu.typedDisk
      [⟨"unit", tunedEntry, Fmu.typed, componentOf "unit" Fmu.typed tunedEntry⟩] Fmu.typedDisk :=
    .cons (Turn.runs_of_load rfl hload) (.nil _)
  exact build_of_runs rfl hruns rfl rfl

theorem keyed_tuning :
  tuning.Keyed
  := Value.keyed_of_isKeyed (by decide)

/-- The malformed record and the list are passed over, and the number stays what it is where a text
is declared. -/
example :
  (componentOf "unit" Fmu.typed tunedEntry).simulator.values =
    [⟨"gain", .real (Double.ofInt 3)⟩, ⟨"isOn", .bool true⟩, ⟨"mode", .int 2⟩, ⟨"label", .int 5⟩,
      ⟨"other", .text "x"⟩]
  := by decide +kernel

end System

end Cosim
