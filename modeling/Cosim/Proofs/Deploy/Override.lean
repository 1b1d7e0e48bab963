import Cosim.Deploy.OspStructure
import Cosim.Proofs.System.Entry

/-!
# Initial values

Every override with a start value is deployed as an initial value, turned towards the declared data
type of its variable.  An initial value that is imported as an override is deployed again as it is.
-/

namespace Cosim

namespace Component

variable {declared : Entries Variable} {key : String} {v : Variable}

/-- A start value turned towards the declared data type of its variable. -/
def startIn (declared : Entries Variable) (key : String) (start : Start) : Start :=
  match (declared.get? key).bind (·.dataType) with
  | none => start
  | some type => start.coerce type

theorem startIn_startIn (start : Start) :
  startIn declared key (startIn declared key start) = startIn declared key start
  := by
  unfold startIn
  split
  · rfl
  · apply Start.coerce_coerce

theorem isStored_startIn {start : Start} (h : start.IsStored) :
  (startIn declared key start).IsStored
  := by
  unfold startIn
  split
  · apply h
  · apply Start.isStored_coerce h

/-- The initial value of a variable with a data type that its start value fits. -/
theorem initialValue?_of_fits {start : Start} {type : DataType} (hstart : v.start = some start)
    (htype : v.dataType = some type) (hfits : fits start type = true) :
  v.initialValue? = some ⟨v.name, start⟩
  := by
  simp only [Variable.initialValue?, hstart, htype, Option.bind_eq_bind, Option.bind_some,
    Start.coerce_of_fits hfits]
  cases start with
  | text s =>
    have hstring : (type == .string) = true := by
      cases type <;> first | rfl | cases hfits
    simp only [hstring]
    rfl
  | _ => rfl

theorem initialValue?_of_dataType {start : Start} (hstart : v.start = some start)
    (htype : v.dataType = some start.dataType) :
  v.initialValue? = some ⟨v.name, start⟩
  := by
  apply initialValue?_of_fits hstart htype
  simp [fits]

theorem alignIn_start (declared : Entries Variable) (key : String) (v : Variable) :
  (alignIn declared key v).start = v.start.map (startIn declared key)
  := by
  rw [alignIn]
  unfold startIn
  cases hget : declared.get? key with
  | none => simp
  | some w =>
    simp only [Option.bind_some, align]
    cases hw : w.dataType with
    | none => simp
    | some type => cases v.start <;> simp

/-- An aligned override is deployed exactly if it has a start value. -/
theorem initialValue?_alignIn (declared : Entries Variable) (key : String) (h : v.IsOverride) :
  (alignIn declared key v).initialValue? =
    v.start.map fun start => ⟨v.name, startIn declared key start⟩
  := by
  cases hstart : v.start with
  | none =>
    have hnone : (alignIn declared key v).start = none := by
      rw [alignIn_start, hstart, Option.map_none]
    rw [Variable.initialValue?, hnone]
    rfl
  | some start =>
    have htype : v.dataType = some start.dataType := by rw [h.dataType_eq, hstart, Option.map_some]
    rw [Option.map_some, alignIn, startIn]
    cases hget : declared.get? key with
    | none => apply initialValue?_of_dataType hstart htype
    | some w =>
      simp only [Option.bind_some, align]
      cases hw : w.dataType with
      | none => apply initialValue?_of_dataType hstart htype
      | some type =>
        simp only [hstart, htype, Option.getD_some]
        cases hfits : fits (start.coerce type) type with
        | true =>
          apply initialValue?_of_fits rfl _ hfits
          rw [if_pos rfl]
        | false =>
          have hsame := (Start.fits_coerce start type).resolve_left (by simp [hfits])
          rw [hsame]
          apply initialValue?_of_dataType rfl
          rfl

/-! ## Deployed initial values -/

/-- What holds of the initial values of a deployed component: they are for different variables, and
stay as they are when they are turned towards the declared data types again. -/
structure Settled (declared : Entries Variable) (values : List Osp.InitialValue) : Prop where
  nodup : (values.map (·.name)).Nodup
  stored : ∀ v ∈ values, v.value.IsStored
  fixed : ∀ v ∈ values, startIn declared v.name v.value = v.value

/-- The initial values that overrides of different variables leave. -/
theorem initialValues_applyOverrides {overrides : Entries Variable}
    (hkeys : overrides.keys.Nodup) (hoverrides : ∀ e ∈ overrides, e.2.IsOverride) :
  (applyOverrides declared overrides).1.values.filterMap Variable.initialValue? =
    overrides.filterMap fun e =>
      e.2.start.map fun start => ⟨e.2.name, startIn declared e.1 start⟩
  := by
  rw [applyOverrides_initial hkeys, Entries.values, List.map_map, List.filterMap_map]
  apply List.filterMap_congr
  intro e he
  apply initialValue?_alignIn declared e.1 (hoverrides e he)

theorem settled_initialValues {overrides : Entries Variable} (hkeys : overrides.keys.Nodup)
    (hoverrides : ∀ e ∈ overrides, e.2.IsOverride) (hnamed : Variable.Named overrides) :
  Settled declared
    ((applyOverrides declared overrides).1.values.filterMap Variable.initialValue?)
  := by
  rw [initialValues_applyOverrides hkeys hoverrides]
  constructor
  · apply Entries.nodup_map_filterMap hkeys
    intro e he v hv
    obtain ⟨start, -, rfl⟩ := Option.map_eq_some_iff.mp hv
    apply hnamed e he
  · intro v hv
    obtain ⟨e, he, hmap⟩ := List.mem_filterMap.mp hv
    obtain ⟨start, hstart, rfl⟩ := Option.map_eq_some_iff.mp hmap
    apply isStored_startIn ((hoverrides e he).stored start hstart)
  · intro v hv
    obtain ⟨e, he, hmap⟩ := List.mem_filterMap.mp hv
    obtain ⟨start, hstart, rfl⟩ := Option.map_eq_some_iff.mp hmap
    simp only [hnamed e he, startIn_startIn]

end Component

/-- An imported initial value is deployed as it is. -/
theorem Component.initialValue?_imported {declared : Entries Variable} {v : Osp.InitialValue}
    (hstored : v.value.IsStored) (hfixed : startIn declared v.name v.value = v.value) :
  (alignIn declared v.name ((Variable.named v.name).setStart v.value)).initialValue? = some v
  := by
  have hoverride : ((Variable.named v.name).setStart v.value).IsOverride := by
    refine ⟨rfl, ?_⟩
    rintro start hstart
    cases hstart
    apply hstored
  rw [initialValue?_alignIn declared v.name hoverride]
  simp only [Variable.setStart, Variable.named, Option.map_some, hfixed]

end Cosim
