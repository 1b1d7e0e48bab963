import Cosim.Proofs.Model.Start
import Cosim.Proofs.System.Component
import Cosim.System.Builder

/-!
# What records state

A value is keyed if no object in it has a key twice.  The parts of a keyed record are keyed, and the
overrides of its components are for different variables.  Each override has the data type of its
start value.
-/

namespace Cosim

/-- No object in a value has a key twice. -/
inductive Value.Keyed : Value → Prop where
  | null : Keyed .null
  | bool (b : Bool) : Keyed (.bool b)
  | number (n : Number) : Keyed (.number n)
  | text (s : String) : Keyed (.text s)
  | list {vs : List Value} : (∀ v ∈ vs, Keyed v) → Keyed (.list vs)
  | object {es : Dictionary} : es.keys.Nodup → (∀ e ∈ es, Keyed e.2) → Keyed (.object es)

mutual

/-- Whether no object in a value has a key twice. -/
def Value.isKeyed : Value → Bool
  | .list vs => areKeyed vs
  | .object es => decide (Entries.keys es).Nodup && haveKeyed es
  | _ => true

private def Value.areKeyed : List Value → Bool
  | [] => true
  | v :: vs => v.isKeyed && areKeyed vs

private def Value.haveKeyed : List (String × Value) → Bool
  | [] => true
  | (_, v) :: es => v.isKeyed && haveKeyed es

end

mutual

/-- A value that is found to be keyed is keyed. -/
theorem Value.keyed_of_isKeyed :
  ∀ {v : Value}, v.isKeyed = true → v.Keyed
  | .null, _ => .null
  | .bool b, _ => .bool b
  | .number n, _ => .number n
  | .text s, _ => .text s
  | .list vs, h => .list (keyed_of_areKeyed (by rwa [isKeyed] at h))
  | .object es, h => by
    rw [isKeyed, Bool.and_eq_true, decide_eq_true_iff] at h
    exact .object h.1 (keyed_of_haveKeyed h.2)

private theorem Value.keyed_of_areKeyed :
  ∀ {vs : List Value}, areKeyed vs = true → ∀ v ∈ vs, v.Keyed
  | [], _ => List.forall_mem_nil _
  | v :: vs, h => by
    rw [areKeyed, Bool.and_eq_true] at h
    exact List.forall_mem_cons.mpr ⟨keyed_of_isKeyed h.1, keyed_of_areKeyed h.2⟩

private theorem Value.keyed_of_haveKeyed :
  ∀ {es : List (String × Value)}, haveKeyed es = true → ∀ e ∈ es, e.2.Keyed
  | [], _ => List.forall_mem_nil _
  | (_, v) :: es, h => by
    rw [haveKeyed, Bool.and_eq_true] at h
    exact List.forall_mem_cons.mpr ⟨keyed_of_isKeyed h.1, keyed_of_haveKeyed h.2⟩

end

/-- What stands under a key of a keyed value is keyed. -/
theorem Value.Keyed.of_get? {es : Dictionary} {key : String} {v : Value}
    (h : (Value.object es).Keyed) (hget : es.get? key = some v) :
  v.Keyed
  := by
  cases h with
  | object _ hvalues => apply hvalues _ (Entries.mem_of_get? hget)

namespace Dictionary

/-- A field of a keyed object is keyed. -/
theorem keyed_fieldOf? {es : Dictionary} {field : Field} {v : Value}
    (h : (Value.object es).Keyed) (hfield : fieldOf? es field = some (some v)) :
  v.Keyed
  := by
  rw [fieldOf?] at hfield
  split at hfield
  · cases hfield
  · rename_i w hfound
    cases hfield
    have hmem : v ∈ field.keys.filterMap fun key => es.get? key := by
      rw [hfound]
      apply List.mem_singleton_self
    obtain ⟨key, -, hget⟩ := List.mem_filterMap.mp hmem
    apply h.of_get? hget
  · cases hfield

/-- The fields of a list of keyed values are keyed. -/
theorem keyed_fieldsOfList? {fields : List Field} {vs : List Value} {found : List (Option Value)}
    (h : ∀ v ∈ vs, v.Keyed) (hfound : fieldsOfList? fields vs = some found) :
  ∀ v, some v ∈ found → v.Keyed
  := by
  induction fields generalizing vs found with
  | nil =>
    cases vs with
    | nil =>
      cases hfound
      intro v hv
      cases hv
    | cons v vs => cases hfound
  | cons field fields ih =>
    cases vs with
    | nil =>
      rw [fieldsOfList?] at hfound
      split at hfound
      · obtain ⟨rest, hrest, rfl⟩ := Option.map_eq_some_iff.mp hfound
        intro v hv
        apply ih h hrest v ((List.mem_cons.mp hv).resolve_left (by simp))
      · cases hfound
    | cons w vs =>
      rw [List.forall_mem_cons] at h
      obtain ⟨rest, hrest, rfl⟩ := Option.map_eq_some_iff.mp hfound
      intro v hv
      obtain heq | hv := List.mem_cons.mp hv
      · rw [Option.some.inj heq]
        apply h.1
      · apply ih h.2 hrest v hv

/-- Each result is that of some item. -/
theorem exists_of_mem_mapM {α β : Type} {f : α → Option β} {items : List α} {found : List β}
    (h : items.mapM f = some found) :
  ∀ b ∈ found, ∃ a ∈ items, f a = some b
  := by
  induction items generalizing found with
  | nil =>
    cases h
    intro b hb
    cases hb
  | cons a items ih =>
    simp only [List.mapM_cons, Option.bind_eq_bind, Option.bind_eq_some_iff, Option.pure_def,
      Option.some.injEq] at h
    obtain ⟨b, hb, rest, hrest, rfl⟩ := h
    rw [List.forall_mem_cons]
    refine ⟨⟨a, List.mem_cons_self, hb⟩, ?_⟩
    intro c hc
    obtain ⟨a', ha', hc'⟩ := ih hrest c hc
    exact ⟨a', List.mem_cons_of_mem _ ha', hc'⟩

/-- The fields of a keyed record are keyed. -/
theorem keyed_record? {fields : List Field} {v : Value} {found : List (Option Value)}
    (h : v.Keyed) (hfound : record? fields v = some found) :
  ∀ w, some w ∈ found → w.Keyed
  := by
  intro w hw
  cases v with
  | object es =>
    obtain ⟨field, -, hfield⟩ := exists_of_mem_mapM hfound (some w) hw
    apply keyed_fieldOf? h hfield
  | list vs =>
    cases h with
    | list hitems => apply keyed_fieldsOfList? hitems hfound w hw
  | _ => cases hfound

/-- Entries that are taken as they are. -/
theorem entriesField?_some (es : Dictionary) :
  entriesField? some (some (.object es)) = some es
  := by
  have hall : es.mapM (fun e => some e) = some (es.map id) := mapM_eq_some fun _ _ => rfl
  rw [List.map_id] at hall
  apply hall

/-- The entries of a field are none, or those of the object in it. -/
theorem entriesField?_some_eq_some {v : Option Value} {es : Dictionary}
    (h : entriesField? some v = some es) :
  es = [] ∨ v = some (.object es)
  := by
  cases v with
  | none =>
    left
    apply (Option.some.inj h).symm
  | some v =>
    right
    cases v with
    | object fs =>
      rw [entriesField?_some] at h
      rw [Option.some.inj h]
    | _ => cases h

end Dictionary

/-- The overrides of a keyed component are for different variables. -/
theorem ComponentEntry.nodup_overrides {v : Value} {entry : ComponentEntry} (h : v.Keyed)
    (hentry : ComponentEntry.ofValue? v = some entry) :
  entry.overrides.keys.Nodup
  := by
  simp only [ofValue?, Option.bind_eq_bind, Option.bind_eq_some_iff] at hentry
  obtain ⟨found, hfound, hentry⟩ := hentry
  split at hentry
  · rename_i fmu stepSize generateProxy remote overrides connectors
    simp only [Option.bind_eq_some_iff, Option.pure_def, Option.some.injEq] at hentry
    obtain ⟨_, -, _, -, _, -, es, hes, _, -, rfl⟩ := hentry
    obtain rfl | rfl := Dictionary.entriesField?_some_eq_some hes
    · apply List.nodup_nil
    · have hkeyed := Dictionary.keyed_record? h hfound (.object es) (by simp)
      cases hkeyed with
      | object hkeys _ => apply hkeys
  · cases hentry

/-- A block of a keyed structure is keyed; where there is none it is empty. -/
theorem System.keyed_objectBlock {structureValue : Value} (h : structureValue.Keyed)
    (key : String) :
  (Value.object (block structureValue key)).Keyed
  := by
  have hempty : (Value.object []).Keyed := .object List.nodup_nil (List.forall_mem_nil _)
  cases structureValue with
  | object es =>
    rw [block, Value.get?]
    cases hget : Entries.get? es key with
    | none => exact hempty
    | some v =>
      cases v with
      | object entries => exact h.of_get? hget
      | _ => exact hempty
  | _ => exact hempty

/-- A block of a keyed structure has no key twice. -/
theorem System.nodup_block {structureValue : Value} (h : structureValue.Keyed) (key : String) :
  (block structureValue key).keys.Nodup
  := by
  cases keyed_objectBlock h key with
  | object hkeys _ => exact hkeys

/-- The records in a block of a keyed structure are keyed. -/
theorem System.keyed_block {structureValue : Value} {key : String} (h : structureValue.Keyed) :
  ∀ e ∈ block structureValue key, e.2.Keyed
  := by
  cases keyed_objectBlock h key with
  | object _ hvalues => exact hvalues

/-! ## Connectors -/

/-- A connector has the name of its record. -/
theorem Connector.ofValue?_name {name : String} {v : Value} {c : Connector}
    (h : ofValue? name v = some c) :
  c.name = name
  := by
  simp only [ofValue?, Option.bind_eq_bind, Option.bind_eq_some_iff] at h
  obtain ⟨fields, -, h⟩ := h
  split at h
  · simp only [Option.bind_eq_some_iff, Option.pure_def, Option.some.injEq] at h
    obtain ⟨_, -, _, -, _, -, rfl⟩ := h
    rfl
  · cases h

/-- The connectors of a record stand under their names. -/
theorem ComponentEntry.connectors_named {v : Value} {entry : ComponentEntry}
    (h : ofValue? v = some entry) :
  ∀ e ∈ entry.connectors, e.2.name = e.1
  := by
  have hnamed {v : Option Value} {connectors : Entries Connector}
      (hconnectors : connectorsOf? v = some connectors) : ∀ e ∈ connectors, e.2.name = e.1 := by
    unfold connectorsOf? at hconnectors
    split at hconnectors
    · cases hconnectors
      apply List.forall_mem_nil
    · intro e he
      obtain ⟨⟨name, w⟩, -, hw⟩ := Dictionary.exists_of_mem_mapM hconnectors e he
      obtain ⟨c, hc, rfl⟩ := Option.map_eq_some_iff.mp hw
      exact Connector.ofValue?_name hc
    · cases hconnectors
  simp only [ofValue?, Option.bind_eq_bind, Option.bind_eq_some_iff] at h
  obtain ⟨found, -, h⟩ := h
  split at h
  · simp only [Option.bind_eq_some_iff, Option.pure_def, Option.some.injEq] at h
    obtain ⟨_, -, _, -, _, -, _, -, connectors, hconnectors, rfl⟩ := h
    exact hnamed hconnectors
  · cases h

/-! ## Overrides -/

/-- An override as records state them: it has the data type of its start value. -/
structure Variable.IsOverride (v : Variable) : Prop where
  dataType_eq : v.dataType = v.start.map Start.dataType
  stored : ∀ start, v.start = some start → start.IsStored

/-- What is read as an override is one. -/
theorem Variable.isOverride_ofOverride? {key : String} {value : Value} {v : Variable}
    (h : Variable.ofOverride? key value = some v) :
  v.IsOverride
  := by
  obtain ⟨plain, -, htype, hplain, rfl⟩ := exists_of_ofOverride? h
  cases hstart : value.stated?.bind Start.ofValue? with
  | none => exact ⟨by simp [htype, hplain], by simp [hplain]⟩
  | some start =>
    obtain ⟨w, -, hw⟩ := Option.bind_eq_some_iff.mp hstart
    refine ⟨by simp [setStart, htype], ?_⟩
    rintro _ ⟨rfl⟩
    apply Start.isStored_ofValue? hw

/-- An override that states nothing but a start value. -/
theorem Variable.ofOverride?_start {value : Value} {start : Start} (key : String)
    (h : Start.ofValue? value = some start) :
  ofOverride? key (.object [("start", value)]) = some ((named key).setStart start)
  := by
  have hrecord : Dictionary.record? (["causality", "variability", "start"].map .plain)
      (.object [("start", value)]) = some [none, none, some value] := rfl
  simp only [ofOverride?, hrecord, Option.bind_eq_bind, Option.bind_some, Dictionary.optionalText?,
    Start.bind_optionalValue, h, Option.elim_some]
  rfl

/-- The initial values of a record are overrides. -/
theorem ComponentEntry.isOverride_initial (entry : ComponentEntry) :
  ∀ e ∈ entry.initial, e.2.IsOverride
  := by
  intro e he
  rw [ComponentEntry.initial, List.mem_filterMap] at he
  obtain ⟨⟨key, value⟩, -, hvalue⟩ := he
  obtain ⟨v, hv, rfl⟩ := Option.map_eq_some_iff.mp hvalue
  apply Variable.isOverride_ofOverride? hv

/-- The initial values of a record are for different variables if the overrides are. -/
theorem ComponentEntry.nodup_initial {entry : ComponentEntry} (h : entry.overrides.keys.Nodup) :
  entry.initial.keys.Nodup
  := by
  apply Entries.nodup_map_filterMap h
  intro e _ f hf
  obtain ⟨v, -, rfl⟩ := Option.map_eq_some_iff.mp hf
  rfl

end Cosim
