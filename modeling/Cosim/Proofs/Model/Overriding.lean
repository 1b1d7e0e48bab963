import Cosim.Proofs.Model.Editing
import Cosim.Proofs.Xml.Changing

/-!
# Overridden variables

Overrides of different variables are written into different elements, so their order does not
matter.  The elements of other variables, the units and the default experiment are left as they are.
-/

namespace Cosim

namespace Description

open Xml (Element)
open Xml.Element (changeWhere)

variable {d : Description} {declared e : Element} {name other : String} {update : Variable}
  {overrides reordered : Entries Variable}

/-! ## Elements of variables -/

/-- An element describes a variable exactly if it is one of its name. -/
theorem describes_iff :
  describes name e = true ↔ e.name = "ScalarVariable" ∧ e.attr? "name" = some name
  := by
  rw [describes, Bool.and_eq_true, beq_iff_eq, beq_iff_eq]

/-- An element describes one variable only. -/
theorem not_describes (hne : name ≠ other) (h : describes name e = true) :
  describes other e = false
  := by
  rw [← Bool.not_eq_true, describes_iff, (describes_iff.mp h).2, Option.some.injEq]
  exact fun hother => hne hother.2

/-- An override does not change which variable an element describes. -/
theorem describes_overrideElement (other name : String) (update : Variable) (e : Element) :
  describes other (overrideElement name update e).1 = describes other e
  := by
  have hedited : Xml.Node.Edited (fun _ key => key ≠ "name") (.ofElement e)
      (.ofElement (overrideElement name update e).1) := by
    apply edited_overrideElement name
    · decide
    · intro _ _ _
      decide
  exact describes_eq hedited fun h => h rfl

/-! ## Overrides one by one -/

/-- What an override makes of the element of its variable. -/
abbrev overridden (name : String) (update : Variable) (e : Element) : Element :=
  (overrideElement name update e).1

/-- Overriding a variable changes the first element that describes it. -/
theorem overrideIn_fst (declared : Element) (name : String) (update : Variable) :
  (overrideIn declared name update).1 =
    declared.changeWhere (describes name) (overridden name update)
  := by
  rw [overrideIn]
  split
  · rename_i hnone
    have hlacks : Element.Lacks (describes name) declared.children := fun e he => by
      simpa using List.find?_eq_none.mp hnone e he
    rw [changeWhere, Element.changeFirst_of_lacks hlacks]
  · rfl

/-- The changes of a variable are those of the first element that describes it. -/
theorem overrideIn_snd (declared : Element) (name : String) (update : Variable) :
  (overrideIn declared name update).2 =
    ((declared.elements.filter (describes name)).head?.map fun e =>
      (overrideElement name update e).2).getD []
  := by
  rw [overrideIn, List.head?_filter]
  cases declared.elements.find? (describes name) <;> rfl

/-- The elements of other variables are left as they are. -/
theorem filter_overrideIn_of_ne (hne : name ≠ other) (declared : Element) (update : Variable) :
  (overrideIn declared name update).1.elements.filter (describes other) =
    declared.elements.filter (describes other)
  := by
  rw [overrideIn_fst]
  apply Element.filter_changeWhere_of_disjoint
  · intro e
    apply not_describes hne
  · intro e he
    rw [describes_overrideElement]
    apply not_describes hne he

/-- Of the elements that describe a variable, the first one is overridden. -/
theorem filter_overrideIn (declared : Element) (name : String) (update : Variable) :
  (overrideIn declared name update).1.elements.filter (describes name) =
    (declared.elements.filter (describes name)).modifyHead (overridden name update)
  := by
  rw [overrideIn_fst]
  apply Element.filter_changeWhere
  intro e he
  rwa [describes_overrideElement]

/-- Overrides of different variables commute. -/
theorem overrideIn_comm (hne : name ≠ other) (declared : Element) (update change : Variable) :
  (overrideIn (overrideIn declared name update).1 other change).1 =
    (overrideIn (overrideIn declared other change).1 name update).1
  := by
  have hkept (name : String) (update : Variable) (e : Element) (h : describes name e = true) :
      describes name (overridden name update e) = true := by
    rwa [describes_overrideElement]
  simp only [overrideIn_fst, changeWhere]
  rw [Element.changeFirst_comm (fun e => not_describes hne) (hkept name update)
    (hkept other change)]

/-! ## Overrides one after another -/

/-- Variables are overridden one after the other. -/
theorem overrideAll_fst (declared : Element) (overrides : Entries Variable) :
  (overrideAll declared overrides).1 =
    overrides.foldl (fun declared o => (overrideIn declared o.1 o.2).1) declared
  := by
  induction overrides generalizing declared with
  | nil => rfl
  | cons o more ih =>
    rw [List.foldl_cons, ← ih]
    rfl

/-- Each override finds the element of its variable as it was before all of them. -/
theorem overrideAll_snd (hkeys : overrides.keys.Nodup) (declared : Element) :
  (overrideAll declared overrides).2 = overrides.flatMap fun o => (overrideIn declared o.1 o.2).2
  := by
  induction overrides generalizing declared with
  | nil => rfl
  | cons o more ih =>
    obtain ⟨name, update⟩ := o
    rw [Entries.keys_cons, List.nodup_cons] at hkeys
    have hmore : ∀ o ∈ more, (overrideIn (overrideIn declared name update).1 o.1 o.2).2 =
        (overrideIn declared o.1 o.2).2 := by
      intro o ho
      have hne : name ≠ o.1 := by
        rintro rfl
        exact hkeys.1 (Entries.mem_keys_of_mem ho)
      rw [overrideIn_snd, overrideIn_snd, filter_overrideIn_of_ne hne]
    rw [List.flatMap_cons, ← List.flatMap_congr hmore, ← ih hkeys.2]
    rfl

/-- The order of overrides does not matter for the tree. -/
theorem overrideAll_fst_of_perm (hkeys : overrides.keys.Nodup) (h : reordered.Perm overrides)
    (declared : Element) :
  (overrideAll declared reordered).1 = (overrideAll declared overrides).1
  := by
  rw [overrideAll_fst, overrideAll_fst]
  have hkeys' : reordered.keys.Nodup := (h.map Prod.fst).nodup_iff.mpr hkeys
  apply h.foldl_eq'
  intro o ho o' ho' declared
  by_cases hname : o.1 = o'.1
  · rw [List.inj_on_of_nodup_map hkeys' ho ho' hname]
  · apply overrideIn_comm hname

/-- All elements of a variable are left as they are but for the first one, if there is an override
for the variable. -/
theorem filter_overrideAll (hkeys : overrides.keys.Nodup) (declared : Element) (name : String) :
  (overrideAll declared overrides).1.elements.filter (describes name) =
    match overrides.get? name with
    | some update =>
      (declared.elements.filter (describes name)).modifyHead (overridden name update)
    | none => declared.elements.filter (describes name)
  := by
  induction overrides generalizing declared with
  | nil => rfl
  | cons o more ih =>
    obtain ⟨first, update⟩ := o
    rw [Entries.keys_cons, List.nodup_cons] at hkeys
    have hstep : (overrideAll declared ((first, update) :: more)).1 =
        (overrideAll (overrideIn declared first update).1 more).1 := rfl
    rw [hstep, ih hkeys.2, Entries.get?_cons]
    by_cases hname : name = first
    · subst hname
      rw [if_pos rfl, Entries.get?_eq_none_iff.mpr hkeys.1]
      apply filter_overrideIn
    · rw [if_neg hname, filter_overrideIn_of_ne (Ne.symm hname)]

/-! ## Overridden descriptions -/

/-- Overriding changes the variables of a description. -/
theorem override_fst (d : Description) (overrides : Entries Variable) :
  (d.override overrides).1.root =
    d.root.changeChild "ModelVariables" fun declared => (overrideAll declared overrides).1
  := by
  rw [override]
  split
  · rename_i hnone
    have hlacks : Element.Lacks (·.name == "ModelVariables") d.root.children := fun e he => by
      simpa using List.find?_eq_none.mp hnone e he
    rw [Element.changeChild, Element.changeFirst_of_lacks hlacks]
  · rfl

/-- The changes of a description are those of its variables. -/
theorem override_snd (d : Description) (overrides : Entries Variable) :
  (d.override overrides).2 =
    ((d.root.child? "ModelVariables").map fun declared => (overrideAll declared overrides).2).getD
      []
  := by
  rw [override]
  split
  · rename_i hnone
    rw [hnone, Option.map_none, Option.getD_none]
  · rename_i declared hsome
    rw [hsome, Option.map_some, Option.getD_some]

/-- Overriding leaves the name of the element. -/
theorem name_overrideAll (declared : Element) (overrides : Entries Variable) :
  (overrideAll declared overrides).1.name = declared.name
  := by
  induction overrides generalizing declared with
  | nil => rfl
  | cons o more ih => exact (ih _).trans (name_overrideIn declared o.1 o.2)

/-- The variables of an overridden description are the overridden variables. -/
theorem child?_override (d : Description) (overrides : Entries Variable) :
  (d.override overrides).1.root.child? "ModelVariables" =
    (d.root.child? "ModelVariables").map fun declared => (overrideAll declared overrides).1
  := by
  rw [override_fst]
  exact Element.child?_changeChild (fun declared => name_overrideAll declared overrides) _ _

/-- Overriding leaves all other children of a description. -/
theorem child?_override_of_ne (hne : "ModelVariables" ≠ name) (d : Description)
    (overrides : Entries Variable) :
  (d.override overrides).1.root.child? name = d.root.child? name
  := by
  rw [override_fst]
  exact Element.child?_changeChild_of_ne hne (fun declared => name_overrideAll declared overrides) _

/-- Overriding leaves the units. -/
theorem units_override (d : Description) (overrides : Entries Variable) :
  (d.override overrides).1.units = d.units
  := by
  rw [units, units, child?_override_of_ne (by decide)]

/-- Overriding leaves the experiment. -/
theorem experiment?_override (d : Description) (overrides : Entries Variable) :
  (d.override overrides).1.experiment? = d.experiment?
  := by
  rw [experiment?, experiment?, child?_override_of_ne (by decide)]

end Description

end Cosim
