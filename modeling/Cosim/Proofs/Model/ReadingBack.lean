import Cosim.Proofs.Model.Overriding

/-!
# Overridden variables read back

Of several elements of a variable the last one counts when variables are read.  The element of an
override is read as before but for the values of the override, of which the start value is written
as text, and read as a value of the type that the element gives the variable.
-/

namespace Cosim

/-- A type of data is read back. -/
theorem DataType.ofText?_text (t : DataType) :
  ofText? t.text = some t
  := by
  cases t <;> decide

/-- A type of data is read from its own text alone. -/
theorem DataType.eq_text_of_ofText? {t : DataType} {s : String} (h : ofText? s = some t) :
  s = t.text
  := by
  have htext := List.find?_some h
  exact (beq_iff_eq.mp htext).symm

/-- A causality is read back. -/
theorem Causality.ofText?_text (c : Causality) :
  ofText? c.text = some c
  := by
  cases c <;> decide

/-- A variability is read back. -/
theorem Variability.ofText?_text (v : Variability) :
  ofText? v.text = some v
  := by
  cases v <;> decide

namespace Description

open Xml (Element)

variable {d : Description} {e : Element} {name : String} {update : Variable}

/-! ## Variables by name -/

/-- A variable that is read has the name of its element, and the name is not reserved. -/
theorem name_of_variableOf? {v : Variable} (h : variableOf? e = some v) :
  e.attr? "name" = some v.name ∧ isReserved v.name = false
  := by
  rw [variableOf?] at h
  obtain ⟨name, hname, h⟩ := Option.bind_eq_some_iff.mp h
  split at h
  · cases h
  · rename_i hvisible
    cases h
    exact ⟨hname, Bool.eq_false_iff.mpr hvisible⟩

/-- An element that describes a name is read as a variable of that name, unless it is reserved. -/
theorem exists_variableOf? (h : describes name e = true) (hvisible : isReserved name = false) :
  ∃ v, variableOf? e = some v ∧ v.name = name
  := by
  rw [variableOf?, (describes_iff.mp h).2]
  simp [hvisible]

/-- An internal variable is left out wherever it is described. -/
theorem variableOf?_eq_none (h : describes name e = true) (hreserved : isReserved name = true) :
  variableOf? e = none
  := by
  rw [variableOf?, (describes_iff.mp h).2]
  simp [hreserved]

/-- The first of several elements of a variable counts, unless the variable is internal. -/
theorem get?_variables (es : List Element) (name : String) :
  Entries.get? ((es.filter (·.name == "ScalarVariable")).filterMap fun e =>
      (variableOf? e).map fun v => (v.name, v)) name =
    (es.find? (describes name)).bind variableOf?
  := by
  induction es with
  | nil => rfl
  | cons e es ih =>
    by_cases hdescribes : describes name e = true
    · have hscalar := beq_iff_eq.mpr (describes_iff.mp hdescribes).1
      rw [List.filter_cons_of_pos (by exact hscalar), List.find?_cons_of_pos hdescribes, Option.bind_some]
      cases hreserved : isReserved name with
      | true =>
        have hnone := variableOf?_eq_none hdescribes hreserved
        rw [List.filterMap_cons_none (by rw [hnone, Option.map_none]), ih, hnone,
          Option.bind_eq_none_iff]
        exact fun e' he' => variableOf?_eq_none (List.find?_some he') hreserved
      | false =>
        obtain ⟨v, hv, rfl⟩ := exists_variableOf? hdescribes hreserved
        rw [List.filterMap_cons_some (by rw [hv, Option.map_some]), Entries.get?_cons, if_pos rfl,
          hv]
    · rw [List.find?_cons_of_neg hdescribes, ← ih]
      by_cases hscalar : (e.name == "ScalarVariable") = true
      · rw [List.filter_cons_of_pos (by exact hscalar)]
        cases hv : variableOf? e with
        | none => rw [List.filterMap_cons_none (by rw [hv, Option.map_none])]
        | some v =>
          have hne : ¬ name = v.name := by
            rintro rfl
            exact hdescribes (describes_iff.mpr
              ⟨beq_iff_eq.mp hscalar, (name_of_variableOf? hv).1⟩)
          rw [List.filterMap_cons_some (by rw [hv, Option.map_some]), Entries.get?_cons,
            if_neg hne]
      · rw [List.filter_cons_of_neg (by exact hscalar)]

/-- Of several elements of a variable the last one counts. -/
theorem get?_scalarVariables (d : Description) (name : String) :
  d.scalarVariables.get? name = (d.root.child? "ModelVariables").bind fun declared =>
    (declared.elements.filter (describes name)).getLast?.bind variableOf?
  := by
  rw [scalarVariables]
  cases d.root.child? "ModelVariables" with
  | none => rfl
  | some declared =>
    dsimp only
    rw [Entries.get?_ofPairs, ← List.filterMap_reverse, Element.childrenNamed,
      ← List.filter_reverse, get?_variables, Option.bind_some, ← List.head?_filter,
      List.filter_reverse, List.head?_reverse]

/-! ## Values read back -/

/-- An override demands no other data type than the variable has. -/
def Suits (update : Variable) (e : Element) : Prop :=
  ∀ type, update.dataType = some type → (typedChild? e).map Prod.fst = some type

/-- A variable as it is read when an override was written: with the causality and the variability of
the override if it has any, and with its start value as a value of the data type, if the variable
has one. -/
def readBack (v update : Variable) : Variable :=
  { v with
    causality := update.causality.or v.causality
    variability := update.variability.or v.variability
    start :=
      match update.start, v.dataType with
      | some start, some type => Start.parse? type start.toText
      | _, _ => v.start }

/-- Without a child that is named like a type there is no typed child. -/
theorem typedChild?_of_lacks (h : Element.Lacks (isTypedAs none) e.children) :
  typedChild? e = none
  := by
  rw [typedChild?, List.findSome?_eq_none_iff]
  intro child hchild
  have huntyped : (DataType.ofText? child.name).isSome = false := h child hchild
  rw [Option.isSome_eq_false_iff, Option.isNone_iff_eq_none] at huntyped
  rw [huntyped, Option.map_none]

/-- The typed child is the first one that is named like a type. -/
theorem typedChild?_of_first {front back : List Xml.Node} {child : Element} {type : DataType}
    (hchildren : e.children = front ++ .ofElement child :: back)
    (hfront : Element.Lacks (isTypedAs none) front)
    (htype : DataType.ofText? child.name = some type) :
  typedChild? e = some (type, child)
  := by
  have huntyped : typedChild? { e with children := front } = none :=
    typedChild?_of_lacks hfront
  rw [typedChild?, Element.elements] at huntyped ⊢
  rw [hchildren, Element.filterMap_first, List.findSome?_append, huntyped, Option.none_or,
    List.findSome?_cons, htype, Option.map_some]

/-- What is of one type is of some type. -/
theorem isTypedAs_none {type : Option DataType} (h : isTypedAs type e = true) :
  isTypedAs none e = true
  := by
  cases type with
  | none => exact h
  | some type =>
    rw [isTypedAs, beq_iff_eq] at h
    rw [isTypedAs, h, DataType.ofText?_text, Option.isSome_some]

/-- The child that gives the type is one that an override that suits demands. -/
theorem Suits.isTypedAs {child : Element} {type : DataType} (h : Suits update e)
    (htyped : typedChild? e = some (type, child)) (htype : DataType.ofText? child.name = some type) :
  isTypedAs update.dataType child = true
  := by
  cases hdemanded : update.dataType with
  | none => exact Option.isSome_iff_exists.mpr ⟨type, htype⟩
  | some demanded =>
    have hsuits := h demanded hdemanded
    rw [htyped, Option.map_some, Option.some.injEq] at hsuits
    rw [Description.isTypedAs, beq_iff_eq, ← hsuits]
    exact DataType.eq_text_of_ofText? htype

/-- The start value of an override that suits is written into the child that gives the type. -/
theorem typedChild?_overrideStart (h : Suits update e) :
  typedChild? (overrideStart name update e).1 = (typedChild? e).map fun (type, child) =>
    (type, match update.start with
      | some start => child.setAttr "start" start.toText
      | none => child)
  := by
  rw [overrideStart]
  cases update.start with
  | none => simp
  | some start =>
    obtain hlacks | ⟨front, child, back, hchildren, hfront, hchild⟩ :=
      Element.lacks_or_first (isTypedAs none) e.children
    · have hfind : e.elements.find? (isTypedAs update.dataType) = none :=
        Element.find?_of_lacks (hlacks.mono fun _ => isTypedAs_none)
      have hnone := typedChild?_of_lacks hlacks
      rw [hfind, hnone, Option.map_none]
    · obtain ⟨type, htype⟩ := Option.isSome_iff_exists.mp hchild
      have htyped := typedChild?_of_first hchildren hfront htype
      have hskip : Element.Lacks (isTypedAs update.dataType) front :=
        hfront.mono fun _ => isTypedAs_none
      have hfirst := h.isTypedAs htyped htype
      have hfind : e.elements.find? (isTypedAs update.dataType) = some child := by
        rw [Element.elements, hchildren, Element.find?_of_first hskip hfirst]
      have hwritten : Element.changeFirst (isTypedAs update.dataType)
          (·.setAttr "start" start.toText) e.children =
          front ++ .ofElement (child.setAttr "start" start.toText) :: back := by
        rw [hchildren, Element.changeFirst_of_first hskip hfirst]
      rw [hfind, htyped, Option.map_some]
      exact typedChild?_of_first hwritten hfront htype

/-- Overriding the start value leaves the attributes of the variable. -/
theorem attributes_overrideStart (name : String) (update : Variable) (e : Element) :
  (overrideStart name update e).1.attributes = e.attributes
  := by
  rw [overrideStart]
  split <;> rfl

/-- Overriding an attribute leaves the children. -/
theorem children_overrideAttr (name key : String) (value : Option String) (e : Element) :
  (overrideAttr name key value e).1.children = e.children
  := by
  cases value <;> rfl

/-- An overridden attribute has the new value if there is one, and all others are as before. -/
theorem attr?_overrideAttr (name key : String) (value : Option String) (e : Element)
    (k : String) :
  (overrideAttr name key value e).1.attr? k = if k = key then value.or (e.attr? k) else e.attr? k
  := by
  cases value with
  | none => simp [overrideAttr]
  | some value => exact Element.attr?_setAttr e key value k

/-- Attributes that no override is about. -/
theorem attr?_overridden {k : String} (hk : k ∉ variableKeys) (name : String) (update : Variable)
    (e : Element) :
  (overridden name update e).attr? k = e.attr? k
  := by
  have hcausality : k ≠ "causality" := by
    rintro rfl
    exact hk (by decide)
  have hvariability : k ≠ "variability" := by
    rintro rfl
    exact hk (by decide)
  rw [overridden, overrideElement]
  dsimp only
  rw [attr?_overrideAttr, if_neg hvariability, attr?_overrideAttr, if_neg hcausality,
    Element.attr?, attributes_overrideStart, Element.attr?]

/-- An overridden variable has the causality of the override, or else its own. -/
theorem causality_overridden (name : String) (update : Variable) (e : Element) :
  ((overridden name update e).attr? "causality").bind Causality.ofText? =
    update.causality.or ((e.attr? "causality").bind Causality.ofText?)
  := by
  rw [overridden, overrideElement]
  dsimp only
  rw [attr?_overrideAttr, if_neg (by decide), attr?_overrideAttr, if_pos rfl, Element.attr?,
    attributes_overrideStart, ← Element.attr?]
  cases update.causality with
  | none => rfl
  | some c => exact Causality.ofText?_text c

/-- An overridden variable has the variability of the override, or else its own. -/
theorem variability_overridden (name : String) (update : Variable) (e : Element) :
  ((overridden name update e).attr? "variability").bind Variability.ofText? =
    update.variability.or ((e.attr? "variability").bind Variability.ofText?)
  := by
  rw [overridden, overrideElement]
  dsimp only
  rw [attr?_overrideAttr, if_pos rfl, attr?_overrideAttr, if_neg (by decide), Element.attr?,
    attributes_overrideStart, ← Element.attr?]
  cases update.variability with
  | none => rfl
  | some v => exact Variability.ofText?_text v

/-- The typed child of an overridden variable is the one with the new start value. -/
theorem typedChild?_overridden (name : String) (update : Variable) (e : Element) :
  typedChild? (overridden name update e) = typedChild? (overrideStart name update e).1
  := by
  rw [typedChild?, typedChild?, Element.elements, Element.elements, overridden, overrideElement]
  dsimp only
  rw [children_overrideAttr, children_overrideAttr]

/-- The element of an override that suits is read as the variable with the values of the
override. -/
theorem variableOf?_overridden (h : Suits update e) (name : String) :
  variableOf? (overridden name update e) = (variableOf? e).map (readBack · update)
  := by
  have htyped := (typedChild?_overridden name update e).trans (typedChild?_overrideStart h)
  have hkept : (overridden name update e).attr? "name" = e.attr? "name" ∧
      (overridden name update e).attr? "valueReference" = e.attr? "valueReference" ∧
      (overridden name update e).attr? "description" = e.attr? "description" := by
    refine ⟨?_, ?_, ?_⟩ <;> exact attr?_overridden (by decide) name update e
  simp only [variableOf?, hkept, causality_overridden, variability_overridden, htyped]
  cases e.attr? "name" with
  | none => rfl
  | some name =>
    dsimp only [Option.bind_eq_bind, Option.bind_some]
    cases hreserved : isReserved name with
    | true => rfl
    | false =>
      cases typedChild? e with
      | none => cases hstart : update.start <;> simp [readBack, hstart]
      | some typed =>
        cases hstart : update.start with
        | none => simp [readBack, hstart]
        | some start => simp [readBack, hstart, Element.attr?_setAttr]

end Description

end Cosim
