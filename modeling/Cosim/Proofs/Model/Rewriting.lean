import Cosim.Proofs.Model.Editing
import Cosim.Proofs.Xml.Parsed
import Cosim.Proofs.Xml.RoundTrip

/-!
# Edited model descriptions, written and read again

A written tree is read in its tidy form, which has the same elements with the same attributes; the
units, the variables and everything else that is read from a model description depend on nothing
more.  So a description that was parsed and edited survives writing.
-/

namespace Cosim

open Xml (Element)

/-- A unit is the same in the normal form. -/
theorem UnitDefinition.ofElement_norm (e : Element) :
  ofElement e.norm = ofElement e
  := by
  rw [ofElement, Element.child?_norm, Element.child?_norm, Option.map_map, Option.map_map]
  rfl

namespace Description

/-! ## What is read from a tree -/

/-- The typed child is the same in the normal form, itself in normal form. -/
theorem typedChild?_norm (e : Element) :
  typedChild? e.norm = (typedChild? e).map fun (type, child) => (type, child.norm)
  := by
  rw [typedChild?, Element.elements_norm, List.findSome?_map, typedChild?, List.map_findSome?]
  congr 1
  funext child
  simp only [Function.comp_apply, Option.map_map]
  rfl

/-- A variable is the same in the normal form. -/
theorem variableOf?_norm (e : Element) :
  variableOf? e.norm = variableOf? e
  := by
  have hattr (e : Element) (key : String) : e.norm.attr? key = e.attr? key := rfl
  simp only [variableOf?, hattr, typedChild?_norm, Option.bind_map, Option.map_map,
    Function.comp_def]

/-- A description from which the same is read as from another one, but that it declares the name
space of schema instances. -/
structure Restores (d d' : Description) : Prop where
  attributes : d'.root.attributes =
    if d.root.attributes.has instanceSpace.1 then d.root.attributes
    else instanceSpace :: d.root.attributes
  identifier : d'.identifier? = d.identifier?
  units : d'.units = d.units
  scalarVariables : d'.scalarVariables = d.scalarVariables
  experiment : d'.experiment? = d.experiment?

section Elements

variable {d d' : Description} (h : d'.root.elements = d.root.elements.map Element.norm)

include h

/-- A description whose elements are in normal form has the same identifier. -/
theorem identifier?_of_elements :
  d'.identifier? = d.identifier?
  := by
  rw [identifier?, Element.child?_of_elements h, Option.bind_map]
  rfl

/-- A description whose elements are in normal form has the same units. -/
theorem units_of_elements :
  d'.units = d.units
  := by
  rw [units, units, Element.child?_of_elements h]
  cases d.root.child? "UnitDefinitions" with
  | none => rfl
  | some definitions =>
    simp only [Option.map_some, Element.childrenNamed_norm, List.map_map, Function.comp_def,
      UnitDefinition.ofElement_norm]

/-- A description whose elements are in normal form has the same variables. -/
theorem scalarVariables_of_elements :
  d'.scalarVariables = d.scalarVariables
  := by
  rw [scalarVariables, scalarVariables, Element.child?_of_elements h]
  cases d.root.child? "ModelVariables" with
  | none => rfl
  | some declared =>
    simp only [Option.map_some, Element.childrenNamed_norm, List.filterMap_map, Function.comp_def,
      variableOf?_norm]

/-- A description whose elements are in normal form has the same experiment. -/
theorem experiment?_of_elements :
  d'.experiment? = d.experiment?
  := by
  rw [experiment?, Element.child?_of_elements h, Option.map_map]
  rfl

end Elements

/-! ## Writing and reading -/

/-- The tree that is written. -/
def written (d : Description) : Element :=
  if d.root.attributes.has instanceSpace.1 then d.root
  else { d.root with attributes := instanceSpace :: d.root.attributes }

/-- A description is written as its element with the name space of instances. -/
theorem render_eq (d : Description) :
  d.render = d.written.render
  := by
  unfold render written
  split <;> rfl

/-- The name space of instances is written in front, unless it is there already. -/
theorem attributes_written (d : Description) :
  d.written.attributes = if d.root.attributes.has instanceSpace.1 then d.root.attributes
    else instanceSpace :: d.root.attributes
  := by
  unfold written
  split <;> rfl

/-- A description is written under the name of its root. -/
theorem name_written (d : Description) :
  d.written.name = d.root.name
  := by
  unfold written
  split <;> rfl

/-- A description is written with the elements of its root. -/
theorem elements_written (d : Description) :
  d.written.elements = d.root.elements
  := by
  unfold written
  split <;> rfl

/-- A well-formed description is written as a well-formed element. -/
theorem wellFormed_written {d : Description} (h : d.root.WellFormed) :
  d.written.WellFormed
  := by
  unfold written
  split
  · exact h
  · rename_i hnew
    rw [Entries.has_iff] at hnew
    cases h with
    | element htag hchildren =>
      obtain ⟨⟨hname, hkeys⟩, hnodup⟩ := htag
      have hspace : Xml.IsName instanceSpace.1.toList := Xml.isName_of_all (by decide)
      exact .element ⟨⟨hname, List.forall_mem_cons.mpr ⟨hspace, hkeys⟩⟩,
        List.nodup_cons.mpr ⟨hnew, hnodup⟩⟩ hchildren

/-- A description is read exactly from an element with the name of descriptions. -/
theorem parse_eq_ok_iff {text : String} {d : Description} :
  parse text = .ok d ↔ Element.parse text = .ok d.root ∧ d.root.name = "fmiModelDescription"
  := by
  rw [parse]
  cases hroot : Element.parse text with
  | error e => simp [Except.mapError, bind, Except.bind]
  | ok root =>
    obtain ⟨root'⟩ := d
    have hread : (Except.mapError DescriptionError.tree (.ok root) : Except _ Element) = .ok root :=
      rfl
    by_cases hname : root.name = "fmiModelDescription"
    · simp only [hread, bind, Except.bind, hname, beq_self_eq_true, if_true, pure, Except.pure,
        Except.ok.injEq, mk.injEq]
      exact ⟨fun h => ⟨h, h ▸ hname⟩, And.left⟩
    · have hne : ¬ (root.name == "fmiModelDescription") = true := by rwa [beq_iff_eq]
      simp only [hread, bind, Except.bind, if_neg hne, throw, throwThe, MonadExceptOf.throw,
        Except.ok.injEq, reduceCtorEq, false_iff, not_and]
      rintro rfl
      exact hname

/-- A description with a tree that can be written is read in its tidy form. -/
theorem parse_render_written {d : Description} (h : d.root.WellFormed)
    (hname : d.root.name = "fmiModelDescription") :
  parse d.render = .ok ⟨d.written.norm⟩
  := by
  rw [parse_eq_ok_iff, render_eq, Element.parse_render_eq (wellFormed_written h)]
  exact ⟨rfl, (name_written d).trans hname⟩

/-- What is written has the normal forms of the elements for its own. -/
theorem elements_written_norm (d : Description) :
  d.written.norm.elements = d.root.elements.map Element.norm
  := by
  rw [Element.elements_norm, elements_written]

/-- A description with a tree that can be written is restored when it is read again. -/
theorem exists_restores {d : Description} (h : d.root.WellFormed)
    (hname : d.root.name = "fmiModelDescription") :
  ∃ d', parse d.render = .ok d' ∧ Restores d d'
  := by
  have helements := elements_written_norm d
  exact ⟨_, parse_render_written h hname, attributes_written d, identifier?_of_elements helements,
    units_of_elements helements, scalarVariables_of_elements helements,
    experiment?_of_elements helements⟩

/-- Edits of a parsed description change nothing but the attributes that they are about, and the
edited description is restored from its text. -/
theorem restores_edited {text : String} {d : Description} (hparse : parse text = .ok d)
    (hnamed : (Xml.Node.ofElement d.root).Named) (edits : List Edit) :
  Xml.Node.Edited (Editable d.root (edits.flatMap Edit.overrides)) (.ofElement d.root)
    (.ofElement (d.edited edits).root) ∧
  ∃ d', parse (d.edited edits).render = .ok d' ∧ Restores (d.edited edits) d'
  := by
  obtain ⟨htree, hname⟩ := parse_eq_ok_iff.mp hparse
  have hedited := edited_of_subset d (List.Subset.refl (edits.flatMap Edit.overrides))
  have hroot : (d.edited edits).root.WellFormed :=
    .of_edited hedited (fun path key => Editable.isName) (Element.wellFormed_of_parse htree hnamed)
  exact ⟨hedited, exists_restores hroot (hedited.name_eq.trans hname)⟩

/-- A tank with a level, in markup with a comment, a text and an element of a tool. -/
def tankText : String :=
  "<fmiModelDescription modelName=\"tank\"><!--water--><CoSimulation modelIdentifier=\"tank\"/>" ++
  "<ModelVariables>levels<ScalarVariable name=\"level\"><Tool/><Real/></ScalarVariable>" ++
  "</ModelVariables></fmiModelDescription>"

def tank : Description where
  root := ⟨"fmiModelDescription", [("modelName", "tank")], [.comment "water",
    .element "CoSimulation" [("modelIdentifier", "tank")] [], .element "ModelVariables" [] [
      .text "levels", .element "ScalarVariable" [("name", "level")] [
        .element "Tool" [] [], .element "Real" [] []]]]⟩

/-- One edit of each kind. -/
def tankEdits : List Edit :=
  let level : Variable := ⟨"level", none, some .output, none, some (.int 2), none, none, none, none,
    none⟩
  [.rename "basin", .override [("level", level)], .record "two metres" 0 (some "keeper")]

/-- The description of the tank is read. -/
theorem parse_tankText :
  parse tankText = .ok tank
  := by
  rw [parse_eq_ok_iff]
  refine ⟨?_, rfl⟩
  cbv

/-- The description of the tank has names of XML. -/
theorem named_tank :
  (Xml.Node.ofElement tank.root).Named
  := by
  have hname {name : String} (h : (name.toList.head?.any Document.isNameStart &&
      name.toList.all Document.isNameChar) = true) : Xml.IsName name.toList := Xml.isName_of_all h
  have hattribute {key value : String} (h : Xml.IsName key.toList) :
      ∀ a ∈ [(key, value)], Xml.IsName a.1.toList := List.forall_mem_singleton.mpr h
  have htool : (Xml.Node.element "Tool" [] []).Named :=
    .element ⟨hname (by decide), List.forall_mem_nil _⟩ (List.forall_mem_nil _)
  have hreal : (Xml.Node.element "Real" [] []).Named :=
    .element ⟨hname (by decide), List.forall_mem_nil _⟩ (List.forall_mem_nil _)
  have hinterface : (Xml.Node.element "CoSimulation" [("modelIdentifier", "tank")] []).Named :=
    .element ⟨hname (by decide), hattribute (hname (by decide))⟩ (List.forall_mem_nil _)
  have hlevel : (Xml.Node.element "ScalarVariable" [("name", "level")] [
      .element "Tool" [] [], .element "Real" [] []]).Named :=
    .element ⟨hname (by decide), hattribute (hname (by decide))⟩
      (List.forall_mem_cons.mpr ⟨htool, List.forall_mem_singleton.mpr hreal⟩)
  refine .element ⟨hname (by decide), hattribute (hname (by decide))⟩
    (List.forall_mem_cons.mpr ⟨.comment _, List.forall_mem_cons.mpr ⟨hinterface,
      List.forall_mem_singleton.mpr (.element ⟨hname (by decide), List.forall_mem_nil _⟩
        (List.forall_mem_cons.mpr ⟨.text _, List.forall_mem_singleton.mpr hlevel⟩))⟩⟩)

/-- The tank is edited, written and read back. -/
theorem restores_edited_tank :
  parse tankText = .ok tank ∧ (Xml.Node.ofElement tank.root).Named ∧
  Xml.Node.Edited (Editable tank.root (tankEdits.flatMap Edit.overrides)) (.ofElement tank.root)
    (.ofElement (tank.edited tankEdits).root) ∧
  ∃ d', parse (tank.edited tankEdits).render = .ok d' ∧ Restores (tank.edited tankEdits) d'
  := ⟨parse_tankText, named_tank, restores_edited parse_tankText named_tank tankEdits⟩

end Description

end Cosim
