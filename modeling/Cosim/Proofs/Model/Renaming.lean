import Cosim.Proofs.Model.Rewriting
import Cosim.Proofs.Xml.Changing

/-!
# Renamed models

A description in which the model was renamed and the edit recorded has the new name as the name of
the model and as the identifier of every interface.  Units, variables and the default experiment are
read from it as before, also when it has been written and read again.
-/

namespace Cosim.Description

open Xml (Element)

variable {d d' : Description} {name key kind summary : String} {time : Timestamp.Seconds}
  {user : Option String}

/-! ## Trees of renamed models -/

/-- A description of the same model under a new name. -/
structure Renames (new : String) (d d' : Description) : Prop where
  modelName : d'.modelName? = some new
  identifiers : ∀ kind ∈ interfaceNames, (d'.root.child? kind).map (·.attr? "modelIdentifier") =
    (d.root.child? kind).map fun _ => some new
  units : d'.units = d.units
  scalarVariables : d'.scalarVariables = d.scalarVariables
  experiment : d'.experiment? = d.experiment?

theorem child?_setAttr (e : Element) (key value kind : String) :
  (e.setAttr key value).child? kind = e.child? kind
  := rfl

theorem child?_rename_of_notMem (hkind : kind ∉ interfaceNames) (d : Description) (name : String) :
  (d.rename name).root.child? kind = d.root.child? kind
  := by
  have hsimulation : "CoSimulation" ≠ kind := by
    rintro rfl
    exact hkind (by decide)
  have hexchange : "ModelExchange" ≠ kind := by
    rintro rfl
    exact hkind (by decide)
  have hsame (e : Element) : (e.setAttr "modelIdentifier" name).name = e.name := rfl
  rw [rename, Element.child?_changeChild_of_ne hexchange hsame,
    Element.child?_changeChild_of_ne hsimulation hsame, child?_setAttr]

theorem child?_rename (hkind : kind ∈ interfaceNames) (d : Description) (name : String) :
  (d.rename name).root.child? kind =
    (d.root.child? kind).map (·.setAttr "modelIdentifier" name)
  := by
  have hne : "ModelExchange" ≠ "CoSimulation" := by decide
  have hsame (e : Element) : (e.setAttr "modelIdentifier" name).name = e.name := rfl
  rw [interfaceNames, List.mem_pair] at hkind
  obtain rfl | rfl := hkind
  · rw [rename, Element.child?_changeChild_of_ne hne hsame, Element.child?_changeChild hsame,
      child?_setAttr]
  · rw [rename, Element.child?_changeChild hsame, Element.child?_changeChild_of_ne hne.symm hsame,
      child?_setAttr]

/-- A record of an edit is kept in attributes of the root. -/
theorem children_record (d : Description) (summary : String) (time : Timestamp.Seconds)
    (user : Option String) :
  (d.record summary time user).root.children = d.root.children
  := by
  cases user with
  | none => rfl
  | some name =>
    rw [record]
    dsimp only
    split <;> rfl

theorem child?_record (d : Description) (summary : String) (time : Timestamp.Seconds)
    (user : Option String) (kind : String) :
  (d.record summary time user).root.child? kind = d.root.child? kind
  := by
  rw [Element.child?, Element.child?, Element.elements, Element.elements, children_record]

theorem modelName?_record (d : Description) (summary : String) (time : Timestamp.Seconds)
    (user : Option String) :
  (d.record summary time user).modelName? = d.modelName?
  := by
  have hkept (e : Element) (key value : String) (hkey : "modelName" ≠ key) :
      (e.setAttr key value).attr? "modelName" = e.attr? "modelName" := by
    rw [Element.attr?_setAttr, if_neg hkey]
  cases user with
  | none =>
    rw [record, modelName?, modelName?, hkept _ _ _ (by decide), hkept _ _ _ (by decide)]
  | some name =>
    rw [record, modelName?, modelName?, hkept _ _ _ (by decide), hkept _ _ _ (by decide)]
    split
    · rfl
    · rw [hkept _ _ _ (by decide)]

theorem renames_record (d : Description) (name summary : String) (time : Timestamp.Seconds)
    (user : Option String) :
  Renames name d ((d.rename name).record summary time user)
  where
  modelName := by
    rw [modelName?_record]
    exact (Element.attr?_setAttr d.root "modelName" name "modelName").trans (if_pos rfl)
  identifiers kind hkind := by
    rw [child?_record, child?_rename hkind, Option.map_map]
    congr 1
    funext e
    exact (Element.attr?_setAttr e "modelIdentifier" name "modelIdentifier").trans (if_pos rfl)
  units := by
    rw [units, units, child?_record, child?_rename_of_notMem (by decide)]
  scalarVariables := by
    rw [scalarVariables, scalarVariables, child?_record, child?_rename_of_notMem (by decide)]
  experiment := by
    rw [experiment?, experiment?, child?_record, child?_rename_of_notMem (by decide)]

/-! ## Renamed models, written and read again -/

/-- The tidy form that is read tells the same. -/
theorem Renames.written_norm {new : String} (h : Renames new d d') :
  Renames new d ⟨d'.written.norm⟩
  where
  modelName := by
    have hattributes : (⟨d'.written.norm⟩ : Description).root.attributes = d'.written.attributes :=
      rfl
    rw [← h.modelName, modelName?, modelName?, Element.attr?, hattributes, attributes_written,
      Element.attr?]
    split
    · rfl
    · rw [Entries.get?_cons, if_neg (by decide)]
  identifiers kind hkind := by
    rw [← h.identifiers kind hkind, Element.child?_of_elements (elements_written_norm d'),
      Option.map_map]
    rfl
  units := (units_of_elements (elements_written_norm d')).trans h.units
  scalarVariables :=
    (scalarVariables_of_elements (elements_written_norm d')).trans h.scalarVariables
  experiment := (experiment?_of_elements (elements_written_norm d')).trans h.experiment

/-- A parsed description of a model that is renamed is read back under the new name. -/
theorem exists_renames {text : String} (hparse : parse text = .ok d)
    (hnamed : (Xml.Node.ofElement d.root).Named) (name summary : String)
    (time : Timestamp.Seconds) (user : Option String) :
  ∃ d', parse ((d.rename name).record summary time user).render = .ok d' ∧ Renames name d d'
  := by
  obtain ⟨htree, hname⟩ := parse_eq_ok_iff.mp hparse
  have hedited : Xml.Node.Edited (Editable d.root []) (.ofElement d.root)
      (.ofElement (d.edited [.rename name, .record summary time user]).root) :=
    edited_of_subset d (List.Subset.refl _)
  have hroot : ((d.rename name).record summary time user).root.WellFormed :=
    .of_edited hedited (fun path key => Editable.isName) (Element.wellFormed_of_parse htree hnamed)
  exact ⟨_, parse_render_written hroot (hedited.name_eq.trans hname),
    (renames_record d name summary time user).written_norm⟩

end Cosim.Description
