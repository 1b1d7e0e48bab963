import Cosim.Model.Edit
import Cosim.Proofs.Xml.Edited

/-!
# Edits of model descriptions

However often a description is edited, its tree stays as it was but for the attributes that edits
are about: those of the root that name the model and record edits, the identifier in the first
interface of each kind, and those of overridden variables.  Where these stand can be told from the
tree as it was before all edits.
-/

namespace Cosim.Description

open Xml (Element)
open Xml.Node (Edited FirstAt edited_ofElement_iff edited_changeWhere edited_setAttr)

/-! ## Sequences of edits -/

/-- An edit of a description. -/
inductive Edit where
  | rename (name : String)
  | override (overrides : Entries Variable)
  | record (summary : String) (time : Timestamp.Seconds) (user : Option String)

namespace Edit

def apply (d : Description) : Edit → Description
  | .rename name => d.rename name
  | .override overrides => (d.override overrides).1
  | .record summary time user => d.record summary time user

/-- The variables that an edit overrides, and how. -/
def overrides : Edit → List (String × Variable)
  | .override overrides => overrides
  | _ => []

end Edit

/-- A description after edits. -/
def edited (d : Description) (edits : List Edit) : Description := edits.foldl Edit.apply d

/-! ## What edits may change -/

/-- The attributes of the root that name the model and record edits. -/
def rootKeys : List String := ["modelName", "author", "generationDateAndTime", "description"]

/-- The kinds of interfaces that have an identifier of the model. -/
def interfaceNames : List String := ["CoSimulation", "ModelExchange"]

/-- The attributes of a variable that an override may change. -/
def variableKeys : List String := ["causality", "variability"]

/-- The places of attributes that edits with some overrides may change in a tree.  For each
override these are in the first element of its name, and in one child of that: the first one that is
typed as the override demands. -/
inductive Editable (root : Element) (overrides : List (String × Variable)) : Xml.Places where
  | root {key : String} (hkey : key ∈ rootKeys) : Editable root overrides [] key
  | interface {kind : String} {i : ℕ} {e : Element} (hkind : kind ∈ interfaceNames)
    (he : FirstAt (·.name == kind) root.children i e) :
    Editable root overrides [i] "modelIdentifier"
  | override {i j : ℕ} {declared e : Element} {name key : String} {update : Variable}
    (hdeclared : FirstAt (·.name == "ModelVariables") root.children i declared)
    (hupdate : (name, update) ∈ overrides) (he : FirstAt (describes name) declared.children j e)
    (hkey : key ∈ variableKeys) :
    Editable root overrides [i, j] key
  | start {i j k : ℕ} {declared e typed : Element} {name : String} {update : Variable}
    (hdeclared : FirstAt (·.name == "ModelVariables") root.children i declared)
    (hupdate : (name, update) ∈ overrides) (he : FirstAt (describes name) declared.children j e)
    (htyped : FirstAt (isTypedAs update.dataType) e.children k typed) :
    Editable root overrides [i, j, k] "start"

variable {e e' : Element} {overrides more : List (String × Variable)} {path : List ℕ}
  {key name : String} {update : Variable}

/-- Only attributes with certain names are edited. -/
theorem Editable.mem_keys (h : Editable e overrides path key) :
  key ∈ rootKeys ++ variableKeys ++ ["modelIdentifier", "start"]
  := by
  cases h with
  | root hkey => exact List.mem_append_left _ (List.mem_append_left _ hkey)
  | interface hkind he => decide
  | override hdeclared hupdate he hkey =>
    exact List.mem_append_left _ (List.mem_append_right _ hkey)
  | start hdeclared hupdate he htyped => decide

/-- No edit may change a name. -/
theorem Editable.ne_name (h : Editable e overrides path key) :
  key ≠ "name"
  := by
  rintro rfl
  exact absurd h.mem_keys (by decide)

/-- What may be edited has a name of XML. -/
theorem Editable.isName (h : Editable e overrides path key) :
  Xml.IsName key.toList
  := by
  have hall : ∀ key ∈ rootKeys ++ variableKeys ++ ["modelIdentifier", "start"],
      (key.toList.head?.any Document.isNameStart && key.toList.all Document.isNameChar) = true := by
    decide
  exact Xml.isName_of_all (hall key h.mem_keys)

/-- An element describes the same variable as long as its name is not edited. -/
theorem describes_eq {K : Xml.Places} (h : Edited K (.ofElement e) (.ofElement e'))
    (hname : ¬ K [] "name") :
  describes name e' = describes name e
  := by
  obtain ⟨hsame, hattributes, -⟩ := edited_ofElement_iff.mp h
  rw [describes, describes, hsame, Element.attr?, Element.attr?,
    hattributes.extended.get?_eq hname]

/-- An element is of the same type as long as it is called the same. -/
theorem isTypedAs_eq (type : Option DataType) (h : e'.name = e.name) :
  isTypedAs type e' = isTypedAs type e
  := by
  unfold isTypedAs
  rw [h]

/-- The first element of a variable is found at its place before edits. -/
theorem firstAt_describes {i j : ℕ} {declared' v' : Element}
    (h : Edited (Editable e overrides) (.ofElement e) (.ofElement e'))
    (hdeclared : FirstAt (·.name == "ModelVariables") e'.children i declared')
    (hv : FirstAt (describes name) declared'.children j v') :
  ∃ declared v, FirstAt (·.name == "ModelVariables") e.children i declared ∧
    FirstAt (describes name) declared.children j v ∧
    Edited (((Editable e overrides).within i).within j) (.ofElement v) (.ofElement v')
  := by
  obtain ⟨declared, hdeclared, hedited⟩ := hdeclared.of_edited h.children fun _ c c' hc => by
    rw [hc.name_eq]
  obtain ⟨v, hv, hsame⟩ := hv.of_edited hedited.children fun _ c c' hc =>
    describes_eq hc fun hname => Editable.ne_name hname rfl
  exact ⟨declared, v, hdeclared, hv, hsame⟩

/-- Edits leave what may be edited where it is. -/
theorem Editable.of_edited (h : Edited (Editable e overrides) (.ofElement e) (.ofElement e'))
    (hpath : Editable e' overrides path key) :
  Editable e overrides path key
  := by
  cases hpath with
  | root hkey => exact .root hkey
  | interface hkind he =>
    obtain ⟨c, hc, -⟩ := he.of_edited h.children fun _ c c' hc => by rw [hc.name_eq]
    exact .interface hkind hc
  | override hdeclared hupdate he hkey =>
    obtain ⟨declared, v, hdeclared, hv, -⟩ := firstAt_describes h hdeclared he
    exact .override hdeclared hupdate hv hkey
  | start hdeclared hupdate he htyped =>
    obtain ⟨declared, v, hdeclared, hv, hsame⟩ := firstAt_describes h hdeclared he
    obtain ⟨typed, htyped, -⟩ := htyped.of_edited hsame.children fun _ c c' hc =>
      isTypedAs_eq _ hc.name_eq
    exact .start hdeclared hupdate hv htyped

/-! ## Edits one after another -/

/-- A change of trees that is an edit of what may be edited. -/
def Respects (overrides : List (String × Variable)) (change : Element → Element) : Prop :=
  ∀ e, Edited (Editable e overrides) (.ofElement e) (.ofElement (change e))

namespace Respects

variable {f g : Element → Element}

/-- Two changes that respect what may be edited do so one after the other. -/
theorem comp (hf : Respects overrides f) (hg : Respects overrides g) :
  Respects overrides fun e => g (f e)
  := by
  intro e
  apply (hf e).trans
  apply (hg (f e)).mono
  intro path key
  apply Editable.of_edited (hf e)

/-- Setting an attribute of the root that records edits respects what may be edited. -/
theorem setAttr (hkey : key ∈ rootKeys) (value : String) :
  Respects overrides fun e => e.setAttr key value
  := fun e => edited_setAttr (.root hkey) e value

/-- Setting the identifier of an interface respects what may be edited. -/
theorem setIdentifier {kind : String} (hkind : kind ∈ interfaceNames) (identifier : String) :
  Respects overrides fun e => e.changeChild kind (·.setAttr "modelIdentifier" identifier)
  := by
  intro e
  apply edited_changeWhere
  intro i child hchild
  apply edited_setAttr
  exact .interface hkind hchild

end Respects

/-! ## Overrides -/

/-- Overriding a variable edits its attributes and the start value of its typed child. -/
theorem edited_overrideElement {K : Xml.Places} (name : String)
    (hattributes : ∀ key ∈ variableKeys, K [] key)
    (hstart : ∀ k typed, FirstAt (isTypedAs update.dataType) e.children k typed → K [k] "start") :
  Edited K (.ofElement e) (.ofElement (overrideElement name update e).1)
  := by
  have hattr {key : String} (hkey : key ∈ variableKeys) (value : Option String) (e : Element) :
      Edited K (.ofElement e) (.ofElement (overrideAttr name key value e).1) := by
    cases value with
    | none => apply Edited.refl
    | some value => apply edited_setAttr (hattributes key hkey)
  have hstarted : Edited K (.ofElement e) (.ofElement (overrideStart name update e).1) := by
    unfold overrideStart
    split
    · apply edited_changeWhere (p := isTypedAs update.dataType)
      intro k typed htyped
      exact edited_setAttr (hstart k typed htyped) typed _
    · apply Edited.refl
  exact (hstarted.trans (hattr (by decide) _ _)).trans (hattr (by decide) _ _)

/-- Overriding one variable among others edits the first one of its name. -/
theorem edited_overrideIn {K : Xml.Places} (update : Variable)
    (hattributes : ∀ j e, FirstAt (describes name) e'.children j e →
      ∀ key ∈ variableKeys, K [j] key)
    (hstart : ∀ j e k typed, FirstAt (describes name) e'.children j e →
      FirstAt (isTypedAs update.dataType) e.children k typed → K [j, k] "start") :
  Edited K (.ofElement e') (.ofElement (overrideIn e' name update).1)
  := by
  unfold overrideIn
  split
  · apply Edited.refl
  · apply edited_changeWhere (p := describes name)
    intro j e he
    exact edited_overrideElement name (hattributes j e he) fun k typed => hstart j e k typed he

/-- Overriding leaves the name of the element. -/
theorem name_overrideIn (declared : Element) (name : String) (update : Variable) :
  (overrideIn declared name update).1.name = declared.name
  := by
  have h : Edited (fun _ _ => True) (.ofElement declared)
      (.ofElement (overrideIn declared name update).1) :=
    edited_overrideIn update (fun _ _ _ _ _ => trivial) fun _ _ _ _ _ _ => trivial
  exact h.name_eq

namespace Respects

/-- Overriding one of the variables respects what may be edited. -/
theorem overrideIn (hupdate : (name, update) ∈ overrides) :
  Respects overrides fun e => e.changeChild "ModelVariables" fun declared =>
    (Description.overrideIn declared name update).1
  := by
  intro e
  apply edited_changeWhere (p := (·.name == "ModelVariables"))
  intro i declared hdeclared
  apply edited_overrideIn update
  · exact fun j e he key hkey => .override hdeclared hupdate he hkey
  · exact fun j e k typed he htyped => .start hdeclared hupdate he htyped

/-- Overriding variables one after another. -/
theorem overrideAll (hsub : more ⊆ overrides) :
  Respects overrides fun e => e.changeChild "ModelVariables" fun declared =>
    (Description.overrideAll declared more).1
  := by
  induction more with
  | nil =>
    intro e
    apply edited_changeWhere (p := (·.name == "ModelVariables"))
    intro i declared _
    apply Edited.refl
  | cons override more ih =>
    obtain ⟨name, update⟩ := override
    rw [List.cons_subset] at hsub
    intro e
    have hboth : Edited (Editable e overrides) (.ofElement e)
        (.ofElement ((e.changeWhere (·.name == "ModelVariables") fun declared =>
          (Description.overrideIn declared name update).1).changeWhere (·.name == "ModelVariables")
            fun declared => (Description.overrideAll declared more).1)) :=
      (Respects.overrideIn hsub.1).comp (ih hsub.2) e
    have hname (declared : Element) (h : (declared.name == "ModelVariables") = true) :
        ((Description.overrideIn declared name update).1.name == "ModelVariables") = true := by
      rwa [name_overrideIn]
    rw [Element.changeWhere_changeWhere hname] at hboth
    exact hboth

/-- Every edit changes only what may be edited. -/
theorem apply {edit : Edit} (hsub : edit.overrides ⊆ overrides) (d : Description) :
  Edited (Editable d.root overrides) (.ofElement d.root) (.ofElement (edit.apply d).root)
  := by
  cases edit with
  | rename name =>
    have hname : Respects overrides fun e => e.setAttr "modelName" name := .setAttr (by decide) name
    exact ((hname.comp (.setIdentifier (by decide) name)).comp
      (.setIdentifier (by decide) name)) d.root
  | override updates =>
    rw [Edit.apply, Description.override]
    split
    · apply Edited.refl
    · exact Respects.overrideAll hsub d.root
  | record summary time user =>
    have hroot {key : String} (hkey : key ∈ rootKeys) (e : Element) (value : String) :
        Edited (Editable d.root overrides) (.ofElement e) (.ofElement (e.setAttr key value)) :=
      edited_setAttr (.root hkey) e value
    have hstamped (e : Element) (description : String) :
        Edited (Editable d.root overrides) (.ofElement e)
          (.ofElement ((e.setAttr "generationDateAndTime" (Timestamp.text time)).setAttr
            "description" description)) :=
      (hroot (by decide) e _).trans (hroot (by decide) _ description)
    cases user with
    | none => exact hstamped d.root _
    | some name =>
      dsimp only [Edit.apply, Description.record]
      split
      · exact hstamped d.root _
      · exact (hroot (by decide) d.root name).trans (hstamped _ _)

end Respects

/-- Edits one after another change only what may be edited in the tree as it was before. -/
theorem edited_of_subset (d : Description) {edits : List Edit}
    (hsub : edits.flatMap Edit.overrides ⊆ overrides) :
  Edited (Editable d.root overrides) (.ofElement d.root) (.ofElement (d.edited edits).root)
  := by
  induction edits generalizing d with
  | nil => apply Edited.refl
  | cons edit edits ih =>
    rw [List.flatMap_cons, List.append_subset] at hsub
    have hfirst := Respects.apply hsub.1 d
    apply hfirst.trans
    apply (ih (edit.apply d) hsub.2).mono
    intro path key
    apply Editable.of_edited hfirst

end Cosim.Description
