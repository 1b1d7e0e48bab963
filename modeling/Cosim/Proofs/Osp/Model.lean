import Cosim.Osp.Model
import Cosim.Proofs.Document.Field

/-!
# Written model descriptions

A model description is read again as it was from either of its written forms, if its strings can
stand in XML and its numbers are numbers.
-/

namespace Cosim.Osp

open Document (Form IsText Listed element optional? required? many? one? optional?_text
  optional?_real required?_text many?_map one?_eq isTagName)

/-! ## What a description holds -/

def Unit.strings (u : Unit) : List String := u.name :: u.display.toList.map (·.name)

def Member.strings (m : Member) : List String := m.name :: m.unit.toList

def Group.strings (g : Group) : List String := g.name :: g.members.flatMap Member.strings

namespace Model

/-- The strings in a description. -/
def strings (m : Model) : List String :=
  m.xmlns.toList ++ m.version.toList ++ m.units.flatMap Unit.strings ++
    m.groups.flatMap Group.strings

/-- The base units in a description. -/
def bases (m : Model) : List BaseUnit := m.units.flatMap (·.base.toList)

end Model

/-- Exponents of 32 bits, one for every base unit. -/
structure BaseUnit.WellFormed (u : BaseUnit) : Prop where
  length : u.exponents.length = names.length
  range : ∀ x ∈ u.exponents, ∀ i ∈ x, -2 ^ 31 ≤ i ∧ i < 2 ^ 31

/-- A description whose strings are made of characters of XML and whose numbers are numbers. -/
structure Model.WellFormed (m : Model) : Prop where
  strings : ∀ s ∈ m.strings, IsText s
  numbers : ∀ x ∈ m.numbers, x.isNaN = false
  bases : ∀ u ∈ m.bases, u.WellFormed

/-! ## Reading what is written -/

/-- The attributes of a base unit, with and without a value. -/
def BaseUnit.attributes (u : BaseUnit) : List (String × Option String) :=
  names.zip (u.exponents.map (·.map intText)) ++
    [("factor", u.factor.map Double.plain), ("offset", u.offset.map Double.plain)]

/-- A base unit is written with its exponents, its factor and its offset. -/
theorem BaseUnit.attributes_keys {u : BaseUnit} (h : u.WellFormed) :
  u.attributes.map Prod.fst = names ++ ["factor", "offset"]
  := by
  rw [attributes, List.map_append, List.map_fst_zip (by simp [h.length])]
  rfl

/-- A well-formed base unit is read back if its numbers can be. -/
theorem BaseUnit.ofElement?_toElement {u : BaseUnit} (h : u.WellFormed)
    (hfactor : ∀ x ∈ u.factor, x.isNaN = false) (hoffset : ∀ x ∈ u.offset, x.isNaN = false) :
  ofElement? u.toElement = some u
  := by
  have hnodup : (u.attributes.map Prod.fst).Nodup := by
    rw [attributes_keys h]
    decide
  have hlookup {key : String} {value : Option String} (hmem : (key, value) ∈ u.attributes) :
      (u.attributes.lookup key).join = value := by
    have hget := Entries.get?_of_mem hnodup hmem
    rw [Entries.get?] at hget
    rw [hget]
    rfl
  have hexponents : names.mapM (optional? Literal.int32? u.toElement) = some u.exponents :=
    Document.mapM_optional? "BaseUnit" [] h.length.symm (by simp [names])
      fun x hx i hi => Literal.int32?_intText (h.range x hx i hi).1 (h.range x hx i hi).2
  have hreadFactor : optional? Literal.real? u.toElement "factor" = some u.factor :=
    optional?_real _ _ hnodup (hlookup (by simp [attributes])) hfactor
  have hreadOffset : optional? Literal.real? u.toElement "offset" = some u.offset :=
    optional?_real _ _ hnodup (hlookup (by simp [attributes])) hoffset
  rw [ofElement?, hexponents, hreadFactor, hreadOffset]
  rfl

/-- A display unit is read back if its numbers can be. -/
theorem DisplayUnit.ofElement?_toElement {u : DisplayUnit}
    (hfactor : ∀ x ∈ u.factor, x.isNaN = false) (hoffset : ∀ x ∈ u.offset, x.isNaN = false) :
  ofElement? u.toElement = some u
  := by
  have hreadFactor : optional? Literal.real? u.toElement "factor" = some u.factor :=
    optional?_real _ _ (by simp) (by simp [List.lookup]) hfactor
  have hreadOffset : optional? Literal.real? u.toElement "offset" = some u.offset :=
    optional?_real _ _ (by simp) (by simp [List.lookup]) hoffset
  rw [ofElement?, hreadFactor, hreadOffset]
  simp [toElement, required?_text, List.lookup]

/-- The numbers in the definition of a unit. -/
def Unit.numbers (u : Unit) : List Double :=
  (u.base.toList.flatMap fun b => b.factor.toList ++ b.offset.toList) ++
    u.display.toList.flatMap fun d => d.factor.toList ++ d.offset.toList

/-- A unit is read back with its base and its display units. -/
theorem Unit.ofElement?_toElement {u : Unit} (hbase : ∀ b ∈ u.base, b.WellFormed)
    (hnumbers : ∀ x ∈ u.numbers, x.isNaN = false) :
  ofElement? u.toElement = some u
  := by
  simp only [numbers, List.forall_mem_append, List.forall_mem_flatMap, Option.mem_toList]
    at hnumbers
  obtain ⟨hbases, hdisplays⟩ := hnumbers
  have hreadBase : one? BaseUnit.ofElement? u.toElement "BaseUnit" = some u.base := by
    apply one?_eq (f := BaseUnit.toElement)
    · simp [Document.filter_map_name (f := BaseUnit.toElement) (fun _ => rfl),
        Document.filter_map_name (f := DisplayUnit.toElement) (fun _ => rfl)]
    · exact fun b hb => BaseUnit.ofElement?_toElement (hbase b hb) (hbases b hb).1 (hbases b hb).2
  have hreadDisplay : one? DisplayUnit.ofElement? u.toElement "DisplayUnit" = some u.display := by
    apply one?_eq (f := DisplayUnit.toElement)
    · simp [Document.filter_map_name (f := BaseUnit.toElement) (fun _ => rfl),
        Document.filter_map_name (f := DisplayUnit.toElement) (fun _ => rfl)]
    · exact fun d hd => DisplayUnit.ofElement?_toElement (hdisplays d hd).1 (hdisplays d hd).2
  rw [ofElement?, hreadBase, hreadDisplay]
  simp [toElement, required?_text, List.lookup]

/-- A member of a group is read back. -/
theorem Member.ofElement?_toElement (m : Member) :
  ofElement? m.toElement = some m
  := by
  simp [ofElement?, toElement, required?_text, optional?_text, List.lookup]

/-- A group is read back with its members. -/
theorem Group.ofElement?_toElement (g : Group) :
  ofElement? g.toElement = some g
  := by
  have hmembers : many? Member.ofElement? g.toElement "Variable" = some g.members :=
    many?_map Member.toElement (fun _ => rfl) fun m _ => m.ofElement?_toElement
  rw [ofElement?, hmembers]
  simp [toElement, required?_text, List.lookup]

/-! ## Forms -/

/-- Numbers are written as texts that documents can hold. -/
theorem isText_of_mem {x : Option Double} (h : ∀ y ∈ x, y.isNaN = false) :
  ∀ s ∈ x.map Double.plain, IsText s
  := by
  intro s hs
  obtain ⟨y, hy, rfl⟩ := Option.mem_map.mp hs
  exact Document.isText_plain (h y hy)

/-- A base unit is listed by every form that knows base units, if its numbers can be written. -/
theorem BaseUnit.listed {known : List (String × Form)} {u : BaseUnit}
    (hknown : known.lookup "BaseUnit" = some .leaf) (h : u.WellFormed)
    (hfactor : ∀ x ∈ u.factor, x.isNaN = false) (hoffset : ∀ x ∈ u.offset, x.isNaN = false) :
  Listed known [u.toElement]
  := by
  have hnames : ∀ key ∈ names ++ ["factor", "offset"], isTagName key.toList = true := by
    simp [names]
    decide
  have hkeys : ∀ a ∈ u.attributes, isTagName a.1.toList = true := by
    intro a ha
    apply hnames
    rw [← attributes_keys h]
    exact List.mem_map_of_mem ha
  have hvalues : ∀ a ∈ u.attributes, ∀ s ∈ a.2, IsText s := by
    rw [attributes, List.forall_mem_append]
    constructor
    · intro a ha s hs
      obtain ⟨x, hx, hvalue⟩ := List.mem_map.mp (List.of_mem_zip ha).2
      rw [← hvalue] at hs
      obtain ⟨i, hi, rfl⟩ := Option.mem_map.mp hs
      exact Document.isText_intText i
    · simpa using And.intro (isText_of_mem hfactor) (isText_of_mem hoffset)
  exact .of_element hknown rfl hkeys hvalues (.nil _)

/-- A display unit is listed by every form that knows display units, if its texts can be written. -/
theorem DisplayUnit.listed {known : List (String × Form)} {u : DisplayUnit}
    (hknown : known.lookup "DisplayUnit" = some .leaf) (hname : IsText u.name)
    (hfactor : ∀ x ∈ u.factor, x.isNaN = false) (hoffset : ∀ x ∈ u.offset, x.isNaN = false) :
  Listed known [u.toElement]
  := by
  apply Listed.of_element hknown rfl (by simp; decide) _ (.nil _)
  simpa using And.intro hname (And.intro (isText_of_mem hfactor) (isText_of_mem hoffset))

/-- A unit is listed by every form that knows units, if its texts can be written. -/
theorem Unit.listed {known : List (String × Form)} {u : Unit}
    (hknown : known.lookup "Unit" =
      some (.children [("BaseUnit", .leaf), ("DisplayUnit", .leaf)]))
    (hbase : ∀ b ∈ u.base, b.WellFormed) (hnumbers : ∀ x ∈ u.numbers, x.isNaN = false)
    (h : ∀ s ∈ u.strings, IsText s) :
  Listed known [u.toElement]
  := by
  simp only [numbers, List.forall_mem_append, List.forall_mem_flatMap] at hnumbers
  obtain ⟨hbases, hdisplays⟩ := hnumbers
  rw [strings, List.forall_mem_cons, List.forall_mem_map] at h
  obtain ⟨hname, hdisplayNames⟩ := h
  apply Listed.of_element hknown rfl (by simp; decide) (by simpa using hname)
  apply Listed.append
  · apply Listed.map
    intro b hb
    obtain ⟨hfactor, hoffset⟩ := hbases b hb
    apply BaseUnit.listed rfl (hbase b (Option.mem_toList.mp hb))
    · exact fun x hx => hfactor x (Option.mem_toList.mpr hx)
    · exact fun x hx => hoffset x (Option.mem_toList.mpr hx)
  · apply Listed.map
    intro d hd
    obtain ⟨hfactor, hoffset⟩ := hdisplays d hd
    apply DisplayUnit.listed rfl (hdisplayNames d hd)
    · exact fun x hx => hfactor x (Option.mem_toList.mpr hx)
    · exact fun x hx => hoffset x (Option.mem_toList.mpr hx)

/-- A group is listed by every form that knows groups, if its texts can be written. -/
theorem Group.listed {known : List (String × Form)} {g : Group}
    (hknown : known.lookup "Generic" = some (.children [("Variable", .leaf)]))
    (h : ∀ s ∈ g.strings, IsText s) :
  Listed known [g.toElement]
  := by
  rw [strings, List.forall_mem_cons, List.forall_mem_flatMap] at h
  obtain ⟨hname, hmembers⟩ := h
  apply Listed.of_element hknown rfl (by simp; decide) (by simpa using hname)
  apply Listed.map
  intro m hm
  have hstrings := hmembers m hm
  rw [Member.strings, List.forall_mem_cons] at hstrings
  apply Listed.of_element rfl rfl (by simp; decide) _ (.nil _)
  simpa using hstrings

namespace Model

/-- The units of a well-formed model have bases and numbers that can be read back. -/
theorem WellFormed.unit {m : Model} (h : m.WellFormed) {u : Unit} (hu : u ∈ m.units) :
  (∀ b ∈ u.base, b.WellFormed) ∧ ∀ x ∈ u.numbers, x.isNaN = false
  := by
  have hbases := List.forall_mem_flatMap.mp h.bases u hu
  exact ⟨fun b hb => hbases b (Option.mem_toList.mpr hb),
    List.forall_mem_flatMap.mp h.numbers u hu⟩

/-- A well-formed model is read back from its element. -/
theorem ofElement?_toElement {m : Model} (h : m.WellFormed) :
  ofElement? m.toElement = some m
  := by
  have hunits : one? (many? Unit.ofElement? · "Unit") m.toElement "UnitDefinitions" =
      some (some m.units) := by
    apply one?_eq (f := fun units => element "UnitDefinitions" [] (units.map Unit.toElement))
    · simp
    · rintro units ⟨⟩
      apply many?_map Unit.toElement (fun _ => rfl)
      exact fun u hu => Unit.ofElement?_toElement (h.unit hu).1 (h.unit hu).2
  have hgroups : one? (many? Group.ofElement? · "Generic") m.toElement "VariableGroups" =
      some (some m.groups) := by
    apply one?_eq (f := fun groups => element "VariableGroups" [] (groups.map Group.toElement))
    · simp
    · rintro groups ⟨⟩
      exact many?_map Group.toElement (fun _ => rfl) fun g _ => g.ofElement?_toElement
  rw [ofElement?, hunits, hgroups]
  simp [toElement, optional?_text, List.lookup]

/-- A well-formed model is listed by the form of models. -/
theorem listed {m : Model} (h : m.WellFormed) :
  Listed [(rootName, .children known)] [m.toElement]
  := by
  have hstrings := h.strings
  simp only [strings, List.forall_mem_append, List.forall_mem_flatMap] at hstrings
  obtain ⟨⟨⟨hxmlns, hversion⟩, hunits⟩, hgroups⟩ := hstrings
  apply Listed.of_element rfl rfl (by simp; decide) (by simpa using And.intro hxmlns hversion)
  apply Listed.cons
  · apply Listed.of_element rfl rfl (List.forall_mem_nil _) (List.forall_mem_nil _)
    apply Listed.map
    exact fun u hu => Unit.listed rfl (h.unit hu).1 (h.unit hu).2 (hunits u hu)
  · apply Listed.of_element rfl rfl (List.forall_mem_nil _) (List.forall_mem_nil _)
    exact .map fun g hg => Group.listed rfl (hgroups g hg)

/-- A description is read again from either of its written forms. -/
theorem WellFormed.survives {m : Model} (h : m.WellFormed) :
  Document.Survives read? m.toElement m
  := Document.survives_of_listed (listed h) (ofElement?_toElement h)

end Model

end Cosim.Osp
