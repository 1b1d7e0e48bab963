import Cosim.Osp.Structure
import Cosim.Proofs.Document.Field

/-!
# Written system structures

A system structure is read again as it was from either of its written forms, if its strings can
stand in XML and its numbers are numbers.
-/

namespace Cosim.Osp

open Document (Form IsText IsContent Listed element textElement text? optional? required? many?
  one? optional?_text optional?_real required?_text many?_eq many?_map one?_eq one?_map one?_text isTagName)
open Xml (trimSpace)

/-! ## What a structure holds -/

def InitialValue.strings (v : InitialValue) : List String :=
  v.name :: match v.value with
    | .text s => [s]
    | _ => []

def Simulator.values (s : Simulator) : List InitialValue := s.initial.getD []

def Simulator.strings (s : Simulator) : List String :=
  s.name :: s.source :: s.values.flatMap InitialValue.strings

def Terminal.strings (p : Terminal) : List String := [p.owner, p.name]

def Link.terminals : Link → List Terminal
  | .ofVariables terminals => terminals
  | .ofGroups terminals => terminals
  | .ofSignals terminals signals => terminals ++ signals
  | .ofSignalGroups terminals signals => terminals ++ signals

namespace Structure

/-- The texts that stand in elements of their own. -/
def texts (s : Structure) : List String :=
  s.startTime.toList ++ s.baseStepSize.toList ++ s.algorithm.toList

/-- The strings in a structure. -/
def strings (s : Structure) : List String :=
  s.xmlns.toList ++ s.version.toList ++ s.texts ++ s.simulators.flatMap Simulator.strings ++
    (s.connections.getD []).flatMap fun link => link.terminals.flatMap Terminal.strings

/-- The integers in a structure. -/
def integers (s : Structure) : List Int :=
  s.simulators.flatMap fun simulator => simulator.values.filterMap fun v =>
    match v.value with
    | .int i => some i
    | _ => none

/-- A structure whose strings are made of characters of XML, whose texts have no white space at
their ends and are not empty, and whose numbers are numbers; its integers have 64 bits. -/
structure WellFormed (s : Structure) : Prop where
  strings : ∀ t ∈ s.strings, IsText t
  texts : ∀ t ∈ s.texts, t ≠ "" ∧ trimSpace t.toList = t.toList
  numbers : ∀ x ∈ s.numbers, x.isNaN = false
  integers : ∀ i ∈ s.integers, -2 ^ 63 ≤ i ∧ i < 2 ^ 63

end Structure

/-! ## Reading what is written -/

/-- A start value other than a not-a-number, with an integer of 64 bits if it is an integer. -/
def IsExact (v : Start) : Prop :=
  match v with
  | .real x => x.isNaN = false
  | .int i => -2 ^ 63 ≤ i ∧ i < 2 ^ 63
  | _ => True

/-- An exact initial value is read back. -/
theorem InitialValue.ofElement?_toElement {v : InitialValue} (h : IsExact v.value) :
  ofElement? v.toElement = some v
  := by
  obtain ⟨name, value⟩ := v
  have hvalue : value? (element value.dataType.text [("value", some value.toText)] []) =
      some value := by
    cases value with
    | real x =>
      have hread := Literal.real?_plain_of_isNaN h
      simp [value?, Document.required?_element, Start.dataType, DataType.text,
        Start.toText, hread]
    | int i =>
      have hread := Literal.int64?_intText h.1 h.2
      simp [value?, Document.required?_element, Start.dataType, DataType.text,
        Start.toText, hread]
    | bool b =>
      cases b with
      | true => rfl
      | false => rfl
    | text s =>
      simp [value?, required?_text, Start.dataType, DataType.text,
        Start.toText]
  simp [ofElement?, toElement, required?_text, hvalue]

/-- A simulator is read back if its numbers can be. -/
theorem Simulator.ofElement?_toElement {s : Simulator} (hstep : ∀ x ∈ s.stepSize, x.isNaN = false)
    (hvalues : ∀ v ∈ s.values, IsExact v.value) :
  ofElement? s.toElement = some s
  := by
  have hinitial : one? (many? InitialValue.ofElement? · "InitialValue") s.toElement
      "InitialValues" = some s.initial := by
    apply one?_map (fun values : List InitialValue =>
      element "InitialValues" [] (values.map InitialValue.toElement)) (fun _ => rfl)
    intro values hinitial
    apply many?_map InitialValue.toElement (fun _ => rfl)
    intro v hv
    apply InitialValue.ofElement?_toElement
    apply hvalues
    rw [Simulator.values, Option.mem_def.mp hinitial]
    apply hv
  have hstepSize : optional? Literal.real? s.toElement "stepSize" = some s.stepSize :=
    optional?_real _ _ (by simp) (by simp [List.lookup]) hstep
  rw [ofElement?, hinitial, hstepSize]
  simp [toElement, required?_text, List.lookup]

/-- A terminal is read back. -/
theorem Terminal.ofElement?_toElement (p : Terminal) (name : String) {ownerKey : String}
    (hkey : ownerKey ≠ "name") :
  ofElement? ownerKey (p.toElement name ownerKey) = some p
  := by
  have hskip : ("name" == ownerKey) = false := by simpa using hkey.symm
  have hnodup : ([(ownerKey, some p.owner), ("name", some p.name)].map Prod.fst).Nodup := by
    simpa using hkey
  simp [ofElement?, toElement, required?_text _ _ _ hnodup, List.lookup, hskip]

namespace Link

/-- Terminals are found under the name of their elements and under no other. -/
theorem filter_terminals (name ownerKey key : String) (terminals : List Terminal) :
  (terminals.map (Terminal.toElement name ownerKey)).filter (·.name == key) =
    if name == key then terminals.map (Terminal.toElement name ownerKey) else []
  := Document.filter_map_name (f := Terminal.toElement name ownerKey) (fun _ => rfl) key terminals

/-- The terminals of one kind are read from among the children of a connection. -/
theorem terminals?_children {ownerKey : String} (name : String) (l : Link)
    (terminals : List Terminal) (hkey : ownerKey ≠ "name")
    (h : l.children.filter (·.name == name) = terminals.map (Terminal.toElement name ownerKey)) :
  many? (Terminal.ofElement? ownerKey) l.toElement name = some terminals
  := many?_eq h fun p _ => p.ofElement?_toElement name hkey

/-- A link is read back with its terminals. -/
theorem ofElement?_toElement (l : Link) :
  ofElement? l.toElement = some l
  := by
  have hsimulator : "simulator" ≠ "name" := by decide
  have hfunction : "function" ≠ "name" := by decide
  have hname : l.toElement.name = l.tag := rfl
  cases l with
  | ofVariables terminals =>
    have hterminals := terminals?_children "Variable" (ofVariables terminals) terminals
      hsimulator (by simp [children, filter_terminals])
    simp [ofElement?, hname, tag, hterminals]
  | ofGroups terminals =>
    have hterminals := terminals?_children "VariableGroup" (ofGroups terminals) terminals
      hsimulator (by simp [children, filter_terminals])
    simp [ofElement?, hname, tag, hterminals]
  | ofSignals terminals signals =>
    have hterminals := terminals?_children "Variable" (ofSignals terminals signals)
      terminals hsimulator (by simp [children, filter_terminals])
    have hsignals := terminals?_children "Signal" (ofSignals terminals signals) signals
      hfunction (by simp [children, filter_terminals])
    simp [ofElement?, hname, tag, hterminals, hsignals]
  | ofSignalGroups terminals signals =>
    have hterminals := terminals?_children "VariableGroup"
      (ofSignalGroups terminals signals) terminals hsimulator
      (by simp [children, filter_terminals])
    have hsignals := terminals?_children "SignalGroup"
      (ofSignalGroups terminals signals) signals hfunction (by simp [children, filter_terminals])
    simp [ofElement?, hname, tag, hterminals, hsignals]

end Link

namespace Structure

/-- The simulators of a well-formed structure have numbers that can be read back. -/
theorem WellFormed.simulator {s : Structure} (h : s.WellFormed) {simulator : Simulator}
    (hmem : simulator ∈ s.simulators) :
  (∀ x ∈ simulator.stepSize, x.isNaN = false) ∧ ∀ v ∈ simulator.values, IsExact v.value
  := by
  have hnumbers := List.forall_mem_flatMap.mp h.numbers simulator hmem
  have hintegers := List.forall_mem_flatMap.mp h.integers simulator hmem
  rw [List.forall_mem_append] at hnumbers
  obtain ⟨hstep, hreals⟩ := hnumbers
  refine ⟨fun x hx => hstep x (Option.mem_toList.mpr hx), fun v hv => ?_⟩
  cases hvalue : v.value with
  | real x => exact hreals x (List.mem_filterMap.mpr ⟨v, hv, by rw [hvalue]⟩)
  | int i => exact hintegers i (List.mem_filterMap.mpr ⟨v, hv, by rw [hvalue]⟩)
  | bool b => trivial
  | text t => trivial

/-- A well-formed structure is read back from its element. -/
theorem ofElement?_toElement {s : Structure} (h : s.WellFormed) :
  ofElement? s.toElement = some s
  := by
  have hstart : one? (fun e => some (Document.content e)) s.toElement "StartTime" =
      some s.startTime := one?_text (by simp)
  have hstep : one? (fun e => some (Document.content e)) s.toElement "BaseStepSize" =
      some s.baseStepSize := one?_text (by simp)
  have halgorithm : one? (fun e => some (Document.content e)) s.toElement "Algorithm" =
      some s.algorithm := one?_text (by simp)
  have hsimulators : one? (many? Simulator.ofElement? · "Simulator") s.toElement "Simulators" =
      some (some s.simulators) := by
    apply one?_eq (f := fun simulators => element "Simulators" [] (simulators.map Simulator.toElement))
    · simp
    · rintro simulators ⟨⟩
      apply many?_map Simulator.toElement (fun _ => rfl)
      intro simulator hmem
      obtain ⟨hstep, hvalues⟩ := h.simulator hmem
      apply Simulator.ofElement?_toElement hstep hvalues
  have hconnections : one? (·.elements.mapM Link.ofElement?) s.toElement "Connections" =
      some s.connections := by
    apply one?_eq (f := fun links => element "Connections" [] (links.map Link.toElement))
    · simp
    · intro links _
      rw [Document.elements_element]
      apply Document.mapM_map fun link _ => link.ofElement?_toElement
  simp only [ofElement?, hstart, hstep, halgorithm, hsimulators, hconnections]
  simp [toElement, optional?_text, List.lookup]

end Structure

/-! ## Forms -/

/-- The names of typed values. -/
def valueForms : List (String × Form) := ["Real", "Integer", "Boolean", "String"].map (·, .leaf)

/-- The types of data are names of tags. -/
theorem isTagName_dataType (type : DataType) :
  isTagName type.text.toList = true
  := by
  cases type <;> decide

/-- The forms of values know the type of every start value. -/
theorem lookup_valueForms (v : Start) :
  valueForms.lookup v.dataType.text = some .leaf
  := by
  cases v <;> rfl

/-- An initial value is listed by every form that knows initial values, if its texts can be written.
-/
theorem InitialValue.listed {known : List (String × Form)} {v : InitialValue}
    (hknown : known.lookup "InitialValue" = some (.children valueForms)) (hvalue : IsExact v.value)
    (h : ∀ s ∈ v.strings, IsText s) :
  Listed known [v.toElement]
  := by
  obtain ⟨name, value⟩ := v
  rw [strings, List.forall_mem_cons] at h
  obtain ⟨hname, htext⟩ := h
  have hwritten : IsText value.toText := by
    cases value with
    | real x => exact Document.isText_plain hvalue
    | int i => exact Document.isText_intText i
    | bool b =>
      have htrue : IsText "true" := List.all_eq_true.mp rfl
      have hfalse : IsText "false" := List.all_eq_true.mp rfl
      cases b with
      | true => exact htrue
      | false => exact hfalse
    | text s => exact htext s List.mem_cons_self
  apply Listed.of_element hknown rfl (by simp; decide) (by simpa using hname)
  apply Listed.of_element (lookup_valueForms value) (isTagName_dataType _) (by simp; decide)
    (by simpa using hwritten) (.nil _)

/-- A simulator is listed by every form that knows simulators, if its texts can be written. -/
theorem Simulator.listed {known : List (String × Form)} {s : Simulator}
    (hknown : known.lookup "Simulator" = some (.children
      [("InitialValues", .children [("InitialValue", .children valueForms)])]))
    (hstep : ∀ x ∈ s.stepSize, x.isNaN = false) (hvalues : ∀ v ∈ s.values, IsExact v.value)
    (h : ∀ t ∈ s.strings, IsText t) :
  Listed known [s.toElement]
  := by
  rw [strings, List.forall_mem_cons, List.forall_mem_cons, List.forall_mem_flatMap] at h
  obtain ⟨hname, hsource, hstrings⟩ := h
  apply Listed.of_element hknown rfl (by simp; decide)
  · have hsize : ∀ x ∈ s.stepSize, IsText x.plain := fun x hx => Document.isText_plain (hstep x hx)
    simpa using ⟨hname, hsource, hsize⟩
  · apply Listed.map
    intro values hinitial
    have hmem : values = s.values := by
      rw [Simulator.values, Option.mem_toList.mp hinitial, Option.getD_some]
    apply Listed.of_element rfl rfl (List.forall_mem_nil _) (List.forall_mem_nil _)
    apply Listed.map
    intro v hv
    rw [hmem] at hv
    apply InitialValue.listed rfl (hvalues v hv) (hstrings v hv)

/-- A terminal is listed by every form that knows its name, if its texts can be written. -/
theorem Terminal.listed {known : List (String × Form)} {name ownerKey : String} {p : Terminal}
    (hknown : known.lookup name = some .leaf) (hname : isTagName name.toList = true)
    (hkey : isTagName ownerKey.toList = true) (h : ∀ s ∈ p.strings, IsText s) :
  Listed known [p.toElement name ownerKey]
  := by
  apply Listed.of_element hknown hname _ (by simpa [strings] using h) (.nil _)
  have hother : isTagName "name".toList = true := rfl
  simpa using ⟨hkey, hother⟩

/-- The forms of the connections. -/
def linkForms : List (String × Form) :=
  [("VariableConnection", .children [("Variable", .leaf)]),
    ("VariableGroupConnection", .children [("VariableGroup", .leaf)]),
    ("SignalConnection", .children [("Variable", .leaf), ("Signal", .leaf)]),
    ("SignalGroupConnection", .children [("VariableGroup", .leaf), ("SignalGroup", .leaf)])]

/-- The kinds of links are names of tags. -/
theorem Link.isTagName_tag (l : Link) :
  isTagName l.tag.toList = true
  := by
  cases l <;> rw [tag] <;> decide

/-- A link is listed by the form of links, if its texts can be written. -/
theorem Link.listed {l : Link} (h : ∀ p ∈ l.terminals, ∀ s ∈ p.strings, IsText s) :
  Listed linkForms [l.toElement]
  := by
  have hlisted {inner : List (String × Form)} {name ownerKey : String} {ps : List Terminal}
      (hform : inner.lookup name = some .leaf) (hname : isTagName name.toList = true)
      (hkey : isTagName ownerKey.toList = true) (hps : ∀ p ∈ ps, p ∈ l.terminals) :
      Listed inner (ps.map (Terminal.toElement name ownerKey)) :=
    .map fun p hp => Terminal.listed hform hname hkey (h p (hps p hp))
  have htag := l.isTagName_tag
  have hnone {P : String × Option String → Prop} : ∀ a ∈ [], P a := List.forall_mem_nil _
  cases l with
  | ofVariables terminals =>
    apply Listed.of_element rfl htag hnone hnone
    exact hlisted rfl rfl rfl fun p hp => hp
  | ofGroups terminals =>
    apply Listed.of_element rfl htag hnone hnone
    exact hlisted rfl rfl rfl fun p hp => hp
  | ofSignals terminals signals =>
    apply Listed.of_element rfl htag hnone hnone
    exact (hlisted rfl rfl rfl fun p hp => List.mem_append_left _ hp).append
      (hlisted rfl rfl rfl fun p hp => List.mem_append_right _ hp)
  | ofSignalGroups terminals signals =>
    apply Listed.of_element rfl htag hnone hnone
    exact (hlisted rfl rfl rfl fun p hp => List.mem_append_left _ hp).append
      (hlisted rfl rfl rfl fun p hp => List.mem_append_right _ hp)

namespace Structure

/-- The texts of a well-formed structure can be the contents of elements. -/
theorem WellFormed.isContent {s : Structure} (h : s.WellFormed) {t : String} (ht : t ∈ s.texts) :
  IsContent t
  := by
  obtain ⟨hne, htrim⟩ := h.texts t ht
  refine ⟨h.strings t ?_, htrim, ?_⟩
  · simp only [Structure.strings, List.mem_append]
    exact .inl (.inl (.inr ht))
  · rw [Ne, String.toList_eq_nil_iff]
    apply hne

/-- A well-formed structure is listed by the form of structures. -/
theorem listed {s : Structure} (h : s.WellFormed) :
  Listed [(rootName, .children known)] [s.toElement]
  := by
  have hstrings := h.strings
  simp only [strings, List.forall_mem_append, List.forall_mem_flatMap] at hstrings
  obtain ⟨⟨⟨⟨hxmlns, hversion⟩, -⟩, hsimulators⟩, hconnections⟩ := hstrings
  have htexts {name : String} {t : Option String} (hform : known.lookup name = some .text)
      (hname : isTagName name.toList = true) (ht : ∀ x ∈ t.toList, x ∈ s.texts) :
      Listed known (t.toList.map (textElement name)) :=
    .map fun x hx => .of_text hform hname (h.isContent (ht x hx))
  apply Listed.of_element rfl rfl (by simp; decide) (by simpa using And.intro hxmlns hversion)
  refine .append (.append (.append (.append (htexts rfl rfl ?_) (htexts rfl rfl ?_))
    (htexts rfl rfl ?_)) ?_) ?_
  · exact fun t ht => List.mem_append_left _ (List.mem_append_left _ ht)
  · exact fun t ht => List.mem_append_left _ (List.mem_append_right _ ht)
  · exact fun t ht => List.mem_append_right _ ht
  · apply Listed.of_element rfl rfl (List.forall_mem_nil _) (List.forall_mem_nil _)
    apply Listed.map
    intro simulator hmem
    obtain ⟨hstep, hvalues⟩ := h.simulator hmem
    apply Simulator.listed rfl hstep hvalues (hsimulators simulator hmem)
  · apply Listed.map
    intro links hlinks
    apply Listed.of_element rfl rfl (List.forall_mem_nil _) (List.forall_mem_nil _)
    apply Listed.map
    intro link hlink
    rw [Option.mem_toList.mp hlinks, Option.getD_some] at hconnections
    exact Link.listed (hconnections link hlink)

/-- A structure is read again from either of its written forms. -/
theorem WellFormed.survives {s : Structure} (h : s.WellFormed) :
  Document.Survives read? s.toElement s
  := Document.survives_of_listed (listed h) (ofElement?_toElement h)

end Structure

end Cosim.Osp
