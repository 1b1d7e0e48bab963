import Cosim.Proofs.Document.Writing
import Cosim.Proofs.Entries
import Cosim.Proofs.Number.Notation

/-!
# Fields of written elements

What is read of an element that was made of attributes and children is what it was made of.
-/

namespace Cosim.Document

open Xml (Element Node)
open Token (IsWritable)

variable {α β : Type}

/-! ## Attributes -/

/-- Under a key a written element has the one attribute that is given for it, if any. -/
theorem filter_attributes {attributes : List (String × Option String)} {key : String}
    (h : (attributes.map Prod.fst).Nodup) :
  (attributes.filterMap fun (key, value) => value.map (key, ·)).filter (·.1 == key) =
    ((attributes.lookup key).join.map (key, ·)).toList
  := by
  induction attributes with
  | nil => rfl
  | cons a attributes ih =>
    obtain ⟨first, value⟩ := a
    rw [List.map_cons, List.nodup_cons] at h
    have ih := ih h.2
    by_cases heq : first = key
    · subst heq
      have hnone : attributes.lookup first = none := by
        rw [List.lookup_eq_none_iff]
        intro a ha
        rw [bne_iff_ne]
        intro hfirst
        apply h.1
        simp only [hfirst]
        exact List.mem_map_of_mem ha
      rw [hnone] at ih
      rw [List.lookup_cons, beq_self_eq_true]
      cases value with
      | none => simpa using ih
      | some s => simpa using ih
    · have hskip : (key == first) = false := by simpa using Ne.symm heq
      rw [List.lookup_cons, hskip]
      cases value with
      | none => simpa using ih
      | some s => simpa [heq] using ih

section Attributes

variable {attributes : List (String × Option String)} (name : String) (es : List Element)
  (read? : List Char → Option α) (key : String)

/-- An attribute is read of the value that it was given, if it was given any. -/
theorem optional?_element (h : (attributes.map Prod.fst).Nodup) :
  optional? read? (element name attributes es) key =
    match (attributes.lookup key).join with
    | none => some none
    | some s => (read? s.toList).map some
  := by
  have hattributes : (element name attributes es).attributes.filter (·.1 == key) =
      ((attributes.lookup key).join.map (key, ·)).toList := filter_attributes h
  rw [optional?, hattributes]
  cases (attributes.lookup key).join with
  | none => rfl
  | some s => rfl

/-- A required attribute is read from the value that the element is written with. -/
theorem required?_element (h : (attributes.map Prod.fst).Nodup) :
  required? read? (element name attributes es) key =
    (attributes.lookup key).join.bind fun s => read? s.toList
  := by
  rw [required?, optional?_element name es read? key h]
  cases (attributes.lookup key).join with
  | none => rfl
  | some s =>
    cases hread : read? s.toList with
    | none => simp [hread]
    | some x => simp [hread]

/-- An optional text is read back, be it there or not. -/
theorem optional?_text (h : (attributes.map Prod.fst).Nodup) :
  optional? text? (element name attributes es) key = some (attributes.lookup key).join
  := by
  rw [optional?_element name es text? key h]
  cases (attributes.lookup key).join with
  | none => rfl
  | some s => simp [text?]

/-- A required text is read back. -/
theorem required?_text (h : (attributes.map Prod.fst).Nodup) :
  required? text? (element name attributes es) key = (attributes.lookup key).join
  := by
  rw [required?, optional?_text name es key h]
  rfl

/-- A value is read of what was written for it. -/
theorem optional?_eq {write : α → String} {x : Option α} {read? : List Char → Option α}
    {key : String} (h : (attributes.map Prod.fst).Nodup)
    (hvalue : (attributes.lookup key).join = x.map write)
    (hread : ∀ y ∈ x, read? (write y).toList = some y) :
  optional? read? (element name attributes es) key = some x
  := by
  rw [optional?_element name es read? key h, hvalue]
  cases x with
  | none => rfl
  | some y => simp [hread y rfl]

/-- An optional number is read back from its plain text, be it there or not. -/
theorem optional?_real {key : String} {x : Option Double} (h : (attributes.map Prod.fst).Nodup)
    (hvalue : (attributes.lookup key).join = x.map Double.plain)
    (hx : ∀ y ∈ x, y.isNaN = false) :
  optional? Literal.real? (element name attributes es) key = some x
  := optional?_eq name es h hvalue fun y hy => Literal.real?_plain_of_isNaN (hx y hy)

end Attributes

/-- Keys are mapped to the values beside them if each key is. -/
theorem mapM_eq_of_zip {f : α → Option β} {keys : List α} {xs : List β}
    (hlength : keys.length = xs.length) (h : ∀ p ∈ keys.zip xs, f p.1 = some p.2) :
  keys.mapM f = some xs
  := by
  induction keys generalizing xs with
  | nil =>
    rw [List.length_eq_zero_iff.mp hlength.symm]
    rfl
  | cons key keys ih =>
    cases xs with
    | nil => cases hlength
    | cons x xs =>
      rw [List.zip_cons_cons, List.forall_mem_cons] at h
      rw [List.mapM_cons, h.1, ih (Nat.succ.inj hlength) h.2]
      rfl

/-- Values that were written under keys one by one are read one by one. -/
theorem mapM_optional? (name : String) (es : List Element) {keys : List String}
    {xs : List (Option α)} {more : List (String × Option String)} {write : α → String}
    {read? : List Char → Option α} (hlength : keys.length = xs.length)
    (hnodup : (keys ++ more.map Prod.fst).Nodup)
    (hread : ∀ x ∈ xs, ∀ y ∈ x, read? (write y).toList = some y) :
  keys.mapM (optional? read?
      (element name (keys.zip (xs.map (·.map write)) ++ more) es)) = some xs
  := by
  have hkeys : (keys.zip (xs.map (·.map write)) ++ more).map Prod.fst =
      keys ++ more.map Prod.fst := by
    rw [List.map_append, List.map_fst_zip (by simp [hlength])]
  apply mapM_eq_of_zip hlength
  rintro ⟨key, x⟩ hmem
  have hwritten : (key, x.map write) ∈ keys.zip (xs.map (·.map write)) ++ more := by
    apply List.mem_append_left
    rw [List.zip_map_right]
    exact List.mem_map_of_mem (f := Prod.map id (·.map write)) hmem
  have hlookup := Entries.get?_of_mem (by rw [Entries.keys, hkeys]; exact hnodup) hwritten
  rw [Entries.get?] at hlookup
  refine optional?_eq _ _ ?_ ?_ (hread x (List.of_mem_zip hmem).2)
  · rw [hkeys]
    exact hnodup
  · rw [hlookup]
    rfl

/-! ## Children -/

@[simp]
theorem name_element (name : String) (attributes : List (String × Option String))
    (es : List Element) :
  (element name attributes es).name = name
  := rfl

@[simp]
theorem elements_element (name : String) (attributes : List (String × Option String))
    (es : List Element) :
  (element name attributes es).elements = es
  := by
  have hsome : Node.element? ∘ Node.ofElement = some := by
    funext e
    rfl
  rw [Element.elements, element, List.filterMap_map, hsome, List.filterMap_some]

/-- The children of a name are found among the elements that were written. -/
theorem childrenNamed_element (name key : String) (attributes : List (String × Option String))
    (es : List Element) :
  (element name attributes es).childrenNamed key = es.filter (·.name == key)
  := by
  rw [Element.childrenNamed, elements_element]

/-- Elements that all have one name are found under this name and under no other. -/
theorem filter_map_name {name : String} {f : β → Element} (hf : ∀ x, (f x).name = name)
    (key : String) (xs : List β) :
  (xs.map f).filter (·.name == key) = if name == key then xs.map f else []
  := by
  have hname : (fun e : Element => e.name == key) ∘ f = fun _ => name == key := by
    funext x
    rw [Function.comp_apply, hf]
  rw [List.filter_map, hname]
  cases name == key with
  | true => simp
  | false => simp

/-- A list is read back if each of its items is. -/
theorem mapM_map {f : β → Element} {read? : Element → Option β} {xs : List β}
    (h : ∀ x ∈ xs, read? (f x) = some x) :
  (xs.map f).mapM read? = some xs
  := by
  induction xs with
  | nil => rfl
  | cons x xs ih =>
    rw [List.forall_mem_cons] at h
    rw [List.map_cons, List.mapM_cons, h.1, ih h.2]
    rfl

section Children

variable {name own : String} {attributes : List (String × Option String)} {es : List Element}
  {f : β → Element} {read? : Element → Option β}

/-- Elements with texts are found under their name and under no other. -/
@[simp]
theorem filter_textElement (name key : String) (texts : List String) :
  (texts.map (textElement name)).filter (·.name == key) =
    if name == key then texts.map (textElement name) else []
  := filter_map_name (f := textElement name) (fun _ => rfl) key texts

/-- Elements that are written alike are found under their name and under no other. -/
@[simp]
theorem filter_element (name key : String) (attributes : β → List (String × Option String))
    (children : β → List Element) (xs : List β) :
  (xs.map fun x => element name (attributes x) (children x)).filter (·.name == key) =
    if name == key then xs.map fun x => element name (attributes x) (children x) else []
  := filter_map_name (f := fun x => element name (attributes x) (children x)) (fun _ => rfl) key xs

/-- Children of a name are read of what was written for them. -/
theorem many?_eq {xs : List β} (hchildren : es.filter (·.name == name) = xs.map f)
    (h : ∀ x ∈ xs, read? (f x) = some x) :
  many? read? (element own attributes es) name = some xs
  := by
  rw [many?, childrenNamed_element, hchildren, mapM_map h]

/-- An optional child is read back, be it there or not, if it is read back where it is. -/
theorem one?_eq {x : Option β} (hchildren : es.filter (·.name == name) = x.toList.map f)
    (h : ∀ y ∈ x, read? (f y) = some y) :
  one? read? (element own attributes es) name = some x
  := by
  rw [one?, many?_eq hchildren (by simpa using h)]
  cases x with
  | none => rfl
  | some y => rfl

variable (f)

/-- Any number of children are read back if each is. -/
theorem many?_map (hname : ∀ x, (f x).name = name) {xs : List β}
    (h : ∀ x ∈ xs, read? (f x) = some x) :
  many? read? (element own attributes (xs.map f)) name = some xs
  := by
  apply many?_eq (f := f) _ h
  rw [filter_map_name hname, beq_self_eq_true, if_pos rfl]

/-- An optional child that is all there is is read back. -/
theorem one?_map (hname : ∀ x, (f x).name = name) {x : Option β}
    (h : ∀ y ∈ x, read? (f y) = some y) :
  one? read? (element own attributes (x.toList.map f)) name = some x
  := by
  apply one?_eq (f := f) _ h
  rw [filter_map_name hname, beq_self_eq_true, if_pos rfl]

end Children

/-- The text of an element is read back. -/
theorem content_textElement (name s : String) :
  content (textElement name s) = s
  := by
  simp [content, textElement]

/-- The text of an element of its own is what was written there. -/
theorem one?_text {name own : String} {attributes : List (String × Option String)}
    {es : List Element} {s : Option String}
    (h : es.filter (·.name == name) = s.toList.map (textElement name)) :
  one? (fun e => some (content e)) (element own attributes es) name = some s
  := one?_eq (f := textElement name) h fun t _ => congrArg some (content_textElement name t)

/-! ## Elements that fit -/

section Listed

variable {known inner : List (String × Form)}

/-- Elements that a form lists may stand behind each other. -/
theorem Listed.append {es es' : List Element} (h : Listed known es) (h' : Listed known es') :
  Listed known (es ++ es')
  := by
  induction h with
  | nil known => apply h'
  | textual hknown hname hs hes ih => exact .textual hknown hname hs (ih h')
  | element hknown htag hchildren hes ihchildren ih => exact .element hknown htag hchildren (ih h')

/-- An element that a form lists may stand before others that it lists. -/
theorem Listed.cons {e : Element} {es : List Element} (h : Listed known [e])
    (h' : Listed known es) :
  Listed known (e :: es)
  := h.append h'

/-- Elements that are made from items are listed if each one is. -/
theorem Listed.map {f : β → Element} {xs : List β} (h : ∀ x ∈ xs, Listed known [f x]) :
  Listed known (xs.map f)
  := by
  induction xs with
  | nil => exact .nil known
  | cons x xs ih =>
    rw [List.forall_mem_cons] at h
    exact h.1.append (ih h.2)

/-- A form lists an element whose name it knows and whose children its inner form lists. -/
theorem Listed.of_element {name : String} {attributes : List (String × Option String)}
    {es : List Element} (hknown : known.lookup name = some (.children inner))
    (hname : isTagName name.toList = true)
    (hkeys : ∀ a ∈ attributes, isTagName a.1.toList = true)
    (hvalues : ∀ a ∈ attributes, ∀ s ∈ a.2, IsText s) (hes : Listed inner es) :
  Listed known [Document.element name attributes es]
  := by
  refine .element hknown ⟨hname, fun a ha => ?_⟩ hes (.nil known)
  obtain ⟨⟨key, value⟩, hmem, hvalue⟩ := List.mem_filterMap.mp ha
  obtain ⟨s, hs, rfl⟩ := Option.map_eq_some_iff.mp hvalue
  have hkey := hkeys _ hmem
  have htext := hvalues _ hmem s hs
  exact ⟨hkey, htext⟩

/-- A form lists an element with a text if it knows its name as that of a text. -/
theorem Listed.of_text {name s : String} (hknown : known.lookup name = some .text)
    (hname : isTagName name.toList = true) (hs : IsContent s) :
  Listed known [textElement name s]
  := .textual hknown hname hs (.nil known)

end Listed

/-! ## Texts of numbers -/

/-- What may stand in numerals may stand in documents. -/
theorem isXmlChar_of_isNumeral {c : Char} (h : Literal.isNumeral c = true) :
  isXmlChar c = true
  := by
  rw [Literal.isNumeral, Bool.or_eq_true] at h
  obtain h | h := h
  · obtain ⟨hlow, hhigh⟩ := Literal.le_of_isDigit h
    have hlow : 48 ≤ c.toNat := hlow
    have hhigh : c.toNat ≤ 57 := hhigh
    rw [isXmlChar, if_neg (by omega), Bool.and_eq_true, bne_iff_ne, bne_iff_ne]
    omega
  · rw [List.contains_eq_mem, decide_eq_true_eq] at h
    change c ∈ ['+', '-', '.', 'e'] at h
    simp only [List.mem_cons, List.not_mem_nil, or_false] at h
    obtain rfl | rfl | rfl | rfl := h <;> decide

/-- Integers are texts that documents can hold. -/
theorem isText_intText (i : Int) :
  IsText (intText i)
  := fun c hc => isXmlChar_of_isNumeral (Literal.isNumeral_intText i c hc)

/-- Doubles are written as texts that documents can hold. -/
theorem isText_plain {x : Double} (h : x.isNaN = false) :
  IsText x.plain
  := by
  by_cases hfinite : x.isFinite
  · exact fun c hc => isXmlChar_of_isNumeral (Literal.isNumeral_plain hfinite c hc)
  · have hinfinite : x.isInfinite = true := by
      rw [Double.isNaN, decide_eq_false_iff_not] at h
      rw [Double.isFinite, decide_eq_true_eq] at hfinite
      rw [Double.isInfinite, beq_iff_eq]
      omega
    have hminus : IsText "-inf" := List.all_eq_true.mp rfl
    have hplus : IsText "inf" := List.all_eq_true.mp rfl
    rw [Literal.plain_of_isInfinite hinfinite]
    split
    · apply hminus
    · apply hplus

end Cosim.Document
