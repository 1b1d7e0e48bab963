import Cosim.Proofs.Xml.Edited

/-!
# Changes of first elements

What the change of the first child element with a property means for the other child elements:
those with another property are the same as before if no element can have both.  Changes of that
kind commute.  A change of a tree can also be told attribute by attribute: `SetAt` is one setting of
an attribute at a place.
-/

namespace Cosim.Xml

namespace Element

variable {p q : Element → Bool} {f g : Element → Element} {nodes front back : List Node}
  {e e' : Element} {key k value name other : String}

/-- An attribute that is set has its value, and all others are as before. -/
theorem attr?_setAttr (e : Element) (key value k : String) :
  (e.setAttr key value).attr? k = if k = key then some value else e.attr? k
  := Entries.get?_put

/-! ## The first element -/

/-- No child element has the property. -/
def Lacks (p : Element → Bool) (nodes : List Node) : Prop :=
  ∀ e ∈ nodes.filterMap Node.element?, p e = false

/-- A node that is no element does not matter to what is lacking. -/
theorem lacks_cons_of_none {node : Node} (h : node.element? = none) :
  Lacks p (node :: nodes) ↔ Lacks p nodes
  := by
  rw [Lacks, List.filterMap_cons_none h, Lacks]

/-- Nodes behind an element lack a property together with it exactly if neither it nor they have it.
-/
theorem lacks_cons_of_some {node : Node} (h : node.element? = some e) :
  Lacks p (node :: nodes) ↔ p e = false ∧ Lacks p nodes
  := by
  rw [Lacks, List.filterMap_cons_some h, List.forall_mem_cons, Lacks]

/-- What is lacking is so of every narrower property. -/
theorem Lacks.mono (h : Lacks p nodes) (himp : ∀ e, q e = true → p e = true) :
  Lacks q nodes
  := by
  intro e he
  rw [← Bool.not_eq_true]
  intro hq
  have hp := h e he
  rw [himp e hq] at hp
  cases hp

/-- Either there is no element with a property, or there is a first one. -/
theorem lacks_or_first (p : Element → Bool) (nodes : List Node) :
  Lacks p nodes ∨
    ∃ front e back, nodes = front ++ .ofElement e :: back ∧ Lacks p front ∧ p e = true
  := by
  induction nodes with
  | nil => exact .inl (List.forall_mem_nil _)
  | cons node nodes ih =>
    cases helement : node.element? with
    | none =>
      obtain h | ⟨front, e, back, rfl, hfront, he⟩ := ih
      · exact .inl ((lacks_cons_of_none helement).mpr h)
      · exact .inr ⟨node :: front, e, back, rfl, (lacks_cons_of_none helement).mpr hfront, he⟩
    | some c =>
      cases hc : p c with
      | true =>
        obtain rfl := Node.ofElement_of_element? helement
        exact .inr ⟨[], c, nodes, rfl, List.forall_mem_nil _, hc⟩
      | false =>
        obtain h | ⟨front, e, back, rfl, hfront, he⟩ := ih
        · exact .inl ((lacks_cons_of_some helement).mpr ⟨hc, h⟩)
        · exact .inr
            ⟨node :: front, e, back, rfl, (lacks_cons_of_some helement).mpr ⟨hc, hfront⟩, he⟩

/-- Behind nodes that lack a property, an element that has it is the first one. -/
theorem Lacks.firstAt (hfront : Lacks p front) (he : p e = true) (back : List Node) :
  Node.FirstAt p (front ++ .ofElement e :: back) front.length e
  where
  place := by rw [List.getElem?_append_right le_rfl, Nat.sub_self, List.getElem?_cons_zero]
  holds := he
  before j hj e he := by
    rw [List.getElem?_append_left hj] at he
    exact hfront e (List.mem_filterMap.mpr ⟨_, List.mem_of_getElem? he, rfl⟩)

/-- Nodes that lack the property stay as they are in front of the others. -/
theorem changeFirst_append (h : Lacks p front) (f : Element → Element) (nodes : List Node) :
  changeFirst p f (front ++ nodes) = front ++ changeFirst p f nodes
  := by
  induction front with
  | nil => rfl
  | cons node front ih =>
    rw [List.cons_append, changeFirst]
    cases helement : node.element? with
    | none =>
      dsimp only
      rw [ih ((lacks_cons_of_none helement).mp h), List.cons_append]
    | some e =>
      obtain ⟨he, hfront⟩ := (lacks_cons_of_some helement).mp h
      dsimp only
      rw [he, if_neg Bool.false_ne_true, ih hfront, List.cons_append]

/-- Nothing changes where the property is lacking. -/
theorem changeFirst_of_lacks (h : Lacks p nodes) (f : Element → Element) :
  changeFirst p f nodes = nodes
  := by
  rw [← List.append_nil nodes, changeFirst_append h, changeFirst]

/-- The first element with the property changes, and the others stay as they are. -/
theorem changeFirst_of_first (hfront : Lacks p front) (he : p e = true) (f : Element → Element)
    (back : List Node) :
  changeFirst p f (front ++ .ofElement e :: back) = front ++ .ofElement (f e) :: back
  := by
  have helement : (Node.ofElement e).element? = some e := rfl
  rw [changeFirst_append hfront, changeFirst, helement]
  dsimp only
  rw [if_pos he]

/-- The elements among nodes are those in front of an element, itself and those behind it. -/
theorem filterMap_first (front : List Node) (e : Element) (back : List Node) :
  (front ++ .ofElement e :: back).filterMap Node.element? =
    front.filterMap Node.element? ++ e :: back.filterMap Node.element?
  := by
  have helement : (Node.ofElement e).element? = some e := rfl
  rw [List.filterMap_append, List.filterMap_cons_some helement]

/-- No element is found where the property is lacking. -/
theorem find?_of_lacks (h : Lacks p nodes) :
  (nodes.filterMap Node.element?).find? p = none
  := by
  rw [List.find?_eq_none]
  intro e he
  rw [h e he]
  exact Bool.false_ne_true

/-- The first element with the property is found. -/
theorem find?_of_first (hfront : Lacks p front) (he : p e = true) (back : List Node) :
  ((front ++ .ofElement e :: back).filterMap Node.element?).find? p = some e
  := by
  rw [filterMap_first, List.find?_append, find?_of_lacks hfront, Option.none_or,
    List.find?_cons_of_pos he]

/-! ## Other elements -/

/-- Elements that neither the changed one is among nor what it becomes. -/
theorem filter_changeWhere_of_disjoint (hbefore : ∀ e, p e = true → q e = false)
    (hafter : ∀ e, p e = true → q (f e) = false) (e : Element) :
  (e.changeWhere p f).elements.filter q = e.elements.filter q
  := by
  rw [elements, elements, changeWhere]
  obtain h | ⟨front, c, back, hnodes, hfront, hc⟩ := lacks_or_first p e.children
  · rw [changeFirst_of_lacks h]
  · rw [hnodes, changeFirst_of_first hfront hc, filterMap_first, filterMap_first,
      List.filter_append, List.filter_append, List.filter_cons_of_neg (by simp [hafter c hc]),
      List.filter_cons_of_neg (by simp [hbefore c hc])]

/-- Of the elements with the property the first one is changed. -/
theorem filter_changeWhere (hp : ∀ e, p e = true → p (f e) = true) (e : Element) :
  (e.changeWhere p f).elements.filter p = (e.elements.filter p).modifyHead f
  := by
  have hnil {nodes : List Node} (h : Lacks p nodes) :
      (nodes.filterMap Node.element?).filter p = [] := by
    rw [List.filter_eq_nil_iff]
    intro c hc
    rw [h c hc]
    exact Bool.false_ne_true
  rw [elements, elements, changeWhere]
  obtain h | ⟨front, c, back, hnodes, hfront, hc⟩ := lacks_or_first p e.children
  · rw [changeFirst_of_lacks h, hnil h, List.modifyHead_nil]
  · rw [hnodes, changeFirst_of_first hfront hc, filterMap_first, filterMap_first,
      List.filter_append, List.filter_append, hnil hfront, List.filter_cons_of_pos (hp c hc),
      List.filter_cons_of_pos hc, List.nil_append, List.nil_append, List.modifyHead_cons]

/-- Changing the child of one name leaves that of another one. -/
theorem child?_changeChild_of_ne (hne : name ≠ other) (hf : ∀ e, (f e).name = e.name)
    (e : Element) :
  (e.changeChild name f).child? other = e.child? other
  := by
  have hdisjoint (c : Element) (h : (c.name == name) = true) : (c.name == other) = false := by
    rw [beq_iff_eq.mp h, beq_eq_false_iff_ne]
    exact hne
  have hfilter := filter_changeWhere_of_disjoint (f := f) hdisjoint
    (fun c hc => by rw [hf c, hdisjoint c hc]) e
  rw [child?, child?, ← List.head?_filter, ← List.head?_filter, ← hfilter]
  rfl

/-- Changing the child of a name changes the one that is found. -/
theorem child?_changeChild (hf : ∀ e, (f e).name = e.name) (e : Element) (name : String) :
  (e.changeChild name f).child? name = (e.child? name).map f
  := by
  have hfilter := filter_changeWhere (p := (·.name == name)) (f := f)
    (fun c hc => by rwa [hf c]) e
  rw [child?, child?, ← List.head?_filter, ← List.head?_filter, ← List.head?_modifyHead, ← hfilter]
  rfl

/-- Changes of first elements commute where no element has both properties. -/
theorem changeFirst_comm (hdisjoint : ∀ e, p e = true → q e = false)
    (hp : ∀ e, p e = true → p (f e) = true) (hq : ∀ e, q e = true → q (g e) = true)
    (nodes : List Node) :
  changeFirst q g (changeFirst p f nodes) = changeFirst p f (changeFirst q g nodes)
  := by
  have hback (e : Element) (h : q e = true) : p e = false := by
    rw [← Bool.not_eq_true]
    intro hholds
    rw [hdisjoint e hholds] at h
    cases h
  have hkept (e : Element) : (Node.ofElement e).element? = some e := rfl
  induction nodes with
  | nil => rfl
  | cons node nodes ih =>
    rw [changeFirst, changeFirst]
    cases helement : node.element? with
    | none =>
      dsimp only
      rw [changeFirst, changeFirst, helement]
      dsimp only
      rw [ih]
    | some e =>
      dsimp only
      by_cases hholds : p e = true
      · rw [if_pos hholds, hdisjoint e hholds, if_neg Bool.false_ne_true, changeFirst, changeFirst,
          hkept, helement]
        dsimp only
        rw [if_pos hholds, hdisjoint _ (hp e hholds), if_neg Bool.false_ne_true]
      · rw [if_neg hholds]
        by_cases hother : q e = true
        · rw [if_pos hother, changeFirst, changeFirst, hkept, helement]
          dsimp only
          rw [if_pos hother, hback _ (hq e hother), if_neg Bool.false_ne_true]
        · rw [if_neg hother, changeFirst, changeFirst, helement]
          dsimp only
          rw [if_neg hholds, if_neg hother, ih]

end Element

/-! ## Settings of attributes -/

/-- One attribute of a tree gets a value, at the end of a path of places of children; what it had
before is known. -/
inductive SetAt (key : String) (old : Option String) (value : String) :
    List ℕ → Element → Element → Prop where
  | here {e : Element} (hold : e.attr? key = old) : SetAt key old value [] e (e.setAttr key value)
  | child {path : List ℕ} {name : String} {attributes : Entries String} {front back : List Node}
    {c c' : Element} (h : SetAt key old value path c c') :
    SetAt key old value (front.length :: path) ⟨name, attributes, front ++ .ofElement c :: back⟩
      ⟨name, attributes, front ++ .ofElement c' :: back⟩

end Cosim.Xml
