import Cosim.Proofs.Entries
import Cosim.Proofs.Xml.Tidy

/-!
# Edited trees

What two trees have in common if one has come from the other by edits of attributes: the same
elements, texts and comments stand in the same places, and so do the attributes.  A family of sets
of keys tells which attributes may have other values, or have been added, at the end of a path.
-/

namespace Cosim

/-! ## Edited attributes -/

namespace Entries

variable {α : Type} {keys more : String → Prop} {es es' es'' : Entries α} {key : String}

/-- The same entries in the same order, except for other values under some keys, and for entries
with such keys behind them. -/
inductive Extended (keys : String → Prop) : Entries α → Entries α → Prop where
  | behind {added : Entries α} (hkeys : ∀ e ∈ added, keys e.1) : Extended keys [] added
  | kept (e : String × α) {es es' : Entries α} (h : Extended keys es es') :
    Extended keys (e :: es) (e :: es')
  | changed {key : String} (hkey : keys key) (v v' : α) {es es' : Entries α}
    (h : Extended keys es es') : Extended keys ((key, v) :: es) ((key, v') :: es')

namespace Extended

theorem refl (keys : String → Prop) (es : Entries α) :
  Extended keys es es
  := by
  induction es with
  | nil => apply behind (List.forall_mem_nil _)
  | cons e es ih => apply kept e ih

/-- What is extended by some keys is extended by more. -/
theorem mono (h : Extended keys es es') (hmore : ∀ key, keys key → more key) :
  Extended more es es'
  := by
  induction h with
  | behind hkeys => apply behind fun e he => hmore e.1 (hkeys e he)
  | kept e _ ih => apply kept e ih
  | changed hkey v v' _ ih => apply changed (hmore _ hkey) v v' ih

/-- Entries under some keys that are extended by such keys are still under such keys. -/
theorem forall_keys (h : Extended keys es es') (hes : ∀ e ∈ es, keys e.1) :
  ∀ e ∈ es', keys e.1
  := by
  induction h with
  | behind hkeys => exact hkeys
  | kept e _ ih =>
    rw [List.forall_mem_cons] at hes ⊢
    exact ⟨hes.1, ih hes.2⟩
  | changed hkey v v' _ ih =>
    rw [List.forall_mem_cons] at hes ⊢
    exact ⟨hkey, ih hes.2⟩

/-- Two extensions are one. -/
theorem trans (h : Extended keys es es') (h' : Extended keys es' es'') :
  Extended keys es es''
  := by
  induction h generalizing es'' with
  | behind hkeys => apply behind (h'.forall_keys hkeys)
  | kept e _ ih =>
    cases h' with
    | kept _ h' => apply kept e (ih h')
    | changed hkey v v' h' => apply changed hkey v v' (ih h')
  | changed hkey v v' _ ih =>
    cases h' with
    | kept _ h' => apply changed hkey v v' (ih h')
    | changed _ _ v'' h' => apply changed hkey v v'' (ih h')

/-- An entry that is put under one of the keys extends the entries. -/
theorem put (hkey : keys key) (es : Entries α) (v : α) :
  Extended keys es (es.put key v)
  := by
  induction es with
  | nil => apply behind (List.forall_mem_singleton.mpr hkey)
  | cons e es ih =>
    obtain ⟨k, w⟩ := e
    rw [Entries.put]
    split
    · rename_i hk
      rw [← beq_iff_eq.mp hk] at hkey
      apply changed hkey w v (refl keys es)
    · apply kept _ ih

/-- Other keys have their values. -/
theorem get?_eq (h : Extended keys es es') (hkey : ¬ keys key) :
  es'.get? key = es.get? key
  := by
  induction h with
  | behind hkeys =>
    rw [get?_nil, get?_eq_none_iff]
    intro hmem
    obtain ⟨e, he, rfl⟩ := List.mem_map.mp hmem
    exact hkey (hkeys e he)
  | kept e _ ih => rw [get?_cons, get?_cons, ih]
  | changed hchanged v v' _ ih =>
    have hne : ¬ key = _ := fun heq => hkey (heq ▸ hchanged)
    rw [get?_cons, get?_cons, if_neg hne, if_neg hne, ih]

/-- Every key was there or may be added. -/
theorem of_mem (h : Extended keys es es') {e : String × α} (he : e ∈ es') :
  e.1 ∈ Entries.keys es ∨ keys e.1
  := by
  induction h with
  | behind hkeys => exact .inr (hkeys e he)
  | kept e' _ ih =>
    obtain rfl | he := List.mem_cons.mp he
    · exact .inl List.mem_cons_self
    · exact (ih he).imp_left (List.mem_cons_of_mem _)
  | changed hkey v v' _ ih =>
    obtain rfl | he := List.mem_cons.mp he
    · exact .inl List.mem_cons_self
    · exact (ih he).imp_left (List.mem_cons_of_mem _)

end Extended

/-- Entries that were edited under some keys: an entry was added only under a new key. -/
structure Edited (keys : String → Prop) (es es' : Entries α) : Prop where
  extended : Extended keys es es'
  nodup : es.keys.Nodup → es'.keys.Nodup

namespace Edited

theorem refl (keys : String → Prop) (es : Entries α) :
  Edited keys es es
  := ⟨.refl keys es, id⟩

/-- What is edited under some keys is edited under more. -/
theorem mono (h : Edited keys es es') (hmore : ∀ key, keys key → more key) :
  Edited more es es'
  := ⟨h.extended.mono hmore, h.nodup⟩

/-- Two edits are one. -/
theorem trans (h : Edited keys es es') (h' : Edited keys es' es'') :
  Edited keys es es''
  := ⟨h.extended.trans h'.extended, h'.nodup ∘ h.nodup⟩

/-- An entry that is put under one of the keys edits the entries. -/
theorem put (hkey : keys key) (es : Entries α) (v : α) :
  Edited keys es (es.put key v)
  := ⟨.put hkey es v, nodup_keys_put⟩

end Edited

end Entries

namespace Xml

/-! ## Edited children -/

/-- Changes the first child element with a property. -/
def Element.changeWhere (e : Element) (p : Element → Bool) (change : Element → Element) :
    Element :=
  { e with children := changeFirst p change e.children }

/-- The keys of attributes that may be edited, by the places of children on the way to them. -/
abbrev Places := List ℕ → String → Prop

/-- The places in a child. -/
def Places.within (K : Places) (i : ℕ) : Places := fun path => K (i :: path)

namespace Node

variable {K L : Places} {nodes nodes' : List Node} {node node' node'' : Node}

/-- A child that differs from another one in some attributes only. -/
inductive Edited : Places → Node → Node → Prop where
  | element {K : Places} {name : String} {attributes attributes' : Entries String}
    {children children' : List Node} (hattributes : attributes.Edited (K []) attributes')
    (hlength : children'.length = children.length)
    (hchildren : ∀ i node node', children[i]? = some node → children'[i]? = some node' →
      Edited (K.within i) node node') :
    Edited K (.element name attributes children) (.element name attributes' children')
  | text {K : Places} (s : String) : Edited K (.text s) (.text s)
  | comment {K : Places} (s : String) : Edited K (.comment s) (.comment s)

namespace Edited

/-- A node of a list is an edit of itself at any places. -/
theorem refl_of_mem (nodes : List Node) :
  ∀ node ∈ nodes, ∀ K, Edited K node node
  := by
  induction nodes using forestInduction with
  | nil => exact List.forall_mem_nil _
  | element name attributes children nodes ihchildren ih =>
    rw [List.forall_mem_cons]
    refine ⟨fun K => .element (.refl _ _) rfl ?_, ih⟩
    intro i node node' hnode hnode'
    obtain rfl := Option.some.inj (hnode.symm.trans hnode')
    exact ihchildren node (List.mem_of_getElem? hnode) _
  | text s nodes ih => exact List.forall_mem_cons.mpr ⟨fun K => .text s, ih⟩
  | comment s nodes ih => exact List.forall_mem_cons.mpr ⟨fun K => .comment s, ih⟩

/-- A node is an edit of itself at any places. -/
theorem refl (K : Places) (node : Node) :
  Edited K node node
  := refl_of_mem [node] node List.mem_cons_self K

/-- What is edited at some places is edited at more. -/
theorem mono (h : Edited K node node') (hle : ∀ path key, K path key → L path key) :
  Edited L node node'
  := by
  induction h generalizing L with
  | element hattributes hlength _ ih =>
    refine .element (hattributes.mono (hle [])) hlength ?_
    intro i node node' hnode hnode'
    exact ih i node node' hnode hnode' fun path => hle (i :: path)
  | text s => apply text
  | comment s => apply comment

/-- Two edits of a node are one. -/
theorem trans (h : Edited K node node') (h' : Edited K node' node'') :
  Edited K node node''
  := by
  induction h generalizing node'' with
  | element hattributes hlength _ ih =>
    cases h' with
    | element hattributes' hlength' hchildren' =>
      refine .element (hattributes.trans hattributes') (hlength'.trans hlength) ?_
      intro i node node'' hnode hnode''
      have hlt := (List.getElem?_eq_some_iff.mp hnode).1
      rw [← hlength] at hlt
      have hnode' := List.getElem?_eq_getElem hlt
      exact ih i node _ hnode hnode' (hchildren' i _ node'' hnode' hnode'')
  | text s => exact h'
  | comment s => exact h'

end Edited

/-- Children that differ from others in some attributes only, place by place. -/
structure AllEdited (K : ℕ → Places) (nodes nodes' : List Node) : Prop where
  length : nodes'.length = nodes.length
  each : ∀ i node node', nodes[i]? = some node → nodes'[i]? = some node' → Edited (K i) node node'

namespace AllEdited

/-- Nodes are edits of themselves at any places. -/
theorem refl (K : ℕ → Places) (nodes : List Node) :
  AllEdited K nodes nodes
  := by
  refine ⟨rfl, fun i node node' hnode hnode' => ?_⟩
  obtain rfl := Option.some.inj (hnode.symm.trans hnode')
  apply Edited.refl

/-- Nodes are edited if the first one is at its own places and the others are at theirs. -/
theorem cons {K : ℕ → Places} (hnode : Edited (K 0) node node')
    (h : AllEdited (fun i => K (i + 1)) nodes nodes') :
  AllEdited K (node :: nodes) (node' :: nodes')
  := by
  refine ⟨congrArg (· + 1) h.length, fun i first first' hfirst hfirst' => ?_⟩
  cases i with
  | zero =>
    cases Option.some.inj hfirst
    cases Option.some.inj hfirst'
    exact hnode
  | succ i => exact h.each i first first' hfirst hfirst'

end AllEdited

/-- An edited element keeps its name, and its attributes and its children are edited at their
places. -/
theorem edited_ofElement_iff {e e' : Element} :
  Edited K (.ofElement e) (.ofElement e') ↔ e'.name = e.name ∧
    e.attributes.Edited (K []) e'.attributes ∧ AllEdited K.within e.children e'.children
  := by
  obtain ⟨name, attributes, children⟩ := e
  obtain ⟨name', attributes', children'⟩ := e'
  constructor
  · intro h
    cases h with
    | element hattributes hlength hchildren => exact ⟨rfl, hattributes, hlength, hchildren⟩
  · rintro ⟨rfl, hattributes, hlength, hchildren⟩
    exact .element hattributes hlength hchildren

/-- An edited element keeps its name. -/
theorem Edited.name_eq {e e' : Element} (h : Edited K (.ofElement e) (.ofElement e')) :
  e'.name = e.name
  := (edited_ofElement_iff.mp h).1

/-- The children of an edited element are edited at their places. -/
theorem Edited.children {e e' : Element} (h : Edited K (.ofElement e) (.ofElement e')) :
  AllEdited K.within e.children e'.children
  := (edited_ofElement_iff.mp h).2.2

/-- What was edited to an element was one. -/
theorem Edited.exists_ofElement {e' : Element} (h : Edited K node (.ofElement e')) :
  ∃ e, node = .ofElement e
  := by
  generalize heq : Node.ofElement e' = node' at h
  cases h with
  | element => exact ⟨⟨_, _, _⟩, rfl⟩
  | text s => cases heq
  | comment s => cases heq

/-- What an element is edited to is an element. -/
theorem Edited.exists_ofElement_right {e : Element} (h : Edited K (.ofElement e) node') :
  ∃ e', node' = .ofElement e'
  := by
  generalize heq : Node.ofElement e = node at h
  cases h with
  | element => exact ⟨⟨_, _, _⟩, rfl⟩
  | text s => cases heq
  | comment s => cases heq

/-! ## First elements -/

/-- The first element with a property, at a place among children. -/
structure FirstAt (p : Element → Bool) (nodes : List Node) (i : ℕ) (e : Element) : Prop where
  place : nodes[i]? = some (.ofElement e)
  holds : p e = true
  before : ∀ j < i, ∀ e, nodes[j]? = some (.ofElement e) → p e = false

/-- What is first of its kind is so behind a node of another kind. -/
theorem FirstAt.cons {p : Element → Bool} {i : ℕ} {e : Element} (h : FirstAt p nodes i e)
    (hnode : ∀ e, node = .ofElement e → p e = false) :
  FirstAt p (node :: nodes) (i + 1) e
  where
  place := h.place
  holds := h.holds
  before j hj e he := by
    cases j with
    | zero => exact hnode e (Option.some.inj he)
    | succ j => exact h.before j (Nat.lt_of_succ_lt_succ hj) e he

/-- An edit that the property does not depend on leaves the first element at its place. -/
theorem FirstAt.of_edited {p : Element → Bool} {K : ℕ → Places} {i : ℕ} {e' : Element}
    (h : FirstAt p nodes' i e') (hnodes : AllEdited K nodes nodes')
    (hp : ∀ i e e', Edited (K i) (.ofElement e) (.ofElement e') → p e' = p e) :
  ∃ e, FirstAt p nodes i e ∧ Edited (K i) (.ofElement e) (.ofElement e')
  := by
  have hback {i : ℕ} {node' : Node} (hnode' : nodes'[i]? = some node') :
      ∃ node, nodes[i]? = some node ∧ Edited (K i) node node' := by
    have hlt := (List.getElem?_eq_some_iff.mp hnode').1
    rw [hnodes.length] at hlt
    have hnode := List.getElem?_eq_getElem hlt
    exact ⟨_, hnode, hnodes.each i _ _ hnode hnode'⟩
  obtain ⟨node, hnode, hedited⟩ := hback h.place
  obtain ⟨e, rfl⟩ := hedited.exists_ofElement
  refine ⟨e, ⟨hnode, ?_, ?_⟩, hedited⟩
  · rw [← hp i e e' hedited]
    exact h.holds
  · intro j hj other hother
    have hlt := (List.getElem?_eq_some_iff.mp hother).1
    rw [← hnodes.length] at hlt
    have hplace := List.getElem?_eq_getElem hlt
    have hother' := hnodes.each j _ _ hother hplace
    obtain ⟨other', hsame⟩ := hother'.exists_ofElement_right
    rw [hsame] at hplace hother'
    rw [← hp j other other' hother']
    exact h.before j hj other' hplace

/-! ## Edits -/

/-- A node that is an element is made of it. -/
theorem ofElement_of_element? {e : Element} (h : node.element? = some e) :
  node = .ofElement e
  := by
  cases node with
  | element name attributes children =>
    cases h
    rfl
  | text s => cases h
  | comment s => cases h

/-- A change of the first element with a property edits no other child. -/
theorem allEdited_changeFirst {p : Element → Bool} {change : Element → Element} {K : ℕ → Places}
    (h : ∀ i e, FirstAt p nodes i e → Edited (K i) (.ofElement e) (.ofElement (change e))) :
  AllEdited K nodes (Element.changeFirst p change nodes)
  := by
  induction nodes generalizing K with
  | nil => apply AllEdited.refl
  | cons first nodes ih =>
    have hskip (hfirst : ∀ e, first = .ofElement e → p e = false) :
        AllEdited K (first :: nodes) (first :: Element.changeFirst p change nodes) :=
      .cons (.refl _ first) (ih fun i e he => h (i + 1) e (he.cons hfirst))
    rw [Element.changeFirst]
    cases helement : first.element? with
    | none =>
      apply hskip
      rintro e rfl
      cases helement
    | some e =>
      obtain rfl := ofElement_of_element? helement
      dsimp only
      split
      · rename_i hp
        have hfirst : FirstAt p (.ofElement e :: nodes) 0 e :=
          ⟨rfl, hp, fun j hj => absurd hj (Nat.not_lt_zero j)⟩
        exact .cons (h 0 e hfirst) (.refl _ nodes)
      · rename_i hp
        apply hskip
        intro other hother
        cases helement.symm.trans (congrArg element? hother)
        exact Bool.eq_false_iff.mpr hp

/-- Changing the first child of a kind edits an element at the place of that child. -/
theorem edited_changeWhere {p : Element → Bool} {change : Element → Element} {e : Element}
    (h : ∀ i child, FirstAt p e.children i child →
      Edited (K.within i) (.ofElement child) (.ofElement (change child))) :
  Edited K (.ofElement e) (.ofElement (e.changeWhere p change))
  := edited_ofElement_iff.mpr ⟨rfl, .refl _ _, allEdited_changeFirst h⟩

/-- Setting an attribute edits an element at that attribute. -/
theorem edited_setAttr {key : String} (hkey : K [] key) (e : Element) (value : String) :
  Edited K (.ofElement e) (.ofElement (e.setAttr key value))
  := edited_ofElement_iff.mpr ⟨rfl, .put hkey e.attributes value, .refl _ e.children⟩

/-- Edits of attributes with names of XML leave a tree well-formed. -/
theorem WellFormed.of_edited (h : Edited K node node')
    (hnames : ∀ path key, K path key → IsName key.toList) (hnode : node.WellFormed) :
  node'.WellFormed
  := by
  induction h with
  | element hattributes hlength _ ih =>
    cases hnode with
    | element htag hchildren =>
      refine .element ⟨⟨htag.name, ?_⟩, hattributes.nodup htag.nodup⟩ ?_
      · intro a ha
        obtain hold | hnew := hattributes.extended.of_mem ha
        · obtain ⟨b, hb, hkey⟩ := List.mem_map.mp hold
          rw [← hkey]
          exact htag.keys b hb
        · exact hnames [] a.1 hnew
      · intro child' hchild'
        obtain ⟨i, hplace'⟩ := List.mem_iff_getElem?.mp hchild'
        have hlt := (List.getElem?_eq_some_iff.mp hplace').1
        rw [hlength] at hlt
        have hplace := List.getElem?_eq_getElem hlt
        exact ih i _ child' hplace hplace' (fun path => hnames (i :: path))
          (hchildren _ (List.mem_of_getElem? hplace))
  | text s => exact hnode
  | comment s => exact hnode

end Node

/-- Two changes of the first element with a property are one. -/
theorem Element.changeFirst_changeFirst {p : Element → Bool} {f g : Element → Element}
    (hp : ∀ e, p e = true → p (f e) = true) (nodes : List Node) :
  changeFirst p g (changeFirst p f nodes) = changeFirst p (fun e => g (f e)) nodes
  := by
  induction nodes with
  | nil => rfl
  | cons first nodes ih =>
    rw [changeFirst, changeFirst]
    cases helement : first.element? with
    | none =>
      dsimp only
      rw [changeFirst, helement]
      dsimp only
      rw [ih]
    | some e =>
      dsimp only
      split
      · rename_i hholds
        have hchanged : (Node.ofElement (f e)).element? = some (f e) := rfl
        rw [changeFirst, hchanged]
        dsimp only
        rw [if_pos (hp e hholds)]
      · rename_i hnot
        rw [changeFirst, helement]
        dsimp only
        rw [if_neg hnot, ih]

/-- Two changes of the first child of a kind are one if the first change keeps the kind. -/
theorem Element.changeWhere_changeWhere {p : Element → Bool} {f g : Element → Element}
    (hp : ∀ e, p e = true → p (f e) = true) (e : Element) :
  (e.changeWhere p f).changeWhere p g = e.changeWhere p fun e => g (f e)
  := by
  rw [changeWhere, changeWhere, changeWhere, changeFirst_changeFirst hp]

end Xml

end Cosim
