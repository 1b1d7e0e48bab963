import Cosim.Proofs.Xml.Tag
import Cosim.Xml.Tree

/-!
# Tidy trees

Two trees that differ in the layout of their texts only have the same tidy form: in every list of
children the texts that stand side by side are joined, white space at the ends of a text is cut,
and texts with nothing left are dropped.  The elements and their attributes stay as they are.
-/

namespace Cosim.Xml

/-! ## Trimmed texts -/

/-- A text that begins without white space still does when its end is trimmed. -/
theorem dropWhile_trimEnd {cs : List Char} (h : cs.dropWhile isSpace = cs) :
  (trimEnd cs).dropWhile isSpace = trimEnd cs
  := by
  rw [trimEnd_eq]
  obtain ⟨more, hmore⟩ := List.rdropWhile_prefix isSpace (l := cs)
  cases hfront : cs.rdropWhile isSpace with
  | nil => rfl
  | cons c front =>
    rw [hfront, List.cons_append] at hmore
    rw [← hmore, List.dropWhile_eq_self_iff] at h
    apply List.dropWhile_cons_of_neg
    exact h (Nat.succ_pos _)

/-- A trimmed text has nothing more to trim. -/
theorem trimSpace_trimSpace (cs : List Char) :
  trimSpace (trimSpace cs) = trimSpace cs
  := by
  have hdrop : (trimSpace cs).dropWhile isSpace = trimSpace cs :=
    dropWhile_trimEnd (List.dropWhile_idempotent (p := isSpace) cs)
  rw [trimSpace, hdrop, trimSpace, trimEnd_eq, trimEnd_eq, List.rdropWhile_idempotent]

/-! ## Lists of children -/

namespace Node

/-- Induction on a list of children and on the children of the elements in it. -/
@[elab_as_elim]
theorem forestInduction {motive : List Node → Prop}
    (nil : motive [])
    (element : ∀ name attributes children nodes, motive children → motive nodes →
      motive (.element name attributes children :: nodes))
    (text : ∀ s nodes, motive nodes → motive (.text s :: nodes))
    (comment : ∀ s nodes, motive nodes → motive (.comment s :: nodes)) :
    ∀ nodes, motive nodes
  | [] => nil
  | .element name attributes children :: nodes =>
    element name attributes children nodes (forestInduction nil element text comment children)
      (forestInduction nil element text comment nodes)
  | .text s :: nodes => text s nodes (forestInduction nil element text comment nodes)
  | .comment s :: nodes => comment s nodes (forestInduction nil element text comment nodes)

/-- A child in front of others; a text is joined with a text that follows. -/
def join : Node → List Node → List Node
  | .text s, .text s' :: nodes => .text (s ++ s') :: nodes
  | node, nodes => node :: nodes

/-- Joins the texts that stand side by side. -/
def joinTexts (nodes : List Node) : List Node := nodes.foldr join []

/-- A text without the white space at its ends, or nothing if that is all of it. -/
def trimmed? : Node → Option Node
  | .text s =>
    if trimSpace s.toList = [] then none else some (.text (String.ofList (trimSpace s.toList)))
  | node => some node

/-- The tidy form of a list of children that are tidy themselves. -/
def tidy (nodes : List Node) : List Node := (joinTexts nodes).filterMap trimmed?

mutual

/-- The tidy form of a child. -/
def norm : Node → Node
  | .element name attributes children => .element name attributes (tidy (normAll children))
  | .text s => .text s
  | .comment s => .comment s

def normAll : List Node → List Node
  | [] => []
  | node :: nodes => node.norm :: normAll nodes

end

theorem normAll_eq (nodes : List Node) :
  normAll nodes = nodes.map norm
  := by
  induction nodes with
  | nil => rfl
  | cons node nodes ih => rw [normAll, ih, List.map_cons]

/-! ## Tidying step by step

What a text becomes depends on the texts behind it.  The lemmas say how a text in front takes in
what follows.
-/

/-- The text that is left of a text, if anything is. -/
def textNodes (s : String) : List Node := (trimmed? (.text s)).toList

/-- A text by itself is trimmed, and dropped if nothing is left of it. -/
theorem tidy_text (s : String) :
  tidy [.text s] = textNodes s
  := by
  rw [tidy, textNodes]
  simp only [joinTexts, List.foldr_cons, List.foldr_nil, join]
  cases h : trimmed? (.text s) with
  | none => rw [List.filterMap_cons_none h, List.filterMap_nil, Option.toList_none]
  | some node => rw [List.filterMap_cons_some h, List.filterMap_nil, Option.toList_some]

/-- Neighbouring texts are joined. -/
theorem tidy_text_text (s s' : String) (nodes : List Node) :
  tidy (.text s :: .text s' :: nodes) = tidy (.text (s ++ s') :: nodes)
  := by
  have hjoin : join (.text s) (join (.text s') (joinTexts nodes)) =
      join (.text (s ++ s')) (joinTexts nodes) := by
    cases joinTexts nodes with
    | nil => rfl
    | cons node nodes =>
      cases node with
      | element name attributes children => rfl
      | text s'' => simp only [join, String.append_assoc]
      | comment s'' => rfl
  rw [tidy, joinTexts, List.foldr_cons, List.foldr_cons, ← joinTexts, hjoin]
  rfl

/-- What is no text. -/
def IsMarkup : Node → Prop
  | .text _ => False
  | _ => True

/-- Markup in front stays as it is. -/
theorem tidy_cons {node : Node} (hnode : node.IsMarkup) (nodes : List Node) :
  tidy (node :: nodes) = node :: tidy nodes
  := by
  cases node with
  | element name attributes children => rfl
  | text s => cases hnode
  | comment s => rfl

/-- A text before markup is tidied by itself. -/
theorem tidy_text_cons {node : Node} (hnode : node.IsMarkup) (s : String) (nodes : List Node) :
  tidy (.text s :: node :: nodes) = textNodes s ++ node :: tidy nodes
  := by
  have hjoin : joinTexts (.text s :: node :: nodes) = .text s :: joinTexts (node :: nodes) := by
    cases node with
    | element name attributes children => rfl
    | text s => cases hnode
    | comment s => rfl
  rw [tidy, hjoin, ← tidy_cons hnode, textNodes]
  cases h : trimmed? (.text s) with
  | none => rw [List.filterMap_cons_none h, Option.toList_none, List.nil_append, tidy]
  | some node => rw [List.filterMap_cons_some h, Option.toList_some, List.singleton_append, tidy]

/-- An empty text in front is dropped. -/
theorem tidy_empty_text (nodes : List Node) :
  tidy (.text "" :: nodes) = tidy nodes
  := by
  have hempty : textNodes "" = [] := rfl
  have hmarkup {node : Node} (h : node.IsMarkup) (nodes : List Node) :
      tidy (.text "" :: node :: nodes) = tidy (node :: nodes) := by
    rw [tidy_text_cons h, hempty, List.nil_append, tidy_cons h]
  cases nodes with
  | nil => rfl
  | cons node nodes =>
    cases node with
    | element name attributes children => apply hmarkup (by trivial)
    | text s => rw [tidy_text_text, String.empty_append]
    | comment s => apply hmarkup (by trivial)

/-! ## Tidy twice -/

/-- A text is dropped or becomes one that is tidy. -/
theorem textNodes_eq (s : String) :
  textNodes s = [] ∨ ∃ s', textNodes s = [.text s'] ∧ textNodes s' = [.text s']
  := by
  by_cases h : trimSpace s.toList = []
  · left
    rw [textNodes, trimmed?, if_pos h, Option.toList_none]
  · right
    refine ⟨String.ofList (trimSpace s.toList), ?_, ?_⟩
    · rw [textNodes, trimmed?, if_neg h, Option.toList_some]
    · rw [textNodes, trimmed?, String.toList_ofList, trimSpace_trimSpace, if_neg h,
        Option.toList_some]

/-- What a text becomes is tidy. -/
theorem tidy_textNodes (s : String) :
  tidy (textNodes s) = textNodes s
  := by
  obtain h | ⟨s', h, hs'⟩ := textNodes_eq s
  · rw [h]
    rfl
  · rw [h, tidy_text, hs']

/-- What a text becomes stays before markup. -/
theorem tidy_textNodes_cons {node : Node} (hnode : node.IsMarkup) (s : String)
    (nodes : List Node) :
  tidy (textNodes s ++ node :: nodes) = textNodes s ++ node :: tidy nodes
  := by
  obtain h | ⟨s', h, hs'⟩ := textNodes_eq s
  · rw [h, List.nil_append, List.nil_append, tidy_cons hnode]
  · rw [h, List.singleton_append, tidy_text_cons hnode, hs']

/-- Tidy nodes have nothing more to tidy. -/
theorem tidy_tidy (nodes : List Node) :
  tidy (tidy nodes) = tidy nodes
  := by
  -- with a text in front, which takes in the texts that follow
  suffices h : ∀ s, tidy (tidy (.text s :: nodes)) = tidy (.text s :: nodes) by
    rw [← tidy_empty_text nodes, h]
  induction nodes with
  | nil =>
    intro s
    rw [tidy_text, tidy_textNodes]
  | cons node nodes ih =>
    intro s
    have hmarkup (h : node.IsMarkup) :
        tidy (tidy (.text s :: node :: nodes)) = tidy (.text s :: node :: nodes) := by
      rw [tidy_text_cons h, tidy_textNodes_cons h, ← tidy_empty_text nodes, ih]
    cases node with
    | element name attributes children => apply hmarkup trivial
    | text s' => rw [tidy_text_text, ih]
    | comment s' => apply hmarkup trivial

/-- Joining texts brings in no markup. -/
theorem mem_joinTexts {node : Node} (hnode : node.IsMarkup) {nodes : List Node}
    (h : node ∈ joinTexts nodes) :
  node ∈ nodes
  := by
  induction nodes with
  | nil => cases h
  | cons first nodes ih =>
    rw [joinTexts, List.foldr_cons, ← joinTexts] at h
    rw [List.mem_cons]
    unfold join at h
    split at h
    · rename_i s s' more hmore
      rw [hmore] at ih
      obtain rfl | h := List.mem_cons.mp h
      · cases hnode
      · right
        apply ih (List.mem_cons_of_mem _ h)
    · exact (List.mem_cons.mp h).imp_right ih

/-- The tidy form of a list holds texts and children from the list. -/
theorem mem_tidy {node : Node} {nodes : List Node} (h : node ∈ tidy nodes) :
  (∃ s, node = .text s) ∨ node ∈ nodes
  := by
  obtain ⟨source, hmem, hsource⟩ := List.mem_filterMap.mp h
  cases source with
  | element name attributes children =>
    right
    obtain rfl := Option.some.inj hsource
    exact mem_joinTexts (by trivial) hmem
  | text s =>
    left
    rw [trimmed?] at hsource
    split at hsource
    · cases hsource
    · exact ⟨_, (Option.some.inj hsource).symm⟩
  | comment s =>
    right
    obtain rfl := Option.some.inj hsource
    exact mem_joinTexts (by trivial) hmem

/-- The normal forms of nodes are their own normal forms. -/
theorem norm_norm_of_mem (nodes : List Node) :
  ∀ node ∈ nodes, node.norm.norm = node.norm
  := by
  induction nodes using forestInduction with
  | nil => exact List.forall_mem_nil _
  | element name attributes children nodes ihchildren ih =>
    rw [List.forall_mem_cons]
    refine ⟨?_, ih⟩
    have hsame : normAll (tidy (normAll children)) = tidy (normAll children) := by
      rw [normAll_eq (tidy _)]
      apply (List.map_congr_left fun node hnode => ?_).trans (List.map_id _)
      obtain ⟨s, rfl⟩ | hnode := mem_tidy hnode
      · rfl
      · rw [normAll_eq, List.mem_map] at hnode
        obtain ⟨child, hchild, rfl⟩ := hnode
        apply ihchildren child hchild
    rw [norm, norm, hsame, tidy_tidy]
  | text s nodes ih =>
    rw [List.forall_mem_cons]
    exact ⟨rfl, ih⟩
  | comment s nodes ih =>
    rw [List.forall_mem_cons]
    exact ⟨rfl, ih⟩

/-- The normal form of a node is its own normal form. -/
theorem norm_norm (node : Node) :
  node.norm.norm = node.norm
  := norm_norm_of_mem [node] node List.mem_cons_self

/-! ## Well-formed trees -/

/-- A child in which all tags have names of XML, no key occurs twice in a tag, and no comment
contains the end of a comment. -/
inductive WellFormed : Node → Prop where
  | element {name : String} {attributes : List (String × String)} {children : List Node}
    (htag : Tag.WellFormed ⟨name, attributes⟩)
    (hchildren : ∀ node ∈ children, WellFormed node) :
    WellFormed (.element name attributes children)
  | text (s : String) : WellFormed (.text s)
  | comment {s : String} (hend : ¬ "-->".toList <:+: s.toList) : WellFormed (.comment s)

/-- The normal forms of well-formed nodes are well formed. -/
theorem wellFormed_norm_of_mem {nodes : List Node} (h : ∀ node ∈ nodes, node.WellFormed) :
  ∀ node ∈ nodes, node.norm.WellFormed
  := by
  induction nodes using forestInduction with
  | nil => exact List.forall_mem_nil _
  | element name attributes children nodes ihchildren ih =>
    rw [List.forall_mem_cons] at h ⊢
    obtain ⟨⟨htag, hchildren⟩, hnodes⟩ := h
    refine ⟨.element htag fun node hnode => ?_, ih hnodes⟩
    obtain ⟨s, rfl⟩ | hnode := mem_tidy hnode
    · exact .text s
    · rw [normAll_eq, List.mem_map] at hnode
      obtain ⟨child, hchild, rfl⟩ := hnode
      apply ihchildren hchildren child hchild
  | text s nodes ih =>
    rw [List.forall_mem_cons] at h ⊢
    exact ⟨.text s, ih h.2⟩
  | comment s nodes ih =>
    rw [List.forall_mem_cons] at h ⊢
    exact ⟨h.1, ih h.2⟩

end Node

namespace Element

/-- The tidy form of a tree. -/
def norm (e : Element) : Element := ⟨e.name, e.attributes, Node.tidy (Node.normAll e.children)⟩

def WellFormed (e : Element) : Prop := (Node.ofElement e).WellFormed

/-- The normal form of an element is its own normal form. -/
theorem norm_norm (e : Element) :
  e.norm.norm = e.norm
  := by
  have h := Node.norm_norm (Node.ofElement e)
  simp only [Node.ofElement, Node.norm, Node.element.injEq, true_and] at h
  simp only [norm, h]

/-- The normal form of a well-formed element is well formed. -/
theorem WellFormed.norm {e : Element} (h : e.WellFormed) :
  e.norm.WellFormed
  := Node.wellFormed_norm_of_mem (List.forall_mem_singleton.mpr h) _ List.mem_cons_self

end Element

/-! ## Elements of tidy trees -/

namespace Node

/-- The normal form of a node is an element exactly if the node is one. -/
theorem element?_norm (node : Node) :
  node.norm.element? = node.element?.map Element.norm
  := by
  cases node with
  | element name attributes children => rfl
  | text s => rfl
  | comment s => rfl

/-- Joining texts leaves the elements. -/
theorem filterMap_element?_joinTexts (nodes : List Node) :
  (joinTexts nodes).filterMap element? = nodes.filterMap element?
  := by
  induction nodes with
  | nil => rfl
  | cons node nodes ih =>
    have hjoin (more : List Node) : (join node more).filterMap element? =
        (node :: more).filterMap element? := by
      unfold join
      split <;> rfl
    rw [joinTexts, List.foldr_cons, ← joinTexts, hjoin, List.filterMap_cons, List.filterMap_cons,
      ih]

/-- Tidying leaves the elements. -/
theorem filterMap_element?_tidy (nodes : List Node) :
  (tidy nodes).filterMap element? = nodes.filterMap element?
  := by
  have htrimmed (node : Node) : (trimmed? node).bind element? = node.element? := by
    cases node with
    | element name attributes children => rfl
    | text s =>
      rw [trimmed?]
      split <;> rfl
    | comment s => rfl
  rw [tidy, List.filterMap_filterMap]
  simp only [htrimmed]
  exact filterMap_element?_joinTexts nodes

end Node

namespace Element

variable {e e' : Element}

/-- The children of a normal form are the normal forms of the children. -/
theorem elements_norm (e : Element) :
  e.norm.elements = e.elements.map norm
  := by
  rw [elements, norm, Node.filterMap_element?_tidy, Node.normAll_eq, List.filterMap_map, elements,
    List.map_filterMap]
  congr 1
  funext node
  exact Node.element?_norm node

/-- The first child of a name is the normal form of the first one if the children are the normal
forms. -/
theorem child?_of_elements (h : e'.elements = e.elements.map norm) (name : String) :
  e'.child? name = (e.child? name).map norm
  := by
  rw [child?, h, List.find?_map]
  rfl

/-- The first child of a name in the normal form is the normal form of the first one. -/
theorem child?_norm (e : Element) (name : String) :
  e.norm.child? name = (e.child? name).map norm
  := child?_of_elements (elements_norm e) name

/-- The children of a name in the normal form are the normal forms of those. -/
theorem childrenNamed_norm (e : Element) (name : String) :
  e.norm.childrenNamed name = (e.childrenNamed name).map norm
  := by
  rw [childrenNamed, elements_norm, List.filter_map]
  rfl

end Element

end Cosim.Xml
