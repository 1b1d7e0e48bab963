import Cosim.Document.Token
import Cosim.Proofs.Xml.Scan

/-!
# Tokens of written documents

The tags and texts of a written document are read strictly and one by one, each in front of any
rest that does not belong to it.
-/

namespace Cosim

/-- A text that lacks a character of a part does not have that part. -/
theorem Text.hasPart_eq_false {part cs : List Char} {c : Char} (hpart : c ∈ part) (hcs : c ∉ cs) :
  hasPart part cs = false
  := by
  induction cs with
  | nil =>
    rw [hasPart, List.isEmpty_eq_false_iff]
    exact List.ne_nil_of_mem hpart
  | cons d cs ih =>
    rw [hasPart, Bool.or_eq_false_iff]
    constructor
    · rw [Bool.eq_false_iff]
      intro hfront
      apply hcs
      exact (List.isPrefixOf_iff_prefix.mp hfront).subset hpart
    · apply ih
      intro hmem
      apply hcs (List.mem_cons_of_mem _ hmem)

/-- A mark of one character is found where the character stands first. -/
theorem Text.beforeMark?_singleton {c : Char} {front : List Char} (rest : List Char)
    (hfront : c ∉ front) :
  ∃ left : Left (front ++ ([c] ++ rest)),
    beforeMark? [c] (front ++ ([c] ++ rest)) = some (front, left) ∧ left.val = rest
  := by
  apply beforeMark?_append (List.cons_ne_nil c [])
  intro k hk hmark
  rw [List.drop_append_of_le_length hk.le, List.drop_eq_getElem_cons hk, List.cons_append,
    List.cons_prefix_cons] at hmark
  apply hfront
  rw [hmark.1]
  apply List.getElem_mem

namespace Document

open Xml (encodeChar isSpace Tag)

/-! ## Names and texts -/

/-- A name that tags and attributes can have. -/
def isTagName (name : List Char) : Bool :=
  !name.isEmpty && name.all isNameChar && isQualified name

/-- A name has only characters of names. -/
theorem isNameChar_of_isTagName {name : List Char} (h : isTagName name = true) :
  ∀ c ∈ name, isNameChar c = true
  := by
  rw [isTagName, Bool.and_eq_true, Bool.and_eq_true, List.all_eq_true] at h
  apply h.1.2

/-- A qualified name starts like a name, or with a colon. -/
theorem isName_of_isTagName {name : List Char} (h : isTagName name = true) :
  Xml.IsName name
  := by
  have hchars := isNameChar_of_isTagName h
  rw [isTagName, Bool.and_eq_true] at h
  obtain ⟨-, hqualified⟩ := h
  cases name with
  | nil => cases hqualified
  | cons c cs =>
    rw [List.forall_mem_cons] at hchars
    refine ⟨c, cs, rfl, ?_, hchars.2⟩
    by_cases hcolon : c = ':'
    · rw [hcolon]
      decide
    · obtain ⟨first, more, hsplit⟩ := List.exists_cons_of_ne_nil (List.splitOn_ne_nil ':' cs)
      have hparts : (c :: cs).splitOn ':' = (c :: first) :: more := by
        rw [List.splitOn_cons_eq_if_modifyHead, if_neg (by simpa using hcolon), hsplit]
        rfl
      rw [isQualified, hparts] at hqualified
      match more, hqualified with
      | [], hqualified => simpa [isQualified.starts] using hqualified
      | [_], hqualified =>
        rw [Bool.and_eq_true] at hqualified
        simpa [isQualified.starts] using hqualified.1

/-- A text without characters that XML does not admit. -/
def IsText (s : String) : Prop := ∀ c ∈ s.toList, isXmlChar c = true

/-- A character of XML is written with characters of XML. -/
theorem isXmlChar_encodeChar {c : Char} (h : isXmlChar c = true) :
  ∀ d ∈ encodeChar c, isXmlChar d = true
  := by
  unfold encodeChar
  split
  · exact List.all_eq_true.mp rfl
  · exact List.all_eq_true.mp rfl
  · exact List.all_eq_true.mp rfl
  · exact List.all_eq_true.mp rfl
  · exact List.all_eq_true.mp rfl
  · exact List.forall_mem_singleton.mpr h

/-- A text of XML characters is still one when it is written with references. -/
theorem isXmlChar_encoded {s : String} (h : IsText s) :
  (s.toList.flatMap encodeChar).all isXmlChar = true
  := by
  rw [List.all_eq_true]
  intro d hd
  obtain ⟨c, hc, hd⟩ := List.mem_flatMap.mp hd
  apply isXmlChar_encodeChar (h c hc) d hd

namespace Front

/-- The rest of a reader goes on where its first step stops. -/
theorem bind_eq {α β : Type} {x : Front α} {f : α → Front β} {cs rest : List Char} {a : α}
    (h : x cs = some (a, rest)) :
  (x >>= f) cs = f a rest
  := by
  change (x cs >>= fun p => f p.1 p.2) = _
  rw [h]
  rfl

/-- A name is read up to the first character that no name has. -/
theorem qualified_append {name rest : List Char} (hname : isTagName name = true)
    (hrest : ∀ c ∈ rest.head?, isNameChar c = false) :
  qualified (name ++ rest) = some (name, rest)
  := by
  have hchars := isNameChar_of_isTagName hname
  rw [isTagName, Bool.and_eq_true] at hname
  obtain ⟨-, hqualified⟩ := hname
  cases name with
  | nil => cases hqualified
  | cons c cs =>
    rw [List.forall_mem_cons] at hchars
    have hstop : rest.takeWhile isNameChar = [] ∧ rest.dropWhile isNameChar = rest := by
      cases rest with
      | nil => exact ⟨rfl, rfl⟩
      | cons d rest =>
        have hd := hrest d rfl
        exact ⟨List.takeWhile_cons_of_neg (by simp [hd]), List.dropWhile_cons_of_neg (by simp [hd])⟩
    have htake : (cs ++ rest).takeWhile isNameChar = cs := by
      rw [List.takeWhile_append_of_pos hchars.2, hstop.1, List.append_nil]
    have hdrop : (cs ++ rest).dropWhile isNameChar = rest := by
      rw [List.dropWhile_append_of_pos hchars.2, hstop.2]
    rw [qualified, List.cons_append, qualified?]
    simp only [htake, hchars.1, hqualified, Bool.and_self, if_true, Option.map_some]
    exact congrArg (fun rest => some (c :: cs, rest)) hdrop

end Front

namespace Token

open Front

/-! ## Tags -/

/-- The attribute that is read where an attribute is written. -/
def writtenAttribute (a : String × String) : Attribute := ⟨a.1, a.2.toList.flatMap encodeChar⟩

/-- A value without quotes is read up to the quote. -/
theorem before_quote {value : List Char} (rest : List Char) (hquote : '"' ∉ value)
    (hchars : value.all isXmlChar = true) :
  before "\"" (value ++ '"' :: rest) = some (value, rest)
  := by
  obtain ⟨left, hfound, hleft⟩ := Text.beforeMark?_singleton rest hquote
  change Text.beforeMark? "\"".toList (value ++ '"' :: rest) = some (value, left) at hfound
  rw [before, hfound]
  simp only [if_pos hchars, hleft]

/-- A written attribute is read back. -/
theorem attribute?_written {key value : String} (hkey : isTagName key.toList = true)
    (hvalue : IsText value) (rest : List Char) :
  attribute? (key.toList ++ '=' :: '"' :: (value.toList.flatMap encodeChar ++ '"' :: rest)) =
    some (writtenAttribute (key, value), rest)
  := by
  have hquote : '"' ∉ value.toList.flatMap encodeChar :=
    Xml.not_mem_encoded (by decide) (by decide)
  have hopen : '<' ∉ value.toList.flatMap encodeChar :=
    Xml.not_mem_encoded (by decide) (by decide)
  have hequals (cs : List Char) : equals ('=' :: '"' :: cs) = some ((), '"' :: cs) := rfl
  have hmark (cs : List Char) : quote ('"' :: cs) = some ("\"", cs) := rfl
  have hcheck : (!(value.toList.flatMap encodeChar).contains '<') = true := by simpa using hopen
  rw [attribute?, bind_eq (qualified_append hkey (by simp; decide)), bind_eq (hequals _),
    bind_eq (hmark _), bind_eq (before_quote rest hquote (isXmlChar_encoded hvalue)), hcheck]
  rw [writtenAttribute]
  simp only [String.ofList_toList]
  rfl

/-- Behind white space an attribute is read, unless the tag ends there. -/
theorem attributes?_space {c : Char} {cs rest : List Char} {a : Attribute}
    (hc : isSpace c = false) (hend : c ≠ '>' ∧ c ≠ '/')
    (hread : attribute? (c :: cs) = some (a, rest)) (hrest : rest.length < cs.length) :
  attributes? (' ' :: c :: cs) =
    (attributes? rest).map fun (more, isEmpty, left) => (a :: more, isEmpty, left)
  := by
  have hskip : (' ' :: c :: cs).dropWhile isSpace = c :: cs := by
    rw [List.dropWhile_cons_of_pos (by decide), List.dropWhile_cons_of_neg (by simp [hc])]
  rw [attributes?, hskip]
  split
  · rename_i heq
    exact absurd (List.cons.inj heq).1 hend.1
  · rename_i heq
    exact absurd (List.cons.inj heq).1 hend.2
  · rw [if_pos (show Option.any isSpace (' ' :: c :: cs).head? = true from rfl), hread]
    simp only [List.length_cons]
    rw [if_pos (by omega)]

/-- What is read of the end of a tag. -/
def tagEnd (isEmpty : Bool) : List Char := if isEmpty then ['/', '>'] else ['>']

/-- Written attributes are read back together with the end of their tag. -/
theorem attributes?_written {attributes : List (String × String)} (isEmpty : Bool)
    (rest : List Char)
    (h : ∀ a ∈ attributes, isTagName a.1.toList = true ∧ IsText a.2) :
  attributes? (attributes.flatMap Tag.attributeChars ++ (tagEnd isEmpty ++ rest)) =
    some (attributes.map writtenAttribute, isEmpty, rest)
  := by
  induction attributes with
  | nil =>
    cases isEmpty with
    | true =>
      rw [attributes?]
      rfl
    | false =>
      rw [attributes?]
      rfl
  | cons a attributes ih =>
    obtain ⟨key, value⟩ := a
    rw [List.forall_mem_cons] at h
    obtain ⟨⟨hkey, hvalue⟩, hmore⟩ := h
    have hread := attribute?_written hkey hvalue
      (attributes.flatMap Tag.attributeChars ++ (tagEnd isEmpty ++ rest))
    have hshape : ((key, value) :: attributes).flatMap Tag.attributeChars ++
        (tagEnd isEmpty ++ rest) = ' ' :: (key.toList ++ '=' :: '"' ::
          (value.toList.flatMap encodeChar ++ '"' ::
            (attributes.flatMap Tag.attributeChars ++ (tagEnd isEmpty ++ rest)))) := by
      simp [Tag.attributeChars]
    obtain ⟨c, cs, hname⟩ := List.exists_cons_of_ne_nil (l := key.toList) (by
      rintro hnil
      rw [hnil] at hkey
      cases hkey)
    have hfirst := isNameChar_of_isTagName hkey c (by rw [hname]; exact List.mem_cons_self)
    rw [hname, List.cons_append] at hread hshape
    have hlength : (attributes.flatMap Tag.attributeChars ++ (tagEnd isEmpty ++ rest)).length <
        (cs ++ '=' :: '"' :: (value.toList.flatMap encodeChar ++ '"' ::
          (attributes.flatMap Tag.attributeChars ++ (tagEnd isEmpty ++ rest)))).length := by
      simp only [List.length_append, List.length_cons]
      omega
    rw [hshape, attributes?_space (Xml.isSpace_of_isNameChar hfirst)
      ⟨Xml.ne_of_isNameChar hfirst (by decide), Xml.ne_of_isNameChar hfirst (by decide)⟩ hread hlength,
      ih hmore]
    rfl

/-- The token of a written tag. -/
def tagToken (t : Tag) (isEmpty : Bool) : Token :=
  if isEmpty then .empty t.name (t.attributes.map writtenAttribute)
  else .start t.name (t.attributes.map writtenAttribute)

/-- A tag with names that tags and attributes can have, and with values of XML characters. -/
structure IsWritable (t : Tag) : Prop where
  name : isTagName t.name.toList = true
  attributes : ∀ a ∈ t.attributes, isTagName a.1.toList = true ∧ IsText a.2

/-- A writable tag has names of XML. -/
theorem IsWritable.named {t : Tag} (h : IsWritable t) :
  t.Named
  := ⟨isName_of_isTagName h.name, fun a ha => isName_of_isTagName (h.attributes a ha).1⟩

/-- What can follow a name in a tag is not part of it. -/
theorem head?_behind_name (attributes : List (String × String)) (isEmpty : Bool)
    (rest : List Char) :
  ∀ c ∈ (attributes.flatMap Tag.attributeChars ++ (tagEnd isEmpty ++ rest)).head?,
    isNameChar c = false
  := by
  cases attributes with
  | nil =>
    cases isEmpty with
    | true => simp [tagEnd]; decide
    | false => simp [tagEnd]; decide
  | cons a attributes => simp [Tag.attributeChars]; decide

/-- A written tag is read back. -/
theorem tag_written {t : Tag} (ht : IsWritable t) (isEmpty : Bool) (rest : List Char) :
  tag ('<' :: (t.content ++ (tagEnd isEmpty ++ rest))) = some (tagToken t isEmpty, rest)
  := by
  have hmark (cs : List Char) : mark "<" ('<' :: cs) = some ((), cs) := rfl
  have hattributes : ((attributes? (t.attributes.flatMap Tag.attributeChars ++
      (tagEnd isEmpty ++ rest))).map fun (attributes, isEmpty, rest) =>
        ((attributes, isEmpty), rest)) =
      some ((t.attributes.map writtenAttribute, isEmpty), rest) := by
    rw [attributes?_written isEmpty rest ht.attributes]
    rfl
  rw [tag, bind_eq (hmark _), Tag.content_eq, List.append_assoc,
    bind_eq (qualified_append ht.name (head?_behind_name _ _ _))]
  apply (bind_eq hattributes).trans
  rw [String.ofList_toList]
  rfl

/-- A written end tag is read back. -/
theorem endTag_written {name : String} (hname : isTagName name.toList = true) (rest : List Char) :
  endTag ('<' :: '/' :: (name.toList ++ '>' :: rest)) = some (.close name, rest)
  := by
  have hmark (cs : List Char) : mark "</" ('<' :: '/' :: cs) = some ((), cs) := rfl
  have hspaces (cs : List Char) : run isSpace ('>' :: cs) = some ([], '>' :: cs) := rfl
  have hend (cs : List Char) : mark ">" ('>' :: cs) = some ((), cs) := rfl
  rw [endTag, bind_eq (hmark _), bind_eq (qualified_append hname (by simp; decide)),
    bind_eq (hspaces _), bind_eq (hend _)]
  simp only [List.append_nil, String.ofList_toList]
  rfl

/-! ## The next token -/

/-- The content of a tag begins with a character of names. -/
theorem exists_content_eq {t : Tag} (ht : IsWritable t) :
  ∃ c more, t.content = c :: more ∧ isNameChar c = true
  := by
  obtain ⟨c, more, hcontent, hfirst⟩ := ht.named.exists_content_eq
  exact ⟨c, more, hcontent, by rw [isNameChar, hfirst, Bool.true_or]⟩

/-- The next token of a written tag is that of the tag. -/
theorem next_tag {t : Tag} (ht : IsWritable t) (isEmpty : Bool) (rest : List Char) :
  next ('<' :: (t.content ++ (tagEnd isEmpty ++ rest))) = some (tagToken t isEmpty, rest)
  := by
  obtain ⟨c, more, hcontent, hc⟩ := exists_content_eq ht
  have hbang := Xml.ne_of_isNameChar hc (d := '!') (by decide)
  have hquestion := Xml.ne_of_isNameChar hc (d := '?') (by decide)
  have hslash := Xml.ne_of_isNameChar hc (d := '/') (by decide)
  rw [← tag_written ht, hcontent, List.cons_append, next]
  · intro cs heq
    apply hbang (List.cons.inj heq).1
  · intro cs heq
    apply hbang (List.cons.inj heq).1
  · intro cs heq
    apply hquestion (List.cons.inj heq).1
  · intro cs heq
    apply hslash (List.cons.inj heq).1

/-- The next token of a written end tag is that of the end tag. -/
theorem next_close {name : String} (hname : isTagName name.toList = true) (rest : List Char) :
  next ('<' :: '/' :: (name.toList ++ '>' :: rest)) = some (.close name, rest)
  := by
  rw [← endTag_written hname]
  rfl

/-- A text is one token up to the next mark. -/
theorem next_text {t : List Char} (hne : t ≠ []) (hopen : '<' ∉ t) (hclose : '>' ∉ t)
    (hchars : t.all isXmlChar = true) (rest : List Char) :
  next (t ++ '<' :: rest) = some (.text t, '<' :: rest)
  := by
  have hpass : ∀ c ∈ t, (c != '<') = true := by
    intro c hc
    rw [bne_iff_ne]
    exact ne_of_mem_of_not_mem hc hopen
  have hrun : run (· != '<') (t ++ '<' :: rest) = some (t, '<' :: rest) := by
    rw [run, List.takeWhile_append_of_pos hpass, List.dropWhile_append_of_pos hpass,
      List.takeWhile_cons_of_neg (by decide), List.dropWhile_cons_of_neg (by decide),
      List.append_nil]
  have hpart : Text.hasPart "]]>".toList t = false := Text.hasPart_eq_false (by decide) hclose
  have hplain : plainText (t ++ '<' :: rest) = some (.text t, '<' :: rest) := by
    rw [plainText, bind_eq hrun, hchars, hpart]
    rfl
  obtain ⟨c, cs, rfl⟩ := List.exists_cons_of_ne_nil hne
  rw [List.mem_cons, not_or] at hopen
  rw [List.cons_append] at hplain ⊢
  rw [← hplain, next]
  all_goals
    intro _ heq
    apply hopen.1 (List.cons.inj heq).1.symm

/-! ## Tokens one after another -/

/-- A token that does not end the root element is scanned before what follows it. -/
theorem scanFrom_of_next {depth : ℕ} {cs rest : List Char} {token : Token}
    (hnext : next cs = some (token, rest)) (hrest : rest.length < cs.length)
    (hdepth : token.depthAfter depth ≠ 0) :
  scanFrom depth cs = token :: scanFrom (token.depthAfter depth) rest
  := by
  rw [scanFrom, hnext]
  simp only [beq_eq_false_iff_ne.mpr hdepth, Bool.false_eq_true, if_false, if_pos hrest]

/-- Nothing is read behind the end of the outermost element. -/
theorem scanFrom_of_last {depth : ℕ} {cs rest : List Char} {token : Token}
    (hnext : next cs = some (token, rest)) (hdepth : token.depthAfter depth = 0) :
  scanFrom depth cs = [token]
  := by
  rw [scanFrom, hnext]
  simp only [hdepth, beq_self_eq_true, if_true]

/-- A text inside an element is scanned before what follows it. -/
theorem scanFrom_text {t : List Char} (hopen : '<' ∉ t) (hclose : '>' ∉ t)
    (hchars : t.all isXmlChar = true) (hne : t ≠ []) (depth : ℕ) (rest : List Char) :
  scanFrom (depth + 1) (t ++ '<' :: rest) = .text t :: scanFrom (depth + 1) ('<' :: rest)
  := by
  apply scanFrom_of_next (next_text hne hopen hclose hchars rest)
  · have := List.length_pos_iff.mpr hne
    simp only [List.length_append, List.length_cons]
    omega
  · apply Nat.succ_ne_zero

/-- A start tag is scanned before what follows it, which is one deeper. -/
theorem scanFrom_start {t : Tag} (ht : IsWritable t) (depth : ℕ) (rest : List Char) :
  scanFrom depth ('<' :: (t.content ++ '>' :: rest)) =
    .start t.name (t.attributes.map writtenAttribute) :: scanFrom (depth + 1) rest
  := by
  apply scanFrom_of_next (next_tag ht false rest)
  · simp only [List.length_append, List.length_cons]
    omega
  · apply Nat.succ_ne_zero

/-- An empty tag inside an element is scanned before what follows it. -/
theorem scanFrom_empty {t : Tag} (ht : IsWritable t) (depth : ℕ) (rest : List Char) :
  scanFrom (depth + 1) ('<' :: (t.content ++ '/' :: '>' :: rest)) =
    .empty t.name (t.attributes.map writtenAttribute) :: scanFrom (depth + 1) rest
  := by
  apply scanFrom_of_next (next_tag ht true rest)
  · simp only [List.length_append, List.length_cons]
    omega
  · apply Nat.succ_ne_zero

/-- An end tag inside an element is scanned before what follows it, which is one less deep. -/
theorem scanFrom_close {name : String} (hname : isTagName name.toList = true) (depth : ℕ)
    (rest : List Char) :
  scanFrom (depth + 2) ('<' :: '/' :: (name.toList ++ '>' :: rest)) =
    .close name :: scanFrom (depth + 1) rest
  := by
  apply scanFrom_of_next (next_close hname rest)
  · simp only [List.length_append, List.length_cons]
    omega
  · apply Nat.succ_ne_zero

/-- Nothing is scanned behind an empty root element. -/
theorem scanFrom_empty_root {t : Tag} (ht : IsWritable t) (rest : List Char) :
  scanFrom 0 ('<' :: (t.content ++ '/' :: '>' :: rest)) =
    [.empty t.name (t.attributes.map writtenAttribute)]
  := scanFrom_of_last (next_tag ht true rest) rfl

/-- Nothing is scanned behind the end of the root element. -/
theorem scanFrom_close_root {name : String} (hname : isTagName name.toList = true)
    (rest : List Char) :
  scanFrom 1 ('<' :: '/' :: (name.toList ++ '>' :: rest)) = [.close name]
  := scanFrom_of_last (next_close hname rest) rfl

end Token

end Document

end Cosim
