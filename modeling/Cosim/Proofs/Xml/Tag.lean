import Cosim.Document.Name
import Cosim.Proofs.Xml.Entity
import Cosim.Xml.Tag

/-!
# Written tags

The content of a tag whose names are names of XML ends at the mark behind it, and the tag is read
from it again.
-/

namespace Cosim.Xml

open Document (isNameStart isNameChar)
open Text (Left)

/-! ## Names -/

/-- The names of XML, colons included. -/
def IsName (name : List Char) : Prop :=
  ∃ c cs, name = c :: cs ∧ isNameStart c = true ∧ ∀ d ∈ cs, isNameChar d = true

/-- Whether a text is a name can be checked character by character. -/
theorem isName_of_all {s : String}
    (h : (s.toList.head?.any isNameStart && s.toList.all isNameChar) = true) :
  IsName s.toList
  := by
  rw [Bool.and_eq_true, List.all_eq_true] at h
  cases hs : s.toList with
  | nil => simp [hs] at h
  | cons c cs =>
    rw [hs] at h
    exact ⟨c, cs, rfl, h.1, fun d hd => h.2 d (List.mem_cons_of_mem c hd)⟩

/-- Names have characters of names only. -/
theorem IsName.isNameChar {name : List Char} (h : IsName name) {c : Char} (hc : c ∈ name) :
  isNameChar c = true
  := by
  obtain ⟨first, more, rfl, hfirst, hmore⟩ := h
  obtain rfl | hc := List.mem_cons.mp hc
  · rw [Document.isNameChar, hfirst, Bool.true_or]
  · apply hmore c hc

/-- Characters of names are none of the others. -/
theorem ne_of_isNameChar {c d : Char} (hc : isNameChar c = true) (hd : isNameChar d = false) :
  c ≠ d
  := by
  rintro rfl
  rw [hc] at hd
  cases hd

/-- Names have no white space. -/
theorem isSpace_of_isNameChar {c : Char} (h : isNameChar c = true) :
  isSpace c = false
  := by
  simp only [isSpace, Bool.or_eq_false_iff, beq_eq_false_iff_ne]
  refine ⟨⟨⟨?_, ?_⟩, ?_⟩, ?_⟩ <;> exact ne_of_isNameChar h (by decide)

/-! ## Contents of tags -/

namespace Tag

/-- A written attribute with a space in front. -/
def attributeChars (a : String × String) : List Char :=
  ' ' :: a.1.toList ++ '=' :: '"' :: a.2.toList.flatMap encodeChar ++ ['"']

theorem toList_attributeText (key value : String) :
  (attributeText key value).toList = attributeChars (key, value)
  := by
  simp [attributeText, attributeChars, encode]

/-- The content of a tag is its name and its attributes. -/
theorem content_eq (t : Tag) :
  t.content = t.name.toList ++ t.attributes.flatMap attributeChars
  := by
  obtain ⟨name, attributes⟩ := t
  simp only [content]
  induction attributes generalizing name with
  | nil => simp
  | cons a attributes ih =>
    rw [List.foldl_cons, ih, String.toList_append, toList_attributeText, List.flatMap_cons,
      List.append_assoc]

/-- A tag with names of XML. -/
structure Named (t : Tag) : Prop where
  name : IsName t.name.toList
  keys : ∀ a ∈ t.attributes, IsName a.1.toList

/-- A tag with names of XML, in which no key occurs twice. -/
structure WellFormed (t : Tag) : Prop extends t.Named where
  nodup : (t.attributes.map Prod.fst).Nodup

/-- A written tag begins with a name. -/
theorem Named.exists_content_eq {t : Tag} (ht : t.Named) :
  ∃ c more, t.content = c :: more ∧ isNameStart c = true
  := by
  obtain ⟨c, cs, hname, hfirst, -⟩ := ht.name
  exact ⟨c, cs ++ t.attributes.flatMap attributeChars, by rw [content_eq, hname, List.cons_append],
    hfirst⟩

/-- A written tag ends with a name or a quote. -/
theorem Named.getLast?_content {t : Tag} (ht : t.Named) :
  t.content.getLast? ≠ some '/'
  := by
  rw [content_eq]
  obtain hnil | ⟨init, a, hconcat⟩ := t.attributes.eq_nil_or_concat
  · intro hlast
    rw [hnil, List.flatMap_nil, List.append_nil] at hlast
    have hchar := ht.name.isNameChar (List.mem_of_getLast? hlast)
    exact ne_of_isNameChar hchar (by decide) rfl
  · have hquote : attributeChars a =
        (' ' :: a.1.toList ++ '=' :: '"' :: a.2.toList.flatMap encodeChar) ++ ['"'] := rfl
    rw [hconcat, List.concat_eq_append, List.flatMap_append, List.flatMap_singleton, hquote,
      ← List.append_assoc, ← List.append_assoc, List.getLast?_concat]
    decide

end Tag

namespace Markup

/-- The content of a tag ends in a text, read inside quotes or not, in front of a rest. -/
def Ends (quote : Option Char) (cs content rest : List Char) : Prop :=
  ∃ left : Left cs, tagContent? quote cs = some (content, left) ∧ left.val = rest

theorem ends_close (rest : List Char) :
  Ends none ('>' :: rest) [] rest
  := ⟨⟨rest, Nat.le_succ _⟩, rfl, rfl⟩

/-- A character that leaves the content open belongs to it. -/
theorem ends_step {quote next : Option Char} {c : Char} {cs content rest : List Char}
    (hstep : tagContent? quote (c :: cs) =
      (tagContent? next cs).map fun (s, left) => (c :: s, left.under c))
    (h : Ends next cs content rest) :
  Ends quote (c :: cs) (c :: content) rest
  := by
  obtain ⟨left, heq, hleft⟩ := h
  refine ⟨left.under c, ?_, hleft⟩
  rw [hstep, heq, Option.map_some]

/-- Outside quotes a character is passed over that is neither a quote nor the end. -/
theorem ends_cons {c : Char} {cs content rest : List Char} (hc : c ≠ '>' ∧ c ≠ '"' ∧ c ≠ '\'')
    (h : Ends none cs content rest) :
  Ends none (c :: cs) (c :: content) rest
  := by
  apply ends_step _ h
  rw [tagContent?, if_neg (by simpa using hc.1), if_neg (by simp [hc.2.1, hc.2.2])]

/-- Characters that neither end a tag nor quote belong to the content. -/
theorem ends_append {front cs content rest : List Char}
    (hfront : ∀ c ∈ front, c ≠ '>' ∧ c ≠ '"' ∧ c ≠ '\'') (h : Ends none cs content rest) :
  Ends none (front ++ cs) (front ++ content) rest
  := by
  induction front with
  | nil => apply h
  | cons c front ih =>
    rw [List.forall_mem_cons] at hfront
    apply ends_cons hfront.1 (ih hfront.2)

/-- Inside quotes everything is passed over up to the end of the quotes. -/
theorem ends_quoted {value cs content rest : List Char} (hvalue : '"' ∉ value)
    (h : Ends none cs content rest) :
  Ends none ('"' :: value ++ '"' :: cs) ('"' :: value ++ '"' :: content) rest
  := by
  have hinside : Ends (some '"') (value ++ '"' :: cs) (value ++ '"' :: content) rest := by
    induction value with
    | nil =>
      apply ends_step _ h
      rw [tagContent?, if_pos (beq_self_eq_true _)]
    | cons c value ih =>
      rw [List.mem_cons, not_or] at hvalue
      apply ends_step _ (ih hvalue.2)
      rw [tagContent?, if_neg (by simpa using Ne.symm hvalue.1)]
  apply ends_step _ hinside
  rw [tagContent?, if_neg (by decide), if_pos (by decide)]

/-- What stands behind the content of a tag is found where the tag ends. -/
theorem ends_content {t : Tag} (ht : t.Named) {cs content rest : List Char}
    (h : Ends none cs content rest) :
  Ends none (t.content ++ cs) (t.content ++ content) rest
  := by
  have hname {name : List Char} (hname : IsName name) :
      ∀ c ∈ name, c ≠ '>' ∧ c ≠ '"' ∧ c ≠ '\'' := by
    intro c hc
    have hchar := hname.isNameChar hc
    exact ⟨ne_of_isNameChar hchar (by decide), ne_of_isNameChar hchar (by decide),
      ne_of_isNameChar hchar (by decide)⟩
  rw [Tag.content_eq, List.append_assoc, List.append_assoc]
  apply ends_append (hname ht.name)
  have hkeys := ht.keys
  clear ht
  generalize t.attributes = attributes at hkeys ⊢
  induction attributes with
  | nil => apply h
  | cons a attributes ih =>
    rw [List.forall_mem_cons] at hkeys
    have hvalue : '"' ∉ a.2.toList.flatMap encodeChar :=
      not_mem_encoded (by decide) (by decide)
    have hfront : ∀ c ∈ ' ' :: a.1.toList ++ ['='], c ≠ '>' ∧ c ≠ '"' ∧ c ≠ '\'' := by
      simp only [List.cons_append, List.forall_mem_cons, List.forall_mem_append]
      exact ⟨by decide, hname hkeys.1, by simp⟩
    have hends := ends_append hfront (ends_quoted hvalue (ih hkeys.2))
    simpa [Tag.attributeChars] using hends

end Markup

/-! ## Reading tags -/

namespace Tag

/-- The characters of a key behind its first one. -/
def isKeyChar (c : Char) : Bool := c != '=' && !isSpace c

/-- An attribute is read up to its closing quote. -/
theorem attribute?_cons {c : Char} {cs more value content : List Char} {rest : Text.Rest value}
    (hkey : (cs.dropWhile isKeyChar).dropWhile isSpace = '=' :: more)
    (hquote : more.dropWhile isSpace = '"' :: value)
    (hvalue : Text.before? (· == '"') value = some (content, rest)) :
  ∃ left : Text.Rest (c :: cs),
    attribute? (c :: cs) = some ((c :: cs.takeWhile isKeyChar, content), left) ∧
    left.val = rest.val
  := by
  unfold attribute?
  simp only
  split
  · rename_i more' hmore
    obtain ⟨-, rfl⟩ := List.cons.inj (hmore.symm.trans hkey)
    split
    · rename_i quote value' hvalue'
      obtain ⟨rfl, rfl⟩ := List.cons.inj (hvalue'.symm.trans hquote)
      rw [if_pos (by decide), hvalue]
      exact ⟨_, rfl, rfl⟩
    · rename_i hnil
      cases hnil.symm.trans hquote
  · rename_i hnone
    apply absurd hkey (hnone more)

/-- A written attribute is read up to its closing quote. -/
theorem attribute?_written {c : Char} {cs value : List Char} (rest : List Char)
    (hkey : ∀ d ∈ cs, isKeyChar d = true) (hvalue : '"' ∉ value) :
  ∃ left : Text.Rest (c :: (cs ++ '=' :: '"' :: (value ++ '"' :: rest))),
    attribute? (c :: (cs ++ '=' :: '"' :: (value ++ '"' :: rest))) =
      some ((c :: cs, value), left) ∧
    left.val = rest
  := by
  have hstop : ∀ d ∈ value, (d == '"') = false := by
    simpa using fun d hd => ne_of_mem_of_not_mem hd hvalue
  have hequals : ((cs ++ '=' :: '"' :: (value ++ '"' :: rest)).dropWhile isKeyChar).dropWhile
      isSpace = '=' :: '"' :: (value ++ '"' :: rest) := by
    rw [List.dropWhile_append_of_pos hkey, List.dropWhile_cons_of_neg (by decide),
      List.dropWhile_cons_of_neg (by decide)]
  obtain ⟨behind, hbefore, hbehind⟩ := Text.before?_append (c := '"') rest hstop rfl
  obtain ⟨left, hattribute, hleft⟩ := attribute?_cons (c := c) hequals
    (List.dropWhile_cons_of_neg (by decide)) hbefore
  rw [List.takeWhile_append_of_pos hkey, List.takeWhile_cons_of_neg (by decide),
    List.append_nil] at hattribute
  exact ⟨left, hattribute, hleft.trans hbehind⟩

/-- A written attribute is read before the others. -/
theorem attributes?_cons {a : String × String} (hkey : IsName a.1.toList)
    (attributes : List (String × String)) :
  attributes? ((a :: attributes).flatMap attributeChars) =
    (attributes? (attributes.flatMap attributeChars)).map (a :: ·)
  := by
  obtain ⟨key, value⟩ := a
  have hchars : ∀ d ∈ key.toList, isSpace d = false ∧ isKeyChar d = true := by
    intro d hd
    have hchar := hkey.isNameChar hd
    have hspace := isSpace_of_isNameChar hchar
    have hequals := ne_of_isNameChar hchar (d := '=') (by decide)
    simp [isKeyChar, hspace, hequals]
  obtain ⟨c, cs, hname, -, -⟩ := hkey
  simp only at hname
  rw [hname, List.forall_mem_cons] at hchars
  obtain ⟨⟨hfirst, -⟩, hcs⟩ := hchars
  have hmore : ∀ d ∈ cs, isKeyChar d = true := fun d hd => (hcs d hd).2
  have hvalue : '"' ∉ value.toList.flatMap encodeChar := not_mem_encoded rfl (by decide)
  obtain ⟨left, hattribute, hleft⟩ :=
    attribute?_written (c := c) (attributes.flatMap attributeChars) hmore hvalue
  have hshape : ((key, value) :: attributes).flatMap attributeChars =
      ' ' :: c :: (cs ++ '=' :: '"' :: (value.toList.flatMap encodeChar ++
        '"' :: attributes.flatMap attributeChars)) := by
    simp [attributeChars, hname]
  rw [hshape, attributes?]
  split
  · rename_i hnil
    rw [List.dropWhile_cons_of_pos (by decide),
      List.dropWhile_cons_of_neg (by simp [hfirst])] at hnil
    cases hnil
  · rename_i hcons
    rw [List.dropWhile_cons_of_pos (by decide),
      List.dropWhile_cons_of_neg (by simp [hfirst])] at hcons
    obtain ⟨rfl, rfl⟩ := List.cons.inj hcons
    rw [hattribute]
    simp only [decodeList?_encoded, hleft, Option.bind_eq_bind, Option.bind_some,
      ← hname, String.ofList_toList, Option.map_eq_bind]
    rfl

/-- Written attributes are read back. -/
theorem attributes?_written {attributes : List (String × String)}
    (hkeys : ∀ a ∈ attributes, IsName a.1.toList) :
  attributes? (attributes.flatMap attributeChars) = some attributes
  := by
  induction attributes with
  | nil =>
    rw [List.flatMap_nil, attributes?]
    rfl
  | cons a attributes ih =>
    rw [List.forall_mem_cons] at hkeys
    rw [attributes?_cons hkeys.1, ih hkeys.2, Option.map_some]

/-- What follows the name in a written tag starts with a space, if there is anything. -/
theorem tagName_content {t : Tag} (ht : t.Named) :
  tagName t.content = t.name.toList
  := by
  have hname : ∀ c ∈ t.name.toList, (!isSpace c) = true := by
    intro c hc
    rw [isSpace_of_isNameChar (ht.name.isNameChar hc), Bool.not_false]
  rw [content_eq, tagName, List.takeWhile_append_of_pos hname]
  cases t.attributes with
  | nil => simp
  | cons a attributes =>
    simp [attributeChars, isSpace]

/-- A written tag is read as it was. -/
theorem ofContent?_content {t : Tag} (ht : t.WellFormed) :
  ofContent? t.content = some t
  := by
  have hbehind : t.content.drop t.name.toList.length = t.attributes.flatMap attributeChars := by
    rw [content_eq, List.drop_left]
  simp only [ofContent?, tagName_content ht.toNamed, hbehind, attributes?_written ht.keys,
    Option.bind_eq_bind, Option.bind_some]
  rw [if_pos ht.nodup, String.ofList_toList]
  rfl

end Tag

end Cosim.Xml
