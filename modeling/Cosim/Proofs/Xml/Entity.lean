import Mathlib
import Cosim.Xml.Markup
import Cosim.Xml.Entity

/-!
# Encoded text

A text is encoded without any of the five marks of XML and decoded as it was, and the white space
at its ends is that of the text itself.
-/

namespace Cosim

/-- What is before the first character of a class is found with what is behind it. -/
theorem Text.before?_append {p : Char → Bool} {cs : List Char} {c : Char} (rest : List Char)
    (hcs : ∀ d ∈ cs, p d = false) (hc : p c = true) :
  ∃ left : Rest (cs ++ c :: rest), before? p (cs ++ c :: rest) = some (cs, left) ∧
    left.val = rest
  := by
  have hpass : ∀ d ∈ cs, (!p d) = true := by
    intro d hd
    rw [hcs d hd, Bool.not_false]
  have htake : (cs ++ c :: rest).takeWhile (fun d => !p d) = cs := by
    rw [List.takeWhile_append_of_pos hpass, List.takeWhile_cons_of_neg (by simp [hc]),
      List.append_nil]
  have hdrop : (cs ++ c :: rest).dropWhile (fun d => !p d) = c :: rest := by
    rw [List.dropWhile_append_of_pos hpass, List.dropWhile_cons_of_neg (by simp [hc])]
  unfold before?
  split
  · rename_i hnil
    rw [hdrop] at hnil
    cases hnil
  · rename_i d more hcons
    rw [hdrop, List.cons.injEq] at hcons
    refine ⟨_, by rw [htake], hcons.2.symm⟩

namespace Xml

/-! ## Single characters -/

/-- The characters that mark something in XML, which are never written as they are. -/
def isMark (c : Char) : Bool := ['<', '>', '&', '\'', '"'].contains c

/-- A character that is no mark is written as it is. -/
theorem encodeChar_of_not_isMark {c : Char} (h : isMark c = false) :
  encodeChar c = [c]
  := by
  unfold encodeChar
  split <;> first | rfl | cases h

/-- A mark is written by its name. -/
theorem encodeChar_of_isMark {c : Char} (h : isMark c = true) :
  ∃ name, encodeChar c = '&' :: name ++ [';'] ∧ named? name = some c ∧
    ∀ d ∈ name, d ≠ ';' ∧ isMark d = false
  := by
  simp only [isMark, List.contains_eq_mem, List.mem_cons, List.not_mem_nil, or_false,
    decide_eq_true_eq] at h
  obtain rfl | rfl | rfl | rfl | rfl := h
  · exact ⟨['l', 't'], rfl, rfl, by simp [isMark]⟩
  · exact ⟨['g', 't'], rfl, rfl, by simp [isMark]⟩
  · exact ⟨['a', 'm', 'p'], rfl, rfl, by simp [isMark]⟩
  · exact ⟨['a', 'p', 'o', 's'], rfl, rfl, by simp [isMark]⟩
  · exact ⟨['q', 'u', 'o', 't'], rfl, rfl, by simp [isMark]⟩

/-- The written characters are those that are no marks, but for the ampersand. -/
theorem isMark_of_mem_encodeChar {c d : Char} (h : d ∈ encodeChar c) :
  d = '&' ∨ isMark d = false
  := by
  cases hc : isMark c with
  | false =>
    rw [encodeChar_of_not_isMark hc, List.mem_singleton] at h
    right
    rw [h, hc]
  | true =>
    obtain ⟨name, hname, -, hchars⟩ := encodeChar_of_isMark hc
    rw [hname] at h
    simp only [List.cons_append, List.mem_cons, List.mem_append, List.not_mem_nil, or_false] at h
    obtain rfl | h | rfl := h
    · left
      rfl
    · right
      apply (hchars d h).2
    · right
      rfl

/-- White space is no mark. -/
theorem isMark_of_isSpace {c : Char} (h : isSpace c = true) :
  isMark c = false
  := by
  simp only [isSpace, Bool.or_eq_true, beq_iff_eq] at h
  obtain ((rfl | rfl) | rfl) | rfl := h <;> decide

/-! ## Texts -/

/-- A text is encoded character by character. -/
theorem toList_encode (s : String) :
  (encode s).toList = s.toList.flatMap encodeChar
  := by
  rw [encode, String.toList_ofList]

/-- No mark but the ampersand is left in an encoded text. -/
theorem not_mem_encoded {c : Char} {cs : List Char} (hc : isMark c = true) (hne : c ≠ '&') :
  c ∉ cs.flatMap encodeChar
  := by
  intro hmem
  obtain ⟨d, -, hd⟩ := List.mem_flatMap.mp hmem
  obtain h | h := isMark_of_mem_encodeChar hd
  · apply hne h
  · rw [hc] at h
    cases h

section Resolve

variable {reference? : List Char → Option Char}

/-- What is no reference is read as it is. -/
theorem resolve?_cons {c : Char} (cs : List Char) (hc : c ≠ '&') :
  resolve? reference? (c :: cs) = (resolve? reference? cs).map (c :: ·)
  := by
  rw [resolve?]
  rintro rfl
  apply hc rfl

/-- A reference is read as its character. -/
theorem resolve?_reference {c : Char} {name : List Char} (rest : List Char)
    (hname : ∀ d ∈ name, d ≠ ';') (hc : reference? name = some c) :
  resolve? reference? ('&' :: name ++ ';' :: rest) = (resolve? reference? rest).map (c :: ·)
  := by
  have hstop : ∀ d ∈ name, (d == ';') = false := by simpa using hname
  obtain ⟨left, hbefore, hleft⟩ := Text.before?_append (c := ';') rest hstop rfl
  rw [List.cons_append, resolve?, hbefore]
  simp only [hc, hleft, Option.bind_eq_bind, Option.bind_some]
  cases resolve? reference? rest <;> rfl

/-- An encoded text is resolved by whatever knows the names of the five marks. -/
theorem resolve?_encoded (hnamed : ∀ name c, named? name = some c → reference? name = some c)
    (cs : List Char) :
  resolve? reference? (cs.flatMap encodeChar) = some cs
  := by
  induction cs with
  | nil => rw [List.flatMap_nil, resolve?]
  | cons c cs ih =>
    rw [List.flatMap_cons]
    cases hc : isMark c with
    | false =>
      rw [encodeChar_of_not_isMark hc, List.singleton_append, resolve?_cons, ih, Option.map_some]
      rintro rfl
      cases hc
    | true =>
      obtain ⟨name, hname, hknown, hchars⟩ := encodeChar_of_isMark hc
      have hshape : encodeChar c ++ cs.flatMap encodeChar =
          '&' :: name ++ ';' :: cs.flatMap encodeChar := by
        rw [hname, List.append_assoc, List.singleton_append]
      rw [hshape, resolve?_reference _ (fun d hd => (hchars d hd).1) (hnamed name c hknown), ih,
        Option.map_some]

end Resolve

/-- A reference by a known name is read as its character. -/
theorem reference?_of_named? (name : List Char) (c : Char) (h : named? name = some c) :
  reference? name = some c
  := by
  unfold reference?
  split
  · cases h
  · cases h
  · apply h

/-- An encoded text is read back. -/
theorem decodeList?_encoded (cs : List Char) :
  decodeList? (cs.flatMap encodeChar) = some cs
  := resolve?_encoded reference?_of_named? cs

/-- A text that is not empty is not encoded as nothing. -/
theorem encoded_ne_nil {cs : List Char} (h : cs ≠ []) :
  cs.flatMap encodeChar ≠ []
  := by
  intro hnil
  have hdecoded := decodeList?_encoded cs
  rw [hnil, ← List.flatMap_nil (f := encodeChar), decodeList?_encoded] at hdecoded
  exact h (Option.some.inj hdecoded).symm

/-! ## White space at the ends -/

/-- The characters without the white space at either end. -/
def trimSpace (cs : List Char) : List Char := trimEnd (cs.dropWhile isSpace)

/-- Trimming the end drops the white space there. -/
theorem trimEnd_eq (cs : List Char) :
  trimEnd cs = cs.rdropWhile isSpace
  := rfl

/-- What is written for a character that is no white space neither starts nor ends with any. -/
theorem isSpace_encodeChar {c : Char} (h : isSpace c = false) :
  ∃ first more, encodeChar c = first :: more ∧ isSpace first = false ∧
    ∃ front last, encodeChar c = front ++ [last] ∧ isSpace last = false
  := by
  cases hc : isMark c with
  | false =>
    rw [encodeChar_of_not_isMark hc]
    exact ⟨c, [], rfl, h, [], c, rfl, h⟩
  | true =>
    obtain ⟨name, hname, -, -⟩ := encodeChar_of_isMark hc
    exact ⟨'&', name ++ [';'], hname, rfl, '&' :: name, ';', hname, rfl⟩

/-- White space in front may be dropped before or after encoding. -/
theorem dropWhile_encoded (cs : List Char) :
  (cs.flatMap encodeChar).dropWhile isSpace = (cs.dropWhile isSpace).flatMap encodeChar
  := by
  induction cs with
  | nil => rfl
  | cons c cs ih =>
    cases hc : isSpace c with
    | true =>
      rw [List.flatMap_cons, encodeChar_of_not_isMark (isMark_of_isSpace hc), List.singleton_append,
        List.dropWhile_cons_of_pos hc, List.dropWhile_cons_of_pos hc, ih]
    | false =>
      obtain ⟨first, more, hencode, hfirst, -⟩ := isSpace_encodeChar hc
      rw [List.dropWhile_cons_of_neg (by simp [hc]), List.flatMap_cons, hencode, List.cons_append,
        List.dropWhile_cons_of_neg (by simp [hfirst])]

/-- White space at the end may be trimmed before or after encoding. -/
theorem trimEnd_encoded (cs : List Char) :
  trimEnd (cs.flatMap encodeChar) = (trimEnd cs).flatMap encodeChar
  := by
  rw [trimEnd_eq, trimEnd_eq]
  induction cs using List.reverseRecOn with
  | nil => rfl
  | append_singleton cs c ih =>
    rw [List.flatMap_append, List.flatMap_singleton]
    cases hc : isSpace c with
    | true =>
      rw [encodeChar_of_not_isMark (isMark_of_isSpace hc), List.rdropWhile_concat_pos _ _ _ hc,
        List.rdropWhile_concat_pos _ _ _ hc, ih]
    | false =>
      obtain ⟨-, -, -, -, front, last, hencode, hlast⟩ := isSpace_encodeChar hc
      rw [List.rdropWhile_concat_neg _ _ c (by simp [hc]), List.flatMap_append,
        List.flatMap_singleton, hencode, ← List.append_assoc,
        List.rdropWhile_concat_neg _ _ last (by simp [hlast])]

/-- Trimming an encoded text is encoding the trimmed text. -/
theorem trimSpace_encoded (cs : List Char) :
  trimSpace (cs.flatMap encodeChar) = (trimSpace cs).flatMap encodeChar
  := by
  rw [trimSpace, dropWhile_encoded, trimEnd_encoded, trimSpace]

end Xml

end Cosim
