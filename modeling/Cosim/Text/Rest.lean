/-!
# Reading from the front

What readers share: the part of a list that a reader leaves, together with the fact that it is
shorter, and the pieces of a text before and behind a mark.
-/

namespace Cosim.Text

variable {α : Type}

/-- What a reader leaves of a text or another list. -/
abbrev Rest (cs : List α) := { rest : List α // rest.length < cs.length }

theorem length_dropWhile_le (p : α → Bool) (l : List α) :
  (l.dropWhile p).length ≤ l.length
  := by
  induction l with
  | nil => simp
  | cons a l ih =>
    rw [List.dropWhile_cons]
    split
    · exact Nat.le_succ_of_le ih
    · exact Nat.le_refl _

namespace Rest

/-- A rest of a rest. -/
def trans {cs : List α} (r : Rest cs) (s : Rest r.val) : Rest cs :=
  ⟨s.val, Nat.lt_trans s.property r.property⟩

/-- A rest of the text without its first character. -/
def cons {cs : List α} (c : α) (r : Rest cs) : Rest (c :: cs) :=
  ⟨r.val, Nat.lt_trans r.property (by simp)⟩

end Rest

/-- What is left of a text, of which nothing may have been read. -/
abbrev Left (cs : List α) := { left : List α // left.length ≤ cs.length }

namespace Left

/-- What is left behind a first character. -/
def cons {cs : List α} (c : α) (r : Left cs) : Rest (c :: cs) :=
  ⟨r.val, Nat.lt_of_le_of_lt r.property (by simp)⟩

/-- What is left of a text with one more character in front. -/
def under {cs : List α} (c : α) (r : Left cs) : Left (c :: cs) :=
  ⟨r.val, Nat.le_succ_of_le r.property⟩

/-- What is left without the elements of a class in front. -/
def dropWhile (p : α → Bool) (cs : List α) : Left cs :=
  ⟨cs.dropWhile p, length_dropWhile_le p cs⟩

end Left

/-- The characters before the first character of a class, and what follows that one. -/
def before? (stop : Char → Bool) (cs : List Char) : Option (List Char × Rest cs) :=
  match h : cs.dropWhile (fun c => !stop c) with
  | [] => none
  | _ :: rest =>
    some (cs.takeWhile (fun c => !stop c), ⟨rest, by
      have := length_dropWhile_le (fun c => !stop c) cs
      rw [h, List.length_cons] at this
      omega⟩)

/-- The characters before the first occurrence of a mark, and what follows the mark. -/
def beforeMark? (mark : List Char) : (cs : List Char) → Option (List Char × Left cs)
  | [] => if mark.isEmpty then some ([], ⟨[], Nat.le_refl _⟩) else none
  | c :: cs =>
    if mark.isPrefixOf (c :: cs) then
      some ([], ⟨(c :: cs).drop mark.length, by simp⟩)
    else
      (beforeMark? mark cs).map fun (front, left) =>
        (c :: front, left.under c)

end Cosim.Text
