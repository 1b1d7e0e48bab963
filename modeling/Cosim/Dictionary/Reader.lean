import Cosim.Dictionary.Value
import Cosim.Text.Rest

/-!
# Reading dictionaries

A dictionary is a sequence of entries `key value;` where a value is a word, a list `( … )` or a
block `{ … }`.  Blanks and comments may stand before every word and mark.  The text is read as far
as outermost entries can be read as a whole; `document` accepts it if nothing is left, and else
names the place where that stopped.

Every reader returns what it leaves of the text together with the fact that this is shorter, which
is what its recursion ends by.
-/

namespace Cosim.Dictionary

open Text (Rest Left before?)

/-! ## Separators -/

/-- The blanks between words: space, tab, carriage return and line feed. -/
def isSpace (c : Char) : Bool := c == ' ' || c == '\t' || c == '\r' || c == '\n'

/-- What follows a comment that runs to the end of its line.  A carriage return ends a line only
together with a line feed, and stands nowhere else in a comment. -/
def afterLine? : List Char → Option (List Char)
  | [] => some []
  | '\n' :: cs => some ('\n' :: cs)
  | '\r' :: '\n' :: cs => some ('\r' :: '\n' :: cs)
  | c :: cs => if c == '\r' then none else afterLine? cs

/-- What follows the end of a comment between marks. -/
def afterComment? : List Char → Option (List Char)
  | [] => none
  | '*' :: '/' :: cs => some cs
  | _ :: cs => afterComment? cs

/-- What follows one blank or comment. -/
def afterSeparator? : List Char → Option (List Char)
  | '/' :: '/' :: cs => afterLine? cs
  | '/' :: '*' :: cs => afterComment? cs
  | '#' :: cs => afterLine? cs
  | c :: cs => if isSpace c then some cs else none
  | [] => none

theorem length_afterLine? {cs rest : List Char} (h : afterLine? cs = some rest) :
  rest.length ≤ cs.length
  := by
  fun_induction afterLine? cs with
  | case1 => cases h; exact Nat.le_refl _
  | case2 => cases h; exact Nat.le_refl _
  | case3 => cases h; exact Nat.le_refl _
  | case4 => cases h
  | case5 c cs _ _ _ ih => exact Nat.le_succ_of_le (ih h)

theorem length_afterComment? {cs rest : List Char} (h : afterComment? cs = some rest) :
  rest.length < cs.length
  := by
  fun_induction afterComment? cs with
  | case1 => cases h
  | case2 => cases h; exact Nat.lt_succ_of_lt (Nat.lt_succ_self _)
  | case3 _ cs _ ih => exact Nat.lt_succ_of_lt (ih h)

theorem length_afterSeparator? {cs rest : List Char} (h : afterSeparator? cs = some rest) :
  rest.length < cs.length
  := by
  unfold afterSeparator? at h
  split at h
  · exact Nat.lt_of_le_of_lt (length_afterLine? h) (Nat.lt_succ_of_lt (Nat.lt_succ_self _))
  · exact Nat.lt_trans (length_afterComment? h) (Nat.lt_succ_of_lt (Nat.lt_succ_self _))
  · exact Nat.lt_of_le_of_lt (length_afterLine? h) (Nat.lt_succ_self _)
  · split at h
    · cases h; exact Nat.lt_succ_self _
    · cases h
  · cases h

/-- What follows all blanks and comments at the start of a text. -/
def skip (cs : List Char) : List Char :=
  match _h : afterSeparator? cs with
  | some rest => skip rest
  | none => cs
termination_by cs.length
decreasing_by exact length_afterSeparator? _h

theorem length_skip (cs : List Char) :
  (skip cs).length ≤ cs.length
  := by
  fun_induction skip cs with
  | case1 cs rest h ih => exact Nat.le_of_lt (Nat.lt_of_le_of_lt ih (length_afterSeparator? h))
  | case2 => exact Nat.le_refl _

/-! ## Words -/

/-- A word as it stands in the text. -/
inductive Word where
  | quoted (s : String)
  | bare (s : String)

def Word.text : Word → String
  | .quoted s => s
  | .bare s => s

/-- A quoted word is text, and a bare one is the scalar it stands for. -/
def Word.value : Word → Value
  | .quoted s => .text s
  | .bare s => scalar s

/-- A word: text between single or double quotes, or a run of bare characters. -/
def word? (cs : List Char) : Option (Word × Rest cs) :=
  match cs with
  | [] => none
  | c :: rest =>
    if c == '\'' || c == '"' then
      (before? (· == c) rest).map fun (s, left) => (.quoted (String.ofList s), left.cons c)
    else if isBare c then
      some (.bare (String.ofList (c :: rest.takeWhile isBare)),
        (Left.dropWhile isBare rest).cons c)
    else none

/-- The rest behind a mark that may follow separators. -/
def mark? (mark : Char) (cs : List Char) : Option (Rest cs) :=
  match h : skip cs with
  | [] => none
  | c :: rest =>
    if c == mark then
      some ⟨rest, by
        have := length_skip cs
        rw [h, List.length_cons] at this
        omega⟩
    else none

/-! ## Entries, values and lists -/

/-- A rest of what follows the separators is a rest of the whole. -/
def afterSkip {cs : List Char} (r : Rest (skip cs)) : Rest cs :=
  ⟨r.val, Nat.lt_of_lt_of_le r.property (length_skip cs)⟩

/-- Takes a mark from a rest if it comes next. -/
def optional {cs : List Char} (r : Rest cs) (mark : Char) : Rest cs :=
  match mark? mark r.val with
  | some s => r.trans s
  | none => r

mutual

/-- An entry: a key and a block, a key and a value with a semicolon, or a key with a semicolon
alone, which has no value.  The semicolon behind a block may be left out. -/
def entry? (cs : List Char) : Option ((String × Value) × Rest cs) :=
  match word? cs with
  | none => none
  | some (key, r) =>
    match h : skip r.val with
    | ';' :: rest =>
      some ((key.text, .null), ⟨rest, by
        have := length_skip r.val
        have := r.property
        rw [h, List.length_cons] at *
        omega⟩)
    | _ =>
      match value? (skip r.val) with
      | none => none
      | some (v, s) =>
        let rest : Rest cs := r.trans (afterSkip s)
        if v.isObject then some ((key.text, v), optional rest ';')
        else (mark? ';' rest.val).map fun t => ((key.text, v), rest.trans t)
termination_by (cs.length, 0)
decreasing_by
  exact Prod.Lex.left _ _ (Nat.lt_of_le_of_lt (length_skip _) r.property)

/-- A value: a block, a list or a word. -/
def value? (cs : List Char) : Option (Value × Rest cs) :=
  match cs with
  | '{' :: body =>
    match entries body with
    | (es, r) =>
      (mark? '}' r.val).map fun s =>
        (.object (Entries.ofPairs es), ⟨s.val, by
          have := s.property
          have := r.property
          simp only [List.length_cons]
          omega⟩)
  | '(' :: body =>
    match items body with
    | (vs, r) =>
      (mark? ')' r.val).map fun s =>
        (.list vs, ⟨s.val, by
          have := s.property
          have := r.property
          simp only [List.length_cons]
          omega⟩)
  | cs => (word? cs).map fun (w, r) => (w.value, r)
termination_by (cs.length, 1)
decreasing_by
  all_goals exact Prod.Lex.left _ _ (by simp)

/-- All entries that can be read one after another. -/
def entries (cs : List Char) :
    List (String × Value) × { rest : List Char // rest.length ≤ cs.length } :=
  match entry? (skip cs) with
  | none => ([], ⟨cs, Nat.le_refl _⟩)
  | some (e, r) =>
    match entries r.val with
    | (es, s) =>
      (e :: es, ⟨s.val, Nat.le_trans s.property (Nat.le_of_lt (afterSkip r).property)⟩)
termination_by (cs.length, 2)
decreasing_by
  · rcases Nat.lt_or_eq_of_le (length_skip cs) with h | h
    · exact Prod.Lex.left _ _ h
    · rw [h]; exact Prod.Lex.right _ (by decide)
  · exact Prod.Lex.left _ _ (afterSkip r).property

/-- All values that can be read one after another; a comma may follow each. -/
def items (cs : List Char) : List Value × { rest : List Char // rest.length ≤ cs.length } :=
  match value? (skip cs) with
  | none => ([], ⟨cs, Nat.le_refl _⟩)
  | some (v, r) =>
    let rest : Rest cs := optional (afterSkip r) ','
    match items rest.val with
    | (vs, s) =>
      (v :: vs, ⟨s.val, Nat.le_trans s.property (Nat.le_of_lt rest.property)⟩)
termination_by (cs.length, 2)
decreasing_by
  · rcases Nat.lt_or_eq_of_le (length_skip cs) with h | h
    · exact Prod.Lex.left _ _ h
    · rw [h]; exact Prod.Lex.right _ (by decide)
  · exact Prod.Lex.left _ _ rest.property

end

/-! ## Documents -/

/-- The place where reading stopped: its line, and up to forty characters from there on. -/
structure Stop where
  line : Nat
  context : String

/-- Reads a whole text.  Of several entries with one key the last one counts, in the place of the
first. -/
def document (text : String) : Except Stop Dictionary :=
  let cs := text.toList
  match entries cs with
  | (es, r) =>
    let left := skip r.val
    if left.isEmpty then .ok (Entries.ofPairs es)
    else
      let before := cs.take (cs.length - left.length)
      .error ⟨before.count '\n' + 1, String.ofList (left.take 40)⟩

end Cosim.Dictionary
