import Mathlib.Data.List.Basic

/-!
# Reading graphs

A reader of graphs in the DOT language, as far as a text consists of names, quoted texts, marks and
arrows.  A quoted text ends at the first quote without a backslash in front, and a backslash lets
the next character stand for itself.
-/

namespace Cosim.Dot

/-! ## Tokens -/

inductive Token where
  | word (s : String)
  /-- a quoted text, without its quotes and backslashes -/
  | quoted (s : String)
  | mark (c : Char)
  | arrow
deriving DecidableEq

/-- The characters that are tokens of their own. -/
def isMark (c : Char) : Bool := ['{', '}', '[', ']', ';', ',', '='].contains c

def isWordChar (c : Char) : Bool := c.isAlphanum || c == '_' || c == '.'

/-- Where a reader is: the characters of an open token are in reverse order. -/
inductive Place where
  | outside
  | word (cs : List Char)
  | quoted (cs : List Char)
  /-- behind a backslash in a quoted text -/
  | escaped (cs : List Char)
  | dash
  /-- behind something that is no token -/
  | lost
deriving DecidableEq

/-- The tokens read so far, in reverse order, and where the reader is. -/
structure Scan where
  tokens : List Token
  place : Place
deriving DecidableEq

namespace Scan

/-- A character that does not belong to the token before it. -/
def start (tokens : List Token) (c : Char) : Scan :=
  if c == '"' then ⟨tokens, .quoted []⟩
  else if c == '-' then ⟨tokens, .dash⟩
  else if isMark c then ⟨.mark c :: tokens, .outside⟩
  else if isWordChar c then ⟨tokens, .word [c]⟩
  else if c.isWhitespace then ⟨tokens, .outside⟩
  else ⟨tokens, .lost⟩

def step (s : Scan) (c : Char) : Scan :=
  match s.place with
  | .outside => start s.tokens c
  | .word cs =>
    if isWordChar c then ⟨s.tokens, .word (c :: cs)⟩
    else start (.word (String.ofList cs.reverse) :: s.tokens) c
  | .quoted cs =>
    if c == '"' then ⟨.quoted (String.ofList cs.reverse) :: s.tokens, .outside⟩
    else if c == '\\' then ⟨s.tokens, .escaped cs⟩
    else ⟨s.tokens, .quoted (c :: cs)⟩
  | .escaped cs => ⟨s.tokens, .quoted (c :: cs)⟩
  | .dash => if c == '>' then ⟨.arrow :: s.tokens, .outside⟩ else ⟨s.tokens, .lost⟩
  | .lost => s

/-- The tokens when the text has ended. -/
def finish? (s : Scan) : Option (List Token) :=
  match s.place with
  | .outside => some s.tokens.reverse
  | .word cs => some (.word (String.ofList cs.reverse) :: s.tokens).reverse
  | _ => none

/-- A reader that goes on with a text. -/
def read (s : Scan) (text : String) : Scan := text.toList.foldl step s

end Scan

def tokens? (text : String) : Option (List Token) := (Scan.read ⟨[], .outside⟩ text).finish?

/-! ## Statements -/

abbrev Attributes := List (String × String)

inductive Statement where
  | setting (name value : String)
  /-- attributes of all nodes or edges that follow -/
  | defaults (keyword : String) (attributes : Attributes)
  | node (id : String) (attributes : Attributes)
  | edge (source target : String) (attributes : Attributes)
deriving DecidableEq

/-- The text of a name, which may be quoted. -/
def Token.text? : Token → Option String
  | .word s => some s
  | .quoted s => some s
  | _ => none

def attribute? : List Token → Option (String × String)
  | [name, .mark '=', value] => do pure (← name.text?, ← value.text?)
  | _ => none

/-- Attributes in brackets. -/
def attributes? : List Token → Option Attributes
  | .mark '[' :: rest =>
    if rest.getLast? = some (.mark ']') then
      (rest.dropLast.splitOn (.mark ',')).mapM attribute?
    else none
  | _ => none

/-- A statement without the semicolon that ends it.  Only names without quotes are keywords. -/
def statement? : List Token → Option Statement
  | [name, .mark '=', value] => do pure (.setting (← name.text?) (← value.text?))
  | source :: .arrow :: target :: rest => do
    pure (.edge (← source.text?) (← target.text?) (← attributes? rest))
  | first :: rest => do
    if first = .word "node" ∨ first = .word "edge" then
      pure (.defaults (← first.text?) (← attributes? rest))
    else pure (.node (← first.text?) (← attributes? rest))
  | [] => none

structure Graph where
  name : String
  statements : List Statement
deriving DecidableEq

/-- The id of a node. -/
def Statement.id? : Statement → Option String
  | .node id _ => some id
  | _ => none

/-- The ids of the nodes of a graph. -/
def Graph.ids (g : Graph) : List String := g.statements.filterMap Statement.id?

/-- A directed graph, each of whose statements ends with a semicolon. -/
def graph? : List Token → Option Graph
  | .word "digraph" :: name :: .mark '{' :: body => do
    let pieces := body.splitOn (.mark ';')
    if pieces.getLast? = some [.mark '}'] then
      pure ⟨← name.text?, ← pieces.dropLast.mapM statement?⟩
    else none
  | _ => none

/-- The graph that a text describes. -/
def read? (text : String) : Option Graph := (tokens? text).bind graph?

/-! ## Texts of complete tokens -/

namespace Scan

/-- A scan after other tokens. -/
def onto (s : Scan) (more : List Token) : Scan := ⟨s.tokens ++ more, s.place⟩

theorem start_onto (ts more : List Token) (c : Char) :
  start (ts ++ more) c = (start ts c).onto more
  := by
  unfold start
  split_ifs <;> rfl

/-- Tokens that have been read do not matter to what is read next. -/
theorem step_onto (s : Scan) (more : List Token) (c : Char) :
  step (s.onto more) c = (step s c).onto more
  := by
  obtain ⟨ts, place⟩ := s
  cases place with
  | outside => exact start_onto ts more c
  | word cs =>
    simp only [step, onto]
    split_ifs
    · rfl
    · exact start_onto (_ :: ts) more c
  | quoted cs =>
    simp only [step, onto]
    split_ifs <;> rfl
  | escaped cs => rfl
  | dash =>
    simp only [step, onto]
    split_ifs <;> rfl
  | lost => rfl

/-- What is read of a text does not depend on the tokens before it. -/
theorem read_onto (s : Scan) (more : List Token) (text : String) :
  read (s.onto more) text = (read s text).onto more
  := by
  unfold read
  induction text.toList generalizing s with
  | nil => rfl
  | cons c cs ih => rw [List.foldl_cons, step_onto, ih, List.foldl_cons]

/-- A text is read on from where reading has come to. -/
theorem read_append (s : Scan) (text more : String) :
  read s (text ++ more) = read (read s text) more
  := by
  rw [read, String.toList_append, List.foldl_append]
  rfl

end Scan

/-- A text of complete tokens. -/
def Reads (text : String) (tokens : List Token) : Prop :=
  ∀ before, Scan.read ⟨before, .outside⟩ text = ⟨tokens.reverse ++ before, .outside⟩

variable {text more : String} {tokens others : List Token}

/-- A text that is read from outside to outside is read as its tokens. -/
theorem reads_of_read (h : Scan.read ⟨[], .outside⟩ text = ⟨tokens.reverse, .outside⟩) :
  Reads text tokens
  := by
  intro before
  have honto := Scan.read_onto ⟨[], .outside⟩ before text
  rw [h] at honto
  exact honto

/-- Two texts are read one after the other. -/
theorem Reads.append (h : Reads text tokens) (hmore : Reads more others) :
  Reads (text ++ more) (tokens ++ others)
  := by
  intro before
  rw [Scan.read_append, h, hmore, List.reverse_append, List.append_assoc]

/-- A text that is read has its tokens. -/
theorem Reads.tokens? (h : Reads text tokens) :
  tokens? text = some tokens
  := by
  rw [Dot.tokens?, h]
  simp [Scan.finish?]

/-! ## Texts of statements -/

/-- The tokens of statements, each with its semicolon. -/
def ended (pieces : List (List Token)) : List Token := pieces.flatMap (· ++ [.mark ';'])

/-- Tokens are divided at the semicolons that end them. -/
theorem splitOn_ended {pieces : List (List Token)} (h : ∀ piece ∈ pieces, .mark ';' ∉ piece)
    {rest : List Token} (hrest : .mark ';' ∉ rest) :
  (ended pieces ++ rest).splitOn (.mark ';') = pieces ++ [rest]
  := by
  induction pieces with
  | nil => exact List.splitOn_eq_singleton hrest
  | cons piece pieces ih =>
    rw [List.forall_mem_cons] at h
    have hcons : ended (piece :: pieces) ++ rest =
        piece ++ .mark ';' :: (ended pieces ++ rest) := by
      simp [ended]
    rw [hcons, List.splitOn_append_cons_self, List.splitOn_eq_singleton h.1, ih h.2]
    rfl

/-- A text of statements, each with its semicolon. -/
def Writes (text : String) (statements : List Statement) : Prop :=
  ∃ pieces, Reads text (ended pieces) ∧ (∀ piece ∈ pieces, .mark ';' ∉ piece) ∧
    pieces.mapM statement? = some statements

variable {statements further : List Statement}

/-- A text that is read as one statement and a semicolon writes that statement. -/
theorem Writes.single (piece : List Token) {statement : Statement}
    (h : Reads text (piece ++ [.mark ';'])) (hpiece : .mark ';' ∉ piece)
    (hstatement : statement? piece = some statement) :
  Writes text [statement]
  := by
  refine ⟨[piece], ?_, ?_, ?_⟩
  · rwa [ended, List.flatMap_singleton]
  · simpa using hpiece
  · simp [hstatement]

/-- Two texts write the statements of one after those of the other. -/
theorem Writes.append (h : Writes text statements) (hmore : Writes more further) :
  Writes (text ++ more) (statements ++ further)
  := by
  obtain ⟨pieces, hreads, hplain, hstatements⟩ := h
  obtain ⟨pieces', hreads', hplain', hstatements'⟩ := hmore
  refine ⟨pieces ++ pieces', ?_, ?_, ?_⟩
  · rw [ended, List.flatMap_append]
    exact hreads.append hreads'
  · rw [List.forall_mem_append]
    exact ⟨hplain, hplain'⟩
  · rw [List.mapM_append, hstatements, hstatements']
    rfl

/-- Texts of items write one statement each. -/
theorem Writes.join {ι : Type} {f : ι → String} {g : ι → Statement} (h : ∀ i, Writes (f i) [g i])
    (items : List ι) :
  Writes (String.join (items.map f)) (items.map g)
  := by
  induction items with
  | nil => exact ⟨[], fun _ => rfl, List.forall_mem_nil _, rfl⟩
  | cons i items ih =>
    rw [List.map_cons, String.join_cons, List.map_cons]
    exact (h i).append ih

/-- A graph is read as its name and its statements. -/
theorem read?_of_writes {opening closing name : String}
    (hopening : Reads opening [.word "digraph", .word name, .mark '{'])
    (h : Writes text statements) (hclosing : Reads closing [.mark '}']) :
  read? (opening ++ text ++ closing) = some ⟨name, statements⟩
  := by
  obtain ⟨pieces, hreads, hplain, hstatements⟩ := h
  have htokens := ((hopening.append hreads).append hclosing).tokens?
  have hsplit : (ended pieces ++ [Token.mark '}']).splitOn (.mark ';') =
      pieces ++ [[Token.mark '}']] :=
    splitOn_ended hplain (by decide)
  rw [read?, htokens, Option.bind_some, List.append_assoc]
  simp only [List.cons_append, List.nil_append, graph?, hsplit, List.getLast?_concat,
    List.dropLast_concat, hstatements, if_true]
  rfl

end Cosim.Dot
