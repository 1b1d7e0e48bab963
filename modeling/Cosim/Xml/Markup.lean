import Cosim.Text.Rest

/-!
# Markup

An XML text as a sequence of tags, texts, comments and the like, each with its content as it
stands in the text.  White space at either end of a text between tags does not count.
`Markup.scan` yields the sequence up to the first place that is malformed: a mark that is not
closed, or an end tag that does not match the tag last opened.
-/

namespace Cosim.Xml

open Text (Rest Left before? beforeMark?)

/-- A piece of an XML text. -/
inductive Markup where
  /-- a start tag, with its name and attributes -/
  | start (content : List Char)
  /-- a tag without content, with its name and attributes -/
  | empty (content : List Char)
  /-- an end tag, with its name -/
  | close (name : List Char)
  /-- a text between tags, references and all -/
  | text (content : List Char)
  /-- a text in which nothing is marked up -/
  | verbatim (content : List Char)
  | comment (content : List Char)
  /-- a declaration or another processing instruction -/
  | instruction (content : List Char)
  | doctype (content : List Char)
deriving DecidableEq

/-- The white space of XML. -/
def isSpace (c : Char) : Bool := c == ' ' || c == '\t' || c == '\r' || c == '\n'

/-- The characters without the white space at the end. -/
def trimEnd (cs : List Char) : List Char := (cs.reverse.dropWhile isSpace).reverse

/-- The name at the front of the content of a tag. -/
def tagName (content : List Char) : List Char := content.takeWhile fun c => !isSpace c

namespace Markup

/-! ## Pieces of a text -/

/-- Whether a text begins with another one, ASCII letters of both cases being the same. -/
def beginsWith (start cs : List Char) : Bool :=
  (start.map Char.toLower).isPrefixOf ((cs.take start.length).map Char.toLower)

/-- The content of a tag, which ends at the first `>` outside quotes. -/
def tagContent? (quote : Option Char) : (cs : List Char) → Option (List Char × Left cs)
  | [] => none
  | c :: cs =>
    match quote with
    | none =>
      if c == '>' then some ([], ⟨cs, Nat.le_succ _⟩)
      else
        (tagContent? (if c == '"' || c == '\'' then some c else none) cs).map fun (s, left) =>
          (c :: s, left.under c)
    | some q =>
      (tagContent? (if c == q then none else quote) cs).map fun (s, left) =>
        (c :: s, left.under c)

/-- The content of a document type, which ends at the first `>` outside nested marks. -/
def doctypeContent? (depth : Int) : (cs : List Char) → Option (List Char × Left cs)
  | [] => none
  | c :: cs =>
    if c == '>' && depth == 0 then some ([], ⟨cs, Nat.le_succ _⟩)
    else
      let depth := if c == '<' then depth + 1 else if c == '>' then depth - 1 else depth
      (doctypeContent? depth cs).map fun (s, left) =>
        (c :: s, left.under c)

/-- The content up to the next `>`, or all of the text where there is none. -/
def upToClose (cs : List Char) : List Char × Left cs :=
  match before? (· == '>') cs with
  | some (s, rest) => (s, ⟨rest.val, Nat.le_of_lt rest.property⟩)
  | none => (cs, ⟨[], Nat.zero_le _⟩)

/-- What a text begins with. -/
inductive Next (cs : List Char) where
  /-- nothing is left -/
  | done
  | malformed
  | found (piece : Markup) (rest : Rest cs)

/-- The piece between marks, where there is one. -/
def Next.ofOption {cs : List Char} (piece : List Char → Markup)
    (found : Option (List Char × Rest cs)) : Next cs :=
  match found with
  | some (content, rest) => .found (piece content) rest
  | none => .malformed

/-- What follows `<!`. -/
def declaration (cs : List Char) : Next cs :=
  match cs with
  | '-' :: '-' :: body =>
    .ofOption .comment ((beforeMark? "-->".toList body).map fun (s, left) =>
      (s, (left.cons '-').cons '-'))
  | c :: body =>
    if beginsWith "[CDATA[".toList cs then
      .ofOption .verbatim ((beforeMark? "]]>".toList (body.drop 6)).map fun (s, left) =>
        (s, ⟨left.val, by
          have := left.property
          simp only [List.length_drop] at this
          simp only [List.length_cons]
          omega⟩))
    else if beginsWith ['D'] cs then
      match doctypeContent? 0 body with
      | some (s, left) =>
        let content := (s.drop 6).dropWhile isSpace
        if beginsWith "OCTYPE".toList s && !content.isEmpty then
          .found (.doctype content) (left.cons c)
        else .malformed
      | none => .malformed
    else .malformed
  | [] => .malformed

/-- What follows `<`. -/
def tag (cs : List Char) : Next cs :=
  match cs with
  | [] => .done
  | '!' :: body =>
    match declaration body with
    | .found piece rest => .found piece (rest.cons '!')
    | _ => .malformed
  | '/' :: body =>
    let (name, left) := upToClose body
    .found (.close (if name.all isSpace then name else trimEnd name)) (left.cons '/')
  | '?' :: body =>
    let (content, left) := upToClose body
    if content.length < 2 || content.getLast? != some '?' then .malformed
    else .found (.instruction content.dropLast) (left.cons '?')
  | c :: body =>
    match tagContent? none (c :: body) with
    | some (content, left) =>
      if h : left.val.length < (c :: body).length then
        .found (if content.getLast? == some '/' then .empty content.dropLast else .start content)
          ⟨left.val, h⟩
      else .malformed
    | none => .malformed

/-- What a text without white space in front begins with. -/
def next (cs : List Char) : Next cs :=
  match cs with
  | [] => .done
  | '<' :: body =>
    match tag body with
    | .found piece rest => .found piece (rest.cons '<')
    | .malformed => .malformed
    | .done => .done
  | c :: body =>
    .found (.text (trimEnd (c :: body.takeWhile (· != '<'))))
      ((Left.dropWhile (· != '<') body).cons c)

/-! ## Whole texts -/

/-- The pieces of a text up to the first malformed place, and whether there is one. -/
structure Scan where
  pieces : List Markup
  malformed : Bool

/-- The names of the open tags behind a piece, or nothing if the piece ends another tag than the
one last opened. -/
def openAfter? (opened : List (List Char)) : Markup → Option (List (List Char))
  | .start content => some (tagName content :: opened)
  | .close name =>
    match opened with
    | last :: rest => if name == last then some rest else none
    | [] => none
  | _ => some opened

/-- The pieces of a text in which the given tags are open, the last opened first. -/
def scanFrom (opened : List (List Char)) (cs : List Char) : Scan :=
  match next (cs.dropWhile isSpace) with
  | .done => ⟨[], false⟩
  | .malformed => ⟨[], true⟩
  | .found piece rest =>
    match openAfter? opened piece with
    | none => ⟨[], true⟩
    | some opened =>
      let scan := scanFrom opened rest.val
      ⟨piece :: scan.pieces, scan.malformed⟩
termination_by cs.length
decreasing_by
  exact Nat.lt_of_lt_of_le rest.property (Text.length_dropWhile_le _ _)

/-- The pieces of a whole text; a byte order mark in front is skipped. -/
def scan (text : String) : Scan :=
  scanFrom [] (match text.toList with
    | '\ufeff' :: cs => cs
    | cs => cs)

end Markup

end Cosim.Xml
