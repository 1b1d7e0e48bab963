import Cosim.Document.Name
import Cosim.Text.Replace
import Cosim.Xml.Entity
import Cosim.Xml.Markup

/-!
# Tokens of documents

A document as a sequence of tags, texts and what stands between them.  `Token.scan` reads strictly:
names and characters must be those of XML, attributes need white space in front, and one element
encloses all others.  It yields the tokens up to the first malformed place or to the end of the
first element; whoever needs a token more takes the document for malformed.
-/

namespace Cosim.Document

open Xml (isSpace)

/-- An attribute as it is written. -/
structure Attribute where
  key : String
  /-- the value, references and all -/
  value : List Char
deriving DecidableEq

inductive Token where
  | start (name : String) (attributes : List Attribute)
  /-- a tag without content -/
  | empty (name : String) (attributes : List Attribute)
  /-- an end tag; white space behind the name counts as part of the name -/
  | close (name : String)
  /-- a text, references and all -/
  | text (content : List Char)
  /-- a text in which nothing is marked up -/
  | verbatim (content : List Char)
  /-- a comment or an instruction -/
  | aside
deriving DecidableEq

/-- Reads from the front of a text. -/
abbrev Front := StateT (List Char) Option

namespace Front

/-- Reads a mark. -/
def mark (s : String) : Front PUnit := fun cs =>
  if s.toList.isPrefixOf cs then some ((), cs.drop s.length) else none

/-- Reads a mark if it is there, and tells whether it is. -/
def marked (s : String) : Front Bool := fun cs =>
  if s.toList.isPrefixOf cs then some (true, cs.drop s.length) else some (false, cs)

/-- Passes over white space. -/
def blank : Front PUnit := modify (·.dropWhile isSpace)

/-- Passes over white space, of which there must be some. -/
def space : Front PUnit := fun cs =>
  if cs.head?.any isSpace then some ((), cs.dropWhile isSpace) else none

/-- The characters of a class. -/
def run (p : Char → Bool) : Front (List Char) := fun cs => some (cs.takeWhile p, cs.dropWhile p)

/-- The characters of XML before a mark, which is passed over. -/
def before (s : String) : Front (List Char) := fun cs =>
  match Text.beforeMark? s.toList cs with
  | some (content, left) => if content.all isXmlChar then some (content, left.val) else none
  | none => none

def name : Front (List Char) := fun cs => (name? cs).map fun (name, rest) => (name, rest.val)

def qualified : Front (List Char) := fun cs =>
  (qualified? cs).map fun (name, rest) => (name, rest.val)

/-- Reads either kind of quote. -/
def quote : Front String := fun cs =>
  match cs with
  | '"' :: cs => some ("\"", cs)
  | '\'' :: cs => some ("'", cs)
  | _ => none

/-- Reads an equals sign and the white space around it. -/
def equals : Front PUnit := do
  blank
  mark "="
  blank

/-- Refuses what does not satisfy a condition. -/
def check (b : Bool) : Front PUnit := fun cs => if b then some ((), cs) else none

end Front

namespace Token

open Front

/-! ## Asides -/

def comment : Front PUnit := do
  mark "<!--"
  let content ← before "-->"
  check (!Text.hasPart "--".toList content && content.getLast? != some '-')

/-- An instruction other than a declaration. -/
def instruction : Front PUnit := do
  check (!(← marked "<?xml "))
  mark "<?"
  let _ ← name
  blank
  let _ ← before "?>"

/-- A comment or an instruction. -/
def aside? : Front PUnit := fun cs =>
  if "<!--".toList.isPrefixOf cs then comment cs else instruction cs

/-! ## Head -/

/-- A value in quotes whose characters are of a class. -/
def quotedRun (p : Char → Bool) : Front (List Char) := do
  let q ← quote
  let value ← run p
  mark q
  pure value

/-- Passes over white space, which only the end of a declaration makes superfluous. -/
def declarationSpace : Front PUnit := fun cs =>
  if cs.isEmpty || "?>".toList.isPrefixOf cs then some ((), cs) else space cs

def isAsciiLetter (c : Char) : Bool := ('a' ≤ c && c ≤ 'z') || ('A' ≤ c && c ≤ 'Z')

def isAsciiDigit (c : Char) : Bool := '0' ≤ c && c ≤ '9'

/-- The declaration at the very front of a document. -/
def declaration : Front PUnit := do
  mark "<?xml "
  blank
  mark "version"
  equals
  let version ← quotedRun fun c => c == '.' || isAsciiDigit c
  check (version.take 2 == ['1', '.'] && (version.drop 2).all isAsciiDigit)
  declarationSpace
  if ← marked "encoding" then
    equals
    let _ ← quotedRun fun c =>
      isAsciiLetter c || isAsciiDigit c || c == '.' || c == '-' || c == '_'
    declarationSpace
  if ← marked "standalone" then
    equals
    let value ← quotedRun isNameChar
    check (value == "yes".toList || value == "no".toList)
  blank
  mark "?>"

/-- A literal in quotes that may hold any character. -/
def literal : Front PUnit := do
  let q ← quote
  let _ ← run fun c => !q.toList.contains c
  mark q

/-- Where a document type is kept. -/
def externalId : Front PUnit := do
  if ← marked "SYSTEM" then
    space
    literal
  else
    mark "PUBLIC"
    space
    literal
    space
    literal

/-- What an entity stands for; only general entities can name a notation. -/
def entityDefinition (isGeneral : Bool) : Front PUnit := fun cs =>
  if cs.head? == some '"' || cs.head? == some '\'' then
    literal cs
  else
    (do
      externalId
      blank
      if isGeneral then
        if ← marked "NDATA" then
          space
          let _ ← name) cs

def entity : Front PUnit := do
  mark "<!ENTITY"
  space
  let isParameter ← marked "%"
  if isParameter then space
  let _ ← name
  space
  entityDefinition (!isParameter)
  blank
  mark ">"

/-- A declaration inside a document type of which only the end counts. -/
def otherDeclaration : Front PUnit := fun cs =>
  if ["<!ELEMENT", "<!ATTLIST", "<!NOTATION"].any (·.toList.isPrefixOf cs) then
    (do let _ ← run (· != '>'); mark ">") cs
  else none

/-- The declarations inside a document type, and its end. -/
def subset (cs : List Char) : Option (PUnit × List Char) :=
  let cs := cs.dropWhile isSpace
  if cs.head? == some ']' then (do mark "]"; blank; mark ">") cs
  else
    let piece : Front PUnit :=
      if "<!ENTITY".toList.isPrefixOf cs then entity
      else if "<!--".toList.isPrefixOf cs || "<?".toList.isPrefixOf cs then aside?
      else otherDeclaration
    match piece cs with
    | some (_, rest) => if rest.length < cs.length then subset rest else none
    | none => none
termination_by cs.length
decreasing_by
  rename_i h
  exact Nat.lt_of_lt_of_le h (Text.length_dropWhile_le _ _)

def doctype : Front PUnit := do
  mark "<!DOCTYPE"
  space
  let _ ← name
  blank
  let _ ← optional externalId
  blank
  if ← marked ">" then pure () else
    mark "["
    subset

/-- What follows the head of a document: white space, asides, and at most one document type. -/
def behindHead? (hasType : Bool) (cs : List Char) : Option (List Char) :=
  let front := cs.dropWhile isSpace
  let isType := "<!DOCTYPE".toList.isPrefixOf front
  if isType || "<!--".toList.isPrefixOf front || "<?".toList.isPrefixOf front then
    let piece : Front PUnit :=
      if isType then (do check (!hasType); doctype) else aside?
    match piece front with
    | some (_, rest) =>
      if rest.length < cs.length then behindHead? (hasType || isType) rest else none
    | none => none
  else some front
termination_by cs.length

/-! ## Elements -/

/-- An attribute behind white space. -/
def attribute? : Front Attribute := do
  let key ← qualified
  equals
  let q ← quote
  let value ← before q
  check (!value.contains '<')
  pure ⟨String.ofList key, value⟩

/-- The attributes up to the end of a tag, whether the tag is empty, and what follows it. -/
def attributes? (cs : List Char) : Option (List Attribute × Bool × List Char) :=
  match cs.dropWhile isSpace with
  | '>' :: rest => some ([], false, rest)
  | '/' :: '>' :: rest => some ([], true, rest)
  | front =>
    if cs.head?.any isSpace then
      match attribute? front with
      | some (read, rest) =>
        if rest.length < cs.length then
          (attributes? rest).map fun (more, isEmpty, left) => (read :: more, isEmpty, left)
        else none
      | none => none
    else none
termination_by cs.length

/-- A start tag or an empty tag. -/
def tag : Front Token := do
  mark "<"
  let name ← qualified
  let (attributes, isEmpty) ← fun cs =>
    (attributes? cs).map fun (attributes, isEmpty, rest) => ((attributes, isEmpty), rest)
  pure (if isEmpty then .empty (String.ofList name) attributes
    else .start (String.ofList name) attributes)

def endTag : Front Token := do
  mark "</"
  let name ← qualified
  let spaces ← run isSpace
  mark ">"
  pure (.close (String.ofList (name ++ spaces)))

def verbatimText : Front Token := do
  mark "<![CDATA["
  pure (.verbatim (← before "]]>"))

def plainText : Front Token := do
  let content ← run (· != '<')
  check (content.all isXmlChar && !Text.hasPart "]]>".toList content)
  pure (.text content)

/-- The token at the front of the content of an element. -/
def next : Front Token := fun cs =>
  match cs with
  | '<' :: '!' :: '-' :: _ => (do comment; pure Token.aside) cs
  | '<' :: '!' :: _ => verbatimText cs
  | '<' :: '?' :: _ => (do instruction; pure Token.aside) cs
  | '<' :: '/' :: _ => endTag cs
  | '<' :: _ => tag cs
  | _ => plainText cs

/-- The number of open tags behind a token. -/
def depthAfter (depth : Nat) : Token → Nat
  | .start _ _ => depth + 1
  | .close _ => depth - 1
  | _ => depth

/-- The tokens up to the end of an element. -/
def scanFrom (depth : Nat) (cs : List Char) : List Token :=
  match next cs with
  | none => []
  | some (token, rest) =>
    if token.depthAfter depth == 0 then [token]
    else if rest.length < cs.length then token :: scanFrom (token.depthAfter depth) rest
    else []
termination_by cs.length

/-- The tokens of the element in a document; a byte order mark in front is skipped. -/
def scan (text : String) : List Token :=
  let cs := match text.toList with
    | '\ufeff' :: cs => cs
    | cs => cs
  let behindDeclaration? :=
    if "<?xml ".toList.isPrefixOf cs then (declaration cs).map Prod.snd else some cs
  match behindDeclaration?.bind (behindHead? false) with
  | some cs => scanFrom 0 cs
  | none => []

end Token

/-! ## References

Documents admit more references by code point than `Xml.decodeList?` does: they may stand for any
character, with any number of leading zeros and a plus sign in front of the digits. -/

/-- The number that digits of a base stand for, behind a plus sign or not. -/
def unsigned? (digit? : Char → Option Nat) (base : Nat) (cs : List Char) : Option Nat :=
  let digits := match cs with
    | '+' :: digits => digits
    | digits => digits
  if digits.isEmpty then none else Xml.digitsValue? digit? base digits

/-- The character with a code point. -/
def charOfCode? (n : Nat) : Option Char := if n.isValidChar then some (Char.ofNat n) else none

/-- The character that a reference stands for, given what is between its marks. -/
def reference? (name : List Char) : Option Char :=
  match name with
  | '#' :: 'x' :: digits => (unsigned? Xml.hexDigit? 16 digits).bind charOfCode?
  | '#' :: digits => (unsigned? Xml.decimalDigit? 10 digits).bind charOfCode?
  | _ => Xml.named? name

/-- A text with its references resolved. -/
def decode? (cs : List Char) : Option (List Char) := Xml.resolve? reference? cs

end Cosim.Document
