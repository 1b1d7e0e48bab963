import Cosim.Json.Number

/-!
# Reading JSON

`Json.document?` reads a text that holds one JSON value and nothing else but white space.  Lists
and objects may be nested up to a depth of 127.  Of several entries with one key the last one
counts, in the place of the first.
-/

namespace Cosim.Json

/-- The white space of JSON. -/
def isSpace (c : Char) : Bool := c == ' ' || c == '\t' || c == '\r' || c == '\n'

def skip (cs : List Char) : List Char := cs.dropWhile isSpace

/-- The greatest depth of nested lists and objects. -/
def maxDepth : Nat := 127

/-! ## Strings -/

private def hexDigit? (c : Char) : Option Nat :=
  if '0' ≤ c ∧ c ≤ '9' then some (c.toNat - '0'.toNat)
  else if 'a' ≤ c ∧ c ≤ 'f' then some (c.toNat - 'a'.toNat + 10)
  else if 'A' ≤ c ∧ c ≤ 'F' then some (c.toNat - 'A'.toNat + 10)
  else none

/-- The unit of sixteen bits that four hexadecimal digits stand for. -/
private def hexUnit? (a b c d : Char) : Option Nat := do
  pure (((← hexDigit? a) * 16 + (← hexDigit? b)) * 256 + (← hexDigit? c) * 16 + (← hexDigit? d))

/-- The characters of a string up to its closing quote, and what follows the quote.  Control
characters must be escaped, and two escaped surrogates stand for one character. -/
def stringBody? : List Char → Option (List Char × List Char)
  | [] => none
  | '"' :: cs => some ([], cs)
  | '\\' :: 'u' :: a :: b :: c :: d :: '\\' :: 'u' :: e :: f :: g :: h :: cs => do
    let unit ← hexUnit? a b c d
    if 0xd800 ≤ unit && unit < 0xdc00 then
      let low ← hexUnit? e f g h
      if 0xdc00 ≤ low && low < 0xe000 then
        let (rest, left) ← stringBody? cs
        pure (Char.ofNat (0x10000 + (unit - 0xd800) * 0x400 + (low - 0xdc00)) :: rest, left)
      else none
    else if 0xdc00 ≤ unit && unit < 0xe000 then none
    else
      let (rest, left) ← stringBody? ('\\' :: 'u' :: e :: f :: g :: h :: cs)
      pure (Char.ofNat unit :: rest, left)
  | '\\' :: 'u' :: a :: b :: c :: d :: cs => do
    let unit ← hexUnit? a b c d
    if 0xd800 ≤ unit && unit < 0xe000 then none
    else
      let (rest, left) ← stringBody? cs
      pure (Char.ofNat unit :: rest, left)
  | '\\' :: c :: cs => do
    let plain ← match c with
      | '"' => some '"'
      | '\\' => some '\\'
      | '/' => some '/'
      | 'b' => some '\x08'
      | 'f' => some '\x0c'
      | 'n' => some '\n'
      | 'r' => some '\r'
      | 't' => some '\t'
      | _ => none
    let (rest, left) ← stringBody? cs
    pure (plain :: rest, left)
  | c :: cs =>
    if c.toNat < 0x20 then none else do
      let (rest, left) ← stringBody? cs
      pure (c :: rest, left)

/-! ## Values -/

/-- A literal name and its value. -/
private def names : List (List Char × Value) :=
  [("null".toList, .null), ("true".toList, .bool true), ("false".toList, .bool false)]

/-- A value that is neither a list nor an object. -/
private def scalar? (cs : List Char) : Option (Value × List Char) :=
  match cs with
  | '"' :: body => (stringBody? body).map fun (s, rest) => (.text (String.ofList s), rest)
  | _ =>
    match names.find? fun (name, _) => name.isPrefixOf cs with
    | some (name, v) => some (v, cs.drop name.length)
    | none => (number? cs).map fun (n, rest) => (.number n, rest)

/-- A key and the colon behind it. -/
private def key? (cs : List Char) : Option (String × List Char) :=
  match skip cs with
  | '"' :: body => do
    let (key, rest) ← stringBody? body
    match skip rest with
    | ':' :: left => some (String.ofList key, left)
    | _ => none
  | _ => none

mutual

/-- A value after white space.  The first argument bounds the steps of reading, and the second one
the depth that is left. -/
private def value? : Nat → Nat → List Char → Option (Value × List Char)
  | 0, _, _ => none
  | steps + 1, depth, cs =>
    match skip cs with
    | '[' :: body =>
      if depth == 0 then none else
        match skip body with
        | ']' :: rest => some (.list [], rest)
        | _ => (items? steps (depth - 1) body).map fun (vs, rest) => (.list vs, rest)
    | '{' :: body =>
      if depth == 0 then none else
        match skip body with
        | '}' :: rest => some (.object [], rest)
        | _ =>
          (entries? steps (depth - 1) body).map fun (es, rest) =>
            (.object (Entries.ofPairs es), rest)
    | cs => scalar? cs

/-- Values between commas, up to the closing bracket. -/
private def items? : Nat → Nat → List Char → Option (List Value × List Char)
  | 0, _, _ => none
  | steps + 1, depth, cs => do
    let (v, rest) ← value? steps depth cs
    match skip rest with
    | ',' :: more =>
      let (vs, left) ← items? steps depth more
      pure (v :: vs, left)
    | ']' :: left => pure ([v], left)
    | _ => none

/-- Entries between commas, up to the closing brace. -/
private def entries? : Nat → Nat → List Char → Option (List (String × Value) × List Char)
  | 0, _, _ => none
  | steps + 1, depth, cs => do
    let (key, afterKey) ← key? cs
    let (v, rest) ← value? steps depth afterKey
    match skip rest with
    | ',' :: more =>
      let (es, left) ← entries? steps depth more
      pure ((key, v) :: es, left)
    | '}' :: left => pure ([(key, v)], left)
    | _ => none

end

/-- The value that a whole text holds.  Every step of reading takes a character or returns at
once, so twice the length of the text bounds the steps. -/
def document? (text : String) : Option Value :=
  let cs := text.toList
  match value? (2 * cs.length + 2) maxDepth cs with
  | some (v, rest) => if (skip rest).isEmpty then some v else none
  | none => none

end Cosim.Json
