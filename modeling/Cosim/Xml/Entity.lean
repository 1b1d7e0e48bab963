import Cosim.Text.Rest

/-!
# Character references

Five characters of a text have names that stand for them in XML.  `Xml.encode` writes all five by
name; `Xml.decodeList?` resolves these names and the references by code point, and refuses an
ampersand that starts neither.
-/

namespace Cosim.Xml

open Text (Rest)

/-- A character as it is written in texts and attributes. -/
def encodeChar (c : Char) : List Char :=
  match c with
  | '<' => "&lt;".toList
  | '>' => "&gt;".toList
  | '&' => "&amp;".toList
  | '\'' => "&apos;".toList
  | '"' => "&quot;".toList
  | c => [c]

def encode (s : String) : String := String.ofList (s.toList.flatMap encodeChar)

/-- The value of a hexadecimal digit. -/
def hexDigit? (c : Char) : Option Nat :=
  if '0' ≤ c ∧ c ≤ '9' then some (c.toNat - '0'.toNat)
  else if 'a' ≤ c ∧ c ≤ 'f' then some (c.toNat - 'a'.toNat + 10)
  else if 'A' ≤ c ∧ c ≤ 'F' then some (c.toNat - 'A'.toNat + 10)
  else none

/-- The value of a decimal digit. -/
def decimalDigit? (c : Char) : Option Nat :=
  if '0' ≤ c ∧ c ≤ '9' then some (c.toNat - '0'.toNat) else none

/-- The number that digits of a base stand for. -/
def digitsValue? (digit? : Char → Option Nat) (base : Nat) (cs : List Char) : Option Nat :=
  cs.foldlM (fun n c => (digit? c).map (base * n + ·)) 0

/-- The character with a code point other than zero. -/
def charOfCode? (n : Nat) : Option Char :=
  if n == 0 then none else if n.isValidChar then some (Char.ofNat n) else none

/-- The character that a name stands for. -/
def named? (name : List Char) : Option Char :=
  if name == "lt".toList then some '<'
  else if name == "gt".toList then some '>'
  else if name == "amp".toList then some '&'
  else if name == "apos".toList then some '\''
  else if name == "quot".toList then some '"'
  else none

/-- The character that a reference stands for, given what is between its marks. -/
def reference? (name : List Char) : Option Char :=
  match name with
  | '#' :: 'x' :: digits =>
    if 6 < digits.length then none else (digitsValue? hexDigit? 16 digits).bind charOfCode?
  | '#' :: digits =>
    if 7 < digits.length then none else (digitsValue? decimalDigit? 10 digits).bind charOfCode?
  | _ => named? name

/-- Resolves the references in a text, given the character that each stands for. -/
def resolve? (reference? : List Char → Option Char) (cs : List Char) : Option (List Char) :=
  match cs with
  | [] => some []
  | '&' :: body =>
    match Text.before? (· == ';') body with
    | some (name, rest) => do
      let c ← reference? name
      let more ← resolve? reference? rest.val
      pure (c :: more)
    | none => none
  | c :: body => (resolve? reference? body).map (c :: ·)
termination_by cs.length
decreasing_by
  · exact Nat.lt_trans rest.property (by simp)
  · simp

/-- A text with its references resolved. -/
def decodeList? (cs : List Char) : Option (List Char) := resolve? reference? cs

end Cosim.Xml
