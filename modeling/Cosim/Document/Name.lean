import Cosim.Text.Class
import Cosim.Text.Rest

/-!
# Names in documents

The characters that XML admits, and the names of tags and attributes.  A qualified name may have
one colon, with a name on either side or nothing in front of it.
-/

namespace Cosim.Document

open Text (Rest Left inRanges)

/-- The characters of XML: control characters other than tab, line feed and carriage return are
none, and neither are the last two code points of the first plane. -/
def isXmlChar (c : Char) : Bool :=
  if c.toNat < 0x20 then c == '\t' || c == '\n' || c == '\r'
  else c.toNat != 0xfffe && c.toNat != 0xffff

/-- The characters that start a name, colon included. -/
def isNameStart (c : Char) : Bool :=
  inRanges [(0x3a, 0x3a), (0x41, 0x5a), (0x5f, 0x5f), (0x61, 0x7a), (0xc0, 0xd6), (0xd8, 0xf6),
    (0xf8, 0x2ff), (0x370, 0x37d), (0x37f, 0x1fff), (0x200c, 0x200d), (0x2070, 0x218f),
    (0x2c00, 0x2fef), (0x3001, 0xd7ff), (0xf900, 0xfdcf), (0xfdf0, 0xfffd), (0x10000, 0xeffff)] c

/-- The characters of a name. -/
def isNameChar (c : Char) : Bool :=
  isNameStart c ||
    inRanges [(0x2d, 0x2e), (0x30, 0x39), (0xb7, 0xb7), (0x300, 0x36f), (0x203f, 0x2040)] c

/-- A name at the front of a text, colons included, and what follows it. -/
def name? (cs : List Char) : Option (List Char × Rest cs) :=
  match cs with
  | [] => none
  | c :: cs =>
    if isNameStart c then
      some (c :: cs.takeWhile isNameChar, (Left.dropWhile isNameChar cs).cons c)
    else none

/-- Whether name characters form a qualified name. -/
def isQualified (name : List Char) : Bool :=
  match name.splitOn ':' with
  | [part] => starts part
  | [front, part] => (front.isEmpty || starts front) && starts part
  | _ => false
where
  starts (part : List Char) : Bool := part.head?.any isNameStart

/-- A qualified name at the front of a text and what follows it. -/
def qualified? (cs : List Char) : Option (List Char × Rest cs) :=
  match cs with
  | [] => none
  | c :: cs =>
    let name := c :: cs.takeWhile isNameChar
    if isNameChar c && isQualified name then some (name, (Left.dropWhile isNameChar cs).cons c)
    else none

end Cosim.Document
