import Cosim.Text.Utf8

/-!
# Bytes as characters

A script handles bytes, whatever they stand for: a character beyond ASCII counts as several.  Inside
of scripts a text therefore has a character for each byte.  `Script.ofText` spreads a text so, and
`Script.toText` joins it again.
-/

namespace Cosim.Script

/-- Bytes, each as a character. -/
def ofData (data : ByteArray) : String :=
  String.ofList (data.toList.map fun b => Char.ofNat b.toNat)

/-- The bytes that characters stand for. -/
def toData (s : String) : ByteArray := ⟨(s.toList.map fun c => c.toNat.toUInt8).toArray⟩

/-- A text, byte by byte. -/
def ofText (s : String) : String := ofData s.toUTF8

/-- The text that bytes stand for. -/
def toText (s : String) : String :=
  let data := toData s
  (String.fromUTF8? data).getD (String.ofList (Text.decodeBytes data.toList))

end Cosim.Script
