import Cosim.Archive.Entry
import Cosim.Entries
import Cosim.Text.Utf8

/-!
# Archives as bytes

An archive file holds its entries one after another, each behind a header, and a directory of them
at the end.  Other bytes may stand in front of the archive and behind it.
-/

namespace Cosim.Zip

/-! ## Names of entries

The bytes of a name are text, or characters of code page 437, in which each byte is a character. -/

/-- The characters of code page 437 under the bytes from 128 on. -/
def codePage : List Char := String.toList (
  "ÇüéâäàåçêëèïîìÄÅÉæÆôöòûùÿÖÜ¢£¥₧ƒ" ++
  "áíóúñÑªº¿⌐¬½¼¡«»░▒▓│┤╡╢╖╕╣║╗╝╜╛┐" ++
  "└┴┬├─┼╞╟╚╔╩╦╠═╬╧╨╤╥╙╘╒╓╫╪┘┌█▄▌▐▀" ++
  "αßΓπΣσµτΦΘΩδ∞φε∩≡±≥≤⌠⌡÷≈°∙·√ⁿ²■\u00a0")

/-- The character under a byte. -/
def codePageChar (b : UInt8) : Char :=
  if b < 0x80 then Char.ofNat b.toNat else codePage.getD (b.toNat - 0x80) Text.replacement

/-- The name that bytes stand for, given whether they are declared to be text. -/
def entryName (isText : Bool) (bytes : List UInt8) : String :=
  String.ofList (if isText then Text.decodeBytes bytes else bytes.map codePageChar)

/-! ## Numbers -/

/-- The number that so many bytes from an offset on form, the low one first. -/
def number (data : ByteArray) (offset : Nat) : Nat → Nat
  | 0 => 0
  | n + 1 => ((data[offset]?).getD 0).toNat + 256 * number data (offset + 1) n

/-- A number in so many bytes, the low one first. -/
def bytes : Nat → Nat → List UInt8
  | 0, _ => []
  | width + 1, n => n.toUInt8 :: bytes width (n / 256)

/-- Numbers in fields of given widths. -/
def fields (values : List (Nat × Nat)) : ByteArray :=
  ⟨(values.flatMap fun (width, n) => bytes width n).toArray⟩

/-! ## Reading -/

/-- The marks of a header, of a line of the directory and of the end of the directory. -/
def headerMark : Nat := 0x04034b50

def lineMark : Nat := 0x02014b50

def endMark : Nat := 0x06054b50

/-- Whether a mark stands at an offset. -/
def isAt (mark : Nat) (data : ByteArray) (offset : Nat) : Bool :=
  offset + 4 ≤ data.size && number data offset 4 == mark

/-- The packed data of an entry, given the offset of its header and its packed size.  Data that the
file is too short for is cut off. -/
def packedAt? (data : ByteArray) (header size : Nat) : Option ByteArray :=
  if data.size < header + 30 || !isAt headerMark data header then none
  else
    let start := header + 30 + number data (header + 26) 2 + number data (header + 28) 2
    some (data.extract start (start + size))

/-- The method that stands for a cipher, which no entry can be read with. -/
def cipherMethod : Nat := 99

/-- The entries of so many lines of the directory from an offset on, given by how much all other
offsets are too small. -/
def lines? (data : ByteArray) (shift offset : Nat) : Nat → Option Archive.Listing
  | 0 => some []
  | n + 1 =>
    let nameSize := number data (offset + 28) 2
    let next := offset + 46 + nameSize + number data (offset + 30) 2 + number data (offset + 32) 2
    let flags := number data (offset + 8) 2
    let method := number data (offset + 10) 2
    if data.size < next || !isAt lineMark data offset || method == cipherMethod then none
    else do
      let name := entryName (flags / 2048 % 2 == 1)
        (data.extract (offset + 46) (offset + 46 + nameSize)).toList
      let entry : Archive.Entry := {
        packing := .ofMethod method
        checksum := (number data (offset + 16) 4).toUInt32
        size := number data (offset + 24) 4
        packed := packedAt? data (shift + number data (offset + 42) 4) (number data (offset + 20) 4)
        locked := flags % 2 == 1 }
      pure ((name, entry) :: (← lines? data shift next n))

/-- The first offset in a part of the data at which a mark stands. -/
def firstMark? (mark : Nat) (data : ByteArray) (offset : Nat) : Nat → Option Nat
  | 0 => none
  | n + 1 => if isAt mark data offset then some offset else firstMark? mark data (offset + 1) n

/-- The entries of the directory whose end stands at an offset.  What stands in front of the archive
shifts all its offsets. -/
def directory? (data : ByteArray) (last : Nat) : Option Archive.Listing := do
  let count := number data (last + 8) 2
  let offset := number data (last + 16) 4
  if data.size < last + 22 + number data (last + 20) 2 then none
  else if number data (last + 4) 2 != number data (last + 6) 2 then none
  else if count == 0 then some []
  else
    let first ← firstMark? lineMark data offset (last - offset - 3)
    lines? data (first - offset) first count

/-- The entries of the last directory that can be read and ends before an offset. -/
def lastDirectory? (data : ByteArray) : Nat → Option Archive.Listing
  | 0 => none
  | offset + 1 =>
    let found := if isAt endMark data offset && offset + 22 ≤ data.size then directory? data offset
      else none
    match found with
    | some entries => some entries
    | none => lastDirectory? data offset

/-- The entries of the archive that some bytes are; of several entries with one name the last one
counts, in the place of the first. -/
def read? (data : ByteArray) : Option Archive.Listing :=
  (lastDirectory? data data.size).map Entries.ofPairs

/-! ## Writing -/

/-- What the header of an entry and its line in the directory share: version, flags, method, time,
date, checksum, sizes, and the lengths of the name and of an extra field. -/
def summary (name packed : ByteArray) (e : Archive.Entry) : List (Nat × Nat) :=
  [(2, 20), (2, 2048), (2, e.packing.method), (2, 0), (2, 33), (4, e.checksum.toNat),
    (4, packed.size), (4, e.size), (2, name.size), (2, 0)]

/-- The entries behind their headers, and the directory of them. -/
def layOut (out directory : ByteArray) : Archive.Listing → ByteArray × ByteArray
  | [] => (out, directory)
  | (name, e) :: entries =>
    let nameBytes := name.toUTF8
    let packed := e.packed.getD .empty
    let shared := summary nameBytes packed e
    let line := fields ([(4, lineMark), (2, 20)] ++ shared ++
      [(2, 0), (2, 0), (2, 0), (4, 0), (4, out.size)]) ++ nameBytes
    let record := fields ((4, headerMark) :: shared) ++ nameBytes ++ packed
    layOut (out ++ record) (directory ++ line) entries

/-- The bytes of an archive. -/
def write (entries : Archive.Listing) : ByteArray :=
  let (out, directory) := layOut .empty .empty entries
  out ++ directory ++ fields [(4, endMark), (2, 0), (2, 0), (2, entries.length),
    (2, entries.length), (4, directory.size), (4, out.size), (2, 0)]

end Cosim.Zip
