import Cosim.Archive.Deflate
import Cosim.Failure

/-!
# Entries of archives

An entry holds data, packed or as it is, and the checksum of the data.  Whether the data can be
unpacked, and is what the checksum says, shows only when it is read: an archive with a damaged entry
can still be listed and edited.
-/

namespace Cosim.Archive

/-! ## Checksums -/

/-- Eight steps of the division that the checksum of 32 bits comes from. -/
def checksumSteps (c : UInt32) : Nat → UInt32
  | 0 => c
  | n + 1 => checksumSteps (if c &&& 1 == 1 then (c >>> 1) ^^^ 0xedb88320 else c >>> 1) n

/-- The checksum of data. -/
def checksum (data : ByteArray) : UInt32 :=
  (data.foldl (fun c b => checksumSteps (c ^^^ b.toUInt32) 8) 0xffffffff) ^^^ 0xffffffff

/-! ## Entries -/

/-- Bytes are the same if their arrays are. -/
instance instDecidableEqBytes : DecidableEq ByteArray := ByteArray.instDecidableEq

/-- How the data of an entry is packed. -/
inductive Packing where
  | stored
  | deflated
  | unknown (method : Nat)
deriving DecidableEq

namespace Packing

def ofMethod : Nat → Packing
  | 0 => .stored
  | 8 => .deflated
  | n => .unknown n

def method : Packing → Nat
  | .stored => 0
  | .deflated => 8
  | .unknown n => n

end Packing

structure Entry where
  packing : Packing
  checksum : UInt32
  /-- the size of the data before packing -/
  size : Nat
  /-- the packed data; there is none where the archive leads to no entry -/
  packed : Option ByteArray
  /-- whether reading takes a password -/
  locked : Bool
deriving DecidableEq

namespace Entry

/-- An entry that holds data as it is. -/
def ofData (data : ByteArray) : Entry := ⟨.stored, Archive.checksum data, data.size, data, false⟩

def ofText (s : String) : Entry := ofData s.toUTF8

/-- The data before packing, whatever its checksum. -/
def unpack (e : Entry) : Except Failure ByteArray :=
  match e.packed, e.packing with
  | none, _ => .error .archiveFormat
  | some packed, .stored => .ok packed
  | some packed, .deflated =>
    match Deflate.inflate? packed with
    | some data => .ok data
    | none => .error .file
  | some _, .unknown _ => .error .archiveFormat

/-- The data of an entry. -/
def read (e : Entry) : Except Failure ByteArray :=
  if e.locked then .error .archiveFormat
  else do
    let data ← e.unpack
    if Archive.checksum data == e.checksum then .ok data else .error .file

end Entry

/-- The entries of an archive in order. -/
abbrev Listing := List (String × Entry)

end Cosim.Archive
