/-!
# Deflated data

Deflated data is a sequence of blocks of bits, the low bit of each byte first.  A block is stored as
it is, or its bytes are written in a prefix code, in which a code word may also stand for a copy of
bytes that came before.  `Deflate.inflate?` gives the bytes that deflated data stands for.
-/

namespace Cosim.Deflate

/-! ## Bits -/

/-- Data and how many of its bits have been read. -/
structure Bits where
  data : ByteArray
  position : Nat

namespace Bits

def bit? (b : Bits) : Option (Nat × Bits) :=
  match b.data[b.position / 8]? with
  | some byte =>
    some (byte.toNat / Nat.pow 2 (b.position % 8) % 2, { b with position := b.position + 1 })
  | none => none

/-- A number of so many bits, the low one first. -/
def number? : Nat → Bits → Option (Nat × Bits)
  | 0, b => some (0, b)
  | n + 1, b => do
    let (low, b) ← b.bit?
    let (high, b) ← number? n b
    pure (low + 2 * high, b)

/-- The bits from the next whole byte on. -/
def align (b : Bits) : Bits := { b with position := (b.position + 7) / 8 * 8 }

end Bits

/-! ## Prefix codes -/

/-- A prefix code in which the words of each length are consecutive numbers: how many words there
are of each length from one on, and the symbols in the order of their words. -/
structure Code where
  counts : List Nat
  symbols : Array Nat

namespace Code

/-- The code in which the symbols have words of the given lengths; zero stands for no word. -/
def ofLengths (lengths : List Nat) : Code :=
  let numbered := lengths.zipIdx
  let ofLength (n : Nat) : List Nat := numbered.filterMap fun (l, symbol) =>
    if l == n then some symbol else none
  let groups := (List.range 15).map fun n => ofLength (n + 1)
  ⟨groups.map List.length, groups.flatten.toArray⟩

/-- Reads a word, given the counts of the lengths that are left, the number that the bits so far
form, the number of the first word of their length, and how many shorter words there are. -/
def read? (symbols : Array Nat) : List Nat → (word first shorter : Nat) → Bits →
    Option (Nat × Bits)
  | [], _, _, _, _ => none
  | count :: counts, word, first, shorter, b => do
    let (low, b) ← b.bit?
    let word := 2 * word + low
    let first := 2 * first
    if word < first + count then
      let symbol ← symbols[shorter + (word - first)]?
      pure (symbol, b)
    else read? symbols counts word (first + count) (shorter + count) b

/-- The symbol of the next word. -/
def symbol? (c : Code) (b : Bits) : Option (Nat × Bits) := read? c.symbols c.counts 0 0 0 b

end Code

/-! ## Blocks -/

/-- The least length of a copy under each symbol, and how many bits are added to it. -/
def copyLengths : List (Nat × Nat) := [
  (3, 0), (4, 0), (5, 0), (6, 0), (7, 0), (8, 0), (9, 0), (10, 0), (11, 1), (13, 1), (15, 1),
  (17, 1), (19, 2), (23, 2), (27, 2), (31, 2), (35, 3), (43, 3), (51, 3), (59, 3), (67, 4),
  (83, 4), (99, 4), (115, 4), (131, 5), (163, 5), (195, 5), (227, 5), (258, 0)]

/-- The least distance of a copy under each symbol, and how many bits are added to it. -/
def copyDistances : List (Nat × Nat) := [
  (1, 0), (2, 0), (3, 0), (4, 0), (5, 1), (7, 1), (9, 2), (13, 2), (17, 3), (25, 3), (33, 4),
  (49, 4), (65, 5), (97, 5), (129, 6), (193, 6), (257, 7), (385, 7), (513, 8), (769, 8),
  (1025, 9), (1537, 9), (2049, 10), (3073, 10), (4097, 11), (6145, 11), (8193, 12), (12289, 12),
  (16385, 13), (24577, 13)]

/-- A number in one of the two tables. -/
def tableNumber? (table : List (Nat × Nat)) (symbol : Nat) (b : Bits) : Option (Nat × Bits) := do
  let (least, bits) ← table[symbol]?
  let (added, b) ← Bits.number? bits b
  pure (least + added, b)

/-- Repeats bytes from a distance behind the end. -/
def copy (distance : Nat) : Nat → ByteArray → ByteArray
  | 0, out => out
  | n + 1, out => copy distance n (out.push ((out[out.size - distance]?).getD 0))

/-- Why reading stops before the last block is complete. -/
inductive Stop where
  /-- there are no more bits -/
  | ended
  | malformed
deriving DecidableEq

/-- The bytes that have been read, and where to go on or why that is impossible. -/
abbrev Reading := ByteArray × Except Stop Bits

/-- Why a word cannot be read: the data has ended within it, or there is no such word.  A word takes
at most 48 bits together with the copy that it stands for. -/
def stopAt (b : Bits) : Stop := if 8 * b.data.size < b.position + 48 then .ended else .malformed

/-- Reads a copy, given the symbol of its length. -/
def copyAt? (distances : Code) (symbol : Nat) (b : Bits) : Option ((Nat × Nat) × Bits) := do
  let (length, b) ← tableNumber? copyLengths (symbol - 257) b
  let (word, b) ← distances.symbol? b
  let (distance, b) ← tableNumber? copyDistances word b
  pure ((length, distance), b)

/-- Reads the words of a block.  The fuel is the number of bits, of which each word has one. -/
def words (literals distances : Code) : Nat → ByteArray → Bits → Reading
  | 0, out, _ => (out, .error .ended)
  | fuel + 1, out, b =>
    match literals.symbol? b with
    | none => (out, .error (stopAt b))
    | some (symbol, next) =>
      if symbol < 256 then words literals distances fuel (out.push symbol.toUInt8) next
      else if symbol == 256 then (out, .ok next)
      else match copyAt? distances symbol next with
        | none => (out, .error (stopAt b))
        | some ((length, distance), next) =>
          if out.size < distance then (out, .error .malformed)
          else words literals distances fuel (copy distance length out) next

/-- The codes of a block that does not say its own. -/
def fixedCodes : Code × Code :=
  (.ofLengths (List.replicate 144 8 ++ List.replicate 112 9 ++ List.replicate 24 7 ++
      List.replicate 8 8), .ofLengths (List.replicate 30 5))

/-- The order in which the lengths of the words for lengths are given. -/
def lengthOrder : List Nat := [16, 17, 18, 0, 8, 7, 9, 6, 10, 5, 11, 4, 12, 3, 13, 2, 14, 1, 15]

/-- Reads so many lengths of words, which come in reverse.  A symbol may stand for repetitions. -/
def lengths? (code : Code) (count : Nat) : Nat → List Nat → Bits → Option (List Nat × Bits)
  | 0, _, _ => none
  | fuel + 1, reversed, b =>
    if count ≤ reversed.length then some (reversed.reverse.take count, b)
    else do
      let (symbol, b) ← code.symbol? b
      if symbol < 16 then lengths? code count fuel (symbol :: reversed) b
      else
        let (repeated, least, bits) := match symbol with
          | 16 => (reversed.headD 0, 3, 2)
          | 17 => (0, 3, 3)
          | _ => (0, 11, 7)
        let (added, b) ← Bits.number? bits b
        lengths? code count fuel (List.replicate (least + added) repeated ++ reversed) b

/-- Reads so many numbers of three bits. -/
def triples? : Nat → Bits → Option (List Nat × Bits)
  | 0, b => some ([], b)
  | n + 1, b => do
    let (x, b) ← Bits.number? 3 b
    let (xs, b) ← triples? n b
    pure (x :: xs, b)

/-- Reads the codes of a block that says its own. -/
def ownCodes? (b : Bits) : Option ((Code × Code) × Bits) := do
  let (moreLiterals, b) ← Bits.number? 5 b
  let (moreDistances, b) ← Bits.number? 5 b
  let (moreLengths, b) ← Bits.number? 4 b
  let (given, b) ← triples? (moreLengths + 4) b
  let pairs := lengthOrder.zip given
  let code := Code.ofLengths ((List.range 19).map fun symbol => (pairs.lookup symbol).getD 0)
  let literals := moreLiterals + 257
  let (lengths, b) ← lengths? code (literals + moreDistances + 1) 400 [] b
  pure ((.ofLengths (lengths.take literals), .ofLengths (lengths.drop literals)), b)

/-- Reads a block that is stored as it is: its size is given twice, once with all bits flipped. -/
def stored (out : ByteArray) (b : Bits) : Reading :=
  let b := b.align
  match (do
    let (size, b) ← Bits.number? 16 b
    let (flipped, b) ← Bits.number? 16 b
    pure ((size, flipped), b)) with
  | none => (out, .error .ended)
  | some ((size, flipped), b) =>
    let start := b.position / 8
    if size + flipped != 65535 then (out, .error .malformed)
    else
      let read := out ++ b.data.extract start (start + size)
      if b.data.size < start + size then (read, .error .ended)
      else (read, .ok { b with position := 8 * (start + size) })

/-- Reads a block of a kind. -/
def block (kind : Nat) (out : ByteArray) (b : Bits) : Reading :=
  let bits := 8 * b.data.size
  match kind with
  | 0 => stored out b
  | 1 => words fixedCodes.1 fixedCodes.2 bits out b
  | 2 =>
    match ownCodes? b with
    | some (codes, b) => words codes.1 codes.2 bits out b
    | none => (out, .error (stopAt b))
  | _ => (out, .error .malformed)

/-- Reads blocks up to the last one.  The fuel is the number of bits. -/
def blocks : Nat → ByteArray → Bits → Reading
  | 0, out, _ => (out, .error .ended)
  | fuel + 1, out, b =>
    match (do
      let (last, b) ← b.bit?
      let (kind, b) ← Bits.number? 2 b
      pure ((last, kind), b)) with
    | none => (out, .error .ended)
    | some ((last, kind), b) =>
      match block kind out b with
      | (out, .ok b) => if last == 1 then (out, .ok b) else blocks fuel out b
      | stopped => stopped

/-- The bytes that deflated data stands for, as far as the data goes. -/
def inflate? (data : ByteArray) : Option ByteArray :=
  match blocks (8 * data.size + 1) .empty ⟨data, 0⟩ with
  | (_, .error .malformed) => none
  | (out, _) => some out

end Cosim.Deflate
