/-!
# Text in bytes

How bytes that should be text are read where some of them are not: every longest piece that could
begin a character, but does not, is replaced by one mark.
-/

namespace Cosim.Text

/-- The ranges of the bytes that may follow a first byte of several, the first one included in
none. -/
def followers? (first : UInt8) : Option (List (UInt8 × UInt8)) :=
  let any : UInt8 × UInt8 := (0x80, 0xbf)
  if 0xc2 ≤ first && first ≤ 0xdf then some [any]
  else if first == 0xe0 then some [(0xa0, 0xbf), any]
  else if first == 0xed then some [(0x80, 0x9f), any]
  else if 0xe1 ≤ first && first ≤ 0xef then some [any, any]
  else if first == 0xf0 then some [(0x90, 0xbf), any, any]
  else if 0xf1 ≤ first && first ≤ 0xf3 then some [any, any, any]
  else if first == 0xf4 then some [(0x80, 0x8f), any, any]
  else none

/-- How many bytes of a text lie in ranges, up to the first one that does not. -/
def countWithin : List (UInt8 × UInt8) → List UInt8 → Nat
  | (low, high) :: ranges, b :: bytes =>
    if low ≤ b && b ≤ high then countWithin ranges bytes + 1 else 0
  | _, _ => 0

/-- The mark for what is no text. -/
def replacement : Char := '\ufffd'

/-- The code point that a first byte and the bytes behind it stand for. -/
def codePoint (first : UInt8) (more : List UInt8) : Nat :=
  let bits := first.toNat % Nat.pow 2 (6 - more.length)
  more.foldl (fun n b => 64 * n + b.toNat % 64) bits

/-- Reads bytes as text. -/
def decodeBytes (bytes : List UInt8) : List Char :=
  match bytes with
  | [] => []
  | first :: more =>
    if first < 0x80 then Char.ofNat first.toNat :: decodeBytes more
    else match followers? first with
      | none => replacement :: decodeBytes more
      | some ranges =>
        let n := countWithin ranges more
        let c := if n == ranges.length then Char.ofNat (codePoint first (more.take n))
          else replacement
        c :: decodeBytes (more.drop n)
termination_by bytes.length
decreasing_by
  all_goals simp only [List.length_cons, List.length_drop]
  all_goals omega

end Cosim.Text
