/-!
# Patterns of scripts

A pattern stands for texts: a star for any text, a question mark for any character, and characters
in brackets for one of them.  A quoted character stands for itself.
-/

namespace Cosim.Script

/-- A character of a word, and whether quotes have taken its meaning from it. -/
structure Mark where
  char : Char
  quoted : Bool
deriving DecidableEq

namespace Mark

def plain (c : Char) : Mark := ⟨c, false⟩

/-- Whether a mark is a character with its meaning. -/
def means (m : Mark) (c : Char) : Bool := m.char == c && !m.quoted

end Mark

/-- What stands at one place of a pattern. -/
inductive Place where
  | one (c : Char)
  | any
  | star
  | among (negated : Bool) (ranges : List (Char × Char))
deriving DecidableEq

abbrev Pattern := List Place

namespace Pattern

/-- The characters of a named class. -/
def classRanges : String → List (Char × Char)
  | "alpha" => [('a', 'z'), ('A', 'Z')]
  | "digit" => [('0', '9')]
  | "alnum" => [('a', 'z'), ('A', 'Z'), ('0', '9')]
  | "upper" => [('A', 'Z')]
  | "lower" => [('a', 'z')]
  | "space" => [('\t', '\r'), (' ', ' ')]
  | "blank" => [('\t', '\t'), (' ', ' ')]
  | "punct" => [('!', '/'), (':', '@'), ('[', '\x60'), ('\x7b', '~')]
  | "print" => [(' ', '~')]
  | "graph" => [('!', '~')]
  | "cntrl" => [('\x00', '\x1f'), ('\x7f', '\x7f')]
  | "xdigit" => [('0', '9'), ('a', 'f'), ('A', 'F')]
  | _ => []

/-- The class whose name in colons stands in front, and what is left behind its bracket. -/
def namedClass? (ms : List Mark) : Option (List (Char × Char) × List Mark) :=
  match ms with
  | m :: rest =>
    if m.means ':' then
      let name := rest.takeWhile fun m => m.char.isAlpha
      match rest.drop name.length with
      | a :: b :: rest =>
        if a.means ':' && b.means ']' then
          some (classRanges (String.ofList (name.map Mark.char)), rest)
        else none
      | _ => none
    else none
  | [] => none

/-- The ranges between brackets, and what is left behind the closing one.  A bracket that stands
first does not close.  The fuel is the number of marks. -/
def ranges? : Nat → Bool → List Mark → Option (List (Char × Char) × List Mark)
  | 0, _, _ => none
  | _, _, [] => none
  | fuel + 1, isFirst, m :: rest =>
    if m.means ']' && !isFirst then some ([], rest)
    else
      match (if m.means '[' then namedClass? rest else none) with
      | some (ranges, rest) =>
        (ranges? fuel false rest).map fun (more, rest) => (ranges ++ more, rest)
      | none =>
        match rest with
        | dash :: high :: rest' =>
          if dash.means '-' && !high.means ']' then
            (ranges? fuel false rest').map fun (more, rest) => ((m.char, high.char) :: more, rest)
          else (ranges? fuel false rest).map fun (more, rest) => ((m.char, m.char) :: more, rest)
        | _ => (ranges? fuel false rest).map fun (more, rest) => ((m.char, m.char) :: more, rest)

/-- The set between brackets, and what is left.  An exclamation mark negates it. -/
def among? (ms : List Mark) : Option (Place × List Mark) :=
  match ms with
  | m :: rest =>
    if m.means '!' then
      (ranges? ms.length true rest).map fun (ranges, rest) => (.among true ranges, rest)
    else (ranges? ms.length true ms).map fun (ranges, rest) => (.among false ranges, rest)
  | [] => none

/-- The pattern of marks.  The fuel is the number of marks. -/
def ofMarksFuel : Nat → List Mark → Pattern
  | 0, _ => []
  | _, [] => []
  | fuel + 1, m :: rest =>
    if m.means '*' then .star :: ofMarksFuel fuel rest
    else if m.means '?' then .any :: ofMarksFuel fuel rest
    else
      match (if m.means '[' then among? rest else none) with
      | some (place, rest) => place :: ofMarksFuel fuel rest
      | none => .one m.char :: ofMarksFuel fuel rest

def ofMarks (ms : List Mark) : Pattern := ofMarksFuel ms.length ms

/-- Whether a text fits a pattern. -/
def fits : Pattern → List Char → Bool
  | [], s => s.isEmpty
  | .star :: pattern, s => (List.range (s.length + 1)).any fun n => fits pattern (s.drop n)
  | .any :: pattern, _ :: s => fits pattern s
  | .one p :: pattern, c :: s => p == c && fits pattern s
  | .among negated ranges :: pattern, c :: s =>
    (ranges.any fun (low, high) => low ≤ c && c ≤ high) != negated && fits pattern s
  | _ :: _, [] => false

end Pattern

/-- At which end of a value something is cut off, and whether as much as possible. -/
structure Cut where
  atEnd : Bool
  longest : Bool
deriving DecidableEq

/-- A value without the part at one end that fits a pattern. -/
def Cut.apply (cut : Cut) (pattern : Pattern) (s : List Char) : List Char :=
  let lengths := List.range (s.length + 1)
  let ordered := if cut.atEnd == cut.longest then lengths else lengths.reverse
  let fitting := ordered.find? fun n =>
    pattern.fits (if cut.atEnd then s.drop n else s.take n)
  match fitting with
  | some n => if cut.atEnd then s.take n else s.drop n
  | none => s

end Cosim.Script
