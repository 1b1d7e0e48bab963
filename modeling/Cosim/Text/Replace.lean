/-!
# Replacing parts of a text

`Text.replaceAll` replaces every occurrence of a part, from the left and without overlaps.
-/

namespace Cosim.Text

/-- Whether a list of characters contains another one. -/
def hasPart (part : List Char) : List Char → Bool
  | [] => part.isEmpty
  | c :: cs => part.isPrefixOf (c :: cs) || hasPart part cs

/-- Replaces a part in what follows the given number of characters, which are left out. -/
def replaceFrom (old new : List Char) : Nat → List Char → List Char
  | _, [] => []
  | n + 1, _ :: cs => replaceFrom old new n cs
  | 0, c :: cs =>
    if !old.isEmpty && old.isPrefixOf (c :: cs) then
      new ++ replaceFrom old new (old.length - 1) cs
    else c :: replaceFrom old new 0 cs

def replaceAll (old new s : String) : String :=
  String.ofList (replaceFrom old.toList new.toList 0 s.toList)

/-- The texts before and behind the last occurrence of a character. -/
def splitLast? (mark : Char) (s : String) : Option (String × String) :=
  let reversed := s.toList.reverse
  let behind := reversed.takeWhile (· != mark)
  match reversed.drop behind.length with
  | [] => none
  | _ :: before => some (String.ofList before.reverse, String.ofList behind.reverse)

end Cosim.Text
