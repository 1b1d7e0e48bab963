import Cosim.Script.Pattern

/-!
# Commands of scripts

The form of a script.  A word is a list of pieces, some of which are put in when the script runs: a
value, the output of a command, or the result of a calculation.  A command is a simple one, with its
words and redirections, or is composed of others.
-/

namespace Cosim.Script

/-- How a file is opened. -/
inductive Opening where
  | reading
  | writing
  | appending
  | both
deriving DecidableEq

mutual

/-- A piece of a word. -/
inductive Piece where
  | mark (m : Mark)
  /-- quotes, which make a word even where there is nothing between them -/
  | quotes
  | value (name : String) (use : Use) (quoted : Bool)
  | output (body : Command) (quoted : Bool)
  | number (expression : List Piece) (quoted : Bool)

/-- What is put in for a value.  A flag says whether an empty value counts as a missing one. -/
inductive Use where
  | whole
  | length
  | orElse (ofEmpty : Bool) (word : List Piece)
  | orAssigned (ofEmpty : Bool) (word : List Piece)
  | orFailure (ofEmpty : Bool) (word : List Piece)
  | ifPresent (ofEmpty : Bool) (word : List Piece)
  | without (cut : Cut) (pattern : List Piece)
  | unknown

/-- What a channel of a command is connected with. -/
inductive Redirection where
  | file (channel : Nat) (opening : Opening) (name : List Piece)
  | channel (channel : Nat) (source : List Piece)
  | document (channel : Nat) (body : List Piece)

/-- A command, with the lines on which it and its like stand. -/
inductive Command where
  | nothing
  | simple (line : Nat) (assignments : List (String × List Piece)) (words : List (List Piece))
      (redirections : List Redirection)
  | redirected (line : Nat) (body : Command) (redirections : List Redirection)
  | pipeline (stages : List Command)
  | negation (body : Command)
  | both (first second : Command)
  | either (first second : Command)
  | sequence (first second : Command)
  | background (body : Command)
  | subshell (body : Command)
  | choice (condition body otherwise : Command)
  | loop (untilTrue : Bool) (condition body : Command)
  /-- a command for each of some words, or for each argument -/
  | each (line : Nat) (name : String) (words : Option (List (List Piece))) (body : Command)
  | selection (line : Nat) (word : List Piece) (branches : List (List (List Piece) × Command))
  | definition (line : Nat) (name : String) (body : Command)

end

abbrev Word := List Piece

namespace Word

/-- The text of a word without quotes and without anything to put in. -/
def plain? : Word → Option (List Char)
  | [] => some []
  | .mark m :: word => if m.quoted then none else (plain? word).map (m.char :: ·)
  | _ :: _ => none

/-- The plain characters in front of a word, and what is left. -/
def splitPlain (keep : Char → Bool) : Word → List Char × Word
  | .mark m :: word =>
    if !m.quoted && keep m.char then
      let (cs, rest) := splitPlain keep word
      (m.char :: cs, rest)
    else ([], .mark m :: word)
  | word => ([], word)

end Word

/-! ## Names -/

def isNameStart (c : Char) : Bool := c.isAlpha || c == '_'

def isNameChar (c : Char) : Bool := c.isAlphanum || c == '_'

/-- Whether characters are the name of a value. -/
def isName : List Char → Bool
  | [] => false
  | c :: cs => isNameStart c && cs.all isNameChar

/-- The name and the word of an assignment. -/
def assignment? (word : Word) : Option (String × Word) :=
  let (name, rest) := word.splitPlain isNameChar
  match rest with
  | .mark m :: value =>
    if m.means '=' && isName name then some (String.ofList name, value) else none
  | _ => none

end Cosim.Script
