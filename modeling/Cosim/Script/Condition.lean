import Cosim.Script.Calculation

/-!
# Conditions of scripts

The words of a condition: tests of texts, numbers and files, which signs join.  `Condition.holds?`
tells whether one holds, or what is wrong with it.  A word that looks like a sign can also be an
operand, depending on the words around it.
-/

namespace Cosim.Script

/-- What is wrong with a condition. -/
inductive ConditionFault where
  | unexpected (word : String)
  | noOperand (sign : String)
  | unclosed
  | noNumber (word : String)

def ConditionFault.message : ConditionFault → String
  | .unexpected word =>
    if word.isEmpty then "unexpected operator" else s!"{word}: unexpected operator"
  | .noOperand sign => s!"{sign}: argument expected"
  | .unclosed => "closing paren expected"
  | .noNumber word => s!"Illegal number: {word}"

namespace Condition

/-- Tells of files what a sign asks. -/
structure Files where
  has : (sign path : String) → Bool
  areSame : (path other : String) → Bool

inductive Kind where
  | unary
  | binary
  | negation
  | conjunction
  | disjunction
  | bracket
deriving DecidableEq

def unarySigns : List String := [
  "-r", "-w", "-x", "-e", "-f", "-d", "-c", "-b", "-p", "-u", "-g", "-k", "-s", "-t", "-z", "-n",
  "-h", "-O", "-G", "-L", "-S"]

def binarySigns : List String := [
  "=", "!=", "<", ">", "-eq", "-ne", "-gt", "-ge", "-lt", "-le", "-nt", "-ot", "-ef"]

def kind? (s : String) : Option Kind :=
  if unarySigns.contains s then some .unary
  else if binarySigns.contains s then some .binary
  else if s == "!" then some .negation
  else if s == "-a" then some .conjunction
  else if s == "-o" then some .disjunction
  else if s == "(" || s == ")" then some .bracket
  else none

/-- Whether a unary sign in front is an operand because of what is behind it. -/
def isOperand : List String → Bool
  | _ :: [] => true
  | _ :: _ :: [] => false
  | _ :: s :: _ => kind? s == some .binary
  | [] => true

/-- The sign in front, if it is one there. -/
def sign? (words : List String) : Option (String × Kind) :=
  match words with
  | [] => none
  | s :: rest =>
    match kind? s with
    | none => none
    | some kind =>
      if kind == .unary && isOperand words then none
      else if s == "(" && rest.isEmpty then none
      else some (s, kind)

def isSign (words : List String) (kind : Kind) : Bool := (sign? words).map Prod.snd == some kind

abbrev Verdict := Except ConditionFault (Bool × List String)

def number (s : String) : Except ConditionFault Int :=
  let body := s.toList.dropWhile Calculation.isBlank
  let (negative, digits) := match body with
    | '-' :: rest => (true, rest)
    | '+' :: rest => (false, rest)
    | rest => (false, rest)
  let (n, rest) := Calculation.digits 10 digits
  let value : Int := if negative then -n else n
  if rest.length == digits.length || !rest.all Calculation.isBlank then .error (.noNumber s)
  else if Calculation.clamp value != value then .error (.noNumber s)
  else .ok value

def compare (files : Files) (a sign b : String) : Except ConditionFault Bool :=
  let numbers (holds : Int → Int → Bool) : Except ConditionFault Bool := do
    let m ← number a
    let n ← number b
    pure (holds m n)
  match sign with
  | "=" => pure (a == b)
  | "!=" => pure (a != b)
  | "<" => pure (a < b)
  | ">" => pure (b < a)
  | "-eq" => numbers fun m n => m == n
  | "-ne" => numbers fun m n => m != n
  | "-gt" => numbers fun m n => m > n
  | "-ge" => numbers fun m n => m ≥ n
  | "-lt" => numbers fun m n => m < n
  | "-le" => numbers fun m n => m ≤ n
  | "-ef" => pure (files.areSame a b)
  | _ => pure false

def unary (files : Files) (sign a : String) : Except ConditionFault Bool :=
  match sign with
  | "-z" => pure a.isEmpty
  | "-n" => pure !a.isEmpty
  | "-t" => do
    let _ ← number a
    pure false
  | _ => pure (files.has sign a)

section

variable (files : Files)

mutual

/-- Each of these is given the words from the first one of its part, and tells those from the last
one of its part. -/
def disjunction : Nat → Bool → List String → Verdict
  | 0, _, _ => .error .unclosed
  | fuel + 1, before, words => do
    let (holds, words) ← conjunction fuel true words
    if isSign words.tail .disjunction then disjunction fuel (before || holds) (words.drop 2)
    else pure (before || holds, words)

def conjunction : Nat → Bool → List String → Verdict
  | 0, _, _ => .error .unclosed
  | fuel + 1, before, words => do
    let (holds, words) ← negation fuel words
    if isSign words.tail .conjunction then conjunction fuel (before && holds) (words.drop 2)
    else pure (before && holds, words)

def negation : Nat → List String → Verdict
  | 0, _ => .error .unclosed
  | fuel + 1, words => do
    if isSign words .negation then
      match words with
      | [_] =>
        let (holds, _) ← primary fuel false []
        pure (!holds, words)
      | _ =>
        let (holds, words) ← negation fuel words.tail
        pure (!holds, words)
    else primary fuel true words

def primary : Nat → Bool → List String → Verdict
  | 0, _, _ => .error .unclosed
  | fuel + 1, asksSign, words => do
    match words, (if asksSign then sign? words else none) with
    | [], _ => pure (false, [])
    | _ :: rest, some ("(", _) =>
      if rest.head? == some ")" then pure (false, rest)
      else
        let (holds, words) ← disjunction fuel false rest
        if words.tail.head? == some ")" then pure (holds, words.tail)
        else .error .unclosed
    | s :: rest, some (_, .unary) =>
      match rest with
      | [] => .error (.noOperand s)
      | a :: _ => do pure (← unary files s a, rest)
    | s :: rest, _ =>
      if isSign rest .binary then
        match rest with
        | sign :: b :: more => do pure (← compare files s sign b, b :: more)
        | sign :: [] => .error (.noOperand sign)
        | [] => pure (!s.isEmpty, words)
      else pure (!s.isEmpty, words)

end

/-- Whether words hold, read from the front; what is left behind them must be at most one word. -/
def whole (words : List String) : Except ConditionFault Bool := do
  let (holds, rest) ← disjunction files (4 * words.length + 8) false words
  match rest with
  | s :: _ :: _ => .error (.unexpected s)
  | _ => pure holds

/-- Whether the words of a condition hold.  Three words with a comparison in the middle are one,
whatever the others look like. -/
def holds? (words : List String) : Except ConditionFault Bool :=
  match words with
  | [] => .ok false
  | [a, sign, b] =>
    if kind? sign == some .binary then compare files a sign b
    else if a == "(" && b == ")" then whole files [sign]
    else if a == "!" then (negated [sign, b])
    else whole files words
  | [a, b, c, d] =>
    if a == "(" && d == ")" then whole files [b, c]
    else if a == "!" then (negatedThree b c d)
    else whole files words
  | _ => whole files words
where
  /-- The opposite of two words. -/
  negated (words : List String) : Except ConditionFault Bool := do
    pure !(← whole files words)
  /-- The opposite of three words. -/
  negatedThree (a sign b : String) : Except ConditionFault Bool := do
    if kind? sign == some .binary then pure !(← compare files a sign b)
    else if a == "(" && b == ")" then pure !(← whole files [sign])
    else if a == "!" then pure !(← whole files [sign, b])
    else pure !(← whole files [a, sign, b])

end

end Condition

end Cosim.Script
