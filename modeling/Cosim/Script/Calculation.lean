import Cosim.Entries
import Cosim.Script.Command

/-!
# Calculations in scripts

A calculation is read from its text and worked out on integers of 64 bits, which wrap.  Values can
be used by name and changed on the way; what a condition does not need is not worked out.
-/

namespace Cosim.Script

/-- Why a calculation has no result. -/
inductive CalculationFault where
  /-- what the text of a calculation should have instead -/
  | form (reason text : String)
  | noNumber (value : String)
  | missingValue (name : String)
  | constant (name : String)

namespace Calculation

/-! ## Numbers -/

/-- The number of a digit in any base. -/
def digit? (base : Nat) (c : Char) : Option Nat :=
  let n :=
    if c.isDigit then c.toNat - '0'.toNat
    else if 'a' ≤ c && c ≤ 'z' then c.toNat - 'a'.toNat + 10
    else if 'A' ≤ c && c ≤ 'Z' then c.toNat - 'A'.toNat + 10
    else base
  if n < base then some n else none

/-- The natural number of the digits in front, which may be none, and what is left. -/
def digits (base : Nat) (cs : List Char) : Nat × List Char :=
  let run := cs.takeWhile fun c => (digit? base c).isSome
  (run.foldl (fun n c => base * n + (digit? base c).getD 0) 0, cs.drop run.length)

/-- The natural number in front, whose base shows in its first characters. -/
def natural (cs : List Char) : Nat × List Char :=
  match cs with
  | '0' :: x :: d :: rest =>
    if (x == 'x' || x == 'X') && (digit? 16 d).isSome then digits 16 (d :: rest)
    else digits 8 cs
  | '0' :: _ => digits 8 cs
  | _ => digits 10 cs

/-- The largest and the smallest number. -/
def largest : Int := Nat.pow 2 63 - 1

def smallest : Int := -Nat.pow 2 63

/-- The nearest number that there is. -/
def clamp (n : Int) : Int := max smallest (min largest n)

/-- The number with the same last 64 bits. -/
def wrap (n : Int) : Int := Int.bmod n (Nat.pow 2 64)

def isBlank (c : Char) : Bool := c == ' ' || ('\t' ≤ c && c ≤ '\r')

/-- The number that a value stands for; blanks may stand around it. -/
def ofValue? (value : String) : Option Int :=
  let body := value.toList.dropWhile isBlank
  let (negative, body) := match body with
    | '-' :: rest => (true, rest)
    | '+' :: rest => (false, rest)
    | rest => (false, rest)
  match body with
  | c :: _ =>
    let (n, rest) := natural body
    if c.isDigit && rest.all isBlank then some (clamp (if negative then -n else n)) else none
  | [] => none

/-! ## Tokens -/

inductive Token where
  | number (n : Int)
  | name (s : String)
  | sign (s : String)
deriving DecidableEq

/-- The signs, longer ones first. -/
def signs : List String := [
  "<<=", ">>=", "<<", ">>", "<=", ">=", "==", "!=", "&&", "||", "+=", "-=", "*=", "/=", "%=", "&=",
  "^=", "|=", "=", "<", ">", "!", "~", "+", "-", "*", "/", "%", "&", "|", "^", "(", ")", "?", ":"]

/-- The tokens of a text.  A character that begins none is a sign of its own, without meaning.  The
fuel is the number of characters. -/
def tokens : Nat → List Char → List Token
  | 0, _ => []
  | _, [] => []
  | fuel + 1, c :: rest =>
    if isBlank c then tokens fuel rest
    else if c.isDigit then
      let (n, rest) := natural (c :: rest)
      .number (clamp n) :: tokens fuel rest
    else if isNameStart c then
      let name := c :: rest.takeWhile isNameChar
      .name (String.ofList name) :: tokens fuel (rest.drop (name.length - 1))
    else
      match signs.find? fun s => s.toList.isPrefixOf (c :: rest) with
      | some s => .sign s :: tokens fuel (rest.drop (s.length - 1))
      | none => .sign c.toString :: tokens fuel rest

/-! ## Terms -/

inductive Term where
  | number (n : Int)
  | name (s : String)
  | unary (sign : String) (a : Term)
  | binary (sign : String) (a b : Term)
  | condition (a b c : Term)
  /-- a value is changed by a sign, or set if there is none -/
  | change (name sign : String) (a : Term)

/-- How strongly a sign between two terms binds. -/
def strength? : String → Option Nat
  | "||" => some 1
  | "&&" => some 2
  | "|" => some 3
  | "^" => some 4
  | "&" => some 5
  | "==" => some 6
  | "!=" => some 6
  | "<" => some 7
  | ">" => some 7
  | "<=" => some 7
  | ">=" => some 7
  | "<<" => some 8
  | ">>" => some 8
  | "+" => some 9
  | "-" => some 9
  | "*" => some 10
  | "/" => some 10
  | "%" => some 10
  | _ => none

/-- The sign by which a sign of assignment changes a value. -/
def change? (sign : String) : Option String :=
  if ["=", "<<=", ">>=", "+=", "-=", "*=", "/=", "%=", "&=", "^=", "|="].contains sign then
    some (String.ofList sign.toList.dropLast)
  else none

/-- A term from the front of tokens, and what is left. -/
abbrev Reads := Except String (Term × List Token)

mutual

/-- Reads a term: an assignment or a condition. -/
def term : Nat → List Token → Reads
  | 0, _ => .error "expecting primary"
  | fuel + 1, ts => do
    match ts with
    | .name name :: .sign sign :: rest =>
      match change? sign with
      | some op =>
        let (a, rest) ← term fuel rest
        pure (.change name op a, rest)
      | none => condition fuel ts
    | _ => condition fuel ts

def condition : Nat → List Token → Reads
  | 0, _ => .error "expecting primary"
  | fuel + 1, ts => do
    let (a, rest) ← primary fuel ts
    let (a, rest) ← chain fuel 1 a rest
    match rest with
    | .sign "?" :: rest =>
      let (b, rest) ← term fuel rest
      match rest with
      | .sign ":" :: rest =>
        let (c, rest) ← condition fuel rest
        pure (.condition a b c, rest)
      | _ => .error "expecting \x27:\x27"
    | _ => pure (a, rest)

/-- Reads the signs and terms behind a term that bind at least so strongly. -/
def chain : Nat → Nat → Term → List Token → Reads
  | 0, _, _, _ => .error "expecting primary"
  | fuel + 1, least, a, ts => do
    match ts with
    | .sign sign :: rest =>
      match (strength? sign).filter (least ≤ ·) with
      | some strength =>
        let (b, rest) ← primary fuel rest
        let (b, rest) ← chain fuel (strength + 1) b rest
        chain fuel least (.binary sign a b) rest
      | none => pure (a, ts)
    | _ => pure (a, ts)

def primary : Nat → List Token → Reads
  | 0, _ => .error "expecting primary"
  | fuel + 1, ts => do
    match ts with
    | .number n :: rest => pure (.number n, rest)
    | .name s :: rest => pure (.name s, rest)
    | .sign "(" :: rest =>
      let (a, rest) ← term fuel rest
      match rest with
      | .sign ")" :: rest => pure (a, rest)
      | _ => .error "expecting \x27)\x27"
    | .sign sign :: rest =>
      if ["+", "-", "~", "!"].contains sign then
        let (a, rest) ← primary fuel rest
        pure (.unary sign a, rest)
      else .error "expecting primary"
    | [] => .error "expecting primary"

end

/-- Reads all tokens as a term. -/
def read (ts : List Token) : Except String Term := do
  let (a, rest) ← term (4 * ts.length + 4) ts
  if rest.isEmpty then pure a else .error "expecting EOF"

/-! ## Results -/

/-- How values are looked up: by name, with a failure where a missing one is none. -/
abbrev Lookup := String → Except CalculationFault String

/-- Works on the values that have been changed. -/
abbrev Working := StateT (Entries Int) (Except CalculationFault)

def ofBool (b : Bool) : Int := if b then 1 else 0

def bits (n : Int) : BitVec 64 := BitVec.ofInt 64 n

/-- The result of a sign between two numbers, unless it divides by zero. -/
def binary? (sign : String) (a b : Int) : Option Int :=
  match sign with
  | "||" => some (ofBool (a != 0 || b != 0))
  | "&&" => some (ofBool (a != 0 && b != 0))
  | "|" => some (bits a ||| bits b).toInt
  | "^" => some (bits a ^^^ bits b).toInt
  | "&" => some (bits a &&& bits b).toInt
  | "==" => some (ofBool (a == b))
  | "!=" => some (ofBool (a != b))
  | "<" => some (ofBool (a < b))
  | ">" => some (ofBool (a > b))
  | "<=" => some (ofBool (a ≤ b))
  | ">=" => some (ofBool (a ≥ b))
  | "<<" => some (bits a <<< (b % 64).toNat).toInt
  | ">>" => some (BitVec.sshiftRight (bits a) (b % 64).toNat).toInt
  | "+" => some (wrap (a + b))
  | "-" => some (wrap (a - b))
  | "*" => some (wrap (a * b))
  | "/" => if b == 0 then none else some (wrap (Int.tdiv a b))
  | "%" => if b == 0 then none else some (Int.tmod a b)
  | _ => some b

def unary (sign : String) (a : Int) : Int :=
  match sign with
  | "-" => wrap (-a)
  | "~" => -a - 1
  | "!" => ofBool (a == 0)
  | _ => a

section

variable (lookup : Lookup) (text : String)

def valueOf (name : String) : Working Int := do
  match (← get).get? name with
  | some n => pure n
  | none =>
    let value ← lookup name
    if value.isEmpty then pure 0
    else match ofValue? value with
      | some n => pure n
      | none => throw (.noNumber value)

def join (sign : String) (a b : Int) : Working Int :=
  match binary? sign a b with
  | some n => pure n
  | none => throw (.form "division by zero" text)

def work : Term → Working Int
  | .number n => pure n
  | .name s => valueOf lookup s
  | .unary sign a => do pure (unary sign (← work a))
  | .binary "||" a b => do
    if (← work a) != 0 then pure 1 else pure (ofBool ((← work b) != 0))
  | .binary "&&" a b => do
    if (← work a) == 0 then pure 0 else pure (ofBool ((← work b) != 0))
  | .binary sign a b => do
    let m ← work a
    let n ← work b
    join text sign m n
  | .condition a b c => do
    if (← work a) != 0 then work b else work c
  | .change name sign a => do
    let n ← work a
    let n ← if sign.isEmpty then pure n else do join text sign (← valueOf lookup name) n
    modify (Entries.put name n)
    pure n

end

/-- The result of a calculation, and the values that it changes. -/
def result (lookup : Lookup) (text : String) : Except CalculationFault (Int × Entries Int) :=
  match read (tokens text.length text.toList) with
  | .ok t => (work lookup text t).run []
  | .error reason => .error (.form reason text)

end Calculation

end Cosim.Script
