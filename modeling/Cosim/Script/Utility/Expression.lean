import Cosim.Script.Pattern

/-!
# Regular expressions

`Expression.read` reads an expression in one of two forms: in the extended one the signs for groups,
choices and repetitions stand alone, in the basic one behind a backslash.  `Expression.find?` looks
for the first place of a text that fits, where repetitions take as much as they can.
-/

namespace Cosim.Script

inductive Expression where
  | empty
  | char (c : Char)
  | any
  | among (negated : Bool) (ranges : List (Char × Char))
  | start
  | stop
  | group (n : Nat) (body : Expression)
  | again (n : Nat)
  | both (first second : Expression)
  | either (first second : Expression)
  | times (least : Nat) (most : Option Nat) (body : Expression)

namespace Expression

/-! ## Reading -/

/-- What is left of an expression, and the number of groups so far. -/
structure Source where
  rest : List Char
  groups : Nat

abbrev Reading := EStateM String Source

/-- What stands in front of an expression. -/
inductive Sign where
  | stop
  | choice
  | opening
  | closing
  | times (least : Nat) (most : Option Nat)
  | char (c : Char)
  | escape (c : Char)

/-- The bounds of a repetition between braces, and what is left. -/
def bounds? (cs : List Char) (extended : Bool) : Option ((Nat × Option Nat) × List Char) :=
  let number (cs : List Char) : Option Nat × List Char :=
    let ds := cs.takeWhile Char.isDigit
    (if ds.isEmpty then none else some (ds.foldl (fun n c => 10 * n + (c.toNat - '0'.toNat)) 0),
      cs.drop ds.length)
  let close (cs : List Char) : Option (List Char) :=
    match cs with
    | '\x7d' :: rest => if extended then some rest else none
    | '\\' :: '\x7d' :: rest => if extended then none else some rest
    | _ => none
  let (low, rest) := number cs
  match rest with
  | ',' :: rest =>
    let (high, rest) := number rest
    (close rest).map fun rest => ((low.getD 0, high), rest)
  | rest => low.bind fun n => (close rest).map fun rest => ((n, some n), rest)

/-- Takes the sign in front. -/
def sign (extended : Bool) : Reading Sign := do
  let s ← get
  let take (rest : List Char) (sign : Sign) : Reading Sign := do
    set { s with rest := rest }
    pure sign
  match s.rest with
  | [] => pure .stop
  | '\\' :: c :: rest =>
    if extended then take rest (.escape c)
    else
      match c with
      | '|' => take rest .choice
      | '(' => take rest .opening
      | ')' => take rest .closing
      | '+' => take rest (.times 1 none)
      | '?' => take rest (.times 0 (some 1))
      | '\x7b' =>
        match bounds? rest false with
        | some ((least, most), rest) => take rest (.times least most)
        | none => throw "Invalid preceding regular expression"
      | _ => take rest (.escape c)
  | '*' :: rest => take rest (.times 0 none)
  | c :: rest =>
    if extended then
      match c with
      | '|' => take rest .choice
      | '(' => take rest .opening
      | ')' => take rest .closing
      | '+' => take rest (.times 1 none)
      | '?' => take rest (.times 0 (some 1))
      | '\x7b' =>
        match bounds? rest true with
        | some ((least, most), rest) => take rest (.times least most)
        | none => take rest (.char c)
      | _ => take rest (.char c)
    else take rest (.char c)

/-- The characters of a class that a letter behind a backslash names. -/
def wordRanges : List (Char × Char) := [('a', 'z'), ('A', 'Z'), ('0', '9'), ('_', '_')]

/-- The set between brackets. -/
def set? (cs : List Char) : Option (Expression × List Char) :=
  let (negated, body) := match cs with
    | '^' :: rest => (true, rest)
    | rest => (false, rest)
  (Pattern.ranges? (body.length + 1) true (body.map Mark.plain)).map
    fun (ranges, rest) => (.among negated ranges, rest.map Mark.char)

mutual

/-- Reads choices up to the end of a group or of all. -/
def choices (extended : Bool) : Nat → Bool → Reading Expression
  | 0, _ => throw "Regular expression too big"
  | fuel + 1, inGroup => do
    let (first, last) ← sequence extended fuel inGroup .empty true
    match last with
    | .choice => pure (.either first (← choices extended fuel inGroup))
    | _ => pure first

/-- Reads a sequence behind another one, and the sign that ends it. -/
def sequence (extended : Bool) : Nat → Bool → Expression → Bool → Reading (Expression × Sign)
  | 0, _, _, _ => throw "Regular expression too big"
  | fuel + 1, inGroup, before, isFirst => do
    let next (e : Expression) : Reading (Expression × Sign) := do
      let e ← repeated extended fuel e
      sequence extended fuel inGroup (.both before e) false
    match ← sign extended with
    | .stop =>
      if inGroup then throw "Unmatched ( or \\("
      else pure (before, .stop)
    | .choice => pure (before, .choice)
    | .closing =>
      if inGroup then pure (before, .closing)
      else if extended then next (.char ')')
      else throw "Unmatched ) or \\)"
    | .opening =>
      let n := (← get).groups + 1
      modify fun s => { s with groups := n }
      let body ← choices extended fuel true
      next (.group n body)
    | .times least _ =>
      if extended then sequence extended fuel inGroup before false
      else next (.char (if least == 0 then '*' else '+'))
    | .escape c =>
      if c.isDigit && c != '0' then next (.again (c.toNat - '0'.toNat))
      else if c == 'w' then next (.among false wordRanges)
      else if c == 'W' then next (.among true wordRanges)
      else if c == 's' then next (.among false (Pattern.classRanges "space"))
      else if c == 'S' then next (.among true (Pattern.classRanges "space"))
      else if c == 'n' then next (.char '\n')
      else if c == 't' then next (.char '\t')
      else next (.char c)
    | .char '.' => next .any
    | .char '[' =>
      match set? (← get).rest with
      | some (e, rest) =>
        modify fun s => { s with rest := rest }
        next e
      | none => throw "Unmatched [, [^, [:, [., or [="
    | .char '^' =>
      if extended || isFirst then sequence extended fuel inGroup (.both before .start) true
      else next (.char '^')
    | .char '$' =>
      let s ← get
      let marks := if extended then [['|'], [')']] else [['\\', '|'], ['\\', ')']]
      let ends := s.rest.isEmpty || marks.any
        fun mark => mark.isPrefixOf s.rest
      if ends || extended then sequence extended fuel inGroup (.both before .stop) false
      else next (.char '$')
    | .char c => next (.char c)

/-- Reads the repetitions behind an expression. -/
def repeated (extended : Bool) : Nat → Expression → Reading Expression
  | 0, _ => throw "Regular expression too big"
  | fuel + 1, e => do
    let s ← get
    match ← sign extended with
    | .times least most => repeated extended fuel (.times least most e)
    | _ =>
      set s
      pure e

end

/-- Reads an expression in the basic or the extended form. -/
def read (extended : Bool) (text : String) : Except String Expression :=
  match (choices extended (4 * text.length + 8) false).run ⟨text.toList, 0⟩ with
  | .ok e _ => .ok e
  | .error reason _ => .error reason

/-! ## Fitting -/

/-- A place in a text: the characters before it in reverse, those behind it, and what the groups
have taken. -/
structure Position where
  before : List Char
  after : List Char
  groups : List (Nat × List Char)

/-- Whether characters are the same but for their case. -/
def sameChar (ignoresCase : Bool) (a b : Char) : Bool :=
  a == b || (ignoresCase && a.toLower == b.toLower)

def inRanges (ignoresCase : Bool) (ranges : List (Char × Char)) (c : Char) : Bool :=
  ranges.any fun (low, high) =>
    (low ≤ c && c ≤ high) ||
      (ignoresCase && ((low ≤ c.toLower && c.toLower ≤ high) ||
        (low ≤ c.toUpper && c.toUpper ≤ high)))

/-- The characters that lie between two places. -/
def taken (start stop : Position) : List Char :=
  start.after.take (start.after.length - stop.after.length)

/-- Goes over characters. -/
def Position.over (p : Position) (cs : List Char) : Position :=
  { p with before := cs.reverse ++ p.before, after := p.after.drop cs.length }

/-- Whether an expression fits at a place so that what follows fits as well; tells where the whole
ends.  The fuel bounds the steps. -/
def fit (ignoresCase : Bool) : Nat → Expression → Position → (Position → Option Position) →
    Option Position
  | 0, _, _, _ => none
  | fuel + 1, e, p, next =>
    let step (accepts : Char → Bool) : Option Position :=
      match p.after with
      | c :: _ => if accepts c then next (p.over [c]) else none
      | [] => none
    match e with
    | .empty => next p
    | .char c => step (sameChar ignoresCase c)
    | .any => step fun _ => true
    | .among negated ranges => step fun c => inRanges ignoresCase ranges c != negated
    | .start => if p.before.isEmpty then next p else none
    | .stop => if p.after.isEmpty then next p else none
    | .group n body =>
      fit ignoresCase fuel body p fun q => next { q with groups := (n, taken p q) :: q.groups }
    | .again n =>
      let cs := (p.groups.lookup n).getD []
      if (p.after.take cs.length).length == cs.length &&
          (p.after.zip cs).all fun (a, b) => sameChar ignoresCase a b then next (p.over cs)
      else none
    | .both a b => fit ignoresCase fuel a p fun q => fit ignoresCase fuel b q next
    | .either a b => (fit ignoresCase fuel a p next).or (fit ignoresCase fuel b p next)
    | .times least most body =>
      let more : Option Position :=
        if most == some 0 then none
        else
          fit ignoresCase fuel body p fun q =>
            if q.after.length == p.after.length && least == 0 then none
            else fit ignoresCase fuel (.times (least - 1) (most.map (· - 1)) body) q next
      if least == 0 then more.or (next p) else more

/-- The steps that fitting may take one inside of another. -/
def fitFuel (cs : List Char) : Nat := 64 * cs.length + 4096

/-- The first place from which an expression fits, with the place where it ends.  The number is that
of characters that may be passed over. -/
def findFrom (e : Expression) (ignoresCase : Bool) (fuel : Nat) : Nat → Position →
    Option (Position × Position)
  | n, p =>
    match fit ignoresCase fuel e p some with
    | some q => some (p, q)
    | none =>
      match n, p.after with
      | n + 1, c :: _ => findFrom e ignoresCase fuel n (p.over [c])
      | _, _ => none

/-- The first place of a text that fits. -/
def find? (e : Expression) (ignoresCase : Bool) (cs : List Char) : Option (Position × Position) :=
  findFrom e ignoresCase (fitFuel cs) cs.length ⟨[], cs, []⟩

end Expression

end Cosim.Script
