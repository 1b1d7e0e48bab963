import Cosim.Script.Utility.Expression
import Cosim.Script.Utility.Text

/-!
# Utilities that search

Finding lines, editing them, and working out the words of an expression.
-/

namespace Cosim.Script.Utility

open Working

/-! ## Finding lines -/

/-- The expression of a text that stands for itself. -/
def literal (s : String) : Expression :=
  s.toList.foldr (fun c e => .both (.char c) e) .empty

/-- Lines that fit one of some expressions. -/
structure Search where
  expressions : List Expression
  ignoresCase : Bool
  wholeLine : Bool
  wholeWord : Bool

namespace Search

def isWordChar (c : Char) : Bool := c.isAlphanum || c == '_'

/-- The first place of a line that fits.  The number is that of characters that may be passed over
on the way to it. -/
def findFrom (s : Search) (fuel : Nat) : Nat → Expression.Position →
    Option (Expression.Position × Expression.Position)
  | n, p =>
    let ends (q : Expression.Position) : Option Expression.Position :=
      let words := !(p.before.head?.any isWordChar) && !(q.after.head?.any isWordChar)
      let isLine := p.before.isEmpty && q.after.isEmpty
      if (s.wholeLine && !isLine) || (s.wholeWord && !words) then none
      else some q
    match s.expressions.findSome? fun e => Expression.fit s.ignoresCase fuel e p ends with
    | some q => some (p, q)
    | none =>
      match n, p.after with
      | n + 1, c :: _ => findFrom s fuel n (p.over [c])
      | _, _ => none

def find? (s : Search) (line : String) : Option (Expression.Position × Expression.Position) :=
  let cs := line.toList
  s.findFrom (Expression.fitFuel cs) cs.length ⟨[], cs, []⟩

/-- The parts of a line that fit.  The fuel is its length. -/
def findAll (s : Search) : Nat → Expression.Position → List String
  | 0, _ => []
  | fuel + 1, p =>
    match s.findFrom (Expression.fitFuel p.after) p.after.length p with
    | none => []
    | some (a, b) =>
      let part := Expression.taken a b
      if part.isEmpty then
        match b.after with
        | c :: _ => findAll s fuel (b.over [c])
        | [] => []
      else String.ofList part :: findAll s fuel b

end Search

def grep (arguments : List String) : Working PUnit :=
  withOptions "qvciFEGnslowxhHarRzbL" "emABC" [("quiet", 'q'), ("silent", 'q'),
    ("invert-match", 'v'), ("count", 'c'), ("ignore-case", 'i'), ("fixed-strings", 'F'),
    ("extended-regexp", 'E'), ("line-number", 'n'), ("no-messages", 's'),
    ("files-with-matches", 'l'), ("files-without-match", 'L'), ("max-count", 'm'),
    ("only-matching", 'o'), ("word-regexp", 'w'), ("line-regexp", 'x'), ("regexp", 'e')] arguments
    (fun g => do
    let given := (g.options.filter fun (o, _) => o == 'e').map Prod.snd
    let (patterns, names) := match given, g.operands with
      | [], p :: names => ([p], names)
      | ps, names => (ps, names)
    if patterns.isEmpty then
      setStatus 2
      modify fun e => { e with
        complaint := e.complaint ++ "Usage: grep [OPTION]... PATTERNS [FILE]...\n" ++
          "Try " ++ inQuotes "grep --help" ++ " for more information.\n" }
    else
      let patterns := patterns.flatMap fun p => (p.toList.splitOn '\n').map String.ofList
      match patterns.mapM fun p =>
          if g.has 'F' then Except.ok (literal p) else Expression.read (g.has 'E') p with
      | .error reason => complain reason 2
      | .ok expressions =>
        let search : Search := ⟨expressions, g.has 'i', g.has 'x', g.has 'w'⟩
        let titled := (1 < names.length || g.has 'H') && !g.has 'h'
        let mut found := false
        let mut broken := false
        for name in (if names.isEmpty then ["-"] else names) do
          match ← fileData name with
          | .error t =>
            broken := true
            if !g.has 's' then note (reading name t)
          | .ok data =>
            let lines := (linesOf (ofData data)).zipIdx 1
            let hits := lines.filter fun (line, _) => (search.find? line).isSome != g.has 'v'
            let hits := match (g.value? 'm').bind amount? with
              | some n => hits.take n
              | none => hits
            let name := if name == "-" then "(standard input)" else name
            let title := if titled then name ++ ":" else ""
            if !hits.isEmpty then found := true
            if g.has 'q' then
              if !hits.isEmpty then suffice
            else if g.has 'l' then
              if !hits.isEmpty then
                sayLine name
                suffice
            else if g.has 'L' then
              if hits.isEmpty then sayLine name else suffice
            else if g.has 'c' then sayLine s!"{title}{hits.length}"
            else
              for (line, n) in hits do
                let place := title ++ (if g.has 'n' then s!"{n}:" else "")
                if g.has 'o' then
                  for part in search.findAll (line.length + 1) ⟨[], line.toList, []⟩ do
                    sayLine (place ++ part)
                else sayLine (place ++ line)
              if (g.value? 'm').isSome then suffice else if !hits.isEmpty then passOn
        setStatus (if broken && !(found && g.has 'q') then 2 else if found then 0 else 1)) 2

/-! ## Editing lines -/

/-- Which line an edit is for. -/
inductive Address where
  | line (n : Nat)
  | last
  | fitting (e : Expression)

/-- What an edit does with a line. -/
inductive Change where
  | replace (e : Expression) (ignoresCase : Bool) (new : List Char) (every : Bool) (count : Nat)
      (prints : Bool)
  | exchange (source target : List Char)
  | delete
  | print
  | quit
  | number
  | text (behind : Bool) (s : String)

structure Edit where
  start : Option Address
  stop : Option Address
  negated : Bool
  change : Change

namespace Edit

/-- Whether no more lines may be read after this edit. -/
def canQuit (e : Edit) : Bool :=
  match e.change with
  | .quit => true
  | _ => false

/-- What stands before the next mark that is not escaped, and what is left behind it.  Escapes are
kept, but for that of the mark. -/
def untilMark (mark : Char) : List Char → Option (List Char × List Char)
  | [] => none
  | '\\' :: c :: rest =>
    (untilMark mark rest).map fun (a, b) =>
      (if c == mark then c :: a else if c == '\n' then '\n' :: a else '\\' :: c :: a, b)
  | c :: rest =>
    if c == mark then some ([], rest) else (untilMark mark rest).map fun (a, b) => (c :: a, b)

def expression (extended : Bool) (cs : List Char) : Except String Expression :=
  Expression.read extended (String.ofList cs)

/-- The address in front. -/
def address? (extended : Bool) (cs : List Char) :
    Except String (Option Address × List Char) :=
  match cs with
  | '$' :: rest => .ok (some .last, rest)
  | '/' :: rest =>
    match untilMark '/' rest with
    | none => .error "unterminated address regex"
    | some (e, rest) => (expression extended e).map fun e => (some (.fitting e), rest)
  | _ =>
    let (n, rest) := Calculation.digits 10 cs
    .ok (if rest.length == cs.length then none else some (.line n), rest)

/-- The flags behind a replacement, and what is left. -/
def flags : List Char → List Char × List Char := fun cs =>
  let fs := cs.takeWhile fun c => c.isDigit || "gpiIe".toList.contains c
  (fs, cs.drop fs.length)

/-- The change in front. -/
def change? (extended : Bool) (cs : List Char) : Except String (Change × List Char) :=
  match cs with
  | 's' :: mark :: rest =>
    match untilMark mark rest with
    | none => .error "unterminated `s\x27 command"
    | some (old, rest) =>
      match untilMark mark rest with
      | none => .error "unterminated `s\x27 command"
      | some (new, rest) => do
        let (fs, rest) := flags rest
        let e ← expression extended old
        let (n, _) := Calculation.digits 10 (fs.filter Char.isDigit)
        pure (.replace e (fs.contains 'i' || fs.contains 'I') new (fs.contains 'g') (max n 1)
          (fs.contains 'p'), rest)
  | 'y' :: mark :: rest =>
    match untilMark mark rest with
    | none => .error "unterminated `y\x27 command"
    | some (source, rest) =>
      match untilMark mark rest with
      | none => .error "unterminated `y\x27 command"
      | some (target, rest) => .ok (.exchange source target, rest)
  | 'd' :: rest => .ok (.delete, rest)
  | 'p' :: rest => .ok (.print, rest)
  | 'q' :: rest => .ok (.quit, rest)
  | '=' :: rest => .ok (.number, rest)
  | c :: rest =>
    if c == 'a' || c == 'i' then
      let body := (rest.dropWhile fun c => c == ' ' || c == '\\' || c == '\n')
      let line := body.takeWhile (· != '\n')
      .ok (.text (c == 'a') (String.ofList line), body.drop line.length)
    else .error ("unknown command: `" ++ c.toString ++ "\x27")
  | [] => .error "missing command"

/-- Reads edits.  The fuel is the number of characters. -/
def readAll (extended : Bool) : Nat → List Char → Except String (List Edit)
  | 0, _ => .ok []
  | fuel + 1, cs =>
    match cs.dropWhile fun c => c == ';' || Calculation.isBlank c with
    | [] => .ok []
    | cs => do
      let (start, rest) ← address? extended cs
      let (stop, rest) ← match rest with
        | ',' :: rest => address? extended rest
        | rest => .ok (none, rest)
      let rest := rest.dropWhile (· == ' ')
      let (negated, rest) := match rest with
        | '!' :: rest => (true, rest.dropWhile (· == ' '))
        | rest => (false, rest)
      let (change, rest) ← change? extended rest
      let rest := rest.dropWhile (· == ' ')
      match rest with
      | [] => .ok [⟨start, stop, negated, change⟩]
      | c :: rest =>
        if c == ';' || c == '\n' then do
          pure (⟨start, stop, negated, change⟩ :: (← readAll extended fuel rest))
        else .error "extra characters after command"

/-- What is put in for a replaced part. -/
def replacement (whole : List Char) (groups : List (Nat × List Char)) : List Char → List Char
  | '\\' :: c :: rest =>
    let shown := if c.isDigit then
        if c == '0' then whole else (groups.lookup (c.toNat - '0'.toNat)).getD []
      else if c == 'n' then ['\n']
      else if c == 't' then ['\t']
      else [c]
    shown ++ replacement whole groups rest
  | '&' :: rest => whole ++ replacement whole groups rest
  | c :: rest => c :: replacement whole groups rest
  | [] => []

/-- Replaces parts of a line from a place on, the given number of the next one being counted down.
The fuel is the number of characters left. -/
def replaceFrom (e : Expression) (ignoresCase every : Bool) (new : List Char) : Nat → Nat →
    Expression.Position → List Char × Bool
  | 0, _, p => (p.after, false)
  | fuel + 1, count, p =>
    match Expression.findFrom e ignoresCase (Expression.fitFuel p.after) p.after.length
        { p with groups := [] } with
    | none => (p.after, false)
    | some (a, b) =>
      let front := Expression.taken p a
      let part := Expression.taken a b
      let shown := if count ≤ 1 then replacement part b.groups new else part
      if count ≤ 1 && !every then (front ++ shown ++ b.after, true)
      else
        let (step, q) := if part.isEmpty then
            match b.after with
            | c :: _ => ([c], b.over [c])
            | [] => ([], b)
          else ([], b)
        if part.isEmpty && b.after.isEmpty then (front ++ shown, count ≤ 1)
        else
          let (rest, more) := replaceFrom e ignoresCase every new fuel (count - 1) q
          (front ++ shown ++ step ++ rest, count ≤ 1 || more)

/-- Whether an edit is for a line, and whether its range goes on behind it. -/
def covers (edit : Edit) (isOpen : Bool) (n last : Nat) (line : List Char) : Bool × Bool :=
  let fits (a : Address) : Bool :=
    match a with
    | .line k => k == n
    | .last => n == last
    | .fitting e => (Expression.find? e false line).isSome
  let past (a : Address) : Bool :=
    match a with
    | .line k => k ≤ n
    | a => fits a
  match edit.start, edit.stop with
  | none, _ => (true, false)
  | some a, none => (fits a, false)
  | some a, some b =>
    if isOpen then (true, !past b)
    else if fits a then
      (true, match b with
        | .line k => n < k
        | .last => n != last
        | .fitting _ => true)
    else (false, false)

end Edit

/-- A line while it is edited. -/
structure Editing where
  line : List Char
  printed : List String
  behind : List String
  kept : Bool
  quits : Bool
  /-- which ranges are open -/
  opens : List Bool

namespace Editing

/-- Applies an edit to a line, if it is for it. -/
def apply (n last : Nat) (s : Editing) (edit : Edit) (isOpen : Bool) : Editing :=
  if !s.kept || s.quits then { s with opens := s.opens ++ [isOpen] }
  else
    let (covered, goesOn) := edit.covers isOpen n last s.line
    let s := { s with opens := s.opens ++ [goesOn] }
    if covered == edit.negated then s
    else
      match edit.change with
      | .replace e ignoresCase new every count prints =>
        let (line, done) := Edit.replaceFrom e ignoresCase every new (s.line.length + 1) count
          ⟨[], s.line, []⟩
        { s with
          line := line
          printed := if done && prints then s.printed ++ [String.ofList line] else s.printed }
      | .exchange source target =>
        { s with
          line := s.line.map fun c =>
            match source.findIdx? (· == c) with
            | some i => target.getD i c
            | none => c }
      | .delete => { s with kept := false }
      | .print => { s with printed := s.printed ++ [String.ofList s.line] }
      | .quit => { s with quits := true }
      | .number => { s with printed := s.printed ++ [toString n] }
      | .text true text => { s with behind := s.behind ++ [text] }
      | .text false text => { s with printed := s.printed ++ [text] }

/-- The lines that edits make of lines. -/
def lines (edits : List Edit) (quiet : Bool) (last : Nat) : List Bool → List (String × Nat) →
    List String
  | _, [] => []
  | opens, (line, n) :: more =>
    let first : Editing := ⟨line.toList, [], [], true, false, []⟩
    let s := (edits.zip opens).foldl (fun s (edit, isOpen) => s.apply n last edit isOpen) first
    let shown := s.printed ++ (if s.kept && !quiet then [String.ofList s.line] else []) ++ s.behind
    if s.quits then shown else shown ++ lines edits quiet last s.opens more

end Editing

/-- The text that edits make of a text.  A last line without an end stays without. -/
def editText (edits : List Edit) (quiet : Bool) (s : String) : String :=
  let ls := linesOf s
  let result := Editing.lines edits quiet ls.length (edits.map fun _ => false) (ls.zipIdx 1)
  let text := "\n".intercalate result
  if result.isEmpty then "" else if s.endsWith "\n" || s.isEmpty then text ++ "\n" else text

def edit (arguments : List String) : Working PUnit :=
  withOptions "nErisz" "ef" [("quiet", 'n'), ("silent", 'n'), ("expression", 'e'),
    ("regexp-extended", 'E'), ("in-place", 'i')] arguments fun g => do
    let given := (g.options.filter fun (o, _) => o == 'e').map Prod.snd
    let (script, names) := match given, g.operands with
      | [], s :: names => (some s, names)
      | [], [] => (none, [])
      | ss, names => (some ("\n".intercalate ss), names)
    match script with
    | none =>
      modify fun e => { e with
        status := 1
        complaint := "Usage: sed [OPTION]... \x7bscript-only-if-no-other-script\x7d " ++
          "[input-file]...\n" }
    | some script =>
      match Edit.readAll (g.has 'E' || g.has 'r') (script.length + 1) script.toList with
      | .error reason => complain s!"-e expression #1, char {script.length}: {reason}"
      | .ok edits =>
        if g.has 'i' then
          for name in names do
            match ← fileData name with
            | .ok data =>
              let text := editText edits (g.has 'n') (ofData data)
              discard (writeFile name (toData text))
            | .error t => complain s!"can\x27t read {name}: {t.message}" 2
        else
          let mut data := ByteArray.empty
          for name in (if names.isEmpty then ["-"] else names) do
            match ← fileData name with
            | .ok more => data := data ++ more
            | .error .isFolder =>
              complain s!"couldn\x27t edit {name}: not a regular file" 2
            | .error t => complain s!"can\x27t read {name}: {t.message}" 2
          say (editText edits (g.has 'n') (ofData data))
          if edits.any Edit.canQuit then suffice else passOn

/-! ## Expressions of words -/

namespace Words

abbrev Reads := Except String (String × List String)

def isTrue (s : String) : Bool :=
  match Calculation.ofValue? s with
  | some n => n != 0
  | none => !s.isEmpty

/-- The number of a word. -/
def number? (s : String) : Option Int :=
  let body := match s.toList with
    | '-' :: rest => rest
    | cs => cs
  if body.isEmpty || !body.all Char.isDigit then none
  else
    let n : Int := (Calculation.digits 10 body).1
    some (if s.startsWith "-" then -n else n)

/-- How strongly a sign between words binds. -/
def strength? : String → Option Nat
  | "|" => some 1
  | "&" => some 2
  | "<" => some 3
  | "<=" => some 3
  | "=" => some 3
  | "==" => some 3
  | "!=" => some 3
  | ">=" => some 3
  | ">" => some 3
  | "+" => some 4
  | "-" => some 4
  | "*" => some 5
  | "/" => some 5
  | "%" => some 5
  | ":" => some 6
  | _ => none

def ofBool (b : Bool) : String := if b then "1" else "0"

/-- What a text has in front that fits an expression: its first group, or the number of
characters. -/
def front (s pattern : String) : Except String String := do
  let e ← Expression.read false pattern
  let hasGroup := (pattern.toList.zip (pattern.toList.drop 1)).contains ('\\', '(')
  match Expression.fit false (Expression.fitFuel s.toList) e ⟨[], s.toList, []⟩ some with
  | some q =>
    if hasGroup then pure (String.ofList ((q.groups.lookup 1).getD []))
    else pure (toString q.before.length)
  | none => pure (if hasGroup then "" else "0")

def join (sign a b : String) : Except String String :=
  let numbers (result : Int → Int → Except String Int) : Except String String :=
    match number? a, number? b with
    | some m, some n => (result m n).map toString
    | _, _ => .error "non-integer argument"
  let compare (holds : Int → Int → Bool) (holdsText : String → String → Bool) :
      Except String String :=
    match number? a, number? b with
    | some m, some n => .ok (ofBool (holds m n))
    | _, _ => .ok (ofBool (holdsText a b))
  match sign with
  | "|" => .ok (if isTrue a then a else if isTrue b then b else "0")
  | "&" => .ok (if isTrue a && isTrue b then a else "0")
  | "<" => compare (fun m n => m < n) (fun a b => a < b)
  | "<=" => compare (fun m n => m ≤ n) (fun a b => a ≤ b)
  | "=" => compare (fun m n => m == n) (fun a b => a == b)
  | "==" => compare (fun m n => m == n) (fun a b => a == b)
  | "!=" => compare (fun m n => m != n) (fun a b => a != b)
  | ">=" => compare (fun m n => m ≥ n) (fun a b => b ≤ a)
  | ">" => compare (fun m n => m > n) (fun a b => b < a)
  | "+" => numbers fun m n => .ok (m + n)
  | "-" => numbers fun m n => .ok (m - n)
  | "*" => numbers fun m n => .ok (m * n)
  | "/" => numbers fun m n => if n == 0 then .error "division by zero" else .ok (Int.tdiv m n)
  | "%" => numbers fun m n => if n == 0 then .error "division by zero" else .ok (Int.tmod m n)
  | _ => front a b

def lacking (sign : String) : String := s!"syntax error: missing argument after {inQuotes sign}"

mutual

/-- Reads the signs and words behind a value that bind at least so strongly. -/
def chain : Nat → Nat → String → List String → Reads
  | 0, _, a, ws => .ok (a, ws)
  | fuel + 1, least, a, ws =>
    match ws with
    | sign :: rest =>
      match (strength? sign).filter (least ≤ ·) with
      | some strength => do
        let (b, rest) ← primary fuel sign rest
        let (b, rest) ← chain fuel (strength + 1) b rest
        let c ← join sign a b
        chain fuel least c rest
      | none => .ok (a, ws)
    | [] => .ok (a, [])

/-- Reads a single value behind a word. -/
def primary : Nat → String → List String → Reads
  | 0, before, _ => .error (lacking before)
  | fuel + 1, before, ws =>
    match ws with
    | [] => .error (lacking before)
    | "(" :: rest => do
      let (a, rest) ← primary fuel "(" rest
      let (a, rest) ← chain fuel 0 a rest
      match rest with
      | ")" :: rest => pure (a, rest)
      | s :: _ =>
        .error ("syntax error: expecting " ++ inQuotes ")" ++ " instead of " ++ inQuotes s)
      | [] => .error ("syntax error: expecting " ++ inQuotes ")" ++ " after " ++ inQuotes a)
    | ")" :: _ => .error ("syntax error: unexpected " ++ inQuotes ")")
    | "length" :: s :: rest => .ok (toString s.length, rest)
    | "match" :: s :: p :: rest => (front s p).map fun a => (a, rest)
    | "index" :: s :: cs :: rest =>
      .ok (toString ((s.toList.findIdx? fun c => cs.toList.contains c).elim 0 (· + 1)), rest)
    | "substr" :: s :: from? :: count? :: rest =>
      match number? from?, number? count? with
      | some m, some n =>
        .ok (if m ≤ 0 || n ≤ 0 then "" else
          String.ofList ((s.toList.drop (m.toNat - 1)).take n.toNat), rest)
      | _, _ => .ok ("", rest)
    | "+" :: s :: rest => .ok (s, rest)
    | s :: rest => .ok (s, rest)

end

/-- Works out all words. -/
def result (ws : List String) : Except String String := do
  let fuel := 4 * ws.length + 4
  let (a, rest) ← primary fuel "" ws
  let (a, rest) ← chain fuel 0 a rest
  match rest with
  | [] => pure a
  | s :: _ => .error s!"syntax error: unexpected argument {inQuotes s}"

end Words

def express (arguments : List String) : Working PUnit := do
  let ws := match arguments with
    | "--" :: rest => rest
    | ws => ws
  if ws.isEmpty then misused "missing operand" 2
  else
    match Words.result ws with
    | .ok s =>
      sayLine s
      if !Words.isTrue s then setStatus 1
    | .error reason => complain reason 2

end Cosim.Script.Utility
