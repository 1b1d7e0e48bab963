import Cosim.Script.Printed
import Cosim.Script.Utility.Basic

/-!
# Utilities for texts

Printing, and choosing, counting, sorting and replacing lines and characters.
-/

namespace Cosim.Script.Utility

open Working

/-! ## Printing -/

/-- The arguments of `echo` behind its options: whether a line end is left out, and whether escapes
are replaced. -/
def echoOptions : List String → Bool × Bool × List String
  | a :: rest =>
    match a.toList with
    | '-' :: c :: cs =>
      if (c :: cs).all fun c => c == 'n' || c == 'e' || c == 'E' then
        let (noEnd, escapes, rest) := echoOptions rest
        (noEnd || (c :: cs).contains 'n', escapes || (c :: cs).contains 'e', rest)
      else (false, false, a :: rest)
    | _ => (false, false, a :: rest)
  | [] => (false, false, [])

def echo (arguments : List String) : Working PUnit := do
  let (noEnd, escapes, rest) := echoOptions arguments
  let text := " ".intercalate rest
  let (cs, ends) := if escapes then Printed.unescape text else (text.toList, false)
  say (String.ofList (if noEnd || ends then cs else cs ++ ['\n']))

def printf : List String → Working PUnit
  | [] => misused "missing operand"
  | form :: arguments => do
    let (form, arguments) := match form, arguments with
      | "--", f :: rest => (f, rest)
      | f, rest => (f, rest)
    let o := Printed.format form arguments
    say (String.ofList o.text)
    for (a, misfit) in o.misfits do
      let reason := match misfit with
        | .noNumber => "expected a numeric value"
        | .excess => "value not completely converted"
        | .outOfRange => "Numerical result out of range"
      complain s!"{inQuotes a}: {reason}"
    match o.wrong with
    | some directive => complain s!"{directive}: invalid conversion specification"
    | none => pure ()

/-! ## Parts of paths -/

/-- The last part of a path, without a given end unless it is all of it. -/
def baseName (path suffix : String) : String :=
  let cs := (path.toList.reverse.dropWhile (· == '/')).reverse
  if cs.isEmpty then (if path.isEmpty then "" else "/")
  else
    let last := (cs.reverse.takeWhile (· != '/')).reverse
    let suffix := suffix.toList
    if suffix.isSuffixOf last && last != suffix then
      String.ofList (last.take (last.length - suffix.length))
    else String.ofList last

/-- The path without its last part. -/
def folderName (path : String) : String :=
  let cs := (path.toList.reverse.dropWhile (· == '/'))
  if cs.isEmpty then (if path.isEmpty then "." else "/")
  else
    let front := cs.dropWhile (· != '/')
    if front.isEmpty then "."
    else
      let front := front.dropWhile (· == '/')
      if front.isEmpty then "/" else String.ofList front.reverse

def baseNames (arguments : List String) : Working PUnit :=
  withOptions "az" "s" [("multiple", 'a'), ("suffix", 's'), ("zero", 'z')] arguments fun g => do
    match g.operands with
    | [] => misused "missing operand"
    | [path] => sayLine (baseName path ((g.value? 's').getD ""))
    | [path, suffix] =>
      if g.has 'a' || g.has 's' then
        for p in g.operands do sayLine (baseName p ((g.value? 's').getD ""))
      else sayLine (baseName path suffix)
    | _ :: _ :: extra :: _ =>
      if g.has 'a' || g.has 's' then
        for p in g.operands do sayLine (baseName p ((g.value? 's').getD ""))
      else misused s!"extra operand {inQuotes extra}"

def folderNames (arguments : List String) : Working PUnit :=
  withOptions "z" "" [("zero", 'z')] arguments fun g => do
    if g.operands.isEmpty then misused "missing operand"
    else for p in g.operands do sayLine (folderName p)

/-! ## Files as they are -/

def reading (name : String) (t : Trouble) : String := s!"{name}: {t.message}"

def opening (name : String) (t : Trouble) : String :=
  if t == .isFolder then s!"error reading {inQuotes name}: {t.message}"
  else s!"cannot open {inQuotes name} for reading: {t.message}"

/-- A text with numbers before its lines, or before those that are not empty. -/
def numbered (onlyFull : Bool) (s : String) : String :=
  let step (acc : Nat × List String) (line : String) : Nat × List String :=
    if onlyFull && line == "\n" then (acc.1, line :: acc.2)
    else
      let n := toString (acc.1 + 1)
      (acc.1 + 1, (String.ofList (List.replicate (6 - n.length) ' ') ++ n ++ "\t" ++ line) :: acc.2)
  String.join ((linesWithEnds s).foldl step (0, [])).2.reverse

def printFiles (arguments : List String) : Working PUnit :=
  withOptions "nbsuvetETA" "" [("number", 'n'), ("show-ends", 'E')] arguments fun g =>
    forFiles g.operands reading fun _ data => do
      if g.has 'b' then say (numbered true (ofData data))
      else if g.has 'n' then say (numbered false (ofData data))
      else if g.has 'E' then
        say (String.ofList ((ofData data).toList.flatMap fun c =>
          if c == '\n' then ['$', '\n'] else [c]))
      else write data
      passOn

def tee (arguments : List String) : Working PUnit :=
  withOptions "aip" "" [("append", 'a')] arguments fun g => do
    let data ← input
    write data
    passOn
    for name in g.operands do
      let old ← if g.has 'a' then (do
          match ← fileData name with
          | .ok old => pure old
          | .error _ => pure .empty) else pure .empty
      match ← writeFile name (old ++ data) with
      | .ok _ => pure ()
      | .error t => complain (reading name t)

/-! ## Front and end -/

/-- A number with a letter for its unit. -/
def amount? (s : String) : Option Nat :=
  let (n, rest) := Calculation.digits 10 s.toList
  if rest.length == s.length then none
  else
    match String.ofList rest with
    | "" => some n
    | "b" => some (512 * n)
    | "k" => some (1024 * n)
    | "K" => some (1024 * n)
    | "kB" => some (1000 * n)
    | "M" => some (1024 * 1024 * n)
    | "MB" => some (1000 * 1000 * n)
    | _ => none

/-- The arguments with an old form of the number of lines in a new form. -/
def withNumber : List String → List String
  | a :: rest =>
    match a.toList with
    | '-' :: c :: cs => if c.isDigit then "-n" :: String.ofList (c :: cs) :: rest else a :: rest
    | _ => a :: rest
  | [] => []

/-- The most bytes that are taken from a file without end. -/
def endlessLimit : Nat := Nat.pow 2 24

/-- So many elements of a list that is repeated. -/
def repeated {α : Type} (count : Nat) (l : List α) : List α :=
  if l.isEmpty then []
  else ((List.replicate (count / l.length + 1) l).flatten).take count

/-- Goes through files, with titles if there are several. -/
def forTitled (g : Given) (work : String → ByteArray → Working PUnit) : Working PUnit := do
  let titled := (1 < g.operands.length || g.has 'v') && !g.has 'q'
  let first := g.operands.head?
  forFiles g.operands opening fun name data => do
    if titled then
      if some name != first then sayLine ""
      let title := if name == "-" then "standard input" else name
      sayLine s!"==> {title} <=="
    work name data

def head (arguments : List String) : Working PUnit :=
  withOptions "qvz" "nc" [("lines", 'n'), ("bytes", 'c'), ("quiet", 'q')] (withNumber arguments)
    fun g => do
    let unit := if (g.value? 'c').isSome then 'c' else 'n'
    let text := (g.value? unit).getD "10"
    let butLast := text.startsWith "-"
    let body := if butLast || text.startsWith "+" then String.ofList (text.toList.drop 1) else text
    match amount? body with
    | none =>
      let units := if unit == 'c' then "bytes" else "lines"
      complain s!"invalid number of {units}: {inQuotes text}"
    | some n =>
      forTitled g fun _ data => do
        let hasMore := (← get).stays
        if unit == 'c' then
          if butLast then write (data.extract 0 (data.size - n))
          else if hasMore && data.size < n then
            write ⟨(repeated (min n endlessLimit) data.toList).toArray⟩
          else write (data.extract 0 n)
        else
          let lines := linesWithEnds (ofData data)
          if butLast then say (String.join (lines.take (lines.length - n)))
          else if hasMore && lines.length < n then
            say (String.join (repeated (min n endlessLimit) lines))
          else say (String.join (lines.take n))
        if butLast then passOn else suffice

def tail (arguments : List String) : Working PUnit :=
  let arguments := match arguments with
    | a :: rest =>
      match a.toList with
      | '+' :: c :: _ => if c.isDigit then "-n" :: a :: rest else arguments
      | _ => arguments
    | [] => []
  withOptions "qvzfF" "ncs" [("lines", 'n'), ("bytes", 'c'), ("quiet", 'q')] (withNumber arguments)
    fun g => do
    let unit := if (g.value? 'c').isSome then 'c' else 'n'
    let text := (g.value? unit).getD "10"
    let fromFront := text.startsWith "+"
    let body := if fromFront || text.startsWith "-" then String.ofList (text.toList.drop 1)
      else text
    match amount? body with
    | none =>
      let units := if unit == 'c' then "bytes" else "lines"
      complain s!"invalid number of {units}: {inQuotes text}"
    | some n =>
      forTitled g fun _ data => do
        let count := if unit == 'c' then data.size else (linesWithEnds (ofData data)).length
        let skipped := if fromFront then n - 1 else count - n
        if unit == 'c' then write (data.extract skipped data.size)
        else say (String.join ((linesWithEnds (ofData data)).drop skipped))
        if (g.has 'f' || g.has 'F') && !g.operands.isEmpty then stay
      if (g.has 'f' || g.has 'F') && !g.operands.isEmpty && !(← get).stays then
        note "no files remaining"

/-! ## Counting -/

/-- The number of words between blanks. -/
def countWords (cs : List Char) : Nat :=
  ((cs.splitOnP Calculation.isBlank).filter fun w => !w.isEmpty).length

def padLeft (width : Nat) (s : String) : String :=
  String.ofList (List.replicate (width - s.length) ' ') ++ s

def count (arguments : List String) : Working PUnit :=
  withOptions "lwcmL" "" [("lines", 'l'), ("words", 'w'), ("bytes", 'c'), ("chars", 'm')] arguments
    fun g => do
    let all := g.options.isEmpty
    let chosen (s : String) : List Nat :=
      let cs := s.toList
      (if all || g.has 'l' then [cs.countP (· == '\n')] else []) ++
      (if all || g.has 'w' then [countWords cs] else []) ++
      (if g.has 'm' then [cs.length] else []) ++
      (if all || g.has 'c' then [cs.length] else []) ++
      (if g.has 'L' then [((linesOf s).map String.length).foldl max 0] else [])
    let mut rows : List (List Nat × String) := []
    let mut size := 0
    for name in (if g.operands.isEmpty then [""] else g.operands) do
      match ← fileData (if name.isEmpty then "-" else name) with
      | .ok data =>
        size := size + data.size
        rows := (chosen (ofData data), name) :: rows
      | .error t =>
        complain (reading name t)
        if t == .isFolder then rows := (chosen "", name) :: rows
    let table := rows.reverse
    let columns := (chosen "").length
    let single := columns == 1 && g.operands.length ≤ 1
    let width :=
      if single then 1
      else if g.operands.isEmpty || g.operands.contains "-" then 7
      else (toString size).length
    let row (ns : List Nat) (name : String) : Working PUnit :=
      sayLine (" ".intercalate (ns.map fun n => padLeft width (toString n)) ++
        (if name.isEmpty then "" else " " ++ name))
    for (ns, name) in table do row ns name
    if 1 < g.operands.length then
      row ((List.range columns).map fun i =>
        (table.map fun (ns, _) => ns.getD i 0).foldl (· + ·) 0) "total"

/-! ## Sorting -/

/-- The order of lines by their number in front. -/
def numericKey (s : String) : Int :=
  let body := s.toList.dropWhile Calculation.isBlank
  let (negative, body) := match body with
    | '-' :: rest => (true, rest)
    | rest => (false, rest)
  let whole := body.takeWhile Char.isDigit
  let fraction := match body.drop whole.length with
    | '.' :: rest => rest.takeWhile Char.isDigit
    | _ => []
  let digits := whole ++ (fraction ++ List.replicate 12 '0').take 12
  let n : Int := (Calculation.digits 10 digits).1
  if negative then -n else n

/-- Keeps the first of lines that follow each other and count as the same. -/
def distinct (same : String → String → Bool) : List String → List String
  | [] => []
  | a :: rest =>
    match distinct same rest with
    | [] => [a]
    | b :: more => if same a b then a :: more else a :: b :: more

/-- The field of a line from which on it is sorted. -/
def sortKey (separator : Option Char) (first : Nat) (only : Bool) (s : String) : String :=
  match separator with
  | some c =>
    let fields := (s.toList.splitOn c).drop (first - 1)
    String.ofList ([c].intercalate (if only then fields.take 1 else fields))
  | none =>
    let fields := ((s.toList.splitOnP Calculation.isBlank).filter fun f => !f.isEmpty).drop
      (first - 1)
    String.ofList ([' '].intercalate (if only then fields.take 1 else fields))

def sort (arguments : List String) : Working PUnit :=
  withOptions "rnufbdghiMVscCz" "kto" [("reverse", 'r'), ("unique", 'u'), ("numeric-sort", 'n'),
    ("key", 'k')] arguments
    (fun g => do
    let mut lines : List String := []
    let mut broken := false
    for name in (if g.operands.isEmpty then ["-"] else g.operands) do
      match ← fileData name with
      | .ok data => lines := lines ++ linesOf (ofData data)
      | .error .isFolder =>
        complain s!"read failed: {name}: {Trouble.isFolder.message}" 2
        broken := true
      | .error t =>
        complain s!"cannot read: {name}: {t.message}" 2
        broken := true
    let separator := (g.value? 't').bind fun t => t.toList.head?
    let keyText := (g.value? 'k').getD ""
    let (first, behind) := Calculation.digits 10 keyText.toList
    let key (s : String) : String :=
      let k := if keyText.isEmpty then s else sortKey separator first (behind.contains ',') s
      if g.has 'f' then String.ofList (k.toList.map Char.toUpper) else k
    let numeric := g.has 'n' || g.has 'g' || behind.contains 'n'
    let below (a b : String) : Bool :=
      if numeric then
        numericKey (key a) < numericKey (key b) ||
          (numericKey (key a) == numericKey (key b) && (a ≤ b || g.has 'u'))
      else key a < key b || (key a == key b && (a ≤ b || g.has 'u'))
    let same (a b : String) : Bool :=
      if numeric then numericKey (key a) == numericKey (key b) else key a == key b
    let sorted := lines.mergeSort (if g.has 'r' || behind.contains 'r' then fun a b => below b a
      else below)
    let result := if g.has 'u' then distinct same sorted else sorted
    if !broken then
      let text := String.join (result.map (· ++ "\n"))
      match g.value? 'o' with
      | some name => discard (writeFile name (toData text))
      | none => say text) 2

/-- Groups of lines that follow each other and are the same. -/
def groups : List String → List (Nat × String)
  | [] => []
  | a :: rest =>
    match groups rest with
    | (n, b) :: more => if a == b then (n + 1, a) :: more else (1, a) :: (n, b) :: more
    | [] => [(1, a)]

def unique (arguments : List String) : Working PUnit :=
  withOptions "cduiz" "fsw" [("count", 'c'), ("repeated", 'd'), ("unique", 'u')] arguments
    fun g =>
    forFiles (g.operands.take 1) reading fun _ data => do
      for (n, line) in groups (linesOf (ofData data)) do
        if (!g.has 'd' || 1 < n) && (!g.has 'u' || n == 1) then
          sayLine (if g.has 'c' then padLeft 7 (toString n) ++ " " ++ line else line)
          passOn

/-! ## Columns -/

/-- The ranges of a list such as `1,3-5,7-`. -/
def columnRanges? (s : String) : Option (List (Nat × Option Nat)) :=
  (s.toList.splitOn ',').mapM fun part =>
    match part.splitOn '-' with
    | [a] => if a.isEmpty then none else some ((Calculation.digits 10 a).1,
        some (Calculation.digits 10 a).1)
    | [a, b] =>
      let low := if a.isEmpty then 1 else (Calculation.digits 10 a).1
      some (low, if b.isEmpty then none else some (Calculation.digits 10 b).1)
    | _ => none

def inColumns (ranges : List (Nat × Option Nat)) (n : Nat) : Bool :=
  ranges.any fun (low, high) => low ≤ n && (high.getD n) ≥ n

def cut (arguments : List String) : Working PUnit :=
  withOptions "snz" "fdcb" [("fields", 'f'), ("delimiter", 'd'), ("characters", 'c'),
    ("bytes", 'b'), ("only-delimited", 's')] arguments fun g => do
    let byField := g.value? 'f'
    match byField.or ((g.value? 'c').or (g.value? 'b')) with
    | none => misused "you must specify a list of bytes, characters, or fields"
    | some spec =>
      match columnRanges? spec with
      | none => misused s!"invalid field value {inQuotes spec}"
      | some ranges =>
        let c := ((g.value? 'd').bind fun d => d.toList.head?).getD '\t'
        forFiles g.operands reading fun _ data => do
          for line in linesOf (ofData data) do
            if byField.isSome then
              let fields := line.toList.splitOn c
              if fields.length == 1 then
                if !g.has 's' then sayLine line
              else
                let kept := (fields.zipIdx 1).filter fun (_, n) => inColumns ranges n
                sayLine (String.ofList ([c].intercalate (kept.map Prod.fst)))
            else
              let kept := (line.toList.zipIdx 1).filter fun (_, n) => inColumns ranges n
              sayLine (String.ofList (kept.map Prod.fst))
          passOn

/-! ## Characters -/

/-- The characters of a named class, in order. -/
def classChars (name : String) : List Char :=
  ((Pattern.classRanges name).flatMap fun (low, high) =>
    (List.range (high.toNat - low.toNat + 1)).map fun n => Char.ofNat (low.toNat + n)).mergeSort
    fun a b => a ≤ b

/-- The characters of a set, in which escapes, ranges and named classes stand for others.  The fuel
is the number of characters. -/
def charSet : Nat → List Char → List Char
  | 0, _ => []
  | _, [] => []
  | fuel + 1, '[' :: ':' :: rest =>
    let name := rest.takeWhile Char.isAlpha
    match rest.drop name.length with
    | ':' :: ']' :: rest => classChars (String.ofList name) ++ charSet fuel rest
    | _ => '[' :: charSet fuel (':' :: rest)
  | fuel + 1, c :: rest =>
    let (low, rest) := one (c :: rest)
    match rest with
    | '-' :: d :: rest' =>
      let (high, rest') := one (d :: rest')
      if low ≤ high then
        (List.range (high.toNat - low.toNat + 1)).map (fun n => Char.ofNat (low.toNat + n)) ++
          charSet fuel rest'
      else charSet fuel rest'
    | _ => low :: charSet fuel rest
where
  /-- The character in front, which may be escaped. -/
  one : List Char → Char × List Char
    | '\\' :: c :: rest =>
      if '0' ≤ c && c ≤ '7' then
        let (n, rest) := Printed.octal 3 (c :: rest)
        (Printed.byte n, rest)
      else ((Printed.escaped? c).getD c, rest)
    | c :: rest => (c, rest)
    | [] => ('\x00', [])

/-- Drops characters that repeat the one before them. -/
def squeeze (set : List Char) : List Char → List Char
  | a :: b :: rest =>
    if a == b && set.contains a then squeeze set (b :: rest) else a :: squeeze set (b :: rest)
  | cs => cs

def transliterate (arguments : List String) : Working PUnit :=
  withOptions "cCdst" "" [("delete", 'd'), ("squeeze-repeats", 's'), ("complement", 'c')]
    arguments fun g => do
    let set (s : String) : List Char := charSet s.length s.toList
    let complement := g.has 'c' || g.has 'C'
    let first (s : String) : List Char :=
      if complement then
        let cs := set s
        ((List.range 256).map Char.ofNat).filter fun c => !cs.contains c
      else set s
    match g.operands with
    | [] => misused "missing operand"
    | [s] =>
      if !g.has 'd' && !g.has 's' then
        complain s!"missing operand after {inQuotes s}"
        modify fun e => { e with
          complaint := e.complaint ++ "Two strings must be given when translating.\n" ++
            "Try " ++ inQuotes "tr --help" ++ " for more information.\n" }
      else
        let source := first s
        let cs := (ofData (← input)).toList
        let cs := if g.has 'd' then cs.filter fun c => !source.contains c else cs
        say (String.ofList (if g.has 's' && !g.has 'd' then squeeze source cs else cs))
        passOn
    | [s, t] =>
      let source := first s
      let target := set t
      let data ← input
      if g.has 'd' then
        let cs := (ofData data).toList.filter fun c => !source.contains c
        say (String.ofList (if g.has 's' then squeeze target cs else cs))
        passOn
      else if target.isEmpty then complain "when not truncating set1, string2 must be non-empty"
      else
        let table : Array Char := ((List.range 256).map fun n =>
          let c := Char.ofNat n
          match source.reverse.findIdx? (· == c) with
          | some i => (target[source.length - 1 - i]?.or target.getLast?).getD c
          | none => c).toArray
        let cs := (ofData data).toList.map fun c => table.getD c.toNat c
        say (String.ofList (if g.has 's' then squeeze target cs else cs))
        passOn
    | _ :: _ :: extra :: _ => misused s!"extra operand {inQuotes extra}"

/-! ## Sequences -/

/-- Cuts files to a size, or fills them up to it. -/
def truncate (arguments : List String) : Working PUnit :=
  withOptions "co" "sr" [("size", 's'), ("no-create", 'c')] arguments fun g => do
    match g.value? 's', g.operands with
    | none, _ =>
      misused ("you must specify either " ++ inQuotes "--size" ++ " or " ++ inQuotes "--reference")
    | some _, [] => misused "missing file operand"
    | some text, names =>
      match amount? text with
      | none => complain s!"Invalid number: {inQuotes text}"
      | some n =>
        for name in names do
          let old := (← fileData name).toOption
          if old.isSome || !g.has 'c' then
            let data := (old.getD .empty).extract 0 n
            let filled := data ++ ⟨(List.replicate (n - data.size) 0).toArray⟩
            match ← writeFile name filled with
            | .ok _ => pure ()
            | .error t =>
              complain s!"cannot open {inQuotes name} for writing: {t.message}"

def sequence (arguments : List String) : Working PUnit := do
  let (options, rest) := arguments.span fun a =>
    a.startsWith "-" && !((a.toList.drop 1).head?.any fun c => c.isDigit || c == '.')
  let separator := match options with
    | "-s" :: _ => rest.head?
    | o :: _ => if o.startsWith "-s" then some (String.ofList (o.toList.drop 2)) else none
    | [] => none
  let rest := if options == ["-s"] then rest.tail else rest
  match rest.find? fun a => (Calculation.ofValue? a).isNone with
  | some a => misused s!"invalid floating point argument: {inQuotes a}"
  | none =>
    let bounds : Option (Int × Int × Int) :=
      match rest.map fun a => (Calculation.ofValue? a).getD 0 with
      | [last] => some (1, 1, last)
      | [first, last] => some (first, 1, last)
      | [first, step, last] => some (first, step, last)
      | _ => none
    match bounds with
    | none =>
      misused (match rest with
        | [] => "missing operand"
        | _ => "extra operand " ++ inQuotes (rest.getD 3 ""))
    | some (first, step, last) =>
      if step == 0 then misused ("invalid Zero increment value: " ++ inQuotes (rest.getD 1 "0"))
      else
        let count := if step > 0 then (last - first) / step + 1 else (first - last) / (-step) + 1
        let numbers := (List.range count.toNat).map fun (n : Nat) =>
          toString (first + step * (n : Int))
        let width := if options.any fun o => o == "-w" then
            ((rest.filter fun a => a != "-w").map String.length).foldl max 0 else 0
        let numbers := numbers.map fun s =>
          let (sign, ds) := s.toList.span (· == '-')
          String.ofList (sign ++ List.replicate (width - s.length) '0' ++ ds)
        if !numbers.isEmpty then sayLine ((separator.getD "\n").intercalate numbers)

/-- The bytes that an endless line has filled when its reader stops. -/
def endlessSize : Nat := Nat.pow 2 16

/-- Prints a line as long as it is read. -/
def endless (arguments : List String) : Working PUnit := do
  let line := (if arguments.isEmpty then "y" else " ".intercalate arguments) ++ "\n"
  say (String.join (List.replicate (endlessSize / line.length + 1) line))
  writeOn

def reverseLines (arguments : List String) : Working PUnit :=
  withOptions "brs" "" [] arguments fun g =>
    forFiles g.operands opening fun _ data =>
      say (String.join (linesWithEnds (ofData data)).reverse)

def reverseChars (arguments : List String) : Working PUnit :=
  withOptions "" "" [] arguments fun g =>
    forFiles g.operands opening fun _ data => do
      for line in linesOf (ofData data) do sayLine (String.ofList line.toList.reverse)
      passOn

/-- Compares two files byte by byte. -/
def compare (arguments : List String) : Working PUnit :=
  withOptions "slqbrNuiwB" "" [("silent", 's'), ("quiet", 's'), ("brief", 'q')] arguments
    (fun g => do
    match g.operands with
    | [a, b] =>
      match ← fileData a, ← fileData b with
      | .ok x, .ok y =>
        if x != y then
          suffice
          setStatus 1
          if !g.has 's' then sayLine s!"{a} {b} differ"
      | .error t, _ => complain (reading a t) 2
      | _, .error t => complain (reading b t) 2
    | [] => misused s!"missing operand after {inQuotes (← read).program}" 2
    | a :: _ => misused s!"missing operand after {inQuotes a}" 2) 2

end Cosim.Script.Utility
