import Cosim.Script.Calculation

/-!
# Printed text

How scripts print: `Printed.unescape` replaces escapes, and `Printed.format` fills the places of a
format with arguments, once or as often as arguments are left.
-/

namespace Cosim.Script.Printed

/-! ## Escapes -/

/-- The number of the octal digits in front, of at most so many, and what is left. -/
def octal (count : Nat) (cs : List Char) : Nat × List Char :=
  let run := (cs.take count).takeWhile fun c => '0' ≤ c && c ≤ '7'
  (run.foldl (fun n c => 8 * n + (c.toNat - '0'.toNat)) 0, cs.drop run.length)

/-- The byte with a number, as a character. -/
def byte (n : Nat) : Char := Char.ofNat (n % 256)

/-- The character that a letter behind a backslash stands for. -/
def escaped? : Char → Option Char
  | 'a' => some '\x07'
  | 'b' => some '\x08'
  | 'e' => some '\x1b'
  | 'f' => some '\x0c'
  | 'n' => some '\n'
  | 'r' => some '\r'
  | 't' => some '\t'
  | 'v' => some '\x0b'
  | '\\' => some '\\'
  | _ => none

/-- Replaces the escapes of an argument; the flag tells whether printing ends with it.  The fuel is
the number of characters. -/
def unescapeFuel : Nat → List Char → List Char × Bool
  | 0, _ => ([], false)
  | _, [] => ([], false)
  | fuel + 1, '\\' :: c :: rest =>
    if c == 'c' then ([], true)
    else if '0' ≤ c && c ≤ '7' then
      let (n, rest) := octal (if c == '0' then 4 else 3) (c :: rest)
      let (cs, ends) := unescapeFuel fuel rest
      (byte n :: cs, ends)
    else
      let (cs, ends) := unescapeFuel fuel rest
      match escaped? c with
      | some e => (e :: cs, ends)
      | none => ('\\' :: c :: cs, ends)
  | fuel + 1, c :: rest =>
    let (cs, ends) := unescapeFuel fuel rest
    (c :: cs, ends)

def unescape (s : String) : List Char × Bool := unescapeFuel s.length s.toList

/-- Replaces the escapes of a format, which cannot end it. -/
def unescapeFormat : Nat → List Char → List Char
  | 0, _ => []
  | _, [] => []
  | fuel + 1, '\\' :: c :: rest =>
    if '0' ≤ c && c ≤ '7' then
      let (n, rest) := octal 3 (c :: rest)
      byte n :: unescapeFormat fuel rest
    else
      match escaped? c with
      | some e => e :: unescapeFormat fuel rest
      | none => '\\' :: c :: unescapeFormat fuel rest
  | fuel + 1, c :: rest => c :: unescapeFormat fuel rest

/-- What `echo` prints for its arguments. -/
def echo (arguments : List String) : List Char :=
  let (withEnd, arguments) := match arguments with
    | "-n" :: rest => (false, rest)
    | arguments => (true, arguments)
  let (cs, ends) := unescape (" ".intercalate arguments)
  if ends || !withEnd then cs else cs ++ ['\n']

/-! ## Places -/

/-- A place of a format. -/
structure Place where
  leftward : Bool
  signed : Bool
  spaced : Bool
  zeros : Bool
  marked : Bool
  width : Nat
  precision : Option Nat
  conversion : Char

/-- A part of a format. -/
inductive Part where
  | text (c : Char)
  | place (p : Place)
  | wrong (directive : String)

/-- A number in front, or the next argument for a star. -/
def count (cs : List Char) (arguments : List String) : Nat × List Char × List String :=
  match cs with
  | '*' :: rest =>
    let n := (arguments.head?.bind Calculation.ofValue?).getD 0
    (n.toNat, rest, arguments.tail)
  | _ =>
    let (n, rest) := Calculation.digits 10 cs
    (n, rest, arguments)

/-- Reads the place behind a percent sign.  The arguments that are left are told as well. -/
def place (cs : List Char) (arguments : List String) : Part × List Char × List String :=
  let flags := cs.takeWhile fun c => "#-+ 0".toList.contains c
  let (width, rest, arguments) := count (cs.drop flags.length) arguments
  let (precision, rest, arguments) := match rest with
    | '.' :: rest =>
      let (n, rest, arguments) := count rest arguments
      (some n, rest, arguments)
    | _ => (none, rest, arguments)
  match rest with
  | c :: rest' =>
    if "diouxXcsbeEfFgG".toList.contains c then
      (.place ⟨flags.contains '-', flags.contains '+', flags.contains ' ', flags.contains '0',
        flags.contains '#', width, precision, c⟩, rest', arguments)
    else
      let shown := cs.take (cs.length - rest'.length)
      (.wrong (String.ofList ('%' :: shown)), rest', arguments)
  | [] => (.wrong (String.ofList ('%' :: cs)), [], arguments)

/-- Fills characters up to the width of a place. -/
def fill (p : Place) (cs : List Char) : List Char :=
  let missing := List.replicate (p.width - cs.length) ' '
  if p.leftward then cs ++ missing else missing ++ cs

/-- Writes a number with its sign: zeros fill its digits up to the precision or the width. -/
def number (p : Place) (negative : Bool) (lead digits : List Char) : List Char :=
  let sign := if negative then ['-'] else if p.signed then ['+'] else if p.spaced then [' '] else []
  let front := sign ++ lead
  let wanted := match p.precision with
    | some n => n
    | none => if p.zeros && !p.leftward then p.width - front.length else 0
  fill p (front ++ List.replicate (wanted - digits.length) '0' ++ digits)

/-- What is wrong with an argument that should be a number. -/
inductive Misfit where
  /-- no number stands in front -/
  | noNumber
  /-- more than a number stands there -/
  | excess
  | outOfRange
deriving DecidableEq

/-- What is wrong with an argument, by what is left of it behind a number. -/
def Misfit.ofRest (isNone : Bool) (rest : List Char) : Option Misfit :=
  if rest.isEmpty then none else if isNone then some .noNumber else some .excess

/-- The number of an argument, and what is wrong with it.  A quote stands before a character whose
number counts. -/
def argumentNumber (s : String) : Int × Option Misfit :=
  match s.toList with
  | [] => (0, none)
  | q :: rest =>
    if q == '\x27' || q == '"' then (((rest.head?.map Char.toNat).getD 0 : Nat), none)
    else
      let body := (q :: rest).dropWhile Calculation.isBlank
      let (negative, body) := match body with
        | '-' :: rest => (true, rest)
        | '+' :: rest => (false, rest)
        | rest => (false, rest)
      let (n, rest) := Calculation.natural body
      let n : Int := if negative then -n else n
      let isNone := !body.head?.any Char.isDigit
      let misfit := Misfit.ofRest isNone rest
      let clamped := Calculation.clamp n
      (clamped, misfit.or (if n == clamped then none else some .outOfRange))

def hexDigits (n : Nat) (upper : Bool) : List Char :=
  (Nat.toDigits 16 n).map fun c => if upper then c.toUpper else c

/-! ## Fractions -/

/-- The digits before and behind the point, of a number in units of the last digit. -/
def fixed (units places : Nat) : List Char :=
  let ds := Nat.toDigits 10 units
  let ds := List.replicate (places + 1 - ds.length) '0' ++ ds
  let whole := ds.take (ds.length - places)
  if places == 0 then whole else whole ++ '.' :: ds.drop (ds.length - places)

/-- A ratio as a whole number, the half to the even one. -/
def rounded (numerator denominator : Nat) : Nat :=
  let q := numerator / denominator
  let r := numerator % denominator
  if 2 * r < denominator then q else if 2 * r > denominator then q + 1 else q + q % 2

/-- The number of digits before the point less one; negative for a number below one.  The fuel
bounds the steps. -/
def magnitude : Nat → Nat → Nat → Int
  | 0, _, _ => 0
  | fuel + 1, n, d =>
    if n == 0 then 0
    else if n ≥ 10 * d then magnitude fuel n (10 * d) + 1
    else if n < d then magnitude fuel (10 * n) d - 1
    else 0

/-- A ratio in units of a power of ten. -/
def scaled (n d : Nat) (exponent : Int) : Nat :=
  if exponent ≥ 0 then rounded n (d * Nat.pow 10 exponent.toNat)
  else rounded (n * Nat.pow 10 (-exponent).toNat) d

/-- A ratio with an exponent. -/
def exponential (n d places : Nat) (upper : Bool) : List Char :=
  let e := magnitude 1000 n d
  let units := scaled n d (e - places)
  let (e, units) := if units ≥ Nat.pow 10 (places + 1) then (e + 1, units / 10) else (e, units)
  let ds := Nat.toDigits 10 e.natAbs
  fixed units places ++ (if upper then 'E' else 'e') :: (if e < 0 then '-' else '+') ::
    (List.replicate (2 - ds.length) '0' ++ ds)

/-- Drops zeros at the end of a fraction. -/
def dropZeros (cs : List Char) : List Char :=
  if cs.contains '.' then
    let kept := (cs.reverse.dropWhile (· == '0')).reverse
    if kept.getLast? == some '.' then kept.dropLast else kept
  else cs

/-- A ratio in the shorter of both forms. -/
def general (n d precision : Nat) (upper : Bool) : List Char :=
  let precision := max precision 1
  let e := magnitude 1000 n d
  let units := scaled n d (e - (precision - 1 : Nat))
  let e := if units ≥ Nat.pow 10 precision then e + 1 else e
  if e < -4 || e ≥ precision then
    let cs := exponential n d (precision - 1) upper
    let front := cs.takeWhile fun c => c != 'e' && c != 'E'
    dropZeros front ++ cs.drop front.length
  else
    let places := ((precision - 1 : Nat) - e).toNat
    dropZeros (fixed (scaled n d (-(places : Int))) places)

/-- The decimal number of an argument as a sign and a ratio, and what is wrong with it. -/
def ratio (s : String) : Bool × Nat × Nat × Option Misfit :=
  let body := s.toList.dropWhile Calculation.isBlank
  let (negative, body) := match body with
    | '-' :: rest => (true, rest)
    | '+' :: rest => (false, rest)
    | rest => (false, rest)
  let whole := body.takeWhile Char.isDigit
  let (fraction, rest) := match body.drop whole.length with
    | '.' :: rest => (rest.takeWhile Char.isDigit, rest.dropWhile Char.isDigit)
    | rest => ([], rest)
  let (e, rest) : Int × List Char := match rest with
    | mark :: more =>
      if (mark == 'e' || mark == 'E') && !(whole.isEmpty && fraction.isEmpty) then
        let (minus, ds) := match more with
          | '-' :: ds => (true, ds)
          | '+' :: ds => (false, ds)
          | ds => (false, ds)
        let (n, left) := Calculation.digits 10 ds
        if left.length == ds.length then (0, rest) else (if minus then -n else n, left)
      else (0, rest)
    | [] => (0, rest)
  let (n, _) := Calculation.digits 10 (whole ++ fraction)
  let e := max (-400) (min 400 (e - fraction.length))
  let isNone := whole.isEmpty && fraction.isEmpty
  let wrong := Misfit.ofRest isNone (if isNone then s.toList else rest)
  if e ≥ 0 then (negative, n * Nat.pow 10 e.toNat, 1, wrong)
  else (negative, n, Nat.pow 10 (-e).toNat, wrong)

/-! ## Formats -/

/-- What a format prints. -/
structure Output where
  text : List Char
  /-- arguments that should be numbers, and what is wrong with them -/
  misfits : List (String × Misfit)
  /-- a place that has no meaning, where printing ends -/
  wrong : Option String
  ends : Bool
  rest : List String

/-- Prints an argument in a place: the text, whether printing ends, and what is wrong with the
argument if it should be a number. -/
def convert (p : Place) (argument : Option String) : List Char × Bool × Option Misfit :=
  let s := argument.getD ""
  let cut (cs : List Char) : List Char := match p.precision with
    | some n => cs.take n
    | none => cs
  match p.conversion with
  | 's' => (fill p (cut s.toList), false, none)
  | 'b' =>
    let (cs, ends) := unescape s
    (fill p (cut cs), ends, none)
  | 'c' => (fill p (s.toList.take 1), false, none)
  | c =>
    if "eEfFgG".toList.contains c then
      let (negative, n, d, wrong) := ratio s
      let places := p.precision.getD 6
      let upper := c.isUpper
      let digits :=
        if c == 'f' || c == 'F' then fixed (scaled n d (-(places : Int))) places
        else if c == 'e' || c == 'E' then exponential n d places upper
        else general n d places upper
      (number { p with precision := none } negative [] digits, false, wrong)
    else
      let (n, wrong) := argumentNumber s
      let natural := (n % Nat.pow 2 64).toNat
      let text :=
        if c == 'x' || c == 'X' then
          let lead := if p.marked && natural != 0 then ['0', c] else []
          number { p with signed := false, spaced := false } false lead
            (hexDigits natural (c == 'X'))
        else if c == 'o' then
          let lead := if p.marked then ['0'] else []
          number { p with signed := false, spaced := false } false lead (Nat.toDigits 8 natural)
        else if c == 'u' then
          number { p with signed := false, spaced := false } false [] (Nat.toDigits 10 natural)
        else number p (n < 0) [] (Nat.toDigits 10 n.natAbs)
      (text, false, wrong)

/-- Goes through a format once.  The fuel is its length. -/
def pass : Nat → List Char → List String → Output
  | 0, _, arguments => ⟨[], [], none, false, arguments⟩
  | _, [], arguments => ⟨[], [], none, false, arguments⟩
  | fuel + 1, '%' :: '%' :: rest, arguments =>
    let o := pass fuel rest arguments
    { o with text := '%' :: o.text }
  | fuel + 1, '%' :: cs, arguments =>
    match place cs arguments with
    | (.place p, rest, arguments) =>
      let (text, ends, wrong) := convert p arguments.head?
      if ends then ⟨text, [], none, true, arguments.tail⟩
      else
        let o := pass fuel rest arguments.tail
        { o with
          text := text ++ o.text
          misfits := (wrong.map fun m => (arguments.headD "", m)).toList ++ o.misfits }
    | (.wrong directive, _, arguments) => ⟨[], [], some directive, true, arguments⟩
    | (.text c, rest, arguments) =>
      let o := pass fuel rest arguments
      { o with text := c :: o.text }
  | fuel + 1, c :: rest, arguments =>
    let o := pass fuel rest arguments
    { o with text := c :: o.text }

/-- Goes through a format as often as it takes arguments and some are left.  The fuel is the number
of arguments. -/
def passes : Nat → List Char → List String → Output
  | 0, format, arguments => pass format.length format arguments
  | fuel + 1, format, arguments =>
    let o := pass format.length format arguments
    if o.ends || o.rest.isEmpty || o.rest.length == arguments.length then o
    else
      let more := passes fuel format o.rest
      { more with
        text := o.text ++ more.text
        misfits := o.misfits ++ more.misfits }

/-- Fills a format with arguments. -/
def format (form : String) (arguments : List String) : Output :=
  passes arguments.length (unescapeFormat form.length form.toList) arguments

end Cosim.Script.Printed
