import Cosim.Script.Command

/-!
# Reading scripts

A script is read line by line: `Source.next` reads the commands that start on the next line, up to
its end, and more lines where commands go on there.  So a script runs up to the line that has a
fault.  Words are scanned piece by piece; the commands inside of a word are read in the same way.
-/

namespace Cosim.Script

/-! ## Faults -/

/-- Why the form of a script is wrong. -/
inductive FaultCause where
  | unexpected (found : String) (expected : Option String)
  | unclosedQuotes
  | unclosedBackquote
  | missing (mark : String)
  | loopName
  | functionName
  | nesting

structure Fault where
  line : Nat
  cause : FaultCause

def FaultCause.message : FaultCause → String
  | .unexpected found none => s!"{found} unexpected"
  | .unexpected found (some expected) => s!"{found} unexpected (expecting {expected})"
  | .unclosedQuotes => "Unterminated quoted string"
  | .unclosedBackquote => "EOF in backquote substitution"
  | .missing mark => s!"Missing \x27{mark}\x27"
  | .loopName => "Bad for loop variable"
  | .functionName => "Bad function name"
  | .nesting => "Nested too deeply"

/-! ## Tokens -/

inductive Token where
  | word (w : Word)
  | keyword (s : String)
  | mark (s : String)
  | redirection (channel : Option Nat) (mark : String)
  | newline
  | stop

namespace Token

/-- How a fault calls a token. -/
def name : Token → String
  | .word _ => "word"
  | .keyword s => s!"\"{s}\""
  | .mark s => s!"\"{s}\""
  | .redirection _ _ => "redirection"
  | .newline => "newline"
  | .stop => "end of file"

def isKeyword (t : Token) (s : String) : Bool :=
  match t with
  | .keyword k => k == s
  | _ => false

def isMark (t : Token) (s : String) : Bool :=
  match t with
  | .mark m => m == s
  | _ => false

def isNewline : Token → Bool
  | .newline => true
  | _ => false

def keywords : List String := [
  "!", "case", "do", "done", "elif", "else", "esac", "fi", "for", "if", "in", "then", "until",
  "while", "\x7b", "\x7d"]

/-- Whether a list of commands may end before a token. -/
def endsList : Token → Bool
  | .stop => true
  | .mark s => s == ")" || s == ";;"
  | .keyword s => ["do", "done", "elif", "else", "esac", "fi", "then", "\x7d"].contains s
  | _ => false

/-- A word as a keyword, if it is one. -/
def withKeywords : Token → Token
  | .word w =>
    match (Word.plain? w).map String.ofList with
    | some s => if keywords.contains s then .keyword s else .word w
    | none => .word w
  | t => t

end Token

/-! ## Sources -/

/-- What is left of a script. -/
structure Source where
  rest : List Char
  line : Nat
  /-- the lines of documents that have been taken out behind the current line -/
  taken : Nat
  /-- a token that has been read and put back -/
  ahead : Option Token

/-- The source of a text that starts on a line. -/
def Source.ofText (text : String) (line : Nat) : Source := ⟨text.toList, line, 0, none⟩

abbrev Reading := EStateM Fault Source

namespace Reading

def fail {α : Type} (cause : FaultCause) : Reading α := do
  throw ⟨(← get).line, cause⟩

def unexpected {α : Type} (t : Token) (expected : Option String) : Reading α :=
  fail (.unexpected t.name (expected.map fun s => s!"\"{s}\""))

/-- Leaves out characters. -/
def skip (n : Nat) : Reading PUnit := modify fun s => { s with rest := s.rest.drop n }

/-- Counts a line end that has been read. -/
def endLine : Reading PUnit := modify fun s => { s with line := s.line + 1 + s.taken, taken := 0 }

def putBack (t : Token) : Reading PUnit := modify fun s => { s with ahead := some t }

/-- Reads another source and goes on with this one. -/
def within {α : Type} (source : Source → Source) (reading : Reading α) : Reading α := do
  let s ← get
  set (source s)
  let a ← reading
  set s
  pure a

/-! ## Marks -/

/-- Where a word is scanned. -/
inductive Mode where
  | plain
  | doubled
  | braced (quoted : Bool)
  /-- inside of a calculation, and of so many brackets -/
  | calculation (depth : Nat)
  | document

/-- Whether characters have lost their meaning. -/
def Mode.isQuoted : Mode → Bool
  | .plain => false
  | .braced quoted => quoted
  | _ => true

/-- The characters that a backslash takes the meaning from. -/
def Mode.escapes (mode : Mode) (c : Char) : Bool :=
  match mode with
  | .plain => true
  | .braced false => true
  | .braced true => "$\"\\\x60\x7d".toList.contains c
  | .document => "$\\\x60".toList.contains c
  | _ => "$\"\\\x60".toList.contains c

/-- The characters that end a word. -/
def isBreak (c : Char) : Bool := " \t\n;&|<>()".toList.contains c

/-- The names of values that are a single character. -/
def isSpecialName (c : Char) : Bool := "@*#?-$!".toList.contains c

/-- The characters up to the closing quote. -/
def singleQuoted : List Char → Option (List Char × List Char)
  | [] => none
  | c :: cs =>
    if c == '\x27' then some ([], cs) else (singleQuoted cs).map fun (a, b) => (c :: a, b)

/-- The characters up to the closing backquote.  Backslashes have taken the meaning of some. -/
def backquoted (quoted : Bool) : List Char → Option (List Char × List Char)
  | [] => none
  | '\\' :: c :: cs =>
    let kept := if c == '\x60' || c == '\\' || c == '$' || (quoted && c == '"') then [c]
      else ['\\', c]
    (backquoted quoted cs).map fun (a, b) => (kept ++ a, b)
  | c :: cs =>
    if c == '\x60' then some ([], cs)
    else (backquoted quoted cs).map fun (a, b) => (c :: a, b)

def countLines (cs : List Char) : Nat := cs.countP (· == '\n')

/-- The mark of an operator in front. -/
def operator? (cs : List Char) : Option String :=
  ["&&", "||", ";;", "&", "|", ";", "(", ")"].find? fun m => m.toList.isPrefixOf cs

/-- The mark of a redirection in front. -/
def redirection? (cs : List Char) : Option String :=
  ["<<-", "<<", "<&", "<>", "<", ">>", ">&", ">|", ">"].find? fun m => m.toList.isPrefixOf cs

/-- Leaves out blanks, joined lines and a comment in front of a token. -/
def skipBlanks : Nat → Reading PUnit
  | 0 => pure ()
  | fuel + 1 => do
    match (← get).rest with
    | ' ' :: _ => skip 1; skipBlanks fuel
    | '\t' :: _ => skip 1; skipBlanks fuel
    | '\\' :: '\n' :: _ => skip 2; endLine; skipBlanks fuel
    | '#' :: rest => skip (1 + (rest.takeWhile (· != '\n')).length)
    | _ => pure ()

/-- The pieces of characters in quotes. -/
def quotedMarks (cs : List Char) : List Piece := cs.map fun c => .mark ⟨c, true⟩

/-! ## Values -/

/-- The name of a value between braces. -/
def valueName : Reading (Option String) := do
  match (← get).rest with
  | [] => pure none
  | c :: rest =>
    let name :=
      if isNameStart c then c :: rest.takeWhile isNameChar
      else if c.isDigit then c :: rest.takeWhile Char.isDigit
      else if isSpecialName c then [c]
      else []
    skip name.length
    pure (if name.isEmpty then none else some (String.ofList name))

/-- Whether the length of a value is asked for: the sign of length has a name and a brace behind
it. -/
def asksLength (cs : List Char) : Bool :=
  match cs with
  | '#' :: c :: rest =>
    if isNameStart c then (rest.dropWhile isNameChar).head? == some '\x7d'
    else if c.isDigit then (rest.dropWhile Char.isDigit).head? == some '\x7d'
    else isSpecialName c && rest.head? == some '\x7d'
  | _ => false

/-- How a value is cut, by the signs in front, and the number of signs. -/
def cut? : List Char → Option (Cut × Nat)
  | '%' :: '%' :: _ => some (⟨true, true⟩, 2)
  | '%' :: _ => some (⟨true, false⟩, 1)
  | '#' :: '#' :: _ => some (⟨false, true⟩, 2)
  | '#' :: _ => some (⟨false, false⟩, 1)
  | _ => none

/-- What is put in for a value, by the sign in front and the word behind it. -/
def use? (ofEmpty : Bool) : Char → Option (List Piece → Use)
  | '-' => some (.orElse ofEmpty)
  | '=' => some (.orAssigned ofEmpty)
  | '?' => some (.orFailure ofEmpty)
  | '+' => some (.ifPresent ofEmpty)
  | _ => none

/-! ## Documents -/

/-- The lines of a document, and what is left behind its last line. -/
def document (stripTabs : Bool) (stop : List Char) (cs : List Char) :
    List Char × List Char × Nat :=
  let lines := cs.splitOn '\n'
  let shown (line : List Char) := if stripTabs then line.dropWhile (· == '\t') else line
  let body := lines.takeWhile fun line => shown line != stop
  let after := lines.drop body.length
  if after.isEmpty then (['\n'].intercalate (body.map shown), [], countLines cs)
  else
    (body.flatMap fun line => shown line ++ ['\n'], ['\n'].intercalate after.tail, body.length + 1)

/-- The characters of the word that ends a document. -/
def documentStop : Word → List Char
  | [] => []
  | .mark m :: word => m.char :: documentStop word
  | _ :: word => documentStop word

/-! ## Commands -/

/-- One command behind another one. -/
def andThen : Command → Command → Command
  | .nothing, c => c
  | a, b => .sequence a b

/-- Which commands a list holds: those that start on a line, or those of a body, which has at least
one unless it may be empty. -/
inductive Extent where
  | line
  | body
  | optional
deriving DecidableEq

/-- The names that no function may have. -/
def reservedNames : List String := [
  ".", ":", "break", "continue", "eval", "exec", "exit", "export", "local", "readonly", "return",
  "set", "shift", "times", "trap", "unset"]

mutual

/-- Scans pieces of a word. -/
def scan : Nat → Mode → List Piece → Reading (List Piece)
  | 0, _, _ => fail .nesting
  | fuel + 1, mode, before => do
    let push (piece : Piece) : Reading (List Piece) := scan fuel mode (piece :: before)
    match (← get).rest, mode with
    | [], .doubled => fail .unclosedQuotes
    | [], .braced _ => fail (.missing "\x7d")
    | [], .calculation _ => fail (.missing "))")
    | [], _ => pure before.reverse
    | '\\' :: '\n' :: _, _ =>
      skip 2
      endLine
      scan fuel mode before
    | '\\' :: c :: _, _ =>
      if mode.escapes c then
        skip 2
        push (.mark ⟨c, true⟩)
      else
        skip 1
        push (.mark ⟨'\\', true⟩)
    | '$' :: _, _ =>
      skip 1
      let piece ← dollar fuel mode.isQuoted
      push piece
    | '\x60' :: rest, _ =>
      match backquoted mode.isQuoted rest with
      | none => fail .unclosedBackquote
      | some (cs, rest) =>
        let body ← within (fun s => ⟨cs, s.line, 0, none⟩) (list fuel .optional true .nothing)
        modify fun s => { s with rest := rest, line := s.line + countLines cs }
        push (.output body mode.isQuoted)
    | '"' :: _, .doubled =>
      skip 1
      pure before.reverse
    | '"' :: _, .document =>
      skip 1
      push (.mark ⟨'"', true⟩)
    | '"' :: _, .braced true =>
      skip 1
      scan fuel mode before
    | '"' :: _, .calculation _ =>
      skip 1
      scan fuel mode before
    | '"' :: _, _ =>
      skip 1
      let inner ← scan fuel .doubled []
      scan fuel mode (inner.reverse ++ .quotes :: before)
    | '\x7d' :: _, .braced _ =>
      skip 1
      pure before.reverse
    | '(' :: _, .calculation depth =>
      skip 1
      scan fuel (.calculation (depth + 1)) (.mark ⟨'(', true⟩ :: before)
    | ')' :: rest, .calculation depth =>
      if depth != 0 then
        skip 1
        scan fuel (.calculation (depth - 1)) (.mark ⟨')', true⟩ :: before)
      else if rest.head? == some ')' then
        skip 2
        pure before.reverse
      else fail (.missing "))")
    | c :: rest, mode =>
      if c == '\x27' && !mode.isQuoted then
        match singleQuoted rest with
        | none => fail .unclosedQuotes
        | some (cs, rest) =>
          modify fun s => { s with rest := rest, line := s.line + countLines cs }
          scan fuel mode ((quotedMarks cs).reverse ++ .quotes :: before)
      else
        match mode with
        | .plain =>
          if isBreak c then pure before.reverse
          else
            skip 1
            push (.mark (.plain c))
        | _ =>
          skip 1
          if c == '\n' then endLine
          push (.mark ⟨c, mode.isQuoted⟩)

/-- Scans what stands behind a dollar sign. -/
def dollar : Nat → Bool → Reading Piece
  | 0, _ => fail .nesting
  | fuel + 1, quoted => do
    match (← get).rest with
    | '(' :: '(' :: _ =>
      skip 2
      pure (.number (← scan fuel (.calculation 0) []) quoted)
    | '(' :: _ =>
      skip 1
      let body ← list fuel .optional true .nothing
      expectMark fuel ")"
      pure (.output body quoted)
    | '\x7b' :: _ =>
      skip 1
      bracedValue fuel quoted
    | c :: rest =>
      if isNameStart c then
        let name := c :: rest.takeWhile isNameChar
        skip name.length
        pure (.value (String.ofList name) .whole quoted)
      else if c.isDigit || isSpecialName c then
        skip 1
        pure (.value c.toString .whole quoted)
      else pure (.mark ⟨'$', quoted⟩)
    | [] => pure (.mark ⟨'$', quoted⟩)

/-- Scans a value between braces. -/
def bracedValue : Nat → Bool → Reading Piece
  | 0, _ => fail .nesting
  | fuel + 1, quoted => do
    if asksLength (← get).rest then
      skip 1
      let name ← valueName
      skip 1
      pure (.value (name.getD "") .length quoted)
    else
      match ← valueName with
      | none => wrongValue fuel quoted
      | some name =>
        let rest := (← get).rest
        match rest, cut? rest with
        | '\x7d' :: _, _ =>
          skip 1
          pure (.value name .whole quoted)
        | _, some (cut, signs) =>
          skip signs
          pure (.value name (.without cut (← scan fuel (.braced false) [])) quoted)
        | ':' :: sign :: _, _ =>
          match use? true sign with
          | some use =>
            skip 2
            pure (.value name (use (← scan fuel (.braced quoted) [])) quoted)
          | none =>
            if sign == '\x7d' then
              skip 2
              let _ ← scan fuel (.braced quoted) []
              pure (.value name .whole quoted)
            else wrongValue fuel quoted
        | sign :: _, _ =>
          match use? false sign with
          | some use =>
            skip 1
            pure (.value name (use (← scan fuel (.braced quoted) [])) quoted)
          | none => wrongValue fuel quoted
        | [], _ => fail (.missing "\x7d")

/-- Scans a value between braces that has no meaning. -/
def wrongValue : Nat → Bool → Reading Piece
  | 0, _ => fail .nesting
  | fuel + 1, quoted => do
    let _ ← scan fuel (.braced quoted) []
    pure (.value "" .unknown quoted)

/-- Reads a token, without keywords. -/
def rawToken : Nat → Reading Token
  | 0 => fail .nesting
  | fuel + 1 => do
    skipBlanks fuel
    let rest := (← get).rest
    match rest, operator? rest, redirection? rest with
    | [], _, _ => pure .stop
    | '\n' :: _, _, _ =>
      skip 1
      endLine
      pure .newline
    | _, some mark, _ =>
      skip mark.length
      pure (.mark mark)
    | _, _, some mark =>
      skip mark.length
      pure (.redirection none mark)
    | _, none, none =>
      let word ← scan fuel .plain []
      match word, redirection? (← get).rest with
      | [.mark m], some mark =>
        if m.char.isDigit && !m.quoted then
          skip mark.length
          pure (.redirection (some (m.char.toNat - '0'.toNat)) mark)
        else pure (.word word)
      | _, _ => pure (.word word)

/-- Reads the next token, after line ends and with keywords where asked for. -/
def token : Nat → (skipLines withKeywords : Bool) → Reading Token
  | 0, _, _ => fail .nesting
  | fuel + 1, skipLines, withKeywords => do
    let s ← get
    let t ← match s.ahead with
      | some t => do set { s with ahead := none }; pure t
      | none => rawToken fuel
    if skipLines && t.isNewline then token fuel skipLines withKeywords
    else pure (if withKeywords then t.withKeywords else t)

def expectMark : Nat → String → Reading PUnit
  | 0, _ => fail .nesting
  | fuel + 1, mark => do
    let t ← token fuel false false
    if !t.isMark mark then unexpected t (some mark)

def expectKeyword : Nat → String → Reading PUnit
  | 0, _ => fail .nesting
  | fuel + 1, keyword => do
    let t ← token fuel true true
    if !t.isKeyword keyword then unexpected t (some keyword)

/-- Reads commands behind others.  The flag says whether the list may end here. -/
def list : Nat → Extent → Bool → Command → Reading Command
  | 0, _, _, _ => fail .nesting
  | fuel + 1, extent, mayEnd, before => do
    let t ← token fuel (extent != .line) true
    match t with
    | .newline => pure before
    | .stop =>
      putBack t
      pure before
    | t =>
      putBack t
      if mayEnd && t.endsList then pure before
      else
        let c ← alternatives fuel
        let t ← token fuel false false
        let before := andThen before (if t.isMark "&" then .background c else c)
        match t with
        | .newline =>
          putBack t
          list fuel extent (extent != .line) before
        | .stop =>
          putBack t
          list fuel extent (extent != .line) before
        | .mark mark =>
          if mark == ";" || mark == "&" then list fuel extent (extent != .line) before
          else if extent == .line then unexpected t none
          else
            putBack t
            pure before
        | _ =>
          if extent == .line then unexpected t none
          else
            putBack t
            pure before

/-- Reads pipelines that run only if others have succeeded or failed. -/
def alternatives : Nat → Reading Command
  | 0 => fail .nesting
  | fuel + 1 => do
    let first ← pipeline fuel
    moreAlternatives fuel first

def moreAlternatives : Nat → Command → Reading Command
  | 0, _ => fail .nesting
  | fuel + 1, before => do
    let t ← token fuel false false
    if t.isMark "&&" then
      let next ← pipeline fuel
      moreAlternatives fuel (.both before next)
    else if t.isMark "||" then
      let next ← pipeline fuel
      moreAlternatives fuel (.either before next)
    else
      putBack t
      pure before

def pipeline : Nat → Reading Command
  | 0 => fail .nesting
  | fuel + 1 => do
    let t ← token fuel true true
    if t.isKeyword "!" then
      let t ← token fuel false true
      putBack t
      pure (.negation (← stages fuel []))
    else
      putBack t
      stages fuel []

/-- Reads the stages of a pipeline behind others, which are in reverse. -/
def stages : Nat → List Command → Reading Command
  | 0, _ => fail .nesting
  | fuel + 1, before => do
    let c ← command fuel
    let t ← token fuel false false
    if t.isMark "|" then
      let next ← token fuel true true
      putBack next
      stages fuel (c :: before)
    else
      putBack t
      pure (if before.isEmpty then c else .pipeline (c :: before).reverse)

def command : Nat → Reading Command
  | 0 => fail .nesting
  | fuel + 1 => do
    let t ← token fuel false true
    let line := (← get).line
    match t with
    | .word _ =>
      putBack t
      simple fuel line [] [] []
    | .redirection _ _ =>
      putBack t
      simple fuel line [] [] []
    | .mark mark =>
      if mark == "(" then
        let body ← list fuel .body false .nothing
        expectMark fuel ")"
        redirected fuel line (.subshell body)
      else unexpected t none
    | .keyword keyword =>
      match keyword with
      | "if" =>
        let c ← conditional fuel
        expectKeyword fuel "fi"
        redirected fuel line c
      | "while" =>
        let c ← loop fuel false
        redirected fuel line c
      | "until" =>
        let c ← loop fuel true
        redirected fuel line c
      | "for" =>
        let c ← each fuel line
        redirected fuel line c
      | "case" =>
        let c ← selection fuel line
        redirected fuel line c
      | "\x7b" =>
        let body ← list fuel .body false .nothing
        expectKeyword fuel "\x7d"
        redirected fuel line body
      | _ => unexpected t none
    | _ => unexpected t none

/-- Reads the redirections behind a composed command. -/
def redirected : Nat → Nat → Command → Reading Command
  | 0, _, _ => fail .nesting
  | fuel + 1, line, body => do
    let rs ← redirections fuel
    pure (if rs.isEmpty then body else .redirected line body rs)

def redirections : Nat → Reading (List Redirection)
  | 0 => fail .nesting
  | fuel + 1 => do
    let t ← token fuel false true
    match t with
    | .redirection channel mark =>
      let r ← redirection fuel channel mark
      pure (r :: (← redirections fuel))
    | _ =>
      putBack t
      pure []

/-- Reads what a redirection leads to. -/
def redirection : Nat → Option Nat → String → Reading Redirection
  | 0, _, _ => fail .nesting
  | fuel + 1, channel, mark => do
    let t ← token fuel false false
    match t with
    | .word w =>
      let output := channel.getD 1
      let input := channel.getD 0
      match mark with
      | "<" => pure (.file input .reading w)
      | "<>" => pure (.file input .both w)
      | ">>" => pure (.file output .appending w)
      | ">&" => pure (.channel output w)
      | "<&" => pure (.channel input w)
      | "<<" => pure (.document input (← hereDocument fuel false w))
      | "<<-" => pure (.document input (← hereDocument fuel true w))
      | _ => pure (.file output .writing w)
    | _ => unexpected t none

/-- Takes the document that starts on the next line out of the source. -/
def hereDocument : Nat → Bool → Word → Reading Word
  | 0, _, _ => fail .nesting
  | fuel + 1, stripTabs, stop => do
    let rest := (← get).rest
    let line := rest.takeWhile (· != '\n')
    match rest.drop line.length with
    | [] => pure []
    | _ :: behind =>
      let (body, behind, lines) := document stripTabs (documentStop stop) behind
      modify fun s => { s with rest := line ++ '\n' :: behind, taken := s.taken + lines }
      if (Word.plain? stop).isNone then pure (quotedMarks body)
      else within (fun s => ⟨body, s.line, 0, none⟩) (scan fuel .document [])

/-- Reads the condition and the branches behind `if` or `elif`. -/
def conditional : Nat → Reading Command
  | 0 => fail .nesting
  | fuel + 1 => do
    let condition ← list fuel .body false .nothing
    expectKeyword fuel "then"
    let body ← list fuel .body false .nothing
    let t ← token fuel true true
    if t.isKeyword "elif" then
      let otherwise ← conditional fuel
      pure (.choice condition body otherwise)
    else if t.isKeyword "else" then
      let otherwise ← list fuel .body false .nothing
      pure (.choice condition body otherwise)
    else
      putBack t
      pure (.choice condition body .nothing)

def loop : Nat → Bool → Reading Command
  | 0, _ => fail .nesting
  | fuel + 1, untilTrue => do
    let condition ← list fuel .body false .nothing
    expectKeyword fuel "do"
    let body ← list fuel .body false .nothing
    expectKeyword fuel "done"
    pure (.loop untilTrue condition body)

/-- Reads a loop over words. -/
def each : Nat → Nat → Reading Command
  | 0, _ => fail .nesting
  | fuel + 1, line => do
    match ← token fuel false false with
    | .word w =>
      match Word.plain? w with
      | some name =>
        if !isName name then fail .loopName
        else
          let t ← token fuel true true
          let words ←
            if t.isKeyword "in" then do
              pure (some (← loopWords fuel))
            else
              if !t.isMark ";" then putBack t
              pure none
          expectKeyword fuel "do"
          let body ← list fuel .body false .nothing
          expectKeyword fuel "done"
          pure (.each line (String.ofList name) words body)
      | none => fail .loopName
    | _ => fail .loopName

/-- Reads the words of a loop up to the end of their list. -/
def loopWords : Nat → Reading (List Word)
  | 0 => fail .nesting
  | fuel + 1 => do
    let t ← token fuel false false
    match t with
    | .word w => pure (w :: (← loopWords fuel))
    | .newline => pure []
    | t => if t.isMark ";" then pure [] else unexpected t none

/-- Reads a choice of branches by a word. -/
def selection : Nat → Nat → Reading Command
  | 0, _ => fail .nesting
  | fuel + 1, line => do
    let t ← token fuel false false
    match t with
    | .word w =>
      expectKeyword fuel "in"
      pure (.selection line w (← branches fuel))
    | _ => fail (.unexpected t.name (some "word"))

def branches : Nat → Reading (List (List Word × Command))
  | 0 => fail .nesting
  | fuel + 1 => do
    let t ← token fuel true true
    if t.isKeyword "esac" then pure []
    else
      let t ← if t.isMark "(" then token fuel false false else pure t
      let patterns ← branchPatterns fuel t
      let body ← list fuel .optional true .nothing
      let t ← token fuel true true
      if t.isKeyword "esac" then pure [(patterns, body)]
      else if t.isMark ";;" then pure ((patterns, body) :: (← branches fuel))
      else unexpected t (some ";;")

/-- Reads the patterns of a branch, the first of which is given by its token. -/
def branchPatterns : Nat → Token → Reading (List Word)
  | 0, _ => fail .nesting
  | fuel + 1, first => do
    let word : Word := match first with
      | .word w => w
      | .keyword s => s.toList.map fun c => .mark (.plain c)
      | _ => []
    let t ← token fuel false false
    if t.isMark "|" then
      let next ← token fuel false false
      pure (word :: (← branchPatterns fuel next))
    else if t.isMark ")" then pure [word]
    else unexpected t (some ")")

/-- Reads a simple command behind what has been read of it, in reverse. -/
def simple : Nat → Nat → List (String × Word) → List Word → List Redirection → Reading Command
  | 0, _, _, _, _ => fail .nesting
  | fuel + 1, line, assignments, words, rs => do
    let t ← token fuel false false
    match t with
    | .word w =>
      match (if words.isEmpty then assignment? w else none) with
      | some a => simple fuel line (a :: assignments) words rs
      | none => simple fuel line assignments (w :: words) rs
    | .redirection channel mark =>
      let r ← redirection fuel channel mark
      simple fuel line assignments words (r :: rs)
    | t =>
      match t.isMark "(", words with
      | true, [name] =>
        if assignments.isEmpty && rs.isEmpty then definition fuel name else unexpected t none
      | _, _ =>
        putBack t
        pure (.simple line assignments.reverse words.reverse rs.reverse)

/-- Reads the rest of the definition of a function. -/
def definition : Nat → Word → Reading Command
  | 0, _ => fail .nesting
  | fuel + 1, name => do
    expectMark fuel ")"
    match Word.plain? name with
    | some name =>
      if !isName name || reservedNames.contains (String.ofList name) then fail .functionName
      else
        let line := (← get).line
        let t ← token fuel true true
        putBack t
        pure (.definition line (String.ofList name) (← command fuel))
    | none => fail .functionName

end

end Reading

namespace Source

/-- The depth to which a text can be nested. -/
def depth (s : Source) : Nat := 8 * s.rest.length + 64

/-- The commands of the next line; there are none at the end. -/
def next (s : Source) : Except Fault (Option (Command × Source)) :=
  match (Reading.list s.depth .line false .nothing).run s with
  | .ok .nothing s => if s.rest.isEmpty then .ok none else .ok (some (.nothing, s))
  | .ok c s => .ok (some (c, s))
  | .error fault _ => .error fault

end Source

end Cosim.Script
