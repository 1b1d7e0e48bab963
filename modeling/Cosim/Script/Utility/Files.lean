import Cosim.Script.Utility.Basic

/-!
# Utilities for files

Copying, moving, removing and making files and folders, and listing them.
-/

namespace Cosim.Script

namespace Utility

open Working

/-- A name without slashes at its end. -/
def withoutSlashes (name : String) : String :=
  let cs := (name.toList.reverse.dropWhile (· == '/')).reverse
  if cs.isEmpty && !name.isEmpty then "/" else String.ofList cs

/-- The last part of a name. -/
def lastPart (name : String) : String :=
  let cs := (withoutSlashes name).toList
  if cs == ['/'] then "/" else String.ofList (cs.reverse.takeWhile (· != '/')).reverse

/-- A name below a folder. -/
def below (folder name : String) : String :=
  if folder.endsWith "/" then folder ++ lastPart name else folder ++ "/" ++ lastPart name

def locate (name : String) : Working (Except Trouble Location) := do
  pure (System.locate (← disk) (← read).folder (toText name))

def isFolder (name : String) : Working Bool := do
  pure (System.isFolder (← disk) (← read).folder (toText name))

/-- What a file is copied from: its content, and whether it can be run. -/
def source? : Found → Option (Content × Bool)
  | .file content executable => some (content, executable)
  | .folder => none
  | _ => some (.bytes .empty, false)

/-- Works on sources with their targets.  A target that is a folder takes any number of sources
below it, another one takes one. -/
def toTargets (operands : List String) (folder? : Option String)
    (work : (name target : String) → Working PUnit) : Working PUnit := do
  match folder?, operands.reverse with
  | some folder, _ =>
    for name in operands do work name (below folder name)
  | none, [] => misused "missing file operand"
  | none, [name] => misused s!"missing destination file operand after {inQuotes name}"
  | none, target :: names =>
    if ← isFolder target then
      for name in names.reverse do work name (below target name)
    else
      match names with
      | [name] => work name target
      | _ =>
        match ← look target with
        | .ok _ => complain s!"target {inQuotes target}: {Trouble.notFolder.message}"
        | .error t => complain s!"target {inQuotes target}: {t.message}"

/-! ## Copying and moving -/

def copyOne (recursive force : Bool) (name target : String) : Working PUnit := do
  match ← look name with
  | .error t => complain s!"cannot stat {inQuotes name}: {t.message}"
  | .ok found =>
    let d ← disk
    match source? found, ← locate name, ← locate (withoutSlashes target) with
    | _, .error t, _ => complain s!"cannot stat {inQuotes name}: {t.message}"
    | some _, _, .error t => complain s!"cannot create regular file {inQuotes target}: {t.message}"
    | none, _, .error t => complain s!"cannot create directory {inQuotes target}: {t.message}"
    | some (content, executable), .ok l, .ok k =>
      if l == k then complain s!"{inQuotes name} and {inQuotes target} are the same file"
      else
        match System.item? d k with
        | some .folder =>
          complain s!"cannot overwrite directory {inQuotes target} with non-directory"
        | some (.file _ old) => setDisk (d.put k (.file content old))
        | some _ => pure ()
        | none =>
          if target.endsWith "/" then
            complain s!"cannot create regular file {inQuotes target}: {Trouble.notFolder.message}"
          else if d.isFolderAt k.dropLast then setDisk (d.put k (.file content executable))
          else
            complain s!"cannot create regular file {inQuotes target}: {Trouble.missing.message}"
    | none, .ok l, .ok k =>
      if !recursive then complain s!"-r not specified; omitting directory {inQuotes name}"
      else if l.isPrefixOf k then
        complain (s!"cannot copy a directory, {inQuotes name}, into itself, " ++ inQuotes target)
      else
        match System.item? d k with
        | some (.file _ _) =>
          complain (s!"cannot overwrite non-directory {inQuotes target} with directory " ++
            inQuotes name)
        | _ =>
          if force || d.isFolderAt k.dropLast then setDisk (d.copyTree l k)
          else complain s!"cannot create directory {inQuotes target}: {Trouble.missing.message}"

def copy (arguments : List String) : Working PUnit :=
  withOptions "rRafpvnuidLPHT" "t" [("recursive", 'r'), ("force", 'f'), ("archive", 'a'),
    ("verbose", 'v'), ("no-clobber", 'n'), ("target-directory", 't')] arguments fun g => do
    let recursive := g.has 'r' || g.has 'R' || g.has 'a'
    if g.has 'n' && !g.operands.isEmpty then
      note ("warning: behavior of -n is non-portable and may change in future; " ++
        "use --update=none instead")
    toTargets g.operands (g.value? 't') fun name target => do
      if g.has 'n' && (← look target).isOk then pure ()
      else
        copyOne recursive false name target
        if g.has 'v' then sayLine s!"{inQuotes name} -> {inQuotes target}"

def moveOne (name target : String) : Working PUnit := do
  let d ← disk
  match ← look name, ← locate (withoutSlashes name), ← locate (withoutSlashes target) with
  | .error t, _, _ => complain s!"cannot stat {inQuotes name}: {t.message}"
  | _, .error t, _ => complain s!"cannot stat {inQuotes name}: {t.message}"
  | .ok _, _, .error t =>
    complain s!"cannot move {inQuotes name} to {inQuotes target}: {t.message}"
  | .ok found, .ok l, .ok k =>
    let isFolder := found == .folder
    if l == k then complain s!"{inQuotes name} and {inQuotes target} are the same file"
    else if isFolder && l.isPrefixOf k then
      complain s!"cannot move {inQuotes name} to a subdirectory of itself, {inQuotes target}"
    else
      match System.item? d k with
      | some .folder =>
        if !isFolder then
          complain s!"cannot overwrite directory {inQuotes target} with non-directory"
        else if (d.children k).isEmpty then setDisk (d.moveTree l k)
        else
          complain (s!"cannot move {inQuotes name} to {inQuotes target}: Directory not empty")
      | other =>
        if isFolder && other.isSome then
          complain (s!"cannot overwrite non-directory {inQuotes target} with directory " ++
            inQuotes name)
        else if !isFolder && target.endsWith "/" then
          complain s!"cannot move {inQuotes name} to {inQuotes target}: {Trouble.notFolder.message}"
        else if d.isFolderAt k.dropLast then setDisk (d.moveTree l k)
        else
          complain s!"cannot move {inQuotes name} to {inQuotes target}: {Trouble.missing.message}"

def move (arguments : List String) : Working PUnit :=
  withOptions "fivnuT" "t" [("force", 'f'), ("verbose", 'v'), ("no-clobber", 'n'),
    ("target-directory", 't')] arguments fun g =>
    toTargets g.operands (g.value? 't') fun name target => do
      if g.has 'n' && (← look target).isOk then pure ()
      else
        moveOne name target
        if g.has 'v' then sayLine s!"renamed {inQuotes name} -> {inQuotes target}"

/-- Links are files with the same content. -/
def link (arguments : List String) : Working PUnit :=
  withOptions "sfnvrT" "t" [("symbolic", 's'), ("force", 'f')] arguments fun g => do
    let kind := if g.has 's' then "symbolic" else "hard"
    let operands := match g.operands with
      | [name] => [name, "."]
      | names => names
    toTargets operands (g.value? 't') fun name target => do
      let d ← disk
      let place := (← read).folder
      let start := if g.has 's' then
          Path.folder (d.absolute (Path.join place (toText (withoutSlashes target))))
        else place
      match System.look d start (toText name), ← locate target with
      | .error t, _ =>
        if !g.has 's' then complain s!"failed to access {inQuotes name}: {t.message}"
      | _, .error t => complain s!"failed to create {kind} link {inQuotes target}: {t.message}"
      | .ok found, .ok k =>
        if (System.item? d k).isSome && !g.has 'f' then
          complain s!"failed to create {kind} link {inQuotes target}: File exists"
        else
          match found with
          | .file content executable =>
            if d.isFolderAt k.dropLast then setDisk (d.put k (.file content executable))
            else
              complain
                s!"failed to create {kind} link {inQuotes target}: {Trouble.missing.message}"
          | .folder =>
            match System.locate d start (toText name) with
            | .ok l =>
              if g.has 's' then setDisk (d.copyTree l k)
              else complain s!"{name}: hard link not allowed for directory"
            | .error _ => pure ()
          | _ => pure ()

/-! ## Removing -/

def removeOne (g : Given) (name : String) : Working PUnit := do
  let d ← disk
  let recursive := g.has 'r' || g.has 'R'
  let emptyOnes := g.has 'd'
  let last := lastPart name
  if last == "." || last == ".." then
    let never := inQuotes "." ++ " or " ++ inQuotes ".."
    complain s!"refusing to remove {never} directory: skipping {inQuotes name}"
  else
    match ← look name, ← locate name with
    | .ok .folder, .ok l =>
      if recursive || (emptyOnes && (d.children l).isEmpty) then
        setDisk (d.removeTree l)
        if g.has 'v' then sayLine s!"removed directory {inQuotes name}"
      else if emptyOnes then complain s!"cannot remove {inQuotes name}: Directory not empty"
      else complain s!"cannot remove {inQuotes name}: {Trouble.isFolder.message}"
    | .ok (.file _ _), .ok l =>
      setDisk (d.removeTree l)
      if g.has 'v' then sayLine s!"removed {inQuotes name}"
    | .ok _, _ => pure ()
    | .error t, _ =>
      if !(g.has 'f' && (t == .missing || t == .notFolder)) then
        complain s!"cannot remove {inQuotes name}: {t.message}"

def remove (arguments : List String) : Working PUnit :=
  withOptions "rRfidvI" "" [("recursive", 'r'), ("force", 'f'), ("verbose", 'v'), ("dir", 'd')]
    arguments fun g => do
    if g.operands.isEmpty && !g.has 'f' then misused "missing operand"
    else
      for name in g.operands do
        removeOne g name

/-! ## Folders -/

def makeFolder (parents : Bool) (name : String) : Working PUnit := do
  let d ← disk
  let place := (← read).folder
  let refuse (t : String) : Working PUnit :=
    complain s!"cannot create directory {inQuotes name}: {t}"
  if parents then
    let segments := Path.segments (d.absolute (Path.join place (toText name)))
    let (d, trouble) := segments.foldl (fun (d, trouble, l) s =>
      if s.isEmpty || s == "." || (trouble : Option Trouble).isSome then (d, trouble, l)
      else if s == ".." then (d, trouble, l.dropLast)
      else
        let k := l ++ [s]
        match System.item? d k with
        | some .folder => (d, none, k)
        | some _ => (d, some .notFolder, k)
        | none => ((d : Disk).put k .folder, none, k)) (d, none, []) |> fun (d, t, _) => (d, t)
    match trouble with
    | none => setDisk d
    | some t => refuse (if (← look name).isOk then "File exists" else t.message)
  else
    match ← locate (withoutSlashes name) with
    | .error t => refuse t.message
    | .ok l =>
      if (System.item? d l).isSome then refuse "File exists"
      else if d.isFolderAt l.dropLast then setDisk (d.put l .folder)
      else refuse Trouble.missing.message

def makeFolders (arguments : List String) : Working PUnit :=
  withOptions "pv" "m" [("parents", 'p'), ("verbose", 'v'), ("mode", 'm')] arguments fun g => do
    if g.operands.isEmpty then misused "missing operand"
    else
      for name in g.operands do makeFolder (g.has 'p') name

def removeFolders (arguments : List String) : Working PUnit :=
  withOptions "pv" "" [("parents", 'p'), ("verbose", 'v')] arguments fun g => do
    if g.operands.isEmpty then misused "missing operand"
    else
      for name in g.operands do
        let d ← disk
        match ← look name, ← locate name with
        | .ok .folder, .ok l =>
          if (d.children l).isEmpty then setDisk (d.removeTree l)
          else complain s!"failed to remove {inQuotes name}: Directory not empty"
        | .ok _, _ => complain s!"failed to remove {inQuotes name}: {Trouble.notFolder.message}"
        | .error t, _ => complain s!"failed to remove {inQuotes name}: {t.message}"

/-! ## Marks of files -/

def touch (arguments : List String) : Working PUnit :=
  withOptions "acmfh" "dtr" [("no-create", 'c'), ("date", 'd'), ("reference", 'r')] arguments
    fun g => do
    if g.operands.isEmpty then misused "missing file operand"
    else
      for name in g.operands do
        match ← look name with
        | .ok _ => pure ()
        | .error _ =>
          if !g.has 'c' then
            match ← writeFile name .empty with
            | .ok _ => pure ()
            | .error t => complain s!"cannot touch {inQuotes name}: {t.message}"

/-- Whether a file can be run after its mode has been changed by one clause. -/
def modeClause? (clause : List Char) (executable : Bool) : Option Bool :=
  let who := clause.takeWhile fun c => "ugoa".toList.contains c
  match clause.drop who.length with
  | op :: rights =>
    if "+-=".toList.contains op && rights.all fun c => "rwxXst".toList.contains c then
      let runs := rights.contains 'x' || (rights.contains 'X' && executable)
      if op == '+' then some (executable || runs)
      else if op == '-' then
        some (executable && !(runs && (who.isEmpty || who.contains 'a' || who.contains 'u')))
      else some runs
    else none
  | [] => none

/-- Whether a file can be run with a mode. -/
def mode? (mode : String) (executable : Bool) : Option Bool :=
  let cs := mode.toList
  if !cs.isEmpty && cs.all (fun c => '0' ≤ c && c ≤ '7') && cs.length ≤ 5 then
    let n := cs.foldl (fun n c => 8 * n + (c.toNat - '0'.toNat)) 0
    some (n / 64 % 2 == 1 || n / 8 % 2 == 1 || n % 2 == 1)
  else
    (cs.splitOn ',').foldl (fun e? clause => e?.bind (modeClause? clause)) (some executable)

def changeMode (arguments : List String) : Working PUnit := do
  let isMode (a : String) : Bool := (mode? a false).isSome
  let (options, rest) := arguments.span fun a => a.startsWith "-" && !isMode a
  let recursive := options.any fun o => o.toList.contains 'R'
  match rest with
  | [] => misused "missing operand"
  | [mode] => misused s!"missing operand after {inQuotes mode}"
  | mode :: names =>
    if !isMode mode then misused s!"invalid mode: {inQuotes mode}"
    else
      for name in names do
        let d ← disk
        match ← look name, ← locate name with
        | .ok (.file content executable), .ok l =>
          setDisk (d.put l (.file content ((mode? mode executable).getD executable)))
        | .ok .folder, .ok l =>
          if recursive then
            let items := d.items.map fun (k, item) =>
              match item with
              | .file content executable =>
                if l.isPrefixOf k then
                  (k, Item.file content ((mode? mode executable).getD executable))
                else (k, item)
              | .folder => (k, item)
            setDisk { d with items := items }
        | .ok _, _ => pure ()
        | .error t, _ => complain s!"cannot access {inQuotes name}: {t.message}"

/-! ## Installing -/

/-- Copies a file and says whether the copy can be run. -/
def installOne (executable parents : Bool) (name target : String) : Working PUnit := do
  if ← isFolder name then complain s!"omitting directory {inQuotes name}"
  else
    if parents then makeFolder true (Path.folder target)
    copyOne false false name target
    let d ← disk
    match ← locate name, ← locate target with
    | .ok l, .ok k =>
      match System.item? d k with
      | some (.file content _) => if l != k then setDisk (d.put k (.file content executable))
      | _ => pure ()
    | _, _ => pure ()

def install (arguments : List String) : Working PUnit :=
  withOptions "bcCdDpsTv" "gmoSt" [("directory", 'd'), ("mode", 'm'), ("target-directory", 't'),
    ("verbose", 'v')] arguments fun g => do
    let mode := (g.value? 'm').getD "755"
    match mode? mode false with
    | none => complain s!"invalid mode {inQuotes mode}"
    | some executable =>
      if g.has 'd' then
        if g.operands.isEmpty then misused "missing file operand"
        else g.operands.forM (makeFolder true)
      else
        toTargets g.operands (g.value? 't') fun name target => do
          installOne executable (g.has 'D') name target
          if g.has 'v' then sayLine s!"{inQuotes name} -> {inQuotes target}"

/-- Removes one file. -/
def unlink (arguments : List String) : Working PUnit :=
  withOptions "" "" [] arguments fun g => do
    match g.operands with
    | [] => misused "missing operand"
    | [name] =>
      match ← look name, ← locate name with
      | .ok (.file _ _), .ok l => setDisk ((← disk).removeTree l)
      | .ok .folder, _ => complain s!"cannot unlink {inQuotes name}: {Trouble.isFolder.message}"
      | .ok _, _ => pure ()
      | .error t, _ => complain s!"cannot unlink {inQuotes name}: {t.message}"
    | _ :: extra :: _ => misused s!"extra operand {inQuotes extra}"

/-! ## Listing -/

/-- The names that a listing of a folder shows. -/
def shownNames (d : Disk) (l : Location) (all almostAll : Bool) : List String :=
  let names := ((d.children l).map fun (name, _) => ofText name).mergeSort fun a b => a ≤ b
  let names := if all || almostAll then names else names.filter fun n => !n.startsWith "."
  if all then "." :: ".." :: names else names

def list (arguments : List String) : Working PUnit :=
  withOptions "aA1dlhrRtSFkisnoguGLHqQUcxCmpN" "wI" [("all", 'a'), ("almost-all", 'A')] arguments
    (fun g => do
    let names := if g.operands.isEmpty then ["."] else g.operands
    let d ← disk
    let mut found : List (String × Bool) := []
    for name in names do
      match ← look name with
      | .ok .folder => found := (name, !g.has 'd') :: found
      | .ok _ => found := (name, false) :: found
      | .error t => complain s!"cannot access {inQuotes name}: {t.message}" 2
    let sorted := found.mergeSort fun a b => a.1 ≤ b.1
    let files := (sorted.filter fun (_, isOpen) => !isOpen).map Prod.fst
    let folders := (sorted.filter Prod.snd).map Prod.fst
    files.forM sayLine
    let titled := names.length != 1
    for name in folders, i in List.range folders.length do
      if i != 0 || !files.isEmpty then sayLine ""
      if titled then sayLine s!"{name}:"
      match ← locate name with
      | .ok l => (shownNames d l (g.has 'a') (g.has 'A')).forM sayLine
      | .error _ => pure ()) 2

end Utility

end Cosim.Script
