import Cosim.Script.Pattern
import Cosim.Script.Utility.Files

/-!
# Walks through folders

`findItems` names the files and folders below some paths that pass every test of an expression, and
may remove them.
-/

namespace Cosim.Script

namespace Utility

open Working

/-- A test that an item has to pass, or what is done with an item. -/
inductive ItemTest where
  | name (pattern : Pattern)
  | path (pattern : Pattern)
  | isFolder (expected : Bool)
  | isEmpty
  | least (depth : Nat)
  | most (depth : Nat)
  | remove
  | print
  /-- a test that has to fail -/
  | unless (t : ItemTest)

namespace ItemTest

/-- The pattern of a text. -/
def pattern (s : String) : Pattern := Pattern.ofMarks (s.toList.map Mark.plain)

/-- Reads an expression.  The fuel is the number of words. -/
def read : Nat → List String → Except String (List ItemTest)
  | 0, _ => .ok []
  | _, [] => .ok []
  | fuel + 1, word :: rest => do
    let single (t : ItemTest) : Except String (List ItemTest) := do
      pure (t :: (← read fuel rest))
    let valued (make : String → Except String ItemTest) : Except String (List ItemTest) :=
      match rest with
      | [] => .error ("missing argument to \x60" ++ word ++ "\x27")
      | s :: rest => do
        let t ← make s
        pure (t :: (← read fuel rest))
    let depth (make : Nat → ItemTest) (s : String) : Except String ItemTest :=
      match s.toNat? with
      | some n => .ok (make n)
      | none => .error (s!"Expected a positive decimal integer argument to {word}, but got " ++
          inQuotes s)
    match word with
    | "-name" => valued fun s => .ok (.name (pattern s))
    | "-path" => valued fun s => .ok (.path (pattern s))
    | "-type" => valued fun s =>
      match s with
      | "f" => .ok (.isFolder false)
      | "d" => .ok (.isFolder true)
      | _ => .error s!"Unknown argument to -type: {s}"
    | "-maxdepth" => valued (depth .most)
    | "-mindepth" => valued (depth .least)
    | "-empty" => single .isEmpty
    | "-delete" => single .remove
    | "-print" => single .print
    | "-a" => read fuel rest
    | "-and" => read fuel rest
    | _ =>
      if word == "!" || word == "-not" then
        match ← read fuel rest with
        | t :: more => pure (.unless t :: more)
        | [] => .error ("expected an expression after " ++ inQuotes word)
      else .error ("unknown predicate \x60" ++ word ++ "\x27")

/-- Whether an item passes a test. -/
def holds (d : Disk) (shown : String) (l : Location) (depth : Nat) (item : Item) :
    ItemTest → Bool
  | .name p => p.fits (lastPart shown).toList
  | .path p => p.fits shown.toList
  | .isFolder expected => (item == .folder) == expected
  | .isEmpty =>
    match item with
    | .folder => (d.children l).isEmpty
    | .file content _ => content.toBytes.size == 0
  | .least n => n ≤ depth
  | .most n => depth ≤ n
  | .unless t => !t.holds d shown l depth item
  | .remove => true
  | .print => true

/-- Whether a test stands for something that is done. -/
def isAction : ItemTest → Bool
  | .remove => true
  | .print => true
  | _ => false

def isRemoval : ItemTest → Bool
  | .remove => true
  | _ => false

end ItemTest

/-- Names the items below paths that pass tests. -/
def findItems (arguments : List String) : Working PUnit := do
  let paths := arguments.takeWhile fun a => !a.startsWith "-" && a != "!"
  let expression := arguments.drop paths.length
  match ItemTest.read expression.length expression with
  | .error reason => complain reason
  | .ok tests =>
    let removes := tests.any ItemTest.isRemoval
    let shows := !tests.any ItemTest.isAction || tests.any fun t => t.isAction && !t.isRemoval
    for path in (if paths.isEmpty then ["."] else paths) do
      let d ← disk
      match ← look path, ← locate path with
      | .error t, _ => complain s!"{inQuotes path}: {t.message}"
      | _, .error t => complain s!"{inQuotes path}: {t.message}"
      | .ok _, .ok root =>
        let items := (d.items.filter fun (l, _) => root.isPrefixOf l).mergeSort fun a b =>
          "/".intercalate a.1 ≤ "/".intercalate b.1
        let items := if items.any fun (l, _) => l == root then items else (root, .folder) :: items
        for (l, item) in items do
          let names := l.drop root.length
          let shown := "/".intercalate (path :: names.map ofText)
          if tests.all fun t => t.holds d shown l names.length item then
            if shows then sayLine shown
            if removes && !names.isEmpty then setDisk ((← disk).removeTree l)

end Utility

end Cosim.Script
