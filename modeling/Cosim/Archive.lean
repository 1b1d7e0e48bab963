import Cosim.Archive.Zip
import Cosim.Disk

/-!
# Archives

An archive is an ordered list of entries with distinct names.  An edit of an archive file writes a
new archive entry by entry and replaces the file by it, or leaves the file as it is where an entry
is refused.  An edit takes over packed data as it is, so that damaged entries stay as they are.
-/

namespace Cosim

/-- The bytes of a content. -/
def Content.toBytes : Content → ByteArray
  | .bytes data => data
  | .archive entries => Zip.write entries

/-- The entries of a content that is an archive. -/
def Content.entries? : Content → Option Archive.Listing
  | .bytes data => Zip.read? data
  | .archive entries => some entries

end Cosim

namespace Cosim.Archive

/-! ## Rewritten listings -/

/-- Writes an entry behind others.  A second entry of one name is refused. -/
def append (written : Listing) (name : String) (e : Entry) : Except Failure Listing :=
  if (written.map Prod.fst).contains name then .error .archiveFormat
  else .ok (written ++ [(name, e)])

/-- Writes an entry behind others under its new name, packed as it is; one without a new name is
left out.  The entry must not be missing, and it does not stay locked. -/
def takeOver (newName : String → Option String) (written : Listing) (entry : String × Entry) :
    Except Failure Listing :=
  if entry.2.packed.isNone then .error .archiveFormat
  else
    match newName entry.1 with
    | some name => append written name { entry.2 with locked := false }
    | none => .ok written

/-- Writes the entries of a listing one after another under their new names. -/
def rewrite (newName : String → Option String) (entries : Listing) : Except Failure Listing :=
  entries.foldlM (takeOver newName) []

/-! ## Edits of listings -/

/-- Drops the entries with given names. -/
def removeAll (names : List String) (entries : Listing) : Except Failure Listing :=
  rewrite (fun name => if names.contains name then none else some name) entries

/-- Renames an entry in its place.  An entry that is missing, or a new name that another entry has,
is refused. -/
def rename (old new : String) (entries : Listing) : Except Failure Listing := do
  let renamed ← rewrite (fun name => some (if name == old then new else name)) entries
  if (entries.map Prod.fst).contains old then .ok renamed else .error (.archive (.noEntry old))

/-- Puts an entry at the end, instead of an old one with its name. -/
def add (name text : String) (entries : Listing) : Except Failure Listing := do
  let others ← rewrite (fun other => if other == name then none else some other) entries
  append others name (.ofText text)

/-! ## Archive files -/

/-- The entries of an archive file. -/
def load (path : String) : Action Listing := do
  let d ← get
  if !d.pathExists path then throw (.notFound path)
  match (d.content? path).bind Content.entries? with
  | some entries => pure entries
  | none => throw .archiveFormat

/-- The text of an entry, if there is one of the name. -/
def readEntry (path name : String) : Action (Option String) := do
  match (← load path).lookup name with
  | none => pure none
  | some e =>
    match String.fromUTF8? (← Action.ofExcept e.read) with
    | some s => pure (some s)
    | none => throw .file

/-- Replaces an archive file by an edited one, all at once. -/
def edit (path : String) (change : Listing → Except Failure Listing) : Action PUnit := do
  let edited ← Action.ofExcept (change (← load path))
  Action.write path (.archive edited)

/-- Runs an edit and tells whether it was done. -/
def succeeds (action : Action PUnit) : Action Bool :=
  tryCatch (do action; pure true) fun _ => pure false

/-- Drops entries from an archive file; names of no entry are passed over. -/
def removeEntries (path : String) (names : List String) : Action Bool :=
  succeeds (edit path (removeAll names))

/-- Renames an entry of an archive file. -/
def renameEntry (path old new : String) : Action Bool := succeeds (edit path (rename old new))

/-- Adds a text to an archive file as its last entry. -/
def addEntry (path name text : String) : Action Bool :=
  succeeds (edit path (add name text))

end Cosim.Archive
