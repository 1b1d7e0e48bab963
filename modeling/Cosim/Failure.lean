import Cosim.Dictionary.Reader
import Cosim.Json.Writer
import Cosim.Model.Description
import Cosim.Span
import Cosim.Text.Quoted

/-!
# Failures

Everything that can go wrong, by its cause.  `Failure.message` words a failure; a failure of an
outer format, such as a damaged archive, has no wording of its own.
-/

namespace Cosim

/-- Why a dictionary file cannot be read. -/
inductive DictionaryError where
  | syntactic (stop : Dictionary.Stop)
  | malformedJson
  | noObject (found : Value)

def DictionaryError.message : DictionaryError → Option String
  | .syntactic stop =>
    some (s!"unexpected input at line {stop.line}: " ++ Text.quoted stop.context)
  | .malformedJson => none
  | .noObject found => some ("expected an object at the top level, found " ++ Json.compact found)

/-- Why an archive cannot be edited. -/
inductive ArchiveError where
  | noEntry (name : String)
  | renaming (entry archive : String)
  | updating (entry archive : String)

def ArchiveError.message : ArchiveError → String
  | .noEntry name => s!"no entry named {name}"
  | .renaming entry archive => s!"could not rename {entry} in {archive}"
  | .updating entry archive => s!"could not update {entry} in {archive}"

/-- How a program ended that did not succeed. -/
inductive ExitStatus where
  | code (n : Nat)
  | signal (number : Nat)

/-- The names of signals, from the first one on; some have none. -/
def signalNames : List String := [
  "HUP", "INT", "QUIT", "ILL", "TRAP", "ABRT", "BUS", "FPE", "KILL", "USR1", "SEGV", "USR2", "PIPE",
  "ALRM", "TERM", "STKFLT", "CHLD", "CONT", "STOP", "TSTP", "TTIN", "TTOU", "URG", "XCPU", "XFSZ",
  "VTALRM", "PROF", "WINCH", "IO", "PWR", "SYS"]

def ExitStatus.text : ExitStatus → String
  | .code n => s!"exit status: {n}"
  | .signal n =>
    match signalNames[n - 1]? with
    | some name => s!"signal: {n} (SIG{name})"
    | none => s!"signal: {n}"

/-- Why an external tool did not do its work. -/
inductive ToolError where
  | noFile (path : String)
  | notStarted (program reason : String)
  | failed (program : String) (status : ExitStatus) (complaint : String)
  | noProduct (program path : String)
  | refused (reason : String)

def ToolError.message : ToolError → String
  | .noFile path => s!"not a file: {path}"
  | .notStarted program reason => s!"could not start {program}: {reason}"
  | .failed program status complaint =>
    s!"{program} exited with {status.text}: " ++ Text.trim complaint
  | .noProduct program path => s!"{program} did not produce {path}"
  | .refused reason => reason

/-- What did not happen in time. -/
inductive TimeoutCause where
  | program (name : String) (limit : Span)
  | results (folder : String) (limit : Span)

def TimeoutCause.message : TimeoutCause → String
  | .program name limit => s!"{name} did not finish within {limit.seconds.plain}s"
  | .results folder limit => s!"no result files appeared in {folder} within {limit.short}"

/-- Why a case cannot be compiled or watched. -/
inductive CaseError where
  | noStructure
  | notSetUp (name : String)
  | invalidFmuPath (path : String)
  | malformedWatch

def CaseError.message : CaseError → String
  | .noStructure => "no systemStructure section"
  | .notSetUp name => s!"case {name} has not been set up"
  | .invalidFmuPath path => s!"invalid FMU path {path}"
  | .malformedWatch => "malformed watchDict"

inductive Failure where
  | notFound (path : String)
  | unsupportedConnection (tag : String)
  | unsupportedFormat (path : String)
  | dictionary (path : String) (error : DictionaryError)
  | case (error : CaseError)
  | description (error : DescriptionError)
  | noDescription (archive entry : String)
  | archive (error : ArchiveError)
  | tool (error : ToolError)
  | timeout (cause : TimeoutCause)
  /-- reading or writing a file failed -/
  | file
  /-- a file is not an archive, or an archive would hold two entries of one name -/
  | archiveFormat
  /-- a table of comma-separated values is malformed -/
  | tableFormat
  /-- an XML document has not the form of its kind -/
  | document

/-- The wording of a failure.  The path of a dictionary is not part of it. -/
def Failure.message : Failure → Option String
  | .notFound path => some s!"File not found: {path}"
  | .unsupportedConnection tag => some s!"Unsupported connection type: {tag}"
  | .unsupportedFormat path => some s!"Unsupported file format: {path}"
  | .dictionary _ error => error.message
  | .case error => some s!"Invalid case: {error.message}"
  | .description error => error.message.map ("Invalid model description: " ++ ·)
  | .noDescription path entry => some s!"Invalid model description: {path} has no {entry}"
  | .archive error => some s!"FMU archive error: {error.message}"
  | .tool error => some s!"External tool failed: {error.message}"
  | .timeout cause => some s!"Timed out: {cause.message}"
  | .file => none
  | .archiveFormat => none
  | .tableFormat => none
  | .document => none

end Cosim
