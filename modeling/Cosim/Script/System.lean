import Cosim.Disk

/-!
# What a system brings along

Besides the files of a disk there are the folders, devices and programs that every system has.
`System.look` follows a path to any of these, or tells why it leads nowhere.
-/

namespace Cosim.Script

/-- Why a path does not lead to what is wanted. -/
inductive Trouble where
  | missing
  | forbidden
  | notFolder
  | isFolder
  | tooLong
  | wrongForm
  | tooManyArguments
  | noDevice
deriving DecidableEq

namespace Trouble

/-- The number by which a system knows a trouble. -/
def number : Trouble → Nat
  | .missing => 2
  | .noDevice => 6
  | .tooManyArguments => 7
  | .wrongForm => 8
  | .forbidden => 13
  | .notFolder => 20
  | .isFolder => 21
  | .tooLong => 36

def message : Trouble → String
  | .missing => "No such file or directory"
  | .noDevice => "No such device or address"
  | .tooManyArguments => "Argument list too long"
  | .wrongForm => "Exec format error"
  | .forbidden => "Permission denied"
  | .notFolder => "Not a directory"
  | .isFolder => "Is a directory"
  | .tooLong => "File name too long"

/-- The message with the number. -/
def numbered (t : Trouble) : String := s!"{t.message} (os error {t.number})"

end Trouble

/-- A file that is no file of the disk. -/
inductive Device where
  | null
  | zero
  | full
  /-- the terminal, which scripts do not have -/
  | terminal
  /-- a channel of the program that asks -/
  | channel (n : Nat)
deriving DecidableEq

namespace Device

/-- Whether what is read of a device has no end. -/
def isEndless : Device → Bool
  | .zero | .full => true
  | _ => false

/-- The first bytes of a device, of which some have no end. -/
def front (d : Device) : ByteArray :=
  if d.isEndless then ⟨(List.replicate (Nat.pow 2 16) 0).toArray⟩ else .empty

end Device

/-- What a path leads to. -/
inductive Found where
  | folder
  | file (content : Content) (executable : Bool)
  | program (name : String)
  | device (d : Device)
deriving DecidableEq

namespace System

/-- The folders that every system has. -/
def folders : List String := [
  "/bin", "/boot", "/dev", "/dev/fd", "/dev/shm", "/etc", "/home", "/lib", "/media", "/mnt", "/opt",
  "/proc", "/root", "/run", "/sbin", "/srv", "/sys", "/tmp", "/usr", "/usr/bin", "/usr/lib",
  "/usr/local", "/usr/local/bin", "/usr/local/sbin", "/usr/sbin", "/usr/share", "/var", "/var/tmp"]

def devices : List (String × Device) := [
  ("/dev/null", .null), ("/dev/zero", .zero), ("/dev/full", .full), ("/dev/tty", .terminal),
  ("/dev/random", .zero), ("/dev/urandom", .zero), ("/dev/stdin", .channel 0),
  ("/dev/stdout", .channel 1), ("/dev/stderr", .channel 2), ("/dev/fd/0", .channel 0),
  ("/dev/fd/1", .channel 1), ("/dev/fd/2", .channel 2)]

/-- The names of the programs that run scripts. -/
def shells : List String := ["sh", "dash", "bash"]

/-- The names of programs that run other programs. -/
def starters : List String := ["env", "timeout", "nohup", "nice", "setsid", "xargs"]

/-- Programs of which no more is known than that they end well. -/
def silentPrograms : List String := [
  "arch", "awk", "base64", "cksum", "comm", "df", "du", "fold", "groups", "hostname", "id",
  "join", "md5sum", "mktemp", "nl", "nproc", "od", "paste", "printenv", "sha1sum",
  "sha256sum", "shuf", "split", "stat", "stty", "sum", "tty", "users"]

/-- The names of programs. -/
def programs : List String := shells ++ starters ++ silentPrograms ++ [
  "true", "false", "echo", "printf", "sleep", "test", "[", "cat", "head", "tail", "tr", "cp", "mv",
  "rm", "ln", "mkdir", "rmdir", "touch", "chmod", "ls", "basename", "dirname", "pwd", "wc", "seq",
  "expr", "tee", "sort", "uniq", "cut", "yes", "tac", "rev", "cmp", "diff", "grep", "sed", "dd",
  "realpath", "readlink", "date", "sync", "whoami", "uname", "which",
  "find", "truncate", "install", "unlink"]

/-- The folders in which programs stand. -/
def programFolders : List String := ["/usr/local/sbin", "/usr/local/bin", "/usr/sbin", "/usr/bin",
  "/sbin", "/bin"]

/-- What stands at a location. -/
def item? (d : Disk) (l : Location) : Option Found :=
  match d.item? l with
  | some .folder => some .folder
  | some (.file content executable) => some (.file content executable)
  | none =>
    let path := "/" ++ "/".intercalate l
    if folders.contains path then some .folder
    else
      match devices.lookup path, l with
      | some device, _ => some (.device device)
      | none, ["bin", name] => if programs.contains name then some (.program name) else none
      | none, ["usr", "bin", name] => if programs.contains name then some (.program name) else none
      | none, _ => none

/-- The location that segments lead to from another one. -/
def follow (d : Disk) : Location → List String → Except Trouble Location
  | l, [] => .ok l
  | l, s :: segments =>
    match item? d l with
    | none => .error .missing
    | some .folder =>
      if Disk.nameLimit < s.utf8ByteSize then .error .tooLong
      else if s.isEmpty || s == "." then follow d l segments
      else if s == ".." then follow d l.dropLast segments
      else follow d (l ++ [s]) segments
    | some _ => .error .notFolder

/-- The location of a path from a folder, where there may be nothing yet. -/
def locate (d : Disk) (folder path : String) : Except Trouble Location :=
  if path.isEmpty then .error .missing
  else if Disk.pathLimit < path.utf8ByteSize then .error .tooLong
  else follow d [] (Path.segments (d.absolute (Path.join folder path)))

/-- What a path leads to from a folder. -/
def look (d : Disk) (folder path : String) : Except Trouble Found := do
  let l ← locate d folder path
  match item? d l with
  | some found => .ok found
  | none => .error .missing

def isFolder (d : Disk) (folder path : String) : Bool :=
  match look d folder path with
  | .ok .folder => true
  | _ => false

end System

end Cosim.Script
