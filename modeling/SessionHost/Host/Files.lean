import SessionHost.Bytes
import SessionHost.Host.IoError

/-!
# Files

A tree of files, given by the list of its places. A path is resolved component by component: every
directory on the way must exist, `.` stays and `..` goes up. The host comes with the directories of
an ordinary system and with a program file for each of its tools.

* `Files.resolve?` finds the place that a path names, whether or not something is there;
* `Files.write?`, `Files.makeDirectory?`, `Files.remove` change the tree.
-/
namespace SessionHost.Host

/-- The components of an absolute path. -/
abbrev Path := List String

namespace Path

def text (p : Path) : String := if p.isEmpty then "/" else p.foldl (fun out c => out ++ "/" ++ c) ""

/-- Whether a written path starts at the root. -/
def isAbsolute (s : String) : Bool := s.toList.head? == some '/'

/-- The components of a written path, the empty ones left out. -/
def components (s : String) : List String := ((s.splitOn "/").filter fun c => c != "")

/-- A further component behind a written path. -/
def join (base name : String) : String :=
  if base == "" then name
  else if base.toList.getLast? == some '/' then base ++ name
  else base ++ "/" ++ name

end Path

inductive Node where
  | directory
  | file (content : Bytes) (executable : Bool)
  | program (name : String)
  | nullDevice
  deriving DecidableEq, Repr

structure Files where
  nodes : List (Path × Node)
  deriving Repr

namespace Files

/-- What stands at a resolved place. -/
def node? (fs : Files) (p : Path) : Option Node :=
  if p.isEmpty then some .directory else (fs.nodes.find? fun n => n.1 == p).map (·.2)

/-- Whether a directory stands at a resolved place. -/
def isDirectory (fs : Files) (p : Path) : Bool := fs.node? p == some .directory

/-- Goes down from a directory along written components. The last one need not exist. -/
def walk? (fs : Files) (at_ : Path) : List String → Except IoError Path
  | [] => .ok at_
  | c :: rest =>
    match fs.node? at_ with
    | none => .error .notFound
    | some .directory =>
      if c == "." then walk? fs at_ rest
      else if c == ".." then walk? fs at_.dropLast rest
      else if c.utf8ByteSize > 255 then .error .nameTooLong
      else walk? fs (at_ ++ [c]) rest
    | some _ => .error .notDirectory

/-- The place that a written path names, seen from the directory `cwd`. -/
def resolve? (fs : Files) (cwd : Path) (s : String) : Except IoError Path :=
  if s == "" then .error .notFound
  else do
    let p ← fs.walk? (if Path.isAbsolute s then [] else cwd) (Path.components s)
    if s.toList.getLast? == some '/' && (fs.node? p).isSome && !fs.isDirectory p then
      .error .notDirectory
    else .ok p

/-- The place that a written path names, and what stands there. -/
def find? (fs : Files) (cwd : Path) (s : String) : Except IoError (Path × Node) := do
  let p ← fs.resolve? cwd s
  match fs.node? p with
  | some n => .ok (p, n)
  | none => .error .notFound

def put (fs : Files) (p : Path) (n : Node) : Files :=
  if fs.nodes.any fun m => m.1 == p then
    { nodes := fs.nodes.map fun m => if m.1 == p then (p, n) else m }
  else { nodes := fs.nodes ++ [(p, n)] }

/-- Takes away a place and all below it. -/
def remove (fs : Files) (p : Path) : Files :=
  { nodes := fs.nodes.filter fun m => !p.isPrefixOf m.1 }

/-- The names in a directory, in the order of their bytes. -/
def list (fs : Files) (p : Path) : List String :=
  let names := fs.nodes.filterMap fun m =>
    if p.isPrefixOf m.1 && m.1.length == p.length + 1 then m.1.getLast? else none
  names.mergeSort fun a b => decide (a ≤ b)

/-- Whether a place is below the directory that shows the processes, in which nobody can make anything. -/
def isFixed (p : Path) : Bool := p.head? == some "proc"

/-- Checks that a file can be created or changed at a resolved place. -/
def checkWritable (fs : Files) (p : Path) : Except IoError Unit :=
  match fs.node? p with
  | some .directory => .error .isDirectory
  | some _ => .ok ()
  | none =>
    if isFixed p then .error .notFound
    else match fs.node? p.dropLast with
    | some .directory => .ok ()
    | some _ => .error .notDirectory
    | none => .error .notFound

/-- Writes a whole file; one that exists keeps its permission. -/
def write? (fs : Files) (p : Path) (content : Bytes) : Except IoError Files := do
  fs.checkWritable p
  match fs.node? p with
  | some (.file _ executable) => return fs.put p (.file content executable)
  | some .nullDevice => return fs
  | _ => return fs.put p (.file content false)

def read? (fs : Files) (cwd : Path) (s : String) : Except IoError Bytes := do
  match ← fs.find? cwd s with
  | (_, .directory) => .error .isDirectory
  | (_, .file content _) => return content
  | (_, .program _) => return []
  | (_, .nullDevice) => return []

def makeDirectory? (fs : Files) (p : Path) : Except IoError Files :=
  if (fs.node? p).isSome then .error .alreadyExists
  else if isFixed p then .error .notFound
  else match fs.node? p.dropLast with
    | some .directory => .ok (fs.put p .directory)
    | some _ => .error .notDirectory
    | none => .error .notFound

/-- Makes the directories of a path that are missing, outermost first. -/
def makeDirectories? (fs : Files) (at_ : Path) : List String → Except IoError (Files × Path)
  | [] => .ok (fs, at_)
  | c :: rest =>
    if c == "." then makeDirectories? fs at_ rest
    else if c == ".." then makeDirectories? fs at_.dropLast rest
    else
      let p := at_ ++ [c]
      match fs.node? p with
      | some .directory => makeDirectories? fs p rest
      | some _ => .error (if rest.isEmpty then .alreadyExists else .notDirectory)
      | none =>
        match fs.makeDirectory? p with
        | .ok fs => makeDirectories? fs p rest
        | .error e => .error e

/-- The tools of the host, which its program directories hold. -/
def tools : List String :=
  ["sh", "dash", "basename", "cat", "chmod", "cp", "cut", "dirname", "echo", "env", "false", "grep",
   "head", "ls", "mkdir", "mv", "od", "printf", "pwd", "rev", "rm", "rmdir", "seq", "sleep", "sort",
   "stty", "tail", "tee", "test", "touch", "tr", "true", "uniq", "wc", "yes", "["]

/-- The directories in which a program is looked for by its name. -/
def searchPath : List String :=
  ["/usr/local/sbin", "/usr/local/bin", "/usr/sbin", "/usr/bin", "/sbin", "/bin"]

def initial : Files :=
  let directories := ["/bin", "/dev", "/etc", "/home", "/proc", "/root", "/sbin", "/tmp", "/usr", "/usr/bin",
    "/usr/local", "/usr/local/bin", "/usr/local/sbin", "/usr/sbin", "/var", "/var/tmp"]
  { nodes :=
      directories.map (fun d => (Path.components d, Node.directory))
        ++ tools.map (fun t => (["bin", t], Node.program t))
        ++ tools.map (fun t => (["usr", "bin", t], Node.program t))
        ++ [(["dev", "null"], .nullDevice),
            (["etc", "passwd"], .file (Bytes.ofString "root:x:0:0:root:/root:/bin/sh\n") false)] }

end Files

end SessionHost.Host
