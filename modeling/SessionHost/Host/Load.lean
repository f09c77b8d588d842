import SessionHost.Host.Basic
import SessionHost.Shell.Start

/-!
# Loading programs

A program is found by its path, or by its name in the directories of the search path. What is found
may be a tool of the host, a shell, or a file that names the program which is to run it.

* `Host.locate` finds a program by its name;
* `Host.load` gives what a process does that runs a program.
-/
namespace SessionHost.Host

/-- The environment of a process without one of its own. -/
def baseEnvironment : List (String × String) :=
  [("PATH", ":".intercalate Files.searchPath), ("HOME", "/root")]

def setVariable (env : List (String × String)) (name value : String) : List (String × String) :=
  if env.any fun e => e.1 == name then
    env.map fun e => if e.1 == name then (name, value) else e
  else env ++ [(name, value)]

/-- The names by which a shell can be called. -/
def isShell (tool : String) : Bool := tool == "sh" || tool == "dash"

/-- A shell called `name`, seen from the directory `cwd`. All text is in octets. -/
def shellStart (h : Host) (cwd : Path) (environment : List (String × String)) (name : String)
    (args : List String) : Activity :=
  let read (file : String) : Option String :=
    match h.files.read? cwd (Octets.toText file) with
    | .ok content => some (Octets.ofBytes content)
    | .error _ => none
  let here := Octets.ofText (Path.text cwd)
  .shell (Shell.Machine.start name args (setVariable environment "PWD" here) read)

/-- The program that the first line of a file names, and its argument if it has one. -/
def interpreter? (content : Bytes) : Option (String × Option String) :=
  match Bytes.toOctets (content.takeWhile fun b => b != 10) with
  | '#' :: '!' :: cs =>
    let blank (c : Char) : Bool := c == ' ' || c == '\t'
    let cs := cs.dropWhile blank
    let program := cs.takeWhile fun c => !blank c
    let rest := (cs.drop program.length).dropWhile blank
    let rest := (rest.reverse.dropWhile blank).reverse
    some (String.ofList program, if rest.isEmpty then none else some (String.ofList rest))
  | _ => none

/-- What a process does that runs the program at a path, called `name`. -/
def load (h : Host) (cwd : Path) (environment : List (String × String)) (path name : String)
    (args : List String) : Except IoError Activity := do
  match ← h.files.find? cwd (Octets.toText path) with
  | (_, .directory) => .error .permissionDenied
  | (_, .nullDevice) => .error .permissionDenied
  | (_, .program tool) =>
    if isShell tool then return h.shellStart cwd environment name args
    else return .tool (.start tool args)
  | (_, .file _ false) => .error .permissionDenied
  | (_, .file content true) =>
    match interpreter? content with
    | none => .error .execFormat
    | some (program, argument) =>
      match ← h.files.find? cwd (Octets.toText program) with
      | (_, .program tool) =>
        let args := argument.toList ++ path :: args
        if isShell tool then return h.shellStart cwd environment program args
        else return .tool (.start tool args)
      | _ => .error .permissionDenied

/-- The path of a program: a name with a slash is a path, any other is looked for in the directories
of `searched`. A file that may not be run is passed over, but remembered. -/
def locate (h : Host) (cwd : Path) (searched : String) (name : String) : Except IoError String :=
  if name.toList.contains '/' then .ok name
  else
    let tried := (searched.splitOn ":").map fun dir =>
      let path := Path.join (if dir == "" then "." else dir) name
      (path, h.files.find? cwd (Octets.toText path))
    let runnable := tried.find? fun t => match t.2 with
      | .ok (_, .program _) => true
      | .ok (_, .file _ executable) => executable
      | _ => false
    match runnable with
    | some t => .ok t.1
    | none =>
      if tried.any fun t => match t.2 with
        | .ok (_, .file ..) | .ok (_, .directory) => true
        | _ => false
      then .error .permissionDenied
      else .error .notFound

end SessionHost.Host
