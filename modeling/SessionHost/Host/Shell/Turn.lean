import SessionHost.Host.ToolStep

/-!
# The turn of a shell

A shell that has its turn holds its own process and its own state, and may change them and the host.
At the end of the turn it has gone on, has to wait, or has ended. A child is a copy of the shell with
other frames and descriptors; descriptors from sixty on are the shell's own and are never handed on.
-/
namespace SessionHost.Host

open SessionHost.Shell

inductive Outcome where
  | ran
  | waits
  | ended (s : Status)
  /-- The process does something else from now on, and the host knows. -/
  | settled
  deriving DecidableEq, Repr

structure ShellTurn where
  host : Host
  process : Process
  machine : Machine
  outcome : Outcome := .ran

namespace ShellTurn

/-- The turn ends without anything being done. -/
def wait (t : ShellTurn) : ShellTurn := { t with outcome := .waits }

/-- Puts frames on the stack, the first of them uppermost. -/
def push (t : ShellTurn) (fs : List Frame) : ShellTurn := { t with machine := t.machine.push fs }

def pop (t : ShellTurn) : ShellTurn := { t with machine := t.machine.pop }

/-- Puts another frame in place of the uppermost one. -/
def replace (t : ShellTurn) (fs : List Frame) : ShellTurn := t.pop.push fs

def setStatus (t : ShellTurn) (status : Nat) : ShellTurn :=
  { t with machine := { t.machine with status } }

def setChannels (t : ShellTurn) (channels : Descriptors) : ShellTurn :=
  { t with process := { t.process with channels } }

def say (t : ShellTurn) (descriptor : Nat) (text : String) : ShellTurn :=
  if text == "" then t else t.push [.write descriptor (Octets.toBytes text)]

/-- Complains, and sets the status. -/
def complain (t : ShellTurn) (message : String) (status : Nat) : ShellTurn :=
  (t.setStatus status).say 2 (t.machine.complaint message)

/-- Ends the shell, its last handler being run before. -/
def exit (t : ShellTurn) (status : Nat) : ShellTurn :=
  match t.machine.handler? 0 with
  | some text =>
    { t with machine := { t.machine with
        handlers := t.machine.handlers.filter fun h => h.1 != 0
        status
        frames := [.source { chars := text.toList }, .leave status] } }
  | none => { t with outcome := .ended (.exited (status % 256)) }

/-- Complains and ends the shell with a status. -/
def failWith (t : ShellTurn) (message : String) (status : Nat) : ShellTurn :=
  { t with machine := { t.machine with
      status
      frames := [.write 2 (Octets.toBytes (t.machine.complaint message)), .leave status] } }

def fail (t : ShellTurn) (message : String) : ShellTurn := t.failWith message 2

/-- Sets a variable; a shell whose variable may not be changed ends. -/
def assign (t : ShellTurn) (name value : String) : ShellTurn :=
  match Variable.set? t.machine.vars name value with
  | some vars => { t with machine := { t.machine with vars } }
  | none => t.fail s!"{name}: is read only"

def giveBack (t : ShellTurn) (saved : List (String × Option Variable)) : ShellTurn :=
  let vars := saved.foldl (fun vs s =>
    let others := vs.filter fun v => v.name != s.1
    match s.2 with
    | some v => others ++ [v]
    | none => others) t.machine.vars
  { t with machine := { t.machine with vars } }

/-- The variables of these names, as they are now. -/
def saved (t : ShellTurn) (names : List String) : List (String × Option Variable) :=
  names.map fun n => (n, t.machine.vars.find? fun v => v.name == n)

/-- The first descriptor that is never handed on. -/
def privateDescriptors : Nat := 60

def inherited (t : ShellTurn) : Descriptors :=
  t.process.channels.filter fun d => d.1 < privateDescriptors

/-- Starts a child that runs other frames. -/
def fork (t : ShellTurn) (frames : List Frame) (channels : Descriptors) : ShellTurn × Nat :=
  let machine := { t.machine with
    frames
    children := []
    handlers := t.machine.handlers.filter fun h => h.2 == "" }
  let child := { t.process with
    parent := t.process.number
    leads := none
    caught := []
    channels
    activity := .shell machine }
  let (host, n) := t.host.addProcess child
  ({ t with host }, n)

/-- What a child does that runs a program, or what it does in its place: complain and end. -/
def program (t : ShellTurn) (environment : List (String × String)) (name : String)
    (args : List String) : Activity :=
  let searched := ((environment.find? fun e => e.1 == "PATH").map (·.2)).getD
    (":".intercalate Files.searchPath)
  let refusing (message : String) (status : Nat) : Activity :=
    .shell { t.machine with
      frames := [.write 2 (Octets.toBytes (t.machine.complaint s!"{name}: {message}")),
        .leave status]
      handlers := [] }
  match t.host.locate t.process.cwd searched name with
  | .error .permissionDenied => refusing "Permission denied" 127
  | .error _ => refusing "not found" 127
  | .ok path =>
    match t.host.load t.process.cwd environment path name args with
    | .ok activity => activity
    | .error .execFormat => t.host.shellStart t.process.cwd environment path (path :: args)
    | .error .notFound | .error .notDirectory => refusing "not found" 127
    | .error e => refusing e.words 126

/-- The variable in which a shell finds the number of its parent; a parent outside the host is the
server. -/
def parentVariable (parent : Nat) : Variable where
  name := "PPID"
  value := some (toString (if parent = 0 then Host.server else parent))

/-- A process that has just begun to run a program. -/
def begin_ (number parent : Nat) (a : Activity) : Activity :=
  match a with
  | .shell m =>
    let vars := (m.vars.filter fun v => v.name != "PPID") ++ [parentVariable parent]
    .shell { m with self := number, vars }
  | a => a

def launch (t : ShellTurn) (channels : Descriptors) (environment : List (String × String))
    (name : String) (args : List String) : ShellTurn × Nat :=
  let child := { t.process with
    parent := t.process.number
    leads := none
    caught := []
    channels
    environment
    activity := begin_ t.host.next t.process.number (t.program environment name args) }
  let (host, n) := t.host.addProcess child
  ({ t with host }, n)

/-! ## Redirections -/

inductive Resolved where
  | opens (name : String) (access : Access)
  | same (descriptor : Option Nat)
  | here (text : String)
  deriving Repr

/-- The wording of a file that cannot be opened. -/
def openFault (name : String) (access : Access) (e : IoError) : String :=
  match access, e with
  | .read, .notFound => s!"cannot open {name}: No such file"
  | .read, e => s!"cannot open {name}: {e.words}"
  | _, .notFound => s!"cannot create {name}: Directory nonexistent"
  | _, e => s!"cannot create {name}: {e.words}"

/-- Applies one redirection to descriptors. -/
def redirectOne (h : Host) (cwd : Path) (ds : Descriptors) (n : Nat) :
    Resolved → Except String (Host × Descriptors)
  | .opens name access =>
    match h.openFile cwd (Octets.toText name) access with
    | .ok (h, c) => .ok (h, ds.set n c)
    | .error e => .error (openFault name access e)
  | .same none => .ok (h, ds.close n)
  | .same (some m) =>
    match ds.get? m with
    | some c => .ok (h, ds.set n c)
    | none => .error s!"{m}: Bad file descriptor"
  | .here text =>
    let (h, p) := h.addPipe { content := Octets.toBytes text }
    .ok (h, ds.set n (.pipeIn p))

def redirect (h : Host) (cwd : Path) (ds : Descriptors) :
    List (Nat × Resolved) → Except String (Host × Descriptors)
  | [] => .ok (h, ds)
  | (n, r) :: rest => do
    let (h, ds) ← redirectOne h cwd ds n r
    redirect h cwd ds rest

/-- Redirects descriptors of the shell itself. -/
def redirected (t : ShellTurn) (rs : List (Nat × Resolved)) : Except String ShellTurn := do
  let (host, channels) ← redirect t.host t.process.cwd t.process.channels rs
  return { t.setChannels channels with host }

end ShellTurn

end SessionHost.Host
