import SessionHost.Host.Channel
import SessionHost.Host.Signal
import SessionHost.Shell.Expand

/-!
# The state of a shell

A shell is a stack of frames, each of which is something that is still to be done, with the variables,
functions and parameters that its commands see. A step takes the uppermost frame, does a little of it,
and puts back what remains. A frame that has to wait leaves the stack as it is.
-/
namespace SessionHost.Shell

open SessionHost.Host (Channel Descriptors Signal)

/-- Something whose words are expanded before it can go on. -/
inductive Job where
  | simple (s : Simple)
  | each (name : String) (words : Option (List Word)) (body : Command)
  | choice (subject : Word) (arms : List (List Word × Command))
  | redirected (c : Command) (redirs : List Redir)
  deriving Repr

inductive LoopPhase where
  /-- The condition is being run; the status of the last body is kept. -/
  | testing (last : Nat)
  | body
  deriving DecidableEq, Repr

inductive Frame where
  /-- The rest of a script. -/
  | source (s : Source)
  /-- A script that is read from a descriptor; what has been read of the next command. -/
  | input (text : String) (ended : Bool)
  | run (c : Command)
  /-- A job and the outputs of the inner scripts in its words that have been run. -/
  | expand (job : Job) (outputs : List String)
  /-- The output of an inner script, run by a child: the descriptor that it is read from, and what
  has been read, in pieces that are kept last first. -/
  | collect (descriptor child : Nat) (got : List Bytes)
  | both (second : Command)
  | either (second : Command)
  | negate
  | branch (body other : Command)
  | loop (until_ : Bool) (condition body : Command) (phase : LoopPhase)
  | each (name : String) (rest : List String) (body : Command)
  /-- Gives the descriptors back that a redirection has changed. -/
  | restore (channels : Descriptors)
  /-- Children that are waited for, the one that gives the status, and its status once it ended. -/
  | await (children : List Nat) (last : Nat) (status : Nat)
  /-- The end of a function: the parameters and variables to give back. -/
  | call (params : List String) (locals : List (String × Option Variable))
  /-- Gives variables back that were set for one command. -/
  | giveBack (vars : List (String × Option Variable))
  /-- Bytes to be written; `blamed` is the command of the shell that complains if they cannot be. -/
  | write (descriptor : Nat) (bytes : Bytes) (blamed : String := "")
  /-- A line that is being read into variables; its characters are kept last first. -/
  | readLine (raw : Bool) (names : List String) (line : List PatternChar) (escaped : Bool)
  /-- The command that waits for background children, or for one that it names. -/
  | waitFor (children : List Nat) (last : Option Nat)
  /-- The end of a handler: the status to give back. -/
  | handled (status : Nat)
  /-- Ends the shell if its last command failed and failures are to end it. -/
  | checked
  | leave (status : Nat)
  deriving Repr

structure Machine where
  name : String := "sh"
  params : List String := []
  vars : List Variable := []
  functions : List (String × Command) := []
  /-- What is run when a signal comes; nought is the end of the shell. -/
  handlers : List (Signal × String) := []
  status : Nat := 0
  /-- The status of the last inner script that was run for the current words. -/
  inner : Nat := 0
  /-- The process that the whole shell runs in. -/
  self : Nat := 0
  background : Option Nat := none
  children : List Nat := []
  endOnFailure : Bool := false
  unsetIsError : Bool := false
  plainNames : Bool := false
  traced : Bool := false
  line : Nat := 1
  frames : List Frame := []
  deriving Repr

namespace Machine

/-- Puts frames on the stack, the first of them uppermost. -/
def push (m : Machine) (fs : List Frame) : Machine := { m with frames := fs ++ m.frames }

def pop (m : Machine) : Machine := { m with frames := m.frames.tail }

def get? (m : Machine) (name : String) : Option String := Variable.find? m.vars name

def environment (m : Machine) : List (String × String) :=
  m.vars.filterMap fun v => if v.exported then v.value.map fun s => (v.name, s) else none

def options (m : Machine) : String :=
  String.ofList ((if m.unsetIsError then ['u'] else []) ++ (if m.traced then ['x'] else [])
    ++ (if m.plainNames then ['f'] else []) ++ (if m.endOnFailure then ['e'] else []))

def view (m : Machine) (files : Host.Files) (cwd : Host.Path) : View where
  name := m.name
  params := m.params
  status := m.status
  pid := m.self
  background := m.background
  options := m.options
  unsetIsError := m.unsetIsError
  plainNames := m.plainNames
  files := files
  cwd := cwd

/-- Whether the status of the current command is asked for by another command. -/
def isTested (m : Machine) : Bool :=
  m.frames.any fun
    | .both _ | .either _ | .negate | .branch .. => true
    | .loop _ _ _ (.testing _) => true
    | _ => false

/-- The text of a handler for a signal, if there is one that is not empty. -/
def handler? (m : Machine) (s : Signal) : Option String :=
  ((m.handlers.find? fun h => h.1 == s).map (·.2)).filter fun t => t != ""

def complaint (m : Machine) (message : String) : String := s!"{m.name}: {m.line}: {message}\n"

end Machine

end SessionHost.Shell
