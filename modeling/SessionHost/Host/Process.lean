import SessionHost.Shell.Machine
import SessionHost.Tools.State

/-!
# Processes

A process runs a shell or a tool. It keeps descriptors, belongs to a group that signals can be sent
to, and leaves a status behind that its parent takes.
-/
namespace SessionHost.Host

inductive Status where
  | exited (code : Nat)
  | signaled (signal : Signal)
  deriving DecidableEq, Repr

namespace Status

/-- The status as a shell counts it. -/
def code : Status → Nat
  | exited code => code
  | signaled s => 128 + s

end Status

inductive Activity where
  | shell (m : Shell.Machine)
  | tool (t : Tools.ToolState)
  deriving Repr

structure Process where
  number : Nat
  /-- The parent; nought if the status is taken by somebody outside the host. -/
  parent : Nat := 0
  group : Nat := 0
  /-- The terminal whose programs it leads. -/
  leads : Option Nat := none
  cwd : Path := []
  channels : Descriptors := []
  environment : List (String × String) := []
  ignored : List Signal := []
  /-- Signals that came and that a handler waits for. -/
  caught : List Signal := []
  stopped : Bool := false
  status : Option Status := none
  activity : Activity
  deriving Repr

namespace Process

def isAlive (p : Process) : Bool := p.status.isNone

/-- Whether the process has a handler for a signal. -/
def handles (p : Process) (s : Signal) : Bool :=
  match p.activity with
  | .shell m => (m.handler? s).isSome
  | .tool _ => false

end Process

end SessionHost.Host
