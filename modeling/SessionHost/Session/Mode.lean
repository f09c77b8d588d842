/-!
# How a session runs, and where it stands (`session/state`)

The mode is fixed when a session is created and decides how its program is wired. The state moves
along `Starting → Running ⇄ AwaitingInput → Exited | Killed`, and a terminal state is never left.

* `Mode.ofRoute?_routeName`: the name shown for a mode is read back as that mode;
* `SessionState.canMoveTo_of_isTerminal`: a terminal state leads nowhere.
-/
namespace SessionHost

/-- How a program's standard streams are wired.
mirrors session/process:30-37 -/
inductive Wiring where
  | pipe
  | terminal
  deriving DecidableEq, Repr, Inhabited

/-- How a session runs: a batch run, a program that converses, or a program under a debugger.
mirrors session/state:11-18 -/
inductive Mode where
  | text
  | interactive
  | debugger
  deriving DecidableEq, Repr, Inhabited

namespace Mode

/-- mirrors session/state:22-28 -/
def routeName : Mode → String
  | text => "text-mode"
  | interactive => "interactive-mode"
  | debugger => "debugger"

def name : Mode → String
  | text => "text"
  | interactive => "interactive"
  | debugger => "debugger"

/-- Reads a mode from a route, in either of its two spellings.
mirrors session/state:43-50 -/
def ofRoute? : String → Option Mode
  | "text-mode" | "text" => some text
  | "interactive-mode" | "interactive" => some interactive
  | "debugger" | "debugger-mode" => some debugger
  | _ => none

def ofName? : String → Option Mode
  | "text" => some text
  | "interactive" => some interactive
  | "debugger" => some debugger
  | _ => none

/-- Programs that converse, and debuggers, want a terminal.
mirrors session/state:32-37 -/
def wiring : Mode → Wiring
  | text => .pipe
  | interactive | debugger => .terminal

@[simp] theorem ofRoute?_routeName (m : Mode) : ofRoute? m.routeName = some m := by
  cases m <;> rfl

@[simp] theorem ofName?_name (m : Mode) : ofName? m.name = some m := by
  cases m <;> rfl

end Mode

/-- Where a session stands. `awaitingInput` is a hint; input is taken in every state that is not
terminal.
mirrors session/state:65-73 -/
inductive SessionState where
  | starting
  | running
  | awaitingInput
  | exited
  | killed
  deriving DecidableEq, Repr, Inhabited

namespace SessionState

def name : SessionState → String
  | starting => "starting"
  | running => "running"
  | awaitingInput => "awaiting-input"
  | exited => "exited"
  | killed => "killed"

def ofName? : String → Option SessionState
  | "starting" => some starting
  | "running" => some running
  | "awaiting-input" => some awaitingInput
  | "exited" => some exited
  | "killed" => some killed
  | _ => none

/-- mirrors session/state:76-78 -/
def isTerminal : SessionState → Bool
  | exited | killed => true
  | starting | running | awaitingInput => false

/-- The moves of a session.
mirrors session/state:80-89 -/
def canMoveTo : SessionState → SessionState → Bool
  | starting, running => true
  | running, awaitingInput => true
  | awaitingInput, running => true
  | running, exited | awaitingInput, exited => true
  | running, killed | awaitingInput, killed => true
  | _, _ => false

/-- The state after an attempt to move: unchanged unless the move is one of the session's moves. -/
def moveTo (s next : SessionState) : SessionState := if s ≠ next ∧ s.canMoveTo next then next else s

theorem canMoveTo_of_isTerminal {s : SessionState} (h : s.isTerminal) (next : SessionState) :
    s.canMoveTo next = false := by
  cases s <;> cases next <;> first | rfl | simp [isTerminal] at h

end SessionState

end SessionHost
