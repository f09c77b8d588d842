import SessionHost.Session.Mode

/-!
# How a session ended (`session/process`)

Recorded once. A natural end is the program's own; the others were brought about from outside.
-/
namespace SessionHost

/-- How a session ended.
mirrors session/process:95-104 -/
inductive ExitInfo where
  | exited (code : Int)
  | signaled (signal : Int)
  | killed (signal : Int)
  | ioFailed (reason : String)
  deriving DecidableEq, Repr, Inhabited

namespace ExitInfo

/-- mirrors session/process:107-112 -/
def code? : ExitInfo → Option Int
  | exited code => some code
  | _ => none

/-- Whether the program ended by itself.
mirrors session/process:115-117 -/
def isNatural : ExitInfo → Bool
  | exited _ | signaled _ => true
  | killed _ | ioFailed _ => false

/-- mirrors session/mod:380-386 -/
def terminalState (e : ExitInfo) : SessionState := if e.isNatural then .exited else .killed

theorem isTerminal_terminalState (e : ExitInfo) : e.terminalState.isTerminal := by
  unfold terminalState; split <;> rfl

end ExitInfo

end SessionHost
