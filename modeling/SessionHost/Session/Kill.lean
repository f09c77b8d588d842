import SessionHost.Session.Basic

/-!
# Killing a session (`session/mod`)

A session is killed once. Whoever kills it looks for a status that the program has left by itself, and
only if there is none sends a signal; what is recorded is what was found. Looking and sending are
separate stages, and the program may end, and its status be taken and made known, between any two of
them.

* `KillStage.step` is one stage, seen with how far the program's end has come at that moment;
* `Session.kill` goes through all stages with nothing happening in between.
-/
namespace SessionHost

/-- What is done next by somebody who kills a session.
mirrors session/mod:288-298 and session/process:274-284 -/
inductive KillStage where
  /-- Is the status known? -/
  | look
  /-- Has the program ended, as far as the system knows? -/
  | peek
  | lookAgain
  | peekAgain
  | signal
  /-- No signal was sent: is the status known by now? -/
  | settle
  deriving DecidableEq, Repr

/-- What a stage comes to: another stage, or what is recorded. `sent` says that a signal went out. -/
inductive KillResult where
  | goOn (stage : KillStage)
  | decided (exit : ExitInfo) (sent : Bool)
  deriving DecidableEq, Repr

namespace KillStage

/-- What is recorded of a session that was ended by force. -/
def byForce : ExitInfo := .killed (Int.ofNat Host.Signal.kill)

/-- One stage.
mirrors session/mod:288-298 and session/process:274-284 -/
def step (fate : Fate) : KillStage → KillResult
  | look =>
    match fate.published? with
    | some e => .decided e false
    | none => .goOn peek
  | peek =>
    match fate.peek? with
    | some e => .decided e false
    | none => .goOn lookAgain
  | lookAgain => if fate.published?.isSome then .goOn settle else .goOn peekAgain
  | peekAgain => if fate.peek?.isSome then .goOn settle else .goOn signal
  | signal => if fate.takesSignal then .decided byForce true else .goOn settle
  | settle => .decided (fate.published?.getD byForce) false

def rank : KillStage → Nat
  | look => 5
  | peek => 4
  | lookAgain => 3
  | peekAgain => 2
  | signal => 1
  | settle => 0

theorem rank_lt_of_step {fate : Fate} {a b : KillStage} (h : a.step fate = .goOn b) :
    b.rank < a.rank := by
  cases a <;> simp only [step] at h
  case settle => cases h
  all_goals split at h <;> cases h <;> decide

/-- All stages from one on, with nothing happening in between: what is recorded, and whether a signal
went out.
mirrors session/mod:285-299 -/
def run (fate : Fate) (k : KillStage) : ExitInfo × Bool :=
  match h : k.step fate with
  | .decided e sent => (e, sent)
  | .goOn next =>
    have := rank_lt_of_step h
    run fate next
termination_by k.rank

end KillStage

namespace Session

/-- Kills a session: gives what is recorded of its end. A session whose end is recorded stays as it
is.
mirrors session/mod:282-305 -/
def kill (h : Host) (s : Session) : Host × Session × ExitInfo :=
  match s.exit with
  | some e => (h, s.moveTo e.terminalState, e)
  | none =>
    let (e, sent) := KillStage.look.run (s.child.fate h)
    let h := if sent then h.signalGroup s.child.process Host.Signal.kill else h
    (h, (s.record e).moveTo e.terminalState, e)

end Session

end SessionHost
