import SessionHost.Output.Pacer
import SessionHost.Output.Poll
import SessionHost.Program.Child
import SessionHost.Session.Error
import SessionHost.Session.Settings
import SessionHost.Text.Blank

/-!
# Sessions (`session/mod`)

A session binds a program to the log of its output and to what callers know of it. The program's
output comes in through `Session.ingest` and `Session.onStall`, the end through the steps of
`FinishStep`; callers read the log and send input. Every change of one part is a step of its own, so
that what may happen in between can be told.

* `Session.poll` and `Session.pollFrom` read output;
* `Session.submitInput`, `Session.writeInput?` and `Session.sendCommand` send input;
* `Session.finish` takes the steps that end a session, in their order.
-/
namespace SessionHost

/-- A session.
mirrors session/mod:94-109 -/
structure Session where
  mode : Mode
  state : SessionState := .starting
  /-- How the session ended; recorded once. -/
  exit : Option ExitInfo := none
  finishedAt : Option Nat := none
  done : Bool := false
  child : Child
  /-- Only a debugger has one. -/
  pacer : Option Pacer := none
  log : OutputLog := {}
  cursor : Nat := 0
  outputSinceInput : Bool := false
  /-- Whether the session counts against the limit. -/
  holdsSlot : Bool := true
  /-- The scratch directory that goes when the session goes. -/
  scratch : Option Host.Path := none
  deriving DecidableEq, Repr

/-- What a caller is told of a session at one time.
mirrors session/mod:85-92 -/
structure Snapshot where
  mode : Mode
  state : SessionState
  outputLength : Nat
  exit : Option ExitInfo
  deriving DecidableEq, Repr

namespace Session

/-- A session whose program has just been started.
mirrors session/mod:115-156 -/
def begin_ (mode : Mode) (child : Child) (settings : SessionSettings)
    (scratch : Option Host.Path) : Session where
  mode := mode
  child := child
  pacer := if mode = .debugger then some (Pacer.forMarker settings.promptMarker) else none
  scratch := scratch

/-- Moves to another state, if that is one of the moves of a session.
mirrors session/mod:315-323 -/
def moveTo (s : Session) (next : SessionState) : Session := { s with state := s.state.moveTo next }

/-- Records how the session ended, unless that is already recorded. -/
def record (s : Session) (e : ExitInfo) : Session := { s with exit := some (s.exit.getD e) }

/-- mirrors session/mod:188-197 -/
def snapshot (s : Session) : Snapshot := ⟨s.mode, s.state, s.log.length, s.exit⟩

/-- mirrors session/mod:175-177 -/
def prompt? (s : Session) : Option PromptState := s.pacer.map (·.prompt)

/-! ## Reading output -/

/-- mirrors session/mod:200-202 -/
def readSince (s : Session) (offset : Nat) : Except SessionError (Bytes × Nat) :=
  (s.log.readSince offset).mapError SessionError.ofPastEnd

/-- Polls from an offset that the caller keeps.
mirrors session/mod:218-230 -/
def pollFrom (s : Session) (offset : Nat) : Except SessionError Poll :=
  (s.log.poll offset).mapError SessionError.ofPastEnd

/-- Polls from where the last such poll ended.
mirrors session/mod:205-212 -/
def poll (s : Session) : Except SessionError (Poll × Session) := do
  let p ← s.pollFrom s.cursor
  return (p, { s with cursor := p.cursorAfter s.cursor })

/-! ## Sending input -/

/-- Puts bytes into the queue for the program, if neither the session nor the input is at its end. -/
def enqueue? (s : Session) (bs : Bytes) : Except SessionError Session :=
  match s.child.write? bs with
  | some child => .ok { s with child }
  | none => .error .closedStream

/-- Input was sent: output before it says nothing any more, and the program runs.
mirrors session/mod:254-255 -/
def noteInput (s : Session) : Session := { s with outputSinceInput := false }.moveTo .running

/-- Sends bytes to the program.
mirrors session/mod:249-257 -/
def writeInput? (s : Session) (bs : Bytes) : Except SessionError Session :=
  if s.state.isTerminal then .error .closedStream
  else (s.enqueue? bs).map noteInput

def withPacer (s : Session) (p : Pacer) : Session := { s with pacer := some p }

/-- Sends a command: paced by the prompt for a debugger, and at once for any other program. The
session is given back also when the command is refused, since the pacer may have released one.
mirrors session/mod:261-273 -/
def sendCommand (s : Session) (line : String) : Session × Except SessionError Unit :=
  match s.pacer with
  | none =>
    match s.writeInput? (Pacer.commandBytes line) with
    | .ok s => (s, .ok ())
    | .error e => (s, .error e)
  | some p =>
    match p.send line with
    | none => (s, .error .closedStream)
    | some (p, none) => (s.withPacer p, .ok ())
    | some (p, some bs) =>
      let s := s.withPacer p
      match s.enqueue? bs with
      | .ok s => (s.moveTo .running, .ok ())
      | .error e => (s, .error e)

/-- Sends commands up to the first that is refused.
mirrors session/mod:236-239 -/
def sendCommands (s : Session) : List String → Session × Except SessionError Unit
  | [] => (s, .ok ())
  | line :: rest =>
    match s.sendCommand line with
    | (s, .ok ()) => sendCommands s rest
    | r => r

/-- The lines of a payload that are not blank. -/
def commandLines (payload : String) : List String :=
  (Text.lines payload).filter fun l => Text.trim l != ""

def closedLine (payload : String) : Bytes :=
  let bs := Bytes.ofString payload
  if bs.getLast? = some Bytes.newline then bs else bs ++ [Bytes.newline]

/-- Takes what a caller types: lines of commands for a debugger, and text for any other program.
mirrors session/mod:234-246 -/
def submitInput (s : Session) (payload : String) : Session × Except SessionError Unit :=
  if s.mode = .debugger then s.sendCommands (commandLines payload)
  else
    match s.writeInput? (closedLine payload) with
    | .ok s => (s, .ok ())
    | .error e => (s, .error e)

/-- Closes the input of the program behind what is queued.
mirrors session/mod:276-278 -/
def closeInput (s : Session) : Session := { s with child := s.child.closeInput }

/-! ## Taking output in -/

/-- The state that a prompt stands for.
mirrors session/mod:341-344 -/
def stateOfPrompt : PromptState → SessionState
  | .idle => .awaitingInput
  | .busy => .running

/-- The pacer reads a chunk; what it releases is written, or lost if the program takes none.
mirrors session/mod:335-340 -/
def observe (s : Session) (p : Pacer) (chunk : Bytes) : Session :=
  let (p, released) := p.observe chunk
  let s := s.withPacer p
  let s := match released with
    | some bs => (s.child.write? bs).elim s fun child => { s with child }
    | none => s
  s.moveTo (stateOfPrompt p.prompt)

/-- A chunk of output arrives. A closed log takes none, and then nothing else happens.
mirrors session/mod:325-345 -/
def ingest (s : Session) (chunk : Bytes) : Session :=
  if s.log.closed then s
  else
    let s := { s with log := s.log.append chunk, outputSinceInput := true }
    match s.pacer with
    | none => s.moveTo .running
    | some p => s.observe p chunk

/-- No output has arrived for a while: a program that converses and has said something since it was
last spoken to is taken to wait.
mirrors session/mod:347-354 -/
def onStall (s : Session) : Session :=
  if s.mode = .interactive ∧ s.outputSinceInput ∧ !s.child.hasExited then s.moveTo .awaitingInput
  else s

end Session

/-! ## The end -/

/-- What is done when a session ends, one part at a time.
mirrors session/mod:357-369 -/
inductive FinishStep where
  | record
  | move
  | sealLog
  | closePacer
  | closeInput
  | releaseSlot
  | stamp
  | announce
  deriving DecidableEq, Repr

namespace FinishStep

def all : List FinishStep :=
  [record, move, sealLog, closePacer, closeInput, releaseSlot, stamp, announce]

/-- A session after one of the steps. `e` is how its program ended, and `now` the time. -/
def apply (e : ExitInfo) (now : Nat) (s : Session) : FinishStep → Session
  | record => s.record e
  | move => s.moveTo (s.exit.getD e).terminalState
  | sealLog => { s with log := s.log.close }
  | closePacer => { s with pacer := s.pacer.map Pacer.close }
  | closeInput => s.closeInput
  | releaseSlot => { s with holdsSlot := false }
  | stamp => { s with finishedAt := some now }
  | announce => { s with done := true }

end FinishStep

namespace Session

/-- Ends a session.
mirrors session/mod:356-377 -/
def finish (s : Session) (e : ExitInfo) (now : Nat) : Session :=
  FinishStep.all.foldl (FinishStep.apply e now) s

end Session

end SessionHost
