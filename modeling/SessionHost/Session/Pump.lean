import SessionHost.Session.Kill

/-!
# The pump of a session (`session/mod`)

A pump moves output from the stream of a program into the log of its session until the program is
gone. It prefers output to everything else: only when nothing is queued does it look whether the
program has ended. Survivors of a program may hold the stream open after its end; the pump then goes
on as long as output keeps coming without a gap as long as the linger window.

* `Pump.step?` is what a pump does next; `none` means that it has to wait;
* `PumpState.deadline?` is until when it waits at most.
-/
namespace SessionHost

/-- Where a pump stands.
mirrors session/mod:394-416 -/
inductive PumpState where
  /-- Waits for output, or for the end of the program; silence up to `deadline` is a stall. -/
  | reading (deadline : Nat)
  /-- The stream is closed and the status of the program is not known yet. -/
  | awaitingExit
  /-- The program has ended and somebody may still write. -/
  | lingering (exit : ExitInfo) (deadline : Nat)
  | finishing (exit : ExitInfo)
  | finished
  deriving DecidableEq, Repr

/-- Until when a pump waits at most. -/
def PumpState.deadline? : PumpState → Option Nat
  | .reading d => some d
  | .lingering _ d => some d
  | _ => none

namespace Pump

/-- The length of silence that counts as a stall; at least the shortest that a clock tells. -/
def stallWindow (settings : SessionSettings) : Nat :=
  max settings.inputGrace (SessionSettings.milliseconds 1)

def start (settings : SessionSettings) (now : Nat) : PumpState :=
  .reading (now + stallWindow settings)

def withStream (s : Session) (stream : OutputStream) : Session :=
  { s with child := { s.child with stream } }

/-- What a pump does while its program may be alive.
mirrors session/mod:396-413 -/
def read? (settings : SessionSettings) (h : Host) (s : Session) (deadline : Nat) :
    Option (Host × Session × PumpState) :=
  match s.child.stream.read? with
  | some (.ok (.data chunk), stream) =>
    some (h, (withStream s stream).ingest chunk, .reading (h.now + stallWindow settings))
  | some (.ok _, stream) => some (h, withStream s stream, .awaitingExit)
  | some (.error reason, stream) =>
    some ((s.child.kill h).1, withStream s stream, .finishing (.ioFailed reason))
  | none =>
    match s.child.published with
    | some e => some (h, s, .lingering e (h.now + settings.exitLinger))
    | none =>
      if deadline ≤ h.now then some (h, s.onStall, .reading (h.now + stallWindow settings)) else none

/-- What a pump does after its program has ended.
mirrors session/mod:418-422 -/
def linger? (settings : SessionSettings) (h : Host) (s : Session) (e : ExitInfo) (deadline : Nat) :
    Option (Host × Session × PumpState) :=
  match s.child.stream.read? with
  | some (.ok (.data chunk), stream) =>
    some (h, (withStream s stream).ingest chunk, .lingering e (h.now + settings.exitLinger))
  | some (_, stream) => some (h, withStream s stream, .finishing e)
  | none => if deadline ≤ h.now then some (h, s, .finishing e) else none

/-- What a pump does next.
mirrors session/mod:394-416 -/
def step? (settings : SessionSettings) (h : Host) (s : Session) :
    PumpState → Option (Host × Session × PumpState)
  | .reading deadline => read? settings h s deadline
  | .awaitingExit => s.child.published.map fun e => (h, s, .finishing e)
  | .lingering e deadline => linger? settings h s e deadline
  | .finishing e => some (h, s.finish e h.now, .finished)
  | .finished => none

/-- A pump goes on for at most so many steps, until it has to wait. -/
def run (settings : SessionSettings) :
    Nat → Host → Session → PumpState → Bool → Host × Session × PumpState × Bool
  | 0, h, s, p, did => (h, s, p, did)
  | fuel + 1, h, s, p, did =>
    match step? settings h s p with
    | none => (h, s, p, did)
    | some (h, s, p) => run settings fuel h s p true

end Pump

end SessionHost
