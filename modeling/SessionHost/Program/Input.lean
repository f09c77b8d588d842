import SessionHost.Bytes

/-!
# Input for a program (`session/stdin`)

Callers put payloads into a queue, and one writer takes them out and writes them, in order, to the
program. Callers never wait. After a payload has been written completely it is flushed. The writer
leaves when callers are done and the queue is empty, or at the first failure; when it has left, the
stream is closed and nothing more is taken.

The writer runs beside the callers, so its work is cut into steps:

* `InputChannel.wish?` is what the writer wants to do next;
* `InputChannel.step?` is the channel after a step, if the writer can take it;
* `InputChannel.send?` and `InputChannel.close` are what callers do.
-/
namespace SessionHost

/-- Where the writer stands. -/
inductive WriterPhase where
  | idle
  /-- A payload is being written; this much of it is left. -/
  | writing (rest : Bytes)
  | flushing
  /-- The writer has stopped and has not said so yet. -/
  | leaving
  /-- The writer has said that it stopped and still holds the stream. -/
  | letting
  | gone
  deriving DecidableEq, Repr, Inhabited

/-- Payloads on their way to a program.
mirrors session/stdin:18-21 -/
structure InputChannel where
  queue : List Bytes := []
  /-- Callers may still send. -/
  accepting : Bool := true
  /-- The writer has not said that it stopped. -/
  served : Bool := true
  phase : WriterPhase := .idle
  deriving DecidableEq, Repr, Inhabited

/-- A step of the writer. -/
inductive WriterStep where
  | take
  /-- The stream took this many bytes, at least one. -/
  | took (n : Nat)
  | writeFailed
  | flushed
  | flushFailed
  | stop
  | announce
  | drop
  deriving DecidableEq, Repr

inductive WriterWish where
  | take
  | write (bytes : Bytes)
  | flush
  | stop
  | announce
  | drop
  deriving DecidableEq, Repr

namespace InputChannel

/-- mirrors session/stdin:76-78 -/
def isOpen (c : InputChannel) : Bool := c.served && c.accepting

/-- Queues a payload; `none` if the stream is closed.
mirrors session/stdin:59-68 -/
def send? (c : InputChannel) (payload : Bytes) : Option InputChannel :=
  if c.isOpen then some { c with queue := c.queue ++ [payload] } else none

/-- Takes no further payload. Those that are queued are still written.
mirrors session/stdin:72-74 -/
def close (c : InputChannel) : InputChannel := { c with accepting := false }

/-- Where the writer stands with this much of a payload left. -/
def phaseFor (rest : Bytes) : WriterPhase := if rest = [] then .flushing else .writing rest

/-- The channel after a step of the writer, if the writer stands where it can take it.
mirrors session/stdin:36-45 -/
def step? (c : InputChannel) : WriterStep → Option InputChannel
  | .take =>
    match c.phase, c.queue with
    | .idle, payload :: queue => some { c with queue, phase := phaseFor payload }
    | _, _ => none
  | .took n =>
    match c.phase with
    | .writing rest =>
      if 0 < n ∧ (rest.take n).length = n then some { c with phase := phaseFor (rest.drop n) } else none
    | _ => none
  | .writeFailed =>
    match c.phase with
    | .writing _ => some { c with phase := .leaving }
    | _ => none
  | .flushed =>
    match c.phase with
    | .flushing => some { c with phase := .idle }
    | _ => none
  | .flushFailed =>
    match c.phase with
    | .flushing => some { c with phase := .leaving }
    | _ => none
  | .stop =>
    match c.phase, c.queue with
    | .idle, [] => if c.accepting then none else some { c with phase := .leaving }
    | _, _ => none
  | .announce =>
    match c.phase with
    | .leaving => some { c with served := false, phase := .letting }
    | _ => none
  | .drop =>
    match c.phase with
    | .letting => some { c with queue := [], phase := .gone }
    | _ => none

/-- What the writer wants to do next, if anything. -/
def wish? (c : InputChannel) : Option WriterWish :=
  match c.phase with
  | .idle =>
    if c.queue ≠ [] then some .take
    else if c.accepting then none
    else some .stop
  | .writing rest => some (.write rest)
  | .flushing => some .flush
  | .leaving => some .announce
  | .letting => some .drop
  | .gone => none

/-- Takes a step that the writer can take; another step changes nothing. -/
def take (c : InputChannel) (s : WriterStep) : InputChannel := (c.step? s).getD c

/-- The bytes of all payloads that have been taken and are not yet written. -/
def outstanding (c : InputChannel) : Nat :=
  c.queue.foldr (fun p n => p.length + 4 + n) 0 + (match c.phase with
    | .idle => 4
    | .writing rest => rest.length + 8
    | .flushing => 7
    | .leaving => 2
    | .letting => 1
    | .gone => 0)

end InputChannel

end SessionHost
