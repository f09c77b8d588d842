import SessionHost.Host.Clock
import SessionHost.Program.Input
import SessionHost.Program.Output
import SessionHost.Session.Exit

/-!
# A program that is being watched (`session/process`)

Three parties work beside the callers for every program: a reader queues what it writes, a writer
hands it its input, and a waiter takes its status when it has ended and then makes it known. Between
these last two steps the program is gone and only the waiter knows how it ended.

* `Child.fate` is how far this has come;
* `Child.serve` lets the three parties go on.
-/
namespace SessionHost

/-- How far a program's end has come.
mirrors session/process:331-343 -/
inductive Fate where
  | alive
  /-- It has ended, and its status can be taken. -/
  | ended (exit : ExitInfo)
  /-- The waiter has taken the status. -/
  | collected (exit : ExitInfo)
  /-- The waiter has made the status known. -/
  | published (exit : ExitInfo)
  deriving DecidableEq, Repr, Inhabited

namespace Fate

/-- The status, if it is known to everybody.
mirrors session/process:217-219 -/
def published? : Fate → Option ExitInfo
  | published e => some e
  | _ => none

/-- The status that somebody can see who asks the system first: it answers until the status is taken,
and from then on only what is known to everybody is.
mirrors session/process:227-255 -/
def peek? : Fate → Option ExitInfo
  | ended e => some e
  | published e => some e
  | alive | collected _ => none

/-- Whether a signal reaches the program. The system takes one for a program whose status has not
been taken. -/
def takesSignal : Fate → Bool
  | alive | ended _ => true
  | collected _ | published _ => false

end Fate

/-- A program that is being watched.
mirrors session/process:167-174 -/
structure Child where
  process : Nat
  wiring : Wiring
  /-- The pipe or the terminal that it writes to. -/
  outlet : Nat
  /-- The pipe or the terminal that it reads. -/
  inlet : Nat
  chunkSize : Nat
  stream : OutputStream := {}
  input : InputChannel := {}
  /-- The status that the waiter has taken. -/
  collected : Option ExitInfo := none
  /-- The status that is known to everybody. -/
  published : Option ExitInfo := none
  deriving DecidableEq, Repr

/-- How a session ended whose program left this status.
mirrors session/process:332-338 and 401-411 -/
def ExitInfo.ofStatus : Host.Status → ExitInfo
  | .exited code => .exited (Int.ofNat code)
  | .signaled s => .signaled (Int.ofNat s)

namespace Child

/-- How far the end of a program has come on a host. -/
def fate (h : Host) (c : Child) : Fate :=
  match c.published, c.collected with
  | some e, _ => .published e
  | none, some e => .collected e
  | none, none =>
    match (h.process? c.process).bind (·.status) with
    | some s => .ended (ExitInfo.ofStatus s)
    | none => .alive

/-- mirrors session/process:221-223 -/
def hasExited (c : Child) : Bool := c.published.isSome

/-- Queues input; `none` if the program has ended or its input is closed.
mirrors session/process:204-209 -/
def write? (c : Child) (bs : Bytes) : Option Child :=
  if c.hasExited then none else (c.input.send? bs).map fun input => { c with input }

/-- mirrors session/process:212-214 -/
def closeInput (c : Child) : Child := { c with input := c.input.close }

/-- Ends the group of a program that has not ended; says whether a signal was sent.
mirrors session/process:273-285 -/
def kill (h : Host) (c : Child) : Host × Bool :=
  if c.hasExited || (c.fate h).peek?.isSome then (h, false)
  else if (c.fate h).takesSignal then (h.signalGroup c.process Host.Signal.kill, true)
  else (h, false)

/-! ## The writer -/

/-- Bytes typed when the input of a terminal is closed: a line end and the sign for the end. -/
def terminalEnd : Bytes := [10, 4]

/-- Writes to what the program reads, from outside. -/
def feed (h : Host) (c : Child) (bs : Bytes) : Host × Host.Delivered :=
  match c.wiring with
  | .terminal => (h.typeAt c.inlet bs, .took bs.length)
  | .pipe =>
    match h.pipe? c.inlet with
    | none => (h, .broken)
    | some p =>
      if !h.isHeld (.pipeIn c.inlet) then (h, .broken)
      else
        let room := Host.Pipe.capacity - p.content.length
        if room = 0 then (h, .full)
        else (h.changePipe c.inlet fun p => { p with content := p.content ++ bs.take room },
          .took (min room bs.length))

def dropStream (h : Host) (c : Child) : Host :=
  match c.wiring with
  | .terminal => h.typeAt c.inlet terminalEnd
  | .pipe => h.changePipe c.inlet fun p => { p with writtenOutside := false }

/-- The writer does what it wants to do next; `none` if the stream takes nothing now. -/
def serveWish (h : Host) (c : Child) : WriterWish → Option (Host × Child)
  | .take => some (h, { c with input := c.input.take .take })
  | .write bs =>
    match feed h c bs with
    | (h, .took n) => some (h, { c with input := c.input.take (.took n) })
    | (_, .full) => none
    | (h, _) => some (h, { c with input := c.input.take .writeFailed })
  | .flush => some (h, { c with input := c.input.take .flushed })
  | .stop => some (h, { c with input := c.input.take .stop })
  | .announce => some (h, { c with input := c.input.take .announce })
  | .drop => some (dropStream h c, { c with input := c.input.take .drop })

/-- The writer goes on for at most so many steps, until it has to wait. -/
def serveWriter : Nat → Host → Child → Bool → Host × Child × Bool
  | 0, h, c, did => (h, c, did)
  | fuel + 1, h, c, did =>
    match c.input.wish? with
    | none => (h, c, did)
    | some w =>
      match serveWish h c w with
      | none => (h, c, did)
      | some (h, c) => serveWriter fuel h c true

/-! ## The reader -/

/-- What the program has written and nobody has read, and whether more can follow. -/
def written (h : Host) (c : Child) : Bytes × Bool :=
  match c.wiring with
  | .terminal =>
    (((h.terminal? c.outlet).map (·.output)).getD [], h.isHeld (.terminal c.outlet))
  | .pipe => (((h.pipe? c.outlet).map (·.content)).getD [], h.isHeld (.pipeOut c.outlet))

def takeWritten (h : Host) (c : Child) : Host :=
  match c.wiring with
  | .terminal => h.changeTerminal c.outlet fun t => { t with output := [] }
  | .pipe => h.changePipe c.outlet fun p => { p with content := [] }

/-- The reader queues all that was written, in chunks, and leaves when nothing can follow.
mirrors session/process:484-501 -/
def serveReader (h : Host) (c : Child) : Host × Child × Bool :=
  if c.stream.ended then (h, c, false)
  else
    let (bs, more) := written h c
    if bs ≠ [] then
      let chunks := (bs.pieces (max c.chunkSize 1)).map Arrival.chunk
      (takeWritten h c, { c with stream := { c.stream with queue := c.stream.queue ++ chunks } }, true)
    else if more then (h, c, false)
    else (h, { c with stream := { c.stream with ended := true } }, true)

/-! ## The waiter -/

/-- The waiter takes the status of a program that has ended, or makes one known that it has taken.
mirrors session/process:330-344 -/
def serveWaiter (h : Host) (c : Child) : Host × Child × Bool :=
  match c.fate h with
  | .alive => (h, c, false)
  | .ended e => (h.reap c.process, { c with collected := some e }, true)
  | .collected e => (h, { c with published := some e }, true)
  | .published _ => (h, c, false)

/-- How many steps the writer may take in a round. -/
def writerSlice : Nat := 256

/-- Lets the three parties go on, and says whether any could do anything. -/
def serve (h : Host) (c : Child) : Host × Child × Bool :=
  let (h, c, read) := c.serveReader h
  let (h, c, wrote) := serveWriter writerSlice h c false
  let (h, c, waited) := c.serveWaiter h
  (h, c, read || wrote || waited)

/-- How a program goes on together with the three parties. -/
def ongoing : Ongoing (Host × Child) where
  host := (·.1)
  withHost x h := (h, x.2)
  work x :=
    let (h, ran) := x.1.round
    let (h, c, served) := x.2.serve h
    ((h, c), ran || served)
  wake? x := x.1.nextWake?

/-- Lets go of a program: it is killed if it is alive, and nobody attends its streams any more.
mirrors session/process:289-293 -/
def abandon (h : Host) (c : Child) : Host :=
  let (h, _) := c.kill h
  match c.wiring with
  | .terminal => h.changeTerminal c.outlet fun t => { t with attended := false }
  | .pipe =>
    let h := h.changePipe c.inlet fun p => { p with writtenOutside := false }
    h.changePipe c.outlet fun p => { p with readOutside := false }

end Child

end SessionHost
