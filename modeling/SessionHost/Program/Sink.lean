import SessionHost.Program.Input

/-!
# A stream with limits

A sink takes a bounded number of bytes at a time, breaks once it holds a given number of bytes, and
may refuse to be flushed from some time on. It keeps what it took, and is dropped by the writer that
writes to it.

* `Sink.settle` lets a writer go on until it has nothing left to do.
-/
namespace SessionHost

/-- A stream that keeps what is written to it, in pieces that are kept last first. -/
structure Sink where
  mostAtOnce : Option Nat := none
  failsAt : Option Nat := none
  failsFlush : Option Nat := none
  pieces : List Bytes := []
  held : Nat := 0
  flushes : Nat := 0
  dropped : Bool := false
  deriving DecidableEq, Repr, Inhabited

namespace Sink

def taken (s : Sink) : Bytes := s.pieces.reverse.flatten

/-- The front of some bytes up to a limit, which may be missing. -/
def upTo (limit : Option Nat) (bs : Bytes) : Bytes :=
  match limit with
  | some n => bs.take n
  | none => bs

/-- Writes some of the bytes: how many were taken, or `none` for a failure. -/
def write (s : Sink) (bs : Bytes) : Option (Sink × Nat) :=
  let room := s.failsAt.map fun limit => limit - s.held
  if room = some 0 then none
  else
    let piece := upTo room (upTo s.mostAtOnce bs)
    if piece = [] then none
    else some ({ s with pieces := piece :: s.pieces, held := s.held + piece.length }, piece.length)

/-- Flushes, and says whether that went well. A flush that fails is counted all the same. -/
def flush (s : Sink) : Sink × Bool :=
  let s := { s with flushes := s.flushes + 1 }
  (s, match s.failsFlush with
    | some n => decide (s.flushes < n)
    | none => true)

/-- A writer does what it wants to do next. -/
def serve (c : InputChannel) (s : Sink) : WriterWish → InputChannel × Sink
  | .take => (c.take .take, s)
  | .write bs =>
    match s.write bs with
    | some (s, n) => (c.take (.took n), s)
    | none => (c.take .writeFailed, s)
  | .flush =>
    match s.flush with
    | (s, true) => (c.take .flushed, s)
    | (s, false) => (c.take .flushFailed, s)
  | .stop => (c.take .stop, s)
  | .announce => (c.take .announce, s)
  | .drop => (c.take .drop, { s with dropped := true })

/-- A writer goes on for at most so many steps. -/
def serveFor : Nat → InputChannel → Sink → InputChannel × Sink
  | 0, c, s => (c, s)
  | fuel + 1, c, s =>
    match c.wish? with
    | none => (c, s)
    | some w =>
      let (c, s) := serve c s w
      serveFor fuel c s

/-- A writer goes on until it has nothing left to do. -/
def settle (c : InputChannel) (s : Sink) : InputChannel × Sink := serveFor c.outstanding c s

end Sink

end SessionHost
