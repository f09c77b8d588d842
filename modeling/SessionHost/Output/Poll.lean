import SessionHost.Output.Log
import SessionHost.Utf8.Boundary

/-!
# Polling output (`session/mod`)

A poll takes what has been captured from an offset on. While more can follow it holds back a
character that is cut off at the end; once the log is closed it gives out everything, and after that
it says that the output is finished. The reader looks whether the log is closed first and reads it
second, so that a log that closes in between cannot be taken for finished too early.
-/
namespace SessionHost

/-- What a poll answers: bytes and the offset to go on from, or that all output has been read.
mirrors session/mod:76-81 -/
inductive Poll where
  | output (data : Bytes) (offset : Nat)
  | finished
  deriving DecidableEq, Repr

namespace Poll

/-- The answer for `data` read from `offset` on, by a reader who saw the log closed or not before
it read.
mirrors session/mod:222-229 -/
def ofRead (sawClosed : Bool) (offset : Nat) (data : Bytes) : Poll :=
  if data.isEmpty && sawClosed then finished
  else
    let data := if sawClosed then data else data.take (Utf8.completeLength data)
    output data (offset + data.length)

end Poll

/-- Polls from `offset`, for a reader who saw the log closed or not before it read. -/
def OutputLog.pollSeeing (sawClosed : Bool) (log : OutputLog) (offset : Nat) :
    Except PastEnd Poll := do
  let (data, _) ← log.readSince offset
  return Poll.ofRead sawClosed offset data

/-- Polls from `offset` with nothing happening in between.
mirrors session/mod:218-230 -/
def OutputLog.poll (log : OutputLog) (offset : Nat) : Except PastEnd Poll :=
  log.pollSeeing log.closed offset

/-- Where a reader goes on who kept its place at `cursor`.
mirrors session/mod:208-210 -/
def Poll.cursorAfter (cursor : Nat) : Poll → Nat
  | .output _ offset => offset
  | .finished => cursor

end SessionHost
