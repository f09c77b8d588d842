import SessionHost.Bytes

/-!
# Output of a program (`session/process`)

A reader takes what a program writes in chunks and queues them. A chunk is never empty. Behind the
last chunk there may be one failure, and then the reader is gone.

* `OutputStream.tryRead` takes all that is queued, without waiting;
* `OutputStream.read?` takes the first thing that is queued; `none` means that a reader would wait.
-/
namespace SessionHost

/-- Something that a reader has queued: a chunk, or why it could not go on. -/
inductive Arrival where
  | chunk (bytes : Bytes)
  | failed (reason : String)
  deriving DecidableEq, Repr

/-- What has arrived and was not taken yet, and whether more can arrive.
mirrors session/process:131-133 -/
structure OutputStream where
  queue : List Arrival := []
  ended : Bool := false
  deriving DecidableEq, Repr, Inhabited

/-- What a read gives.
mirrors session/process:122-128 -/
inductive ReadOutcome where
  | data (bytes : Bytes)
  /-- Nothing has arrived, and more can. -/
  | empty
  /-- Nothing will ever arrive again. -/
  | closed
  deriving DecidableEq, Repr

namespace OutputStream

def arrive (s : OutputStream) (a : Arrival) : OutputStream := { s with queue := s.queue ++ [a] }

/-- Takes queued chunks behind `got`. A failure among them ends the read, and what it had taken is
lost.
mirrors session/process:139-153 -/
def takeAll (got : Bytes) (ended : Bool) :
    List Arrival → Except String ReadOutcome × OutputStream
  | .chunk bs :: rest => takeAll (got ++ bs) ended rest
  | .failed reason :: rest => (.error reason, { queue := rest, ended })
  | [] =>
    let outcome := if got ≠ [] then .data got else if ended then .closed else .empty
    (.ok outcome, { queue := [], ended })

/-- Takes all that is queued, without waiting.
mirrors session/process:137-154 -/
def tryRead (s : OutputStream) : Except String ReadOutcome × OutputStream :=
  takeAll [] s.ended s.queue

/-- Takes the first thing that is queued, or sees that the stream is closed; `none` if a reader would
have to wait.
mirrors session/process:157-163 -/
def read? (s : OutputStream) : Option (Except String ReadOutcome × OutputStream) :=
  match s.queue with
  | .chunk bs :: queue => some (.ok (.data bs), { s with queue })
  | .failed reason :: queue => some (.error reason, { s with queue })
  | [] => if s.ended then some (.ok .closed, s) else none

end OutputStream

end SessionHost
