import SessionHost.Proofs.Scene.Step

/-!
# From the program to the log

The output of a program takes two turns on its way into the log: a reader queues what it reads, piece by
piece, and the pump takes the pieces out of the queue. Both go on while anybody else is at work on the
session, and the end of the program becomes known at any time. The pump prefers the queue: only when it
finds nothing there does it look whether the program has ended or has been silent for long.

**The machine.** An `Intake` is a scene with the reader's hand and the pump's stand in its loop
(`Stand`), and with a record of what was read, queued and found. `Intake.Step` is one step of the reader,
of the pump where it turns to the queue, or of anybody in the scene. Silence has no length: a pump that
has found nothing may be told at any time that it has waited long enough.
-/
namespace SessionHost

/-! ## The reader -/

/-- What a read of the output may give instead of bytes. -/
inductive ReadReply where
  /-- Nobody can write any more. -/
  | nothing
  /-- A signal came in between. -/
  | interrupted
  /-- The system's failure that a terminal gives when nobody holds its other end. -/
  | hungUp (reason : String)
  | failed (reason : String)
  deriving DecidableEq, Repr

namespace OutputStream

def finish (s : OutputStream) : OutputStream := { s with ended := true }

/-- What the reader does about a reply that holds no bytes. -/
def heed (wiring : Wiring) (s : OutputStream) : ReadReply → OutputStream
  | .nothing => s.finish
  | .interrupted => s
  | .hungUp reason =>
    if wiring = .terminal then s.finish else (s.arrive (.failed reason)).finish
  | .failed reason => (s.arrive (.failed reason)).finish

end OutputStream

/-! ## The machine -/

inductive Cause where
  /-- Nothing follows in the stream. -/
  | closed
  /-- The reader could not go on. -/
  | failed
  /-- The program has ended and nothing has come for a while. -/
  | silent
  deriving DecidableEq, Repr

inductive Stand where
  | following
  /-- The stream is closed and the status of the program is not known yet. -/
  | awaiting
  /-- The program has ended and somebody may still write. -/
  | lingering (exit : ExitInfo)
  | ending (cause : Cause)
  deriving DecidableEq, Repr

def Stand.reads : Stand → Bool
  | following | lingering _ => true
  | awaiting | ending _ => false

structure Intake where
  scene : Scene
  stand : Stand := .following
  /-- The pump has just found nothing queued, and has not begun to wait. -/
  looked : Bool := false
  /-- What the reader has read and not queued yet. -/
  hand : Option Bytes := none
  /-- All that was read from the program, piece by piece. -/
  heard : List Bytes := []
  /-- All that was queued. -/
  sent : List Bytes := []
  /-- What had been queued when the pump last found nothing. -/
  mark : List Bytes := []
  /-- What had been queued when the pump saw that the program has ended. -/
  atExit : Option (List Bytes) := none
  /-- The ends that the pump has begun. -/
  finishes : List ExitInfo := []

namespace Intake

def start (mode : Mode) (child : Child) (settings : SessionSettings) (scratch : Option Host.Path) :
    Intake where
  scene := Scene.start mode child settings scratch

def stream (i : Intake) : OutputStream := i.scene.session.child.stream

def withStream (i : Intake) (s : OutputStream) : Intake :=
  { i with scene := i.scene.withSession (Pump.withStream i.scene.session s) }

/-- The pump appends a chunk to the log. -/
def takeIn (i : Intake) (chunk : Bytes) : Intake :=
  { i with scene := { i.scene with
      session := { i.scene.session with log := i.scene.session.log.append chunk }
      arrived := i.scene.arrived ++ [chunk]
      pump := .marking chunk } }

def finish (i : Intake) (e : ExitInfo) (c : Cause) : Intake :=
  { i with
    scene := { i.scene with pump := .finishing e FinishStep.all }
    stand := .ending c
    looked := false
    finishes := i.finishes ++ [e] }

def Looks (i : Intake) : Prop := i.scene.pump = .reading ∧ i.stand.reads = true ∧ i.looked = false

/-- Anybody does what is next.
mirrors session/process:484-501 and session/mod:394-422 -/
inductive Step : Intake → Intake → Prop where
  | beside {i : Intake} (t : Scene) (h : i.scene.StepBetween t) : Step i { i with scene := t }
  -- the reader
  | hear {i : Intake} (bs : Bytes) (hh : i.hand = none) (ho : i.stream.ended = false)
      (hne : bs ≠ []) (hl : bs.length ≤ max i.scene.session.child.chunkSize 1) :
    Step i { i with hand := some bs, heard := i.heard ++ [bs] }
  | heed {i : Intake} (r : ReadReply) (hh : i.hand = none) (ho : i.stream.ended = false) :
    Step i (i.withStream (i.stream.heed i.scene.session.child.wiring r))
  | queue {i : Intake} (bs : Bytes) (hh : i.hand = some bs) :
    Step i { i.withStream (i.stream.arrive (.chunk bs)) with hand := none, sent := i.sent ++ [bs] }
  | leave {i : Intake} (bs : Bytes) (e : ExitInfo) (hh : i.hand = some bs)
      (hp : i.scene.pump = .finishing e []) :
    Step i { i.withStream i.stream.finish with hand := none }
  -- the pump looks for output
  | take {i : Intake} (chunk : Bytes) (rest : OutputStream) (hp : i.Looks)
      (hr : i.stream.read? = some (.ok (.data chunk), rest)) :
    Step i ((i.withStream rest).takeIn chunk)
  | close {i : Intake} (rest : OutputStream) (hp : i.Looks) (hs : i.stand = .following)
      (hr : i.stream.read? = some (.ok .closed, rest)) :
    Step i { i.withStream rest with stand := .awaiting }
  | closeLate {i : Intake} (e : ExitInfo) (rest : OutputStream) (hp : i.Looks)
      (hs : i.stand = .lingering e) (hr : i.stream.read? = some (.ok .closed, rest)) :
    Step i ((i.withStream rest).finish e .closed)
  | fail {i : Intake} (reason : String) (rest : OutputStream) (hp : i.Looks)
      (hs : i.stand = .following) (hr : i.stream.read? = some (.error reason, rest)) :
    Step i ((i.withStream rest).finish (.ioFailed reason) .failed)
  | failLate {i : Intake} (e : ExitInfo) (reason : String) (rest : OutputStream) (hp : i.Looks)
      (hs : i.stand = .lingering e) (hr : i.stream.read? = some (.error reason, rest)) :
    Step i ((i.withStream rest).finish e .failed)
  | look {i : Intake} (hp : i.Looks) (hr : i.stream.read? = none) :
    Step i { i with looked := true, mark := i.sent }
  -- the pump has found nothing
  | wait {i : Intake} (hl : i.looked = true) : Step i { i with looked := false }
  | stall {i : Intake} (hl : i.looked = true) (hs : i.stand = .following)
      (hm : i.scene.session.mode = .interactive) (ho : i.scene.session.outputSinceInput = true) :
    Step i { i with scene := { i.scene with pump := .stalling }, looked := false }
  | seeExit {i : Intake} (e : ExitInfo) (hl : i.looked = true) (hs : i.stand = .following)
      (he : i.scene.session.child.published = some e) :
    Step i { i with stand := .lingering e, looked := false, atExit := some i.sent }
  | silent {i : Intake} (e : ExitInfo) (hl : i.looked = true) (hs : i.stand = .lingering e) :
    Step i (i.finish e .silent)
  -- the stream is closed
  | exitKnown {i : Intake} (e : ExitInfo) (hs : i.stand = .awaiting)
      (he : i.scene.session.child.published = some e) :
    Step i (i.finish e .closed)

abbrev Reaches : Intake → Intake → Prop := Relation.ReflTransGen Step

theorem Reaches.keeps {P : Intake → Prop} (hP : ∀ i j, P i → Step i j → P j) {i j : Intake}
    (h : Reaches i j) (hi : P i) : P j := by
  induction h with
  | refl => exact hi
  | tail _ hst ih => exact hP _ _ ih hst

/-- What may happen between two turns of the pump. -/
theorem reaches_of_between (i : Intake) {t : Scene} (h : i.scene.Between t) :
    i.Reaches { i with scene := t } := by
  induction h with
  | refl => exact .refl
  | tail _ hst ih => exact ih.tail (.beside _ hst)

end Intake

end SessionHost
