import SessionHost.Proofs.Scene.Finish
import SessionHost.Session.Registry

/-!
# A registry and everybody who is at work in it

A registry is shared by all who create, look up, kill and reap sessions, and a session by all who are at
work on it, its pump first of all. A place in the registry is taken by a call that creates a session,
handed on to the session that it starts, and given back by whoever holds it when it is not needed any
more: by the call if its program cannot be started, by the pump as one of the steps that end the session,
and by the session itself if it goes out of existence before that.

**The machine.** A `Hall` is a registry with the calls that are under way in it (`Call`) and with the
sessions in existence (`Room`), each of them a whole scene. A session exists from when its program is
started until nobody knows it any more, which is longer than it can be found. `Hall.Step` is one access to
the registry by a call, or one step of anybody in one of the scenes.

The hall keeps a book beside that, which no step looks into: the places are numbered in the order in which
they were taken, and `freed` says of each that was given back how that came (`Release`). Nothing keeps a
place from being entered there twice.
-/
namespace SessionHost

/-- How far a call has come that creates a session.
mirrors session/registry:58-64 -/
inductive Call where
  /-- Has a place, and is about to take a number. -/
  | reserved (slot : Nat)
  /-- Is about to start the program. -/
  | numbered (slot id : Nat)
  /-- Has started the program, and is about to register the session, which has the place now. -/
  | registering (id : Nat)
  deriving DecidableEq, Repr

namespace Call

/-- The place that a call holds. -/
def slot? : Call → Option Nat
  | reserved slot | numbered slot _ => some slot
  | registering _ => none

/-- The number for which a call has no session yet. -/
def number? : Call → Option Nat
  | numbered _ id => some id
  | reserved _ | registering _ => none

/-- The number under which a call is about to register a session. -/
def listing? : Call → Option Nat
  | registering id => some id
  | reserved _ | numbered .. => none

end Call

inductive Release where
  /-- The pump has ended the session of that number. -/
  | finished (id : Nat)
  /-- The program for that number could not be started. -/
  | failed (id : Nat)
  /-- The session of that number went out of existence before its pump had ended it. -/
  | dropped (id : Nat)
  deriving DecidableEq, Repr

inductive CreateAnswer where
  | exhausted (max : Nat)
  | failed (slot id : Nat) (program message : String)
  | created (id : Nat)
  deriving DecidableEq, Repr

namespace CreateAnswer

/-- The answer as `Registry.create` gives it. -/
def result : CreateAnswer → Except SessionError Nat
  | exhausted max => .error (.resourceExhausted max)
  | failed _ _ program message => .error (.spawn program message)
  | created id => .ok id

/-- The number that was used up for nothing. -/
def wasted? : CreateAnswer → Option Nat
  | failed _ id _ _ => some id
  | exhausted _ | created _ => none

end CreateAnswer

structure Room where
  id : Nat
  /-- The place that was handed on to the session. -/
  slot : Nat
  scene : Scene
  /-- The pump was stopped where it stood, and does nothing any more. -/
  stopped : Bool := false

namespace Room

/-- Whether the session still holds its place. -/
def holds (r : Room) : Bool := r.scene.session.holdsSlot

def slot? (r : Room) : Option Nat := if r.holds then some r.slot else none

/-- The session goes on from where it was started. -/
def Begun (r : Room) : Prop :=
  ∃ mode child settings scratch, (Scene.start mode child settings scratch).Reaches r.scene

/-- Nobody has anything left to do on the session. -/
def IsDone (r : Room) : Prop :=
  (∀ i, r.scene.task i = .idle) ∧ (r.stopped = true ∨ ∃ e, r.scene.pump = .finishing e [])

end Room

structure Hall where
  registry : Registry
  /-- The registry itself went out of existence. -/
  closed : Bool := false
  calls : List Call := []
  rooms : List Room := []
  /-- How many places were taken so far. -/
  granted : Nat := 0
  /-- The places that were given back. -/
  freed : List (Nat × Release) := []
  answers : List CreateAnswer := []

namespace Hall

/-- A registry in which nothing has happened. -/
def opening (settings : SessionSettings) : Hall where registry := { settings }

/-- The places that are held, by a call or by a session. -/
def held (s : Hall) : List Nat := s.calls.filterMap Call.slot? ++ s.rooms.filterMap Room.slot?

def places (s : Hall) : Nat := s.registry.settings.maxSessions

/-! ## What may happen -/

section

variable (s : Hall)

/-- A call comes that creates a session.
mirrors session/registry:166-179 -/
def arrive : Hall :=
  match s.registry.reserve? with
  | none => { s with answers := s.answers ++ [.exhausted s.places] }
  | some registry => { s with
      registry, calls := s.calls ++ [.reserved s.granted], granted := s.granted + 1 }

/-- A call takes a number.
mirrors session/registry:60 -/
def number (before after : List Call) (slot : Nat) : Hall := { s with
  registry := s.registry.takeId.1
  calls := before ++ .numbered slot s.registry.takeId.2 :: after }

/-- The program of a call cannot be started. -/
def fail (before after : List Call) (slot id : Nat) (program message : String) : Hall := { s with
  registry := s.registry.release
  calls := before ++ after
  freed := s.freed ++ [(slot, .failed id)]
  answers := s.answers ++ [.failed slot id program message] }

/-- The program of a call is started.
mirrors session/registry:61 -/
def start (before after : List Call) (slot id : Nat) (mode : Mode) (child : Child)
    (scratch : Option Host.Path) : Hall := { s with
  calls := before ++ .registering id :: after
  rooms := s.rooms ++ [{ id, slot, scene := Scene.start mode child s.registry.settings scratch }] }

/-- A call registers its session.
mirrors session/registry:62 -/
def register (before after : List Call) (room : Room) (pump : PumpState) : Hall := { s with
  registry := s.registry.add room.id { session := room.scene.session, pump }
  calls := before ++ after
  answers := s.answers ++ [.created room.id] }

/-- Somebody goes on who is at work on a session. -/
def work (before after : List Room) (room : Room) (t : Scene) (pump : PumpState) : Hall :=
  let registry := s.registry.put room.id { session := t.session, pump }
  let leaves := room.holds && !t.session.holdsSlot
  { s with
    registry := if leaves then registry.release else registry
    rooms := before ++ { room with scene := t } :: after
    freed := if leaves then s.freed ++ [(room.slot, .finished room.id)] else s.freed }

/-- The sessions whose grace period is over cannot be found any more.
mirrors session/registry:81-100 -/
def reap (now : Nat) : Hall := { s with registry := (s.registry.reap now).1 }

def stop (before after : List Room) (room : Room) : Hall :=
  { s with rooms := before ++ { room with stopped := true } :: after }

def close : Hall := { s with registry := { s.registry with entries := [] }, closed := true }

def drop (before after : List Room) (room : Room) : Hall := { s with
  registry := if room.holds then s.registry.release else s.registry
  rooms := before ++ after
  freed := if room.holds then s.freed ++ [(room.slot, .dropped room.id)] else s.freed }

end

/-- Anybody does what is next.
mirrors session/registry:58-109 and 166-179 -/
inductive Step : Hall → Hall → Prop where
  -- a call that creates a session
  | arrive {s : Hall} (ho : s.closed = false) : Step s s.arrive
  | number {s : Hall} (before after : List Call) (slot : Nat)
      (h : s.calls = before ++ .reserved slot :: after) : Step s (s.number before after slot)
  | fail {s : Hall} (before after : List Call) (slot id : Nat) (program message : String)
      (h : s.calls = before ++ .numbered slot id :: after) :
    Step s (s.fail before after slot id program message)
  | start {s : Hall} (before after : List Call) (slot id : Nat) (mode : Mode) (child : Child)
      (scratch : Option Host.Path) (h : s.calls = before ++ .numbered slot id :: after) :
    Step s (s.start before after slot id mode child scratch)
  | register {s : Hall} (before after : List Call) (room : Room) (pump : PumpState)
      (h : s.calls = before ++ .registering room.id :: after) (hr : room ∈ s.rooms) :
    Step s (s.register before after room pump)
  -- a session
  | work {s : Hall} (before after : List Room) (room : Room) (t : Scene) (pump : PumpState)
      (h : s.rooms = before ++ room :: after) (hst : room.scene.Step t)
      (hp : room.stopped = true → t.pump = room.scene.pump) :
    Step s (s.work before after room t pump)
  | stop {s : Hall} (before after : List Room) (room : Room)
      (h : s.rooms = before ++ room :: after) : Step s (s.stop before after room)
  | drop {s : Hall} (before after : List Room) (room : Room)
      (h : s.rooms = before ++ room :: after) (hd : room.IsDone)
      (hu : ∀ p ∈ s.registry.entries, p.1 ≠ room.id) (hc : Call.registering room.id ∉ s.calls) :
    Step s (s.drop before after room)
  -- the registry
  | reap {s : Hall} (now : Nat) : Step s (s.reap now)
  | close {s : Hall} (h : s.calls = []) : Step s s.close

theorem Step.alone {s : Hall} {room : Room} {t : Scene} (h : s.rooms = [room])
    (hr : room.stopped = false) (hst : room.scene.Step t) :
    Step s (s.work [] [] room t .finished) :=
  .work [] [] room t .finished h hst fun hs => by rw [hr] at hs; cases hs

abbrev Reaches : Hall → Hall → Prop := Relation.ReflTransGen Step

theorem Reaches.keeps {P : Hall → Prop} (hP : ∀ s t, P s → Step s t → P t) {s t : Hall}
    (h : Reaches s t) (hs : P s) : P t := by
  induction h with
  | refl => exact hs
  | tail _ hst ih => exact hP _ _ ih hst

end Hall

end SessionHost
