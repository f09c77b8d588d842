import SessionHost.Program.Start
import SessionHost.Session.Pump

/-!
# The registry of sessions (`session/registry`)

A registry knows its sessions by numbers that are given out in order and never twice. It bounds the
number of sessions that have not finished: a place is reserved before a program is started, and given
back when the start fails or the session finishes. A session that has finished can be found for a
grace period and is then reaped.

* `Registry.create` starts a session; `Registry.get?` finds one;
* `Registry.reap` takes away the sessions whose grace period is over;
* `Registry.shutdown` kills all sessions.
-/
namespace SessionHost

structure Entry where
  session : Session
  pump : PumpState
  deriving DecidableEq, Repr

/-- All sessions that can be found.
mirrors session/registry:33-38 -/
structure Registry where
  settings : SessionSettings
  entries : List (Nat × Entry) := []
  nextId : Nat := 1
  /-- How many places are taken. -/
  active : Nat := 0
  deriving Repr

namespace Registry

def size (r : Registry) : Nat := r.entries.length

def find? (r : Registry) (id : Nat) : Option Entry := Host.lookUp r.entries id

/-- mirrors session/registry:66-72 -/
def get? (r : Registry) (id : Nat) : Except SessionError Entry :=
  match r.find? id with
  | some e => .ok e
  | none => .error (.notFound id)

def put (r : Registry) (id : Nat) (e : Entry) : Registry :=
  { r with entries := Host.change r.entries id fun _ => e }

/-- Reserves a place, if one is left.
mirrors session/registry:166-179 -/
def reserve? (r : Registry) : Option Registry :=
  if r.active < r.settings.maxSessions then some { r with active := r.active + 1 } else none

/-- Gives a place back.
mirrors session/registry:22-26 -/
def release (r : Registry) : Registry := { r with active := r.active - 1 }

def takeId (r : Registry) : Registry × Nat := ({ r with nextId := r.nextId + 1 }, r.nextId)

/-- Registers a session whose program has been started. -/
def add (r : Registry) (id : Nat) (e : Entry) : Registry :=
  { r with entries := r.entries ++ [(id, e)] }

/-- A session whose program has been started, with its pump. -/
def begin_ (settings : SessionSettings) (now : Nat) (mode : Mode) (child : Child)
    (scratch : Option Host.Path) : Entry where
  session := (Session.begin_ mode child settings scratch).moveTo .running
  pump := Pump.start settings now

/-- Starts a session. A number is used up even if the program cannot be started.
mirrors session/registry:58-64 -/
def create (h : Host) (r : Registry) (home : Host.Path) (mode : Mode) (l : Launch) :
    Host × Registry × Except SessionError Nat :=
  match r.reserve? with
  | none => (h, r, .error (.resourceExhausted r.settings.maxSessions))
  | some r =>
    let (r, id) := r.takeId
    match l.start? h home mode.wiring r.settings.readChunk with
    | .error e => (h, r.release, .error (.spawn l.program e.message))
    | .ok (h, child) =>
      (h, r.add id (begin_ r.settings h.now mode child l.scratch), .ok id)

/-- Kills the session of that number.
mirrors session/registry:75-77 -/
def kill (h : Host) (r : Registry) (id : Nat) : Host × Registry × Except SessionError ExitInfo :=
  match r.find? id with
  | none => (h, r, .error (.notFound id))
  | some e =>
    let (h, session, exit) := e.session.kill h
    (h, r.put id { e with session }, .ok exit)

/-- Whether the grace period of a session is over.
mirrors session/registry:90-93 -/
def isExpired (settings : SessionSettings) (now : Nat) (s : Session) : Bool :=
  match s.finishedAt with
  | some at_ => settings.gracePeriod ≤ now - at_
  | none => false

/-- Takes away the sessions whose grace period is over, and gives them.
mirrors session/registry:81-109 -/
def reap (r : Registry) (now : Nat) : Registry × List (Nat × Entry) :=
  let expired (e : Nat × Entry) : Bool := isExpired r.settings now e.2.session
  ({ r with entries := r.entries.filter fun e => !expired e }, r.entries.filter expired)

/-- Kills the sessions of these numbers, one after the other.
mirrors session/registry:132-134 -/
def killAll : List Nat → Host → Registry → Host × Registry
  | [], h, r => (h, r)
  | id :: rest, h, r =>
    let (h, r, _) := r.kill h id
    killAll rest h r

/-- Kills every session; says how many were running.
mirrors session/registry:126-139 -/
def shutdown (h : Host) (r : Registry) : Host × Registry × Nat :=
  let running := r.entries.countP fun e => !e.2.session.state.isTerminal
  let (h, r) := killAll (r.entries.map (·.1)) h r
  (h, r, running)

/-- How many steps a pump may take in a round. -/
def pumpSlice : Nat := 4096

/-- Lets the program and the pump of a session go on; a place that the session gives back is free. -/
def serve (h : Host) (r : Registry) (id : Nat) : Host × Registry × Bool :=
  match r.find? id with
  | none => (h, r, false)
  | some e =>
    let (h, child, served) := e.session.child.serve h
    let before := { e.session with child }
    let (h, session, pump, pumped) := Pump.run r.settings pumpSlice h before e.pump false
    let r := r.put id { session, pump }
    let r := if before.holdsSlot && !session.holdsSlot then r.release else r
    (h, r, served || pumped)

def serveAll : List Nat → Host → Registry → Bool → Host × Registry × Bool
  | [], h, r, did => (h, r, did)
  | id :: rest, h, r, did =>
    let (h, r, more) := r.serve h id
    serveAll rest h r (did || more)

/-- When the next pump stops waiting. -/
def deadline? (r : Registry) : Option Nat :=
  r.entries.foldl (fun t e => Host.earlier t e.2.pump.deadline?) none

end Registry

end SessionHost
