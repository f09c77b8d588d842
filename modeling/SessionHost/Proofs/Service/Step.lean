import SessionHost.Proofs.Hall.Timed
import SessionHost.Server.Error

/-!
# Requests, sessions and scratch directories

A request to run a program makes a scratch directory, which passes through many hands: the build has it
while the compiler is at work, then the call that creates the session, and then the session. Whoever has it
when something goes wrong removes it. A session exists as long as somebody holds it: it can be found, or is
about to be registered, its pump has not returned, a request is at work on it, or a reap has taken it away
and not let go of it yet. With the last of them it goes, and its directory goes with it.

**The machine.** A `Service` is a hall with the scratch directories that exist and with those who hold one
or hold a session. Requests come (`Comes`), and whatever is under way goes on (`Goes`). To let go of a
session is one step with what follows from it (`LetGo`).

**Hypotheses.** A directory that is made did not exist before, and one that is removed does not exist any
more.

**The book.** No step looks into it: why requests were refused, the sessions that were started with their
directories, those that were reaped, and those that have gone out of existence.
-/
namespace SessionHost

open Host (Path)

/-- Why a request to run a program is answered with an error, and what it had got by then. -/
inductive Refusal where
  /-- It is refused before a directory was made for it, or because none could be made. -/
  | early (error : ApiError)
  /-- There was a directory for it, and no session yet. -/
  | late (dir : Path) (error : ApiError)
  /-- Its session was started, and could not be found any more. -/
  | lost (id : Nat)

namespace Refusal

def error : Refusal → ApiError
  | early e | late _ e => e
  | lost id => .session (.notFound id)

/-- The directory that was made for the request and not handed on. -/
def dir? : Refusal → Option Path
  | late dir _ => some dir
  | early _ | lost _ => none

end Refusal

namespace Room

def scratch? (r : Room) : Option Path := r.scene.session.scratch

def Finished (r : Room) : Prop := ∃ at_, r.scene.session.finishedAt = some at_

end Room

/-- A hall, and the scratch directories of its sessions and of those to come. -/
structure Service where
  hall : Hall
  /-- The scratch directories that exist. -/
  dirs : List Path := []
  /-- Those of the requests for which a compiler is at work. -/
  builds : List Path := []
  /-- Those of the calls that have no session yet, by their places. -/
  launches : List (Nat × Path) := []
  /-- The sessions that requests have created and are about to look up. -/
  seekers : List Nat := []
  /-- Who is at work on which sessions. -/
  guests : List (Nat × Nat) := []
  /-- The sessions that reaps have taken away and not let go of. -/
  hands : List Nat := []
  refusals : List Refusal := []
  started : List (Nat × Path) := []
  reaped : List Nat := []
  gone : List Room := []

namespace Service

/-- A service that no request has come to. -/
def opening (settings : SessionSettings) : Service where hall := .opening settings

inductive Held (s : Service) (room : Room) : Prop where
  | listed (h : room.id ∈ s.hall.keys)
  | registering (h : .registering room.id ∈ s.hall.calls)
  | pump (h : room.stopped = false)
  | guest (i : Nat) (h : (i, room.id) ∈ s.guests)
  | reap (h : room.id ∈ s.hands)

section

variable (s : Service)

def remove (dir : Path) : Service := { s with dirs := s.dirs.erase dir }

def refuse (x : Refusal) : Service := { s with refusals := s.refusals ++ [x] }

/-- A session goes out of existence, and its directory with it. -/
def drop (before after : List Room) (room : Room) : Service := { s with
  hall := s.hall.drop before after room
  dirs := room.scratch?.elim s.dirs s.dirs.erase
  gone := s.gone ++ [room] }

def takeAway (takes : Nat → Bool) : Service :=
  let taken := s.hall.keys.filter takes
  { s with
    hall := { s.hall with registry := { s.hall.registry with
      entries := s.hall.registry.entries.filter fun p => !takes p.1 } }
    hands := s.hands ++ taken
    reaped := s.reaped ++ taken }

end

/-- Somebody has let go of a session. It goes if nobody else holds it. -/
inductive LetGo (s : Service) (id : Nat) : Service → Prop where
  | held (room : Room) (hr : room ∈ s.hall.rooms) (hid : room.id = id) (h : s.Held room) : LetGo s id s
  | last (before after : List Room) (room : Room) (hs : s.hall.rooms = before ++ room :: after)
      (hid : room.id = id) (h : ¬ s.Held room) : LetGo s id (s.drop before after room)

/-- A request comes.
mirrors toolchain/mod:149-151 and server/router:86-112 -/
inductive Comes : Service → Service → Prop where
  | early {s : Service} (e : ApiError) : Comes s (s.refuse (.early e))
  | build {s : Service} (dir : Path) (h : dir ∉ s.dirs) :
    Comes s { s with dirs := s.dirs ++ [dir], builds := s.builds ++ [dir] }
  /-- Somebody comes to be at work on sessions that can be found. -/
  | visit {s : Service} (i : Nat) (ids : List Nat) (h : ∀ id ∈ ids, id ∈ s.hall.keys)
      (free : ∀ id ∈ ids, (i, id) ∉ s.guests) :
    Comes s { s with guests := s.guests ++ ids.map (i, ·) }

/-- Whatever is under way goes on.
mirrors toolchain/mod:149-184, server/router:107-117 and session/registry:58-109 -/
inductive Goes : Service → Service → Prop where
  -- a build
  | buildFails {s : Service} (before after : List Path) (dir : Path) (e : BuildError)
      (h : s.builds = before ++ dir :: after) :
    Goes s (({ s with builds := before ++ after }.remove dir).refuse (.late dir (.build e)))
  | clientLeaves {s : Service} (before after : List Path) (dir : Path)
      (h : s.builds = before ++ dir :: after) :
    Goes s ({ s with builds := before ++ after }.remove dir)
  -- a call that creates a session
  | arrive {s : Service} (before after : List Path) (dir : Path)
      (h : s.builds = before ++ dir :: after) (hl : s.hall.registry.active < s.hall.places) :
    Goes s { s with
      hall := s.hall.arrive
      builds := before ++ after
      launches := s.launches ++ [(s.hall.granted, dir)] }
  | exhausted {s : Service} (before after : List Path) (dir : Path)
      (h : s.builds = before ++ dir :: after) (hl : s.hall.places ≤ s.hall.registry.active) :
    Goes s (({ s with hall := s.hall.arrive, builds := before ++ after }.remove dir).refuse
      (.late dir (.session (.resourceExhausted s.hall.places))))
  | number {s : Service} (before after : List Call) (slot : Nat)
      (h : s.hall.calls = before ++ .reserved slot :: after) :
    Goes s { s with hall := s.hall.number before after slot }
  | fail {s : Service} (before after : List Call) (slot id : Nat) (program message : String)
      (left right : List (Nat × Path)) (dir : Path)
      (h : s.hall.calls = before ++ .numbered slot id :: after)
      (hl : s.launches = left ++ (slot, dir) :: right) :
    Goes s (({ s with
      hall := s.hall.fail before after slot id program message
      launches := left ++ right }.remove dir).refuse (.late dir (.session (.spawn program message))))
  | start {s : Service} (before after : List Call) (slot id : Nat) (mode : Mode) (child : Child)
      (left right : List (Nat × Path)) (dir : Path)
      (h : s.hall.calls = before ++ .numbered slot id :: after)
      (hl : s.launches = left ++ (slot, dir) :: right) :
    Goes s { s with
      hall := s.hall.start before after slot id mode child (some dir)
      launches := left ++ right
      started := s.started ++ [(id, dir)] }
  | register {s : Service} (before after : List Call) (room : Room) (pump : PumpState)
      (h : s.hall.calls = before ++ .registering room.id :: after) (hr : room ∈ s.hall.rooms) :
    Goes s { s with
      hall := s.hall.register before after room pump, seekers := s.seekers ++ [room.id] }
  -- the request that has created a session
  | find {s : Service} (before after : List Nat) (i id : Nat)
      (h : s.seekers = before ++ id :: after) (hk : id ∈ s.hall.keys) (free : (i, id) ∉ s.guests) :
    Goes s { s with seekers := before ++ after, guests := s.guests ++ [(i, id)] }
  | lose {s : Service} (before after : List Nat) (id : Nat)
      (h : s.seekers = before ++ id :: after) (hk : id ∉ s.hall.keys) :
    Goes s ({ s with seekers := before ++ after }.refuse (.lost id))
  -- a session
  | work {s : Service} (before after : List Room) (room : Room) (t : Scene) (pump : PumpState)
      (h : s.hall.rooms = before ++ room :: after) (hst : room.scene.Step t)
      (hp : room.stopped = true → t.pump = room.scene.pump)
      (hg : ∀ i, t.task i ≠ .idle → (i, room.id) ∈ s.guests) :
    Goes s { s with hall := s.hall.work before after room t pump }
  | leave {s t : Service} (before after : List (Nat × Nat)) (i : Nat) (room : Room)
      (h : s.guests = before ++ (i, room.id) :: after) (hr : room ∈ s.hall.rooms)
      (hi : room.scene.task i = .idle)
      (ht : LetGo { s with guests := before ++ after } room.id t) : Goes s t
  | pumpReturns {s t : Service} (before after : List Room) (room : Room) (e : ExitInfo)
      (h : s.hall.rooms = before ++ room :: after) (hp : room.scene.pump = .finishing e [])
      (ht : LetGo { s with hall := s.hall.stop before after room } room.id t) : Goes s t
  -- a reap
  | reap {s : Service} (now : Nat) (takes : Nat → Bool)
      (h : ∀ p ∈ s.hall.registry.entries, takes p.1 = true →
        Registry.isExpired s.hall.registry.settings now p.2.session = true) :
    Goes s (s.takeAway takes)
  | reapLetsGo {s t : Service} (before after : List Nat) (id : Nat)
      (h : s.hands = before ++ id :: after) (ht : LetGo { s with hands := before ++ after } id t) :
    Goes s t

inductive Step (s t : Service) : Prop where
  | comes (h : Comes s t)
  | goes (h : Goes s t)

abbrev Reaches : Service → Service → Prop := Relation.ReflTransGen Step

theorem Reaches.keeps {P : Service → Prop} (hP : ∀ s t, P s → Step s t → P t) {s t : Service}
    (h : Reaches s t) (hs : P s) : P t := by
  induction h with
  | refl => exact hs
  | tail _ hst ih => exact hP _ _ ih hst

end Service

end SessionHost
