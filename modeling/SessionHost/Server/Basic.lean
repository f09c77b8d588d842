import SessionHost.Config.Store
import SessionHost.Host.Clock
import SessionHost.Http.Message
import SessionHost.Net.Address
import SessionHost.Server.Shutdown
import SessionHost.Session.Registry
import SessionHost.Toolchain.Compilation

/-!
# The server (`server/mod`)

A server holds the sessions, the settings in force, and the requests that wait for a compiler. What it
is told at its start stays for good: limits and timings of sessions, the address, how often sessions
are reaped. Of the settings in force only those on tools count later, and a request reads them once.

A session that is reaped goes with its scratch directory, unless somebody holds on to it.

* `Server.start` is a server that knows no session;
* `Server.entry?` finds a session, also one that was reaped while somebody held it;
* `Server.reap` takes away the sessions whose grace period is over.
-/
namespace SessionHost

open Host (Path)

/-- Reaps sessions time and again.
mirrors session/registry:142-164 -/
structure Reaper where
  interval : Nat
  /-- When it reaps next. -/
  next : Nat
  deriving DecidableEq, Repr

/-- A request to run a program, for which a compiler is at work. The settings are those that it read
when it began. -/
structure RunJob where
  tools : ToolchainConfig
  mode : Mode
  args : String
  stdin : String
  compilation : Compilation
  deriving DecidableEq, Repr

inductive ServerPhase where
  | idle
  | bound (address : SocketAddress)
  | serving (address : SocketAddress)
  /-- It was told to stop, and has not killed its sessions yet. -/
  | stopping
  /-- Its sessions are killed, and the requests in flight go on to their end. -/
  | draining
  | stopped
  deriving DecidableEq, Repr

/-- A server on a host.
mirrors server/mod:52-61 -/
structure Server where
  host : Host
  /-- The directory that programs start in. -/
  home : Path
  store : ConfigStore
  registry : Registry
  bindAddr : String
  reapInterval : Nat
  shutdownTimeout : Nat
  manager : ShutdownManager := {}
  phase : ServerPhase := .idle
  /-- The reaper that runs as long as the server serves. -/
  ownReaper : Option Reaper := none
  reapers : List Reaper := []
  /-- Requests in flight by their numbers. -/
  jobs : List (Nat × RunJob) := []
  /-- Answers of requests that are no longer in flight. -/
  answers : List (Nat × Response) := []
  nextRequest : Nat := 0
  /-- The sessions that somebody holds on to. -/
  held : List Nat := []
  /-- Sessions that were reaped while somebody held them. -/
  kept : Registry

/-- The first interval of a reaper begins at once; it is never shorter than a clock tells. -/
def Reaper.begin_ (interval now : Nat) : Reaper :=
  ⟨max interval (SessionSettings.milliseconds 1), now⟩

namespace Server

/-- A server that knows no session.
mirrors server/mod:64-79 -/
def start (host : Host) (home : Path) (store : ConfigStore) : Server :=
  let c := store.config
  let settings := SessionSettings.ofConfig c.sessions
  { host, home, store
    registry := { settings }
    bindAddr := c.server.bindAddr
    reapInterval := SessionSettings.milliseconds c.sessions.reapIntervalMs
    shutdownTimeout := SessionSettings.seconds c.server.shutdownTimeoutSeconds
    kept := { settings } }

/-! ## Sessions -/

/-- A session by its number, also one that was reaped while somebody held it. -/
def entry? (s : Server) (id : Nat) : Except SessionError Entry :=
  match s.registry.find? id, s.kept.find? id with
  | some e, _ | none, some e => .ok e
  | none, none => .error (.notFound id)

def put (s : Server) (id : Nat) (e : Entry) : Server :=
  { s with registry := s.registry.put id e, kept := s.kept.put id e }

/-- Puts a session back after a caller changed it. -/
def putSession (s : Server) (id : Nat) (session : Session) : Server :=
  match s.entry? id with
  | .ok e => s.put id { e with session }
  | .error _ => s

/-- Takes away a scratch directory, if there is one. -/
def removeScratch (s : Server) (place : Option Path) : Server :=
  match place with
  | some p => { s with host := Scratch.remove s.host p }
  | none => s

/-- Starts a session. If that fails, what was built for it goes. -/
def create (s : Server) (mode : Mode) (l : Launch) : Server × Except SessionError Nat :=
  let (host, registry, r) := s.registry.create s.host s.home mode l
  let s := { s with host, registry }
  match r with
  | .ok id => (s, .ok id)
  | .error e => (s.removeScratch l.scratch, .error e)

/-- Kills a session that somebody has found. -/
def killSession (s : Server) (id : Nat) : Server × Except SessionError ExitInfo :=
  match s.entry? id with
  | .error e => (s, .error e)
  | .ok e =>
    let (host, session, exit) := e.session.kill s.host
    ({ s with host }.putSession id session, .ok exit)

/-- Kills a session that the registry knows. -/
def kill (s : Server) (id : Nat) : Server × Except SessionError ExitInfo :=
  let (host, registry, r) := s.registry.kill s.host id
  ({ s with host, registry }, r)

/-- Kills all sessions; says how many were running. -/
def killAll (s : Server) : Server × Nat :=
  let (host, registry, n) := s.registry.shutdown s.host
  ({ s with host, registry }, n)

/-- Somebody holds on to a session. -/
def hold (s : Server) (id : Nat) : Server := { s with held := s.held ++ [id] }

/-- A session goes for good, or is kept for who holds on to it. -/
def letGo (s : Server) (id : Nat) (e : Entry) : Server :=
  if s.held.contains id then { s with kept := s.kept.add id e }
  else { s with host := e.session.child.abandon s.host }.removeScratch e.session.scratch

/-- Takes away the sessions whose grace period is over, and says how many there were.
mirrors session/registry:81-109 -/
def reap (s : Server) : Server × Nat :=
  let (registry, gone) := s.registry.reap s.host.now
  let s := gone.foldl (fun s e => s.letGo e.1 e.2) { s with registry }
  (s, gone.length)

end Server

end SessionHost
