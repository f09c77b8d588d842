import SessionHost.Server.Notice

/-!
# What goes on by itself in a server

In a turn the programs run, the server does what they have asked it to, the pumps move their output, the
reapers whose time has come reap, and the requests go on that wait for a compiler.

* `Server.ongoing` is how a server goes on;
* `Server.runUntil` lets it go on until something is so, or time is up.
-/
namespace SessionHost.Server

def serveSessions (s : Server) : Server × Bool :=
  let (host, registry, served) := s.registry.serveAll (s.registry.entries.map (·.1)) s.host false
  let (host, kept, keptServed) := s.kept.serveAll (s.kept.entries.map (·.1)) host false
  ({ s with host, registry, kept }, served || keptServed)

/-- A reaper reaps if its time has come, and takes its next time.
mirrors session/registry:148-161 -/
def runReaper (s : Server) (r : Reaper) : Server × Reaper :=
  if r.next ≤ s.host.now then (s.reap.1, { r with next := s.host.now + r.interval }) else (s, r)

def runReaperList : Server → List Reaper → Server × List Reaper
  | s, [] => (s, [])
  | s, r :: rest =>
    let (s, r) := s.runReaper r
    let (s, rest) := runReaperList s rest
    (s, r :: rest)

def runReapers (s : Server) : Server :=
  let (s, reapers) := runReaperList s s.reapers
  let s := { s with reapers }
  match s.ownReaper with
  | none => s
  | some r =>
    let (s, r) := s.runReaper r
    { s with ownReaper := some r }

/-- Everything happens that can happen at this moment. -/
def work (s : Server) : Server × Bool :=
  let (host, ran) := s.host.round
  let (s, served) := ({ s with host }.heed).serveSessions
  let s := s.runReapers.attend
  ((s.stopStep?).getD s, ran || served)

def wake? (s : Server) : Option Nat :=
  let times := (s.reapers ++ s.ownReaper.toList).map (·.next)
    ++ s.jobs.map (·.2.compilation.deadline)
  let sessions := Host.earlier s.registry.deadline? s.kept.deadline?
  (times.map some).foldl Host.earlier (Host.earlier s.host.nextWake? sessions)

def ongoing : Ongoing Server where
  host := (·.host)
  withHost s host := { s with host }
  work := work
  wake? := wake?

/-- Goes on until something is so, for some time at most; says whether it came to be so. -/
def runUntil (s : Server) (done : Server → Bool) (time : Nat) : Server × Bool :=
  ongoing.runUntil done (s.host.now + time) s

def pass (s : Server) (time : Nat) : Server := ongoing.pass time s

/-- The longest time that a request in flight may take, in microseconds. -/
def longestWait (s : Server) : Nat :=
  s.jobs.foldl (fun t j => max t (j.2.compilation.deadline - s.host.now)) 0 + 1

/-- Answers a request, and goes on until that is done. -/
def respond (s : Server) (r : Request) : Server × Response :=
  match s.handle r with
  | (s, .answered a) => (s, a)
  | (s, .inFlight number) =>
    let (s, _) := s.runUntil (fun s => (s.answer? number).isSome) s.longestWait
    (s, (s.answer? number).getD { status := 500 })

end SessionHost.Server
