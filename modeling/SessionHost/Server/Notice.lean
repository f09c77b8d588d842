import SessionHost.Server.Api

/-!
# What a server is told from outside (`server/mod`)

A server that serves can be told to stop, and can be hung up on, by whoever holds it or by a signal. It
loads the settings again when it is hung up on. When it is told to stop it kills its sessions, and then
waits for the requests in flight.

* `Server.hangUp` and `Server.tellToStop`;
* `Server.stopStep?` is the next step of a server that was told to stop;
* `Server.heed` does what signals ask for.
-/
namespace SessionHost.Server

/-- mirrors server/mod:173-176 -/
def reload (s : Server) : Server × Except ConfigError Unit :=
  let (store, r) := s.store.reload s.host.files s.home
  ({ s with store }, r)

/-- Somebody hangs up on the server; only one that serves hears of it.
mirrors server/mod:158-180 -/
def hangUp (s : Server) : Server :=
  match s.phase with
  | .serving _ => s.reload.1
  | _ => s

/-- The server is told to stop.
mirrors server/shutdown:25-47 -/
def tellToStop (s : Server) : Server :=
  match s.phase with
  | .serving _ => { s with manager := s.manager.signal, phase := .stopping, ownReaper := none }
  | _ => s

/-- The next step of a server that was told to stop; `none` if it waits for requests in flight, or has
nothing left to do.
mirrors server/mod:132-151 -/
def stopStep? (s : Server) : Option Server :=
  match s.phase with
  | .stopping => some { s.killAll.1 with phase := .draining }
  | .draining => if s.jobs.isEmpty then some { s with phase := .stopped } else none
  | _ => none

/-- What a signal asks for: the two that end a program stop the server. -/
def obey (s : Server) (signal : Host.Signal) : Server :=
  if signal = Host.Signal.terminate || signal = Host.Signal.interrupt then
    let s := s.tellToStop
    (s.stopStep?).getD s
  else if signal = Host.Signal.hangup then s.hangUp
  else s

/-- Does what the signals ask for that have come. -/
def heed (s : Server) : Server :=
  s.host.asked.foldl obey { s with host := { s.host with asked := [] } }

end SessionHost.Server
