import SessionHost.Server.Turn

/-!
# The life of a server (`server/mod`)

A server is bound to its address, serves until it is told to stop, kills its sessions, and waits for
the requests in flight. While it serves it reaps sessions, and loads the settings again when it is hung
up on.

* `Server.bind` and `Server.serve`;
* `Server.stopServing` stops a server and waits until it has stopped.
-/
namespace SessionHost

/-- mirrors server/mod:23-43 -/
inductive ServerError where
  | invalidBindAddr (text : String)
  | bind (address : SocketAddress) (error : IoError)
  | notBound
  deriving DecidableEq, Repr

namespace ServerError

def message : ServerError → String
  | invalidBindAddr text => s!"Invalid bind address '{text}': invalid socket address syntax"
  | bind address error => s!"Failed to bind {address.text}: {error.message}"
  | notBound => "try_bind() must be called before run()"

def kind : ServerError → String
  | invalidBindAddr _ => "InvalidBindAddr"
  | bind .. => "Bind"
  | notBound => "NotBound"

end ServerError

/-- Whether a host has an address of its own for this: the addresses of the loop, and those that stand
for all addresses. -/
def SocketAddress.isLocal : SocketAddress → Bool
  | v4 (127 :: _) _ => true
  | v4 [0, 0, 0, 0] _ => true
  | v6 [0, 0, 0, 0, 0, 0, 0, 0] _ _ => true
  | v6 [0, 0, 0, 0, 0, 0, 0, 1] _ _ => true
  | _ => false

namespace Server

/-- The first port that is given out to a server that asks for none. -/
def freePort : Nat := 40000

/-- Binds the server to the address it was given. Port nought stands for any that is free.
mirrors server/mod:82-97 -/
def bind (s : Server) : Server × Except ServerError SocketAddress :=
  match SocketAddress.parse s.bindAddr with
  | none => (s, .error (.invalidBindAddr s.bindAddr))
  | some a =>
    if a.isLocal then
      let a := if a.port = 0 then a.withPort freePort else a
      ({ s with phase := .bound a }, .ok a)
    else (s, .error (.bind a .addressNotAvailable))

/-- The address that the server is bound to. -/
def address? (s : Server) : Option SocketAddress :=
  match s.phase with
  | .bound a | .serving a => some a
  | _ => none

/-- A server that is bound begins to serve.
mirrors server/mod:115-131 -/
def serve (s : Server) : Server × Except ServerError Unit :=
  match s.phase with
  | .bound a =>
    ({ s with phase := .serving a, ownReaper := some (Reaper.begin_ s.reapInterval s.host.now) }, .ok ())
  | _ => (s, .error .notBound)

/-- Stops the server: the requests in flight are answered first.
mirrors server/mod:132-151 -/
def stopServing (s : Server) : Server :=
  let s := s.tellToStop
  let s := (s.stopStep?).getD s
  let (s, _) := s.runUntil (fun s => s.jobs.isEmpty) s.longestWait
  (s.stopStep?).getD s

/-- Answers a request that comes over the network. It is refused if no network leads to the host, or if
the server does not serve. -/
def respondOverNetwork? (s : Server) (r : Request) : Option (Server × Response) :=
  match s.phase with
  | .serving _ => if s.host.reachable then some (s.respond r) else none
  | _ => none

end Server

end SessionHost
