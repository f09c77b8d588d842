import SessionHost.Proofs.Config.Enforced
import SessionHost.Server.Turn

/-!
# Requests and sessions while settings come and go

A server is told its settings at its start, and they may be loaded again at any time. A request to run a
program looks at the settings once, and then makes a directory, has its program compiled and starts it,
which may take as long as a compiler may be at work. Sessions go by the settings of the registry, which has
them from the start.

**The machine.** A `Workshop` is a server with the reloads that are under way in its store, and with the
requests to run programs (`Run`). Each of them goes on by stages (`Run.Goes`): it makes its directory, starts
the compiler, collects what that says until it is done or time is up, starts what was built, and gives it its
first input. Between any two stages settings may be loaded and put in force, by anybody and any number of
times, sessions may be created, used, killed and reaped, and everything else, which is about the host, the
reapers and the answers, may change at will (`Server.Aside`).

**The book.** No stage looks into it: what had happened to the store before a request looked at the settings,
and what the request has asked the system for (`Demand`).
-/
namespace SessionHost

open Host (Path)

/-! ## Compiling, one part after the other -/

namespace Compilation

/-- The command that compiles a program in a directory. -/
def command (tools : ToolchainConfig) (r : BuildRequest) (withSymbols : Bool) (directory : String) :
    Launch where
  program := Toolchain.compilerPath tools r.language r.compiler
  args := Toolchain.compileArgs (Path.join directory r.language.sourceName)
    (Path.join directory "main.out") withSymbols r.options

def product (directory : String) (place : Path) : Build :=
  { directory, place, binary := Path.join directory "main.out" }

/-- Writes the source into a directory and starts the compiler, for so many seconds at most.
mirrors toolchain/mod:151-165 -/
def startIn? (h : Host) (l : Launch) (seconds : Nat) (r : BuildRequest) (directory : String)
    (place : Path) : Except BuildError Compilation × Host :=
  let failed (e : BuildError) : Except BuildError Compilation × Host := (.error e, Scratch.remove h place)
  match h.files.write? (place ++ [r.language.sourceName]) (Bytes.ofString r.source) with
  | .error e => failed (.directory e.message)
  | .ok files =>
    let h := { h with files }
    let env := l.environment []
    match l.checkTexts >>= fun _ => l.activity h place env false with
    | .error e => failed (.compilerUnavailable l.program e.message)
    | .ok a =>
      let (h, out) := h.addPipe { readOutside := true }
      let (h, err) := h.addPipe { readOutside := true }
      let channels := [(0, .null), (1, .pipeOut out), (2, .pipeOut err)]
      let (h, process) := h.addProcess (Launch.process h place env channels a)
      (.ok { build := product directory place, process, out, err, seconds
             deadline := h.now + seconds * 1000000 }, h)

theorem start_eq (h : Host) (home : Path) (tools : ToolchainConfig) (r : BuildRequest)
    (withSymbols : Bool) : start? h home tools r withSymbols =
      match Scratch.make? h home tools.workDir with
      | .error e => (.error (.directory e.message), h)
      | .ok (h, directory, place) =>
        startIn? h (command tools r withSymbols directory) tools.buildTimeoutSeconds r directory place :=
  rfl

end Compilation

/-! ## A request to run a program -/

inductive Demand where
  /-- A directory in some place, or in the place for temporary files. -/
  | directory (parent : Option String)
  /-- A compiler, for some seconds from some time on. -/
  | compiler (l : Launch) (seconds since : Nat)
  | program (l : Launch)
  deriving DecidableEq, Repr

/-- How far a request has come. Once it has looked at the settings it keeps those on tools. -/
inductive RunStage where
  | asked
  | equipped (tools : ToolchainConfig)
  | housed (tools : ToolchainConfig) (directory : String) (place : Path)
  | compiling (tools : ToolchainConfig) (c : Compilation)
  | built (tools : ToolchainConfig) (b : Build)
  /-- The session of that number was started. -/
  | created (id : Nat)
  | answered (r : Except ApiError Nat)

structure Run where
  mode : Mode
  request : BuildRequest
  args : String
  stdin : String
  stage : RunStage := .asked
  /-- What had happened to the store before the request looked at the settings. -/
  before : List StoreEvent := []
  demands : List Demand := []

namespace Run

def at_ (run : Run) (stage : RunStage) : Run := { run with stage }

def demand (run : Run) (d : Demand) : Run := { run with demands := run.demands ++ [d] }

/-- The command of the compiler for a request. -/
def command (run : Run) (tools : ToolchainConfig) (directory : String) : Launch :=
  Compilation.command tools run.request (run.mode = .debugger) directory

section

variable (run : Run) (s : Server) (tools : ToolchainConfig)

/-- Makes the directory.
mirrors toolchain/mod:150 and 201-211 -/
def house : Server × Run :=
  let parent := tools.workDir
  let run := run.demand (.directory parent)
  match Scratch.make? s.host s.home parent with
  | .error e => (s, run.at_ (.answered (.error (.build (.directory e.message)))))
  | .ok (host, directory, place) => ({ s with host }, run.at_ (.housed tools directory place))

/-- Starts the compiler.
mirrors toolchain/mod:151-165 -/
def compile (directory : String) (place : Path) : Server × Run :=
  let l := run.command tools directory
  let seconds := tools.buildTimeoutSeconds
  let run := run.demand (.compiler l seconds s.host.now)
  match Compilation.startIn? s.host l seconds run.request directory place with
  | (.error e, host) => ({ s with host }, run.at_ (.answered (.error (.build e))))
  | (.ok c, host) => ({ s with host }, run.at_ (.compiling tools c))

/-- Collects what the compiler says, until it is done or time is up.
mirrors toolchain/mod:164-183 -/
def collect (c : Compilation) : Server × Run :=
  let (host, c) := c.serve s.host
  match c.result? host with
  | none => ({ s with host }, run.at_ (.compiling tools c))
  | some (.error e, host) => ({ s with host }, run.at_ (.answered (.error (.build e))))
  | some (.ok b, host) => ({ s with host }, run.at_ (.built tools b))

/-- Starts what was built.
mirrors server/router:110-112 -/
def launch (b : Build) : Server × Run :=
  let l := Toolchain.launch tools b run.mode run.args
  let run := run.demand (.program l)
  match s.create run.mode l with
  | (s, .error e) => (s, run.at_ (.answered (.error (.session e))))
  | (s, .ok id) => (s, run.at_ (.created id))

/-- Gives a program its first input.
mirrors server/router:113-114 -/
def deliver (id : Nat) : Server × Run :=
  match s.find id with
  | .error e => (s, run.at_ (.answered (.error e)))
  | .ok entry =>
    (s.putSession id (Server.deliverFirst entry.session run.stdin), run.at_ (.answered (.ok id)))

end

inductive Goes (s : Server) (r : Run) : Server × Run → Prop where
  | house (tools : ToolchainConfig) (h : r.stage = .equipped tools) : Goes s r (r.house s tools)
  | compile (tools : ToolchainConfig) (directory : String) (place : Path)
      (h : r.stage = .housed tools directory place) : Goes s r (r.compile s tools directory place)
  | collect (tools : ToolchainConfig) (c : Compilation) (h : r.stage = .compiling tools c) :
    Goes s r (r.collect s tools c)
  | launch (tools : ToolchainConfig) (b : Build) (h : r.stage = .built tools b) :
    Goes s r (r.launch s tools b)
  | deliver (id : Nat) (h : r.stage = .created id) : Goes s r (r.deliver s id)

end Run

/-! ## The machine -/

/-- What anybody may do with a session. -/
inductive Session.Call (h : Host) (s : Session) : Host → Session → Prop where
  | poll (p : Poll) (t : Session) (hp : s.poll = .ok (p, t)) : Call h s h t
  | submit (payload : String) : Call h s h (s.submitInput payload).1
  | write (bs : Bytes) (t : Session) (hw : s.writeInput? bs = .ok t) : Call h s h t
  | command (line : String) : Call h s h (s.sendCommand line).1
  | closeInput : Call h s h s.closeInput
  | kill : Call h s (s.kill h).1 (s.kill h).2.1

namespace Server

/-- Nothing changes of what a server was told at its start, of its store and of its sessions. -/
structure Aside (s t : Server) : Prop where
  store : t.store = s.store
  registry : t.registry = s.registry
  kept : t.kept = s.kept
  bindAddr : t.bindAddr = s.bindAddr
  reapInterval : t.reapInterval = s.reapInterval
  shutdownTimeout : t.shutdownTimeout = s.shutdownTimeout

/-- One session that can be found goes on. -/
def serveOne (s : Server) (id : Nat) : Server :=
  { s with host := (s.registry.serve s.host id).1, registry := (s.registry.serve s.host id).2.1 }

/-- One session goes on that was reaped while somebody held it. -/
def serveKept (s : Server) (id : Nat) : Server :=
  { s with host := (s.kept.serve s.host id).1, kept := (s.kept.serve s.host id).2.1 }

end Server

structure Workshop where
  server : Server
  /-- The reloads that have loaded settings and not put them in force yet, by their holders. -/
  underWay : Nat → Option (FileState × Config) := fun _ => none
  /-- What has happened to the store. -/
  history : List StoreEvent := []
  runs : Nat → Option Run := fun _ => none

namespace Workshop

/-- A server that has just been made, and that no request has come to. -/
def opening (host : Host) (home : Path) (store : ConfigStore) : Workshop where
  server := .start host home store

section

variable (w : Workshop)

def rules : Enforcement := ⟨w.server.store, w.underWay, w.history⟩

def withRules (r : Enforcement) : Workshop := { w with
  server := { w.server with store := r.store }, underWay := r.underWay, history := r.history }

def withServer (server : Server) : Workshop := { w with server }

def put (i : Nat) (run : Option Run) : Workshop :=
  { w with runs := fun j => if j = i then run else w.runs j }

/-- A request looks at the settings.
mirrors server/router:106 -/
def equip (i : Nat) (run : Run) : Workshop :=
  let config := w.server.store.config
  (w.withRules (w.rules.note (.got i config))).put i
    (some { run with stage := .equipped config.toolchain, before := w.history })

end

/-- Settings are loaded or put in force, a request comes or goes on, or somebody does something else. -/
inductive Step (decode : String → Option Config) : Workshop → Workshop → Prop where
  | settings {w : Workshop} (r : Enforcement) (h : Enforcement.Step decode w.rules r) :
    Step decode w (w.withRules r)
  -- requests to run programs
  | ask {w : Workshop} (i : Nat) (mode : Mode) (request : BuildRequest) (args stdin : String)
      (free : w.runs i = none) : Step decode w (w.put i (some { mode, request, args, stdin }))
  | equip {w : Workshop} (i : Nat) (run : Run) (h : w.runs i = some run) (hs : run.stage = .asked) :
    Step decode w (w.equip i run)
  | goOn {w : Workshop} (i : Nat) (run : Run) (x : Server × Run) (h : w.runs i = some run)
      (hx : run.Goes w.server x) : Step decode w ((w.withServer x.1).put i (some x.2))
  | leave {w : Workshop} (i : Nat) : Step decode w (w.put i none)
  -- sessions
  | create {w : Workshop} (mode : Mode) (l : Launch) :
    Step decode w (w.withServer (w.server.create mode l).1)
  | call {w : Workshop} (id : Nat) (e : Entry) (host : Host) (session : Session)
      (he : w.server.entry? id = .ok e) (hc : e.session.Call w.server.host host session) :
    Step decode w (w.withServer ({ w.server with host }.putSession id session))
  | kill {w : Workshop} (id : Nat) : Step decode w (w.withServer (w.server.kill id).1)
  | serve {w : Workshop} (id : Nat) : Step decode w (w.withServer (w.server.serveOne id))
  | serveKept {w : Workshop} (id : Nat) : Step decode w (w.withServer (w.server.serveKept id))
  | reap {w : Workshop} : Step decode w (w.withServer w.server.reap.1)
  -- everything else
  | aside {w : Workshop} (s : Server) (h : w.server.Aside s) : Step decode w (w.withServer s)

abbrev Reaches (decode : String → Option Config) : Workshop → Workshop → Prop :=
  Relation.ReflTransGen (Step decode)

end Workshop

end SessionHost
