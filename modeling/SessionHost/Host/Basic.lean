import SessionHost.Host.Process
import SessionHost.Host.Terminal

/-!
# The host

A host has files, pipes, terminals and processes, and a clock that counts microseconds. Its operations
are those that a system offers to programs: to read, to write, to open, to start another process, to
send a signal, to end. None of them waits: an operation that cannot be done now says so, and is tried
again later.

* `Host.receive` and `Host.deliver` move bytes through a channel;
* `Host.signal` and `Host.finish` end processes.
-/
namespace SessionHost

structure Host where
  now : Nat := 0
  files : Host.Files
  pipes : List (Nat × Host.Pipe) := []
  terminals : List (Nat × Host.Terminal) := []
  openings : List (Nat × Host.Opening) := []
  processes : List Host.Process := []
  /-- The next number for a process, pipe, terminal or opening. -/
  next : Nat := 100
  /-- Whether a network leads to the host. -/
  reachable : Bool := false
  /-- What programs have sent to the server, and it has not heeded yet. -/
  asked : List Host.Signal := []
  deriving Repr

namespace Host

/-- The number of the process that is the server. It is the parent of the programs that the server
starts, and is not one of the processes of the host. -/
def server : Nat := 1

/-! ## Tables -/

/-- A value of a table of numbered things. -/
def lookUp {α : Type} (xs : List (Nat × α)) (n : Nat) : Option α :=
  (xs.find? fun x => x.1 == n).map (·.2)

def change {α : Type} (xs : List (Nat × α)) (n : Nat) (f : α → α) : List (Nat × α) :=
  xs.map fun x => if x.1 == n then (n, f x.2) else x

def process? (h : Host) (n : Nat) : Option Process := h.processes.find? fun p => p.number == n

def changeProcess (h : Host) (n : Nat) (f : Process → Process) : Host :=
  { h with processes := h.processes.map fun p => if p.number == n then f p else p }

def pipe? (h : Host) (n : Nat) : Option Pipe := lookUp h.pipes n

def changePipe (h : Host) (n : Nat) (f : Pipe → Pipe) : Host :=
  { h with pipes := change h.pipes n f }

def terminal? (h : Host) (n : Nat) : Option Terminal := lookUp h.terminals n

def changeTerminal (h : Host) (n : Nat) (f : Terminal → Terminal) : Host :=
  { h with terminals := change h.terminals n f }

def addPipe (h : Host) (p : Pipe) : Host × Nat :=
  ({ h with pipes := h.pipes ++ [(h.next, p)], next := h.next + 1 }, h.next)

def addTerminal (h : Host) (t : Terminal) : Host × Nat :=
  ({ h with terminals := h.terminals ++ [(h.next, t)], next := h.next + 1 }, h.next)

def addOpening (h : Host) (o : Opening) : Host × Nat :=
  ({ h with openings := h.openings ++ [(h.next, o)], next := h.next + 1 }, h.next)

/-- Adds a process under a new number. -/
def addProcess (h : Host) (p : Process) : Host × Nat :=
  ({ h with processes := h.processes ++ [{ p with number := h.next }], next := h.next + 1 }, h.next)

/-- Whether a living process holds a channel. -/
def isHeld (h : Host) (c : Channel) : Bool :=
  h.processes.any fun p => p.isAlive && p.channels.holds c

/-! ## Bytes -/

inductive Received where
  | bytes (bs : Bytes)
  | endOfInput
  | nothing
  | refused (e : IoError)
  deriving Repr

/-- Reads up to `most` bytes from a channel. -/
def receive (h : Host) (c : Channel) (most : Nat) : Host × Received :=
  match c with
  | .null => (h, .endOfInput)
  | .pipeOut _ => (h, .refused .badDescriptor)
  | .pipeIn n =>
    match h.pipe? n with
    | none => (h, .endOfInput)
    | some p =>
      if p.content.isEmpty then
        (h, if p.writtenOutside || h.isHeld (.pipeOut n) then .nothing else .endOfInput)
      else
        (h.changePipe n fun p => { p with content := p.content.drop most },
          .bytes (p.content.take most))
  | .terminal n =>
    match h.terminal? n with
    | none => (h, .endOfInput)
    | some t =>
      let (t, found) := t.take most
      (h.changeTerminal n fun _ => t, match found with
        | .bytes bs => .bytes bs
        | .endOfInput => .endOfInput
        | .nothing => .nothing)
  | .opened n =>
    match lookUp h.openings n with
    | none => (h, .refused .badDescriptor)
    | some o =>
      match h.files.node? o.path with
      | some (.file content _) =>
        let bs := (content.drop o.place).take most
        if bs.isEmpty then (h, .endOfInput)
        else
          ({ h with openings := change h.openings n fun o => { o with place := o.place + bs.length } },
            .bytes bs)
      | some .directory => (h, .refused .isDirectory)
      | _ => (h, .endOfInput)

inductive Delivered where
  | took (n : Nat)
  | full
  /-- Nobody will ever read. -/
  | broken
  | refused (e : IoError)
  deriving Repr

def overwrite (content : Bytes) (place : Nat) (bs : Bytes) : Bytes :=
  let front := content.take place ++ List.replicate (place - content.length) 0
  front ++ bs ++ content.drop (place + bs.length)

def deliver (h : Host) (c : Channel) (bs : Bytes) : Host × Delivered :=
  match c with
  | .null => (h, .took bs.length)
  | .pipeIn _ => (h, .refused .badDescriptor)
  | .pipeOut n =>
    match h.pipe? n with
    | none => (h, .broken)
    | some p =>
      if !(p.readOutside || h.isHeld (.pipeIn n)) then (h, .broken)
      else
        let room := Pipe.capacity - p.content.length
        let length := bs.length
        if length = 0 then (h, .took 0)
        else if room = 0 || (length ≤ 4096 && room < length) then (h, .full)
        else
          (h.changePipe n fun p => { p with content := p.content ++ bs.take room },
            .took (min room length))
  | .terminal n =>
    if ((h.terminal? n).map (·.heldUp)).getD false then (h, .full)
    else (h.changeTerminal n (·.display bs), .took bs.length)
  | .opened n =>
    match lookUp h.openings n with
    | none => (h, .refused .badDescriptor)
    | some o =>
      match h.files.node? o.path with
      | some (.file content executable) =>
        let place := if o.appends then content.length else o.place
        let h := { h with
          files := h.files.put o.path (.file (overwrite content place bs) executable)
          openings := change h.openings n fun o => { o with place := place + bs.length } }
        (h, .took bs.length)
      | _ => (h, .took bs.length)

/-! ## Opening files -/

inductive Access where
  | read
  | write
  | append
  | readWrite
  deriving DecidableEq, Repr

/-- Opens a file that a process in the directory `cwd` names. -/
def openFile (h : Host) (cwd : Path) (name : String) (access : Access) :
    Except IoError (Host × Channel) := do
  let p ← h.files.resolve? cwd name
  match h.files.node? p with
  | some .nullDevice => return (h, .null)
  | some .directory =>
    if access = .read then
      let (h, n) := h.addOpening { path := p }
      return (h, .opened n)
    else .error .isDirectory
  | some _ =>
    let h ← match access with
      | .write => (h.files.write? p []).map fun files => { h with files }
      | _ => pure h
    let (h, n) := h.addOpening { path := p, appends := decide (access = Access.append) }
    return (h, .opened n)
  | none =>
    if access = .read then .error .notFound
    else
      let files ← h.files.write? p []
      let (h, n) := { h with files }.addOpening { path := p, appends := decide (access = Access.append) }
      return (h, .opened n)

/-! ## Ending and signals -/

/-- Ends a process: its descriptors are closed and its status is left for whoever takes it. A process
whose parent is gone is taken away at once. -/
def endOne (h : Host) (n : Nat) (s : Status) : Host :=
  let orphaned (p : Process) : Bool := match h.process? p.parent with
    | some q => !q.isAlive
    | none => p.parent != 0
  let h := h.changeProcess n fun p => { p with status := some s, channels := [], caught := [] }
  -- children of the ended process have nobody to take their status
  let processes := h.processes.filter fun p =>
    !(p.parent == n && !p.isAlive) && !(p.number == n && orphaned p)
  { h with processes }

/-- A signal reaches one process, which is not one that leads a terminal's programs away. -/
def signalOne (h : Host) (n : Nat) (s : Signal) : Host :=
  match h.process? n with
  | none => h
  | some p =>
    if !p.isAlive || s = 0 then h
    else if Signal.isForced s then
      if s = Signal.kill then h.endOne n (.signaled s)
      else h.changeProcess n fun p => { p with stopped := true }
    else if p.handles s then
      h.changeProcess n fun p => { p with caught := p.caught ++ [s], stopped := false }
    else if p.ignored.contains s then h
    else match Signal.disposition s with
      | .terminate => h.endOne n (.signaled s)
      | .pass => h
      | .stop => h.changeProcess n fun p => { p with stopped := true }
      | .resume => h.changeProcess n fun p => { p with stopped := false }

def members (h : Host) (group : Nat) : List Nat :=
  (h.processes.filter fun p => p.isAlive && p.group == group).map (·.number)

/-- The terminals whose leader has ended in going from `before` to `after`. -/
def abandoned (before after : Host) : List Nat :=
  (before.processes.filter fun p =>
    p.isAlive && p.leads.isSome && !((after.process? p.number).map (·.isAlive)).getD false).filterMap
      (·.leads)

/-- The members of the groups in front of abandoned terminals are hung up. -/
def hangUp (h : Host) (terminals : List Nat) : Host :=
  terminals.foldl (fun h t => match h.terminal? t with
    | some term => (h.members term.foreground).foldl (fun h n => h.signalOne n Signal.hangup) h
    | none => h) h

def signal (h : Host) (n : Nat) (s : Signal) : Host :=
  let after := h.signalOne n s
  after.hangUp (abandoned h after)

/-- A signal reaches every member of a group. -/
def signalGroup (h : Host) (group : Nat) (s : Signal) : Host :=
  let after := (h.members group).foldl (fun h n => h.signalOne n s) h
  after.hangUp (abandoned h after)

def finish (h : Host) (n : Nat) (s : Status) : Host :=
  let after := h.endOne n s
  after.hangUp (abandoned h after)

/-- A program sends a signal to the server; nought is none. -/
def askServer (h : Host) (s : Signal) : Host :=
  if s = 0 then h else { h with asked := h.asked ++ [s] }

/-- Takes the status of an ended process, which is then gone. -/
def reap (h : Host) (n : Nat) : Host :=
  { h with processes := h.processes.filter fun p => p.number != n }

def typeAt (h : Host) (t : Nat) (bs : Bytes) : Host :=
  match h.terminal? t with
  | none => h
  | some term =>
    let (term, signals) := term.type bs
    let h := h.changeTerminal t fun _ => term
    signals.foldl (fun h s => h.signalGroup term.foreground s) h

end Host

end SessionHost
