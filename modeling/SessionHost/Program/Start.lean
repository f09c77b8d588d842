import SessionHost.Program.Child
import SessionHost.Program.Spec

/-!
# Starting a program (`session/process`)

A program is started over two pipes or on a terminal. Over pipes both of its output streams share one
pipe, so that their order is kept, and a file that names no interpreter is refused. On a terminal such
a file is run by a shell, and a directory that is missing is replaced by the home directory.

* `Launch.start?` starts a program, or says why it cannot.
-/
namespace SessionHost

open Host (Activity Path Process Terminal)

/-- The longest argument that the system takes. -/
def Launch.longestArgument : Nat := 131071

/-- How much text the system takes in all arguments and variables together. -/
def Launch.mostText : Nat := 2097152

namespace Launch

/-- The texts that are handed to the system. -/
def texts (l : Launch) : List String :=
  l.program :: l.args ++ l.env.map (fun e => e.1 ++ "=" ++ e.2) ++ l.cwd.toList

/-- The environment of the program. Later settings win. -/
def environment (l : Launch) (own : List (String × String)) : List (String × String) :=
  (own ++ l.env).foldl (fun env e => Host.setVariable env (Octets.ofText e.1) (Octets.ofText e.2))
    Host.baseEnvironment

/-- Refuses texts that the system does not take. -/
def checkTexts (l : Launch) : Except IoError Unit :=
  let sizes := l.texts.map (·.utf8ByteSize)
  if l.texts.any fun s => s.toList.contains '\x00' then .error .nulByte
  else if sizes.any (· > longestArgument) || sizes.foldr (fun n m => n + 9 + m) 0 > mostText then
    .error .argumentListTooLong
  else .ok ()

/-- What the program does, seen from the directory that it starts in. -/
def activity (h : Host) (l : Launch) (cwd : Path) (env : List (String × String)) (byShell : Bool) :
    Except IoError Activity := do
  let searched := ((env.find? fun e => e.1 == "PATH").map (·.2)).getD ""
  let name := Octets.ofText l.program
  let args := l.args.map Octets.ofText
  if name = "" then .error .notFound
  let path ← h.locate cwd searched name
  match h.load cwd env path name args with
  | .error .execFormat =>
    if byShell then return h.shellStart cwd env "/bin/sh" (path :: args) else .error .execFormat
  | r => r

/-- A process that is about to be started, at the head of a group of its own. -/
def process (h : Host) (cwd : Path) (env : List (String × String)) (channels : Host.Descriptors)
    (a : Activity) : Process where
  number := h.next
  group := h.next
  cwd := cwd
  channels := channels
  environment := env
  activity := Host.ShellTurn.begin_ h.next 0 a

/-- Starts a program over pipes.
mirrors session/process:296-360 -/
def overPipes? (h : Host) (l : Launch) (home : Path) (chunkSize : Nat) :
    Except IoError (Host × Child) := do
  l.checkTexts
  let cwd ← match l.cwd with
    | none => pure home
    | some dir =>
      match ← h.files.find? home dir with
      | (p, .directory) => pure p
      | _ => .error .notDirectory
  let env := l.environment []
  let a ← l.activity h cwd env false
  let (h, input) := h.addPipe { writtenOutside := true }
  let (h, output) := h.addPipe { readOutside := true }
  let channels := [(0, .pipeIn input), (1, .pipeOut output), (2, .pipeOut output)]
  let (h, n) := h.addProcess (process h cwd env channels a)
  return (h, { process := n, wiring := .pipe, inlet := input, outlet := output, chunkSize })

/-- Starts a program on a terminal.
mirrors session/process:362-433 -/
def onTerminal? (h : Host) (l : Launch) (home : Path) (chunkSize : Nat) :
    Except IoError (Host × Child) := do
  l.checkTexts
  let cwd := match l.cwd with
    | none => home
    | some dir =>
      match h.files.find? home dir with
      | .ok (p, .directory) => p
      | _ => ["root"]
  let env := l.environment [("TERM", "dumb")]
  let a ← l.activity h cwd env true
  let (h, t) := h.addTerminal {}
  let channels := [(0, .terminal t), (1, .terminal t), (2, .terminal t)]
  let (h, n) := h.addProcess { process h cwd env channels a with leads := some t }
  let h := h.changeTerminal t fun t => { t with foreground := n }
  return (h, { process := n, wiring := .terminal, inlet := t, outlet := t, chunkSize })

/-- Starts a program from the directory `home`.
mirrors session/process:180-193 -/
def start? (h : Host) (l : Launch) (home : Path) (wiring : Wiring) (chunkSize : Nat) :
    Except IoError (Host × Child) :=
  match wiring with
  | .pipe => l.overPipes? h home chunkSize
  | .terminal => l.onTerminal? h home chunkSize

end Launch

end SessionHost
