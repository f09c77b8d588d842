import SessionHost.CommandLine

/-!
# Running the program

Only here is anything read from outside: the surroundings, the file of the settings, the clock, and
the lines of the standard input.
-/
namespace SessionHost.Main

open CommandLine

def surroundings : IO Surroundings := do
  return { settings := ← IO.getEnv "XDG_CONFIG_HOME", home := ← IO.getEnv "HOME" }

/-- The system's words for what went wrong with a file. -/
def words : IO.Error → String
  | .permissionDenied .. => IoError.permissionDenied.message
  | .inappropriateType .. => IoError.isDirectory.message
  | e => toString e

/-- What a file holds; nothing if there is none. -/
def content (path : String) : IO (Except String (Option Bytes)) := do
  try
    return .ok (some (← IO.FS.readBinFile path).toList)
  catch e =>
    match e with
    | .noFileOrDirectory .. => return .ok none
    | e => return .error (words e)

/-- What the file of the settings holds; nothing if there is none, or if the command line names no
file. -/
def settings (s : Surroundings) (args : List String) : IO (Except Failure (Option Bytes)) := do
  match settingsFile s args with
  | none => return .ok none
  | some path =>
    return (← content path).mapError fun reason => .start path (.loading (.read path reason))

/-- Starts the server that the command line and the surroundings ask for. -/
def prepare (args : List String) : IO (Except Failure (Server × SocketAddress)) := do
  let s ← surroundings
  return (← settings s args) >>= start s args

/-- Answers line after line. `before` is when the last line came, in milliseconds. -/
partial def serve (server : Server) (before : Nat) : IO Unit := do
  let line ← (← IO.getStdin).getLine
  unless line.isEmpty do
    let now ← IO.monoMsNow
    let (server, text) := answer server ((now - before) * 1000) line
    IO.println text
    (← IO.getStdout).flush
    serve server now

def run (args : List String) : IO UInt32 := do
  match ← prepare args with
  | .error f =>
    if f.exitCode = 0 then IO.print f.report else IO.eprint f.report
    return UInt32.ofNat f.exitCode
  | .ok (server, address) =>
    IO.eprintln s!"listening on {address.text}"
    serve server (← IO.monoMsNow)
    return 0

end SessionHost.Main

def main (args : List String) : IO UInt32 := SessionHost.Main.run args
