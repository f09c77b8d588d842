import SessionHost.Options
import SessionHost.Server.Life

/-!
# The program (`main`)

The program reads its command line and its settings, starts a server on a host, and answers a request
a line. A line is a method, an address and perhaps a body in JSON, with blanks between them; its answer
is a line with the status and what the answer says.

* `CommandLine.settingsFile` is the file that the settings come from;
* `CommandLine.start` starts the server, with the content of that file;
* `CommandLine.answer` answers a line.
-/
namespace SessionHost

/-- An option as it is shown to who uses it wrongly. -/
def OptionsFault.shown (option : String) : String :=
  match option with
  | "--config" => "--config <PATH>"
  | "--bind" => "--bind <ADDR>"
  | "--max-sessions" => "--max-sessions <N>"
  | o => o

/-- Why a text is no unsigned number of sixty-four bits. -/
def OptionsFault.ofNumber (s : String) : String :=
  let ds := Text.unsignedDigits s.toList
  if s == "" then "cannot parse integer from empty string"
  else if !ds.isEmpty && ds.all Char.isDigit then "number too large to fit in target type"
  else "invalid digit found in string"

/-- The wording of a fault; for help it is empty. -/
def OptionsFault.message : OptionsFault → String
  | displayHelp => ""
  | unknownArgument word => s!"unexpected argument '{word}' found"
  | invalidValue option =>
    s!"a value is required for '{shown option}' but none was supplied"
  | valueValidation option value =>
    s!"invalid value '{value}' for '{shown option}': {ofNumber value}"
  | argumentConflict option =>
    s!"the argument '{shown option}' cannot be used multiple times"
  | tooManyValues option =>
    s!"unexpected value for '{shown option}' found; no more were expected"

namespace CommandLine

/-- What the program is for, and its options. -/
def help : String :=
  "Compile and run programs as pollable sessions over HTTP.\n\n"
    ++ "Usage: runbox [OPTIONS]\n\nOptions:\n"
    ++ "      --config <PATH>     Config file (default: ~/.config/runbox/config.toml)\n"
    ++ "      --bind <ADDR>       Override the listen address (host:port)\n"
    ++ "      --max-sessions <N>  Override the maximum number of running sessions\n"
    ++ "  -h, --help              Print help\n"

/-- What the program was started with besides its command line: where settings and the home directory
are, if anybody has said so. -/
structure Surroundings where
  settings : Option String := none
  home : Option String := none
  deriving DecidableEq, Repr

namespace Surroundings

def homePlace (s : Surroundings) : Host.Path := Host.Path.components (s.home.getD "/root")

def defaultPath (s : Surroundings) : String := Config.defaultPath s.settings s.home

end Surroundings

/-- The file that the settings come from; `none` if the command line is wrong. -/
def settingsFile (s : Surroundings) (args : List String) : Option String :=
  match Options.parse args with
  | .ok o => some (o.configPath s.defaultPath)
  | .error _ => none

inductive Failure where
  | start (path : String) (error : StartError)
  | server (error : ServerError)
  deriving DecidableEq, Repr

namespace Failure

/-- The status that the program ends with. -/
def exitCode : Failure → Nat
  | start _ (.options f) => f.exitCode
  | _ => 1

/-- What is said on the way out. -/
def report : Failure → String
  | start _ (.options .displayHelp) => help
  | start _ (.options f) =>
    s!"error: {f.message}\n\nUsage: runbox [OPTIONS]\n\nFor more information, try '--help'.\n"
  | start path (.loading e) => s!"Error: load config: {path}\n\nCaused by:\n    {e.message}\n"
  | start _ (.overriding e) =>
    s!"Error: command-line overrides\n\nCaused by:\n    {e.message}\n"
  | server e => s!"Error: {e.message}\n"

end Failure

/-- A host with a home directory, and with a file if there is one. -/
def hostWith (home : Host.Path) (path : String) (content : Option Bytes) : Host :=
  let made (fs : Host.Files) (at_ : Host.Path) (names : List String) : Host.Files × Host.Path :=
    (fs.makeDirectories? at_ names).toOption.getD (fs, at_)
  let (files, _) := made Host.Files.initial [] home
  match content with
  | none => { files }
  | some bs =>
    let names := Host.Path.components path
    let (files, dir) := made files (if Host.Path.isAbsolute path then [] else home) names.dropLast
    { files := files.put (dir ++ [names.getLastD "config.toml"]) (.file bs false) }

/-- Starts the server on a host of its own. `content` is what the file of the settings holds, if
there is one.
mirrors main:25-28 -/
def start (s : Surroundings) (args : List String) (content : Option Bytes) :
    Except Failure (Server × SocketAddress) :=
  let path := (settingsFile s args).getD s.defaultPath
  let host := hostWith s.homePlace path content
  match startSettings host.files s.homePlace s.defaultPath args with
  | .error e => .error (.start path e)
  | .ok (config, path) =>
    match (Server.start host s.homePlace { config, path }).bind with
    | (_, .error e) => .error (.server e)
    | (server, .ok address) =>
      match server.serve with
      | (_, .error e) => .error (.server e)
      | (server, .ok ()) => .ok (server, address)

/-- The request that a line is. A body is in JSON. -/
def request (line : String) : Request :=
  let isBlank (c : Char) : Bool := c == ' ' || c == '\t' || c == '\r' || c == '\n'
  let cs := (line.toList.reverse.dropWhile isBlank).reverse.dropWhile isBlank
  let method := cs.takeWhile fun c => !isBlank c
  let cs := (cs.drop method.length).dropWhile isBlank
  let address := cs.takeWhile fun c => !isBlank c
  let body := (cs.drop address.length).dropWhile isBlank
  { method := String.ofList method
    address := String.ofList address
    headers := if body.isEmpty then [] else [("Content-Type", "application/json")]
    body := Bytes.ofString (String.ofList body) }

def shown (r : Response) : String :=
  if r.text == "" then toString r.status else s!"{r.status} {r.text}"

/-- Answers a line; `elapsed` microseconds have gone by since the last one. -/
def answer (s : Server) (elapsed : Nat) (line : String) : Server × String :=
  let (s, r) := (s.pass elapsed).respond (request line)
  (s, shown r)

end CommandLine

end SessionHost
