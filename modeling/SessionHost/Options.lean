import SessionHost.Config.Load
import SessionHost.Text.Number

/-!
# The command line (`cli`)

Three options have a value, which follows an equals sign or is the next word. A value that is a word
of its own may not begin with a dash, unless it is a dash alone. An option is complete when its value
has been seen; the checks that belong to an option are made when the next one begins, and at the end.

* `Options.parse` reads a command line;
* `Options.apply` puts the options into settings.
-/
namespace SessionHost

/-- The options of a command line.
mirrors cli:10-22 -/
structure Options where
  config : Option String := none
  bind : Option String := none
  maxSessions : Option Nat := none
  deriving DecidableEq, Repr, Inhabited

/-- Why a command line is not taken. -/
inductive OptionsFault where
  /-- Somebody asks for help; this is no error. -/
  | displayHelp
  | unknownArgument (word : String)
  | invalidValue (option : String)
  | valueValidation (option value : String)
  | argumentConflict (option : String)
  | tooManyValues (option : String)
  deriving DecidableEq, Repr

namespace OptionsFault

def kind : OptionsFault → String
  | displayHelp => "DisplayHelp"
  | unknownArgument _ => "UnknownArgument"
  | invalidValue _ => "InvalidValue"
  | valueValidation .. => "ValueValidation"
  | argumentConflict _ => "ArgumentConflict"
  | tooManyValues _ => "TooManyValues"

def exitCode : OptionsFault → Nat
  | displayHelp => 0
  | _ => 2

end OptionsFault

namespace Options

inductive Name where
  | config
  | bind
  | maxSessions
  deriving DecidableEq, Repr

namespace Name

def text : Name → String
  | config => "--config"
  | bind => "--bind"
  | maxSessions => "--max-sessions"

def ofText? (s : String) : Option Name :=
  [config, bind, maxSessions].find? fun n => n.text == s

end Name

/-- An option that has begun, and its value if it has been seen. -/
structure Pending where
  name : Name
  value : Option String := none
  deriving DecidableEq, Repr

/-- Takes the value of an option that is complete. -/
def complete (o : Options) (p : Pending) : Except OptionsFault Options :=
  let option := p.name.text
  match p.value with
  | none => .error (.invalidValue option)
  | some v =>
    match p.name with
    | .config =>
      if o.config.isSome then .error (.argumentConflict option)
      else if v = "" then .error (.invalidValue option)
      else .ok { o with config := some v }
    | .bind =>
      if o.bind.isSome then .error (.argumentConflict option) else .ok { o with bind := some v }
    | .maxSessions =>
      if o.maxSessions.isSome then .error (.argumentConflict option)
      else match Text.word? v with
        | some n => .ok { o with maxSessions := some n }
        | none => .error (.valueValidation option v)

/-- Takes the option that is under way, if there is one. -/
def settle (o : Options) : Option Pending → Except OptionsFault Options
  | none => .ok o
  | some p => o.complete p

/-- Splits a word at its first equals sign. -/
def splitAttached (w : String) : String × Option String :=
  let name := w.toList.takeWhile fun c => c != '='
  if name.length < w.length then
    (String.ofList name, some (String.ofList (w.toList.drop (name.length + 1))))
  else (w, none)

/-- Reads on behind the options `o` with the option `pending` under way. -/
def parseFrom (o : Options) (pending : Option Pending) : List String → Except OptionsFault Options
  | [] => o.settle pending
  | "--" :: rest =>
    match rest with
    | [] => o.settle pending
    | w :: _ => .error (.unknownArgument w)
  | w :: rest =>
    let (flag, attached) := splitAttached w
    match w.toList, Name.ofText? flag with
    | '-' :: _, some name => do
      let o ← o.settle pending
      parseFrom o (some { name, value := attached }) rest
    | '-' :: '-' :: _, none =>
      if flag = "--help" then
        if attached.isSome then .error (.tooManyValues flag)
        else do
          let _ ← o.settle pending
          .error .displayHelp
      else .error (.unknownArgument w)
    | '-' :: 'h' :: _, none => do
      let _ ← o.settle pending
      .error .displayHelp
    | '-' :: _ :: _, none => .error (.unknownArgument w)
    | _, _ =>
      match pending with
      | some ⟨name, none⟩ => parseFrom o (some ⟨name, some w⟩) rest
      | _ => .error (.unknownArgument w)

def parse (args : List String) : Except OptionsFault Options := parseFrom {} none args

/-- mirrors cli:26-28 -/
def configPath (o : Options) (default : String) : String := o.config.getD default

/-- Settings with the given options in the place of what they had.
mirrors cli:31-38 -/
def apply (o : Options) (c : Config) : Config where
  server := { c.server with bindAddr := o.bind.getD c.server.bindAddr }
  sessions := { c.sessions with maxSessions := o.maxSessions.getD c.sessions.maxSessions }
  toolchain := c.toolchain

end Options

inductive StartError where
  | options (fault : OptionsFault)
  | loading (error : ConfigError)
  | overriding (error : ConfigError)
  deriving DecidableEq, Repr

/-- The settings that a command line asks for, and the path they came from: they are loaded, which
checks them, and checked again with the options put in.
mirrors main:13-17 -/
def startSettings (files : Host.Files) (home : Host.Path) (default : String) (args : List String) :
    Except StartError (Config × String) := do
  let o ← (Options.parse args).mapError StartError.options
  let path := o.configPath default
  let loaded ← (Config.load files home path).mapError StartError.loading
  let config ← (o.apply loaded).validate.mapError StartError.overriding
  return (config, path)

end SessionHost
