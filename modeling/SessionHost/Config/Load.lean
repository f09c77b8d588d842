import SessionHost.Config.Coding
import SessionHost.Config.Validity
import SessionHost.Data.Toml.Document
import SessionHost.Host.Files
import SessionHost.Utf8.Decoder

/-!
# Loading settings (`config/loader`)

Settings come from a file, or are the defaults if there is none. A file that cannot be read, cannot be
parsed, or has settings that cannot be put in force is refused as a whole.

* `Config.load` loads settings;
* `Config.defaultPath` is where they are looked for.
-/
namespace SessionHost

open Host (Files Path)

/-- Why settings are not loaded.
mirrors config/loader:10-27 -/
inductive ConfigError where
  | read (path reason : String)
  | parse (path : String)
  | validation (fault : ConfigFault)
  deriving DecidableEq, Repr

def ConfigError.message : ConfigError → String
  | read path reason => s!"Failed to read config file '{path}': {reason}"
  | parse path => s!"Failed to parse config file '{path}'"
  | validation fault => s!"Config validation failed: {fault.message}"

namespace Config

/-- Settings that can be put in force, or their fault.
mirrors config/loader:75-101 -/
def validate (c : Config) : Except ConfigError Config :=
  match c.fault? with
  | none => .ok c
  | some f => .error (.validation f)

/-- Reads settings from the text of a file.
mirrors config/loader:60-63 -/
def decode? (text : String) : Option Config := (Toml.parse text).bind (Config.ofData? true)

/-- Reads settings from the content of the file `path`.
mirrors config/loader:55-66 -/
def ofContent (path : String) (content : Bytes) : Except ConfigError Config :=
  match Utf8.decode? content with
  | none => .error (.read path IoError.notText.message)
  | some text =>
    match decode? text with
    | none => .error (.parse path)
    | some c => c.validate

/-- Loads settings from a file, seen from the directory `home`.
mirrors config/loader:50-67 -/
def load (files : Files) (home : Path) (path : String) : Except ConfigError Config :=
  match files.find? home path with
  | .error _ => .ok {}
  | .ok _ =>
    match files.read? home path with
    | .error e => .error (.read path e.message)
    | .ok content => ofContent path content

/-- Where settings are looked for: below the directory for settings if that is an absolute path, else
below the home directory.
mirrors config/loader:35-38 -/
def defaultPath (settings home : Option String) : String :=
  let usable := settings.filter Path.isAbsolute
  let base := match usable with
    | some dir => dir
    | none => Path.join ((home.filter fun s => s != "").getD "/root") ".config"
  Path.join (Path.join base "runbox") "config.toml"

end Config

end SessionHost
