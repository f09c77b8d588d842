import SessionHost.Data.Value
import SessionHost.Session.Error
import SessionHost.Session.Exit

/-!
# What is told of a session, as data

An end is a table whose first field names the kind of end.

* `ExitInfo.toData` writes an end and `ExitInfo.ofData?` reads one.
-/
namespace SessionHost

open Data

namespace ExitInfo

/-- mirrors session/process:93-104 -/
def toData : ExitInfo → Data
  | exited code => table [("kind", text "exited"), ("code", integer code)]
  | signaled s => table [("kind", text "signaled"), ("signal", integer s)]
  | killed s => table [("kind", text "killed"), ("signal", integer s)]
  | ioFailed reason => table [("kind", text "io_failed"), ("reason", text reason)]

def ofData? (v : Data) : Option ExitInfo :=
  match (v.get? "kind").bind text? with
  | some "exited" => (v.get? "code").bind fun n => n.integer?.map exited
  | some "signaled" => (v.get? "signal").bind fun n => n.integer?.map signaled
  | some "killed" => (v.get? "signal").bind fun n => n.integer?.map killed
  | some "io_failed" => (v.get? "reason").bind fun r => r.text?.map ioFailed
  | _ => none

end ExitInfo

/-- Reads a mode: its name, or a table that has nothing but its name with null under it. -/
def Mode.ofData? : Data → Option Mode
  | .text s => Mode.ofName? s
  | .table [(name, .null)] => Mode.ofName? name
  | _ => none

def SessionError.kind : SessionError → String
  | spawn .. => "Spawn"
  | closedStream => "ClosedStream"
  | notFound _ => "NotFound"
  | invalidOffset .. => "InvalidOffset"
  | resourceExhausted _ => "ResourceExhausted"

end SessionHost
