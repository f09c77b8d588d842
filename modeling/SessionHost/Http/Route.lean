import SessionHost.Http.Percent

/-!
# Routes (`server/router`)

The paths that the server knows. A path is compared as it is written; only the mode of a run is
decoded.

* `Route.ofPath?` finds the route of a path;
* `Route.methods` are the methods that a route takes.
-/
namespace SessionHost

/-- A path that the server knows. `mode` is as it is written.
mirrors server/router:26-32 -/
inductive Route where
  | run (mode : String)
  | program
  | input
  | stop
  | health
  deriving DecidableEq, Repr

namespace Route

def ofPath? (path : String) : Option Route :=
  match path.splitOn "/" with
  | ["", "program"] => some program
  | ["", "input"] => some input
  | ["", "stop"] => some stop
  | ["", "health"] => some health
  | ["", "run", mode] => if mode == "" then none else some (run mode)
  | _ => none

def isReading : Route → Bool
  | program | health => true
  | run _ | input | stop => false

def methods (r : Route) : List String := if r.isReading then ["GET", "HEAD"] else ["POST"]

/-- The methods that a route takes, as they are written in a header. -/
def allow (r : Route) : String := ",".intercalate r.methods

end Route

end SessionHost
