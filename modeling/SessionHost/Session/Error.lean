import SessionHost.Output.Log

/-!
# Why a session refuses (`session/error`)

One constructor a cause; `SessionError.message` is the only place that words them.
-/
namespace SessionHost

/-- Why an operation on a session or on the registry is refused.
mirrors session/error:12-34 -/
inductive SessionError where
  | spawn (program reason : String)
  | closedStream
  | notFound (id : Nat)
  | invalidOffset (offset length : Nat)
  | resourceExhausted (max : Nat)
  deriving DecidableEq, Repr

namespace SessionError

def ofPastEnd (e : PastEnd) : SessionError := invalidOffset e.offset e.length

/-- mirrors session/error:15-32 -/
def message : SessionError → String
  | spawn program reason => s!"failed to spawn '{program}': {reason}"
  | closedStream => "input stream is closed"
  | notFound id => s!"session {id} not found"
  | invalidOffset offset length =>
    s!"offset {offset} is past the end of the output ({length} bytes)"
  | resourceExhausted max => s!"session limit reached ({max} running)"

end SessionError

end SessionHost
