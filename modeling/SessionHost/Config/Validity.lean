import SessionHost.Config.Basic
import SessionHost.Net.Address

/-!
# Settings that can be put in force (`config/loader`)

A server needs an address that can be parsed, room for a session, room for a byte of output, and a
prompt that can be seen. The faults are looked for in this order, and the first is reported.

* `Config.fault?_eq_none_iff`: settings without a fault are exactly the valid ones.
-/
namespace SessionHost

/-- Why settings cannot be put in force.
mirrors config/loader:76-98 -/
inductive ConfigFault where
  | bindAddress (addr : String)
  | noSessions
  | noChunk
  | noMarker
  deriving DecidableEq, Repr

namespace ConfigFault

def addressMessage (addr : String) : String :=
  s!"Invalid bind address '{addr}': invalid socket address syntax"

def message : ConfigFault → String
  | bindAddress addr => addressMessage addr
  | noSessions => "sessions.max_sessions must be greater than zero"
  | noChunk => "sessions.read_chunk_bytes must be greater than zero"
  | noMarker => "sessions.prompt_marker must not be empty"

end ConfigFault

namespace Config

/-- Settings that can be put in force. -/
def Valid (c : Config) : Prop :=
  (SocketAddress.parse c.server.bindAddr).isSome ∧ 0 < c.sessions.maxSessions ∧
    0 < c.sessions.readChunkBytes ∧ c.sessions.promptMarker ≠ ""

/-- The first fault of settings, if they have one.
mirrors config/loader:75-101 -/
def fault? (c : Config) : Option ConfigFault :=
  if (SocketAddress.parse c.server.bindAddr).isNone then some (.bindAddress c.server.bindAddr)
  else if c.sessions.maxSessions = 0 then some .noSessions
  else if c.sessions.readChunkBytes = 0 then some .noChunk
  else if c.sessions.promptMarker = "" then some .noMarker
  else none

theorem fault?_eq_none_iff (c : Config) : c.fault? = none ↔ c.Valid := by
  unfold fault? Valid
  cases SocketAddress.parse c.server.bindAddr <;> simp [Nat.pos_iff_ne_zero]
  split <;> simp_all
  split <;> simp_all

end Config

end SessionHost
