import SessionHost.Config.Basic

/-!
# Timings and limits of sessions (`session/mod`)

What sessions need of the settings, with times in microseconds.
-/
namespace SessionHost

/-- Timings and limits that hold for every session of a registry.
mirrors session/mod:42-53 -/
structure SessionSettings where
  maxSessions : Nat
  gracePeriod : Nat
  inputGrace : Nat
  exitLinger : Nat
  readChunk : Nat
  promptMarker : String
  deriving DecidableEq, Repr, Inhabited

namespace SessionSettings

def seconds (n : Nat) : Nat := n * 1000000

def milliseconds (n : Nat) : Nat := n * 1000

/-- mirrors session/mod:56-65 -/
def ofConfig (c : SessionsConfig) : SessionSettings where
  maxSessions := c.maxSessions
  gracePeriod := seconds c.gracePeriodSeconds
  inputGrace := milliseconds c.inputGraceMs
  exitLinger := milliseconds c.exitLingerMs
  readChunk := c.readChunkBytes
  promptMarker := c.promptMarker

end SessionSettings

end SessionHost
