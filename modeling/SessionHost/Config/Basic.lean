/-!
# Settings (`config/types`)

Three sections: where the server listens, how sessions are kept, and which tools build and debug.
The defaults are those of a host on which the usual tools are found by name.
-/
namespace SessionHost

/-- Where the server listens and how long it waits at the end.
mirrors config/types:18-25 and 139-146 -/
structure ServerConfig where
  bindAddr : String := "0.0.0.0:10010"
  shutdownTimeoutSeconds : Nat := 10
  deriving DecidableEq, Repr, Inhabited

/-- Limits and timings of sessions.
mirrors config/types:29-50 and 148-160 -/
structure SessionsConfig where
  maxSessions : Nat := 1024
  gracePeriodSeconds : Nat := 30
  reapIntervalMs : Nat := 1000
  inputGraceMs : Nat := 200
  exitLingerMs : Nat := 100
  readChunkBytes : Nat := 8192
  promptMarker : String := "(gdb) "
  deriving DecidableEq, Repr, Inhabited

/-- Compilers and debugger.
mirrors config/types:54-73 and 162-175 -/
structure ToolchainConfig where
  gcc : String := "gcc"
  gxx : String := "g++"
  clang : String := "clang"
  clangxx : String := "clang++"
  gdb : String := "gdb"
  gdbArgs : List String := ["-q", "-ex", "set pagination off"]
  workDir : Option String := none
  buildTimeoutSeconds : Nat := 30
  deriving DecidableEq, Repr, Inhabited

/-- mirrors config/types:7-14 -/
structure Config where
  server : ServerConfig := {}
  sessions : SessionsConfig := {}
  toolchain : ToolchainConfig := {}
  deriving DecidableEq, Repr, Inhabited

end SessionHost
