import SessionHost.Data.Value
import SessionHost.Config.Basic

/-!
# Settings as data

A section is a table, or a list of its fields in their order, of which the last may be missing. A
field that is missing has its default; a field of another name is passed over; a field that is
written twice, or has a value of the wrong kind, is refused. Whether a list may be longer than the
section depends on the format.

* `Config.ofData?` reads settings, `Config.toData` writes them.
-/
namespace SessionHost

namespace Data

/-- Looks the fields `names` up in a table or a list. -/
def record? (longer : Bool) (names : List String) : Data → Option (List (Option Data))
  | table fields =>
    if names.any fun n => (fields.filter fun f => f.1 == n).length > 1 then none
    else some (names.map fun n => field? fields n)
  | list items =>
    if !longer && items.length > names.length then none
    else some ((List.range names.length).map fun i => items[i]?)
  | _ => none

/-- A setting: its default if it is missing. -/
def setting? {α : Type} (read : Data → Option α) (default : α) : Option Data → Option α
  | none => some default
  | some v => read v

def texts? (v : Data) : Option (List String) := v.items?.bind (·.mapM text?)

def textOrNull? : Data → Option (Option String)
  | null => some none
  | text s => some (some s)
  | _ => none

end Data

open Data

def ServerConfig.ofData? (longer : Bool) (v : Data) : Option ServerConfig := do
  let d : ServerConfig := {}
  match ← record? longer ["bind_addr", "shutdown_timeout_seconds"] v with
  | [bindAddr, timeout] =>
    return {
      bindAddr := ← setting? text? d.bindAddr bindAddr
      shutdownTimeoutSeconds := ← setting? word? d.shutdownTimeoutSeconds timeout }
  | _ => none

def ServerConfig.toData (c : ServerConfig) : Data :=
  table [("bind_addr", text c.bindAddr), ("shutdown_timeout_seconds", nat c.shutdownTimeoutSeconds)]

def SessionsConfig.ofData? (longer : Bool) (v : Data) : Option SessionsConfig := do
  let d : SessionsConfig := {}
  match ← record? longer ["max_sessions", "grace_period_seconds", "reap_interval_ms",
      "input_grace_ms", "exit_linger_ms", "read_chunk_bytes", "prompt_marker"] v with
  | [most, grace, reap, input, linger, chunk, marker] =>
    return {
      maxSessions := ← setting? word? d.maxSessions most
      gracePeriodSeconds := ← setting? word? d.gracePeriodSeconds grace
      reapIntervalMs := ← setting? word? d.reapIntervalMs reap
      inputGraceMs := ← setting? word? d.inputGraceMs input
      exitLingerMs := ← setting? word? d.exitLingerMs linger
      readChunkBytes := ← setting? word? d.readChunkBytes chunk
      promptMarker := ← setting? text? d.promptMarker marker }
  | _ => none

def SessionsConfig.toData (c : SessionsConfig) : Data :=
  table [("max_sessions", nat c.maxSessions), ("grace_period_seconds", nat c.gracePeriodSeconds),
    ("reap_interval_ms", nat c.reapIntervalMs), ("input_grace_ms", nat c.inputGraceMs),
    ("exit_linger_ms", nat c.exitLingerMs), ("read_chunk_bytes", nat c.readChunkBytes),
    ("prompt_marker", text c.promptMarker)]

def ToolchainConfig.ofData? (longer : Bool) (v : Data) : Option ToolchainConfig := do
  let d : ToolchainConfig := {}
  match ← record? longer ["gcc", "gxx", "clang", "clangxx", "gdb", "gdb_args", "work_dir",
      "build_timeout_seconds"] v with
  | [gcc, gxx, clang, clangxx, gdb, gdbArgs, workDir, timeout] =>
    return {
      gcc := ← setting? text? d.gcc gcc
      gxx := ← setting? text? d.gxx gxx
      clang := ← setting? text? d.clang clang
      clangxx := ← setting? text? d.clangxx clangxx
      gdb := ← setting? text? d.gdb gdb
      gdbArgs := ← setting? texts? d.gdbArgs gdbArgs
      workDir := ← setting? textOrNull? d.workDir workDir
      buildTimeoutSeconds := ← setting? word? d.buildTimeoutSeconds timeout }
  | _ => none

def ToolchainConfig.toData (c : ToolchainConfig) : Data :=
  table [("gcc", text c.gcc), ("gxx", text c.gxx), ("clang", text c.clang),
    ("clangxx", text c.clangxx), ("gdb", text c.gdb), ("gdb_args", list (c.gdbArgs.map text)),
    ("work_dir", option text c.workDir), ("build_timeout_seconds", nat c.buildTimeoutSeconds)]

/-- Reads all settings. -/
def Config.ofData? (longer : Bool) (v : Data) : Option Config := do
  match ← record? longer ["server", "sessions", "toolchain"] v with
  | [server, sessions, toolchain] =>
    return {
      server := ← setting? (ServerConfig.ofData? longer) {} server
      sessions := ← setting? (SessionsConfig.ofData? longer) {} sessions
      toolchain := ← setting? (ToolchainConfig.ofData? longer) {} toolchain }
  | _ => none

def Config.toData (c : Config) : Data :=
  table [("server", c.server.toData), ("sessions", c.sessions.toData),
    ("toolchain", c.toolchain.toData)]

end SessionHost
