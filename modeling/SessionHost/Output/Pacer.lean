import SessionHost.Output.Marker
import SessionHost.Text.Lines

/-!
# Pacing commands by the prompt (`session/controller`)

A debugger blocks for one command at a time and prints a prompt when it does. The pacer keeps the
commands that were submitted, and releases one each time it has seen the prompt. It sees nothing of
the debugger but its output.

* `Pacer.send` takes a command, and releases it at once if the debugger waits;
* `Pacer.observe` reads output, and releases the next command if a prompt was in it;
* `Pacer.close` gives up what is still queued.
-/
namespace SessionHost

/-- Whether a debugger is blocked for a command, as far as its output tells.
mirrors session/controller:14-19 -/
inductive PromptState where
  | busy
  | idle
  deriving DecidableEq, Repr, Inhabited

/-- Commands for a debugger, the prompt that it is known by, and the output that may begin one.
mirrors session/controller:22-29 -/
structure Pacer where
  marker : Bytes
  tail : Bytes := []
  prompt : PromptState := .busy
  queue : List String := []
  closed : Bool := false
  deriving DecidableEq, Repr

namespace Pacer

/-- A pacer for a debugger that has not prompted yet.
mirrors session/controller:33-41 -/
def forMarker (marker : String) : Pacer := { marker := Bytes.ofString marker }

def pending (p : Pacer) : Nat := p.queue.length

def commandBytes (line : String) : Bytes := Bytes.ofString line ++ [Bytes.newline]

/-- Releases the first command if the debugger waits for one.
mirrors session/controller:104-113 -/
def dispatch (p : Pacer) : Pacer × Option Bytes :=
  match p.prompt, p.queue with
  | .idle, line :: rest => ({ p with prompt := .busy, queue := rest }, some (commandBytes line))
  | _, _ => (p, none)

@[simp] theorem marker_dispatch (p : Pacer) : p.dispatch.1.marker = p.marker := by
  unfold dispatch
  split <;> rfl

@[simp] theorem tail_dispatch (p : Pacer) : p.dispatch.1.tail = p.tail := by
  unfold dispatch
  split <;> rfl

@[simp] theorem closed_dispatch (p : Pacer) : p.dispatch.1.closed = p.closed := by
  unfold dispatch
  split <;> rfl

/-- Queues a command without its line end; `none` if the pacer is closed.
mirrors session/controller:58-64 -/
def send (p : Pacer) (line : String) : Option (Pacer × Option Bytes) :=
  if p.closed then none
  else some { p with queue := p.queue ++ [Text.dropLineEnd line] }.dispatch

/-- Reads a chunk of output. An empty marker is never seen.
mirrors session/controller:68-92 -/
def observe (p : Pacer) (chunk : Bytes) : Pacer × Option Bytes :=
  if p.closed || p.marker.isEmpty then (p, none)
  else
    let (prompted, tail) := Marker.advance p.marker p.tail chunk
    let p := { p with tail }
    if prompted then { p with prompt := .idle }.dispatch else (p, none)

/-- Takes no further command and discards the queued ones.
mirrors session/controller:96-102 -/
def close (p : Pacer) : Pacer := { p with closed := true, prompt := .busy, queue := [] }

end Pacer

end SessionHost
