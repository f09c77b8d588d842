import SessionHost.Program.Start
import SessionHost.Toolchain.Basic
import SessionHost.Toolchain.Scratch

/-!
# Compiling (`toolchain/mod`)

A compiler runs in the scratch directory, with nothing to read and a pipe for each of its output
streams. It is done when it has ended and both pipes are closed; if that takes too long it is killed. A
build that fails leaves no directory behind.

* `Compilation.start?` starts a compiler;
* `Compilation.serve` collects its diagnostics;
* `Compilation.result?` is the outcome, once there is one, and `Compilation.finish` waits for it.
-/
namespace SessionHost

/-- A compiler at work. Diagnostics are kept in pieces, last first. -/
structure Compilation where
  build : Build
  process : Nat
  out : Nat
  err : Nat
  outPieces : List Bytes := []
  errPieces : List Bytes := []
  seconds : Nat
  deadline : Nat
  deriving DecidableEq, Repr

namespace Compilation

/-- Writes the source and starts the compiler in a fresh scratch directory.
mirrors toolchain/mod:149-165 -/
def start? (h : Host) (home : Host.Path) (c : ToolchainConfig) (r : BuildRequest)
    (withSymbols : Bool) : Except BuildError Compilation × Host :=
  match Scratch.make? h home c.workDir with
  | .error e => (.error (.directory e.message), h)
  | .ok (h, text, place) =>
    let failed (e : BuildError) : Except BuildError Compilation × Host :=
      (.error e, Scratch.remove h place)
    let source := Host.Path.join text r.language.sourceName
    let binary := Host.Path.join text "main.out"
    match h.files.write? (place ++ [r.language.sourceName]) (Bytes.ofString r.source) with
    | .error e => failed (.directory e.message)
    | .ok files =>
      let h := { h with files }
      let compiler := Toolchain.compilerPath c r.language r.compiler
      let l : Launch :=
        { program := compiler, args := Toolchain.compileArgs source binary withSymbols r.options }
      let env := l.environment []
      match l.checkTexts >>= fun _ => l.activity h place env false with
      | .error e => failed (.compilerUnavailable compiler e.message)
      | .ok a =>
        let (h, out) := h.addPipe { readOutside := true }
        let (h, err) := h.addPipe { readOutside := true }
        let channels := [(0, .null), (1, .pipeOut out), (2, .pipeOut err)]
        let (h, process) := h.addProcess (Launch.process h place env channels a)
        (.ok { build := { directory := text, place, binary }, process, out, err
               seconds := c.buildTimeoutSeconds
               deadline := h.now + c.buildTimeoutSeconds * 1000000 }, h)

def drain (h : Host) (pipe : Nat) : Host × Bytes :=
  match h.pipe? pipe with
  | some p => (h.changePipe pipe fun p => { p with content := [] }, p.content)
  | none => (h, [])

def serve (h : Host) (c : Compilation) : Host × Compilation :=
  let (h, out) := drain h c.out
  let (h, err) := drain h c.err
  (h, { c with outPieces := out :: c.outPieces, errPieces := err :: c.errPieces })

/-- What the compiler said: errors first.
mirrors toolchain/mod:176-177 -/
def diagnostics (c : Compilation) : String :=
  Utf8.lossy c.errPieces.reverse.flatten ++ Utf8.lossy c.outPieces.reverse.flatten

/-- Whether both pipes are closed and empty. -/
def isSilent (h : Host) (c : Compilation) : Bool :=
  [c.out, c.err].all fun n =>
    !h.isHeld (.pipeOut n) && ((h.pipe? n).map (·.content.isEmpty)).getD true

/-- The outcome, if there is one by now.
mirrors toolchain/mod:164-183 -/
def result? (h : Host) (c : Compilation) : Option (Except BuildError Build × Host) :=
  match (h.process? c.process).bind (·.status), c.isSilent h with
  | some status, true =>
    let h := h.reap c.process
    if status = .exited 0 then some (.ok c.build, h)
    else some (.error (.compileFailed c.diagnostics), Scratch.remove h c.build.place)
  | _, _ =>
    if c.deadline ≤ h.now then
      let h := (h.signal c.process Host.Signal.kill).reap c.process
      let h := [c.out, c.err].foldl (fun h n => h.changePipe n fun p => { p with readOutside := false }) h
      some (.error (.timedOut c.seconds), Scratch.remove h c.build.place)
    else none

def ongoing : Ongoing (Host × Compilation) where
  host := (·.1)
  withHost x h := (h, x.2)
  work x :=
    let (h, ran) := x.1.round
    (serve h x.2, ran)
  wake? x := Host.earlier x.1.nextWake? (some x.2.deadline)

def finish (h : Host) (c : Compilation) : Except BuildError Build × Host :=
  let ((h, c), _) := ongoing.runUntil (fun x => (x.2.result? x.1).isSome) (c.deadline + 1) (h, c)
  (c.result? h).getD (.error (.timedOut c.seconds), h)

end Compilation

end SessionHost
