import SessionHost.Bytes
import SessionHost.Host.Signal

/-!
# The line discipline of a terminal

What is typed passes through the line discipline before a program can read it, and what a program
writes passes through it before it is seen. Input: a carriage return becomes a newline, control
characters of the signal set become signals, and everything is echoed. Output: a newline becomes a
carriage return and a newline. In line mode input is handed on line by line and can be edited. Two
characters hold the output up and let it go on.

An echoed control character is shown as a caret and a letter, a newline too unless it was typed as a
carriage return or lines are on.

* `Terminal.type` is what happens to typed bytes;
* `Terminal.display` is what happens to written bytes.
-/
namespace SessionHost.Host

structure TerminalModes where
  /-- Input is handed on line by line. -/
  lineMode : Bool := false
  echo : Bool := true
  /-- Control characters raise signals. -/
  signals : Bool := true
  /-- A carriage return is read as a newline. -/
  returnToNewline : Bool := true
  /-- Output is processed at all. -/
  processOutput : Bool := true
  /-- A newline is written as a carriage return and a newline. -/
  newlineToReturn : Bool := true
  /-- Control characters are echoed with a caret. -/
  echoControl : Bool := true
  /-- The two flow-control characters are taken out of the input. -/
  flowControl : Bool := true
  deriving DecidableEq, Repr

/-- A terminal: its modes, what a program can read, the line being typed, and what can be seen. -/
structure Terminal where
  modes : TerminalModes := {}
  rows : Nat := 24
  columns : Nat := 120
  /-- The process group that its signals go to. -/
  foreground : Nat := 0
  input : Bytes := []
  line : Bytes := []
  /-- The ends of input that line mode has noted, as lengths of input still to be read before. -/
  ends : List Nat := []
  output : Bytes := []
  /-- Whether the output is held up, and what was echoed since then. -/
  heldUp : Bool := false
  withheld : Bytes := []
  /-- Whether the next byte is taken as it is. -/
  verbatim : Bool := false
  /-- Whether somebody still types and watches. -/
  attended : Bool := true
  deriving DecidableEq, Repr

namespace Terminal

def process (m : TerminalModes) (bs : Bytes) : Bytes :=
  if m.processOutput && m.newlineToReturn then
    bs.flatMap fun b => if b == 10 then [13, 10] else [b]
  else bs

def display (t : Terminal) (bs : Bytes) : Terminal :=
  { t with output := t.output ++ process t.modes bs }

def echoed (m : TerminalModes) (b : UInt8) : Bytes :=
  if m.echoControl && (b < 32 || b == 127) && b != 9 then [94, b ^^^ 64]
  else process m [b]

/-- The signal that a control character raises. -/
def signalOf? (m : TerminalModes) (b : UInt8) : Option Signal :=
  if !m.signals then none
  else if b == 3 then some Signal.interrupt
  else if b == 28 then some Signal.quit
  else if b == 26 then some Signal.suspend
  else none

/-- Typing that is under way: what it adds to the input and to what is seen, and the line being typed,
all of it last byte first. -/
structure Typing where
  modes : TerminalModes
  /-- What can be read of what was typed before. -/
  earlier : Bytes
  input : Bytes := []
  line : Bytes := []
  shown : Bytes := []
  ends : List Nat := []
  signals : List Signal := []
  /-- What could be seen before was thrown away. -/
  flushed : Bool := false
  heldUp : Bool := false
  withheld : Bytes := []
  verbatim : Bool := false
  deriving DecidableEq, Repr

namespace Typing

def echo (t : Typing) (bs : Bytes) : Typing :=
  if !t.modes.echo then t
  else if t.heldUp then { t with withheld := bs.reverse ++ t.withheld }
  else { t with shown := bs.reverse ++ t.shown }

def echoLineEnd (t : Typing) : Typing := t.echo (process t.modes [10])

def commit (t : Typing) : Typing := { t with input := t.line ++ t.input, line := [] }

def wiping (m : TerminalModes) (b : UInt8) : Bytes :=
  if b < 32 || b == 127 then (if m.echoControl then [8, 32, 8, 8, 32, 8] else []) else [8, 32, 8]

def erase (t : Typing) (count : Nat) : Typing :=
  { t with line := t.line.drop count }.echo ((t.line.take count).flatMap (wiping t.modes))

def isWordByte (b : UInt8) : Bool :=
  (48 ≤ b && b ≤ 57) || (65 ≤ b && b ≤ 90) || (97 ≤ b && b ≤ 122) || b == 95 || 192 ≤ b

/-- The length of the last word of a line and of what stands behind it. -/
def lastWord (line : Bytes) : Nat :=
  let behind := line.takeWhile fun b => !isWordByte b
  behind.length + ((line.drop behind.length).takeWhile isWordByte).length

def addToLine (t : Typing) (b : UInt8) : Typing :=
  { t with line := b :: t.line }.echo (echoed t.modes b)

/-- A byte typed in line mode: the end of a line, the end of input, one of those that erase a
character, a word or the line, one that shows the line again, one that lets the next be taken as it
is, or a byte of the line. -/
def inLine (t : Typing) (b : UInt8) : Typing :=
  if b == 10 then ({ t with line := 10 :: t.line }.echoLineEnd).commit
  else if b == 4 then
    let t := t.commit
    { t with ends := t.ends ++ [t.earlier.length + t.input.length] }
  else if b == 127 then t.erase 1
  else if b == 23 then t.erase (lastWord t.line)
  else if b == 21 then t.erase t.line.length
  else if b == 18 && t.modes.echo then
    let again := t.line.reverse.flatMap (echoed t.modes)
    (t.echo (echoed t.modes b)).echoLineEnd.echo again
  else if b == 22 then
    { t with verbatim := true }.echo (if t.modes.echoControl then [94, 8] else [])
  else t.addToLine b

/-- A byte is typed. A byte that raises a signal is not read, and throws away what was typed before and
what was written and not seen yet. -/
def byte (t : Typing) (b : UInt8) : Typing :=
  if t.verbatim then { t with verbatim := false }.addToLine b
  else match signalOf? t.modes b with
  | some s =>
    { t with
      earlier := []
      input := []
      line := []
      shown := []
      flushed := true
      heldUp := t.heldUp && !t.modes.flowControl
      withheld := []
      signals := t.signals ++ [s] }.echo (echoed t.modes b)
  | none =>
    if t.modes.flowControl && b == 19 then { t with heldUp := true }
    else if t.modes.flowControl && b == 17 then
      { t with heldUp := false, shown := t.withheld ++ t.shown, withheld := [] }
    else
      let wasReturn := b == 13 && t.modes.returnToNewline
      let b := if wasReturn then 10 else b
      if t.modes.lineMode then t.inLine b
      else
        let t := if wasReturn then t.echoLineEnd else t.echo (echoed t.modes b)
        { t with input := b :: t.input }

end Typing

/-- Bytes are typed in order; the signals are given in the order in which they are raised. -/
def type (t : Terminal) (bs : Bytes) : Terminal × List Signal :=
  let typed := bs.foldl Typing.byte
    { modes := t.modes, earlier := t.input, line := t.line.reverse, ends := t.ends
      heldUp := t.heldUp, withheld := t.withheld.reverse, verbatim := t.verbatim }
  ({ t with
      input := typed.earlier ++ typed.input.reverse
      line := typed.line.reverse
      output := (if typed.flushed then [] else t.output) ++ typed.shown.reverse
      ends := typed.ends
      heldUp := typed.heldUp
      withheld := typed.withheld.reverse
      verbatim := typed.verbatim }, typed.signals)

inductive Found where
  | bytes (bs : Bytes)
  | endOfInput
  | nothing
  deriving DecidableEq, Repr

/-- How much of the input one read in line mode may take: up to the end of a line. -/
def lineLength (bs : Bytes) : Nat :=
  let n := (bs.takeWhile fun b => b != 10).length
  if n < bs.length then n + 1 else n

/-- A program reads up to `most` bytes. -/
def take (t : Terminal) (most : Nat) : Terminal × Found :=
  match t.ends with
  | 0 :: ends => ({ t with ends }, .endOfInput)
  | ends =>
    if t.input.isEmpty then (t, if t.attended then .nothing else .endOfInput)
    else
      let most := if t.modes.lineMode then min most (lineLength t.input) else most
      let bs := t.input.take most
      ({ t with
          input := t.input.drop most
          ends := ends.map fun n => n - bs.length }, .bytes bs)

end Terminal

end SessionHost.Host
