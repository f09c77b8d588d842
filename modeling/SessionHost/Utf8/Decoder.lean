import SessionHost.Bytes

/-!
# Decoding UTF-8

A decoder reads one byte at a time. Between two bytes it is either `ready` for a new sequence or
`inside` one, in which case it knows which bytes may follow. A byte that cannot follow ends the
sequence as malformed and is read again as the start of a new one, so every maximal piece of an
ill-formed sequence counts once.

* `Utf8.lossy` writes one replacement character for each such piece;
* `Utf8.decode?` refuses a text that has one;
* `Utf8.run_append`: reading `a ++ b` is reading `b` from where `a` left the decoder.
-/
namespace SessionHost.Utf8

/-- Where a decoder stands between two bytes. `inside lo hi more code` accepts a byte in `lo..hi`,
wants `more` bytes behind it, and has read the bits `code` so far. -/
inductive State where
  | ready
  | inside (lo hi : UInt8) (more code : Nat)
  deriving DecidableEq, Repr

inductive Symbol where
  | scalar (c : Char)
  | malformed
  deriving DecidableEq, Repr

namespace Symbol

def toChar : Symbol → Char
  | scalar c => c
  | malformed => '\uFFFD'

/-- The character a symbol stands for, if it is well formed. -/
def scalar? : Symbol → Option Char
  | scalar c => some c
  | malformed => none

end Symbol

/-- The first byte of a sequence: the state behind it, and the symbol that it completes. -/
def lead (b : UInt8) : State × List Symbol :=
  if b < 0x80 then (.ready, [.scalar (Char.ofNat b.toNat)])
  else if b < 0xC2 then (.ready, [.malformed])
  else if b < 0xE0 then (.inside 0x80 0xBF 0 (b.toNat - 0xC0), [])
  else if b = 0xE0 then (.inside 0xA0 0xBF 1 0, [])
  else if b = 0xED then (.inside 0x80 0x9F 1 13, [])
  else if b < 0xF0 then (.inside 0x80 0xBF 1 (b.toNat - 0xE0), [])
  else if b = 0xF0 then (.inside 0x90 0xBF 2 0, [])
  else if b < 0xF4 then (.inside 0x80 0xBF 2 (b.toNat - 0xF0), [])
  else if b = 0xF4 then (.inside 0x80 0x8F 2 4, [])
  else (.ready, [.malformed])

/-- One byte: the next state and the symbols that are now complete. -/
def step : State → UInt8 → State × List Symbol
  | .ready, b => lead b
  | .inside lo hi more code, b =>
    if lo ≤ b ∧ b ≤ hi then
      let code := code * 64 + (b.toNat - 0x80)
      match more with
      | 0 => (.ready, [.scalar (Char.ofNat code)])
      | more + 1 => (.inside 0x80 0xBF more code, [])
    else
      let next := lead b
      (next.1, .malformed :: next.2)

/-- Adds one byte to a reading whose symbols are kept newest first. -/
def feed (r : State × List Symbol) (b : UInt8) : State × List Symbol :=
  let next := step r.1 b
  (next.1, next.2.reverse ++ r.2)

def run (r : State × List Symbol) (bs : Bytes) : State × List Symbol := bs.foldl feed r

theorem run_append (r : State × List Symbol) (a b : Bytes) : run r (a ++ b) = run (run r a) b :=
  List.foldl_append

/-- A sequence that the text leaves open is malformed. -/
def flush : State → List Symbol
  | .ready => []
  | .inside .. => [.malformed]

def symbols (bs : Bytes) : List Symbol :=
  let r := run (.ready, []) bs
  r.2.reverse ++ flush r.1

/-- The text of `bs`, with one replacement character for each malformed piece. -/
def lossy (bs : Bytes) : String := String.ofList ((symbols bs).map Symbol.toChar)

/-- The text of `bs`, if it is well formed. -/
def decode? (bs : Bytes) : Option String := ((symbols bs).mapM Symbol.scalar?).map String.ofList

end SessionHost.Utf8
