import SessionHost.Bytes

/-!
# Where a text may be cut (`session/buffer`)

A poll that answers while a program still writes must not cut a character in two. The boundary rule
looks at the last four bytes only: it goes back over continuation bytes to the first other byte, and
holds back everything from there on if that byte announces more bytes than have arrived.

* `Utf8.completeLength_le`: the rule never asks for bytes that are not there.
-/
namespace SessionHost.Utf8

def isContinuation (b : UInt8) : Bool := b &&& 0xC0 == 0x80

/-- How many bytes the sequence has that `b` announces; a byte that announces none counts as one.
mirrors session/buffer:79-84 -/
def announcedWidth (b : UInt8) : Nat :=
  if 0xC0 ≤ b ∧ b ≤ 0xDF then 2
  else if 0xE0 ≤ b ∧ b ≤ 0xEF then 3
  else if 0xF0 ≤ b ∧ b ≤ 0xF7 then 4
  else 1

/-- How many of the last bytes belong to a sequence that is still open. The text is given last byte
first; `back` bytes have been passed over and `reach` more may be looked at. -/
def heldBack (reach back : Nat) : Bytes → Nat
  | [] => 0
  | b :: rest =>
    match reach with
    | 0 => 0
    | reach + 1 =>
      if isContinuation b then heldBack reach (back + 1) rest
      else if announcedWidth b > back + 1 then back + 1
      else 0

/-- The length of `bs` without a sequence that is cut off at its end.
mirrors session/buffer:72-88 -/
def completeLength (bs : Bytes) : Nat := bs.length - heldBack 4 0 bs.reverse

theorem completeLength_le (bs : Bytes) : completeLength bs ≤ bs.length := Nat.sub_le _ _

end SessionHost.Utf8
