import SessionHost.Bytes

/-!
# Finding a marker in a stream (`session/controller`)

Occurrences are taken leftmost first, and each starts behind the one before it. A stream arrives in
chunks that may cut a marker anywhere, so a reader keeps a tail: as much of the text behind the last
occurrence as could still begin one.

* `Marker.scan` walks a text once and says where the last occurrence ends;
* `Marker.advance` is one chunk: whether an occurrence ended in it, and the new tail.
-/
namespace SessionHost.Marker

/-- Where the last occurrence of `marker` ends, if there is one. `place` counts the bytes passed
over, and an occurrence may start at `free` or later. -/
def scanFrom (marker : Bytes) (place free : Nat) (last : Option Nat) : Bytes → Option Nat
  | [] => last
  | b :: rest =>
    if free ≤ place ∧ marker.isPrefixOf (b :: rest) then
      scanFrom marker (place + 1) (place + marker.length) (some (place + marker.length)) rest
    else scanFrom marker (place + 1) free last rest

/-- The end of the last of the leftmost non-overlapping occurrences of `marker` in `text`.
mirrors session/controller:76-81 -/
def scan (marker text : Bytes) : Option Nat := scanFrom marker 0 0 none text

/-- Reads `chunk` behind `tail`: whether an occurrence ended, and what is kept for the next chunk,
which is never long enough to hold a whole marker.
mirrors session/controller:73-85 -/
def advance (marker tail chunk : Bytes) : Bool × Bytes :=
  let window := tail ++ chunk
  let consumed := scan marker window
  let start := max (window.length - (marker.length - 1)) (consumed.getD 0)
  (consumed.isSome, window.drop start)

end SessionHost.Marker
