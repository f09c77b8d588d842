import SessionHost.Host.Basic

/-!
# Scratch directories (`toolchain/mod`)

Every build has a directory of its own, made in the configured place or in the place for temporary
files. Its name is a fixed beginning and six characters that no other directory there has.

* `Scratch.make?` makes one; `Scratch.remove` takes one away with all that is in it.
-/
namespace SessionHost.Scratch

open SessionHost.Host (Path Files)

def beginning : String := "runbox-"

def alphabet : List Char :=
  "ABCDEFGHIJKLMNOPQRSTUVWXYZabcdefghijklmnopqrstuvwxyz0123456789".toList

def characters : Nat → Nat → List Char
  | 0, _ => []
  | count + 1, n => (alphabet[n % 62]?).getD 'A' :: characters count (n / 62)

def name (n : Nat) : String := beginning ++ String.ofList (characters 6 n)

def temporary : String := "/tmp"

/-- Makes a scratch directory below `parent`, or in the place for temporary files: its written path
and its place. Directories on the way that are missing are made.
mirrors toolchain/mod:201-211 -/
def make? (h : Host) (home : Path) (parent : Option String) :
    Except IoError (Host × String × Path) := do
  let (files, base, text) ← match parent with
    | none => do
      let p ← h.files.resolve? home temporary
      pure (h.files, p, temporary)
    | some dir =>
      let start := if Path.isAbsolute dir then [] else home
      let (files, p) ← h.files.makeDirectories? start (Path.components dir)
      let text :=
        if Path.isAbsolute dir then dir
        else if dir == "" then Path.text home
        else Path.join (Path.text home) dir
      pure (files, p, text)
  let own := name (h.next * 2654435761 % Nat.pow 62 6)
  let files ← files.makeDirectory? (base ++ [own])
  return ({ h with files, next := h.next + 1 }, Path.join text own, base ++ [own])

def remove (h : Host) (p : Path) : Host := { h with files := h.files.remove p }

end SessionHost.Scratch
