import SessionHost.Data.Value
import SessionHost.Text.Digits

/-!
# Numbers in text

An unsigned number of sixty-four bits, written in decimal digits. A plus sign in front and leading
noughts are allowed, and nothing else.
-/
namespace SessionHost.Text

/-- The digits of a number behind a plus sign, which may be missing. -/
def unsignedDigits : List Char → List Char
  | '+' :: ds => ds
  | ds => ds

def word? (s : String) : Option Nat :=
  let ds := unsignedDigits s.toList
  if ds.isEmpty || !ds.all Char.isDigit then none
  else if natOfDigits ds ≤ Data.maxWord then some (natOfDigits ds)
  else none

theorem le_maxWord_of_word? {s : String} {n : Nat} (h : word? s = some n) : n ≤ Data.maxWord := by
  simp only [word?] at h
  split at h
  · simp at h
  · split at h
    · simp only [Option.some.injEq] at h; omega
    · simp at h

end SessionHost.Text
