/-!
# Digits

`Text.natOfDigits` is the value of a run of decimal digits, the first of which counts most.
-/
namespace SessionHost.Text

def natOfDigits (ds : List Char) : Nat := ds.foldl (fun n d => n * 10 + (d.toNat - 48)) 0

theorem natOfDigits_append_singleton (ds : List Char) (d : Char) :
    natOfDigits (ds ++ [d]) = natOfDigits ds * 10 + (d.toNat - 48) := by
  simp [natOfDigits]

end SessionHost.Text
