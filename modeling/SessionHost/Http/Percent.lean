import SessionHost.Bytes

/-!
# Percent signs

A byte that may not stand in an address is written as a percent sign and two hexadecimal digits. A
percent sign that no two digits follow stands for itself.

* `Percent.decode` resolves them; `Percent.decodeForm` also takes a plus sign for a blank.
-/
namespace SessionHost.Percent

/-- The byte of two hexadecimal digits. -/
def byte? (high low : UInt8) : Option UInt8 := do
  let h ← Bytes.hexValue? (Char.ofNat high.toNat)
  let l ← Bytes.hexValue? (Char.ofNat low.toNat)
  return (h * 16 + l).toUInt8

def decode : Bytes → Bytes
  | [] => []
  | [a] => [a]
  | [a, b] => [a, b]
  | a :: b :: c :: rest =>
    if a = 37 then
      match byte? b c with
      | some d => d :: decode rest
      | none => a :: decode (b :: c :: rest)
    else a :: decode (b :: c :: rest)

/-- Takes plus signs for blanks, and then resolves percent signs. -/
def decodeForm (bs : Bytes) : Bytes := decode (bs.map fun b => if b = 43 then 32 else b)

theorem decode_cons_of_ne {a : UInt8} (h : a ≠ 37) (bs : Bytes) :
    decode (a :: bs) = a :: decode bs := by
  match bs with
  | [] => rfl
  | [_] => rfl
  | _ :: _ :: _ => rw [decode, if_neg h]

end SessionHost.Percent
