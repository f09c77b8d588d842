/-!
# Bytes

A stream is the list of its bytes. Text enters it through UTF-8, one character after the other
(`Bytes.ofString`), and the octet view (`Bytes.toOctets`, `Bytes.ofOctets`) names each byte by the
character of the same number, so that code which reads bytes as words of a command language can
match on them.

* `Bytes.ofOctets_toOctets`: the octet view loses nothing.
-/
namespace SessionHost

abbrev Bytes := List UInt8

namespace Bytes

def newline : UInt8 := 10

def ofString (s : String) : Bytes := s.toList.flatMap String.utf8EncodeChar

/-- Each byte as the character of that number. -/
def toOctets (bs : Bytes) : List Char := bs.map fun b => Char.ofNat b.toNat

/-- The byte of each character; a character past 255 keeps its low eight bits. -/
def ofOctets (cs : List Char) : Bytes := cs.map fun c => c.toNat.toUInt8

theorem toNat_ofNat_byte (b : UInt8) : (Char.ofNat b.toNat).toNat = b.toNat := by
  have h : b.toNat < 256 := b.toNat_lt
  have hv : b.toNat.isValidChar := Or.inl (by omega)
  rw [Char.ofNat, dif_pos hv]
  rfl

@[simp] theorem ofOctets_toOctets (bs : Bytes) : ofOctets (toOctets bs) = bs := by
  simp only [ofOctets, toOctets, List.map_map]
  conv => rhs; rw [← List.map_id bs]
  refine List.map_congr_left fun b _ => ?_
  simp [toNat_ofNat_byte]

/-- Lower-case hexadecimal digit of a number below sixteen. -/
def hexDigit (n : Nat) : Char :=
  if n < 10 then Char.ofNat (48 + n) else Char.ofNat (87 + n)

def toHex (bs : Bytes) : String :=
  String.ofList (bs.flatMap fun b => [hexDigit (b.toNat / 16), hexDigit (b.toNat % 16)])

/-- Value of a hexadecimal digit of either case. -/
def hexValue? (c : Char) : Option Nat :=
  if '0' ≤ c ∧ c ≤ '9' then some (c.toNat - 48)
  else if 'a' ≤ c ∧ c ≤ 'f' then some (c.toNat - 87)
  else if 'A' ≤ c ∧ c ≤ 'F' then some (c.toNat - 55)
  else none

/-- Reads pairs of hexadecimal digits; anything else is skipped with what follows it. -/
def ofHex : List Char → Bytes
  | a :: b :: rest =>
    match hexValue? a, hexValue? b with
    | some x, some y => (x * 16 + y).toUInt8 :: ofHex rest
    | _, _ => []
  | _ => []

/-- The first place at which `sought` occurs in `bs`, counted from `at_`. -/
def findFrom (sought : Bytes) (place : Nat) : Bytes → Option Nat
  | [] => if sought.isEmpty then some place else none
  | b :: bs =>
    if sought.isPrefixOf (b :: bs) then some place else findFrom sought (place + 1) bs

/-- Whether `sought` occurs anywhere in `bs`. -/
def contains (bs sought : Bytes) : Bool := (findFrom sought 0 bs).isSome

/-- The bytes `bs` cut into pieces of `size` bytes, the last of which may be shorter. -/
def pieces (size : Nat) (bs : Bytes) : List Bytes :=
  if _h : bs = [] ∨ size = 0 then []
  else bs.take size :: pieces size (bs.drop size)
termination_by bs.length
decreasing_by
  have hl : bs.length ≠ 0 := fun e => _h (Or.inl (List.length_eq_zero_iff.1 e))
  simp only [List.length_drop]
  omega

end Bytes

end SessionHost
