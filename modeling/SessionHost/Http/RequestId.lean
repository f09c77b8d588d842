import SessionHost.Bytes

/-!
# Names for requests

A request that is answered with an error has a name of its own, by which it can be found again. The
name has the form of a random identifier of the fourth version: thirty-two lower-case hexadecimal
digits in five groups, with the version in front of the third group and two fixed bits in front of the
fourth.

* `RequestId.ofNat` makes a name from a number;
* `RequestId.isWellFormed` says whether a text is such a name.
-/
namespace SessionHost.RequestId

/-- A number that looks unlike its neighbours. -/
def scramble (n : Nat) : Nat := (n + 1) * 0x9E3779B97F4A7C15F39CC0605CEDC835 % Nat.pow 2 128

/-- So many hexadecimal digits of a number. -/
def digits : Nat → Nat → List Char
  | 0, _ => []
  | count + 1, n => Bytes.hexDigit (n % 16) :: digits count (n / 16)

/-- The name for a number. -/
def ofNat (n : Nat) : String :=
  let ds := digits 32 (scramble n)
  let part (from_ count : Nat) : List Char := (ds.drop from_).take count
  String.ofList (part 0 8 ++ '-' :: part 8 4 ++ '-' :: '4' :: part 13 3 ++ '-' ::
    Bytes.hexDigit (8 + scramble n % 4) :: part 17 3 ++ '-' :: part 20 12)

def groupLengths : List Nat := [8, 4, 4, 4, 12]

def isDigit (c : Char) : Bool := c.isDigit || ('a' ≤ c && c ≤ 'f')

/-- Whether a text has the form of a name. -/
def isWellFormed (s : String) : Bool :=
  let groups := (s.splitOn "-").map String.toList
  groups.map List.length == groupLengths && groups.all (·.all isDigit)
    && (groups[2]?.bind List.head?) == some '4'
    && ((groups[3]?.bind List.head?).map fun c => ['8', '9', 'a', 'b'].contains c) == some true

end SessionHost.RequestId
