/-!
# Data

The values that settings, requests and answers are made of, whatever format they are written in. A
table keeps its fields in the order in which they were written. No setting is a fraction or a point
in time, so all such scalars are one constructor, `other`.
-/
namespace SessionHost

/-- A value of a data format. -/
inductive Data where
  | null
  | bool (b : Bool)
  | integer (n : Int)
  | other
  | text (s : String)
  | list (items : List Data)
  | table (fields : List (String × Data))
  deriving Repr, Inhabited

namespace Data

/-- The value of the first field called `key`. -/
def field? (fields : List (String × Data)) (key : String) : Option Data :=
  (fields.find? fun f => f.1 == key).map (·.2)

/-- The value under `key`, if this is a table that has it. -/
def get? : Data → String → Option Data
  | table fields, key => field? fields key
  | _, _ => none

def text? : Data → Option String
  | text s => some s
  | _ => none

def integer? : Data → Option Int
  | integer n => some n
  | _ => none

/-- The largest number that fits sixty-four bits. -/
def maxWord : Nat := 0xFFFFFFFFFFFFFFFF

/-- An unsigned number of sixty-four bits, if it is one. -/
def word? : Data → Option Nat
  | integer (.ofNat n) => if n ≤ maxWord then some n else none
  | _ => none

/-- The items of this value, if it is a list. -/
def items? : Data → Option (List Data)
  | list items => some items
  | _ => none

def nat (n : Nat) : Data := integer (Int.ofNat n)

def option {α : Type} (f : α → Data) : Option α → Data
  | none => null
  | some a => f a

end Data

end SessionHost
