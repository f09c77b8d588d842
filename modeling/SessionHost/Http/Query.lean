import SessionHost.Http.Percent
import SessionHost.Text.Number
import SessionHost.Utf8.Decoder

/-!
# Queries

A query is a list of fields with `&` between them. A field is a key and a value with `=` between them;
without one the value is empty. Bytes that are no UTF-8 are shown as replacement characters. A key that
is asked for may stand in a query once.

* `Query.ofBytes` reads a query;
* `Query.text?` and `Query.word?` look a key up.
-/
namespace SessionHost

structure Query where
  fields : List (String × String)
  deriving DecidableEq, Repr, Inhabited

namespace Query

/-- The parts of a list between the elements `mark`. -/
def partsAt (mark : UInt8) : Bytes → List Bytes
  | [] => [[]]
  | b :: rest =>
    if b = mark then [] :: partsAt mark rest
    else match partsAt mark rest with
      | part :: parts => (b :: part) :: parts
      | [] => [[b]]

def decodeText (bs : Bytes) : String := Utf8.lossy (Percent.decodeForm bs)

def fieldOf (bs : Bytes) : String × String :=
  let key := bs.takeWhile fun b => b != 61
  (decodeText key, decodeText (bs.drop (key.length + 1)))

/-- Reads a query. Empty parts of it are passed over. -/
def ofBytes (bs : Bytes) : Query where
  fields := ((partsAt 38 bs).filter fun part => part != []).map fieldOf

/-- Why a query is refused: a key stands in it twice, or has a value of the wrong kind. -/
inductive Fault where
  | repeated (key : String)
  | notANumber (key : String)
  deriving DecidableEq, Repr

def text? (q : Query) (key : String) : Except Fault (Option String) :=
  match q.fields.filter fun f => f.1 == key with
  | [] => .ok none
  | [f] => .ok (some f.2)
  | _ => .error (.repeated key)

def word? (q : Query) (key : String) : Except Fault (Option Nat) := do
  match ← q.text? key with
  | none => return none
  | some s =>
    match Text.word? s with
    | some n => return some n
    | none => .error (.notANumber key)

end Query

end SessionHost
