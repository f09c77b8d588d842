import SessionHost.Data.Json.Skip
import SessionHost.Text.Digits

/-!
# Records of texts in JSON

A record has fields in an order, and all of them are texts. It is written as a table of them, or as a
list of their values in that order, of which the last may be missing. A table may hold fields that the
record lacks; they are passed over. Reading goes from the front, and the first fault decides:

* a fault of *form* is a text that is no JSON at that place;
* a fault of *shape* is JSON that is no such record: a value that is no text, a field that is missing
  or written twice.
-/
namespace SessionHost.Json

inductive RecordFault where
  | form
  | shape
  deriving DecidableEq, Repr

/-- A field of a record; one that is not `needed` may be missing. -/
structure RecordField where
  name : String
  needed : Bool := false
  deriving DecidableEq, Repr

/-- The first whole number that is too large for a binary fraction of double precision. -/
def firstTooLarge : Nat := Nat.pow 2 1024 - Nat.pow 2 970

/-- Whether a written number is small enough for a binary fraction of double precision. -/
def isFinite (written : List Char) : Bool :=
  let mantissa := written.takeWhile fun c => c != 'e' && c != 'E'
  let places := (mantissa.dropWhile fun c => c != '.').length - 1
  let value := Text.natOfDigits (mantissa.filter Char.isDigit)
  let size := value.log2 / 3
  let exponent := written.drop (mantissa.length + 1)
  let shift := Text.natOfDigits (exponent.filter Char.isDigit)
  if value = 0 then true
  else if exponent.head? == some '-' then
    if places + shift > size then true else value < firstTooLarge * Nat.pow 10 (places + shift)
  else if shift > places + 309 then false
  else value * Nat.pow 10 shift < firstTooLarge * Nat.pow 10 places

/-- The fault of a value that should be a text and is not. -/
def faultOf : List Char → RecordFault
  | '[' :: _ => .shape
  | '\x7b' :: _ => .shape
  | 'n' :: rest => if (expect? ['u', 'l', 'l'] rest).isSome then .shape else .form
  | 't' :: rest => if (expect? ['r', 'u', 'e'] rest).isSome then .shape else .form
  | 'f' :: rest => if (expect? ['a', 'l', 's', 'e'] rest).isSome then .shape else .form
  | '"' :: rest => if (string? rest).isSome then .shape else .form
  | cs =>
    match number? cs with
    | some (written, _) => if isFinite written then .shape else .form
    | none => .form

def textAt (cs : List Char) : Except RecordFault (String × List Char) :=
  match skipSpace cs with
  | '"' :: rest =>
    match string? rest with
    | some r => .ok r
    | none => .error .form
  | cs => .error (faultOf cs)

/-- Checks that a record has the fields that it needs. -/
def checkNeeded (fields : List RecordField) (found : List (String × String)) :
    Except RecordFault (List (String × String)) :=
  if fields.all fun f => !f.needed || found.any fun v => v.1 == f.name then .ok found
  else .error .shape

/-- Reads the values of a list for the fields that are left, and its end. -/
def listRecord (found : List (String × String)) (first : Bool) :
    List RecordField → List Char → Except RecordFault (List (String × String) × List Char)
  | [], cs =>
    match skipSpace cs with
    | ']' :: rest => .ok (found, rest)
    | _ => .error .form
  | f :: fields, cs =>
    match first, skipSpace cs with
    | _, ']' :: rest => do return (← checkNeeded (f :: fields) [] |>.map fun _ => found, rest)
    | false, ',' :: rest =>
      match skipSpace rest with
      | ']' :: _ => .error .form
      | rest => do
        let (v, rest) ← textAt rest
        listRecord (found ++ [(f.name, v)]) false fields rest
    | true, cs => do
      let (v, rest) ← textAt cs
      listRecord (found ++ [(f.name, v)]) false fields rest
    | false, _ => .error .form

/-- Reads a key from its opening quote on, up to its colon or its end. -/
def keyAt (cs : List Char) : Except RecordFault (String × List Char) :=
  match cs with
  | '"' :: rest =>
    match string? rest with
    | some r => .ok r
    | none => .error .form
  | _ => .error .form

def colonAt (cs : List Char) : Except RecordFault (List Char) :=
  match skipSpace cs with
  | ':' :: rest => .ok rest
  | _ => .error .form

def fieldAt (fields : List RecordField) (found : List (String × String)) (key : String)
    (cs : List Char) : Except RecordFault (List (String × String) × List Char) :=
  if fields.any fun f => f.name == key then
    if found.any fun v => v.1 == key then .error .shape
    else do
      let (v, rest) ← textAt (← colonAt cs)
      return (found ++ [(key, v)], rest)
  else do
    match skipValue? (← colonAt cs) with
    | some rest => return (found, rest)
    | none => .error .form

/-- Reads the fields of a table. Every field takes a character, so that the number of characters is
enough for `fuel`. -/
def tableRecord (fields : List RecordField) :
    Nat → List (String × String) → Bool → List Char →
      Except RecordFault (List (String × String) × List Char)
  | 0, _, _, _ => .error .form
  | fuel + 1, found, first, cs =>
    match first, skipSpace cs with
    | _, '\x7d' :: rest => do return (← checkNeeded fields found, rest)
    | true, cs => do
      let (key, rest) ← keyAt cs
      let (found, rest) ← fieldAt fields found key rest
      tableRecord fields fuel found false rest
    | false, ',' :: rest => do
      let (key, rest) ← keyAt (skipSpace rest)
      let (found, rest) ← fieldAt fields found key rest
      tableRecord fields fuel found false rest
    | false, _ => .error .form

/-- Reads a record that fills a text: the fields that it has, with their values. -/
def record (fields : List RecordField) (text : Bytes) :
    Except RecordFault (List (String × String)) := do
  let (found, rest) ← match skipSpace (Bytes.toOctets text) with
    | '[' :: rest => listRecord [] true fields rest
    | '\x7b' :: rest => tableRecord fields (rest.length + 1) [] true rest
    | cs => .error (faultOf cs)
  if (skipSpace rest).isEmpty then return found else .error .form

/-- The value of a field, or the empty text. -/
def valueOf (found : List (String × String)) (name : String) : String :=
  ((found.find? fun v => v.1 == name).map (·.2)).getD ""

end SessionHost.Json
