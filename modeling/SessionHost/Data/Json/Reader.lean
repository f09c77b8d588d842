import SessionHost.Data.Json.Scan
import SessionHost.Data.Value
import SessionHost.Text.Digits

/-!
# Reading JSON

`Json.parse` reads one value that fills a text. A number that is written without fraction and
exponent is an integer, except for minus nought, which only fractions have. Nesting is bounded by
the length of the text, so the recursion on `fuel` never runs short of it.
-/
namespace SessionHost.Json

/-- The value of a number as it is written. -/
def numberValue (written : List Char) : Data :=
  if written.all fun c => c.isDigit || c == '-' then
    match written with
    | ['-', '0'] => .other
    | '-' :: ds => .integer (-(Int.ofNat (Text.natOfDigits ds)))
    | ds => .integer (Int.ofNat (Text.natOfDigits ds))
  else .other

mutual

/-- Reads a value, white space in front of it included. -/
def value? (fuel : Nat) (cs : List Char) : Option (Data × List Char) :=
  match fuel with
  | 0 => none
  | fuel + 1 =>
    match skipSpace cs with
    | [] => none
    | 'n' :: rest => (expect? ['u', 'l', 'l'] rest).map fun r => (.null, r)
    | 't' :: rest => (expect? ['r', 'u', 'e'] rest).map fun r => (.bool true, r)
    | 'f' :: rest => (expect? ['a', 'l', 's', 'e'] rest).map fun r => (.bool false, r)
    | '"' :: rest => (string? rest).map fun r => (.text r.1, r.2)
    | '[' :: rest =>
      match skipSpace rest with
      | ']' :: rest => some (.list [], rest)
      | _ => items? fuel [] rest
    | '\x7b' :: rest =>
      match skipSpace rest with
      | '\x7d' :: rest => some (.table [], rest)
      | _ => fields? fuel [] rest
    | cs => (number? cs).map fun r => (numberValue r.1, r.2)

/-- Reads the items of a list; `done` holds those before, last first. -/
def items? (fuel : Nat) (done : List Data) (cs : List Char) : Option (Data × List Char) :=
  match fuel with
  | 0 => none
  | fuel + 1 =>
    match value? fuel cs with
    | none => none
    | some (v, rest) =>
      match skipSpace rest with
      | ',' :: rest => items? fuel (v :: done) rest
      | ']' :: rest => some (.list (v :: done).reverse, rest)
      | _ => none

/-- Reads the fields of a table; `done` holds those before, last first. -/
def fields? (fuel : Nat) (done : List (String × Data)) (cs : List Char) :
    Option (Data × List Char) :=
  match fuel with
  | 0 => none
  | fuel + 1 =>
    match skipSpace cs with
    | '"' :: rest =>
      match string? rest with
      | none => none
      | some (key, rest) =>
        match skipSpace rest with
        | ':' :: rest =>
          match value? fuel rest with
          | none => none
          | some (v, rest) =>
            match skipSpace rest with
            | ',' :: rest => fields? fuel ((key, v) :: done) rest
            | '\x7d' :: rest => some (.table ((key, v) :: done).reverse, rest)
            | _ => none
        | _ => none
    | _ => none

end

/-- The value that `text` is, with nothing but white space around it. -/
def parse (text : Bytes) : Option Data :=
  let cs := Bytes.toOctets text
  match value? (2 * cs.length + 2) cs with
  | some (v, rest) => if (skipSpace rest).isEmpty then some v else none
  | none => none

end SessionHost.Json
