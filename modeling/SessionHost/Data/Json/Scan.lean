import SessionHost.Bytes
import SessionHost.Utf8.Decoder

/-!
# The tokens of JSON text

Text is read as octets, so a string may hold bytes that are no UTF-8; they matter only to a reader
that wants the string. Each scanner takes the octets from some place on and gives back what it read
together with the rest.

* `Json.string?` decodes a string: escapes resolved, halves of a pair joined, UTF-8 checked;
* `Json.skipString?` checks its form only;
* `Json.number?` reads a number as it is written.
-/
namespace SessionHost.Json

/-- The four characters that may stand between tokens. -/
def isSpace (c : Char) : Bool := c == ' ' || c == '\n' || c == '\t' || c == '\r'

/-- The rest of a text from its next token on. -/
def skipSpace (cs : List Char) : List Char := cs.dropWhile isSpace

def hex4? : List Char → Option (Nat × List Char)
  | a :: b :: c :: d :: rest => do
    let a ← Bytes.hexValue? a
    let b ← Bytes.hexValue? b
    let c ← Bytes.hexValue? c
    let d ← Bytes.hexValue? d
    return (((a * 16 + b) * 16 + c) * 16 + d, rest)
  | _ => none

/-- The octet that a one-letter escape stands for. -/
def escape? : Char → Option Char
  | '"' => some '"'
  | '\\' => some '\\'
  | '/' => some '/'
  | 'b' => some '\x08'
  | 'f' => some '\x0c'
  | 'n' => some '\n'
  | 'r' => some '\r'
  | 't' => some '\t'
  | _ => none

/-- The octets of a character, last first. -/
def octetsReversed (c : Char) : List Char :=
  (Bytes.toOctets (String.utf8EncodeChar c)).reverse

/-- Where a string scanner stands: in plain text, behind a backslash, or behind `\u` with some
digits read, the first half of a pair kept in `high`. -/
inductive StringState where
  | plain
  | escaped
  | unicode (digits value : Nat) (high : Option Nat)
  | pairSlash (high : Nat)
  | pairLetter (high : Nat)
  deriving DecidableEq, Repr

/-- What a four-digit escape completes: the next state, and the character it gave. `none` for half
of a pair that lacks the other half. -/
def completeEscape (value : Nat) : Option Nat → Option (StringState × Option Char)
  | none =>
    if 0xD800 ≤ value ∧ value < 0xDC00 then some (.pairSlash value, none)
    else if 0xDC00 ≤ value ∧ value < 0xE000 then none
    else some (.plain, some (Char.ofNat value))
  | some high =>
    if 0xDC00 ≤ value ∧ value < 0xE000 then
      some (.plain, some (Char.ofNat (0x10000 + (high - 0xD800) * 0x400 + (value - 0xDC00))))
    else none

/-- Reads a string from behind its opening quote; `done` holds its octets, last first. -/
def stringFrom (done : List Char) : StringState → List Char → Option (List Char × List Char)
  | _, [] => none
  | .plain, c :: rest =>
    if c == '"' then some (done.reverse, rest)
    else if c == '\\' then stringFrom done .escaped rest
    else if c.toNat < 0x20 then none
    else stringFrom (c :: done) .plain rest
  | .escaped, c :: rest =>
    if c == 'u' then stringFrom done (.unicode 0 0 none) rest
    else match escape? c with
      | some d => stringFrom (d :: done) .plain rest
      | none => none
  | .unicode digits value high, c :: rest =>
    match Bytes.hexValue? c with
    | none => none
    | some d =>
      let value := value * 16 + d
      if digits < 3 then stringFrom done (.unicode (digits + 1) value high) rest
      else match completeEscape value high with
        | none => none
        | some (state, none) => stringFrom done state rest
        | some (state, some ch) => stringFrom (octetsReversed ch ++ done) state rest
  | .pairSlash high, c :: rest =>
    if c == '\\' then stringFrom done (.pairLetter high) rest else none
  | .pairLetter high, c :: rest =>
    if c == 'u' then stringFrom done (.unicode 0 0 (some high)) rest else none

/-- Reads and decodes a string from behind its opening quote. -/
def string? (cs : List Char) : Option (String × List Char) := do
  let (octets, rest) ← stringFrom [] .plain cs
  let s ← Utf8.decode? (Bytes.ofOctets octets)
  return (s, rest)

/-- Passes over a string from behind its opening quote: its escapes need the right digits only. -/
def skipStringFrom : StringState → List Char → Option (List Char)
  | _, [] => none
  | .plain, c :: rest =>
    if c == '"' then some rest
    else if c == '\\' then skipStringFrom .escaped rest
    else if c.toNat < 0x20 then none
    else skipStringFrom .plain rest
  | .escaped, c :: rest =>
    if c == 'u' then skipStringFrom (.unicode 0 0 none) rest
    else if (escape? c).isSome then skipStringFrom .plain rest
    else none
  | .unicode digits _ _, c :: rest =>
    if (Bytes.hexValue? c).isNone then none
    else skipStringFrom (if digits < 3 then .unicode (digits + 1) 0 none else .plain) rest
  | _, _ :: _ => none

/-- Passes over a string from behind its opening quote. -/
def skipString? (cs : List Char) : Option (List Char) := skipStringFrom .plain cs

def digits? (cs : List Char) : Option (List Char × List Char) :=
  let ds := cs.takeWhile Char.isDigit
  if ds.isEmpty then none else some (ds, cs.dropWhile Char.isDigit)

/-- The whole part of a number: a single nought, or digits that do not begin with one. -/
def whole? : List Char → Option (List Char × List Char)
  | '0' :: rest => if (rest.head?.map Char.isDigit).getD false then none else some (['0'], rest)
  | cs => digits? cs

def fraction? : List Char → Option (List Char × List Char)
  | '.' :: rest => (digits? rest).map fun r => ('.' :: r.1, r.2)
  | cs => some ([], cs)

def exponent? : List Char → Option (List Char × List Char)
  | c :: rest =>
    if c == 'e' || c == 'E' then
      match rest with
      | s :: rest' =>
        if s == '+' || s == '-' then (digits? rest').map fun r => (c :: s :: r.1, r.2)
        else (digits? rest).map fun r => (c :: r.1, r.2)
      | [] => none
    else some ([], c :: rest)
  | [] => some ([], [])

def number? (cs : List Char) : Option (List Char × List Char) := do
  let (sign, cs) := match cs with
    | '-' :: rest => (['-'], rest)
    | _ => ([], cs)
  let (whole, cs) ← whole? cs
  let (fraction, cs) ← fraction? cs
  let (exponent, cs) ← exponent? cs
  return (sign ++ whole ++ fraction ++ exponent, cs)

/-- The rest behind `word`, if the text starts with it. -/
def expect? : List Char → List Char → Option (List Char)
  | [], cs => some cs
  | w :: word, c :: cs => if w == c then expect? word cs else none
  | _ :: _, [] => none

end SessionHost.Json
