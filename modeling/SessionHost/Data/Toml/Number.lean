/-!
# Numbers in TOML

A number is judged as a whole word: the characters up to the next one that no number contains.
Underscores stand between digits only. A fraction too large for a binary number of sixty-four bits
is refused, and so is an integer outside `-2^63 ..< 2^64`.
-/
namespace SessionHost.Toml

/-- A number, as far as settings can tell numbers apart. -/
inductive Number where
  | integer (n : Int)
  | fraction
  deriving DecidableEq, Repr

/-- Digits of which each underscore has a digit on both sides, with the underscores taken out. -/
def digitsFrom (isDigit : Char → Bool) (done : List Char) (afterDigit : Bool) :
    List Char → Option (List Char)
  | [] => if afterDigit then some done.reverse else none
  | c :: rest =>
    if isDigit c then digitsFrom isDigit (c :: done) true rest
    else if c == '_' && afterDigit then digitsFrom isDigit done false rest
    else none

/-- The digits of a run with underscores between them. -/
def digits? (isDigit : Char → Bool) (cs : List Char) : Option (List Char) :=
  digitsFrom isDigit [] false cs

/-- The value of a digit of a base up to sixteen. -/
def digitValue (c : Char) : Nat :=
  if c.isDigit then c.toNat - 48 else if c.toNat < 97 then c.toNat - 55 else c.toNat - 87

def value (base : Nat) (ds : List Char) : Nat :=
  ds.foldl (fun n d => n * base + digitValue d) 0

/-- The integer, if it is in the range that a document may hold. -/
def inRange? (n : Int) : Option Number :=
  if -0x8000000000000000 ≤ n ∧ n < 0x10000000000000000 then some (.integer n) else none

/-- An unsigned integer to another base, from behind its two-letter mark. -/
def based? : List Char → Option Number
  | '0' :: 'x' :: cs =>
    (digits? (fun c => c.isDigit || ('a' ≤ c && c ≤ 'f') || ('A' ≤ c && c ≤ 'F')) cs).bind
      fun ds => inRange? (value 16 ds)
  | '0' :: 'o' :: cs =>
    (digits? (fun c => '0' ≤ c && c ≤ '7') cs).bind fun ds => inRange? (value 8 ds)
  | '0' :: 'b' :: cs =>
    (digits? (fun c => c == '0' || c == '1') cs).bind fun ds => inRange? (value 2 ds)
  | _ => none

/-- Whether `m * 10 ^ e` rounds to a finite binary number of sixty-four bits: it lies below the
middle between the largest one and the next power of two. -/
def isFinite (m : Nat) (e : Int) : Bool :=
  let size := (toString m).length
  if m == 0 then true
  else if (size : Int) + e > 310 then false
  else if (size : Int) + e < 300 then true
  else
    let bound := Nat.pow 2 1024 - Nat.pow 2 970
    match e with
    | .ofNat k => m * Nat.pow 10 k < bound
    | .negSucc k => m < bound * Nat.pow 10 (k + 1)

def sign : List Char → Bool × List Char
  | '-' :: cs => (true, cs)
  | '+' :: cs => (false, cs)
  | cs => (false, cs)

/-- The whole part of a decimal number: no nought in front of another digit. -/
def whole? (cs : List Char) : Option (List Char) :=
  match digits? Char.isDigit cs with
  | some ('0' :: _ :: _) => none
  | r => r

def decimal? (negative : Bool) (cs : List Char) : Option Number :=
  let mantissa := cs.takeWhile fun c => c != 'e' && c != 'E'
  let exponent := cs.drop mantissa.length
  let whole := mantissa.takeWhile fun c => c != '.'
  let point := mantissa.drop whole.length
  match whole? whole with
  | none => none
  | some ds =>
    if point.isEmpty && exponent.isEmpty then
      inRange? (if negative then -(value 10 ds : Int) else value 10 ds)
    else do
      let fs ← if point.isEmpty then some [] else digits? Char.isDigit (point.drop 1)
      let e ← if exponent.isEmpty then some 0
        else
          let (down, es) := sign (exponent.drop 1)
          (digits? Char.isDigit es).map fun es =>
            if down then -(value 10 es : Int) else (value 10 es : Int)
      if isFinite (value 10 (ds ++ fs)) (e - fs.length) then some .fraction else none

/-- Reads a whole word as a number. -/
def number? (word : List Char) : Option Number :=
  match based? word with
  | some n => some n
  | none =>
    let (negative, cs) := sign word
    if cs == ['i', 'n', 'f'] || cs == ['n', 'a', 'n'] then some .fraction
    else decimal? negative cs

end SessionHost.Toml
