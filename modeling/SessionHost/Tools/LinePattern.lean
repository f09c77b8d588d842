import SessionHost.Text.Digits

/-!
# Line patterns

A line pattern is a regular expression over the symbols of a line: its characters, a symbol before
the first and a symbol behind the last. The anchors are the expressions for those two symbols, so
they need no rule of their own. Matching takes derivatives: what remains to be matched once the
first symbol is gone.

* `LinePattern.read?` reads the basic and the extended spelling;
* `LinePattern.search` looks for a match anywhere in a line.
-/
namespace SessionHost.Tools

inductive LineSymbol where
  | start
  | char (c : Char)
  | stop
  deriving DecidableEq, Repr

/-- A regular expression over symbols. -/
inductive LinePattern where
  | never
  | empty
  | only (s : LineSymbol)
  | anyChar
  | anySymbol
  | oneOf (negated : Bool) (ranges : List (Char × Char))
  | seq (a b : LinePattern)
  | or (a b : LinePattern)
  | many (a : LinePattern)
  deriving DecidableEq, Repr

namespace LinePattern

def matchesEmpty : LinePattern → Bool
  | never | only _ | anyChar | anySymbol | oneOf .. => false
  | empty | many _ => true
  | seq a b => a.matchesEmpty && b.matchesEmpty
  | or a b => a.matchesEmpty || b.matchesEmpty

/-- A sequence, the trivial ones shortened. -/
def andThen : LinePattern → LinePattern → LinePattern
  | never, _ => never
  | _, never => never
  | empty, b => b
  | a, empty => a
  | a, b => seq a b

/-- An alternative, the trivial ones shortened. -/
def orElse (a b : LinePattern) : LinePattern :=
  if a = never then b
  else if b = never then a
  else if a = b then a
  else match b with
    | .or c _ => if a = c then b else .or a b
    | _ => .or a b

/-- Whether a character is in one of the ranges. -/
def inRanges (ranges : List (Char × Char)) (c : Char) : Bool :=
  ranges.any fun r => r.1 ≤ c && c ≤ r.2

/-- What remains to be matched behind the symbol `s`. -/
def behind (s : LineSymbol) : LinePattern → LinePattern
  | never | empty => never
  | only t => if s = t then empty else never
  | anyChar => match s with
    | .char _ => empty
    | _ => never
  | anySymbol => empty
  | oneOf negated ranges => match s with
    | .char c => if inRanges ranges c != negated then empty else never
    | _ => never
  | seq a b =>
    let first := andThen (a.behind s) b
    if a.matchesEmpty then orElse first (b.behind s) else first
  | or a b => orElse (a.behind s) (b.behind s)
  | many a => andThen (a.behind s) (many a)

/-- Whether a pattern matches the whole of a list of symbols. -/
def covers (p : LinePattern) (ss : List LineSymbol) : Bool :=
  (ss.foldl (fun p s => p.behind s) p).matchesEmpty

def symbols (line : List Char) : List LineSymbol := .start :: line.map .char ++ [.stop]

/-- Whether a pattern matches anywhere in a line. -/
def search (p : LinePattern) (line : List Char) : Bool :=
  (seq (many anySymbol) (seq p (many anySymbol))).covers (symbols line)

/-- Whether a pattern matches the whole line. -/
def fitsLine (p : LinePattern) (line : List Char) : Bool :=
  (seq (or (only .start) empty) (seq p (or (only .stop) empty))).covers (symbols line)

/-- The lengths of the matches that begin where a text begins; `front` says that this is the front of
the line, and the text goes up to its end. -/
def lengthsAt (p : LinePattern) (front : Bool) (cs : List Char) : List Nat :=
  go (if front then (seq (or (only .start) empty) p).behind .start else p) 0 cs
where
  /-- Follows the text symbol by symbol. -/
  go (p : LinePattern) (n : Nat) : List Char → List Nat
    | [] => if p.matchesEmpty || (p.behind .stop).matchesEmpty then [n] else []
    | c :: rest =>
      let more := go (p.behind (.char c)) (n + 1) rest
      if p.matchesEmpty then n :: more else more

def times (p : LinePattern) : Nat → LinePattern
  | 0 => empty
  | n + 1 => andThen p (times p n)

/-- A pattern from `lo` up to `hi` times, or any number of times from `lo` on. -/
def repeated (p : LinePattern) (lo : Nat) (hi : Option Nat) : LinePattern :=
  match hi with
  | none => andThen (p.times lo) (many p)
  | some hi => andThen (p.times lo) ((or p empty).times (hi - lo))

/-! ## Reading -/

/-- The members of the named classes of characters. -/
def classRanges : String → List (Char × Char)
  | "alpha" => [('a', 'z'), ('A', 'Z')]
  | "digit" => [('0', '9')]
  | "alnum" => [('0', '9'), ('a', 'z'), ('A', 'Z')]
  | "upper" => [('A', 'Z')]
  | "lower" => [('a', 'z')]
  | "space" => [(' ', ' '), ('\t', '\r')]
  | "blank" => [(' ', ' '), ('\t', '\t')]
  | "punct" => [('!', '/'), (':', '@'), ('[', '\x60'), ('\x7b', '~')]
  | "print" => [(' ', '~')]
  | "cntrl" => [('\x00', '\x1f'), ('\x7f', '\x7f')]
  | "xdigit" => [('0', '9'), ('a', 'f'), ('A', 'F')]
  | _ => []

/-- Reads the members of a set up to its closing bracket. -/
def readSet (fuel : Nat) (first : Bool) (done : List (Char × Char)) (cs : List Char) :
    Option (List (Char × Char) × List Char) :=
  match fuel with
  | 0 => none
  | fuel + 1 =>
    match cs with
    | [] => none
    | '[' :: ':' :: rest =>
      let name := rest.takeWhile Char.isAlpha
      readSet fuel false (classRanges (String.ofList name) ++ done) (rest.drop (name.length + 2))
    | c :: rest =>
      if c == ']' && !first then some (done, rest)
      else match rest with
        | '-' :: d :: more =>
          if d == ']' then readSet fuel false ((c, c) :: done) rest
          else readSet fuel false ((c, d) :: done) more
        | _ => readSet fuel false ((c, c) :: done) rest

/-- Reads the bounds of a repetition up to its closing brace. -/
def readBounds? (extended : Bool) (cs : List Char) : Option (Nat × Option Nat × List Char) :=
  let digits (cs : List Char) : List Char := cs.takeWhile Char.isDigit
  let lo := digits cs
  let rest := cs.drop lo.length
  let (hi, rest) : Option Nat × List Char := match rest with
    | ',' :: rest =>
      let hi := digits rest
      (if hi.isEmpty then none else some (Text.natOfDigits hi), rest.drop hi.length)
    | _ => (some (Text.natOfDigits lo), rest)
  match extended, rest with
  | true, '\x7d' :: rest => some (Text.natOfDigits lo, hi, rest)
  | false, '\\' :: '\x7d' :: rest => some (Text.natOfDigits lo, hi, rest)
  | _, _ => none

/-- The operator at the front: its name without the backslash that the spelling may want. -/
def operator? (extended : Bool) (cs : List Char) : Option (Char × List Char) :=
  match cs with
  | '*' :: rest => some ('*', rest)
  | '\\' :: c :: rest =>
    if !extended && (c == '(' || c == ')' || c == '|' || c == '\x7b' || c == '+' || c == '?') then
      some (c, rest)
    else none
  | c :: rest =>
    if extended && (c == '(' || c == ')' || c == '|' || c == '\x7b' || c == '+' || c == '?') then
      some (c, rest)
    else none
  | [] => none

mutual

def readChoice (extended : Bool) (fuel : Nat) (cs : List Char) : Option (LinePattern × List Char) :=
  match fuel with
  | 0 => none
  | fuel + 1 => do
    let (a, rest) ← readSequence extended fuel true empty cs
    match operator? extended rest with
    | some ('|', rest) =>
      let (b, rest) ← readChoice extended fuel rest
      return (or a b, rest)
    | _ => return (a, rest)

/-- Reads a sequence behind `done`. `first` says that nothing stands before. -/
def readSequence (extended : Bool) (fuel : Nat) (first : Bool) (done : LinePattern)
    (cs : List Char) : Option (LinePattern × List Char) :=
  match fuel with
  | 0 => none
  | fuel + 1 =>
    match cs with
    | [] => some (done, [])
    | c :: rest =>
      let go (p : LinePattern) (rest : List Char) : Option (LinePattern × List Char) := do
        let (p, rest) ← readRepeats extended fuel p rest
        readSequence extended fuel false (andThen done p) rest
      match operator? extended cs with
      | some ('|', _) => some (done, cs)
      | some (')', _) => some (done, cs)
      | some ('(', rest) =>
        match readChoice extended fuel rest with
        | some (p, rest) =>
          match operator? extended rest with
          | some (')', rest) => go p rest
          | _ => none
        | none => none
      | some (d, rest) => if first then go (only (.char d)) rest else none
      | none =>
        if c == '^' && (extended || first) then
          readSequence extended fuel first (andThen done (only .start)) rest
        else if c == '$' && (extended || rest.isEmpty || (operator? extended rest).isSome) then
          readSequence extended fuel false (andThen done (only .stop)) rest
        else if c == '.' then go anyChar rest
        else if c == '[' then
          let (negated, inner) := match rest with
            | '^' :: inner => (true, inner)
            | _ => (false, rest)
          match readSet (inner.length + 1) true [] inner with
          | some (ranges, rest) => go (oneOf negated ranges) rest
          | none => none
        else if c == '\\' then
          match rest with
          | d :: rest => go (only (.char d)) rest
          | [] => none
        else go (only (.char c)) rest

/-- Reads the repetitions behind an expression. -/
def readRepeats (extended : Bool) (fuel : Nat) (p : LinePattern) (cs : List Char) :
    Option (LinePattern × List Char) :=
  match fuel with
  | 0 => none
  | fuel + 1 =>
    match operator? extended cs with
    | some ('*', rest) => readRepeats extended fuel (many p) rest
    | some ('+', rest) => readRepeats extended fuel (seq p (many p)) rest
    | some ('?', rest) => readRepeats extended fuel (or p empty) rest
    | some ('\x7b', rest) =>
      match readBounds? extended rest with
      | some (lo, hi, rest) => readRepeats extended fuel (p.repeated lo hi) rest
      | none => none
    | _ => some (p, cs)

end

/-- Reads a whole pattern in its basic or extended spelling. -/
def read? (extended : Bool) (cs : List Char) : Option LinePattern :=
  match readChoice extended (4 * cs.length + 8) cs with
  | some (p, []) => some p
  | _ => none

def ofText (cs : List Char) : LinePattern :=
  cs.foldr (fun c p => andThen (only (.char c)) p) empty

end LinePattern

end SessionHost.Tools
