import SessionHost.Data.Toml.Number
import SessionHost.Data.Toml.Moment
import SessionHost.Data.Toml.Text
import SessionHost.Data.Toml.Section

/-!
# Reading a TOML document

A document is a sequence of lines: a header, or a key and its value, or nothing, and then perhaps a
comment. Values are read whole; an inline table is read like a section of its own and is finished
with its closing brace. Recursion goes over `fuel`, which starts above twice the length of what is
read, so that it is enough for the characters that are left; `depth` bounds how far lists and inline
tables may stand in one another.

* `Toml.parse` gives the table that a document stands for.
-/
namespace SessionHost.Toml

/-- The rest from the end of a comment on, or of nothing; a comment holds no control character. -/
def skipComment? : List Char → Option (List Char)
  | '#' :: rest =>
    let line := rest.takeWhile fun c => c != '\n'
    let text := if line.getLast? == some '\r' && (rest.drop line.length).head? == some '\n'
      then line.dropLast else line
    if text.any isControl then none else some (rest.drop text.length)
  | cs => some cs

/-- Passes blanks, line ends and comments. -/
def skipFiller? (fuel : Nat) (cs : List Char) : Option (List Char) :=
  match fuel with
  | 0 => some cs
  | fuel + 1 =>
    match cs.dropWhile isSpace with
    | '#' :: rest => (skipComment? ('#' :: rest)).bind (skipFiller? fuel)
    | cs =>
      match lineEnd? cs with
      | some rest => skipFiller? fuel rest
      | none => some cs

/-- Characters that may belong to a number or a keyword. -/
def isWord (c : Char) : Bool := c.isAlphanum || c == '_' || c == '+' || c == '-' || c == '.'

/-- Reads a value that is neither string nor list nor table. -/
def word? (cs : List Char) : Option (Data × List Char) :=
  if looksLikeMoment cs then (moment? cs).map fun rest => (.other, rest)
  else
    let word := cs.takeWhile isWord
    let rest := cs.drop word.length
    if word == ['t', 'r', 'u', 'e'] then some (.bool true, rest)
    else if word == ['f', 'a', 'l', 's', 'e'] then some (.bool false, rest)
    else match number? word with
      | some (.integer n) => some (.integer n, rest)
      | some .fraction => some (.other, rest)
      | none => none

/-- How many lists and inline tables may stand in one another. -/
def mostDepth : Nat := 80

mutual

def value? (fuel depth : Nat) (cs : List Char) : Option (Data × List Char) :=
  match fuel with
  | 0 => none
  | fuel + 1 =>
    match cs, depth with
    | '"' :: _, _ => (string? cs).map fun r => (.text r.1, r.2)
    | '\'' :: _, _ => (string? cs).map fun r => (.text r.1, r.2)
    | '[' :: _, 0 | '\x7b' :: _, 0 => none
    | '[' :: rest, depth + 1 => items? fuel depth [] rest
    | '\x7b' :: rest, depth + 1 =>
      match rest.dropWhile isSpace with
      | '\x7d' :: rest => some (.table [], rest)
      | rest => inline? fuel depth (.table .header []) rest
    | cs, _ => word? cs

/-- Reads the items of a list; `done` holds those before, last first. -/
def items? (fuel depth : Nat) (done : List Data) (cs : List Char) : Option (Data × List Char) :=
  match fuel with
  | 0 => none
  | fuel + 1 =>
    match skipFiller? fuel cs with
    | none => none
    | some (']' :: rest) => some (.list done.reverse, rest)
    | some cs =>
      match value? fuel depth cs with
      | none => none
      | some (v, rest) =>
        match skipFiller? fuel rest with
        | some (',' :: rest) => items? fuel depth (v :: done) rest
        | some (']' :: rest) => some (.list (v :: done).reverse, rest)
        | _ => none

/-- Reads the fields of an inline table into `s`. -/
def inline? (fuel depth : Nat) (s : Section) (cs : List Char) : Option (Data × List Char) :=
  match fuel with
  | 0 => none
  | fuel + 1 =>
    match field? fuel depth (cs.dropWhile isSpace) with
    | none => none
    | some ((key, v), rest) =>
      match s.insert? key v with
      | none => none
      | some s =>
        match rest.dropWhile isSpace with
        | ',' :: rest => inline? fuel depth s rest
        | '\x7d' :: rest => some (s.toData, rest)
        | _ => none

def field? (fuel depth : Nat) (cs : List Char) : Option ((List String × Data) × List Char) :=
  match fuel with
  | 0 => none
  | fuel + 1 =>
    match key? fuel cs with
    | none => none
    | some (key, rest) =>
      match rest.dropWhile isSpace with
      | '=' :: rest => (value? fuel depth (rest.dropWhile isSpace)).map fun r => ((key, r.1), r.2)
      | _ => none

end

/-- A document as it stands after some of its lines: its tables, and the header in force. -/
structure Draft where
  root : Section := .table .header []
  header : List String := []

/-- Reads a header, from behind its first bracket. -/
def header? (d : Draft) (cs : List Char) : Option (Draft × List Char) :=
  match cs with
  | '[' :: rest => do
    let (key, rest) ← key? rest.length (rest.dropWhile isSpace)
    match rest.dropWhile isSpace with
    | ']' :: ']' :: rest => do
      let root ← d.root.push? key
      return ({ root, header := key }, rest)
    | _ => none
  | rest => do
    let (key, rest) ← key? (rest.length + 1) (rest.dropWhile isSpace)
    match rest.dropWhile isSpace with
    | ']' :: rest => do
      let root ← d.root.open? key
      return ({ root, header := key }, rest)
    | _ => none

/-- Reads what a line says, its comment and end excepted; `left` is no less than the number of
characters. -/
def statement? (left : Nat) (d : Draft) (cs : List Char) : Option (Draft × List Char) :=
  match cs with
  | [] => some (d, [])
  | '#' :: _ => some (d, cs)
  | '[' :: rest => header? d rest
  | _ =>
    if (lineEnd? cs).isSome then some (d, cs)
    else do
      let ((key, v), rest) ← field? (2 * left + 2) mostDepth cs
      let root ← d.root.changeOpen? (·.insert? key v) d.header
      return ({ d with root }, rest)

def document? (fuel : Nat) (d : Draft) (cs : List Char) : Option Draft :=
  match fuel with
  | 0 => none
  | fuel + 1 => do
    let (d, rest) ← statement? fuel d (cs.dropWhile isSpace)
    let rest ← skipComment? (rest.dropWhile isSpace)
    match rest with
    | [] => some d
    | rest => (lineEnd? rest).bind (document? fuel d)

/-- The table that a document stands for; one byte order mark in front is passed over. -/
def parse (text : String) : Option Data :=
  let cs := match text.toList with
    | '\uFEFF' :: rest => rest
    | cs => cs
  (document? (cs.length + 2) {} cs).map fun d => d.root.toData

end SessionHost.Toml
