import SessionHost.Bytes

/-!
# Strings and keys in TOML

A string is basic, with escapes, or literal, without; either is written on one line or between
triple quotes. No string holds a control character other than a tab, save for the line ends of a
triple-quoted one. A key is bare or one of the one-line strings.
-/
namespace SessionHost.Toml

/-- Control characters, the tab excepted. -/
def isControl (c : Char) : Bool := (c.toNat < 0x20 && c != '\t') || c.toNat == 0x7f

def isSpace (c : Char) : Bool := c == ' ' || c == '\t'

/-- Characters of a bare key. -/
def isBare (c : Char) : Bool := c.isAlphanum || c == '_' || c == '-'

/-- The character that a one-letter escape stands for. -/
def escape? : Char → Option Char
  | 'b' => some '\x08'
  | 't' => some '\t'
  | 'n' => some '\n'
  | 'f' => some '\x0c'
  | 'r' => some '\r'
  | '"' => some '"'
  | '\\' => some '\\'
  | _ => none

/-- Reads `n` hexadecimal digits that name a character. -/
def scalar? (n : Nat) (cs : List Char) : Option (Char × List Char) := do
  let ds ← (cs.take n).mapM Bytes.hexValue?
  let v := ds.foldl (fun v d => v * 16 + d) 0
  if ds.length == n && (v < 0xD800 || (0xE000 ≤ v && v < 0x110000)) then
    some (Char.ofNat v, cs.drop n)
  else none

/-- Reads an escape from behind its backslash. -/
def escaped? : List Char → Option (Char × List Char)
  | 'u' :: rest => scalar? 4 rest
  | 'U' :: rest => scalar? 8 rest
  | c :: rest => (escape? c).map fun d => (d, rest)
  | [] => none

/-- Reads a one-line basic string from behind its quote. -/
def basicFrom (fuel : Nat) (done : List Char) (cs : List Char) : Option (String × List Char) :=
  match fuel, cs with
  | 0, _ => none
  | _, [] => none
  | fuel + 1, c :: rest =>
    if c == '"' then some (String.ofList done.reverse, rest)
    else if c == '\\' then
      match escaped? rest with
      | some (d, rest) => basicFrom fuel (d :: done) rest
      | none => none
    else if isControl c then none
    else basicFrom fuel (c :: done) rest

/-- Reads a one-line literal string from behind its quote. -/
def literalFrom (done : List Char) : List Char → Option (String × List Char)
  | [] => none
  | c :: rest =>
    if c == '\'' then some (String.ofList done.reverse, rest)
    else if isControl c then none
    else literalFrom (c :: done) rest

/-- The rest behind the end of a line, if the text starts with one. -/
def lineEnd? : List Char → Option (List Char)
  | '\n' :: rest => some rest
  | '\r' :: '\n' :: rest => some rest
  | _ => none

/-- Passes blanks and line ends; `none` if a carriage return stands alone among them. -/
def skipLines (fuel : Nat) (cs : List Char) : List Char :=
  match fuel with
  | 0 => cs
  | fuel + 1 =>
    match cs with
    | c :: rest =>
      if isSpace c then skipLines fuel rest
      else match lineEnd? (c :: rest) with
        | some rest => skipLines fuel rest
        | none => c :: rest
    | [] => []

/-- The number of times `q` stands at the front of a text. -/
def countFront (q : Char) (cs : List Char) : Nat := (cs.takeWhile fun c => c == q).length

/-- Reads a triple-quoted string from behind its quotes. Up to two quotes may stand directly before
the closing three. In a basic one a backslash at the end of a line takes away the blanks and line
ends that follow. -/
def tripleFrom (quote : Char) (fuel : Nat) (done : List Char) (cs : List Char) :
    Option (String × List Char) :=
  match fuel, cs with
  | 0, _ => none
  | _, [] => none
  | fuel + 1, c :: rest =>
    if c == quote then
      let n := countFront quote (c :: rest)
      if n < 3 then tripleFrom quote fuel (c :: done) rest
      else if n ≤ 5 then
        some (String.ofList (List.replicate (n - 3) quote ++ done).reverse, (c :: rest).drop n)
      else none
    else if c == '\\' && quote == '"' then
      let line := rest.dropWhile isSpace
      match lineEnd? line with
      | some more => tripleFrom quote fuel done (skipLines more.length more)
      | none =>
        match escaped? rest with
        | some (d, rest) => tripleFrom quote fuel (d :: done) rest
        | none => none
    else
      match lineEnd? (c :: rest) with
      | some more =>
        tripleFrom quote fuel (if c == '\r' then '\n' :: '\r' :: done else '\n' :: done) more
      | none => if isControl c then none else tripleFrom quote fuel (c :: done) rest

/-- Reads a string of any kind; `none` if the text does not start with one. -/
def string? (cs : List Char) : Option (String × List Char) :=
  match cs with
  | '"' :: '"' :: '"' :: rest => tripleFrom '"' cs.length [] ((lineEnd? rest).getD rest)
  | '\'' :: '\'' :: '\'' :: rest => tripleFrom '\'' cs.length [] ((lineEnd? rest).getD rest)
  | '"' :: rest => basicFrom cs.length [] rest
  | '\'' :: rest => literalFrom [] rest
  | _ => none

def keyPart? (cs : List Char) : Option (String × List Char) :=
  match cs with
  | '"' :: rest => basicFrom cs.length [] rest
  | '\'' :: rest => literalFrom [] rest
  | _ =>
    let name := cs.takeWhile isBare
    if name.isEmpty then none else some (String.ofList name, cs.drop name.length)

/-- Reads a key: its parts with dots between them, blanks around the dots. -/
def key? (fuel : Nat) (cs : List Char) : Option (List String × List Char) :=
  match fuel with
  | 0 => none
  | fuel + 1 =>
    match keyPart? cs with
    | none => none
    | some (part, rest) =>
      match rest.dropWhile isSpace with
      | '.' :: more =>
        (key? fuel (more.dropWhile isSpace)).map fun r => (part :: r.1, r.2)
      | _ => some ([part], rest)

end SessionHost.Toml
