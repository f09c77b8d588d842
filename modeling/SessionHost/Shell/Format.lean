import SessionHost.Text.Digits

/-!
# Formatted output

`Format.printf` fills a format with arguments, over and over as long as arguments are left, and
`Format.echo` joins its arguments with blanks. Both resolve escapes. Text is in octets.
-/
namespace SessionHost.Shell.Format

def isOctal (c : Char) : Bool := '0' ≤ c && c ≤ '7'

def octalValue (ds : List Char) : Nat := ds.foldl (fun n d => n * 8 + (d.toNat - 48)) 0

/-- Resolves what follows a backslash. An unknown escape stands for itself, backslash included. -/
def escape (cs : List Char) : List Char × List Char :=
  match cs with
  | [] => (['\\'], [])
  | c :: rest =>
    if isOctal c then
      let ds := (cs.take 3).takeWhile isOctal
      ([Char.ofNat (octalValue ds % 256)], cs.drop ds.length)
    else match c with
      | '\\' => (['\\'], rest)
      | 'a' => (['\x07'], rest)
      | 'b' => (['\x08'], rest)
      | 'f' => (['\x0c'], rest)
      | 'n' => (['\n'], rest)
      | 'r' => (['\r'], rest)
      | 't' => (['\t'], rest)
      | 'v' => (['\x0b'], rest)
      | _ => (['\\'], cs)

/-- Resolves the escapes of an argument; an octal number may have a nought in front of its three
digits, and `\c` ends all output. `done` is kept in reverse. -/
def resolve (fuel : Nat) (done : List Char) (cs : List Char) : List Char × Bool :=
  match fuel, cs with
  | 0, _ => (done.reverse, false)
  | _, [] => (done.reverse, false)
  | _ + 1, '\\' :: 'c' :: _ => (done.reverse, true)
  | fuel + 1, '\\' :: rest =>
    let rest := match rest with
      | '0' :: d :: more => if isOctal d then d :: more else rest
      | _ => rest
    let (out, rest) := escape rest
    resolve fuel (out.reverse ++ done) rest
  | fuel + 1, c :: rest => resolve fuel (c :: done) rest

structure Layout where
  left : Bool := false
  plus : Bool := false
  blank : Bool := false
  alternate : Bool := false
  zeros : Bool := false
  width : Nat := 0
  precision : Option Nat := none
  deriving DecidableEq, Repr

namespace Layout

def fill (l : Layout) (cs : List Char) : List Char :=
  let pad := List.replicate (l.width - cs.length) ' '
  if l.left then cs ++ pad else pad ++ cs

/-- Lays out digits behind a sign or base mark: noughts stand between the two. -/
def number (l : Layout) (mark digits : List Char) : List Char :=
  let digits := match l.precision with
    | some p => List.replicate (p - digits.length) '0' ++ (if p = 0 ∧ digits = ['0'] then [] else digits)
    | none =>
      if l.zeros && !l.left then
        List.replicate (l.width - mark.length - digits.length) '0' ++ digits
      else digits
  l.fill (mark ++ digits)

end Layout

/-- What printing has come to: text in reverse, arguments left, complaints, the status, and whether
printing is over. -/
structure Progress where
  out : List Char := []
  args : List String
  used : Bool := false
  complaints : List String := []
  status : Nat := 0
  stopped : Bool := false
  deriving Repr

namespace Progress

/-- Takes the next argument; a missing one is empty. -/
def next (p : Progress) : String × Progress :=
  match p.args with
  | a :: rest => (a, { p with args := rest, used := true })
  | [] => ("", p)

def put (p : Progress) (cs : List Char) : Progress := { p with out := cs.reverse ++ p.out }

def complain (p : Progress) (s : String) : Progress :=
  { p with complaints := p.complaints ++ [s], status := max p.status 1 }

/-- Adds a complaint about the format, which ends all output. -/
def refuse (p : Progress) (s : String) : Progress :=
  { p.complain s with status := 2, stopped := true }

end Progress

def digitsOf (base : Nat) (cs : List Char) : Nat × Nat :=
  let value? (c : Char) : Option Nat :=
    let d := if c.isDigit then c.toNat - 48
      else if 'a' ≤ c ∧ c ≤ 'f' then c.toNat - 87
      else if 'A' ≤ c ∧ c ≤ 'F' then c.toNat - 55 else 99
    if d < base then some d else none
  let ds := cs.takeWhile fun c => (value? c).isSome
  (ds.foldl (fun n c => n * base + (value? c).getD 0) 0, ds.length)

/-- Reads a whole number as an argument gives it, and says what is wrong with it. -/
def numberArg (s : String) : Int × Option String :=
  match s.toList with
  | [] => (0, none)
  | '\'' :: c :: _ => (Int.ofNat c.toNat, none)
  | '"' :: c :: _ => (Int.ofNat c.toNat, none)
  | cs =>
    let cs := cs.dropWhile fun c => c == ' ' || c == '\t'
    let (sign, cs) : Int × List Char := match cs with
      | '-' :: rest => (-1, rest)
      | '+' :: rest => (1, rest)
      | _ => (1, cs)
    let (n, length, total) := match cs with
      | '0' :: x :: rest =>
        if x == 'x' || x == 'X' then
          let (n, k) := digitsOf 16 rest
          (n, k + 2, cs.length)
        else
          let (n, k) := digitsOf 8 cs
          (n, k, cs.length)
      | _ =>
        let (n, k) := digitsOf 10 cs
        (n, k, cs.length)
    if length = 0 then (0, some s!"{s}: expected numeric value")
    else (sign * n, if length < total then some s!"{s}: not completely converted" else none)

def flags (l : Layout) : List Char → Layout × List Char
  | '-' :: rest => flags { l with left := true } rest
  | '+' :: rest => flags { l with plus := true } rest
  | ' ' :: rest => flags { l with blank := true } rest
  | '#' :: rest => flags { l with alternate := true } rest
  | '0' :: rest => flags { l with zeros := true } rest
  | cs => (l, cs)

/-- Reads a count: digits, or an asterisk for the next argument. -/
def count (p : Progress) (cs : List Char) : Int × Progress × List Char :=
  match cs with
  | '*' :: rest =>
    let (a, p) := p.next
    ((numberArg a).1, p, rest)
  | _ =>
    let ds := cs.takeWhile Char.isDigit
    (Int.ofNat (Text.natOfDigits ds), p, cs.drop ds.length)

def cut (l : Layout) (cs : List Char) : List Char :=
  match l.precision with
  | some n => cs.take n
  | none => cs

/-- The digits of a number without its sign. -/
def digitsText (base : Nat) (upper : Bool) (n : Nat) : List Char :=
  let ds := Nat.toDigits base n
  if upper then ds.map Char.toUpper else ds

def convert (p : Progress) (l : Layout) (c : Char) : Progress :=
  let withNumber (f : Progress → Int → Progress) : Progress :=
    let (a, p) := p.next
    let (n, complaint) := numberArg a
    let p := match complaint with
      | some s => p.complain s
      | none => p
    f p n
  match c with
  | 's' =>
    let (a, p) := p.next
    p.put (l.fill (cut l a.toList))
  | 'b' =>
    let (a, p) := p.next
    let (cs, stopped) := resolve (a.length + 1) [] a.toList
    { p.put (l.fill (cut l cs)) with stopped }
  | 'c' =>
    let (a, p) := p.next
    p.put (l.fill (a.toList.take 1))
  | 'd' | 'i' => withNumber fun p n =>
    let mark := if n < 0 then ['-'] else if l.plus then ['+'] else if l.blank then [' '] else []
    p.put (l.number mark (digitsText 10 false n.natAbs))
  | 'u' => withNumber fun p n => p.put (l.number [] (digitsText 10 false (n % 0x10000000000000000).toNat))
  | 'o' => withNumber fun p n =>
    let ds := digitsText 8 false (n % 0x10000000000000000).toNat
    p.put (l.number [] (if l.alternate && ds.head? != some '0' then '0' :: ds else ds))
  | 'x' => withNumber fun p n =>
    p.put (l.number (if l.alternate && n != 0 then ['0', 'x'] else [])
      (digitsText 16 false (n % 0x10000000000000000).toNat))
  | 'X' => withNumber fun p n =>
    p.put (l.number (if l.alternate && n != 0 then ['0', 'X'] else [])
      (digitsText 16 true (n % 0x10000000000000000).toNat))
  | c => p.refuse s!"%{String.singleton c}: invalid directive"

def pass (fuel : Nat) (p : Progress) (cs : List Char) : Progress :=
  match fuel, cs with
  | 0, _ => p
  | _, [] => p
  | fuel + 1, c :: rest =>
    if p.stopped then p
    else if c == '\\' then
      let (out, rest) := escape rest
      pass fuel (p.put out) rest
    else if c == '%' then
      match rest with
      | '%' :: rest => pass fuel (p.put ['%']) rest
      | _ =>
        let (l, rest) := flags {} rest
        let (width, p, rest) := count p rest
        let l := if width < 0 then { l with left := true, width := width.natAbs }
          else { l with width := width.toNat }
        let (l, p, rest) := match rest with
          | '.' :: rest =>
            let (n, p, rest) := count p rest
            ({ l with precision := if n < 0 then none else some n.toNat }, p, rest)
          | _ => (l, p, rest)
        match rest with
        | c :: rest => pass fuel (convert p l c) rest
        | [] => p.refuse "missing format character"
    else pass fuel (p.put [c]) rest

/-- Goes through a format until no argument is left, or a pass takes none. -/
def passes (fuel : Nat) (format : List Char) (p : Progress) : Progress :=
  match fuel with
  | 0 => p
  | fuel + 1 =>
    let p := pass (format.length + 1) { p with used := false } format
    if p.stopped || p.args.isEmpty || !p.used then p else passes fuel format p

/-- Fills a format: the text, the complaints, and the status. -/
def printf (format : String) (args : List String) : String × List String × Nat :=
  let p := passes (args.length + 1) format.toList { args }
  (String.ofList p.out.reverse, p.complaints, p.status)

/-- Joins arguments with blanks and ends the line, unless the first is `-n`. -/
def echo (args : List String) : String :=
  let (newline, args) := match args with
    | "-n" :: rest => (false, rest)
    | _ => (true, args)
  let text := " ".intercalate args
  let (cs, stopped) := resolve (text.length + 1) [] text.toList
  String.ofList (if newline && !stopped then cs ++ ['\n'] else cs)

end SessionHost.Shell.Format
