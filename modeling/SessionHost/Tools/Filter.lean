import SessionHost.Tools.Arguments
import SessionHost.Tools.LinePattern

/-!
# Filters

A filter reads all of its input before it answers. `Filter.ofTool?` reads the arguments of a tool,
and `Filter.run` turns inputs, each with the name that it was given by, into output and status. All
text is in octets.
-/
namespace SessionHost.Tools

/-- How many of something, counted from the end or from the front. -/
inductive Extent where
  | last (n : Nat)
  | fromPlace (n : Nat)
  deriving DecidableEq, Repr

inductive DumpFormat where
  | number (base bytes : Nat) (signed : Bool)
  | char
  deriving DecidableEq, Repr

/-- The part of a line that lines are ordered by: from one field on, and perhaps up to the end of
another. Without a separator a field begins with the blanks in front of it. -/
structure SortKey where
  first : Nat := 1
  last : Option Nat := none
  separator : Option Char := none
  deriving DecidableEq, Repr

/-- How text is made visible: line numbers, perhaps only for lines that are not empty, a mark at line
ends, and whether tabs and what is not printable are written out. -/
structure Display where
  numbered : Bool := false
  onlyFilled : Bool := false
  ends : Bool := false
  tabs : Bool := false
  odd : Bool := false
  deriving DecidableEq, Repr

structure Selection where
  pattern : LinePattern
  /-- The whole line has to match. -/
  whole : Bool := false
  /-- What matches has to be a whole word. -/
  word : Bool := false
  inverted : Bool := false
  ignoreCase : Bool := false
  counted : Bool := false
  quiet : Bool := false
  numbered : Bool := false
  namesOnly : Bool := false
  /-- Only what matches is shown. -/
  matchesOnly : Bool := false
  /-- Input that is not text is searched all the same. -/
  asText : Bool := false
  deriving DecidableEq, Repr

inductive Filter where
  | count (lines words chars bytes : Bool)
  | sort (descending numeric unique_ ignoreCase : Bool) (key : SortKey)
  | unique (counted onlyRepeated onlyUnique : Bool)
  | exchange (delete squeeze complement : Bool) (source target : List Char)
  | cut (fields : Bool) (delimiter : Char) (ranges : List (Nat × Option Nat)) (onlyDelimited : Bool)
  | reverse
  | tail (bytes : Bool) (extent : Extent)
  | dump (address : Option Nat) (format : DumpFormat) (all : Bool) (limit : Option Nat)
  /-- Hands on all but the last lines or bytes. -/
  | allBut (bytes : Bool) (n : Nat)
  | display (d : Display)
  | select (s : Selection)
  deriving Repr

namespace Filter

/-- The lines of a text, without their ends. A text that does not end with a newline ends with a line
all the same. -/
def lines (s : String) : List String :=
  let parts := s.splitOn "\n"
  match parts.reverse with
  | "" :: rest => rest.reverse
  | _ => parts

def unlines (ls : List String) : String := String.join (ls.map (· ++ "\n"))

def isSpace (c : Char) : Bool := c == ' ' || ('\t' ≤ c && c ≤ '\r')

/-- Whether an octet shows as a character of its own. -/
def isShown (c : Char) : Bool := ' ' ≤ c && c ≤ '~'

/-- The number of words of a text. What is neither a blank nor shown neither begins nor ends a
word. -/
def wordCount (cs : List Char) : Nat :=
  (cs.foldl (fun (n, inside) c =>
    if isSpace c then (n, false)
    else if isShown c then (if inside then n else n + 1, true)
    else (n, inside)) (0, false)).1

def padLeft (width : Nat) (s : String) : String :=
  String.ofList (List.replicate (width - s.length) ' ') ++ s

/-! ## Counting -/

/-- The four counts of a text. A character is an octet. -/
def counts (s : String) : List Nat :=
  let cs := s.toList
  [cs.count '\n', wordCount cs, cs.length, cs.length]

def countLine (wanted : List Bool) (width : Nat) (name : String) (ns : List Nat) : String :=
  let shown := ((wanted.zip ns).filter (·.1)).map fun n => padLeft width (toString n.2)
  " ".intercalate shown ++ (if name == "" then "" else " " ++ name) ++ "\n"

/-- Counts each input, and all together if there are several. -/
def runCount (wanted : List Bool) (inputs : List (String × String)) : String :=
  let each := inputs.map fun i => (i.1, counts i.2)
  let total := each.foldl (fun t e => (t.zip e.2).map fun p => p.1 + p.2) [0, 0, 0, 0]
  let piped := inputs.any fun i => i.1 == "" || i.1 == "-"
  let one := inputs.length == 1 && (wanted.filter id).length == 1
  let width := if one then 1 else if piped then 7 else (toString (total.getD 3 0)).length
  let body := String.join (each.map fun e => countLine wanted width e.1 e.2)
  if inputs.length > 1 then body ++ countLine wanted width "total" total else body

/-! ## Ordering -/

def leadingNumber (s : String) : Int :=
  let cs := s.toList.dropWhile isSpace
  let (sign, ds) : Int × List Char := match cs with
    | '-' :: ds => (-1, ds)
    | _ => (1, cs)
  sign * Int.ofNat (Text.natOfDigits (ds.takeWhile Char.isDigit))

/-- What is left of a line behind its first fields. -/
def behindFields (separator : Option Char) : Nat → List Char → List Char
  | 0, cs => cs
  | n + 1, cs =>
    behindFields separator n (match separator with
      | some c => (cs.dropWhile (· != c)).drop 1
      | none => (cs.dropWhile (LinePattern.inRanges (LinePattern.classRanges "blank"))).dropWhile
          fun c => !LinePattern.inRanges (LinePattern.classRanges "blank") c)

/-- The part of a line that a key chooses. -/
def keyText (k : SortKey) (l : String) : String :=
  let cs := l.toList
  let from_ := behindFields k.separator (k.first - 1) cs
  match k.last with
  | none => String.ofList from_
  | some last =>
    let rest := behindFields k.separator last cs
    let kept := from_.take (from_.length - rest.length)
    String.ofList (match k.separator with
      | some c => if kept.getLast? == some c then kept.dropLast else kept
      | none => kept)

/-- Whether a line may stand before another: their keys decide, and then the lines themselves, unless
lines with the same key count as the same. -/
def lineLe (numeric ignoreCase unique_ : Bool) (key : SortKey) (a b : String) : Bool :=
  let (x, y) := (keyText key a, keyText key b)
  let among := unique_ || decide (a ≤ b)
  if numeric then
    let (m, n) := (leadingNumber x, leadingNumber y)
    m < n || (m == n && among)
  else
    let (x, y) := if ignoreCase then (x.toUpper, y.toUpper) else (x, y)
    decide (x < y) || (x == y && among)

/-- Drops lines that equal the one before them. -/
def dropRepeats (same : String → String → Bool) : List String → List String
  | a :: b :: rest =>
    if same a b then dropRepeats same (a :: rest) else a :: dropRepeats same (b :: rest)
  | ls => ls
termination_by ls => ls.length

/-- Runs of equal lines and their lengths. -/
def runs : List String → List (Nat × String)
  | [] => []
  | l :: rest =>
    match runs rest with
    | (n, m) :: more => if l == m then (n + 1, m) :: more else (1, l) :: (n, m) :: more
    | [] => [(1, l)]

/-! ## Characters -/

def unescape (fuel : Nat) (cs : List Char) : List Char :=
  match fuel, cs with
  | 0, _ => []
  | _, [] => []
  | fuel + 1, '\\' :: c :: rest =>
    let digits := ((c :: rest).take 3).takeWhile fun d => '0' ≤ d && d ≤ '7'
    if !digits.isEmpty then
      Char.ofNat (digits.foldl (fun n d => n * 8 + (d.toNat - 48)) 0 % 256)
        :: unescape fuel ((c :: rest).drop digits.length)
    else
      let d := match c with
        | 'n' => '\n'
        | 't' => '\t'
        | 'r' => '\r'
        | 'a' => '\x07'
        | 'b' => '\x08'
        | 'f' => '\x0c'
        | 'v' => '\x0b'
        | c => c
      d :: unescape fuel rest
  | fuel + 1, c :: rest => c :: unescape fuel rest

def between (a b : Char) : List Char :=
  (List.range (b.toNat + 1 - a.toNat)).map fun i => Char.ofNat (a.toNat + i)

/-- The members of a set, ranges and named classes written out. -/
def members (fuel : Nat) (cs : List Char) : List Char :=
  match fuel with
  | 0 => []
  | fuel + 1 =>
    match cs with
    | [] => []
    | '[' :: ':' :: rest =>
      let name := rest.takeWhile Char.isAlpha
      match rest.drop name.length with
      | ':' :: ']' :: more =>
        let ranges := LinePattern.classRanges (String.ofList name)
        let ranges := ranges.mergeSort fun a b => a.1 ≤ b.1
        ranges.flatMap (fun r => between r.1 r.2) ++ members fuel more
      | _ => '[' :: members fuel (':' :: rest)
    | a :: '-' :: b :: rest => between a b ++ members fuel rest
    | c :: rest => c :: members fuel rest

/-- The members of a set as an argument writes it. -/
def setOf (s : String) : List Char :=
  let cs := unescape (s.length + 1) s.toList
  members (cs.length + 1) cs

/-- Drops members of `set` that equal the character before them. -/
def squeezed (set : List Char) (last : Option Char) : List Char → List Char
  | [] => []
  | c :: rest =>
    if last == some c && set.contains c then squeezed set last rest
    else c :: squeezed set (some c) rest

/-- Replaces, deletes and squeezes characters. -/
def runExchange (delete squeeze complement : Bool) (source target : List Char) (s : String) :
    String :=
  let inSource (c : Char) : Bool := source.contains c != complement
  let replaced (c : Char) : Char :=
    if !inSource c then c
    else if complement then target.getLast?.getD c
    else match source.reverse.idxOf? c with
      | some k =>
        let i := source.length - 1 - k
        (target[i]?).getD (target.getLast?.getD c)
      | none => c
  let cs := s.toList
  let cs := if delete then cs.filter fun c => !inSource c
    else if target.isEmpty then cs
    else cs.map replaced
  let set := if target.isEmpty then source else target
  String.ofList (if squeeze then squeezed set none cs else cs)

/-! ## Columns -/

/-- Reads a list of ranges such as `1,3-5,7-`. -/
def readRanges (s : String) : List (Nat × Option Nat) :=
  (s.splitOn ",").map fun part =>
    match part.splitOn "-" with
    | [a] => ((number? a).getD 0, some ((number? a).getD 0))
    | [a, b] => ((number? a).getD 1, number? b)
    | _ => (0, some 0)

/-- Whether a place is in one of the ranges. -/
def inRanges (ranges : List (Nat × Option Nat)) (i : Nat) : Bool :=
  ranges.any fun r => r.1 ≤ i && (r.2.map fun hi => decide (i ≤ hi)).getD true

def cutLine (fields : Bool) (delimiter : Char) (ranges : List (Nat × Option Nat)) (l : String) :
    String :=
  if fields then
    let parts := l.splitOn (String.singleton delimiter)
    if parts.length == 1 then l
    else
      let kept := (parts.zipIdx 1).filter fun p => inRanges ranges p.2
      (String.singleton delimiter).intercalate (kept.map (·.1))
  else
    String.ofList (((l.toList.zipIdx 1).filter fun p => inRanges ranges p.2).map (·.1))

/-! ## Ends of a text -/

/-- The last lines or bytes of a text, or those from some place on. -/
def runTail (bytes : Bool) (extent : Extent) (s : String) : String :=
  let cs := s.toList
  if bytes then
    String.ofList (match extent with
      | .last n => cs.drop (cs.length - n)
      | .fromPlace n => cs.drop (n - 1))
  else
    let ls := lines s
    let kept := match extent with
      | .last n => ls.drop (ls.length - n)
      | .fromPlace n => ls.drop (n - 1)
    let out := unlines kept
    if cs.getLast? == some '\n' || out == "" then out else String.ofList out.toList.dropLast

/-- All but the last lines or bytes of a text. -/
def runAllBut (bytes : Bool) (n : Nat) (s : String) : String :=
  if bytes then String.ofList (s.toList.take (s.length - n))
  else
    let ls := lines s
    if n = 0 then s else unlines (ls.take (ls.length - n))

/-! ## Visible text -/

/-- An octet written out: a caret stands for control, and `M-` for the upper half. -/
def visible (c : Char) : String :=
  let (mark, n) := if 128 ≤ c.toNat then ("M-", c.toNat - 128) else ("", c.toNat)
  mark ++ (if n < 32 then "^" ++ String.singleton (Char.ofNat (n + 64))
    else if n = 127 then "^?" else String.singleton (Char.ofNat n))

def runDisplay (d : Display) (s : String) : String :=
  let show_ (l : String) : String := String.join (l.toList.map fun c =>
    if c == '\t' then (if d.tabs then "^I" else "\t")
    else if d.odd then visible c else String.singleton c)
  let ls := lines s
  let closed := s.toList.getLast? == some '\n'
  (ls.zipIdx.foldl (fun (out, n) (l, i) =>
    let counts := d.numbered && !(d.onlyFilled && l == "")
    let front := if counts then padLeft 6 (toString (n + 1)) ++ "\t" else ""
    let open_ := i + 1 == ls.length && !closed
    let back := if open_ then "" else if d.ends then "$\n" else "\n"
    (out ++ front ++ show_ l ++ back, if counts then n + 1 else n)) ("", 0)).1

/-! ## Dumps -/

/-- Digits of a number in a base, filled with noughts. -/
def digitsPadded (base width n : Nat) : String :=
  let ds := Nat.toDigits base n
  String.ofList (List.replicate (width - ds.length) '0' ++ ds)

def dumpUnit (format : DumpFormat) (cs : List Char) : String :=
  let value := cs.reverse.foldl (fun n c => n * 256 + c.toNat) 0
  match format with
  | .number 16 bytes _ => " " ++ digitsPadded 16 (2 * bytes) value
  | .number 8 bytes _ =>
    " " ++ digitsPadded 8 (if bytes = 1 then 3 else if bytes = 2 then 6 else 11) value
  | .number base bytes signed =>
    let limit := Nat.pow 256 bytes
    let n : Int := if signed && value * 2 ≥ limit then (value : Int) - limit else value
    let width := if signed then (if bytes = 1 then 4 else if bytes = 2 then 6 else 11)
      else (if bytes = 1 then 3 else if bytes = 2 then 5 else 10)
    " " ++ padLeft width (if base = 10 then toString n else toString n)
  | .char =>
    let c := cs.headD '\x00'
    let shown := match c with
      | '\x00' => "\\0"
      | '\x07' => "\\a"
      | '\x08' => "\\b"
      | '\t' => "\\t"
      | '\n' => "\\n"
      | '\x0b' => "\\v"
      | '\x0c' => "\\f"
      | '\r' => "\\r"
      | c => if ' ' ≤ c ∧ c ≤ '~' then String.singleton c else digitsPadded 8 3 c.toNat
    " " ++ padLeft 3 shown

def piecesOf (size : Nat) (fuel : Nat) (cs : List Char) : List (List Char) :=
  match fuel with
  | 0 => []
  | fuel + 1 => if cs.isEmpty then [] else cs.take size :: piecesOf size fuel (cs.drop size)

/-- A dump of a text, sixteen bytes a line. A line that repeats the one before is shown once more as
an asterisk, and further ones not at all. -/
def runDump (address : Option Nat) (format : DumpFormat) (all : Bool) (limit : Option Nat)
    (s : String) : String :=
  let cs := match limit with
    | some n => s.toList.take n
    | none => s.toList
  let unit := match format with
    | .number _ bytes _ => bytes
    | .char => 1
  let mark (n : Nat) : String := match address with
    | none => ""
    | some base => digitsPadded base (if base = 16 then 6 else 7) n
  let rows := (piecesOf 16 (cs.length + 1) cs).zipIdx
  let (out, _, _) := rows.foldl (fun (out, last, starred) (row, i) =>
      if !all && last == some row && row.length == 16 then
        (if starred then out else out ++ "*\n", last, true)
      else
        let text := String.join ((piecesOf unit (row.length + 1) row).map (dumpUnit format))
        (out ++ mark (16 * i) ++ text ++ "\n", some row, false))
    ("", (none : Option (List Char)), false)
  out ++ (match address with
    | none => ""
    | some _ => mark cs.length ++ "\n")

/-! ## Selecting lines -/

/-- Lower-case letters in place of upper-case ones. -/
def lower (s : String) : String := String.ofList (s.toList.map Char.toLower)

/-- Whether a character is part of a word. -/
def isWordChar (c : Char) : Bool := c.isAlphanum || c == '_'

/-- What matches in a line, leftmost and longest first and none of it twice: place and length. A
match of nothing counts nothing. -/
def matchesIn (s : Selection) (cs : List Char) : List (Nat × Nat) :=
  go (cs.length + 1) 0
where
  /-- Looks from some place on. -/
  go (fuel at_ : Nat) : List (Nat × Nat) :=
    match fuel with
    | 0 => []
    | fuel + 1 =>
      if cs.length ≤ at_ then []
      else
        let before := at_ = 0 || !(cs[at_ - 1]?.map isWordChar).getD false
        let ends := (s.pattern.lengthsAt (at_ = 0) (cs.drop at_)).filter fun n =>
          0 < n && (!s.word || (before && !(cs[at_ + n]?.map isWordChar).getD false))
        match ends.max? with
        | some n => (at_, n) :: go fuel (at_ + n)
        | none => go fuel (at_ + 1)

def selects (s : Selection) (l : String) : Bool :=
  let cs := (if s.ignoreCase then lower l else l).toList
  (if s.whole then s.pattern.fitsLine cs
    else if s.word then !(matchesIn s cs).isEmpty
    else s.pattern.search cs) != s.inverted

def shownOf (s : Selection) (front : String) (l : String × Nat) : String :=
  let front := front ++ (if s.numbered then s!"{l.2}:" else "")
  if s.matchesOnly then
    let cs := (if s.ignoreCase then lower l.1 else l.1).toList
    let found := if s.inverted then [] else matchesIn s cs
    String.join (found.map fun m =>
      front ++ String.ofList ((l.1.toList.drop m.1).take m.2) ++ "\n")
  else front ++ l.1 ++ "\n"

/-- Selects lines. The status is nought if a line was selected. Of an input that holds a NUL, and so is
no text, nothing is shown but that something in it was selected. -/
def runSelect (s : Selection) (inputs : List (String × String)) : String × Nat :=
  let many := inputs.length > 1
  let results := inputs.map fun i =>
    let binary := !s.asText && i.2.toList.contains '\x00'
    let ls := ((lines i.2).zipIdx 1).filter fun l => selects s l.1
    let name := if i.1 == "" || i.1 == "-" then "(standard input)" else i.1
    let front := if many then name ++ ":" else ""
    let text :=
      if s.namesOnly then (if ls.isEmpty then "" else name ++ "\n")
      else if s.counted then front ++ toString ls.length ++ "\n"
      else if binary then
        (if ls.isEmpty then "" else s!"grep: {name}: binary file matches\n")
      else String.join (ls.map (shownOf s front))
    (ls.length, text)
  let found := results.any fun r => r.1 > 0
  (if s.quiet then "" else String.join (results.map (·.2)), if found then 0 else 1)

/-! ## Running -/

def run (f : Filter) (inputs : List (String × String)) : String × Nat :=
  let all := String.join (inputs.map (·.2))
  match f with
  | count ls ws cs bs => (runCount [ls, ws, cs, bs] inputs, 0)
  | sort descending numeric unique_ ignoreCase key =>
    let le := lineLe numeric ignoreCase unique_ key
    let ls := (inputs.flatMap fun i => lines i.2).mergeSort
      fun a b => if descending then le b a else le a b
    let same (a b : String) : Bool := le a b && le b a
    (unlines (if unique_ then dropRepeats same ls else ls), 0)
  | unique counted onlyRepeated onlyUnique =>
    let rs := (runs (lines all)).filter fun r =>
      !(onlyRepeated && r.1 == 1) && !(onlyUnique && r.1 > 1)
    (unlines (rs.map fun r => if counted then padLeft 7 (toString r.1) ++ " " ++ r.2 else r.2), 0)
  | exchange delete squeeze complement source target =>
    (runExchange delete squeeze complement source target all, 0)
  | cut fields delimiter ranges onlyDelimited =>
    let ls := lines all
    let ls := if fields && onlyDelimited then ls.filter fun l => l.toList.contains delimiter else ls
    (unlines (ls.map (cutLine fields delimiter ranges)), 0)
  | reverse =>
    let out := unlines ((lines all).map fun l => String.ofList l.toList.reverse)
    (if all.toList.getLast? == some '\n' || out == "" then out
      else String.ofList out.toList.dropLast, 0)
  | tail bytes extent => (runTail bytes extent all, 0)
  | dump address format showAll limit => (runDump address format showAll limit all, 0)
  | allBut bytes n => (runAllBut bytes n all, 0)
  | display d => (runDisplay d all, 0)
  | select s => runSelect s inputs

def extentOf (s : String) : Extent :=
  match s.toList with
  | '+' :: ds => .fromPlace ((number? (String.ofList ds)).getD 1)
  | '-' :: ds => .last ((number? (String.ofList ds)).getD 10)
  | _ => .last ((number? s).getD 10)

/-- Reads a count of what is left out at the end. -/
def lessThanAll? (s : String) : Option Nat :=
  match s.toList with
  | '-' :: ds => number? (String.ofList ds)
  | _ => none

/-- Reads a key: one field or two, and letters behind them. -/
def sortKeyOf (separator : Option Char) (s : String) : SortKey × List Char :=
  let field (cs : List Char) : Nat × List Char :=
    let ds := cs.takeWhile Char.isDigit
    (Text.natOfDigits ds, cs.drop ds.length)
  let (first, rest) := field s.toList
  let letters := rest.takeWhile fun c => c != ','
  match rest.drop letters.length with
  | _ :: rest =>
    let (last, more) := field rest
    ({ first, last := some last, separator }, letters ++ more)
  | [] => ({ first, separator }, letters)

def dumpFormatOf (s : String) : DumpFormat :=
  let bytes (cs : List Char) : Nat := match cs with
    | '1' :: _ => 1
    | '2' :: _ => 2
    | '4' :: _ => 4
    | 'C' :: _ => 1
    | 'S' :: _ => 2
    | _ => 4
  match s.toList with
  | 'x' :: rest => .number 16 (bytes rest) false
  | 'o' :: rest => .number 8 (bytes rest) false
  | 'u' :: rest => .number 10 (bytes rest) false
  | 'd' :: rest => .number 10 (bytes rest) true
  | _ => .char

/-- The filter that a tool is with these arguments, and its operands; `none` if it is no filter or
cannot make sense of them. -/
def ofTool? (tool : String) (args : List String) : Option (Filter × List String) :=
  match tool with
  | "wc" =>
    let a := Arguments.read "" args
    let none_ := !(a.has 'l' || a.has 'w' || a.has 'c' || a.has 'm')
    some (.count (a.has 'l' || none_) (a.has 'w' || none_) (a.has 'm') (a.has 'c' || none_),
      a.operands)
  | "head" =>
    let a := Arguments.read "nc" args
    match (a.value? 'c').bind lessThanAll?, (a.value? 'n').bind lessThanAll? with
    | some n, _ => some (.allBut true n, a.operands)
    | none, some n => if a.has 'c' then none else some (.allBut false n, a.operands)
    | none, none => none
  | "cat" =>
    let a := Arguments.read "" args
    let d : Display :=
      { numbered := a.has 'n' || a.has 'b', onlyFilled := a.has 'b'
        ends := a.has 'E' || a.has 'e' || a.has 'A', tabs := a.has 'T' || a.has 't' || a.has 'A'
        odd := a.has 'v' || a.has 'e' || a.has 't' || a.has 'A' }
    if d = {} then none else some (.display d, a.operands)
  | "sort" =>
    let a := Arguments.read "kto" args
    let (key, letters) := sortKeyOf ((a.value? 't').bind (·.toList.head?)) ((a.value? 'k').getD "1")
    let has (c : Char) : Bool := a.has c || letters.contains c
    some (.sort (has 'r') (has 'n') (has 'u') (has 'f') key, a.operands)
  | "uniq" =>
    let a := Arguments.read "" args
    some (.unique (a.has 'c') (a.has 'd') (a.has 'u'), a.operands)
  | "tr" =>
    let a := Arguments.read "" args
    match a.operands with
    | [source] =>
      some (.exchange (a.has 'd') (a.has 's') (a.has 'c' || a.has 'C') (setOf source) [], [])
    | [source, target] =>
      some (.exchange (a.has 'd') (a.has 's') (a.has 'c' || a.has 'C') (setOf source)
        (setOf target), [])
    | _ => none
  | "cut" =>
    let a := Arguments.read "cfdb" args
    let delimiter := ((a.value? 'd').bind (·.toList.head?)).getD '\t'
    match a.value? 'f', a.value? 'c', a.value? 'b' with
    | some r, _, _ => some (.cut true delimiter (readRanges r) (a.has 's'), a.operands)
    | none, some r, _ => some (.cut false delimiter (readRanges r) false, a.operands)
    | none, none, some r => some (.cut false delimiter (readRanges r) false, a.operands)
    | _, _, _ => none
  | "rev" => some (.reverse, args)
  | "tail" =>
    let a := Arguments.read "nc" args
    match a.value? 'c', a.value? 'n' with
    | some c, _ => some (.tail true (extentOf c), a.operands)
    | none, some n => some (.tail false (extentOf n), a.operands)
    | none, none =>
      match a.options.filter fun o => o.1.isDigit with
      | [] => some (.tail false (.last 10), a.operands)
      | ds => some (.tail false (extentOf (String.ofList (ds.map (·.1)))), a.operands)
  | "od" =>
    let a := Arguments.read "AtNjw" args
    let address := match a.value? 'A' with
      | some "n" => none
      | some "x" => some 16
      | some "d" => some 10
      | _ => some 8
    let format := if a.has 'c' then DumpFormat.char
      else if a.has 'x' then .number 16 2 false
      else if a.has 'b' then .number 8 1 false
      else if a.has 'd' then .number 10 2 false
      else match a.value? 't' with
        | some t => dumpFormatOf t
        | none => .number 8 2 false
    some (.dump address format (a.has 'v') ((a.value? 'N').bind number?), a.operands)
  | "grep" =>
    let a := Arguments.read "em" args
    let (source, operands) := match a.value? 'e' with
      | some e => (some e, a.operands)
      | none => (a.operands.head?, a.operands.drop 1)
    source.bind fun source =>
      let cs := (if a.has 'i' then lower source else source).toList
      let p? := if a.has 'F' then some (LinePattern.ofText cs) else LinePattern.read? (a.has 'E') cs
      p?.map fun p =>
        (.select
          { pattern := p, whole := a.has 'x', word := a.has 'w', inverted := a.has 'v'
            ignoreCase := a.has 'i', counted := a.has 'c', quiet := a.has 'q'
            numbered := a.has 'n', namesOnly := a.has 'l', matchesOnly := a.has 'o'
            asText := a.has 'a' }, operands)
  | _ => none

end Filter

end SessionHost.Tools
