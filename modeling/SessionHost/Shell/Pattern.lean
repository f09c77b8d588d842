/-!
# Patterns

A pattern is a list of items, each of which takes one character, except for `rest`, which takes any
number of them. A pattern is read from characters that know whether they were quoted: a quoted
character stands for itself.

* `Pattern.fits` compares a whole text;
* `Pattern.cutEnd` and `Pattern.cutFront` take a match off one end of a text.
-/
namespace SessionHost.Shell

inductive PatternItem where
  | only (c : Char)
  | any
  | rest
  | oneOf (negated : Bool) (ranges : List (Char × Char))
  deriving DecidableEq, Repr

abbrev Pattern := List PatternItem

structure PatternChar where
  char : Char
  quoted : Bool
  deriving DecidableEq, Repr

def PatternItem.accepts (c : Char) : PatternItem → Bool
  | only d => c == d
  | any | rest => true
  | oneOf negated ranges => (ranges.any fun r => r.1 ≤ c && c ≤ r.2) != negated

namespace Pattern

/-- The members of the named classes of characters. -/
def classRanges : String → List (Char × Char)
  | "alpha" => [('a', 'z'), ('A', 'Z')]
  | "digit" => [('0', '9')]
  | "alnum" => [('0', '9'), ('a', 'z'), ('A', 'Z')]
  | "upper" => [('A', 'Z')]
  | "lower" => [('a', 'z')]
  | "space" => [(' ', ' '), ('\t', '\r')]
  | "blank" => [(' ', ' '), ('\t', '\t')]
  | "punct" => [('!', '/'), (':', '@'), ('[', '\x60'), ('\x7b', '~')]
  | "print" => [(' ', '~')]
  | "graph" => [('!', '~')]
  | "cntrl" => [('\x00', '\x1f'), ('\x7f', '\x7f')]
  | "xdigit" => [('0', '9'), ('a', 'f'), ('A', 'F')]
  | _ => []

/-- The name of a class that starts here, behind `[:`, and the rest behind `:]`. -/
def className? (cs : List Char) : Option (String × List Char) :=
  let name := cs.takeWhile Char.isAlpha
  match cs.drop name.length with
  | ':' :: ']' :: rest => some (String.ofList name, rest)
  | _ => none

/-- Reads the members of a set up to the closing bracket. A bracket that comes first is a member. -/
def members (fuel : Nat) (first : Bool) (done : List (Char × Char)) (cs : List PatternChar) :
    Option (List (Char × Char) × List PatternChar) :=
  match fuel, cs with
  | 0, _ => none
  | _, [] => none
  | fuel + 1, c :: rest =>
    if c.char == ']' && !c.quoted && !first then some (done.reverse, rest)
    else
      let named : Option (String × List Char) :=
        match c, rest with
        | ⟨'[', false⟩, ⟨':', _⟩ :: more => className? (more.map (·.char))
        | _, _ => none
      match named with
      | some (name, _) =>
        members fuel false ((classRanges name).reverse ++ done) (rest.drop (name.length + 3))
      | none =>
        match rest with
        | ⟨'-', false⟩ :: hi :: more =>
          if hi.char == ']' && !hi.quoted then members fuel false ((c.char, c.char) :: done) rest
          else members fuel false ((c.char, hi.char) :: done) more
        | _ => members fuel false ((c.char, c.char) :: done) rest

/-- Reads a pattern. A bracket that is never closed stands for itself. -/
def readFrom (fuel : Nat) (cs : List PatternChar) : Pattern :=
  match fuel, cs with
  | 0, _ => []
  | _, [] => []
  | fuel + 1, c :: rest =>
    if c.quoted then .only c.char :: readFrom fuel rest
    else match c.char with
      | '*' => .rest :: readFrom fuel rest
      | '?' => .any :: readFrom fuel rest
      | '\\' =>
        match rest with
        | d :: rest => .only d.char :: readFrom fuel rest
        | [] => [.only '\\']
      | '[' =>
        let (negated, inner) := match rest with
          | ⟨'!', false⟩ :: inner => (true, inner)
          | ⟨'^', false⟩ :: inner => (true, inner)
          | _ => (false, rest)
        match members (inner.length + 1) true [] inner with
        | some (ranges, rest) => .oneOf negated ranges :: readFrom fuel rest
        | none => .only '[' :: readFrom fuel rest
      | c => .only c :: readFrom fuel rest

/-- The pattern that these characters are. -/
def ofChars (cs : List PatternChar) : Pattern := readFrom (cs.length + 1) cs

/-- Whether a pattern can match anything but itself. -/
def isLiteral (p : Pattern) : Bool :=
  p.all fun
    | .only _ => true
    | _ => false

/-- Whether `p` matches the whole of a text. -/
def fits : Pattern → List Char → Bool
  | [], cs => cs.isEmpty
  | .rest :: p, [] => fits p []
  | .rest :: p, c :: cs => fits p (c :: cs) || fits (.rest :: p) cs
  | i :: p, c :: cs => i.accepts c && fits p cs
  | _ :: _, [] => false
termination_by p cs => p.length + cs.length

/-- The lengths to try when a match is taken off an end. -/
def lengths (longest : Bool) (n : Nat) : List Nat :=
  let up := List.range (n + 1)
  if longest then up.reverse else up

/-- A text without the shortest or longest match of `p` at its front. -/
def cutFront (p : Pattern) (longest : Bool) (cs : List Char) : List Char :=
  match (lengths longest cs.length).find? fun n => fits p (cs.take n) with
  | some n => cs.drop n
  | none => cs

/-- A text without the shortest or longest match of `p` at its end. -/
def cutEnd (p : Pattern) (longest : Bool) (cs : List Char) : List Char :=
  match (lengths longest cs.length).find? fun n => fits p (cs.drop (cs.length - n)) with
  | some n => cs.take (cs.length - n)
  | none => cs

end Pattern

end SessionHost.Shell
