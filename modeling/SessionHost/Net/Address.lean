/-!
# Socket addresses

An address is a host and a port: `1.2.3.4:80`, or `[2001:db8::1%7]:80` with an optional scope. The
grammar is strict: four octets without leading noughts; groups of up to four hexadecimal digits, the
longest gap written as `::` at most once and standing for one group or more; the last two groups may
be written as four octets. Nothing may stand around an address.

* `SocketAddress.parse` reads the whole of a text;
* `SocketAddress.host` and `SocketAddress.text` are the written forms.
-/
namespace SessionHost

/-- A host and a port. -/
inductive SocketAddress where
  | v4 (octets : List Nat) (port : Nat)
  | v6 (groups : List Nat) (scope port : Nat)
  deriving DecidableEq, Repr

namespace SocketAddress

/-- Value of a digit of base ten or sixteen. -/
def digit? (base : Nat) (c : Char) : Option Nat :=
  let v :=
    if c.isDigit then some (c.toNat - 48)
    else if 'a' ≤ c ∧ c ≤ 'f' then some (c.toNat - 87)
    else if 'A' ≤ c ∧ c ≤ 'F' then some (c.toNat - 55)
    else none
  v.bind fun v => if v < base then some v else none

/-- Reads the longest run of digits: at least one, at most `most` if that is given, of a value up to
`limit`, and without a leading nought unless `padded`. -/
def number? (base : Nat) (most : Option Nat) (limit : Nat) (padded : Bool) (cs : List Char) :
    Option (Nat × List Char) :=
  let ds := cs.takeWhile fun c => (digit? base c).isSome
  let v := ds.foldl (fun v c => v * base + (digit? base c).getD 0) 0
  if ds.isEmpty then none
  else if (most.map fun m => decide (ds.length > m)).getD false then none
  else if v > limit then none
  else if !padded && ds.head? == some '0' && ds.length > 1 then none
  else some (v, cs.drop ds.length)

def pass? (c : Char) : List Char → Option (List Char)
  | d :: rest => if c == d then some rest else none
  | [] => none

def octet? : List Char → Option (Nat × List Char) := number? 10 (some 3) 255 false

/-- Reads four octets with dots between them. -/
def octets? (cs : List Char) : Option (List Nat × List Char) := do
  let (a, cs) ← octet? cs
  let cs ← pass? '.' cs
  let (b, cs) ← octet? cs
  let cs ← pass? '.' cs
  let (c, cs) ← octet? cs
  let cs ← pass? '.' cs
  let (d, cs) ← octet? cs
  return ([a, b, c, d], cs)

/-- Reads up to `room` groups, the first without and the others with a colon in front. If two groups
or more are left to read, four octets may stand for the next two, which ends the run. Gives the
groups, whether octets ended them, and the rest. -/
def groups (first : Bool) (room : Nat) (cs : List Char) : List Nat × Bool × List Char :=
  match room with
  | 0 => ([], false, cs)
  | room + 1 =>
    let start := if first then some cs else pass? ':' cs
    match (if room = 0 then none else start.bind octets?) with
    | some ([a, b, c, d], rest) => ([a * 256 + b, c * 256 + d], true, rest)
    | _ =>
      match start.bind (number? 16 (some 4) 0xFFFF true) with
      | some (g, rest) =>
        let (gs, octets, rest) := groups false room rest
        (g :: gs, octets, rest)
      | none => ([], false, cs)

/-- Reads eight groups, or fewer around `::`. -/
def eightGroups? (cs : List Char) : Option (List Nat × List Char) :=
  let (head, octets, rest) := groups true 8 cs
  if head.length = 8 then some (head, rest)
  else if octets then none
  else do
    let rest ← pass? ':' rest
    let rest ← pass? ':' rest
    let (tail, _, rest) := groups true (8 - (head.length + 1)) rest
    return (head ++ List.replicate (8 - head.length - tail.length) 0 ++ tail, rest)

def port? (cs : List Char) : Option (Nat × List Char) := do
  let cs ← pass? ':' cs
  number? 10 none 65535 true cs

/-- Reads an address of the first kind. -/
def v4? (cs : List Char) : Option (SocketAddress × List Char) := do
  let (octets, cs) ← octets? cs
  let (port, cs) ← port? cs
  return (v4 octets port, cs)

def scope? (cs : List Char) : Option (Nat × List Char) :=
  match cs with
  | '%' :: rest => number? 10 none 0xFFFFFFFF true rest
  | _ => some (0, cs)

def v6? (cs : List Char) : Option (SocketAddress × List Char) := do
  let cs ← pass? '[' cs
  let (groups, cs) ← eightGroups? cs
  let (scope, cs) ← scope? cs
  let cs ← pass? ']' cs
  let (port, cs) ← port? cs
  return (v6 groups scope port, cs)

/-- The address that `s` is. -/
def parse (s : String) : Option SocketAddress :=
  match v4? s.toList with
  | some (a, []) => some a
  | _ =>
    match v6? s.toList with
    | some (a, []) => some a
    | _ => none

def port : SocketAddress → Nat
  | v4 _ p => p
  | v6 _ _ p => p

def withPort (p : Nat) : SocketAddress → SocketAddress
  | v4 octets _ => v4 octets p
  | v6 groups scope _ => v6 groups scope p

/-- Lower-case hexadecimal digits of a group. -/
def groupText (n : Nat) : String := String.ofList (Nat.toDigits 16 n)

/-- The longest run of noughts, the first of equals: where it starts and how long it is. `place`
counts the groups passed, `run` the noughts directly before it. -/
def longestRun (place run : Nat) (best : Nat × Nat) : List Nat → Nat × Nat
  | [] => best
  | g :: rest =>
    if g = 0 then
      let run := run + 1
      longestRun (place + 1) run (if run > best.2 then (place + 1 - run, run) else best) rest
    else longestRun (place + 1) 0 best rest

/-- Groups with colons between them, the longest run of at least two noughts left out; an address of
the first kind that is mapped into the second keeps its octets. -/
def groupsText (gs : List Nat) : String :=
  match gs with
  | [0, 0, 0, 0, 0, 0xFFFF, a, b] => s!"::ffff:{a / 256}.{a % 256}.{b / 256}.{b % 256}"
  | _ =>
    let (start, length) := longestRun 0 0 (0, 0) gs
    if length > 1 then
      ":".intercalate ((gs.take start).map groupText) ++ "::"
        ++ ":".intercalate ((gs.drop (start + length)).map groupText)
    else ":".intercalate (gs.map groupText)

def host : SocketAddress → String
  | v4 octets _ => ".".intercalate (octets.map toString)
  | v6 groups _ _ => groupsText groups

def text : SocketAddress → String
  | v4 octets p => ".".intercalate (octets.map toString) ++ s!":{p}"
  | v6 groups scope p =>
    if scope = 0 then s!"[{groupsText groups}]:{p}" else s!"[{groupsText groups}%{scope}]:{p}"

end SocketAddress

end SessionHost
