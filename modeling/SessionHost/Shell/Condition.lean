import SessionHost.Host.Files
import SessionHost.Text.Digits
import SessionHost.Text.Octets

/-!
# Conditions

A condition is a list of arguments: comparisons of texts and numbers, questions about files and
descriptors, and their combinations. Three arguments of which the middle one is a comparison are that
comparison, whatever the others look like.

* `Condition.holds` decides a condition, or says why it has no answer.
-/
namespace SessionHost.Shell.Condition

open SessionHost.Host (Files Path Node)

structure Surroundings where
  files : Files
  cwd : Path
  isTerminal : Nat → Bool

def binaryOperators : List String :=
  ["=", "!=", "<", ">", "-eq", "-ne", "-lt", "-le", "-gt", "-ge", "-nt", "-ot", "-ef"]

def unaryOperators : List String :=
  ["-n", "-z", "-e", "-f", "-d", "-r", "-w", "-x", "-s", "-h", "-L", "-p", "-S", "-c", "-b", "-t",
   "-g", "-u", "-k", "-O", "-G"]

def number (s : String) : Except String Int :=
  let cs := s.toList.dropWhile fun c => c == ' ' || c == '\t' || c == '\n'
  let cs := (cs.reverse.dropWhile fun c => c == ' ' || c == '\t' || c == '\n').reverse
  let (sign, ds) : Int × List Char := match cs with
    | '-' :: ds => (-1, ds)
    | '+' :: ds => (1, ds)
    | _ => (1, cs)
  if ds.isEmpty || !ds.all Char.isDigit then .error s!"Illegal number: {s}"
  else .ok (sign * Int.ofNat (Text.natOfDigits ds))

def compare (a op b : String) : Except String Bool := do
  match op with
  | "=" => return a == b
  | "!=" => return a != b
  | "<" => return decide (a < b)
  | ">" => return decide (b < a)
  | "-eq" => return (← number a) == (← number b)
  | "-ne" => return (← number a) != (← number b)
  | "-lt" => return decide ((← number a) < (← number b))
  | "-le" => return decide ((← number a) ≤ (← number b))
  | "-gt" => return decide ((← number a) > (← number b))
  | "-ge" => return decide ((← number a) ≥ (← number b))
  | "-ef" => return a == b
  | _ => return false

def ask (s : Surroundings) (op a : String) : Except String Bool := do
  let node? : Option Node := match s.files.find? s.cwd (Octets.toText a) with
    | .ok (_, n) => some n
    | .error _ => none
  match op with
  | "-n" => return a != ""
  | "-z" => return a == ""
  | "-t" => return s.isTerminal (← number a).toNat
  | "-e" | "-r" | "-w" | "-O" | "-G" => return node?.isSome
  | "-d" => return node? == some .directory
  | "-f" => return match node? with
    | some (.file ..) | some (.program _) => true
    | _ => false
  | "-x" => return match node? with
    | some .directory | some (.program _) => true
    | some (.file _ executable) => executable
    | _ => false
  | "-s" => return match node? with
    | some (.file content _) => !content.isEmpty
    | some .directory | some (.program _) => true
    | _ => false
  | "-c" => return node? == some .nullDevice
  | _ => return false

mutual

def readEither (s : Surroundings) (fuel : Nat) (args : List String) :
    Except String (Bool × List String) :=
  match fuel with
  | 0 => .error "too many arguments"
  | fuel + 1 => do
    let (a, rest) ← readBoth s fuel args
    match rest with
    | "-o" :: rest =>
      let (b, rest) ← readEither s fuel rest
      return (a || b, rest)
    | _ => return (a, rest)

def readBoth (s : Surroundings) (fuel : Nat) (args : List String) :
    Except String (Bool × List String) :=
  match fuel with
  | 0 => .error "too many arguments"
  | fuel + 1 => do
    let (a, rest) ← readNot s fuel args
    match rest with
    | "-a" :: rest =>
      let (b, rest) ← readBoth s fuel rest
      return (a && b, rest)
    | _ => return (a, rest)

/-- Negations, brackets and single questions. -/
def readNot (s : Surroundings) (fuel : Nat) (args : List String) :
    Except String (Bool × List String) :=
  match fuel with
  | 0 => .error "too many arguments"
  | fuel + 1 =>
    match args with
    | [] => .error "argument expected"
    | a :: op :: b :: rest =>
      if binaryOperators.contains op then do return (← compare a op b, rest)
      else if a == "!" then do
        let (r, rest) ← readNot s fuel (op :: b :: rest)
        return (!r, rest)
      else if a == "(" then do
        let (r, rest) ← readEither s fuel (op :: b :: rest)
        match rest with
        | ")" :: rest => return (r, rest)
        | _ => .error "closing paren expected"
      else if unaryOperators.contains a then do return (← ask s a op, b :: rest)
      else .ok (a != "", op :: b :: rest)
    | [a, b] =>
      if a == "!" then do
        let (r, rest) ← readNot s fuel [b]
        return (!r, rest)
      else if unaryOperators.contains a then do return (← ask s a b, [])
      else if binaryOperators.contains b then .error s!"{b}: argument expected"
      else .ok (a != "", [b])
    | [a] => .ok (a != "", [])

end

/-- Decides a condition; the error is a complaint. -/
def holds (s : Surroundings) (args : List String) : Except String Bool :=
  match args with
  | [] => .ok false
  | _ => do
    let (r, rest) ← readEither s (3 * args.length + 8) args
    if rest.isEmpty then return r
    else
      -- the word before those that are left over is the one to blame
      let blamed := (args[args.length - rest.length - 1]?).getD ""
      .error s!"{blamed}: unexpected operator"

end SessionHost.Shell.Condition
