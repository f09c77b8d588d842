import SessionHost.Bytes
import SessionHost.Shell.Parser

/-!
# Arithmetic

Expressions over whole numbers of sixty-four bits, which wrap around. An expression is read into a
tree and the tree is evaluated; names stand for variables, a variable that is unset or empty is
nought, and an assignment is an expression.

* `Arithmetic.read` reads an expression;
* `Arithmetic.Expr.eval` evaluates it and collects the assignments that it makes.
-/
namespace SessionHost.Shell.Arithmetic

inductive BinaryOp where
  | times | divide | remainder | plus | minus | shiftLeft | shiftRight
  | less | lessEqual | greater | greaterEqual | equal | notEqual
  | bitAnd | bitXor | bitOr | both | either
  deriving DecidableEq, Repr

inductive Expr where
  | number (n : Int)
  | variable_ (name : String)
  | negative (e : Expr)
  | logicalNot (e : Expr)
  | complement (e : Expr)
  | binary (op : BinaryOp) (a b : Expr)
  | choice (c a b : Expr)
  | assign (name : String) (op : Option BinaryOp) (e : Expr)
  deriving Repr

inductive Fault where
  | expectingPrimary
  | expectingEnd
  | expectingClose
  | divisionByZero
  | illegalNumber (text : String)
  deriving DecidableEq, Repr

/-- The wording of a fault in the expression `text`. -/
def Fault.message (text : String) : Fault → String
  | expectingPrimary => s!"arithmetic expression: expecting primary: \"{text}\""
  | expectingEnd => s!"arithmetic expression: expecting EOF: \"{text}\""
  | expectingClose => s!"arithmetic expression: expecting ')': \"{text}\""
  | divisionByZero => s!"arithmetic expression: division by zero: \"{text}\""
  | illegalNumber n => s!"Illegal number: {n}"

/-- A number wrapped to sixty-four bits. -/
def wrap (n : Int) : Int := n.bmod 0x10000000000000000

/-! ## Numbers -/

/-- Reads digits of a base from the front. -/
def digitsOf (base : Nat) (cs : List Char) : Nat × List Char :=
  let value? (c : Char) : Option Nat := (Bytes.hexValue? c).filter fun d => d < base
  let ds := cs.takeWhile fun c => (value? c).isSome
  (ds.foldl (fun n c => n * base + (value? c).getD 0) 0, cs.drop ds.length)

/-- Reads a number: hexadecimal behind `0x`, octal behind a nought, else decimal. -/
def number? (cs : List Char) : Option (Int × List Char) :=
  match cs with
  | '0' :: x :: rest =>
    if x == 'x' || x == 'X' then
      let (n, rest') := digitsOf 16 rest
      some (n, rest')
    else
      let (n, rest) := digitsOf 8 (x :: rest)
      some (n, rest)
  | c :: _ =>
    if c.isDigit then
      let (n, rest) := digitsOf 10 cs
      some (n, rest)
    else none
  | [] => none

def isSpace (c : Char) : Bool := c == ' ' || c == '\t' || c == '\n'

def valueOf (text : String) : Except Fault Int :=
  let cs := text.toList.dropWhile isSpace
  let (sign, ds) : Int × List Char := match cs with
    | '-' :: ds => (-1, ds)
    | '+' :: ds => (1, ds)
    | _ => (1, cs)
  if cs.isEmpty then .ok 0
  else match number? ds with
    | some (n, rest) =>
      if (rest.dropWhile isSpace).isEmpty then .ok (wrap (sign * n)) else .error (.illegalNumber text)
    | none => .error (.illegalNumber text)

/-! ## Reading -/

abbrev Reading := Except Fault (Expr × List Char)

/-- The operators of each level, loosest first; a longer one stands before one that it begins with. -/
def levels : List (List (String × BinaryOp)) :=
  [[("||", .either)], [("&&", .both)], [("|", .bitOr)], [("^", .bitXor)], [("&", .bitAnd)],
   [("==", .equal), ("!=", .notEqual)],
   [("<=", .lessEqual), (">=", .greaterEqual), ("<", .less), (">", .greater)],
   [("<<", .shiftLeft), (">>", .shiftRight)], [("+", .plus), ("-", .minus)],
   [("*", .times), ("/", .divide), ("%", .remainder)]]

/-- Spellings that begin like an operator of one level and belong to another. -/
def isOther (op : String) (cs : List Char) : Bool :=
  let starts (s : String) : Bool := s.toList.isPrefixOf cs
  match op with
  | "|" => starts "||" || starts "|="
  | "&" => starts "&&" || starts "&="
  | "^" => starts "^="
  | "<" => starts "<<"
  | ">" => starts ">>"
  | "<<" => starts "<<="
  | ">>" => starts ">>="
  | "+" => starts "+="
  | "-" => starts "-="
  | "*" => starts "*="
  | "/" => starts "/="
  | "%" => starts "%="
  | _ => false

/-- The operator of a level that starts here. -/
def operatorAt? (ops : List (String × BinaryOp)) (cs : List Char) : Option (BinaryOp × List Char) :=
  (ops.find? fun o => o.1.toList.isPrefixOf cs && !isOther o.1 cs).map fun o =>
    (o.2, cs.drop o.1.length)

def assignment? (cs : List Char) : Option (Option BinaryOp × List Char) :=
  let ops : List (String × BinaryOp) :=
    [("+=", .plus), ("-=", .minus), ("*=", .times), ("/=", .divide), ("%=", .remainder),
     ("<<=", .shiftLeft), (">>=", .shiftRight), ("&=", .bitAnd), ("^=", .bitXor), ("|=", .bitOr)]
  match ops.find? fun o => o.1.toList.isPrefixOf cs with
  | some o => some (some o.2, cs.drop o.1.length)
  | none =>
    match cs with
    | '=' :: '=' :: _ => none
    | '=' :: rest => some (none, rest)
    | _ => none

mutual

/-- Reads an expression of the loosest kind. -/
def readChoice (fuel : Nat) (cs : List Char) : Reading :=
  match fuel with
  | 0 => .error .expectingPrimary
  | fuel + 1 => do
    let (c, rest) ← readLevel fuel levels cs
    match rest.dropWhile isSpace with
    | '?' :: rest =>
      let (a, rest) ← readChoice fuel rest
      match rest.dropWhile isSpace with
      | ':' :: rest =>
        let (b, rest) ← readChoice fuel rest
        return (.choice c a b, rest)
      | _ => .error .expectingPrimary
    | rest => return (c, rest)

/-- Reads operands joined by operators of the given levels. -/
def readLevel (fuel : Nat) (ls : List (List (String × BinaryOp))) (cs : List Char) : Reading :=
  match fuel with
  | 0 => .error .expectingPrimary
  | fuel + 1 =>
    match ls with
    | [] => readOperand fuel cs
    | ops :: inner => do
      let (a, rest) ← readLevel fuel inner cs
      readMore fuel ops inner a rest

def readMore (fuel : Nat) (ops : List (String × BinaryOp)) (inner : List (List (String × BinaryOp)))
    (a : Expr) (cs : List Char) : Reading :=
  match fuel with
  | 0 => .error .expectingPrimary
  | fuel + 1 =>
    let cs := cs.dropWhile isSpace
    match operatorAt? ops cs with
    | none => .ok (a, cs)
    | some (op, rest) => do
      let (b, rest) ← readLevel fuel inner rest
      readMore fuel ops inner (.binary op a b) rest

def readOperand (fuel : Nat) (cs : List Char) : Reading :=
  match fuel with
  | 0 => .error .expectingPrimary
  | fuel + 1 =>
    let cs := cs.dropWhile isSpace
    match cs with
    | '-' :: rest => do
      let (e, rest) ← readOperand fuel rest
      return (.negative e, rest)
    | '+' :: rest => readOperand fuel rest
    | '!' :: rest => do
      let (e, rest) ← readOperand fuel rest
      return (.logicalNot e, rest)
    | '~' :: rest => do
      let (e, rest) ← readOperand fuel rest
      return (.complement e, rest)
    | '(' :: rest => do
      let (e, rest) ← readChoice fuel rest
      match rest.dropWhile isSpace with
      | ')' :: rest => return (e, rest)
      | _ => .error .expectingClose
    | c :: _ =>
      if isNameStart c then
        let name := String.ofList (cs.takeWhile isNameChar)
        let rest := (cs.dropWhile isNameChar).dropWhile isSpace
        match assignment? rest with
        | some (op, rest) => do
          let (e, rest) ← readChoice fuel rest
          return (.assign name op e, rest)
        | none => .ok (.variable_ name, rest)
      else match number? cs with
        | some (n, rest) => .ok (.number (wrap n), rest)
        | none => .error .expectingPrimary
    | [] => .error .expectingPrimary

end

/-- Reads a whole expression; an empty one is nought. -/
def read (text : String) : Except Fault Expr :=
  let cs := text.toList
  if (cs.dropWhile isSpace).isEmpty then .ok (.number 0)
  else do
    let (e, rest) ← readChoice (16 * cs.length + 32) cs
    if (rest.dropWhile isSpace).isEmpty then return e else .error .expectingEnd

/-! ## Evaluating -/

def ofBool (b : Bool) : Int := if b then 1 else 0

def bits (n : Int) : Nat := (n % 0x10000000000000000).toNat

/-- An operator whose operands are both evaluated. -/
def BinaryOp.apply (op : BinaryOp) (a b : Int) : Except Fault Int :=
  match op with
  | times => .ok (wrap (a * b))
  | divide => if b = 0 then .error .divisionByZero else .ok (wrap (a.tdiv b))
  | remainder => if b = 0 then .error .divisionByZero else .ok (wrap (a.tmod b))
  | plus => .ok (wrap (a + b))
  | minus => .ok (wrap (a - b))
  | shiftLeft => .ok (wrap (a * Int.ofNat (Nat.pow 2 (bits b % 64))))
  | shiftRight => .ok (a.fdiv (Int.ofNat (Nat.pow 2 (bits b % 64))))
  | less => .ok (ofBool (a < b))
  | lessEqual => .ok (ofBool (a ≤ b))
  | greater => .ok (ofBool (a > b))
  | greaterEqual => .ok (ofBool (a ≥ b))
  | equal => .ok (ofBool (a == b))
  | notEqual => .ok (ofBool (a != b))
  | bitAnd => .ok (wrap (Nat.land (bits a) (bits b)))
  | bitXor => .ok (wrap (Nat.xor (bits a) (bits b)))
  | bitOr => .ok (wrap (Nat.lor (bits a) (bits b)))
  | both => .ok (ofBool (a != 0 && b != 0))
  | either => .ok (ofBool (a != 0 || b != 0))

/-- Evaluates an expression over the variables `get`, the assignments `done` coming first. The side
of a choice or of a chain that is not needed is not evaluated. -/
def Expr.eval (get : String → String) (done : List (String × Int)) :
    Expr → Except Fault (Int × List (String × Int))
  | number n => .ok (n, done)
  | variable_ name =>
    match done.find? fun d => d.1 == name with
    | some d => .ok (d.2, done)
    | none => (valueOf (get name)).map fun n => (n, done)
  | negative e => (e.eval get done).map fun r => (wrap (-r.1), r.2)
  | logicalNot e => (e.eval get done).map fun r => (ofBool (r.1 == 0), r.2)
  | complement e => (e.eval get done).map fun r => (-r.1 - 1, r.2)
  | binary op a b => do
    let (x, done) ← a.eval get done
    if op = .both ∧ x = 0 then return (0, done)
    else if op = .either ∧ x ≠ 0 then return (1, done)
    else
      let (y, done) ← b.eval get done
      return (← op.apply x y, done)
  | choice c a b => do
    let (x, done) ← c.eval get done
    if x ≠ 0 then a.eval get done else b.eval get done
  | assign name op e => do
    let (y, done) ← e.eval get done
    match op with
    | none => return (y, (name, y) :: done)
    | some op =>
      let x ← match done.find? fun d => d.1 == name with
        | some d => pure d.2
        | none => valueOf (get name)
      let z ← op.apply x y
      return (z, (name, z) :: done)

end SessionHost.Shell.Arithmetic
