import SessionHost.Host.Files
import SessionHost.Text.Octets
import SessionHost.Shell.Arithmetic
import SessionHost.Shell.Pattern

/-!
# Expanding words

A word becomes a list of pieces: characters that know whether they were quoted and whether they may
be split, and marks between fields. The pieces are then split into fields, and each field is matched
against the files or stripped of its quotes.

The output of an inner script is not at hand while a word is expanded. Expansion takes such outputs
from a list, in the order in which it meets them, and stops with `Stop.needs` at the first that is
missing; the shell runs that script and expands the word once more.

* `Expand.fields` expands the words of a command;
* `Expand.text` expands a word that stays one text;
* `Expand.pattern` expands a word that is matched against another.
-/
namespace SessionHost.Shell

open SessionHost.Host (Files Path)

structure Variable where
  name : String
  value : Option String
  exported : Bool := false
  readonly_ : Bool := false
  deriving DecidableEq, Repr

namespace Variable

/-- The value of a variable, if it is set. -/
def find? (vs : List Variable) (name : String) : Option String :=
  (vs.find? fun v => v.name == name).bind (·.value)

/-- Sets a variable; `none` if it may not be changed. -/
def set? (vs : List Variable) (name value : String) : Option (List Variable) :=
  match vs.find? fun v => v.name == name with
  | some v =>
    if v.readonly_ then none
    else some (vs.map fun v => if v.name == name then { v with value := some value } else v)
  | none => some (vs ++ [{ name, value := some value }])

end Variable

structure View where
  name : String := "sh"
  params : List String := []
  status : Nat := 0
  pid : Nat := 0
  background : Option Nat := none
  options : String := ""
  unsetIsError : Bool := false
  plainNames : Bool := false
  files : Files
  cwd : Path

/-- Why expansion stops. -/
inductive Stop where
  | needs (script : String)
  | refused (message : String)
  deriving Repr

/-- What expansion changes: the variables, and the outputs that it has not used. -/
structure Expansion where
  vars : List Variable
  outputs : List String

abbrev Expanding (α : Type) := StateT Expansion (Except Stop) α

inductive Piece where
  | char (c : Char) (quoted splits : Bool)
  /-- Keeps a field that has no characters. -/
  | kept
  | boundary
  deriving DecidableEq, Repr

namespace Expand

def refuse {α : Type} (message : String) : Expanding α :=
  fun _ => .error (.refused message)

def pieces (quoted splits : Bool) (s : String) : List Piece :=
  s.toList.map fun c => .char c quoted splits

/-- The characters of pieces, boundaries being blanks. -/
def plainText (ps : List Piece) : String :=
  String.ofList (ps.filterMap fun
    | .char c _ _ => some c
    | .boundary => some ' '
    | .kept => none)

/-- The characters of pieces for a pattern. -/
def patternChars (ps : List Piece) : List PatternChar :=
  ps.filterMap fun
    | .char c quoted _ => some ⟨c, quoted⟩
    | .boundary => some ⟨' ', true⟩
    | .kept => none

/-- The value of a parameter that is one text. -/
def value? (v : View) (vars : List Variable) (name : String) : Option String :=
  match name with
  | "#" => some (toString v.params.length)
  | "?" => some (toString v.status)
  | "$" => some (toString v.pid)
  | "!" => v.background.map toString
  | "-" => some v.options
  | "0" => some v.name
  | _ =>
    let cs := name.toList
    if cs.all Char.isDigit then v.params[Arithmetic.digitsOf 10 cs |>.1.pred]?
    else Variable.find? vars name

/-- The value of an unset `IFS`. -/
def defaultSeparators : String := " \t\n"

def separators (vars : List Variable) : List Char :=
  ((Variable.find? vars "IFS").getD defaultSeparators).toList

def allParams (v : View) (vars : List Variable) (joined quoted : Bool) : List Piece :=
  if joined && quoted then
    let sep := match separators vars with
      | c :: _ => String.singleton c
      | [] => ""
    .kept :: pieces true false (sep.intercalate v.params)
  else
    let each := v.params.map fun p => (if quoted then [.kept] else []) ++ pieces quoted (!quoted) p
    each.intersperse [.boundary] |>.flatten

/-- Takes the output of an inner script, without the newlines at its end. -/
def takeOutput (script : String) : Expanding String := fun e =>
  match e.outputs with
  | out :: outputs =>
    .ok (String.ofList (out.toList.reverse.dropWhile fun c => c == '\n').reverse,
      { e with outputs })
  | [] => .error (.needs script)

/-- Reads a part of a script that stands inside a word. -/
def reading (r : Except SyntaxFault Word) : Expanding Word :=
  match r with
  | .ok w => pure w
  | .error e => refuse e.message

/-- Sets a variable in the course of an expansion. -/
def assign (name value : String) : Expanding Unit := fun e =>
  match Variable.set? e.vars name value with
  | some vars => .ok ((), { e with vars })
  | none => .error (.refused s!"{name}: is read only")

/-- Puts the home directory for a tilde at the front of a word. -/
def tilde (vars : List Variable) (w : Word) : Word :=
  match w with
  | .plain s :: rest =>
    match s.toList with
    | '~' :: cs =>
      let user := cs.takeWhile fun c => c != '/'
      if user.isEmpty && (!cs.isEmpty || rest.isEmpty) then
        match Variable.find? vars "HOME" with
        | some home => .quoted home :: .plain (String.ofList cs) :: rest
        | none => w
      else w
    | _ => w
  | _ => w

/-- Pieces of an operand, the literal ones of which may be split. -/
def splittable (ps : List Piece) : List Piece :=
  ps.map fun
    | .char c false _ => .char c false true
    | p => p

mutual

def parts (v : View) (fuel : Nat) : Word → Expanding (List Piece)
  | [] => pure []
  | p :: rest => do
    let a ← part v fuel p
    let b ← parts v fuel rest
    return a ++ b

def part (v : View) (fuel : Nat) : Part → Expanding (List Piece)
  | .plain s => pure (pieces false false s)
  | .quoted s => pure (.kept :: pieces true false s)
  | .script s quoted => do
    let out ← takeOutput s
    return (if quoted then [.kept] else []) ++ pieces quoted (!quoted) out
  | .arith s quoted =>
    match fuel with
    | 0 => refuse "word too deep"
    | fuel + 1 => do
      let w ← reading (readQuoted s)
      let expression := plainText (← parts v fuel w)
      let vars := (← get).vars
      let lookUp (name : String) : String := (Variable.find? vars name).getD ""
      match Arithmetic.read expression |>.bind (·.eval lookUp []) with
      | .error e => refuse (e.message expression)
      | .ok (n, changes) =>
        for (name, n) in changes.reverse do assign name (toString n)
        return pieces quoted (!quoted) (toString n)
  | .param name op operand quoted =>
    match fuel with
    | 0 => refuse "word too deep"
    | fuel + 1 => do
      let vars := (← get).vars
      let many := name == "@" || name == "*"
      let current := if many then
          (if v.params.isEmpty then none else some (" ".intercalate v.params))
        else value? v vars name
      let mark : List Piece := if quoted then [.kept] else []
      let shown : List Piece :=
        if many then allParams v vars (name == "*") quoted
        else mark ++ pieces quoted (!quoted) (current.getD "")
      let missing (emptyToo : Bool) : Bool := match current with
        | none => true
        | some s => emptyToo && s == ""
      let word : Expanding (List Piece) :=
        if quoted then do
          let w ← reading (readQuoted operand)
          return .kept :: (← parts v fuel w)
        else do
          let w ← reading (readWord operand)
          return splittable (← parts v fuel (tilde vars w))
      let subPattern : Expanding Pattern := do
        let w ← reading (readWord operand)
        return Pattern.ofChars (patternChars (← parts v fuel w))
      match op with
      | .value =>
        if v.unsetIsError && current.isNone && !many then refuse s!"{name}: parameter not set"
        else return shown
      | .length =>
        let n := if many then v.params.length else (current.getD "").length
        return mark ++ pieces quoted (!quoted) (toString n)
      | .orElse emptyToo => if missing emptyToo then word else return shown
      | .assign emptyToo =>
        if missing emptyToo then
          if !isName name.toList then refuse s!"{name}: bad variable name"
          else
            let ps ← word
            let s := plainText ps
            assign name s
            return mark ++ pieces quoted (!quoted) s
        else return shown
      | .demand emptyToo =>
        if missing emptyToo then
          let s := plainText (← word)
          let reason := if s == "" then "parameter not set" else s
          refuse s!"{name}: {reason}"
        else return shown
      | .whenSet emptyToo => if missing emptyToo then return mark else word
      | .dropSuffix longest =>
        let p ← subPattern
        return mark ++ pieces quoted (!quoted)
          (String.ofList (p.cutEnd longest (current.getD "").toList))
      | .dropFront longest =>
        let p ← subPattern
        return mark ++ pieces quoted (!quoted)
          (String.ofList (p.cutFront longest (current.getD "").toList))

end

/-- How deep words may be nested in one another. -/
def depth : Nat := 64

def word (v : View) (w : Word) : Expanding (List Piece) := do
  let vars := (← get).vars
  parts v depth (tilde vars w)

/-! ## Fields -/

/-- Where splitting stands: fields done, the field being read if there is one, and whether blanks
have just ended a field. All is kept in reverse. -/
structure Splitting where
  done : List (List Piece) := []
  field : Option (List Piece) := none
  afterBlank : Bool := false

namespace Splitting

def finish (s : Splitting) : Splitting :=
  match s.field with
  | some f => { done := f :: s.done }
  | none => { s with afterBlank := false }

def step (seps : List Char) (s : Splitting) (p : Piece) : Splitting :=
  match p with
  | .boundary => s.finish
  | .kept => { s with field := some (s.field.getD []), afterBlank := false }
  | .char c _ splits =>
    if splits && seps.contains c then
      if c == ' ' || c == '\t' || c == '\n' then
        match s.field with
        | some f => { done := f :: s.done, afterBlank := true }
        | none => s
      else
        match s.field with
        | some f => { done := f :: s.done }
        | none => if s.afterBlank then { s with afterBlank := false } else { s with done := [] :: s.done }
    else { s with field := some (p :: s.field.getD []), afterBlank := false }

end Splitting

def split (seps : List Char) (ps : List Piece) : List (List Piece) :=
  ((ps.foldl (Splitting.step seps) {}).finish.done.map List.reverse).reverse

/-! ## Names of files -/

/-- The components of a field, cut at its slashes. -/
def components (ps : List Piece) : List (List Piece) :=
  ps.splitBy (fun a b => match a, b with
    | .char '/' _ _, _ => false
    | _, .char '/' _ _ => false
    | _, _ => true)

/-- The names that a component matches in the directory written `base`. -/
def matchesIn (v : View) (base : String) (p : Pattern) (hidden : Bool) : List String :=
  let dir := v.files.resolve? v.cwd (if base == "" then "." else Octets.toText base)
  match dir with
  | .error _ => []
  | .ok dir =>
    if !v.files.isDirectory dir then []
    else
      let names := (if hidden then [".", ".."] else []) ++ (v.files.list dir).map Octets.ofText
      names.filter fun n => p.fits n.toList && (hidden || n.toList.head? != some '.')

/-- Goes down the components of a field from the written directories `bases`. -/
def descend (v : View) (bases : List String) : List (List Piece) → List String
  | [] => bases
  | c :: rest =>
    let literal := plainText c
    let p := Pattern.ofChars (patternChars c)
    if p.isLiteral then descend v (bases.map (· ++ literal)) rest
    else
      let hidden := literal.toList.head? == some '.'
      let found := bases.flatMap fun b => (matchesIn v b p hidden).map (b ++ ·)
      descend v (if rest.isEmpty then found else
        found.filter fun f => match v.files.resolve? v.cwd (Octets.toText f) with
          | .ok p => v.files.isDirectory p
          | .error _ => false) rest

/-- Whether a path written with octets exists. -/
def exists_ (v : View) (s : String) : Bool :=
  match v.files.find? v.cwd (Octets.toText s) with
  | .ok _ => true
  | .error _ => false

/-- The texts that a field stands for: the files that it matches, or itself. -/
def fieldTexts (v : View) (ps : List Piece) : List String :=
  let special := ps.any fun
    | .char c false _ => c == '*' || c == '?' || c == '['
    | _ => false
  if special && !v.plainNames then
    let found := (descend v [""] (components ps)).filter (exists_ v)
    if found.isEmpty then [plainText ps] else found
  else [plainText ps]

/-- Expands the words of a command into its fields. -/
def fields (v : View) (ws : List Word) : Expanding (List String) := do
  let mut out : List String := []
  for w in ws do
    let ps ← word v w
    let seps := separators (← get).vars
    out := out ++ (split seps ps).flatMap (fieldTexts v)
  return out

def text (v : View) (w : Word) : Expanding String := do
  return plainText (← word v w)

/-- Expands a word that is matched against another. -/
def pattern (v : View) (w : Word) : Expanding Pattern := do
  return Pattern.ofChars (patternChars (← word v w))

def here (v : View) (body : String) : Expanding String := do
  let w ← reading (readQuoted body)
  return plainText (← parts v depth w)

/-! ## Reading input into variables -/

/-- Splits a line for the variables `names`, of which the last takes all that is left. The quoted
characters of `cs` are not split. -/
def splitLine (seps : List Char) (names : Nat) (cs : List PatternChar) : List String :=
  let blank (c : PatternChar) : Bool :=
    !c.quoted && seps.contains c.char && (c.char == ' ' || c.char == '\t' || c.char == '\n')
  let sep (c : PatternChar) : Bool := !c.quoted && seps.contains c.char
  let show_ (cs : List PatternChar) : String := String.ofList (cs.map (·.char))
  let rec go (names : Nat) (cs : List PatternChar) : List String :=
    let cs := cs.dropWhile blank
    match names with
    | 0 => []
    | 1 =>
      let trimmed := (cs.reverse.dropWhile blank).reverse
      -- a single separator behind the last field belongs to no field
      match trimmed.reverse with
      | c :: before =>
        if sep c && !blank c && !(before.any sep) then
          [show_ ((before.dropWhile blank).reverse)]
        else [show_ trimmed]
      | [] => [show_ trimmed]
    | names + 1 =>
      let f := cs.takeWhile fun c => !sep c
      let rest := (cs.drop f.length).dropWhile blank
      let rest := match rest with
        | c :: more => if sep c then more else rest
        | [] => []
      show_ f :: go names rest
  go names cs

end Expand

end SessionHost.Shell
