/-!
# The command language

A script is made of words and commands. A word is a sequence of parts, some of which stand for text
that is known only when the word is expanded. The text of an operand, of an arithmetic expression or
of an inner script is kept as it is written, and is read when it is needed.

All text is in octets: each character stands for the byte of its number.
-/
namespace SessionHost.Shell

inductive ParamOp where
  | value
  | length
  /-- Operand if the parameter is unset, or also if it is empty. -/
  | orElse (emptyToo : Bool)
  | assign (emptyToo : Bool)
  | demand (emptyToo : Bool)
  | whenSet (emptyToo : Bool)
  /-- The value without the shortest or longest match of the operand at its end. -/
  | dropSuffix (longest : Bool)
  | dropFront (longest : Bool)
  deriving DecidableEq, Repr

/-- A part of a word. `quoted` parts are neither split nor matched against files. -/
inductive Part where
  | plain (s : String)
  | quoted (s : String)
  | param (name : String) (op : ParamOp) (operand : String) (quoted : Bool)
  | script (s : String) (quoted : Bool)
  | arith (s : String) (quoted : Bool)
  deriving DecidableEq, Repr, Inhabited

abbrev Word := List Part

inductive RedirTarget where
  | read (file : Word)
  | write (file : Word)
  | append (file : Word)
  | readWrite (file : Word)
  /-- The descriptor of another, or none. -/
  | same (descriptor : Word)
  /-- Text of the script itself, expanded or not. -/
  | here (body : String) (expand : Bool)
  deriving DecidableEq, Repr

structure Redir where
  descriptor : Nat
  target : RedirTarget
  deriving DecidableEq, Repr

/-- A simple command: assignments, words and redirections, and the line that it starts on. -/
structure Simple where
  assigns : List (String × Word) := []
  words : List Word := []
  redirs : List Redir := []
  line : Nat := 1
  deriving DecidableEq, Repr

inductive Command where
  | nothing
  | simple (s : Simple)
  | pipeline (stages : List Command)
  | negated (c : Command)
  | both (first second : Command)
  | either (first second : Command)
  | seq (first second : Command)
  | background (c : Command)
  | subshell (c : Command)
  | redirected (c : Command) (redirs : List Redir)
  | branch (condition body other : Command)
  | loop (until_ : Bool) (condition body : Command)
  | each (name : String) (words : Option (List Word)) (body : Command)
  | choice (subject : Word) (arms : List (List Word × Command))
  | define (name : String) (body : Command)
  deriving Repr, Inhabited

end SessionHost.Shell
