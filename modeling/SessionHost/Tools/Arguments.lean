import SessionHost.Text.Digits

/-!
# Arguments of tools

A tool takes options of one letter, some of which have a value, and operands. Options may stand
together behind one dash and may stand among the operands; two dashes end them.
-/
namespace SessionHost.Tools

structure Arguments where
  options : List (Char × String) := []
  operands : List String := []
  deriving DecidableEq, Repr

namespace Arguments

/-- Reads the letters of one word. A letter in `valued` takes the rest of the word as its value, or
the next word; gives the options and how many further words were used. -/
def letters (valued : List Char) (next : List String) : List Char → List (Char × String) × Nat
  | [] => ([], 0)
  | c :: rest =>
    if valued.contains c then
      if rest.isEmpty then ([(c, next.headD "")], 1) else ([(c, String.ofList rest)], 0)
    else
      let (more, used) := letters valued next rest
      ((c, "") :: more, used)

/-- Reads arguments; `skip` words have been used as values. -/
def readFrom (valued : List Char) (skip : Nat) (a : Arguments) : List String → Arguments
  | [] => a
  | w :: rest =>
    match skip with
    | skip + 1 => readFrom valued skip a rest
    | 0 =>
      match w.toList with
      | ['-', '-'] => { a with operands := a.operands ++ rest }
      | '-' :: c :: cs =>
        let (options, used) := letters valued rest (c :: cs)
        readFrom valued used { a with options := a.options ++ options } rest
      | _ => readFrom valued 0 { a with operands := a.operands ++ [w] } rest

def read (valued : String) (args : List String) : Arguments := readFrom valued.toList 0 {} args

def has (a : Arguments) (c : Char) : Bool := a.options.any fun o => o.1 == c

/-- The last value of an option. -/
def value? (a : Arguments) (c : Char) : Option String :=
  (a.options.reverse.find? fun o => o.1 == c).map (·.2)

end Arguments

def number? (s : String) : Option Nat :=
  let cs := s.toList
  if !cs.isEmpty && cs.all Char.isDigit then
    some (Text.natOfDigits cs)
  else none

end SessionHost.Tools
