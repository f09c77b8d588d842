import SessionHost.Shell.Machine

/-!
# Starting a shell

The arguments of a shell are options, then a script with its name and parameters, or the file that
holds one; without any, commands are read from the input.

* `Machine.start` is the shell that arguments ask for.
-/
namespace SessionHost.Shell

inductive ScriptFrom where
  | argument
  | file
  | input
  deriving DecidableEq, Repr

namespace Machine

/-- The letters that may be turned on or off. -/
def optionLetters : List Char := "aefnuxvVEICbimps".toList

def setOption (m : Machine) (on : Bool) (c : Char) : Machine :=
  match c with
  | 'e' => { m with endOnFailure := on }
  | 'u' => { m with unsetIsError := on }
  | 'f' => { m with plainNames := on }
  | 'x' => { m with traced := on }
  | _ => m

/-- Turns an option on or off by its long name. -/
def setLongOption (m : Machine) (on : Bool) (name : String) : Machine :=
  match name with
  | "errexit" => m.setOption on 'e'
  | "nounset" => m.setOption on 'u'
  | "noglob" => m.setOption on 'f'
  | "xtrace" => m.setOption on 'x'
  | _ => m

inductive StartFault where
  | illegalOption (c : Char)
  | missingScript
  deriving DecidableEq, Repr

def StartFault.message : StartFault → String
  | illegalOption c => s!"Illegal option -{String.singleton c}"
  | missingScript => "-c requires an argument"

/-- Reads the letters of one word of options; says whether a script follows as an argument. -/
def letters (m : Machine) (on script : Bool) : List Char → Except StartFault (Machine × Bool)
  | [] => .ok (m, script)
  | c :: rest =>
    if c == 'c' then letters m on true rest
    else if optionLetters.contains c then letters (m.setOption on c) on script rest
    else .error (.illegalOption c)

/-- Reads options up to the first operand. -/
def readOptions (m : Machine) (script : Bool) :
    List String → Except StartFault (Machine × Bool × List String)
  | [] => .ok (m, script, [])
  | "-" :: rest => .ok (m, script, rest)
  | "--" :: rest => .ok (m, script, rest)
  | "-o" :: name :: rest => readOptions (m.setLongOption true name) script rest
  | "+o" :: name :: rest => readOptions (m.setLongOption false name) script rest
  | w :: rest =>
    match w.toList with
    | '-' :: cs =>
      match letters m true script cs with
      | .ok (m, script) => readOptions m script rest
      | .error e => .error e
    | '+' :: cs =>
      match letters m false script cs with
      | .ok (m, script) => readOptions m script rest
      | .error e => .error e
    | _ => .ok (m, script, w :: rest)

/-- The variables that an environment makes. -/
def variablesOf (environment : List (String × String)) : List Variable :=
  environment.map fun e => { name := e.1, value := some e.2, exported := true }

/-- A shell that says why it cannot go on and ends. -/
def failing (m : Machine) (message : String) (status : Nat) : Machine :=
  { m with frames := [.write 2 (Bytes.ofOctets s!"{m.name}: 0: {message}\n".toList), .leave status] }

/-- The shell that was called `name` with these arguments. `read` gives the content of a file. -/
def start (name : String) (args : List String) (environment : List (String × String))
    (read : String → Option String) : Machine :=
  let m : Machine := { name, vars := variablesOf environment }
  match readOptions m false args with
  | .error e => m.failing e.message 2
  | .ok (m, true, []) => m.failing StartFault.missingScript.message 2
  | .ok (m, true, script :: rest) =>
    { m with
      name := rest.headD name
      params := rest.drop 1
      frames := [.source { chars := script.toList }] }
  | .ok (m, false, []) => { m with frames := [.input "" false] }
  | .ok (m, false, file :: rest) =>
    match read file with
    | some script =>
      { m with name := file, params := rest, frames := [.source { chars := script.toList }] }
    | none => m.failing s!"cannot open {file}: No such file" 2

end Machine

end SessionHost.Shell
