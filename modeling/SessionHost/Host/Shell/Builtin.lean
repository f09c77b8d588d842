import SessionHost.Host.Shell.Turn

/-!
# Commands of the shell itself

Each command changes the turn: it sets a status, puts frames on the stack for what takes time, or takes
frames away for what leaves a loop, a function or the shell. Commands of which an error ends the shell
are the special ones.

* `ShellTurn.builtin?` runs a command, if it is one of these.
-/
namespace SessionHost.Host.ShellTurn

open SessionHost.Shell

/-- Commands found before functions, of which an error ends the shell. -/
def specialBuiltins : List String :=
  [":", ".", "break", "continue", "eval", "exec", "exit", "export", "readonly", "return", "set",
   "shift", "times", "trap", "unset"]

/-- The other commands of the shell itself. -/
def otherBuiltins : List String :=
  ["[", "alias", "bg", "cd", "command", "echo", "false", "fg", "getopts", "hash", "jobs", "kill",
   "local", "printf", "pwd", "read", "test", "true", "type", "ulimit", "umask", "unalias", "wait"]

/-- Whether the shell runs a command itself. -/
def isBuiltin (name : String) : Bool :=
  specialBuiltins.contains name || otherBuiltins.contains name

def quote (s : String) : String := "'" ++ "'\"'\"'".intercalate (s.splitOn "'") ++ "'"

/-! ## Leaving loops and functions -/

/-- Gives back what a frame keeps that is taken away. -/
def undo (t : ShellTurn) : Frame → ShellTurn
  | .restore channels => t.setChannels channels
  | .giveBack vars => t.giveBack vars
  | .call params locals =>
    let t := t.giveBack locals
    { t with machine := { t.machine with params } }
  | _ => t

/-- Takes frames away up to the `n`-th loop; that loop goes on or is left. -/
def leaveLoops (t : ShellTurn) (goesOn : Bool) (n : Nat) : List Frame → ShellTurn
  | [] => { t with machine := { t.machine with frames := [] } }
  | f :: rest =>
    let atLoop (again : Frame) : ShellTurn :=
      if n ≤ 1 then
        { t with machine := { t.machine with
          frames := if goesOn then again :: rest else rest, status := 0 } }
      else leaveLoops t goesOn (n - 1) rest
    match f with
    | .loop until_ condition body _ => atLoop (.loop until_ condition body .body)
    | .each .. => atLoop f
    | .call .. => { t with machine := { t.machine with frames := f :: rest } }
    | f => leaveLoops (t.undo f) goesOn n rest

/-- Whether a loop is being run in the current function. -/
def insideLoop : List Frame → Bool
  | [] => false
  | .loop .. :: _ => true
  | .each .. :: _ => true
  | .call .. :: _ => false
  | _ :: rest => insideLoop rest

/-- Takes frames away up to the end of the function; without one, the shell ends. -/
def leaveFunction (t : ShellTurn) (status : Nat) : List Frame → ShellTurn
  | [] => t.exit status
  | .call params locals :: rest =>
    let t := t.undo (.call params locals)
    { t with machine := { t.machine with frames := rest, status } }
  | f :: rest => leaveFunction (t.undo f) status rest

/-- Reads the number of a command that takes one. -/
def number? (s : String) : Option Nat := Tools.number? s

/-! ## Variables -/

def nameValue (w : String) : String × Option String :=
  let name := w.toList.takeWhile fun c => c != '='
  if name.length < w.length then
    (String.ofList name, some (String.ofList (w.toList.drop (name.length + 1))))
  else (w, none)

/-- Marks variables, giving them values where some are written. -/
def mark (t : ShellTurn) (f : Variable → Variable) : List String → ShellTurn
  | [] => t.setStatus 0
  | w :: rest =>
    let (name, value) := nameValue w
    if !isName name.toList then t.fail s!"export: {name}: bad variable name"
    else
      let t := match value with
        | some v => t.assign name v
        | none => t
      let vs := t.machine.vars
      let vs := if vs.any fun v => v.name == name then vs else vs ++ [{ name, value := none }]
      let vs := vs.map fun v => if v.name == name then f v else v
      mark { t with machine := { t.machine with vars := vs } } f rest

/-- Adds a variable to those that the end of the function gives back. -/
def keepLocal (saved : String × Option Variable) : List Frame → List Frame
  | [] => []
  | .call params locals :: rest =>
    if locals.any fun l => l.1 == saved.1 then .call params locals :: rest
    else .call params (saved :: locals) :: rest
  | f :: rest => f :: keepLocal saved rest

/-- Makes variables local to the function. -/
def makeLocal (t : ShellTurn) : List String → ShellTurn
  | [] => t.setStatus 0
  | w :: rest =>
    let (name, value) := nameValue w
    let saved := (name, t.machine.vars.find? fun v => v.name == name)
    let t := { t with machine := { t.machine with frames := keepLocal saved t.machine.frames } }
    makeLocal (match value with
      | some v => t.assign name v
      | none => t) rest

def unset (t : ShellTurn) (functions : Bool) (names : List String) : ShellTurn :=
  let m := t.machine
  let frozen := m.vars.find? fun v => v.readonly_ && names.contains v.name
  match functions, frozen with
  | false, some v => t.fail s!"unset: {v.name}: is read only"
  | false, none =>
    { t with machine := { m with
      vars := m.vars.filter (fun v => !names.contains v.name), status := 0 } }
  | true, _ =>
    { t with machine := { m with
      functions := m.functions.filter (fun f => !names.contains f.1), status := 0 } }

def listVariables (m : Machine) (front : String) (chosen : Variable → Bool) : String :=
  let vs := (m.vars.filter chosen).mergeSort fun a b => decide (a.name ≤ b.name)
  String.join (vs.map fun v => front ++ v.name ++ (match v.value with
    | some s => "=" ++ quote s
    | none => "") ++ "\n")

def setCommand (t : ShellTurn) (args : List String) : ShellTurn :=
  match args with
  | [] => (t.setStatus 0).say 1 (listVariables t.machine "" (·.value.isSome))
  | _ =>
    match Machine.readOptions t.machine false args with
    | .error e => t.fail ("set: " ++ e.message)
    | .ok (m, _, rest) =>
      let m := if rest.isEmpty && args.getLast? != some "--" then m else { m with params := rest }
      { t with machine := { m with status := 0 } }

/-! ## Directories -/

def changeDirectory (t : ShellTurn) (args : List String) : ShellTurn :=
  let args := args.filter fun a => a != "-L" && a != "-P" && a != "--"
  let back := args.head? == some "-"
  let target := match args with
    | [] => (t.machine.get? "HOME").getD ""
    | a :: _ => if a == "-" then (t.machine.get? "OLDPWD").getD "" else a
  let target := if target == "" then "." else target
  match t.host.files.find? t.process.cwd (Octets.toText target) with
  | .ok (p, .directory) =>
    let before := t.machine.get? "PWD"
    let t := { t with process := { t.process with cwd := p } }
    let t := t.assign "OLDPWD" (before.getD "")
    let now := Octets.ofText (Path.text p)
    let t := (t.assign "PWD" now).setStatus 0
    if back then t.say 1 (now ++ "\n") else t
  | _ => t.complain s!"cd: can't cd to {target}" 2

/-! ## Signals -/

/-- The name of a signal in a list of handlers. -/
def signalName (s : Signal) : String :=
  if s = 0 then "EXIT" else ((Signal.names.find? fun n => n.2 == s).map (·.1)).getD (toString s)

/-- Sets what is run when signals come. A handler that is empty makes the shell pass them over. -/
def trap (t : ShellTurn) (args : List String) : ShellTurn :=
  let args := match args with
    | "--" :: rest => rest
    | _ => args
  match args with
  | [] =>
    let out := t.machine.handlers.map fun h => s!"trap -- {quote h.2} {signalName h.1}\n"
    (t.setStatus 0).say 1 (String.join out)
  | action :: names =>
    let (action, names) : Option String × List String :=
      if names.isEmpty then (none, [action])
      else if action == "-" || (number? action).isSome then
        (none, if action == "-" then names else action :: names)
      else (some action, names)
    let known := names.takeWhile fun n => (Signal.number? n).isSome
    let t := known.foldl (fun t name =>
      match Signal.number? name with
      | none => t
      | some s =>
        let others := t.machine.handlers.filter fun h => h.1 != s
        let handlers := match action with
          | some text => others ++ [(s, text)]
          | none => others
        let ignored := t.process.ignored.filter fun i => i != s
        let ignored := if action == some "" && !Signal.isForced s && s != 0 then s :: ignored
          else ignored
        { t with
          machine := { t.machine with handlers }
          process := { t.process with ignored } }) (t.setStatus 0)
    match names.drop known.length with
    | [] => t
    | wrong :: _ => (t.setStatus 1).say 2 s!"trap: {wrong}: bad trap\n"

/-- Sends a signal to a process, or to a group if the number is negative. The shell itself may end.
The server is told at once, and does what it is asked to in its own time. -/
def sendTo (t : ShellTurn) (s : Signal) (target : String) : ShellTurn :=
  let (group, digits) := match target.toList with
    | '-' :: ds => (true, String.ofList ds)
    | ds => (false, String.ofList ds)
  match number? digits with
  | none => t.complain s!"kill: Illegal number: {target}" 2
  | some n =>
    -- the host has to know of handlers and descriptors that this turn has changed
    let self := t.process.number
    let h := t.host.changeProcess self fun _ => { t.process with activity := .shell t.machine }
    let toGroup := group || n = 0
    let n := if n = 0 then t.process.group else n
    let known := if toGroup then !(h.members n).isEmpty else n = server || (h.process? n).isSome
    if !known then t.complain "kill: No such process\n" 1
    else
      let h := if toGroup then h.signalGroup n s
        else if n = server then h.askServer s
        else h.signal n s
      match h.process? self with
      | some p =>
        match p.status with
        | some status => { t with host := h, outcome := .ended status }
        | none => { t with host := h, process := p }
      | none => { t with host := h, outcome := .ended (.signaled s) }

def killCommand (t : ShellTurn) (args : List String) : ShellTurn :=
  let send (s : Signal) (targets : List String) : ShellTurn :=
    targets.foldl (fun t target => match t.outcome with
      | .ran => t.sendTo s target
      | _ => t) (t.setStatus 0)
  let sendAny (s : Signal) (targets : List String) : ShellTurn :=
    if targets.isEmpty then
      t.complain ("kill: Usage: kill [-s sigspec | -signum | -sigspec] [pid | job]... or\n"
        ++ "kill -l [exitstatus]") 2
    else send s targets
  let named (name : String) (targets : List String) : ShellTurn :=
    match Signal.number? name with
    | some s => sendAny s targets
    | none => t.complain s!"kill: invalid signal number or name: {name}" 2
  match args with
  | [] => sendAny Signal.terminate []
  | "-l" :: n :: _ =>
    match number? n with
    | none => t.complain s!"kill: Illegal number: {n}" 2
    | some s =>
      let s := if s > 128 then s - 128 else s
      if 0 < s ∧ s < 65 then (t.setStatus 0).say 1 (signalName s ++ "\n")
      else t.complain s!"kill: invalid signal number or exit status: {n}" 2
  | ["-l"] => (t.setStatus 0).say 1 (String.join (Signal.names.map fun n => n.1 ++ "\n"))
  | first :: targets =>
    match first.toList with
    | '-' :: cs =>
      match Signal.number? (String.ofList cs), cs with
      | some s, _ => sendAny s targets
      | none, ['-'] => sendAny Signal.terminate targets
      | none, ['s'] =>
        match targets with
        | name :: targets => named name targets
        | [] => t.complain "kill: No arg for -s option" 2
      | none, 's' :: name => named (String.ofList name) targets
      | none, c :: _ => t.complain ("kill: Illegal option -" ++ String.singleton c) 2
      | none, [] => sendAny Signal.terminate args
    | _ => sendAny Signal.terminate args

/-! ## The commands -/

/-- Runs another program in the place of the shell. -/
def exec (t : ShellTurn) (args : List String) : ShellTurn :=
  match args with
  | [] => t.setStatus 0
  | name :: rest =>
    let environment := t.machine.environment
    let searched := (t.machine.get? "PATH").getD (":".intercalate Files.searchPath)
    let loaded : Except IoError Activity := do
      let path ← t.host.locate t.process.cwd searched name
      match t.host.load t.process.cwd environment path name rest with
      | .error .execFormat => return t.host.shellStart t.process.cwd environment path (path :: rest)
      | r => r
    match loaded with
    | .error .notFound | .error .notDirectory => t.failWith s!"exec: {name}: not found" 127
    | .error e => t.failWith s!"exec: {name}: {e.words}" 126
    | .ok a =>
      let p := { t.process with
        activity := begin_ t.process.number t.process.parent a
        environment
        channels := t.inherited
        caught := [] }
      { t with host := t.host.changeProcess p.number (fun _ => p), outcome := .settled, process := p }

def describe (t : ShellTurn) (brief : Bool) (name : String) : ShellTurn :=
  let searched := (t.machine.get? "PATH").getD (":".intercalate Files.searchPath)
  let found : Option (String × String) :=
    if t.machine.functions.any fun f => f.1 == name then some (name, "is a shell function")
    else if specialBuiltins.contains name then some (name, "is a special shell builtin")
    else if isBuiltin name then some (name, "is a shell builtin")
    else match t.host.locate t.process.cwd searched name with
      | .ok path => some (path, s!"is {path}")
      | .error _ => none
  match found with
  | some (place, what) =>
    (t.setStatus 0).say 1 (if brief then place ++ "\n" else s!"{name} {what}\n")
  | none =>
    let t := t.setStatus 127
    if brief then t else t.say 1 s!"{name}: not found\n"

def readBuiltin (t : ShellTurn) (args : List String) : ShellTurn :=
  let a := Tools.Arguments.read "p" args
  match a.operands with
  | [] => t.complain "read: arg count" 2
  | names =>
    let t := t.push [.readLine (a.has 'r') names [] false]
    match a.value? 'p' with
    | some prompt => if isTerminalAt t.process 0 then t.say 2 prompt else t
    | none => t

def waitCommand (t : ShellTurn) (args : List String) : ShellTurn :=
  match args with
  | [] => t.push [.waitFor t.machine.children none]
  | _ =>
    let numbers := args.filterMap number?
    match numbers.getLast? with
    | some last =>
      if (t.host.process? last).any fun p => p.parent == t.process.number then
        t.push [.waitFor numbers (some last)]
      else t.setStatus 127
    | none => t.setStatus 127

/-- Lets a command answer for what is about to be written to the standard output. -/
def blame (name : String) : List Frame → List Frame
  | .write 1 bs "" :: rest => .write 1 bs name :: blame name rest
  | .write n bs blamed :: rest => .write n bs blamed :: blame name rest
  | frames => frames

/-- Does what a command of the shell itself does; `none` if there is none of that name. -/
def perform? (t : ShellTurn) (name : String) (args : List String) : Option ShellTurn :=
  let count : Nat := (args.head?.bind number?).getD 1
  let status : Nat := (args.head?.bind number?).getD t.machine.status
  let badNumber : Bool := match args with
    | a :: _ => (number? a).isNone
    | [] => false
  let first := args.headD ""
  match name with
  | ":" | "true" | "times" | "hash" | "alias" | "unalias" | "jobs" | "fg" | "bg" =>
    some (t.setStatus 0)
  | "false" => some (t.setStatus 1)
  | "exit" =>
    some (if badNumber then t.fail s!"exit: Illegal number: {first}" else t.exit status)
  | "return" =>
    some (if badNumber then t.fail s!"return: Illegal number: {first}"
      else t.leaveFunction status t.machine.frames)
  | "break" =>
    some (if insideLoop t.machine.frames then t.leaveLoops false count t.machine.frames
      else t.setStatus 0)
  | "continue" =>
    some (if insideLoop t.machine.frames then t.leaveLoops true count t.machine.frames
      else t.setStatus 0)
  | "eval" =>
    let script := " ".intercalate args
    some ((t.setStatus 0).push [.source { chars := script.toList, line := t.machine.line }])
  | "." =>
    match args with
    | [] => some (t.setStatus 0)
    | file :: _ =>
      let path := (t.host.locate t.process.cwd ((t.machine.get? "PATH").getD "") file).toOption.getD file
      match t.host.files.read? t.process.cwd (Octets.toText path) with
      | .ok content =>
        some ((t.setStatus 0).push [.source { chars := Bytes.toOctets content }])
      | .error _ => some (t.fail s!".: cannot open {file}: No such file")
  | "exec" => some (t.exec args)
  | "cd" => some (t.changeDirectory args)
  | "pwd" => some ((t.setStatus 0).say 1 (Octets.ofText (Path.text t.process.cwd) ++ "\n"))
  | "echo" => some ((t.setStatus 0).say 1 (Format.echo args))
  | "printf" =>
    match if args.head? == some "--" then args.drop 1 else args with
    | [] => some (t.complain "printf: usage: printf format [arg ...]" 2)
    | format :: rest =>
      let (out, complaints, status) := Format.printf format rest
      let text := complaints.map fun c => t.machine.complaint s!"printf: {c}"
      -- what is said last is written first
      some (((t.setStatus status).say 1 out).say 2 (String.join text))
  | "test" | "[" =>
    let closed := name != "[" || args.getLast? == some "]"
    let args := if name == "[" then args.dropLast else args
    if !closed then some (t.complain "[: missing ]" 2)
    else
      let surroundings : Condition.Surroundings :=
        ⟨t.host.files, t.process.cwd, isTerminalAt t.process⟩
      match Condition.holds surroundings args with
      | .ok r => some (t.setStatus (if r then 0 else 1))
      | .error e => some (t.complain s!"{name}: {e}" 2)
  | "read" => some (t.readBuiltin args)
  | "set" => some (t.setCommand args)
  | "shift" =>
    if count > t.machine.params.length then some (t.fail "shift: can't shift that many")
    else some { t with machine := { t.machine with
      params := t.machine.params.drop count, status := 0 } }
  | "unset" =>
    let a := Tools.Arguments.read "" args
    some (t.unset (a.has 'f') a.operands)
  | "export" | "readonly" =>
    let exports := name == "export"
    let args := args.filter fun a => a != "-p"
    if args.isEmpty then
      some ((t.setStatus 0).say 1 (listVariables t.machine (name ++ " ")
        fun v => if exports then v.exported else v.readonly_))
    else some (t.mark (fun v => if exports then { v with exported := true }
      else { v with readonly_ := true }) args)
  | "local" => some (t.makeLocal args)
  | "trap" => some (t.trap args)
  | "kill" => some (t.killCommand args)
  | "wait" => some (t.waitCommand args)
  | "umask" => some (if args.isEmpty then (t.setStatus 0).say 1 "0022\n" else t.setStatus 0)
  | "ulimit" =>
    let a := Tools.Arguments.read "" args
    some (if a.operands.isEmpty then (t.setStatus 0).say 1 (if a.has 'c' then "0\n" else "unlimited\n")
      else t.setStatus 0)
  | "type" => some (args.reverse.foldl (fun t a => t.describe false a) t)
  | "command" =>
    match args with
    | "-v" :: rest => some (rest.reverse.foldl (fun t a => t.describe true a) t)
    | "-V" :: rest => some (rest.reverse.foldl (fun t a => t.describe false a) t)
    | _ => none
  | _ => none

/-- Runs a command of the shell itself; `none` if there is none of that name. -/
def builtin? (t : ShellTurn) (name : String) (args : List String) : Option ShellTurn :=
  (t.perform? name args).map fun t =>
    { t with machine := { t.machine with frames := blame name t.machine.frames } }

end SessionHost.Host.ShellTurn
