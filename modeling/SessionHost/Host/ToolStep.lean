import SessionHost.Host.Load
import SessionHost.Text.Digits
import SessionHost.Tools.FileCommand
import SessionHost.Tools.TerminalCommand

/-!
# A step of a tool

`Host.stepTool` does a little of what a tool has to do and says whether it could do anything. A tool
whose output nobody will ever read gets the signal for that.
-/
namespace SessionHost.Host

open SessionHost.Tools

/-- Puts a process back with a new state of its tool. -/
def goOn (h : Host) (p : Process) (t : ToolState) : Host × Bool :=
  (h.changeProcess p.number fun _ => { p with activity := .tool t }, true)

def receiveAt (h : Host) (p : Process) (descriptor most : Nat) : Host × Received :=
  match p.channels.get? descriptor with
  | some c => h.receive c most
  | none => (h, .refused .badDescriptor)

def deliverAt (h : Host) (p : Process) (descriptor : Nat) (bs : Bytes) : Host × Delivered :=
  match p.channels.get? descriptor with
  | some c => h.deliver c bs
  | none => (h, .refused .badDescriptor)

/-- Whether a descriptor of a process is a terminal. -/
def isTerminalAt (p : Process) (descriptor : Nat) : Bool :=
  match p.channels.get? descriptor with
  | some (.terminal _) => true
  | _ => false

def complaining (tool message : String) (status : Nat) : ToolState :=
  .writing [(2, Octets.toBytes s!"{tool}: {message}\n")] (.finished status)

/-- Where the input comes from that an operand names. -/
def supply (h : Host) (p : Process) (tool operand : String) : Supply :=
  if operand == "-" || operand == "/dev/stdin" then .descriptor 0
  else match h.files.read? p.cwd (Octets.toText operand) with
    | .ok content => .content content
    | .error e => .complaint (match tool with
      | "sort" => s!"sort: cannot read: {operand}: {e.words}\n"
      | "head" | "tail" => s!"{tool}: cannot open '{operand}' for reading: {e.words}\n"
      | _ => s!"{tool}: {operand}: {e.words}\n")

/-- The inputs that operands name; without any, the standard input. -/
def supplies (h : Host) (p : Process) (tool : String) (operands : List String) : List Supply :=
  if operands.isEmpty then [.descriptor 0] else operands.map (h.supply p tool)

/-- Reads a length of time in microseconds: a decimal number and a unit. -/
def duration? (s : String) : Option Nat :=
  let cs := s.toList
  let whole := cs.takeWhile Char.isDigit
  let rest := cs.drop whole.length
  let (fraction, rest) := match rest with
    | '.' :: rest => (rest.takeWhile Char.isDigit, rest.dropWhile Char.isDigit)
    | _ => ([], rest)
  let sixth := (fraction ++ List.replicate 6 '0').take 6
  let micros := Text.natOfDigits whole * 1000000 + Text.natOfDigits sixth
  if whole.isEmpty && fraction.isEmpty then none
  else match rest with
    | [] | ['s'] => some micros
    | ['m'] => some (micros * 60)
    | ['h'] => some (micros * 3600)
    | ['d'] => some (micros * 86400)
    | _ => if s == "infinity" then some 1000000000000000000 else none

/-- A tool that copies its input to its output and into files. -/
def startTee (h : Host) (p : Process) (args : List String) : Host × Bool :=
  let opts := Arguments.read "" args
  let access := if opts.has 'a' then Access.append else Access.write
  let (h, p, sinks, complaints) := opts.operands.foldl (fun (h, p, sinks, complaints) name =>
    match h.openFile p.cwd (Octets.toText name) access with
    | .ok (h, c) =>
      let d := 10 + sinks.length
      (h, { p with channels := p.channels.set d c }, sinks ++ [d], complaints)
    | .error e => (h, p, sinks, complaints ++ s!"tee: {name}: {e.words}\n")) (h, p, [1], "")
  h.goOn p (.writing [(2, Octets.toBytes complaints)]
    (.copy [.descriptor 0] sinks (if complaints == "" then 0 else 1)))

/-- A tool that hands on the front of its input. -/
def startHead (h : Host) (p : Process) (args : List String) : ToolState :=
  let opts := Arguments.read "nc" args
  let bare := String.ofList ((opts.options.filter fun o => o.1.isDigit).map (·.1))
  let (bytes, n) := match opts.value? 'c', opts.value? 'n' with
    | some c, _ => (true, (number? c).getD 10)
    | none, some n => (false, (number? n).getD 10)
    | none, none => (false, (number? bare).getD 10)
  .front bytes n (h.supplies p "head" opts.operands) 0

/-- A tool that turns the modes of the terminal it reads. -/
def startTerminalCommand (h : Host) (p : Process) (args : List String) : Host × Bool :=
  match p.channels.get? 0 with
  | some (.terminal n) =>
    match h.terminal? n with
    | none => h.goOn p (.finished 1)
    | some t =>
      let width := if isTerminalAt p 1 then t.columns else 80
      let a : TerminalCommand.Answer :=
        if args.isEmpty then { terminal := t, out := TerminalCommand.differences t width }
        else TerminalCommand.run width { terminal := t } args
      let h := h.changeTerminal n fun _ => a.terminal
      match a.unknown with
      | none => h.goOn p (.writing [(1, Octets.toBytes a.out)] (.finished 0))
      | some w => h.goOn p (complaining "stty" s!"invalid argument '{w}'" 1)
  | _ => h.goOn p (complaining "stty" "'standard input': Inappropriate ioctl for device" 1)

/-- A tool that shows its environment, or runs a program in a changed one. -/
def startEnv (h : Host) (p : Process) (args : List String) : Host × Bool :=
  let isSetting (w : String) : Bool := w.toList.contains '='
  let settings := args.takeWhile isSetting
  let environment := settings.foldl (fun env w =>
    let name := w.toList.takeWhile fun c => c != '='
    setVariable env (String.ofList name) (String.ofList (w.toList.drop (name.length + 1))))
    p.environment
  match args.drop settings.length with
  | [] =>
    let out := String.join (environment.map fun e => e.1 ++ "=" ++ e.2 ++ "\n")
    h.goOn p (.writing [(1, Octets.toBytes out)] (.finished 0))
  | program :: rest =>
    let searched := ((environment.find? fun e => e.1 == "PATH").map (·.2)).getD
      (":".intercalate Files.searchPath)
    let loaded : Except IoError Activity := do
      let path ← h.locate p.cwd searched program
      h.load p.cwd environment path program rest
    match loaded with
    | .ok activity =>
      let activity := match activity with
        | .shell m => Activity.shell { m with self := p.number }
        | a => a
      (h.changeProcess p.number fun _ => { p with activity, environment }, true)
    | .error e =>
      h.goOn p (complaining "env" s!"'{program}': {e.words}" (if e = .notFound then 127 else 126))

/-- What a tool says to somebody who used it wrongly. -/
def hint (tool : String) : String := s!"\nTry '{tool} --help' for more information."

/-- Starts a tool that is a filter with these arguments. -/
def startFilter (h : Host) (p : Process) (tool : String) (f : Filter) (operands : List String) :
    Host × Bool :=
  let named := if operands.isEmpty then [("", Supply.descriptor 0)]
    else operands.map fun o => (o, h.supply p tool o)
  h.goOn p (.gather f named [] [] 0)

def startTool (h : Host) (p : Process) (tool : String) (args : List String) : Host × Bool :=
  match tool with
  | "cat" =>
    match Filter.ofTool? tool args with
    | some (f, operands) => h.startFilter p tool f operands
    | none => h.goOn p (.copy (h.supplies p tool (Arguments.read "" args).operands) [1] 0)
  | "tee" => h.startTee p args
  | "head" =>
    match Filter.ofTool? tool args with
    | some (f, operands) => h.startFilter p tool f operands
    | none => h.goOn p (h.startHead p args)
  | "yes" =>
    let line := if args.isEmpty then "y" else " ".intercalate args
    let block := (List.replicate (4096 / (line.length + 1) + 1) (line ++ "\n"))
    h.goOn p (.repeating (Octets.toBytes (String.join block)))
  | "sleep" =>
    match args.mapM duration? with
    | some (d :: ds) => h.goOn p (.sleeping (ds.foldl (· + ·) (h.now + d)))
    | some [] => h.goOn p (complaining tool ("missing operand" ++ hint tool) 1)
    | none =>
      let wrong := (args.find? fun a => (duration? a).isNone).getD ""
      h.goOn p (complaining tool (s!"invalid time interval '{wrong}'" ++ hint tool) 1)
  | "stty" => h.startTerminalCommand p args
  | "env" => h.startEnv p args
  | _ =>
    match FileCommand.run? h.files p.cwd (isTerminalAt p) tool args with
    | some a =>
      { h with files := a.files }.goOn p
        (.writing [(1, Octets.toBytes a.out), (2, Octets.toBytes a.complaints)] (.finished a.status))
    | none =>
      match Filter.ofTool? tool args with
      | some (f, operands) => h.startFilter p tool f operands
      | none =>
        if tool == "cut" then
          h.goOn p (complaining tool
            ("you must specify a list of bytes, characters, or fields" ++ hint tool) 1)
        else if tool == "grep" then
          let usage := "Usage: grep [OPTION]... PATTERNS [FILE]..." ++ hint tool ++ "\n"
          h.goOn p (.writing [(2, Octets.toBytes usage)] (.finished 2))
        else h.goOn p (complaining tool ("missing operand" ++ hint tool) 1)

/-- The front of some bytes: so many bytes, or so many lines. -/
def frontOf (bytes : Bool) (left : Nat) (bs : Bytes) : Bytes × Nat :=
  if bytes then (bs.take left, left - bs.length)
  else go left [] bs
where
  /-- Takes lines; `done` is kept in reverse. -/
  go (left : Nat) (done : Bytes) : Bytes → Bytes × Nat
    | [] => (done.reverse, left)
    | b :: rest =>
      if left = 0 then (done.reverse, 0)
      else go (if b == 10 then left - 1 else left) (b :: done) rest

/-- Does a little of what a tool has to do. -/
def stepTool (h : Host) (p : Process) : ToolState → Host × Bool
  | .start tool args => h.startTool p tool args
  | .finished status => (h.finish p.number (.exited (status % 256)), true)
  | .sleeping time => if time ≤ h.now then h.goOn p (.finished 0) else (h, false)
  | .repeating text => h.goOn p (.writing [(1, text)] (.repeating text))
  | .writing [] next => h.goOn p next
  | .writing ((d, bs) :: rest) next =>
    if bs.isEmpty then h.goOn p (.writing rest next)
    else match h.deliverAt p d bs with
      | (h, .took n) => h.goOn p (.writing ((d, bs.drop n) :: rest) next)
      | (_, .full) => (h, false)
      | (_, .broken) =>
        let h := h.signal p.number Signal.brokenPipe
        match h.process? p.number with
        | some q => if q.isAlive then h.goOn q (.finished 1) else (h, true)
        | none => (h, true)
      | (_, .refused _) => h.goOn p (.finished 1)
  | .copy [] _ status => h.goOn p (.finished status)
  | .copy (.content bs :: rest) sinks status =>
    h.goOn p (.writing (sinks.map fun d => (d, bs)) (.copy rest sinks status))
  | .copy (.complaint s :: rest) sinks _ =>
    h.goOn p (.writing [(2, Octets.toBytes s)] (.copy rest sinks 1))
  | .copy (.descriptor d :: rest) sinks status =>
    match h.receiveAt p d 65536 with
    | (h, .bytes bs) =>
      h.goOn p (.writing (sinks.map fun s => (s, bs)) (.copy (.descriptor d :: rest) sinks status))
    | (h, .endOfInput) => h.goOn p (.copy rest sinks status)
    | (_, .nothing) => (h, false)
    | (h, .refused e) =>
      -- what cannot be read cannot be closed at the end either
      let closing := Supply.complaint s!"cat: closing standard input: {e.words}\n"
      h.goOn p (.copy (.complaint s!"cat: -: {e.words}\n" :: rest ++ [closing]) sinks 1)
  | .front _ _ [] status => h.goOn p (.finished status)
  | .front bytes left (.content bs :: rest) status =>
    let (out, left) := frontOf bytes left bs
    h.goOn p (.writing [(1, out)] (.front bytes left rest status))
  | .front bytes left (.complaint s :: rest) _ =>
    h.goOn p (.writing [(2, Octets.toBytes s)] (.front bytes left rest 1))
  | .front bytes left (.descriptor d :: rest) status =>
    if left = 0 then h.goOn p (.front bytes left rest status)
    else match h.receiveAt p d (if bytes then min left 8192 else 8192) with
      | (h, .bytes bs) =>
        let (out, left) := frontOf bytes left bs
        h.goOn p (.writing [(1, out)] (.front bytes left (.descriptor d :: rest) status))
      | (h, .endOfInput) => h.goOn p (.front bytes left rest status)
      | (_, .nothing) => (h, false)
      | (h, .refused _) => h.goOn p (.front bytes left rest 1)
  | .gather f [] _ got status =>
    let (out, own) := f.run (got.reverse.map fun g => (g.1, Octets.ofBytes g.2))
    h.goOn p (.writing [(1, Octets.toBytes out)] (.finished (max own status)))
  | .gather f ((name, .content bs) :: rest) _ got status =>
    h.goOn p (.gather f rest [] ((name, bs) :: got) status)
  | .gather f ((_, .complaint s) :: rest) _ got _ =>
    let status := match f with
      | .sort .. | .select .. => 2
      | _ => 1
    h.goOn p (.writing [(2, Octets.toBytes s)] (.gather f rest [] got status))
  | .gather f ((name, .descriptor d) :: rest) pieces got status =>
    let done := (name, pieces.reverse.flatten) :: got
    match h.receiveAt p d 65536 with
    | (h, .bytes bs) =>
      h.goOn p (.gather f ((name, .descriptor d) :: rest) (bs :: pieces) got status)
    | (h, .endOfInput) => h.goOn p (.gather f rest [] done status)
    | (_, .nothing) => (h, false)
    | (h, .refused _) => h.goOn p (.gather f rest [] done 1)

end SessionHost.Host
