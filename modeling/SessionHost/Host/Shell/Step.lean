import SessionHost.Host.Shell.Builtin

/-!
# A step of a shell

A step takes the uppermost frame and does a little of it. Words are expanded first; an inner script
among them is run by a child whose output is read to its end, and then the words are expanded once
more with that output at hand.

* `Host.stepShell` is the step of a process that runs a shell.
-/
namespace SessionHost.Host

open SessionHost.Shell

namespace ShellTurn

/-! ## Expanding -/

def resolve (v : View) (r : Redir) : Expanding (Nat × Resolved) := do
  match r.target with
  | .read w => return (r.descriptor, .opens (← Expand.text v w) .read)
  | .write w => return (r.descriptor, .opens (← Expand.text v w) .write)
  | .append w => return (r.descriptor, .opens (← Expand.text v w) .append)
  | .readWrite w => return (r.descriptor, .opens (← Expand.text v w) .readWrite)
  | .same w =>
    let s ← Expand.text v w
    if s == "-" then return (r.descriptor, .same none)
    else match number? s with
      | some n => return (r.descriptor, .same (some n))
      | none => Expand.refuse "Bad fd number"
  | .here body expand =>
    let text ← if expand then Expand.here v body else pure body
    return (r.descriptor, .here text)

def expandAssign (v : View) (a : String × Word) : Expanding (String × String) := do
  return (a.1, ← Expand.text v a.2)

structure Expanded where
  fields : List String
  assigns : List (String × String)
  redirs : List (Nat × Resolved)

/-- Expands a simple command: its words first, then its redirections, then its assignments. -/
def expandSimple (v : View) (s : Simple) : Expanding Expanded := do
  let fields ← Expand.fields v s.words
  let redirs ← s.redirs.mapM (resolve v)
  let assigns ← s.assigns.mapM (expandAssign v)
  return { fields, assigns, redirs }

/-- The first arm of which a pattern fits. -/
def chooseArm (v : View) (subject : String) : List (List Word × Command) → Expanding (Option Command)
  | [] => return none
  | (patterns, body) :: rest => do
    for w in patterns do
      let p ← Expand.pattern v w
      if p.fits subject.toList then return some body
    chooseArm v subject rest

/-- Starts an inner script, and waits for its output. -/
def substitute (t : ShellTurn) (script : String) : ShellTurn :=
  let (host, pipe) := t.host.addPipe {}
  let t := { t with host }
  let nested := (t.machine.frames.filter fun
    | .collect .. => true
    | _ => false).length
  let descriptor := privateDescriptors + nested
  let frames := [Frame.source { chars := script.toList, line := t.machine.line }]
  let (t, child) := t.fork frames (t.inherited.set 1 (.pipeOut pipe))
  (t.setChannels (t.process.channels.set descriptor (.pipeIn pipe))).push
    [.collect descriptor child []]

/-- Goes on with what was expanded; an inner script that is needed is run before. -/
def expanding {α : Type} (t : ShellTurn) (outputs : List String) (e : View → Expanding α)
    (goOn : ShellTurn → α → ShellTurn) : ShellTurn :=
  let v := t.machine.view t.host.files t.process.cwd
  match e v { vars := t.machine.vars, outputs } with
  | .ok (a, left) => goOn { t with machine := { t.machine with vars := left.vars } } a
  | .error (.needs script) => t.substitute script
  | .error (.refused message) => t.fail message

/-! ## Simple commands -/

/-- Waits for a child of which the status is the command's. -/
def awaiting (t : ShellTurn) (children : List Nat) (last : Nat) : ShellTurn :=
  t.push [.await children last 0]

/-- Sets variables for one command only; gives the frame that gives them back. -/
def lend (t : ShellTurn) (exported : Bool) (assigns : List (String × String)) : ShellTurn × List Frame :=
  if assigns.isEmpty then (t, [])
  else
    let names := assigns.map (·.1)
    let saved := t.saved names
    let t := assigns.foldl (fun t a => t.assign a.1 a.2) t
    let vars := t.machine.vars.map fun v =>
      if exported && names.contains v.name then { v with exported := true } else v
    ({ t with machine := { t.machine with vars } }, [.giveBack saved])

/-- The frame that ends the shell after a failure, if failures are to end it. -/
def checks (t : ShellTurn) : List Frame := if t.machine.endOnFailure then [.checked] else []

/-- Runs a function or a command of the shell itself, with redirections and variables of its own. -/
def inShell (t : ShellTurn) (special : Bool) (e : Expanded) (keepsChannels : Bool)
    (run : ShellTurn → ShellTurn) : ShellTurn :=
  let (t, frames) := if special then
      (e.assigns.foldl (fun t a => t.assign a.1 a.2) t, [])
    else t.lend true e.assigns
  let before := t.process.channels
  let t := t.push frames
  if e.redirs.isEmpty then run t
  else match t.redirected e.redirs with
    | .error message => if special then t.fail message else t.complain message 2
    | .ok t => run (if keepsChannels then t else t.push [.restore before])

/-- Starts a child that runs a program, and waits for it. -/
def external (t : ShellTurn) (e : Expanded) (name : String) (args : List String) : ShellTurn :=
  match redirect t.host t.process.cwd t.inherited e.redirs with
  | .error message => t.complain message 2
  | .ok (host, channels) =>
    let environment := e.assigns.foldl (fun env a => setVariable env a.1 a.2) t.machine.environment
    let (t, child) := { t with host }.launch channels environment name args
    t.awaiting [child] child

/-- Runs a simple command whose words have been expanded. `substituted` says that inner scripts were
run for it, the last of which gives the status if nothing else does. -/
def runExpanded (t : ShellTurn) (s : Simple) (substituted : Bool) (e : Expanded) : ShellTurn :=
  let t := { t with machine := { t.machine with line := s.line } }.replace t.checks
  let trace (u : ShellTurn) : ShellTurn :=
    if t.machine.traced then
      let shown := (e.assigns.map fun a => a.1 ++ "=" ++ a.2) ++ e.fields
      u.say 2 ("+ " ++ " ".intercalate shown ++ "\n")
    else u
  -- `command` runs what it names, but no function
  let (plain, fields) := match e.fields with
    | "command" :: name :: rest =>
      if name == "-v" || name == "-V" then (false, e.fields) else (true, name :: rest)
    | fs => (false, fs)
  trace <| match fields with
  | [] =>
    let t := t.setStatus (if substituted then t.machine.inner else 0)
    let t := e.assigns.foldl (fun t a => t.assign a.1 a.2) t
    match redirect t.host t.process.cwd t.process.channels e.redirs with
    | .error message => t.complain message 2
    | .ok (host, _) => { t with host }
  | name :: args =>
    let function? := if plain then none
      else (t.machine.functions.find? fun f => f.1 == name).map (·.2)
    if specialBuiltins.contains name then
      t.inShell (!plain) e (name == "exec") fun t => (t.builtin? name args).getD t
    else match function? with
      | some body =>
        t.inShell false e false fun t =>
          let before := t.machine.params
          let t := t.push [.run body, .call before []]
          { t with machine := { t.machine with params := args } }
      | none =>
        if isBuiltin name then
          t.inShell false e false fun t => (t.builtin? name args).getD (t.setStatus 0)
        else t.external e name args

/-! ## Commands -/

/-- Starts the stages of a pipeline from the first on; `input` is where the next one reads. -/
def startStages (t : ShellTurn) (started : List Nat) (input : Option Channel) :
    List Command → ShellTurn × List Nat
  | [] => (t, started)
  | c :: rest =>
    let channels := match input with
      | some i => t.inherited.set 0 i
      | none => t.inherited
    if rest.isEmpty then
      let (t, n) := t.fork [.run c] channels
      (t, started ++ [n])
    else
      let (host, pipe) := t.host.addPipe {}
      let (t, n) := { t with host }.fork [.run c] (channels.set 1 (.pipeOut pipe))
      startStages t (started ++ [n]) (some (.pipeIn pipe)) rest

/-- Starts a child that is not waited for. It reads nothing, and the keys of a terminal do not reach
it. -/
def startBackground (t : ShellTurn) (c : Command) : ShellTurn :=
  let (t, n) := t.fork [.run c] (t.inherited.set 0 .null)
  let host := t.host.changeProcess n fun p =>
    { p with ignored := Signal.interrupt :: Signal.quit :: p.ignored }
  { t with
    host
    machine := { t.machine with
      background := some n, children := t.machine.children ++ [n], status := 0 } }

def begin (t : ShellTurn) (c : Command) : ShellTurn :=
  let t := t.pop
  match c with
  | .nothing => t
  | .simple s => t.push [.expand (.simple s) []]
  | .pipeline stages =>
    let (u, started) := t.startStages [] none stages
    (u.push t.checks).awaiting started (started.getLast?.getD 0)
  | .negated c => t.push [.run c, .negate]
  | .both a b => t.push [.run a, .both b]
  | .either a b => t.push [.run a, .either b]
  | .seq a b => t.push [.run a, .run b]
  | .background c => t.startBackground c
  | .subshell c =>
    let (u, n) := t.fork [.run c] t.inherited
    (u.push t.checks).awaiting [n] n
  | .redirected c redirs => t.push [.expand (.redirected c redirs) []]
  | .branch condition body other => t.push [.run condition, .branch body other]
  | .loop until_ condition body => t.push [.run condition, .loop until_ condition body (.testing 0)]
  | .each name words body => t.push [.expand (.each name words body) []]
  | .choice subject arms => t.push [.expand (.choice subject arms) []]
  | .define name body =>
    let functions := (t.machine.functions.filter fun f => f.1 != name) ++ [(name, body)]
    { t with machine := { t.machine with functions, status := 0 } }

/-- Goes on with a job, its words being expanded. -/
def expand (t : ShellTurn) (job : Job) (outputs : List String) : ShellTurn :=
  match job with
  | .simple s =>
    let t := { t with machine := { t.machine with line := s.line } }
    t.expanding outputs (expandSimple · s) fun t e => t.runExpanded s (!outputs.isEmpty) e
  | .each name words body =>
    match words with
    | none => (t.setStatus 0).replace [.each name t.machine.params body]
    | some ws => t.expanding outputs (Expand.fields · ws) fun t fields =>
        (t.setStatus 0).replace [.each name fields body]
  | .choice subject arms =>
    t.expanding outputs
      (fun v => do
        let s ← Expand.text v subject
        chooseArm v s arms)
      fun t arm => match arm with
        | some body => (t.setStatus 0).replace [.run body]
        | none => (t.setStatus 0).pop
  | .redirected c redirs =>
    t.expanding outputs (fun v => redirs.mapM (resolve v)) fun t rs =>
      let before := t.process.channels
      match t.pop.redirected rs with
      | .error message => t.pop.complain message 2
      | .ok t => t.push [.run c, .restore before]

/-! ## Frames that may wait -/

/-- Ends an inner script: its output goes to the frame that needs it. Bytes that are nought are
dropped. -/
def endSubstitution (t : ShellTurn) (descriptor : Nat) (got : List Bytes) (status : Nat) :
    ShellTurn :=
  let out := String.ofList ((Bytes.toOctets got.reverse.flatten).filter fun c => c != '\x00')
  let t := (t.setChannels (t.process.channels.close descriptor)).pop
  let t := { t with machine := { t.machine with inner := status } }
  match t.machine.frames with
  | .expand job outputs :: rest =>
    { t with machine := { t.machine with frames := .expand job (outputs ++ [out]) :: rest } }
  | _ => t

/-- Reads on in the output of an inner script. -/
def collect (t : ShellTurn) (descriptor child : Nat) (got : List Bytes) : ShellTurn :=
  match t.host.receiveAt t.process descriptor 65536 with
  | (host, .bytes bs) => { t with host }.replace [.collect descriptor child (bs :: got)]
  | (_, .nothing) => t.wait
  | (host, _) =>
    match host.process? child with
    | none => t.endSubstitution descriptor got 0
    | some p =>
      match p.status with
      | none => t.wait
      | some s => { t with host := host.reap child }.endSubstitution descriptor got s.code

/-- Says by which signal a child was ended, unless it is one that is expected. -/
def sayEnd (t : ShellTurn) : Status → ShellTurn
  | .signaled s =>
    if s = Signal.interrupt || s = Signal.brokenPipe then t
    else t.say 2 (Signal.description s ++ "\n")
  | .exited _ => t

/-- Takes the statuses of children that have ended. -/
def await (t : ShellTurn) (children : List Nat) (last status : Nat) : ShellTurn :=
  match children with
  | [] => (t.setStatus status).pop
  | n :: rest =>
    match t.host.process? n with
    | none => t.replace [.await rest last status]
    | some p =>
      match p.status with
      | none => t.wait
      | some s =>
        let t := { t with host := t.host.reap n }
        let t := t.replace [.await rest last (if n = last then s.code else status)]
        t.sayEnd s

/-- Takes the statuses of background children that have ended; a signal that came ends the waiting. -/
def waitFor (t : ShellTurn) (children : List Nat) (last : Option Nat) : ShellTurn :=
  match t.process.caught with
  | s :: _ => (t.setStatus (128 + s)).pop
  | [] =>
    match children with
    | [] => (if last.isNone then t.setStatus 0 else t).pop
    | n :: rest =>
      match t.host.process? n with
      | none => t.replace [.waitFor rest last]
      | some p =>
        match p.status with
        | none => t.wait
        | some s =>
          let t := { t with host := t.host.reap n }
          let m := t.machine
          let t := { t with machine := { m with children := m.children.filter (· != n) } }
          let t := t.replace [.waitFor rest last]
          if last.isSome then (t.setStatus s.code).sayEnd s else t

/-- Writes on. A complaint that nobody can be told is dropped. -/
def write (t : ShellTurn) (descriptor : Nat) (bs : Bytes) (blamed : String) : ShellTurn :=
  let failing (t : ShellTurn) : ShellTurn :=
    if blamed == "" then t.pop else t.pop.complain s!"{blamed}: {blamed}: I/O error" 1
  if bs.isEmpty then t.pop
  else match t.host.deliverAt t.process descriptor bs with
    | (host, .took n) => { t with host }.replace [.write descriptor (bs.drop n) blamed]
    | (_, .full) => t.wait
    | (_, .broken) => failing (t.sendTo Signal.brokenPipe (toString t.process.number))
    | (_, .refused _) => failing t

def finishLine (t : ShellTurn) (names : List String) (line : List PatternChar) (status : Nat) :
    ShellTurn :=
  let values := Expand.splitLine (Expand.separators t.machine.vars) names.length line.reverse
  (names.zip values).foldl (fun t v => t.assign v.1 v.2) (t.pop.setStatus status)

/-- Reads on in a line, byte by byte, so that nothing behind it is taken. -/
def readLine (t : ShellTurn) (raw : Bool) (names : List String) (line : List PatternChar)
    (escaped : Bool) : ShellTurn :=
  match t.host.receiveAt t.process 0 1 with
  | (_, .nothing) => t.wait
  | (host, .bytes (b :: _)) =>
    let t := { t with host }
    let c := Char.ofNat b.toNat
    if c == '\x00' then t
    else if escaped then
      t.replace [.readLine raw names (if c == '\n' then line else ⟨c, true⟩ :: line) false]
    else if c == '\\' && !raw then t.replace [.readLine raw names line true]
    else if c == '\n' then t.finishLine names line 0
    else t.replace [.readLine raw names (⟨c, false⟩ :: line) false]
  | (host, _) => { t with host }.finishLine names line 1

/-- Reads on in a script that comes from the input. -/
def readInput (t : ShellTurn) (text : String) (ended : Bool) : ShellTurn :=
  let read (ended : Bool) (text : String) : ShellTurn :=
    match readCommand { chars := text.toList } with
    | .ok none => if ended then t.pop else t.replace [.input "" false]
    | .ok (some (c, rest)) => t.replace [.run c, .input (String.ofList rest.chars) ended]
    | .error (.unexpectedEnd e) =>
      if ended then t.fail (SyntaxFault.unexpectedEnd e).message else t.replace [.input text ended]
    | .error .unterminatedQuote =>
      if ended then t.fail SyntaxFault.unterminatedQuote.message else t.replace [.input text ended]
    | .error e => t.fail e.message
  if ended then read true text
  else match t.host.receiveAt t.process 0 1 with
    | (_, .nothing) => t.wait
    | (host, .bytes (b :: _)) =>
      let text := text ++ String.singleton (Char.ofNat b.toNat)
      let t := { t with host }
      if b == 10 then
        { read false text with host }
      else t.replace [.input text false]
    | (host, _) => { t with host }.replace [.input text true]

/-! ## The step -/

def readSource (t : ShellTurn) (s : Source) : ShellTurn :=
  match readCommand s with
  | .ok none => t.pop
  | .ok (some (c, rest)) => t.replace [.run c, .source rest]
  | .error e =>
    let line := match e with
      | .unexpectedEnd _ | .unterminatedQuote => s.line + s.chars.count '\n'
      | _ => (s.skipLines (s.chars.length + 1)).line
    { t with machine := { t.machine with line } }.fail e.message

def loop (t : ShellTurn) (until_ : Bool) (condition body : Command) (phase : LoopPhase) : ShellTurn :=
  match phase with
  | .body =>
    t.replace [.run condition, .loop until_ condition body (.testing t.machine.status)]
  | .testing last =>
    if (t.machine.status == 0) != until_ then
      t.replace [.run body, .loop until_ condition body .body]
    else (t.setStatus last).pop

/-- Does a little of the uppermost frame. -/
def stepFrame (t : ShellTurn) : Frame → ShellTurn
  | .source s => t.readSource s
  | .input text ended => t.readInput text ended
  | .run c => t.begin c
  | .expand job outputs => t.expand job outputs
  | .collect descriptor child got => t.collect descriptor child got
  | .both second => if t.machine.status = 0 then t.replace [.run second] else t.pop
  | .either second => if t.machine.status = 0 then t.pop else t.replace [.run second]
  | .negate => (t.setStatus (if t.machine.status = 0 then 1 else 0)).pop
  | .branch body other =>
    if t.machine.status = 0 then t.replace [.run body] else (t.setStatus 0).replace [.run other]
  | .loop until_ condition body phase => t.loop until_ condition body phase
  | .each _ [] _ => t.pop
  | .each name (w :: rest) body => (t.replace [.run body, .each name rest body]).assign name w
  | .restore channels => (t.setChannels channels).pop
  | .await children last status => t.await children last status
  | .call params locals =>
    let t := (t.giveBack locals).pop
    { t with machine := { t.machine with params } }
  | .giveBack vars => (t.giveBack vars).pop
  | .write descriptor bs blamed => t.write descriptor bs blamed
  | .readLine raw names line escaped => t.readLine raw names line escaped
  | .waitFor children last => t.waitFor children last
  | .handled status => (t.setStatus status).pop
  | .checked =>
    let t := t.pop
    if t.machine.endOnFailure && t.machine.status != 0 && !t.machine.isTested then
      t.exit t.machine.status
    else t
  | .leave status => t.exit status

/-- Whether a handler has to wait until the frame is done. -/
def holdsBack : Frame → Bool
  | .await .. => true
  | .collect .. => true
  | .waitFor .. => true
  | _ => false

/-- Does a little: runs a handler whose signal has come, or goes on with the uppermost frame. -/
def step (t : ShellTurn) : ShellTurn :=
  match t.machine.frames with
  | [] => t.exit t.machine.status
  | f :: _ =>
    match t.process.caught with
    | s :: rest =>
      if holdsBack f then t.stepFrame f
      else
        let t := { t with process := { t.process with caught := rest } }
        match t.machine.handler? s with
        | some text => t.push [.source { chars := text.toList }, .handled t.machine.status]
        | none => t
    | [] => t.stepFrame f

end ShellTurn

/-- Does a little of what a shell has to do, and says whether it could do anything. -/
def stepShell (h : Host) (p : Process) (m : Machine) : Host × Bool :=
  let t := ShellTurn.step { host := h, process := p, machine := m }
  match t.outcome with
  | .ran =>
    (t.host.changeProcess p.number fun _ => { t.process with activity := .shell t.machine }, true)
  | .waits => (h, false)
  | .settled => (t.host, true)
  | .ended s => (t.host.finish p.number s, true)

end SessionHost.Host
