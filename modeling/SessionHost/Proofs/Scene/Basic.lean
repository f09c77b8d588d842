import Mathlib.Logic.Function.Basic
import Mathlib.Logic.Relation
import SessionHost.Session.Kill
import SessionHost.Session.Pump

/-!
# A session and everybody who is at work on it

A session is shared by a pump, which takes in the output of its program and ends it, and by any number
of callers, who read output, send input, ask how it stands and kill it. None of them holds the session
as a whole: each of its parts is read and changed on its own, and in between anybody else may have a
turn. Three things are held for longer than that:

* the cursor, by whoever polls from it (`Scene.reader`);
* the right to say how the session ended, by the first who kills it (`Scene.recorder`);
* the pacer, by whoever hands it a command or output (`Scene.pacing`).

A `Task` is what a caller is doing and how far it has come, a `PumpTask` the same for the pump. A
`Scene` is the session with all of them, and with all that callers have been answered so far.
-/
namespace SessionHost

/-- Whose offset a poll goes on from: the one that the session keeps, or the caller's own. `late` says
that the log was closed already when the poll was begun. -/
inductive PollSource where
  | cursor (late : Bool)
  | own
  deriving DecidableEq, Repr

inductive Reading where
  /-- Wants the cursor. -/
  | queueing (late : Bool)
  /-- Is about to look whether the log is closed. -/
  | looking (source : PollSource) (offset : Nat)
  /-- Has looked, and is about to read. -/
  | taking (source : PollSource) (offset : Nat) (sawClosed : Bool)
  /-- Has read, and is about to move the cursor and to let go of it. -/
  | storing (late : Bool) (poll : Poll)
  deriving DecidableEq, Repr

inductive Ending where
  /-- Wants to know what is recorded, or to find out what to record. -/
  | entering
  /-- Finds out what to record. -/
  | finding (stage : KillStage)
  /-- Knows what is recorded, and is about to move the session. -/
  | moving (exit : ExitInfo)
  /-- The route that stops a session is about to ask for its state. -/
  | asking (exit : ExitInfo)
  deriving DecidableEq, Repr

inductive Telling where
  /-- Waits until the session is done. -/
  | waiting
  /-- Has waited, and is about to ask how the session ended. -/
  | waited
  /-- A snapshot: the state is known, then the length of the output. -/
  | lengthOf (state : SessionState)
  | exitOf (state : SessionState) (length : Nat)
  /-- The route that polls: the output is known, then the state. -/
  | routeState (poll : Poll)
  | routeExit (poll : Poll) (state : SessionState)
  deriving DecidableEq, Repr

/-- How far sending has come. `rest` are the command lines that follow, and `paced` says that the pacer
is held. -/
inductive Sending where
  /-- Is about to hand over the next command, if there is one. -/
  | commanding (lines : List String)
  /-- Is about to look whether the session has ended. -/
  | checking (bytes : Bytes) (rest : List String)
  /-- Is about to look whether the program has ended. -/
  | offering (paced : Bool) (bytes : Bytes) (rest : List String)
  /-- Is about to queue the bytes for the program. -/
  | pushing (paced : Bool) (bytes : Bytes) (rest : List String)
  /-- Is about to note that input was sent. -/
  | noting (rest : List String)
  /-- Is about to move the session to running. -/
  | moving (paced : Bool) (rest : List String)
  deriving DecidableEq, Repr

/-- What a caller is doing. `route` says that it does so for a route, which asks further when a poll or
a kill has answered. -/
inductive Task where
  | idle
  | reading (route : Bool) (r : Reading)
  | ending (route : Bool) (e : Ending)
  | telling (t : Telling)
  | sending (s : Sending)
  deriving DecidableEq, Repr

inductive PumpTask where
  /-- Waits for output. -/
  | reading
  /-- A chunk is in the log; is about to note that there was output. -/
  | marking (chunk : Bytes)
  /-- Is about to show the chunk to the pacer. -/
  | reacting (chunk : Bytes)
  /-- The pacer has released a command; is about to look whether the program has ended. -/
  | offering (bytes : Bytes) (prompt : PromptState)
  /-- Is about to queue the command for the program. -/
  | pushing (bytes : Bytes) (prompt : PromptState)
  /-- Is about to move the session to what the prompt stands for. -/
  | moving (prompt : PromptState) (paced : Bool)
  /-- Nothing has come for a while; is about to look whether the program has ended. -/
  | stalling
  /-- Ends the session, with these steps to go. -/
  | finishing (exit : ExitInfo) (steps : List FinishStep)
  deriving DecidableEq, Repr

inductive Party where
  | pump
  | caller (i : Nat)
  deriving DecidableEq, Repr

structure PollAnswer where
  /-- The log was closed already when the poll was begun. -/
  late : Bool
  result : Except SessionError Poll

inductive ReadAnswer where
  | polled (offset : Nat) (result : Except SessionError Poll)
  | since (offset : Nat) (result : Except SessionError (Bytes × Nat))

inductive Report where
  | killed (exit : ExitInfo)
  | stopped (exit : ExitInfo) (state : SessionState)
  | waited (exit : Option ExitInfo)
  | exit (exit : Option ExitInfo)
  | state (state : SessionState)
  | snapshot (snapshot : Snapshot)
  | program (poll : Poll) (state : SessionState) (exit : Option ExitInfo)
  deriving DecidableEq, Repr

/-- A session, and everybody who is at work on it. -/
structure Scene where
  session : Session
  /-- The status of the program, once it has ended. -/
  ended : Option ExitInfo := none
  /-- Who finds out how the session ended. -/
  recorder : Option Nat := none
  /-- Who holds the cursor. -/
  reader : Option Nat := none
  /-- Who holds the pacer. -/
  pacing : Option Party := none
  pump : PumpTask := .reading
  task : Nat → Task := fun _ => .idle
  /-- The chunks that the pump has taken in. -/
  arrived : List Bytes := []
  /-- The answers to polls from the cursor, in the order in which it was held. -/
  polls : List PollAnswer := []
  /-- The answers to reads from offsets of callers. -/
  reads : List ReadAnswer := []
  reports : List Report := []
  /-- Whether input was taken. -/
  receipts : List (Except SessionError Unit) := []

/-- How far the end of a program has come whose system gives it this status. -/
def Child.fateOf (status : Option ExitInfo) (c : Child) : Fate :=
  match c.published, c.collected with
  | some e, _ => .published e
  | none, some e => .collected e
  | none, none => status.elim .alive .ended

theorem Child.fate_eq_fateOf (h : Host) (c : Child) :
    c.fate h = c.fateOf (((h.process? c.process).bind (·.status)).map ExitInfo.ofStatus) := by
  unfold fate fateOf
  cases c.published <;> cases c.collected <;> try rfl
  cases (h.process? c.process).bind (·.status) <;> rfl

namespace Scene

/-- The session of a program that has just been started, with nobody at work but the pump. -/
def start (mode : Mode) (child : Child) (settings : SessionSettings) (scratch : Option Host.Path) :
    Scene where
  session := (Session.begin_ mode child settings scratch).moveTo .running

/-- A batch program over pipes, with nobody at work but the pump. -/
def quiet : Scene :=
  start .text { process := 1, wiring := .pipe, outlet := 1, inlet := 2, chunkSize := 4096 } default
    none

/-- How far the end of the program has come. -/
def fate (s : Scene) : Fate := s.session.child.fateOf s.ended

def withSession (s : Scene) (x : Session) : Scene := { s with session := x }

def put (s : Scene) (i : Nat) (t : Task) : Scene := { s with task := Function.update s.task i t }

@[simp] theorem task_put_self (s : Scene) (i : Nat) (x : Task) : (s.put i x).task i = x := by
  simp [put]

theorem task_put_of_ne (s : Scene) {i j : Nat} (x : Task) (h : j ≠ i) :
    (s.put i x).task j = s.task j := by
  simp [put, h]

/-- What holds of all tasks still does when one caller goes on with a task of which it holds. -/
theorem forall_put {s : Scene} {P : Task → Prop} {i : Nat} {x : Task} (h : ∀ j, j ≠ i → P (s.task j))
    (hx : P x) (j : Nat) : P ((s.put i x).task j) := by
  by_cases hj : j = i
  · subst hj; rwa [task_put_self]
  · rw [task_put_of_ne s x hj]; exact h j hj

theorem task_put_or (s : Scene) (i : Nat) (x : Task) (j : Nat) :
    (s.put i x).task j = s.task j ∨ (s.put i x).task j = x := by
  by_cases hj : j = i
  · subst hj; exact Or.inr (task_put_self ..)
  · exact Or.inl (task_put_of_ne s x hj)

/-- A caller who is at another task than the one that goes on stays there. -/
theorem task_put_of_task_ne {s : Scene} {i j : Nat} {x y z : Task} (hj : s.task j = y)
    (hi : s.task i = z) (h : z ≠ y) : (s.put j x).task i = s.task i := by
  refine task_put_of_ne s x ?_
  rintro rfl
  exact h (hi.symm.trans hj)

/-- A caller whose task is not the new one has kept its own. -/
theorem task_of_put {s : Scene} {i j : Nat} {x y : Task} (h : (s.put i x).task j = y) (hx : x ≠ y) :
    s.task j = y := by
  rcases task_put_or s i x j with he | he
  · rw [← he, h]
  · exact absurd (he.symm.trans h) hx

/-- What a poll reads at this moment which saw the log closed or not. -/
def take (s : Scene) (sawClosed : Bool) (offset : Nat) : Except SessionError Poll :=
  (s.session.log.pollSeeing sawClosed offset).mapError SessionError.ofPastEnd

def release (s : Scene) (paced : Bool) : Scene := if paced then { s with pacing := none } else s

/-- A poll from the cursor is answered, and the cursor is free again. -/
def answerPoll (s : Scene) (a : PollAnswer) : Scene :=
  { s with reader := none, polls := s.polls ++ [a] }

/-- A read from an offset of a caller is answered. -/
def answerRead (s : Scene) (a : ReadAnswer) : Scene := { s with reads := s.reads ++ [a] }

def report (s : Scene) (r : Report) : Scene := { s with reports := s.reports ++ [r] }

/-- A caller has been told whether its input was taken. -/
def answerInput (s : Scene) (i : Nat) (r : Except SessionError Unit) : Scene :=
  { s with receipts := s.receipts ++ [r] }.put i .idle

end Scene

/-- What a caller does after a poll: the route asks for the state if there was output. -/
def Task.afterPoll (route : Bool) : Except SessionError Poll → Task
  | .ok (.output data offset) =>
    if route then .telling (.routeState (.output data offset)) else .idle
  | _ => .idle

/-- What a caller does after a kill: the route asks for the state. -/
def Task.afterKill (route : Bool) (e : ExitInfo) : Task :=
  if route then .ending route (.asking e) else .idle

/-- How sending begins: payloads go to a debugger line by line. -/
def Session.beginInput (s : Session) (payload : String) : Sending :=
  if s.mode = .debugger then .commanding (Session.commandLines payload)
  else .checking (Session.closedLine payload) []

end SessionHost
