import SessionHost.Host.Shell.Step

/-!
# Running a host

In a round every process gets a slice: some steps, or fewer if it has to wait. A round that nothing
came of leaves a host in which everybody waits: for input from outside, or for the time at which a
sleep is over.

* `Host.round` lets every process run for a while;
* `Host.nextWake?` is when the next sleep is over.
-/
namespace SessionHost.Host

/-- Does a little of what a process has to do, and says whether it could do anything. -/
def stepProcess (h : Host) (n : Nat) : Host × Bool :=
  match h.process? n with
  | none => (h, false)
  | some p =>
    if !p.isAlive || p.stopped then (h, false)
    else match p.activity with
      | .shell m => h.stepShell p m
      | .tool t => h.stepTool p t

/-- Lets a process go on for at most so many steps, until it has to wait. -/
def runProcess (n : Nat) : Nat → Host → Bool → Host × Bool
  | 0, h, did => (h, did)
  | steps + 1, h, did =>
    let (h, again) := h.stepProcess n
    if again then runProcess n steps h true else (h, did)

/-- How many steps a process may take in a round. -/
def slice : Nat := 64

/-- Lets every process run for a while, and says whether any could do anything. -/
def round (h : Host) : Host × Bool :=
  (h.processes.map (·.number)).foldl (fun (h, did) n =>
    let (h, more) := runProcess n slice h false
    (h, did || more)) (h, false)

def wakeOf? (p : Process) : Option Nat :=
  match p.activity with
  | .tool (.sleeping time) => if p.isAlive && !p.stopped then some time else none
  | _ => none

/-- The earlier of two times, either of which may be missing. -/
def earlier : Option Nat → Option Nat → Option Nat
  | some a, some b => some (min a b)
  | some a, none => some a
  | none, b => b

def nextWake? (h : Host) : Option Nat :=
  h.processes.foldl (fun t p => earlier t (wakeOf? p)) none

end SessionHost.Host
