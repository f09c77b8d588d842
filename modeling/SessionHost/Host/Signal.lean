import SessionHost.Text.Digits

/-!
# Signals

Signals are numbers from 1 to 64. Unless a process says otherwise, most of them end it; a few are
passed over and a few stop it.

* `Signal.number?` reads a signal as a command names it.
-/
namespace SessionHost.Host

abbrev Signal := Nat

namespace Signal

def names : List (String × Nat) :=
  [("HUP", 1), ("INT", 2), ("QUIT", 3), ("ILL", 4), ("TRAP", 5), ("ABRT", 6), ("IOT", 6),
   ("BUS", 7), ("FPE", 8), ("KILL", 9), ("USR1", 10), ("SEGV", 11), ("USR2", 12), ("PIPE", 13),
   ("ALRM", 14), ("TERM", 15), ("STKFLT", 16), ("CHLD", 17), ("CONT", 18), ("STOP", 19),
   ("TSTP", 20), ("TTIN", 21), ("TTOU", 22), ("URG", 23), ("XCPU", 24), ("XFSZ", 25),
   ("VTALRM", 26), ("PROF", 27), ("WINCH", 28), ("IO", 29), ("POLL", 29), ("PWR", 30), ("SYS", 31),
   ("RTMIN", 34), ("RTMAX", 64)]

/-- What a signal does to a process that does not handle it. -/
inductive Disposition where
  | terminate
  | pass
  | stop
  | resume
  deriving DecidableEq, Repr

def disposition (s : Signal) : Disposition :=
  if s = 17 ∨ s = 23 ∨ s = 28 then .pass
  else if s = 18 then .resume
  else if 19 ≤ s ∧ s ≤ 22 then .stop
  else .terminate

/-- The hang-up of a terminal. -/
def hangup : Signal := 1
/-- The interrupt character of a terminal. -/
def interrupt : Signal := 2
def quit : Signal := 3
/-- Ends a process in any case. -/
def kill : Signal := 9
/-- A pipe that nobody reads. -/
def brokenPipe : Signal := 13
/-- A polite request to end. -/
def terminate : Signal := 15
def suspend : Signal := 20

/-- What is said of a process that a signal ended. -/
def description (s : Signal) : String :=
  match s with
  | 1 => "Hangup"
  | 2 => "Interrupt"
  | 3 => "Quit"
  | 4 => "Illegal instruction"
  | 5 => "Trace/breakpoint trap"
  | 6 => "Aborted"
  | 7 => "Bus error"
  | 8 => "Floating point exception"
  | 9 => "Killed"
  | 10 => "User defined signal 1"
  | 11 => "Segmentation fault"
  | 12 => "User defined signal 2"
  | 13 => "Broken pipe"
  | 14 => "Alarm clock"
  | 15 => "Terminated"
  | 16 => "Stack fault"
  | 24 => "CPU time limit exceeded"
  | 25 => "File size limit exceeded"
  | 26 => "Virtual timer expired"
  | 27 => "Profiling timer expired"
  | 29 => "I/O possible"
  | 30 => "Power failure"
  | 31 => "Bad system call"
  | n => if 34 ≤ n then s!"Real-time signal {n - 34}" else s!"Unknown signal {n}"

/-- No process can handle or ignore these two. -/
def isForced (s : Signal) : Bool := s == 9 || s == 19

/-- The number of a signal, given as a number or as a name without its first three letters, in any
case. -/
def number? (s : String) : Option Nat :=
  let digits := s.toList
  if !digits.isEmpty && digits.all Char.isDigit then
    let n := Text.natOfDigits digits
    if n ≤ 64 then some n else none
  else
    let upper := s.toUpper
    if upper == "EXIT" then some 0 else (names.find? fun n => n.1 == upper).map (·.2)

end Signal

end SessionHost.Host
