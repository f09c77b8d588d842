import SessionHost.Host.Schedule

/-!
# The passing of time

What goes on by itself on a host is watched in turns. In a turn everything happens that can happen at
that moment. If anything did, a short time passes; if nothing did, the clock goes on to the next moment
at which something wakes.

* `Ongoing.turn` is a turn; `Ongoing.runUntil` takes turns until something is so or time is up.
-/
namespace SessionHost

/-- How something goes on by itself on a host: what happens in a moment, which also says whether
anything happened, and when something wakes next. -/
structure Ongoing (α : Type) where
  host : α → Host
  withHost : α → Host → α
  work : α → α × Bool
  wake? : α → Option Nat

namespace Ongoing

variable {α : Type}

/-- The time that passes in a turn in which something happened, in microseconds. -/
def grain : Nat := 100

def now (o : Ongoing α) (x : α) : Nat := (o.host x).now

def setTime (o : Ongoing α) (x : α) (time : Nat) : α := o.withHost x { o.host x with now := time }

/-- When the clock stands behind a turn: never behind `limit`, which lies ahead. -/
def nextTime (limit now : Nat) (did : Bool) (wake : Option Nat) : Nat :=
  min limit (if did then now + grain else max (now + 1) (wake.getD limit))

def turn (o : Ongoing α) (limit : Nat) (x : α) : α :=
  let (x, did) := o.work x
  o.setTime x (nextTime limit (o.now x) did (o.wake? x))

def run (o : Ongoing α) (done : α → Bool) (limit : Nat) : Nat → α → α × Bool
  | 0, x => (x, done x)
  | turns + 1, x =>
    if done x then (x, true)
    else if limit ≤ o.now x then (x, false)
    else run o done limit turns (o.turn limit x)

/-- Goes on until `done` holds or the clock shows `limit`; says whether `done` holds. Every turn takes
at least a microsecond. -/
def runUntil (o : Ongoing α) (done : α → Bool) (limit : Nat) (x : α) : α × Bool :=
  o.run done limit (limit - o.now x + 1) x

def pass (o : Ongoing α) (time : Nat) (x : α) : α :=
  (o.runUntil (fun _ => false) (o.now x + time) x).1

theorem lt_nextTime {limit now : Nat} (h : now < limit) (did : Bool) (wake : Option Nat) :
    now < nextTime limit now did wake := by
  unfold nextTime grain
  split <;> omega

theorem nextTime_le (limit now : Nat) (did : Bool) (wake : Option Nat) :
    nextTime limit now did wake ≤ limit := by
  unfold nextTime; omega

end Ongoing

end SessionHost
