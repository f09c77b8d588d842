/-!
# Shutting down (`server/shutdown`)

A manager counts the requests in flight, in sixty-four bits that wrap around, and keeps a flag that is
set once and never taken back. A task that waits for the flag registers, looks at the flag, and blocks
if it is not set; whoever sets the flag first wakes all who have registered by then. Since waiters
register before they look, none can miss the flag.

* `ShutdownManager.signal` sets the flag; `ShutdownManager.stepWaiter` is a step of a waiter;
* `ShutdownManager.waitedInFull` says whether waiting for requests takes all the time it may.
-/
namespace SessionHost

/-- Where a task stands that waits for the flag.
mirrors server/shutdown:51-61 -/
inductive WaiterPhase where
  | entering
  /-- It will be woken from now on, and has not looked at the flag yet. -/
  | registered
  | blocked
  | returned
  deriving DecidableEq, Repr

namespace WaiterPhase

/-- A waiter that was registered when all were woken. -/
def wake : WaiterPhase → WaiterPhase
  | .registered | .blocked => .returned
  | p => p

/-- A step of a waiter: it registers, and then it looks at the flag.
mirrors server/shutdown:51-61 -/
def step (signaled : Bool) : WaiterPhase → WaiterPhase
  | .entering => .registered
  | .registered => if signaled then .returned else .blocked
  | p => p

end WaiterPhase

/-- Requests in flight, the flag, and the tasks that wait for it.
mirrors server/shutdown:8-12 -/
structure ShutdownManager where
  active : UInt64 := 0
  signaled : Bool := false
  waiters : List WaiterPhase := []
  deriving DecidableEq, Repr, Inhabited

namespace ShutdownManager

def increment (m : ShutdownManager) : ShutdownManager := { m with active := m.active + 1 }

def decrement (m : ShutdownManager) : ShutdownManager := { m with active := m.active - 1 }

def decrementBy (m : ShutdownManager) (n : Nat) : ShutdownManager :=
  { m with active := m.active - UInt64.ofNat n }

/-- Sets the flag; the first to do so wakes all who have registered.
mirrors server/shutdown:63-67 -/
def signal (m : ShutdownManager) : ShutdownManager :=
  if m.signaled then m
  else { m with signaled := true, waiters := m.waiters.map WaiterPhase.wake }

def stepWaiter (m : ShutdownManager) (place : Nat) : ShutdownManager :=
  { m with waiters := m.waiters.modify place (WaiterPhase.step m.signaled) }

def addWaiter (m : ShutdownManager) : ShutdownManager :=
  { m with waiters := m.waiters ++ [.entering] }

/-- Every waiter goes on until it returns or blocks. -/
def settle (m : ShutdownManager) : ShutdownManager :=
  let go (p : WaiterPhase) : WaiterPhase := (p.step m.signaled).step m.signaled
  { m with waiters := m.waiters.map go }

/-- The waiters that have returned are counted, and all are let go. -/
def joinWaiters (m : ShutdownManager) : ShutdownManager × Nat :=
  let m := m.settle
  ({ m with waiters := [] }, m.waiters.count .returned)

/-- How often the number of requests is looked at, in milliseconds.
mirrors server/shutdown:95 -/
def pollInterval : Nat := 100

/-- Looks at the number of requests from some time on, as long as there is time left.
mirrors server/shutdown:90-96 -/
def looks (activeAt : Nat → UInt64) (limit : Nat) (fuel elapsed : Nat) : Bool :=
  match fuel with
  | 0 => true
  | fuel + 1 =>
    if limit ≤ elapsed then true
    else if activeAt elapsed = 0 then decide (limit ≤ elapsed)
    else looks activeAt limit fuel (elapsed + pollInterval)

/-- Whether waiting for requests takes as long as it may. `activeAt` is the number of requests at each
time from the beginning on. -/
def waitedInFull (activeAt : Nat → UInt64) (limit : Nat) : Bool := looks activeAt limit (limit + 1) 0

/-- Waits for requests while nothing happens to their number.
mirrors server/shutdown:85-102 -/
def waitForRequests (m : ShutdownManager) (limit : Nat) : Bool :=
  waitedInFull (fun _ => m.active) limit

/-- Waits for requests of which `n` end after some time. -/
def drainRequests (m : ShutdownManager) (limit after n : Nat) : ShutdownManager × Bool :=
  let later := m.decrementBy n
  (later, waitedInFull (fun t => if t < after then m.active else later.active) limit)

end ShutdownManager

end SessionHost
