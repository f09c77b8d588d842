import SessionHost.Bytes

/-!
# The output of a session (`session/buffer`)

An `OutputLog` is everything that a program has written so far. It grows at its end until it is
closed, and never changes otherwise, so an offset that was once valid stays valid and always names
the same byte.

* `OutputLog.bytes_append`: an open log grows by exactly the chunk, a closed one by nothing;
* `OutputLog.readSince_eq_error_iff`: only an offset past the end is refused.
-/
namespace SessionHost

/-- All output captured so far, and whether more can follow.
mirrors session/buffer:14-22 -/
structure OutputLog where
  bytes : Bytes := []
  closed : Bool := false
  deriving DecidableEq, Repr, Inhabited

structure PastEnd where
  offset : Nat
  length : Nat
  deriving DecidableEq, Repr

namespace OutputLog

def length (log : OutputLog) : Nat := log.bytes.length

/-- Adds a chunk behind the output; a closed log stays as it is.
mirrors session/buffer:31-38 -/
def append (log : OutputLog) (chunk : Bytes) : OutputLog :=
  if log.closed then log else { log with bytes := log.bytes ++ chunk }

/-- mirrors session/buffer:59-61 -/
def close (log : OutputLog) : OutputLog := { log with closed := true }

/-- The bytes from `offset` on, and the offset behind them.
mirrors session/buffer:41-48 -/
def readSince (log : OutputLog) (offset : Nat) : Except PastEnd (Bytes × Nat) :=
  if offset > log.length then .error ⟨offset, log.length⟩
  else .ok (log.bytes.drop offset, log.length)

@[simp] theorem bytes_append (log : OutputLog) (chunk : Bytes) :
    (log.append chunk).bytes = if log.closed then log.bytes else log.bytes ++ chunk := by
  unfold append; split <;> rfl

@[simp] theorem closed_append (log : OutputLog) (chunk : Bytes) :
    (log.append chunk).closed = log.closed := by
  unfold append; split <;> rfl

@[simp] theorem bytes_close (log : OutputLog) : log.close.bytes = log.bytes := rfl

@[simp] theorem closed_close (log : OutputLog) : log.close.closed = true := rfl

theorem readSince_eq_error_iff (log : OutputLog) (offset : Nat) (e : PastEnd) :
    log.readSince offset = .error e ↔ log.length < offset ∧ e = ⟨offset, log.length⟩ := by
  unfold readSince
  split
  · simp_all [eq_comm]
  · simp; omega

end OutputLog

end SessionHost
