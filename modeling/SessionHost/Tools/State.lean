import SessionHost.Bytes
import SessionHost.Tools.Filter

/-!
# The state of a tool

A tool that is running copies, gathers, waits or writes. Where its input comes from is settled when it
starts: descriptors are read as the tool runs, files are read at once, and an operand that cannot be
opened is a complaint that comes up in its turn.
-/
namespace SessionHost.Tools

inductive Supply where
  | descriptor (n : Nat)
  | content (bs : Bytes)
  | complaint (text : String)
  deriving DecidableEq, Repr

inductive ToolState where
  | start (tool : String) (args : List String)
  /-- Hands input on to some descriptors as it comes. -/
  | copy (supplies : List Supply) (sinks : List Nat) (status : Nat)
  /-- Hands on the first bytes or lines. -/
  | front (bytes : Bool) (left : Nat) (supplies : List Supply) (status : Nat)
  /-- Reads everything before the filter runs. What has been read of the first input is kept in
  pieces, and both these and the inputs that are done are kept last first. -/
  | gather (f : Filter) (supplies : List (String × Supply)) (pieces : List Bytes)
      (got : List (String × Bytes)) (status : Nat)
  | repeating (text : Bytes)
  | sleeping (until_ : Nat)
  | writing (outputs : List (Nat × Bytes)) (next : ToolState)
  | finished (status : Nat)
  deriving Repr

end SessionHost.Tools
