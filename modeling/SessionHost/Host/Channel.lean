import SessionHost.Host.Files

/-!
# Channels

A descriptor is a number under which a process holds a channel: an end of a pipe, a terminal, an
opened file, or nothing at all. What a file is opened for is shared by all descriptors that were
copied from one another, so they read and write on at one common place.
-/
namespace SessionHost.Host

/-- What a descriptor leads to. Pipes, terminals and openings are known by their numbers. -/
inductive Channel where
  | null
  | pipeIn (pipe : Nat)
  | pipeOut (pipe : Nat)
  | terminal (number : Nat)
  | opened (opening : Nat)
  deriving DecidableEq, Repr

abbrev Descriptors := List (Nat × Channel)

namespace Descriptors

def get? (ds : Descriptors) (n : Nat) : Option Channel := (ds.find? fun d => d.1 == n).map (·.2)

def close (ds : Descriptors) (n : Nat) : Descriptors := ds.filter fun d => d.1 != n

def set (ds : Descriptors) (n : Nat) (c : Channel) : Descriptors := (n, c) :: close ds n

def holds (ds : Descriptors) (c : Channel) : Bool := ds.any fun d => d.2 == c

end Descriptors

/-- An opened file and the place at which it is read and written next. -/
structure Opening where
  path : Path
  place : Nat := 0
  appends : Bool := false
  deriving DecidableEq, Repr

/-- Bytes on their way, and whether somebody outside the host holds an end. -/
structure Pipe where
  content : Bytes := []
  readOutside : Bool := false
  writtenOutside : Bool := false
  deriving DecidableEq, Repr

def Pipe.capacity : Nat := 65536

end SessionHost.Host
