import SessionHost.Host.Files

/-!
# What to run (`session/process`)

A launch names a program, its arguments in order, what is added to its environment, and where it
starts. A program that was built for the occasion also names the scratch directory that it was built
in, which has to stay as long as the program may need it.
-/
namespace SessionHost

/-- A program to be started.
mirrors session/process:41-48 -/
structure Launch where
  program : String
  args : List String := []
  env : List (String × String) := []
  cwd : Option String := none
  scratch : Option Host.Path := none
  deriving DecidableEq, Repr, Inhabited

namespace Launch

def arg (l : Launch) (a : String) : Launch := { l with args := l.args ++ [a] }

def addArgs (l : Launch) (as : List String) : Launch := { l with args := l.args ++ as }

def addVariable (l : Launch) (name value : String) : Launch :=
  { l with env := l.env ++ [(name, value)] }

def inDirectory (l : Launch) (dir : String) : Launch := { l with cwd := some dir }

@[simp] theorem args_addArgs (l : Launch) (as : List String) :
    (l.addArgs as).args = l.args ++ as := rfl

@[simp] theorem args_arg (l : Launch) (a : String) : (l.arg a).args = l.args ++ [a] := rfl

end Launch

end SessionHost
