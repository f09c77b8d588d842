import SessionHost.Config.Basic
import SessionHost.Program.Spec
import SessionHost.Session.Mode
import SessionHost.Text.Blank

/-!
# Compilers and command lines (`toolchain/mod`)

A build names a language and a compiler, and together they choose one of four configured programs. The
fixed part of a command line comes first and the user's words last, so that no text of the user's can
displace it.

* `Toolchain.compileArgs` is the command line of a compiler;
* `Toolchain.launch` is what a session runs once the binary is built.
-/
namespace SessionHost

/-- mirrors toolchain/mod:47-50 -/
inductive Language where
  | c
  | cpp
  deriving DecidableEq, Repr, Inhabited

/-- mirrors toolchain/mod:74-77 -/
inductive Compiler where
  | gcc
  | clang
  deriving DecidableEq, Repr, Inhabited

/-- Why a program is not built.
mirrors toolchain/mod:22-44 -/
inductive BuildError where
  | unsupportedLanguage (text : String)
  | unsupportedCompiler (text : String)
  | compilerUnavailable (compiler reason : String)
  | directory (reason : String)
  | timedOut (seconds : Nat)
  | compileFailed (diagnostics : String)
  deriving DecidableEq, Repr

/-- mirrors toolchain/mod:23-42 -/
def BuildError.message : BuildError → String
  | unsupportedLanguage text => s!"unsupported language '{text}'"
  | unsupportedCompiler text => s!"unsupported compiler '{text}'"
  | compilerUnavailable compiler reason => s!"failed to run compiler '{compiler}': {reason}"
  | directory reason => s!"build directory error: {reason}"
  | timedOut seconds => s!"compilation timed out after {seconds}s"
  | compileFailed diagnostics => s!"compilation failed:\n{diagnostics}"

namespace Language

/-- mirrors toolchain/mod:53-58 -/
def sourceName : Language → String
  | c => "main.c"
  | cpp => "main.cpp"

/-- Reads a language, whatever its case and the blanks around it.
mirrors toolchain/mod:64-70 -/
def parse (text : String) : Except BuildError Language :=
  match Text.lowerAscii (Text.trim text) with
  | "c" => .ok c
  | "cpp" | "c++" | "cxx" => .ok cpp
  | _ => .error (.unsupportedLanguage text)

end Language

/-- Reads a compiler, whatever its case and the blanks around it.
mirrors toolchain/mod:82-88 -/
def Compiler.parse (text : String) : Except BuildError Compiler :=
  match Text.lowerAscii (Text.trim text) with
  | "gcc" => .ok gcc
  | "clang" => .ok clang
  | _ => .error (.unsupportedCompiler text)

/-- A program as it is handed in.
mirrors toolchain/mod:93-99 -/
structure BuildRequest where
  language : Language
  compiler : Compiler
  source : String
  options : String := ""
  deriving DecidableEq, Repr

/-- A program that has been built: its scratch directory, as it is written and as a place, and the
binary in it.
mirrors toolchain/mod:103-106 -/
structure Build where
  directory : String
  place : Host.Path
  binary : String
  deriving DecidableEq, Repr

namespace Toolchain

/-- The configured program for a language and a compiler.
mirrors toolchain/mod:128-135 -/
def compilerPath (c : ToolchainConfig) : Language → Compiler → String
  | .c, .gcc => c.gcc
  | .cpp, .gcc => c.gxx
  | .c, .clang => c.clang
  | .cpp, .clang => c.clangxx

/-- The words that a user wrote.
mirrors toolchain/mod:215-217 -/
def splitArgs (text : String) : List String := Text.words text

/-- The flag that asks for debugging symbols. -/
def symbolFlags (withSymbols : Bool) : List String := if withSymbols then ["-g"] else []

/-- The arguments of a compiler.
mirrors toolchain/mod:138-145 -/
def compileArgs (source binary : String) (withSymbols : Bool) (options : String) : List String :=
  [source, "-o", binary] ++ symbolFlags withSymbols ++ splitArgs options

/-- What a session runs: the binary, or the debugger with the binary.
mirrors toolchain/mod:188-199 -/
def launch (c : ToolchainConfig) (b : Build) (mode : Mode) (args : String) : Launch :=
  let user := splitArgs args
  let (program, args) := match mode with
    | .debugger => (c.gdb, c.gdbArgs ++ ["--args", b.binary] ++ user)
    | .text | .interactive => (b.binary, user)
  { program, args, cwd := some b.directory, scratch := some b.place }

end Toolchain

end SessionHost
