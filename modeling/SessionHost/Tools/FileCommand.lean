import SessionHost.Host.Files
import SessionHost.Shell.Condition
import SessionHost.Shell.Format
import SessionHost.Text.Octets
import SessionHost.Tools.Arguments

/-!
# Commands that answer at once

These tools read no input: they look at their arguments and the files, change the files, and answer.
All text is in octets.

* `FileCommand.run?` runs a tool, if it is one of them.
-/
namespace SessionHost.Tools

open SessionHost.Host (Files Path Node)

structure FileCommand.Answer where
  files : Files
  out : String := ""
  complaints : String := ""
  status : Nat := 0

namespace FileCommand

/-- A complaint of a tool; the status says that something went wrong. -/
def Answer.complain (a : Answer) (tool message : String) : Answer :=
  { a with complaints := a.complaints ++ s!"{tool}: {message}\n", status := max a.status 1 }

def place (a : Answer) (cwd : Path) (s : String) : Except IoError Path :=
  a.files.resolve? cwd (Octets.toText s)

def node? (a : Answer) (cwd : Path) (s : String) : Except IoError (Path × Node) :=
  a.files.find? cwd (Octets.toText s)

def baseName (s : String) : String :=
  match (s.splitOn "/").reverse.filter fun c => c != "" with
  | c :: _ => c
  | [] => if s == "" then "" else "/"

/-- A written path without its last component. -/
def dirName (s : String) : String :=
  let cs := s.toList.reverse.dropWhile fun c => c == '/'
  if cs.isEmpty then (if s == "" then "." else "/")
  else
    let rest := cs.dropWhile fun c => c != '/'
    if rest.isEmpty then "."
    else
      let dir := rest.dropWhile fun c => c == '/'
      if dir.isEmpty then "/" else String.ofList dir.reverse

/-- A name without an ending that it has and is not all of. -/
def withoutEnding (name ending : String) : String :=
  let (n, e) := (name.toList, ending.toList)
  if e.length < n.length && e.isSuffixOf n then String.ofList (n.take (n.length - e.length))
  else name

def shownNames (args : Arguments) (names : List String) : List String :=
  let names := if args.has 'a' then "." :: ".." :: names
    else if args.has 'A' then names
    else names.filter fun n => n.toList.head? != some '.'
  if args.has 'r' then names.reverse else names

/-- Names one a line, or in one line on a terminal. -/
def layOut (toTerminal : Bool) (args : Arguments) (names : List String) : String :=
  if names.isEmpty then ""
  else if toTerminal && !args.has '1' then "  ".intercalate names ++ "\n"
  else String.join (names.map (· ++ "\n"))

def list (cwd : Path) (toTerminal : Bool) (args : Arguments) (a : Answer) : Answer :=
  let operands := if args.operands.isEmpty then ["."] else args.operands
  let found := operands.map fun o => (o, node? a cwd o)
  let a := found.foldl (fun a f => match f.2 with
    | .error e =>
      { a.complain "ls" s!"cannot access '{f.1}': {e.words}" with status := 2 }
    | .ok _ => a) a
  let plain := found.filterMap fun f => match f.2 with
    | .ok (_, n) => if n == .directory && !args.has 'd' then none else some f.1
    | .error _ => none
  let dirs := found.filterMap fun f => match f.2 with
    | .ok (p, .directory) => if args.has 'd' then none else some (f.1, p)
    | _ => none
  let files := layOut toTerminal args (plain.mergeSort fun x y => decide (x ≤ y))
  let blocks := (dirs.mergeSort fun x y => decide (x.1 ≤ y.1)).map fun d =>
    let names := (a.files.list d.2).map Octets.ofText
    (if operands.length > 1 then d.1 ++ ":\n" else "")
      ++ layOut toTerminal args (shownNames args names)
  { a with out := a.out ++ "\n".intercalate ((if files == "" then [] else [files]) ++ blocks) }

/-- Makes one directory, or all that are missing on the way to it. -/
def makeDirectory (cwd : Path) (parents : Bool) (a : Answer) (name : String) : Answer :=
  let refused (e : IoError) := a.complain "mkdir" s!"cannot create directory '{name}': {e.words}"
  let text := Octets.toText name
  if parents then
    let base := if Path.isAbsolute text then [] else cwd
    match a.files.makeDirectories? base (Path.components text) with
    | .ok (files, _) => { a with files }
    | .error e => refused e
  else match place a cwd name with
    | .error e => refused e
    | .ok p => match a.files.makeDirectory? p with
      | .ok files => { a with files }
      | .error e => refused e

def removeDirectory (cwd : Path) (a : Answer) (name : String) : Answer :=
  let refused (e : IoError) := a.complain "rmdir" s!"failed to remove '{name}': {e.words}"
  match node? a cwd name with
  | .error e => refused e
  | .ok (p, .directory) =>
    if (a.files.list p).isEmpty then { a with files := a.files.remove p }
    else refused .directoryNotEmpty
  | .ok _ => refused .notDirectory

/-- Removes a file, or a directory with all that is below it. -/
def remove (cwd : Path) (args : Arguments) (a : Answer) (name : String) : Answer :=
  let deep := args.has 'r' || args.has 'R'
  match node? a cwd name with
  | .error e =>
    if args.has 'f' then a else a.complain "rm" s!"cannot remove '{name}': {e.words}"
  | .ok (p, .directory) =>
    if deep then { a with files := a.files.remove p }
    else a.complain "rm" s!"cannot remove '{name}': Is a directory"
  | .ok (p, _) => { a with files := a.files.remove p }

/-- Where a file goes that is moved or copied to `target`. -/
def destination (a : Answer) (cwd : Path) (source target : String) : Except IoError Path :=
  match node? a cwd target with
  | .ok (p, .directory) => .ok (p ++ [Octets.toText (baseName source)])
  | .ok (p, _) => .ok p
  | .error _ => place a cwd target

def copy (cwd : Path) (moves : Bool) (target : String) (a : Answer) (source : String) : Answer :=
  let tool := if moves then "mv" else "cp"
  match node? a cwd source with
  | .error e => a.complain tool s!"cannot stat '{source}': {e.words}"
  | .ok (p, n) =>
    if n == .directory && !moves then
      a.complain tool s!"-r not specified; omitting directory '{source}'"
    else match destination a cwd source target with
      | .error e => a.complain tool s!"cannot create regular file '{target}': {e.words}"
      | .ok q =>
        match a.files.checkWritable q with
        | .error e => a.complain tool s!"cannot create regular file '{target}': {e.words}"
        | .ok _ =>
          if moves then
            let inside := a.files.nodes.filter fun m => p.isPrefixOf m.1 && m.1 != p
            let files := (a.files.remove p).put q n
            { a with files :=
              inside.foldl (fun fs m => fs.put (q ++ m.1.drop p.length) m.2) files }
          else { a with files := a.files.put q n }

/-- Changes whether a file may be run. -/
def changeMode (cwd : Path) (mode : String) (a : Answer) (name : String) : Answer :=
  match node? a cwd name with
  | .error e => a.complain "chmod" s!"cannot access '{name}': {e.words}"
  | .ok (p, .file content executable) =>
    let cs := mode.toList
    let executable :=
      if !cs.isEmpty && cs.all Char.isDigit then
        (cs.reverse.take 3).any fun d => (d.toNat - 48) % 2 == 1
      else if cs.contains 'x' then !cs.contains '-'
      else if cs.contains '=' then false
      else executable
    { a with files := a.files.put p (.file content executable) }
  | .ok _ => a

def touch (cwd : Path) (a : Answer) (name : String) : Answer :=
  let refused (e : IoError) := a.complain "touch" s!"cannot touch '{name}': {e.words}"
  match place a cwd name with
  | .error e => refused e
  | .ok p =>
    if (a.files.node? p).isSome then a
    else match a.files.write? p [] with
      | .ok files => { a with files }
      | .error e => refused e

/-- Reads a whole number that may have a sign. -/
def integer? (s : String) : Option Int :=
  match s.toList with
  | '-' :: ds => (number? (String.ofList ds)).map fun n => -(Int.ofNat n)
  | _ => (number? s).map Int.ofNat

def sequence (a step b : Int) : List Int :=
  let count := if step > 0 then (if b < a then 0 else ((b - a) / step + 1).toNat)
    else if step < 0 then (if b > a then 0 else ((a - b) / (-step) + 1).toNat)
    else 0
  (List.range count).map fun i => a + step * Int.ofNat i

/-- Runs a tool that answers at once; `none` if it is none of them. -/
def run? (files : Files) (cwd : Path) (isTerminal : Nat → Bool) (tool : String)
    (args : List String) : Option Answer :=
  let a : Answer := { files }
  let opts := Arguments.read "" args
  let missing := some (a.complain tool s!"missing operand\nTry '{tool} --help' for more information.")
  match tool with
  | "true" => some a
  | "false" => some { a with status := 1 }
  | "echo" => some { a with out := Shell.Format.echo args }
  | "printf" =>
    match args with
    | [] => missing
    | format :: rest =>
      let (out, complaints, status) := Shell.Format.printf format rest
      some { complaints.foldl (fun a c => a.complain tool c) { a with out } with status }
  | "pwd" => some { a with out := Octets.ofText (Path.text cwd) ++ "\n" }
  | "test" | "[" =>
    let args := if tool == "[" then args.dropLast else args
    match Shell.Condition.holds ⟨files, cwd, isTerminal⟩ args with
    | .ok r => some { a with status := if r then 0 else 1 }
    | .error e => some { a.complain tool e with status := 2 }
  | "basename" =>
    match opts.operands with
    | [] => missing
    | [s] => some { a with out := baseName s ++ "\n" }
    | s :: ending :: _ => some { a with out := withoutEnding (baseName s) ending ++ "\n" }
  | "dirname" =>
    if args.isEmpty then missing
    else some { a with out := String.join (args.map fun s => dirName s ++ "\n") }
  | "ls" => some (list cwd (isTerminal 1) opts a)
  | "mkdir" =>
    let opts := Arguments.read "m" args
    if opts.operands.isEmpty then missing
    else some (opts.operands.foldl (makeDirectory cwd (opts.has 'p')) a)
  | "rmdir" =>
    if opts.operands.isEmpty then missing else some (opts.operands.foldl (removeDirectory cwd) a)
  | "rm" =>
    if opts.operands.isEmpty then (if opts.has 'f' then some a else missing)
    else some (opts.operands.foldl (remove cwd opts) a)
  | "cp" | "mv" =>
    match opts.operands.reverse with
    | target :: s :: rest =>
      some ((s :: rest).reverse.foldl (copy cwd (tool == "mv") target) a)
    | _ => some (a.complain tool "missing file operand")
  | "chmod" =>
    match args with
    | mode :: name :: rest => some ((name :: rest).foldl (changeMode cwd mode) a)
    | _ => missing
  | "touch" => if opts.operands.isEmpty then missing else some (opts.operands.foldl (touch cwd) a)
  | "seq" =>
    let isNumber (w : String) : Bool := (integer? w).isSome
    let opts := Arguments.read "sf" (args.filter fun w => !isNumber w)
    let numbers := (args.filter isNumber).map integer?
    let separator := (opts.value? 's').getD "\n"
    let show_ (ns : List Int) : Option Answer :=
      some { a with out := if ns.isEmpty then "" else
        separator.intercalate (ns.map toString) ++ "\n" }
    match numbers with
    | [some b] => show_ (sequence 1 1 b)
    | [some a, some b] => show_ (sequence a 1 b)
    | [some a, some s, some b] => show_ (sequence a s b)
    | _ => missing
  | _ => none

end FileCommand

end SessionHost.Tools
