import SessionHost.Host.Terminal
import SessionHost.Text.Digits

/-!
# Turning the modes of a terminal

Each word turns one mode on, or off with a dash in front of it; some words turn several. A listing
shows all modes in groups, broken into lines at the width of the terminal.

* `TerminalCommand.run` applies the words to a terminal;
* `TerminalCommand.listing` shows its modes, and `TerminalCommand.differences` the unusual ones.
-/
namespace SessionHost.Tools.TerminalCommand

open SessionHost.Host (Terminal TerminalModes)

/-- Turns one mode; `none` if there is none of that name. Modes that nothing depends on are known and
stay as they are. -/
def turn? (m : TerminalModes) (on : Bool) (name : String) : Option TerminalModes :=
  match name with
  | "icanon" => some { m with lineMode := on }
  | "cbreak" => some { m with lineMode := !on }
  | "echo" => some { m with echo := on }
  | "isig" => some { m with signals := on }
  | "icrnl" => some { m with returnToNewline := on }
  | "opost" => some { m with processOutput := on }
  | "onlcr" => some { m with newlineToReturn := on }
  | "echoctl" | "ctlecho" => some { m with echoControl := on }
  | "ixon" => some { m with flowControl := on }
  | "nl" => some { m with returnToNewline := !on, newlineToReturn := !on }
  | "raw" =>
    some { m with lineMode := !on, signals := !on, returnToNewline := !on, processOutput := !on
                  flowControl := !on }
  | "cooked" =>
    some { m with lineMode := on, signals := on, returnToNewline := on, processOutput := on
                  flowControl := on }
  | "sane" => if on then some { lineMode := true } else none
  | _ =>
    if ["parenb", "parodd", "cmspar", "cs8", "hupcl", "cstopb", "cread", "clocal", "crtscts",
        "ignbrk", "brkint", "ignpar", "parmrk", "inpck", "istrip", "inlcr", "igncr", "ixoff",
        "iuclc", "ixany", "imaxbel", "iutf8", "olcuc", "ocrnl", "onocr", "onlret", "ofill", "ofdel",
        "iexten", "echoe", "echok", "echonl", "noflsh", "xcase", "tostop", "echoprt", "echoke",
        "flusho", "extproc", "crterase", "crtkill", "prterase", "evenp", "pass8",
        "litout"].contains name
    then some m else none

/-- Words broken into lines of at most `width` characters. -/
def wrapped (width : Nat) (words : List String) : String :=
  let (out, _) := words.foldl (fun (out, column) w =>
    if column = 0 then (out ++ w, w.length)
    else if width - column ≤ w.length then (out ++ "\n" ++ w, w.length)
    else (out ++ " " ++ w, column + 1 + w.length)) ("", 0)
  out ++ "\n"

def shown (on : Bool) (name : String) : String := if on then name else "-" ++ name

def listing (t : Terminal) (width : Nat) : String :=
  let m := t.modes
  let least := if m.lineMode then [] else ["min = 1;", "time = 0;"]
  wrapped width ["speed 38400 baud;", s!"rows {t.rows};", s!"columns {t.columns};", "line = 0;"]
    ++ wrapped width (["intr = ^C;", "quit = ^\\;", "erase = ^?;", "kill = ^U;", "eof = ^D;",
      "eol = <undef>;", "eol2 = <undef>;", "swtch = <undef>;", "start = ^Q;", "stop = ^S;",
      "susp = ^Z;", "rprnt = ^R;", "werase = ^W;", "lnext = ^V;", "discard = ^O;"] ++ least)
    ++ wrapped width ["-parenb", "-parodd", "-cmspar", "cs8", "-hupcl", "-cstopb", "cread",
      "-clocal", "-crtscts"]
    ++ wrapped width (["-ignbrk", "-brkint", "-ignpar", "-parmrk", "-inpck", "-istrip", "-inlcr",
      "-igncr"] ++ [shown m.returnToNewline "icrnl", shown m.flowControl "ixon"] ++ ["-ixoff",
      "-iuclc", "-ixany", "-imaxbel", "-iutf8"])
    ++ wrapped width ([shown m.processOutput "opost"] ++ ["-olcuc", "-ocrnl"]
      ++ [shown m.newlineToReturn "onlcr"] ++ ["-onocr", "-onlret", "-ofill", "-ofdel", "nl0", "cr0",
      "tab0", "bs0", "vt0", "ff0"])
    ++ wrapped width ([shown m.signals "isig", shown m.lineMode "icanon"] ++ ["iexten"]
      ++ [shown m.echo "echo"] ++ ["echoe", "echok", "-echonl", "-noflsh", "-xcase", "-tostop",
      "-echoprt"] ++ [shown m.echoControl "echoctl"] ++ ["echoke", "-flusho", "-extproc"])

/-- The modes of a terminal that differ from what is usual. -/
def differences (t : Terminal) (width : Nat) : String :=
  let m := t.modes
  let missing (usual : Bool) (name : String) : List String := if usual then [] else ["-" ++ name]
  let group (words : List String) : String := if words.isEmpty then "" else wrapped width words
  let least := if m.lineMode then [] else ["min = 1;", "time = 0;"]
  wrapped width ["speed 38400 baud;", "line = 0;"] ++ group least
    ++ group (["-brkint"] ++ missing m.returnToNewline "icrnl" ++ missing m.flowControl "ixon"
      ++ ["-imaxbel"])
    ++ group (missing m.processOutput "opost" ++ missing m.newlineToReturn "onlcr")
    ++ group (missing m.signals "isig" ++ missing m.lineMode "icanon" ++ missing m.echo "echo"
      ++ missing m.echoControl "echoctl")

/-- What the words did: the terminal, output, and the word that means nothing. -/
structure Answer where
  terminal : Terminal
  out : String := ""
  unknown : Option String := none

/-- Applies the words to a terminal. `width` is the width of what the output goes to. -/
def run (width : Nat) (a : Answer) : List String → Answer
  | [] => a
  | "size" :: rest =>
    run width { a with out := a.out ++ s!"{a.terminal.rows} {a.terminal.columns}\n" } rest
  | "-a" :: rest => run width { a with out := a.out ++ listing a.terminal width } rest
  | "rows" :: n :: rest => run width (setSize true n) rest
  | "cols" :: n :: rest => run width (setSize false n) rest
  | "columns" :: n :: rest => run width (setSize false n) rest
  | "min" :: _ :: rest => run width a rest
  | "time" :: _ :: rest => run width a rest
  | w :: rest =>
    let (on, name) := match w.toList with
      | '-' :: cs => (false, String.ofList cs)
      | _ => (true, w)
    match turn? a.terminal.modes on name with
    | some modes => run width { a with terminal := { a.terminal with modes } } rest
    | none => { a with unknown := some w }
where
  /-- The terminal with another number of rows or columns. -/
  setSize (rows : Bool) (n : String) : Answer :=
    let n := Text.natOfDigits n.toList
    { a with terminal :=
      if rows then { a.terminal with rows := n } else { a.terminal with columns := n } }

end SessionHost.Tools.TerminalCommand
