import SessionHost.Shell.Command
import SessionHost.Text.Digits

/-!
# Reading scripts

A script is read one complete line of commands at a time, since a later line that cannot be read
does not keep the earlier ones from running. The reader works on the characters themselves and knows
the number of the line that it stands on. Its recursion goes over `fuel`, which starts well above
the number of characters.

* `Shell.readCommand` reads the next complete command;
* `Shell.readWord` reads a text as one word in double quotes, for here-documents and operands.
-/
namespace SessionHost.Shell

inductive SyntaxFault where
  | unterminatedQuote
  | unexpectedEnd (expecting : String)
  | unexpected (token : String) (expecting : String)
  | badSubstitution
  | missingBrace
  | badName (name : String)
  deriving DecidableEq, Repr

def SyntaxFault.message : SyntaxFault → String
  | unterminatedQuote => "Syntax error: Unterminated quoted string"
  | unexpectedEnd expecting =>
    if expecting == "" then "Syntax error: end of file unexpected"
    else s!"Syntax error: end of file unexpected (expecting \"{expecting}\")"
  | unexpected token expecting =>
    let shown := if token == "newline" || token == "word" then s!"{token} unexpected"
      else s!"\"{token}\" unexpected"
    if expecting == "" then "Syntax error: " ++ shown
    else "Syntax error: " ++ shown ++ s!" (expecting \"{expecting}\")"
  | badSubstitution => "Bad substitution"
  | missingBrace => "Syntax error: Missing '\x7d'"
  | badName name => s!"Syntax error: Bad function name: {name}"

structure Source where
  chars : List Char
  line : Nat := 1
  deriving Repr

abbrev Reader (α : Type) := Source → Except SyntaxFault (α × Source)

/-- The source behind `cs`, a piece at its front. -/
def Source.pass (s : Source) (cs : List Char) : Source :=
  { chars := s.chars.drop cs.length, line := s.line + cs.count '\n' }

/-! ## Characters -/

def isNameStart (c : Char) : Bool := c.isAlpha || c == '_'

def isNameChar (c : Char) : Bool := c.isAlphanum || c == '_'

def isName (cs : List Char) : Bool :=
  match cs with
  | c :: rest => isNameStart c && rest.all isNameChar
  | [] => false

/-- Characters that end a word. -/
def isMeta (c : Char) : Bool :=
  c == ' ' || c == '\t' || c == '\n' || c == ';' || c == '&' || c == '|' || c == '<' || c == '>'
    || c == '(' || c == ')'

/-- Passes blanks and joined lines. -/
def skipBlanks (line : Nat) : List Char → Source
  | ' ' :: rest => skipBlanks line rest
  | '\t' :: rest => skipBlanks line rest
  | '\\' :: '\n' :: rest => skipBlanks (line + 1) rest
  | cs => { chars := cs, line }

/-- Passes blanks, joined lines and a comment. -/
def Source.skip (s : Source) : Source :=
  let s := skipBlanks s.line s.chars
  match s.chars with
  | '#' :: rest => { s with chars := rest.dropWhile fun c => c != '\n' }
  | _ => s

/-- Passes blanks, comments and line ends. -/
def Source.skipLines (fuel : Nat) (s : Source) : Source :=
  match fuel with
  | 0 => s
  | fuel + 1 =>
    let s := s.skip
    match s.chars with
    | '\n' :: rest => Source.skipLines fuel { chars := rest, line := s.line + 1 }
    | _ => s

/-! ## Inner scripts, operands and expressions -/

/-- What encloses the text that is being passed over. -/
inductive Enclosure where
  | paren
  | brace
  | single
  | double
  | backquote
  deriving DecidableEq, Repr

/-- What the character before says about the next one. -/
inductive Before where
  | nothing
  | backslash
  | dollar
  deriving DecidableEq, Repr

/-- The enclosures behind a character, of which the first is innermost. -/
def Enclosure.behind (before : Before) (stack : List Enclosure) (c : Char) : List Enclosure :=
  match stack with
  | .single :: outer => if c == '\'' then outer else stack
  | _ =>
    if before = .dollar ∧ c = '(' then .paren :: stack
    else if before = .dollar ∧ c = '\x7b' then .brace :: stack
    else match c, stack with
      | '"', .double :: outer => outer
      | '"', _ => .double :: stack
      | '\'', .double :: _ => stack
      | '\'', _ => .single :: stack
      | '\x60', .backquote :: outer => outer
      | '\x60', _ => .backquote :: stack
      | ')', .paren :: outer => outer
      | '(', .paren :: _ => .paren :: stack
      | '\x7d', .brace :: outer => outer
      | _, _ => stack

/-- What a character says about the next one. -/
def Before.ofChar (stack : List Enclosure) (c : Char) : Before :=
  match stack with
  | .single :: _ => .nothing
  | _ => if c == '\\' then .backslash else if c == '$' then .dollar else .nothing

/-- The characters up to the end of the outermost enclosure of `stack`, and the rest behind it.
Quotes and inner enclosures are passed over whole. `done` is kept in reverse. -/
def enclosed (stack : List Enclosure) (before : Before) (done : List Char) :
    List Char → Option (List Char × List Char)
  | [] => none
  | c :: rest =>
    if before = .backslash then enclosed stack .nothing (c :: done) rest
    else
      let outer := Enclosure.behind before stack c
      if outer.isEmpty then some (done.reverse, rest)
      else enclosed outer (Before.ofChar stack c) (c :: done) rest

/-- The text of an arithmetic expression, from behind `$((`; `none` if it is an inner script. -/
def expression? (cs : List Char) : Option (List Char × List Char) :=
  match enclosed [.paren] .nothing [] cs with
  | some (inner, ')' :: rest) => some (inner, rest)
  | _ => none

/-- Takes the backslashes away that a script in backquotes needs. -/
def unescapeBackquoted : List Char → List Char
  | '\\' :: c :: rest =>
    if c == '\\' || c == '\x60' || c == '$' then c :: unescapeBackquoted rest
    else '\\' :: c :: unescapeBackquoted rest
  | c :: rest => c :: unescapeBackquoted rest
  | [] => []

/-- Parameters that are named by one character which is no letter. -/
def isSpecial (c : Char) : Bool :=
  c == '@' || c == '*' || c == '#' || c == '?' || c == '-' || c == '$' || c == '!' || c.isDigit

/-- The operator at the front of the rest of a braced parameter, and its operand. -/
def operator? : List Char → Option (ParamOp × List Char)
  | [] => some (.value, [])
  | ':' :: '-' :: w => some (.orElse true, w)
  | ':' :: '=' :: w => some (.assign true, w)
  | ':' :: '?' :: w => some (.demand true, w)
  | ':' :: '+' :: w => some (.whenSet true, w)
  | '-' :: w => some (.orElse false, w)
  | '=' :: w => some (.assign false, w)
  | '?' :: w => some (.demand false, w)
  | '+' :: w => some (.whenSet false, w)
  | '%' :: '%' :: w => some (.dropSuffix true, w)
  | '%' :: w => some (.dropSuffix false, w)
  | '#' :: '#' :: w => some (.dropFront true, w)
  | '#' :: w => some (.dropFront false, w)
  | _ => none

/-- Splits a parameter name off the front. -/
def paramName (cs : List Char) : List Char × List Char :=
  match cs with
  | c :: rest =>
    if isNameStart c then (cs.takeWhile isNameChar, cs.dropWhile isNameChar)
    else if c.isDigit then (cs.takeWhile Char.isDigit, cs.dropWhile Char.isDigit)
    else if isSpecial c then ([c], rest)
    else ([], cs)
  | [] => ([], [])

/-- A parameter from the inside of its braces. -/
def bracedParam? (quoted : Bool) (inner : List Char) : Option Part :=
  let lengthOf : Option Part :=
    match inner with
    | '#' :: rest =>
      let (name, after) := paramName rest
      if !name.isEmpty && after.isEmpty then
        some (.param (String.ofList name) .length "" quoted)
      else none
    | _ => none
  match lengthOf with
  | some p => some p
  | none =>
    let (name, after) := paramName inner
    if name.isEmpty then none
    else (operator? after).map fun (op, operand) =>
      .param (String.ofList name) op (String.ofList operand) quoted

/-- Reads what follows a dollar sign. A dollar sign that nothing follows stands for itself. -/
def dollar (quoted : Bool) (cs : List Char) : Except SyntaxFault (Part × List Char) :=
  match cs with
  | '(' :: '(' :: rest =>
    match expression? rest with
    | some (inner, rest) => .ok (.arith (String.ofList inner) quoted, rest)
    | none =>
      match enclosed [.paren] .nothing [] ('(' :: rest) with
      | some (inner, rest) => .ok (.script (String.ofList inner) quoted, rest)
      | none => .error (.unexpectedEnd ")")
  | '(' :: rest =>
    match enclosed [.paren] .nothing [] rest with
    | some (inner, rest) => .ok (.script (String.ofList inner) quoted, rest)
    | none => .error (.unexpectedEnd ")")
  | '\x7b' :: rest =>
    match enclosed [.brace] .nothing [] rest with
    | some (inner, rest) =>
      match bracedParam? quoted inner with
      | some p => .ok (p, rest)
      | none => .error .badSubstitution
    | none => .error .missingBrace
  | c :: rest =>
    if isNameStart c then
      .ok (.param (String.ofList (cs.takeWhile isNameChar)) .value "" quoted,
        cs.dropWhile isNameChar)
    else if isSpecial c then .ok (.param (String.singleton c) .value "" quoted, rest)
    else .ok (if quoted then .quoted "$" else .plain "$", cs)
  | [] => .ok (if quoted then .quoted "$" else .plain "$", [])

/-- Reads a script in backquotes from behind the first of them. -/
def backquoted (quoted : Bool) (cs : List Char) : Except SyntaxFault (Part × List Char) :=
  match enclosed [.backquote] .nothing [] cs with
  | some (inner, rest) => .ok (.script (String.ofList (unescapeBackquoted inner)) quoted, rest)
  | none => .error (.unexpectedEnd "`")

/-! ## Words -/

/-- Adds a literal run, kept in reverse, to parts kept in reverse. -/
def addRun (quoted : Bool) (run : List Char) (parts : List Part) : List Part :=
  if run.isEmpty then parts
  else (if quoted then .quoted (String.ofList run.reverse) else .plain (String.ofList run.reverse))
    :: parts

/-- Reads text in double quotes, up to the closing quote or, if `toEnd`, up to the end. `escapes`
are the characters that a backslash takes the meaning from. -/
def doubleQuoted (toEnd : Bool) (fuel : Nat) (run : List Char) (parts : List Part) (cs : List Char) :
    Except SyntaxFault (List Part × List Char) :=
  match fuel, cs with
  | 0, _ => .error .unterminatedQuote
  | _, [] => if toEnd then .ok (addRun true run parts, []) else .error .unterminatedQuote
  | fuel + 1, c :: rest =>
    if c == '"' && !toEnd then .ok (addRun true run parts, rest)
    else if c == '\\' then
      match rest with
      | '\n' :: rest => doubleQuoted toEnd fuel run parts rest
      | d :: rest' =>
        if d == '$' || d == '\x60' || d == '\\' || (d == '"' && !toEnd) then
          doubleQuoted toEnd fuel (d :: run) parts rest'
        else doubleQuoted toEnd fuel ('\\' :: run) parts rest
      | [] => doubleQuoted toEnd fuel ('\\' :: run) parts rest
    else if c == '$' then
      match dollar true rest with
      | .ok (p, rest) => doubleQuoted toEnd fuel [] (p :: addRun true run parts) rest
      | .error e => .error e
    else if c == '\x60' then
      match backquoted true rest with
      | .ok (p, rest) => doubleQuoted toEnd fuel [] (p :: addRun true run parts) rest
      | .error e => .error e
    else doubleQuoted toEnd fuel (c :: run) parts rest

/-- Reads a word up to a character that ends it. -/
def wordFrom (stops : Char → Bool) (fuel : Nat) (run : List Char) (parts : List Part)
    (cs : List Char) : Except SyntaxFault (List Part × List Char) :=
  match fuel, cs with
  | 0, _ => .error .unterminatedQuote
  | _, [] => .ok ((addRun false run parts).reverse, [])
  | fuel + 1, c :: rest =>
    if stops c then .ok ((addRun false run parts).reverse, cs)
    else if c == '\\' then
      match rest with
      | '\n' :: rest => wordFrom stops fuel run parts rest
      | d :: rest =>
        wordFrom stops fuel [] (.quoted (String.singleton d) :: addRun false run parts) rest
      | [] => wordFrom stops fuel [] (.quoted "\\" :: addRun false run parts) []
    else if c == '\'' then
      let inner := rest.takeWhile fun d => d != '\''
      match rest.drop inner.length with
      | _ :: rest =>
        wordFrom stops fuel [] (.quoted (String.ofList inner) :: addRun false run parts) rest
      | [] => .error .unterminatedQuote
    else if c == '"' then
      match doubleQuoted false fuel [] [] rest with
      | .ok (inner, rest) =>
        let inner := if inner.isEmpty then [.quoted ""] else inner
        wordFrom stops fuel [] (inner ++ addRun false run parts) rest
      | .error e => .error e
    else if c == '$' then
      match dollar false rest with
      | .ok (.plain s, rest) => wordFrom stops fuel (s.toList.reverse ++ run) parts rest
      | .ok (p, rest) => wordFrom stops fuel [] (p :: addRun false run parts) rest
      | .error e => .error e
    else if c == '\x60' then
      match backquoted false rest with
      | .ok (p, rest) => wordFrom stops fuel [] (p :: addRun false run parts) rest
      | .error e => .error e
    else wordFrom stops fuel (c :: run) parts rest

def word : Reader Word := fun s => do
  let (parts, rest) ← wordFrom isMeta (s.chars.length + 1) [] [] s.chars
  let passed := s.chars.take (s.chars.length - rest.length)
  return (parts, { chars := rest, line := s.line + passed.count '\n' })

/-- Reads the whole of a text as a word without ends. -/
def readWord (s : String) : Except SyntaxFault Word := do
  let cs := s.toList
  let (parts, _) ← wordFrom (fun _ => false) (cs.length + 1) [] [] cs
  return parts

/-- Reads the whole of a text as if it stood in double quotes. -/
def readQuoted (s : String) : Except SyntaxFault Word := do
  let cs := s.toList
  let (parts, _) ← doubleQuoted true (cs.length + 1) [] [] cs
  return parts.reverse

/-- The text of a word that is all literal, if it is, and whether any of it is quoted. -/
def literal? (w : Word) : Option (String × Bool) :=
  w.foldl (fun r p => match r, p with
    | some (s, q), .plain t => some (s ++ t, q)
    | some (s, _), .quoted t => some (s ++ t, true)
    | _, _ => none) (some ("", false))

/-! ## Redirections -/

/-- Takes the lines of a here-document out of the text behind the current line, up to a line that is
`delimiter`. Gives the body and what is left: the current line, and the text behind the document. -/
def hereBody (delimiter : List Char) (strip : Bool) (cs : List Char) :
    List Char × Nat × List Char :=
  let current := cs.takeWhile fun c => c != '\n'
  let rest := cs.drop (current.length + 1)
  let (body, lines, rest) := take [] 0 (rest.length + 1) rest
  (body, lines, current ++ (if current.length < cs.length then '\n' :: rest else rest))
where
  /-- Collects lines; `body` is kept in reverse. -/
  take (body : List Char) (lines : Nat) (fuel : Nat) (cs : List Char) :
      List Char × Nat × List Char :=
    match fuel with
    | 0 => (body.reverse, lines, cs)
    | fuel + 1 =>
      if cs.isEmpty then (body.reverse, lines, [])
      else
        let full := cs.takeWhile fun c => c != '\n'
        let rest := cs.drop (full.length + 1)
        let line := if strip then full.dropWhile fun c => c == '\t' else full
        if line == delimiter then (body.reverse, lines + 1, rest)
        else take ('\n' :: (line.reverse ++ body)) (lines + 1) fuel rest

/-- Reads a redirection from its arrow on. -/
def redirection (descriptor : Option Nat) : Reader Redir := fun s => do
  let target (s : Source) (make : Word → RedirTarget) (default : Nat) :
      Except SyntaxFault (Redir × Source) := do
    let s := skipBlanks s.line s.chars
    let (w, s) ← word s
    if w.isEmpty then
      match s.chars with
      | [] => .error (.unexpectedEnd "")
      | '\n' :: _ => .error (.unexpected "newline" "")
      | c :: _ => .error (.unexpected (String.singleton c) "")
    else return (⟨descriptor.getD default, make w⟩, s)
  match s.chars with
  | '<' :: '<' :: rest =>
    let (strip, rest) := match rest with
      | '-' :: rest => (true, rest)
      | _ => (false, rest)
    let s := skipBlanks s.line rest
    let (w, s) ← word s
    match literal? w with
    | some (delimiter, quoted) =>
      let (body, _, rest) := hereBody delimiter.toList strip s.chars
      return (⟨descriptor.getD 0, .here (String.ofList body) (!quoted)⟩,
        { chars := rest, line := s.line })
    | none => .error .badSubstitution
  | '<' :: '&' :: rest => target { s with chars := rest } .same 0
  | '<' :: '>' :: rest => target { s with chars := rest } .readWrite 0
  | '<' :: rest => target { s with chars := rest } .read 0
  | '>' :: '>' :: rest => target { s with chars := rest } .append 1
  | '>' :: '&' :: rest => target { s with chars := rest } .same 1
  | '>' :: '|' :: rest => target { s with chars := rest } .write 1
  | '>' :: rest => target { s with chars := rest } .write 1
  | _ => .error (.unexpectedEnd "")

/-- Whether a redirection starts here: an arrow, or digits directly before one. -/
def startsRedirection (cs : List Char) : Bool :=
  match cs.dropWhile Char.isDigit with
  | '<' :: _ => true
  | '>' :: _ => true
  | _ => false

/-- Reads a redirection with the descriptor in front of it. -/
def redir : Reader Redir := fun s =>
  let digits := s.chars.takeWhile Char.isDigit
  let descriptor := if digits.isEmpty then none
    else some (Text.natOfDigits digits)
  redirection descriptor { s with chars := s.chars.drop digits.length }

/-- Reads redirections as long as some follow. -/
def redirs (fuel : Nat) : Reader (List Redir) := fun s =>
  match fuel with
  | 0 => .ok ([], s)
  | fuel + 1 =>
    let t := skipBlanks s.line s.chars
    if startsRedirection t.chars then do
      let (r, s) ← redir t
      let (rs, s) ← redirs fuel s
      return (r :: rs, s)
    else .ok ([], s)

/-! ## Commands -/

/-- Words that have a meaning of their own at the start of a command. -/
def reservedWords : List String :=
  ["!", "\x7b", "\x7d", "case", "do", "done", "elif", "else", "esac", "fi", "for", "if", "in", "then",
   "until", "while"]

/-- The characters of the next word, as they stand. -/
def peekWord (s : Source) : String := String.ofList (s.chars.takeWhile fun c => !isMeta c)

def peekToken (s : Source) : String :=
  match s.chars with
  | [] => ""
  | '\n' :: _ => "newline"
  | ';' :: ';' :: _ => ";;"
  | '&' :: '&' :: _ => "&&"
  | '|' :: '|' :: _ => "||"
  | c :: _ =>
    if isMeta c then String.singleton c
    else
      let w := peekWord s
      if reservedWords.contains w then w else "word"

/-- The fault of finding something else than `expecting`. -/
def unexpected {α : Type} (s : Source) (expecting : String) : Except SyntaxFault α :=
  if s.chars.isEmpty then .error (.unexpectedEnd expecting)
  else .error (.unexpected (peekToken s) expecting)

/-- Passes a reserved word, lines before it included. -/
def expectWord (w : String) : Reader Unit := fun s =>
  let s := s.skipLines (s.chars.length + 1)
  if peekWord s == w then .ok ((), s.pass w.toList) else unexpected s w

/-- Splits an assignment off the front of a word. -/
def assignment? (w : Word) : Option (String × Word) :=
  match w with
  | .plain s :: rest =>
    let cs := s.toList
    let name := cs.takeWhile fun c => c != '='
    if isName name && name.length < cs.length then
      let value := cs.drop (name.length + 1)
      some (String.ofList name,
        if value.isEmpty then rest else .plain (String.ofList value) :: rest)
    else none
  | _ => none

def simpleFrom (fuel : Nat) (c : Simple) : Reader Simple := fun s =>
  match fuel with
  | 0 => .ok (c, s)
  | fuel + 1 =>
    let s := s.skip
    if startsRedirection s.chars then do
      let (r, s) ← redir s
      simpleFrom fuel { c with redirs := c.redirs ++ [r] } s
    else
      match s.chars with
      | [] => .ok (c, s)
      | ch :: _ =>
        if isMeta ch then .ok (c, s)
        else do
          let (w, s) ← word s
          match (if c.words.isEmpty then assignment? w else none) with
          | some a => simpleFrom fuel { c with assigns := c.assigns ++ [a] } s
          | none => simpleFrom fuel { c with words := c.words ++ [w] } s

/-- Reads the words of a loop, up to the end of the line. -/
def wordsFrom (fuel : Nat) (done : List Word) : Reader (List Word) := fun s =>
  match fuel with
  | 0 => .ok (done.reverse, s)
  | fuel + 1 =>
    let s := s.skip
    match s.chars with
    | c :: _ =>
      if isMeta c then .ok (done.reverse, s)
      else do
        let (w, s) ← word s
        wordsFrom fuel (w :: done) s
    | [] => .ok (done.reverse, s)

/-- Reads the patterns of an arm, with bars between them, and the bracket behind them. -/
def patternsFrom (fuel : Nat) (done : List Word) : Reader (List Word) := fun s =>
  match fuel with
  | 0 => unexpected s ")"
  | fuel + 1 => do
    let (w, s) ← word s.skip
    let s := s.skip
    match s.chars with
    | '|' :: _ => patternsFrom fuel (w :: done) (s.pass ['|'])
    | ')' :: _ => .ok ((w :: done).reverse, s.pass [')'])
    | _ => unexpected s ")"

def atListEnd (s : Source) : Bool :=
  match s.chars with
  | [] => true
  | ')' :: _ => true
  | ';' :: ';' :: _ => true
  | _ => ["\x7d", "do", "done", "elif", "else", "esac", "fi", "then"].contains (peekWord s)

mutual

def commandFrom (fuel : Nat) : Reader Command := fun s =>
  match fuel with
  | 0 => unexpected s ""
  | fuel + 1 =>
    let s := s.skip
    match s.chars with
    | '(' :: _ => do
      let (c, s) ← listFrom fuel (s.pass ['('])
      let s := s.skipLines (s.chars.length + 1)
      match s.chars with
      | ')' :: _ => redirectedFrom (.subshell c) (s.pass [')'])
      | _ => unexpected s ")"
    | _ =>
      let w := peekWord s
      if w == "\x7b" then do
        let (c, s) ← listFrom fuel (s.pass w.toList)
        let (_, s) ← expectWord "\x7d" s
        redirectedFrom c s
      else if w == "if" then do
        let (c, s) ← branchFrom fuel (s.pass w.toList)
        redirectedFrom c s
      else if w == "while" || w == "until" then do
        let (condition, s) ← listFrom fuel (s.pass w.toList)
        let (_, s) ← expectWord "do" s
        let (body, s) ← listFrom fuel s
        let (_, s) ← expectWord "done" s
        redirectedFrom (.loop (w == "until") condition body) s
      else if w == "for" then do
        let s := (s.pass w.toList).skip
        let name := peekWord s
        if !isName name.toList then .error (.unexpected "word" "")
        else
          let s := (s.pass name.toList).skipLines (s.chars.length + 1)
          let (ws, s) ← (if peekWord s == "in" then do
              let (ws, s) ← wordsFrom (s.chars.length + 1) [] (s.pass "in".toList)
              return (some ws, s)
            else return (none, s) : Except SyntaxFault (Option (List Word) × Source))
          let s := s.skip
          let s := match s.chars with
            | ';' :: _ => s.pass [';']
            | _ => s
          let (_, s) ← expectWord "do" s
          let (body, s) ← listFrom fuel s
          let (_, s) ← expectWord "done" s
          redirectedFrom (.each name ws body) s
      else if w == "case" then do
        let (subject, s) ← word (s.pass w.toList).skip
        let (_, s) ← expectWord "in" s
        let (arms, s) ← armsFrom fuel s
        redirectedFrom (.choice subject arms) s
      else if ["do", "done", "elif", "else", "esac", "fi", "then", "\x7d"].contains w then
        unexpected s ""
      else do
        let line := s.line
        let (c, s') ← simpleFrom (s.chars.length + 1) { line } s
        match c.words, s'.chars with
        | [[.plain name]], '(' :: _ =>
          let s' := (s'.pass ['(']).skip
          match s'.chars with
          | ')' :: _ =>
            if !isName name.toList then .error (.badName name)
            else
              let s' := (s'.pass [')']).skipLines (s'.chars.length + 1)
              let (body, s') ← commandFrom fuel s'
              return (.define name body, s')
          | _ => unexpected s' ")"
        | _, _ =>
          if c.words.isEmpty && c.assigns.isEmpty && c.redirs.isEmpty then unexpected s' ""
          else return (.simple c, s')

/-- Reads what follows `if` or `elif`, the closing word included. -/
def branchFrom (fuel : Nat) : Reader Command := fun s =>
  match fuel with
  | 0 => unexpected s "then"
  | fuel + 1 => do
    let (condition, s) ← listFrom fuel s
    let (_, s) ← expectWord "then" s
    let (body, s) ← listFrom fuel s
    let s := s.skipLines (s.chars.length + 1)
    let w := peekWord s
    if w == "elif" then
      let (other, s) ← branchFrom fuel (s.pass w.toList)
      return (.branch condition body other, s)
    else if w == "else" then
      let (other, s) ← listFrom fuel (s.pass w.toList)
      let (_, s) ← expectWord "fi" s
      return (.branch condition body other, s)
    else
      let (_, s) ← expectWord "fi" s
      return (.branch condition body .nothing, s)

/-- Reads the arms of a choice, the closing word included. -/
def armsFrom (fuel : Nat) : Reader (List (List Word × Command)) := fun s =>
  match fuel with
  | 0 => unexpected s "esac"
  | fuel + 1 => do
    let s := s.skipLines (s.chars.length + 1)
    if peekWord s == "esac" then return ([], s.pass "esac".toList)
    else
      let s := match s.chars with
        | '(' :: _ => s.pass ['(']
        | _ => s
      let (patterns, s) ← patternsFrom (s.chars.length + 1) [] s
      let (body, s) ← listFrom fuel s
      let s := s.skipLines (s.chars.length + 1)
      match s.chars with
      | ';' :: ';' :: _ =>
        let (arms, s) ← armsFrom fuel (s.pass [';', ';'])
        return ((patterns, body) :: arms, s)
      | _ =>
        let (_, s) ← expectWord "esac" s
        return ([(patterns, body)], s)

/-- Reads the redirections behind a compound command. -/
def redirectedFrom (c : Command) : Reader Command := fun s => do
  let (rs, s) ← redirs (s.chars.length + 1) s
  return (if rs.isEmpty then c else .redirected c rs, s)

/-- Reads the stages of a pipeline behind the first. -/
def stagesFrom (fuel : Nat) (done : List Command) : Reader (List Command) := fun s =>
  match fuel with
  | 0 => .ok (done.reverse, s)
  | fuel + 1 =>
    let t := s.skip
    match t.chars with
    | '|' :: '|' :: _ => .ok (done.reverse, t)
    | '|' :: _ => do
      let t := (t.pass ['|']).skipLines (t.chars.length + 1)
      let (c, t) ← commandFrom fuel t
      stagesFrom fuel (c :: done) t
    | _ => .ok (done.reverse, t)

def pipelineFrom (fuel : Nat) : Reader Command := fun s =>
  match fuel with
  | 0 => unexpected s ""
  | fuel + 1 => do
    let s := s.skip
    if peekWord s == "!" then
      let (c, s) ← pipelineFrom fuel (s.pass ['!'])
      return (.negated c, s)
    else
      let (c, s) ← commandFrom fuel s
      let (stages, s) ← stagesFrom fuel [c] s
      match stages with
      | [c] => return (c, s)
      | cs => return (.pipeline cs, s)

/-- Reads what follows the first pipeline of a chain. -/
def chainFrom (fuel : Nat) (first : Command) : Reader Command := fun s =>
  match fuel with
  | 0 => .ok (first, s)
  | fuel + 1 =>
    let t := s.skip
    match t.chars with
    | '&' :: '&' :: _ => do
      let t := (t.pass ['&', '&']).skipLines (t.chars.length + 1)
      let (c, t) ← pipelineFrom fuel t
      chainFrom fuel (.both first c) t
    | '|' :: '|' :: _ => do
      let t := (t.pass ['|', '|']).skipLines (t.chars.length + 1)
      let (c, t) ← pipelineFrom fuel t
      chainFrom fuel (.either first c) t
    | _ => .ok (first, t)

/-- Reads a list of commands over several lines, up to a word or bracket that ends it. -/
def listFrom (fuel : Nat) : Reader Command := fun s =>
  match fuel with
  | 0 => unexpected s ""
  | fuel + 1 =>
    let s := s.skipLines (s.chars.length + 1)
    if atListEnd s then .ok (.nothing, s)
    else do
      let (c, s) ← pipelineFrom fuel s
      let (c, s) ← chainFrom fuel c s
      let s := s.skip
      match s.chars with
      | ';' :: ';' :: _ => return (c, s)
      | ';' :: _ => do
        let (rest, s) ← listFrom fuel (s.pass [';'])
        return (.seq c rest, s)
      | '&' :: _ => do
        let (rest, s) ← listFrom fuel (s.pass ['&'])
        return (.seq (.background c) rest, s)
      | '\n' :: _ => do
        let (rest, s) ← listFrom fuel s
        return (.seq c rest, s)
      | _ => return (c, s)

end

def lineFrom (fuel : Nat) : Reader Command := fun s =>
  match fuel with
  | 0 => unexpected s ""
  | fuel + 1 => do
    let (c, s) ← pipelineFrom fuel s
    let (c, s) ← chainFrom fuel c s
    let s := s.skip
    let more (c : Command) (s : Source) : Except SyntaxFault (Command × Source) := do
      let s := s.skip
      match s.chars with
      | [] => return (c, s)
      | '\n' :: _ => return (c, s.pass ['\n'])
      | _ => do
        let (rest, s) ← lineFrom fuel s
        return (.seq c rest, s)
    match s.chars with
    | [] => return (c, s)
    | '\n' :: _ => return (c, s.pass ['\n'])
    | ';' :: ';' :: _ => unexpected s ""
    | ';' :: _ => more c (s.pass [';'])
    | '&' :: _ => more (.background c) (s.pass ['&'])
    | _ => unexpected s ""

/-- Reads the next complete command; `none` at the end of the script. -/
def readCommand (s : Source) : Except SyntaxFault (Option (Command × Source)) :=
  let s := s.skipLines (s.chars.length + 1)
  if s.chars.isEmpty then .ok none
  else do
    let (c, s) ← lineFrom (4 * s.chars.length + 16) s
    return some (c, s)

end SessionHost.Shell
