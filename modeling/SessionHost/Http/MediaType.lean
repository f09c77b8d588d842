import SessionHost.Text.Blank

/-!
# Media types

A media type is a type and a subtype with a slash between them, and parameters behind semicolons. A
plus sign in the subtype sets its ending apart.

* `MediaType.parse` reads a media type;
* `MediaType.isJson` says whether a body of that type is JSON.
-/
namespace SessionHost

/-- A media type in lower case, without its parameters. -/
structure MediaType where
  type : String
  subtype : String
  ending : Option String := none
  deriving DecidableEq, Repr

namespace MediaType

/-- The signs that a word may hold beside letters and digits. -/
def wordSigns : List Char := "!#$%&'*+-.^_`|~".toList

def isWordChar (c : Char) : Bool := c.isAlphanum || wordSigns.contains c

def isQuotable (c : Char) : Bool :=
  0x20 ≤ c.toNat && c.toNat < 0x7f

inductive ParameterState where
  /-- At the beginning of a name; `empty` if nothing of it was read. -/
  | name (empty : Bool)
  | value (empty : Bool)
  | quoted (empty : Bool)
  /-- Behind the closing quote. -/
  | behind
  deriving DecidableEq, Repr

def parametersFit : ParameterState → List Char → Bool
  | .name empty, [] => empty
  | .name empty, c :: rest =>
    if empty && (c == ' ' || c == ';') then parametersFit (.name true) rest
    else if isWordChar c then parametersFit (.name false) rest
    else if c == '=' && !empty then parametersFit (.value true) rest
    else false
  | .value _, [] => true
  | .value empty, c :: rest =>
    if c == '"' && empty then parametersFit (.quoted true) rest
    else if isWordChar c then parametersFit (.value false) rest
    else if c == ';' && !empty then parametersFit (.name true) rest
    else false
  | .quoted _, [] => false
  | .quoted empty, c :: rest =>
    if c == '"' && !empty then parametersFit .behind rest
    else if isQuotable c then parametersFit (.quoted false) rest
    else false
  | .behind, [] => true
  | .behind, c :: rest =>
    if c == ';' then parametersFit (.name true) rest
    else if c == ' ' then parametersFit .behind rest
    else false

/-- Splits a subtype at its last plus sign, which has something in front of it. -/
def splitEnding (cs : List Char) : String × Option String :=
  let tail := cs.reverse.takeWhile fun c => c != '+'
  let front := cs.length - (tail.length + 1)
  if tail.length < cs.length && 0 < front then
    (String.ofList (cs.take front), some (String.ofList tail.reverse))
  else (String.ofList cs, none)

def parse (text : String) : Option MediaType :=
  let cs := text.toList
  let type := cs.takeWhile isWordChar
  match type, cs.drop type.length with
  | _ :: _, '/' :: rest =>
    let subtype := rest.takeWhile isWordChar
    let parametersAreFit := match rest.drop subtype.length with
      | [] => true
      | c :: more => (c == ';' || c == ' ') && !subtype.isEmpty && parametersFit (.name true) more
    if parametersAreFit then
      let lower (s : String) : String := Text.lowerAscii s
      let (front, ending) := splitEnding subtype
      some { type := lower (String.ofList type), subtype := lower front, ending := ending.map lower }
    else none
  | _, _ => none

/-- Whether a body of this type is JSON. -/
def isJson (m : MediaType) : Bool :=
  m.type == "application" && (m.subtype == "json" || m.ending == some "json")

end MediaType

end SessionHost
