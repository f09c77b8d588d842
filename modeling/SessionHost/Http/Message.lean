import SessionHost.Data.Json.Writer
import SessionHost.Text.Blank

/-!
# Requests and answers

A request is a method, an address, headers and a body. An answer is a status, headers and a body. The
name of a header is read in any case.
-/
namespace SessionHost

structure Request where
  method : String
  address : String
  headers : List (String × String) := []
  body : Bytes := []
  deriving DecidableEq, Repr, Inhabited

inductive Content where
  | empty
  | json (value : Data)
  | plain (text : String)
  deriving Repr, Inhabited

structure Response where
  status : Nat
  headers : List (String × String) := []
  content : Content := .empty
  deriving Repr, Inhabited

/-- The first header of a name. -/
def headerOf? (headers : List (String × String)) (name : String) : Option String :=
  (headers.find? fun h => Text.lowerAscii h.1 == Text.lowerAscii name).map (·.2)

namespace Request

/-- The address without what follows a number sign and without scheme and host. -/
def target (r : Request) : List Char :=
  let cs := r.address.toList.takeWhile fun c => c != '#'
  match cs with
  | '/' :: _ => cs
  | _ =>
    let scheme := cs.takeWhile fun c => c != ':'
    match cs.drop scheme.length with
    | ':' :: '/' :: '/' :: rest =>
      let behind := rest.dropWhile fun c => c != '/' && c != '?'
      if behind.head? == some '/' then behind else '/' :: behind
    | _ => cs

/-- The path of the address, as it is written. -/
def path (r : Request) : String := String.ofList (r.target.takeWhile fun c => c != '?')

/-- The query of the address, as it is written. -/
def query (r : Request) : String := String.ofList ((r.target.dropWhile fun c => c != '?').drop 1)

def header? (r : Request) (name : String) : Option String := headerOf? r.headers name

end Request

namespace Response

def header? (r : Response) (name : String) : Option String := headerOf? r.headers name

def withHeader (r : Response) (name value : String) : Response :=
  { r with headers := r.headers ++ [(name, value)] }

def ofData (status : Nat) (v : Data) : Response where
  status := status
  headers := [("Content-Type", "application/json")]
  content := .json v

def ofText (status : Nat) (text : String) : Response where
  status := status
  headers := [("Content-Type", "text/plain; charset=utf-8")]
  content := .plain text

/-- The same answer without what it says. -/
def withoutContent (r : Response) : Response := { r with content := .empty }

/-- mirrors server/router:67-76 -/
def openHeaders : List (String × String) :=
  [("Access-Control-Allow-Origin", "*"), ("Access-Control-Allow-Methods", "GET, POST, OPTIONS"),
    ("Access-Control-Allow-Headers", "Content-Type")]

/-- An answer that pages from anywhere may read.
mirrors server/router:61-78 -/
def opened (r : Response) : Response := { r with headers := r.headers ++ openHeaders }

/-- What an answer says, as it is written. -/
def text (r : Response) : String :=
  match r.content with
  | .empty => ""
  | .json v => Json.write v
  | .plain s => s

end Response

end SessionHost
