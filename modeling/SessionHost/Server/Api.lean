import SessionHost.Http.MediaType
import SessionHost.Http.RequestId
import SessionHost.Http.Route
import SessionHost.Server.Basic
import SessionHost.Server.Error
import SessionHost.Session.Coding

/-!
# Answering requests (`server/router`)

A request is looked at part by part, and the first part that is wrong decides the answer: the route,
the method, the mode of a run, the query, the body, and then what they ask for. All requests are
answered at once, except for a run, which waits for a compiler.

* `Server.handle` begins to answer a request;
* `Server.attend` lets the requests go on that wait for a compiler.
-/
namespace SessionHost

/-! ## Parts of requests -/

/-- mirrors server/types:10-14 -/
structure RunQuery where
  language : Option String
  compiler : Option String
  deriving DecidableEq, Repr

/-- The query of all requests that are about a session.
mirrors server/types:36-41 -/
structure PidQuery where
  pid : Option Nat
  offset : Option Nat := none
  deriving DecidableEq, Repr

/-- mirrors server/types:18-27 -/
structure RunBody where
  source : String
  options : String
  args : String
  stdin : String
  deriving DecidableEq, Repr

namespace Request

/-- The most bytes that a body may have. -/
def mostBody : Nat := 2097152

def fields (r : Request) : Query := Query.ofBytes (Bytes.ofString r.query)

def runQuery (r : Request) : Except RequestFault RunQuery :=
  Except.mapError RequestFault.query do
    return { language := ← r.fields.text? "language", compiler := ← r.fields.text? "compiler_type" }

/-- The query of a request about a session. -/
def pidQuery (r : Request) : Except RequestFault PidQuery :=
  Except.mapError RequestFault.query do
    return { pid := ← r.fields.word? "pid", offset := ← r.fields.word? "offset" }

def record (r : Request) (fields : List Json.RecordField) :
    Except RequestFault (List (String × String)) :=
  let isJson := ((r.header? "Content-Type").bind MediaType.parse).map MediaType.isJson
  if isJson ≠ some true then .error .notJson
  else if r.body.length > mostBody then .error .bodyTooLong
  else (Json.record fields r.body).mapError RequestFault.body

def runBody (r : Request) : Except RequestFault RunBody := do
  let v ← r.record [{ name := "source_code", needed := true }, { name := "compiler_options" },
    { name := "command_line_arguments" }, { name := "stdin" }]
  return {
    source := Json.valueOf v "source_code"
    options := Json.valueOf v "compiler_options"
    args := Json.valueOf v "command_line_arguments"
    stdin := Json.valueOf v "stdin" }

def inputBody (r : Request) : Except RequestFault String := do
  return Json.valueOf (← r.record [{ name := "stdin", needed := true }]) "stdin"

end Request

/-- mirrors server/types:44-47 -/
def PidQuery.need (q : PidQuery) : Except RequestFault Nat :=
  match q.pid with
  | some n => .ok n
  | none => .error (.missingParameter "pid")

/-- The language and the compiler that a query asks for.
mirrors server/router:92-97 -/
def RunQuery.choice (q : RunQuery) : Except ApiError (Language × Compiler) := do
  let language ← match q.language with
    | some l => pure l
    | none => .error (.request (.missingParameter "language"))
  let language ← (Language.parse language).mapError ApiError.build
  let compiler ← (Compiler.parse (q.compiler.getD "gcc")).mapError ApiError.build
  return (language, compiler)

namespace Server

/-! ## Answers about sessions -/

def find (s : Server) (id : Nat) : Except ApiError Entry :=
  (s.registry.get? id).mapError ApiError.session

/-- mirrors server/router:191-198 -/
def health (s : Server) : Response :=
  .ofData 200 (.table [("status", .text "healthy"), ("service", .text "runbox"),
    ("sessions", .nat s.registry.size), ("running", .nat s.registry.active)])

/-- What a poll is answered with.
mirrors server/router:149-159 -/
def pollResponse (id : Nat) (session : Session) : Poll → Response
  | .finished => { status := 204 }
  | .output data offset =>
    let exit := match session.exit with
      | some e => [("exit", e.toData)]
      | none => []
    .ofData 200 (.table ([("pid", .nat id), ("output", .text (Utf8.lossy data)),
      ("offset", .nat offset), ("state", .text session.state.name)] ++ exit))

/-- Polls the output of a session.
mirrors server/router:137-160 -/
def program (s : Server) (r : Request) : Server × Except ApiError Response :=
  let asked : Except ApiError (Nat × Option Nat × Session) := do
    let q ← r.pidQuery.mapError ApiError.request
    let id ← q.need.mapError ApiError.request
    return (id, q.offset, (← s.find id).session)
  match asked with
  | .error e => (s, .error e)
  | .ok (id, some offset, session) =>
    (s, ((session.pollFrom offset).mapError ApiError.session).map (pollResponse id session))
  | .ok (id, none, session) =>
    match session.poll with
    | .error e => (s, .error (.session e))
    | .ok (p, session) => (s.putSession id session, .ok (pollResponse id session p))

def pidResponse (id : Nat) : Response := .ofData 200 (.table [("pid", .nat id)])

/-- Sends input to a session.
mirrors server/router:162-173 -/
def input (s : Server) (r : Request) : Server × Except ApiError Response :=
  let asked : Except ApiError (Nat × String × Session) := do
    let q ← r.pidQuery.mapError ApiError.request
    let id ← q.need.mapError ApiError.request
    let text ← r.inputBody.mapError ApiError.request
    return (id, text, (← s.find id).session)
  match asked with
  | .error e => (s, .error e)
  | .ok (id, text, session) =>
    let (session, result) := session.submitInput text
    (s.putSession id session, (result.mapError ApiError.session).map fun _ => pidResponse id)

/-- Kills a session.
mirrors server/router:175-189 -/
def stop (s : Server) (r : Request) : Server × Except ApiError Response :=
  let asked : Except ApiError (Nat × Entry) := do
    let q ← r.pidQuery.mapError ApiError.request
    let id ← q.need.mapError ApiError.request
    return (id, ← s.find id)
  match asked with
  | .error e => (s, .error e)
  | .ok (id, entry) =>
    let (host, session, exit) := entry.session.kill s.host
    ({ s with host }.putSession id session, .ok (.ofData 200 (.table [("pid", .nat id),
      ("state", .text session.state.name), ("exit", exit.toData)])))

/-! ## Running a program -/

/-- Gives a program that was just started its first input; a batch run has none after it. A program
that is gone by then does not get it.
mirrors server/router:122-135 -/
def deliverFirst (session : Session) (stdin : String) : Session :=
  match session.mode with
  | .text =>
    let session := if stdin == "" then session else match session.writeInput? (Bytes.ofString stdin) with
      | .ok session => session
      | .error _ => session
    session.closeInput
  | .interactive | .debugger => if stdin == "" then session else (session.submitInput stdin).1

/-- Looks at a request to run a program, and starts the compiler.
mirrors server/router:86-109 -/
def beginRun (s : Server) (mode : String) (r : Request) : Server × Except ApiError RunJob :=
  let asked : Except ApiError (Mode × BuildRequest × RunBody) := do
    let mode ← match Mode.ofRoute? mode with
      | some m => pure m
      | none => .error (.request (.unknownMode mode))
    let q ← r.runQuery.mapError ApiError.request
    let body ← r.runBody.mapError ApiError.request
    let (language, compiler) ← q.choice
    return (mode, { language, compiler, source := body.source, options := body.options }, body)
  match asked with
  | .error e => (s, .error e)
  | .ok (mode, build, body) =>
    let tools := s.store.config.toolchain
    match Compilation.start? s.host s.home tools build (mode = .debugger) with
    | (.error e, host) => ({ s with host }, .error (.build e))
    | (.ok compilation, host) =>
      ({ s with host }, .ok { tools, mode, args := body.args, stdin := body.stdin, compilation })

/-- A program has been built: it is started, and gets its first input.
mirrors server/router:110-117 -/
def launch (s : Server) (job : RunJob) (build : Build) : Server × Except ApiError Response :=
  match s.create job.mode (Toolchain.launch job.tools build job.mode job.args) with
  | (s, .error e) => (s, .error (.session e))
  | (s, .ok id) =>
    match s.find id with
    | .error e => (s, .error e)
    | .ok entry => (s.putSession id (deliverFirst entry.session job.stdin), .ok (pidResponse id))

/-- Collects what the compiler of a request has said; the answer if the compiler is done.
mirrors server/router:107-117 -/
def advance (s : Server) (job : RunJob) : Server × Except RunJob (Except ApiError Response) :=
  let (host, compilation) := job.compilation.serve s.host
  let s := { s with host }
  match compilation.result? s.host with
  | none => (s, .error { job with compilation })
  | some (.error e, host) => ({ s with host }, .ok (.error (.build e)))
  | some (.ok build, host) =>
    let (s, r) := { s with host }.launch job build
    (s, .ok r)

/-! ## Requests -/

/-- The answer for a request of that number. An error is told with the name of the request.
mirrors server/error:89-118 -/
def settle (number : Nat) : Except ApiError Response → Response
  | .ok r => r
  | .error e => e.response (RequestId.ofNat number)

inductive Handled where
  | answered (r : Response)
  /-- It waits for a compiler. -/
  | inFlight (number : Nat)

/-- A request is answered. A request for the head alone gets the answer without what it says.
mirrors server/router:52-58 -/
def endRequest (s : Server) (r : Request) (answer : Response) : Server × Handled :=
  let answer := if r.method == "HEAD" then answer.withoutContent else answer
  ({ s with manager := s.manager.decrement }, .answered answer.opened)

/-- Begins to answer a request to run a program. -/
def handleRun (s : Server) (number : Nat) (mode : String) (r : Request) : Server × Handled :=
  match Utf8.decode? (Percent.decode (Bytes.ofString mode)) with
  | none => s.endRequest r (.ofText 400 "Invalid URL: Invalid UTF-8 in `mode`")
  | some mode =>
    match s.beginRun mode r with
    | (s, .error e) => s.endRequest r (settle number (.error e))
    | (s, .ok job) =>
      match s.advance job with
      | (s, .ok answer) => s.endRequest r (settle number answer)
      | (s, .error job) => ({ s with jobs := s.jobs ++ [(number, job)] }, .inFlight number)

/-- Answers a request for a route that takes its method.
mirrors server/router:26-39 -/
def handleRoute (s : Server) (number : Nat) (r : Request) : Route → Server × Handled
  | .run mode => s.handleRun number mode r
  | .health => s.endRequest r s.health
  | .program => atOnce (s.program r)
  | .input => atOnce (s.input r)
  | .stop => atOnce (s.stop r)
where
  /-- A request about a session is answered at once. -/
  atOnce (a : Server × Except ApiError Response) : Server × Handled :=
    a.1.endRequest r (settle number a.2)

/-- Begins to answer a request.
mirrors server/router:42-78 -/
def handle (s : Server) (r : Request) : Server × Handled :=
  let number := s.nextRequest
  let s := { s with nextRequest := number + 1, manager := s.manager.increment }
  let allowing (route : Route) (status : Nat) : Response :=
    ({ status } : Response).withHeader "Allow" route.allow
  match Route.ofPath? r.path with
  | none => s.endRequest r { status := if r.method == "OPTIONS" then 204 else 404 }
  | some route =>
    if r.method == "OPTIONS" then s.endRequest r (allowing route 204)
    else if route.methods.contains r.method then s.handleRoute number r route
    else s.endRequest r (allowing route 405)

/-- Lets one request go on that waits for a compiler. -/
def attendOne (s : Server) (number : Nat) (job : RunJob) : Server :=
  match s.advance job with
  | (s, .error job) => { s with jobs := s.jobs ++ [(number, job)] }
  | (s, .ok answer) =>
    { s with
      manager := s.manager.decrement
      answers := s.answers ++ [(number, (settle number answer).opened)] }

/-- Lets the requests go on that wait for a compiler. -/
def attend (s : Server) : Server :=
  s.jobs.foldl (fun s j => s.attendOne j.1 j.2) { s with jobs := [] }

/-- The answer of a request that was in flight, once there is one. -/
def answer? (s : Server) (number : Nat) : Option Response :=
  (s.answers.find? fun a => a.1 == number).map (·.2)

end Server

end SessionHost
