import SessionHost.Data.Json.Record
import SessionHost.Http.Message
import SessionHost.Http.Query
import SessionHost.Session.Error
import SessionHost.Toolchain.Basic

/-!
# Errors that clients see (`server/error`)

An error is one of a session, of a build, or of the request itself. Each has a status, a kind and a
message, and the answer names all but the status in its body.

* `ApiError.response` is the answer.
-/
namespace SessionHost

/-- What is wrong with a request. -/
inductive RequestFault where
  | unknownMode (text : String)
  | missingParameter (key : String)
  | query (fault : Query.Fault)
  /-- The body does not say that it is JSON. -/
  | notJson
  | bodyTooLong
  | body (fault : Json.RecordFault)
  /-- A fault that is told in other words. -/
  | other (text : String)
  deriving DecidableEq, Repr

def RequestFault.message : RequestFault → String
  | unknownMode text => s!"unknown run mode '{text}'"
  | missingParameter key => s!"missing '{key}' query parameter"
  | query _ => "Failed to deserialize query string"
  | notJson => "Expected request with `Content-Type: application/json`"
  | bodyTooLong => "Failed to buffer the request body"
  | body .form => "Failed to parse the request body as JSON"
  | body .shape => "Failed to deserialize the JSON body into the target type"
  | other text => text

/-- mirrors server/error:17-27 -/
inductive ApiError where
  | session (error : SessionError)
  | build (error : BuildError)
  | request (fault : RequestFault)
  deriving DecidableEq, Repr

namespace ApiError

/-- mirrors server/error:43-65 -/
def status : ApiError → Nat
  | session (.notFound _) => 404
  | session (.invalidOffset ..) => 400
  | session .closedStream => 409
  | session (.resourceExhausted _) => 503
  | session (.spawn ..) => 500
  | build (.unsupportedLanguage _) | build (.unsupportedCompiler _) => 400
  | build (.compileFailed _) | build (.timedOut _) => 422
  | build (.compilerUnavailable ..) | build (.directory _) => 500
  | request _ => 400

/-- mirrors server/error:68-86 -/
def kind : ApiError → String
  | session (.notFound _) => "not_found"
  | session (.invalidOffset ..) => "invalid_offset"
  | session .closedStream => "closed_stream"
  | session (.resourceExhausted _) => "resource_exhausted"
  | session (.spawn ..) => "spawn_error"
  | build (.unsupportedLanguage _) => "unsupported_language"
  | build (.unsupportedCompiler _) => "unsupported_compiler"
  | build (.compileFailed _) => "compile_error"
  | build (.timedOut _) => "compile_timeout"
  | build (.compilerUnavailable ..) | build (.directory _) => "build_error"
  | request _ => "invalid_request"

def message : ApiError → String
  | session e => e.message
  | build e => e.message
  | request f => s!"Invalid request: {f.message}"

/-- mirrors server/error:107-117 -/
def response (e : ApiError) (requestId : String) : Response :=
  .ofData e.status (.table [("error", .table [("type", .text e.kind), ("message", .text e.message),
    ("request_id", .text requestId)])])

end ApiError

end SessionHost
