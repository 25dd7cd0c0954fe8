import SchemaSentry.Api.Routes
/-!
# Schema Sentry — the DAGs' tasks

`post_json` and the tasks that call the API through it: `schema_guard`,
which the aggregate of `daily_revenue` comes after, and `trigger_scan`. What
`urlopen` makes of a call is given with the task; `urlopen` below is what it
makes of one that a server with given tables answers.
-/

namespace SchemaSentry.Airflow

open Lib

/-! ## The client -/

/-- What `json.loads` finds in a text, floats left out. -/
inductive JsonValue where
  | null
  | bool (b : Bool)
  | int (n : ℤ)
  | str (s : String)
  | list (items : List JsonValue)
  | dict (fields : List (String × JsonValue))

abbrev JsonDict := List (String × JsonValue)

/-- A response's body: nothing, a text `json.loads` raises for, or a value. -/
inductive RawBody where
  | empty
  | malformed (className : String)
  | value (v : JsonValue)

/-- What a task raises: `AirflowFailException`, `AirflowException` or
another exception. -/
inductive TaskException where
  | airflowFailException (message : String)
  | airflowException (message : String)
  | raised (className : String)
  deriving DecidableEq, Repr

structure JsonResponse where
  status : ℕ
  body : JsonDict

/-- `_decode_body`. -/
def decodeBody : RawBody → Except TaskException JsonDict
  | .empty => .ok []
  | .malformed className => .error (.raised className)
  | .value (.dict fields) => .ok fields
  | .value _ => .error (.airflowException "Schema Sentry returned an invalid JSON object")

/-- The environment variables of a worker. -/
structure Environ where
  apiUrl : Option String := none
  apiKey : Option String
  deriving DecidableEq, Repr

/-- The request `post_json` builds. -/
structure ApiCall where
  baseUrl : String
  path : String
  payload : List (String × String)
  apiKey : String
  deriving DecidableEq, Repr

/-- How `urlopen` ends: with a response, an `HTTPError`, another `OSError`
or an exception that is none. -/
inductive Exchange where
  | responded (status : ℕ) (body : RawBody)
  | httpError (code : ℕ) (body : RawBody)
  | osError
  | raised (className : String)

/-- The `try` of `post_json`. -/
def Exchange.response : Exchange → Except TaskException JsonResponse
  | .responded status body => (decodeBody body).map fun fields => { status, body := fields }
  | .httpError code body => (decodeBody body).map fun fields => { status := code, body := fields }
  | .osError => .error (.airflowException "Schema Sentry API is unavailable")
  | .raised className => .error (.raised className)

def postJson (environ : Environ) (urlopen : ApiCall → Exchange) (path : String)
    (payload : List (String × String)) : Except TaskException JsonResponse :=
  let baseUrl := stripSlashes (environ.apiUrl.getD "http://api:8000")
  match environ.apiKey with
  | none => .error (.raised "KeyError")
  | some apiKey => (urlopen { baseUrl, path, payload, apiKey }).response

/-! ## The tasks -/

/-- `response.body.get("safe") is True`. -/
def saysSafe (body : JsonDict) : Bool :=
  match Dict.get? "safe" body with
  | some (.bool true) => true
  | _ => false

/-- What `validate_pipeline` makes of a response. -/
def checkValidation (pipelineKey : String) (response : JsonResponse) : Except TaskException Unit :=
  if response.status = 200 ∧ saysSafe response.body then .ok ()
  else if response.status ∈ [200, 409] then
    .error (.airflowFailException ("blocking schema drift detected for " ++ pipelineKey))
  else
    .error (.airflowException
      ("Schema Sentry validation failed with HTTP " ++ toString response.status))

def validatePipeline (environ : Environ) (urlopen : ApiCall → Exchange) (pipelineKey : String) :
    Except TaskException Unit := do
  let response ← postJson environ urlopen ("/api/v1/pipelines/" ++ pipelineKey ++ "/validate") []
  checkValidation pipelineKey response

/-- `schema_guard`. -/
def schemaGuard (environ : Environ) (urlopen : ApiCall → Exchange) : Except TaskException Unit :=
  validatePipeline environ urlopen "daily_revenue"

def runSchemaScan (environ : Environ) (urlopen : ApiCall → Exchange) :
    Except TaskException Unit := do
  let response ← postJson environ urlopen "/api/v1/scans" [("source_key", "game")]
  if response.status ≠ 201 then
    .error (.airflowException
      ("Schema Sentry scan failed with HTTP " ++ toString response.status))
  else
    pure ()

/-! ## What answers -/

/-- The request a call makes of the API, for the paths the tasks call. -/
def ApiCall.request? (call : ApiCall) : Option HttpRequest :=
  match (call.path.toList.splitOn '/').map String.ofList with
  | ["", "api", "v1", "scans"] => (Dict.get? "source_key" call.payload).map .runScan
  | ["", "api", "v1", "pipelines", pipelineKey, "validate"] => some (.validatePipeline pipelineKey)
  | _ => none

/-- `PipelineValidationResponse.model_dump`. -/
def validationFields (response : PipelineValidationResponse) : JsonDict :=
  [("pipeline_key", .str response.pipelineKey), ("safe", .bool response.safe),
    ("blocking_changes", .list (response.blockingChanges.map fun change =>
      .dict [("id", .str (toString change.id)), ("dataset", .str change.dataset),
        ("column_name", .str change.columnName), ("change_type", .str change.changeType.value),
        ("severity", .str change.severity.value)]))]

/-- A reply's body as it is sent, where the texts of the bodies other than a
validation's are given. -/
def rawBody (others : Body → RawBody) : Body → RawBody
  | .validation response => .value (.dict (validationFields response))
  | body => others body

/-- A reply as `urlopen` takes it. -/
def exchangeOf (others : Body → RawBody) (reply : Reply) : Exchange :=
  if 200 ≤ reply.status ∧ reply.status < 300 then
    .responded reply.status (rawBody others reply.body)
  else .httpError reply.status (rawBody others reply.body)

/-- What becomes of a call: the server answers it at some moment, or it ends
in another way. -/
inductive Fate where
  | answered (m : Moment)
  | failed (exchange : Exchange)

/-- No answer of the API's: no response, and no conflict. -/
def Exchange.Failure : Exchange → Prop
  | .responded _ _ => False
  | .httpError code _ => code ∉ [200, 409]
  | .osError => True
  | .raised _ => True

section Served

variable [Hashlib]
variable (s : ServerSettings) (others : Body → RawBody)

/-- What a server does with a call. -/
def apiAnswer (m : Moment) (db : DB) (call : ApiCall) : Answer :=
  match call.request? with
  | some req => handle s m { apiKey := some call.apiKey } req db
  | none => .only 404 (.detail "Not Found") db

def urlopen (fate : Fate) (db : DB) (call : ApiCall) : Exchange :=
  match fate with
  | .answered m => exchangeOf others (apiAnswer s m db call).reply
  | .failed exchange => exchange

end Served

end SchemaSentry.Airflow
