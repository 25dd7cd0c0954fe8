import SchemaSentry.Store.Changes
/-!
# Schema Sentry — the change and validation services

`ChangeService.accept` with the request that calls it, and
`ValidationService.validate_pipeline`.
-/

namespace SchemaSentry

open Lib DbM

structure AcceptanceResult where
  changeId : Uuid
  baselineVersion : ℤ
  deriving DecidableEq, Repr

/-- An acceptance asked for, and the moment it is made. -/
structure AcceptRequest where
  changeId : Uuid
  baselineVersion : ℤ
  acceptedAt : Timestamp := 0
  deriving DecidableEq, Repr

def accept (req : AcceptRequest) : DbM AcceptanceResult := do
  let locked ← acceptanceTransaction req.changeId
  match locked with
  | none => raise (.changeNotFound req.changeId)
  | some (source, change) =>
    if source.baselineVersion ≠ req.baselineVersion then
      raise (.baselineVersionConflict req.baselineVersion source.baselineVersion)
    else
      let version ← applyAcceptance source change req.acceptedAt
      pure { changeId := req.changeId, baselineVersion := version }

/-- The exceptions `POST /api/v1/changes/{change_id}/accept` turns into a
response, after which its session commits. -/
def PyException.acceptCommits : PyException → Bool
  | .baselineVersionConflict _ _ => true
  | .changeNotFound _ => true
  | .httpException _ => true
  | _ => false

/-- The request's session at its end: committed or rolled back. -/
def acceptPublish (outcome : Except PyException AcceptanceResult × Session) (db : DB) : DB :=
  match outcome.1 with
  | .ok _ => outcome.2.pending db
  | .error e => if e.acceptCommits then outcome.2.pending db else db

/-- `POST /api/v1/changes/{change_id}/accept`, run alone: what is committed
after it. -/
def postAccept (req : AcceptRequest) (db : DB) : DB :=
  acceptPublish (exec (accept req) db Session.new) db

/-- What `accept` returns or raises, run alone. -/
def acceptResult (req : AcceptRequest) (db : DB) : Except PyException AcceptanceResult :=
  (exec (accept req) db Session.new).1

/-! ## Validation -/

structure PipelineValidation where
  pipelineKey : String
  safe : Bool
  blockingChanges : List BlockingChange
  deriving DecidableEq, Repr

def validatePipeline (pipelineKey : String) : DbM PipelineValidation := do
  let blocking ← listOpenBreakingChangesForPipeline pipelineKey
  pure { pipelineKey := pipelineKey, safe := blocking = [], blockingChanges := blocking }

/-- What `validate_pipeline` returns or raises in a committed state. -/
def validateResult (pipelineKey : String) (db : DB) : Except PyException PipelineValidation :=
  (exec (validatePipeline pipelineKey) db Session.new).1

end SchemaSentry
