import SchemaSentry.Domain.Capacity
import SchemaSentry.Domain.DiffExact
import SchemaSentry.Domain.ImpactExact
import SchemaSentry.System.Guard
import SchemaSentry.System.Promotion
import SchemaSentry.System.Alerts
import SchemaSentry.System.Progress
import SchemaSentry.System.Impacts
import SchemaSentry.System.Cycles
import SchemaSentry.System.CatalogExact
import SchemaSentry.System.Retries
import SchemaSentry.System.SentOnce
import SchemaSentry.System.Outbox
import SchemaSentry.System.SystemErrors
import SchemaSentry.System.ConcurrentScans
import SchemaSentry.System.Acceptances
import SchemaSentry.Application.AcceptReturns
import SchemaSentry.System.Answers
import SchemaSentry.System.Convergence
import SchemaSentry.System.LineageKept
import SchemaSentry.System.Versions
import SchemaSentry.System.Freshness
import SchemaSentry.System.FailedScans
import SchemaSentry.Domain.TypeNames
import SchemaSentry.Domain.RowTypes
import SchemaSentry.System.Fingerprints
import SchemaSentry.Domain.TypeText
import SchemaSentry.Domain.TypeSpellings
import SchemaSentry.Lib.Substitution
import SchemaSentry.Logging.Patterns
import SchemaSentry.Logging.Urls
import SchemaSentry.Logging.Secrets
import SchemaSentry.Logging.Redaction
import SchemaSentry.Lib.Readers
import SchemaSentry.Store.Frames
import SchemaSentry.System.Releases
import SchemaSentry.System.Validations
import SchemaSentry.Api.Responses
import SchemaSentry.Api.Routes
import SchemaSentry.System.Dashboard
import SchemaSentry.System.Access
import SchemaSentry.System.Quiescence
import SchemaSentry.Airflow.Tasks
import SchemaSentry.System.DagRuns
import SchemaSentry.Application.Messages
import SchemaSentry.System.Digest
