import MatrixIdentityAdmin.Lib.Prog
import MatrixIdentityAdmin.Lib.Hoare
import MatrixIdentityAdmin.Lib.Exec
import MatrixIdentityAdmin.Lib.Ledger
import MatrixIdentityAdmin.Lib.Topics
import MatrixIdentityAdmin.Lib.Latch
import MatrixIdentityAdmin.Lib.Directory
import MatrixIdentityAdmin.Lib.KeyedTable
import MatrixIdentityAdmin.Lib.Interleave
import MatrixIdentityAdmin.Lib.Sections
import MatrixIdentityAdmin.Lib.Journal
import MatrixIdentityAdmin.Lib.PercentEncoding
import MatrixIdentityAdmin.Lib.Url
import MatrixIdentityAdmin.Lib.Paging
import MatrixIdentityAdmin.Lib.Parts
import MatrixIdentityAdmin.Lib.Join
import MatrixIdentityAdmin.Lib.FormEncoding
import MatrixIdentityAdmin.Lib.Sql
import MatrixIdentityAdmin.Lib.Calendar
import MatrixIdentityAdmin.Lib.Decimal
import MatrixIdentityAdmin.Lib.Upsert
import MatrixIdentityAdmin.Lib.Html
import MatrixIdentityAdmin.Lib.Csv
import MatrixIdentityAdmin.Lib.Utf8
import MatrixIdentityAdmin.Lib.Layers
import MatrixIdentityAdmin.Ref.Models
import MatrixIdentityAdmin.Ref.Calls
import MatrixIdentityAdmin.Ref.Reconcile
import MatrixIdentityAdmin.Ref.Lifecycle
import MatrixIdentityAdmin.Ref.Workflows
import MatrixIdentityAdmin.Ref.Handlers
import MatrixIdentityAdmin.Ref.AccountHandlers
import MatrixIdentityAdmin.Ref.Policy
import MatrixIdentityAdmin.Ref.Text
import MatrixIdentityAdmin.Ref.Json
import MatrixIdentityAdmin.Ref.Invite
import MatrixIdentityAdmin.Ref.Token
import MatrixIdentityAdmin.Ref.Templates
import MatrixIdentityAdmin.Ref.PowerLevels
import MatrixIdentityAdmin.Ref.Session
import MatrixIdentityAdmin.Ref.App
import MatrixIdentityAdmin.Ref.PolicyHandlers
import MatrixIdentityAdmin.Ref.PolicyOptions
import MatrixIdentityAdmin.Ref.InviteHandlers
import MatrixIdentityAdmin.Ref.InviteBot
import MatrixIdentityAdmin.Ref.Router
import MatrixIdentityAdmin.Ref.Users
import MatrixIdentityAdmin.Ref.Endpoints
import MatrixIdentityAdmin.Ref.MasClient
import MatrixIdentityAdmin.Ref.AuditLog
import MatrixIdentityAdmin.Ref.AuditHandlers
import MatrixIdentityAdmin.Ref.Dashboard
import MatrixIdentityAdmin.Ref.UserDetail
import MatrixIdentityAdmin.Ref.Clients
import MatrixIdentityAdmin.Spec.Reading
import MatrixIdentityAdmin.Spec.Account
import MatrixIdentityAdmin.Spec.World
import MatrixIdentityAdmin.Spec.Goals
import MatrixIdentityAdmin.Spec.Touches
import MatrixIdentityAdmin.Spec.Requests
import MatrixIdentityAdmin.Spec.BulkFacts
import MatrixIdentityAdmin.Spec.Coverage
import MatrixIdentityAdmin.Spec.Gates
import MatrixIdentityAdmin.Spec.Database
import MatrixIdentityAdmin.Spec.PolicyStore
import MatrixIdentityAdmin.Spec.GroupBindings
import MatrixIdentityAdmin.Spec.Invites
import MatrixIdentityAdmin.Spec.InviteWorld
import MatrixIdentityAdmin.Spec.TokenCache
import MatrixIdentityAdmin.Spec.Templates
import MatrixIdentityAdmin.Spec.PowerLevels
import MatrixIdentityAdmin.Spec.Authority
import MatrixIdentityAdmin.Spec.UserSearch
import MatrixIdentityAdmin.Spec.Identity
import MatrixIdentityAdmin.Spec.Endpoints
import MatrixIdentityAdmin.Spec.MasSessions
import MatrixIdentityAdmin.Spec.Deletion
import MatrixIdentityAdmin.Spec.GrantedLevel
import MatrixIdentityAdmin.Spec.MappedRooms
import MatrixIdentityAdmin.Spec.TemplateGrants
import MatrixIdentityAdmin.Spec.Dashboard
import MatrixIdentityAdmin.Spec.OptionFragments
import MatrixIdentityAdmin.Spec.AuditTable
import MatrixIdentityAdmin.Spec.Bootstrap
import MatrixIdentityAdmin.Spec.EmailGrammar
import MatrixIdentityAdmin.Spec.Flash
import MatrixIdentityAdmin.Spec.Redirects
import MatrixIdentityAdmin.Spec.RoomCache
import MatrixIdentityAdmin.Spec.UserParts
import MatrixIdentityAdmin.Spec.Promises
import MatrixIdentityAdmin.Spec.UserDetail
import MatrixIdentityAdmin.Spec.InviteBot
import MatrixIdentityAdmin.Spec.Rest
import MatrixIdentityAdmin.Proofs.ReconcileSteps
import MatrixIdentityAdmin.Proofs.Justified
import MatrixIdentityAdmin.Proofs.Failures
import MatrixIdentityAdmin.Proofs.AccountAudit
import MatrixIdentityAdmin.Proofs.ReconcileAudit
import MatrixIdentityAdmin.Proofs.Winding
import MatrixIdentityAdmin.Proofs.AccountSteps
import MatrixIdentityAdmin.Proofs.Clean
import MatrixIdentityAdmin.Proofs.Steady
import MatrixIdentityAdmin.Proofs.RoomView
import MatrixIdentityAdmin.Proofs.FixedPoint
import MatrixIdentityAdmin.Proofs.Preview
import MatrixIdentityAdmin.Proofs.Warranted
import MatrixIdentityAdmin.Proofs.BulkSteps
import MatrixIdentityAdmin.Proofs.Offboarded
import MatrixIdentityAdmin.Proofs.LostRoles
import MatrixIdentityAdmin.Proofs.BulkFacts
import MatrixIdentityAdmin.Proofs.Gated
import MatrixIdentityAdmin.Proofs.PolicyAtomic
import MatrixIdentityAdmin.Proofs.PolicyRefine
import MatrixIdentityAdmin.Proofs.InviteSteps
import MatrixIdentityAdmin.Proofs.InviteGated
import MatrixIdentityAdmin.Proofs.InviteRecorded
import MatrixIdentityAdmin.Proofs.InviteRetry
import MatrixIdentityAdmin.Proofs.TokenCache
import MatrixIdentityAdmin.Proofs.TemplateEdits
import MatrixIdentityAdmin.Proofs.PowerLevels
import MatrixIdentityAdmin.Proofs.Signed
import MatrixIdentityAdmin.Proofs.Vouched
import MatrixIdentityAdmin.Proofs.Authority
import MatrixIdentityAdmin.Proofs.Endpoints
import MatrixIdentityAdmin.Proofs.UserSearch
import MatrixIdentityAdmin.Proofs.Identity
import MatrixIdentityAdmin.Proofs.MasSessions
import MatrixIdentityAdmin.Proofs.SessionEnds
import MatrixIdentityAdmin.Proofs.Deletion
import MatrixIdentityAdmin.Proofs.GrantedLevel
import MatrixIdentityAdmin.Proofs.MappedRooms
import MatrixIdentityAdmin.Proofs.GroupBindings
import MatrixIdentityAdmin.Proofs.Coverage
import MatrixIdentityAdmin.Proofs.Flash
import MatrixIdentityAdmin.Proofs.Redirects
import MatrixIdentityAdmin.Proofs.ChronoNow
import MatrixIdentityAdmin.Proofs.AuditQueries
import MatrixIdentityAdmin.Proofs.DateFormat
import MatrixIdentityAdmin.Proofs.AuditFilters
import MatrixIdentityAdmin.Proofs.AuditPaging
import MatrixIdentityAdmin.Proofs.AuditCsv
import MatrixIdentityAdmin.Proofs.EmailGrammar
import MatrixIdentityAdmin.Proofs.TemplateGrants
import MatrixIdentityAdmin.Proofs.Bootstrap
import MatrixIdentityAdmin.Proofs.RoomCache
import MatrixIdentityAdmin.Proofs.Dashboard
import MatrixIdentityAdmin.Proofs.OptionFragments
import MatrixIdentityAdmin.Proofs.Text
import MatrixIdentityAdmin.Proofs.UserParts
import MatrixIdentityAdmin.Proofs.Serial
import MatrixIdentityAdmin.Proofs.Enforced
import MatrixIdentityAdmin.Proofs.Together
import MatrixIdentityAdmin.Proofs.BulkSettled
import MatrixIdentityAdmin.Proofs.UserDetail
import MatrixIdentityAdmin.Proofs.Return
import MatrixIdentityAdmin.Proofs.InviteBot
import MatrixIdentityAdmin.Proofs.Rest
import MatrixIdentityAdmin.Proofs.Wire
import MatrixIdentityAdmin.Proofs.Arrivals
