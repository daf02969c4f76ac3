import Freelancing.Table
import Freelancing.Sequence
import Freelancing.Json
import Freelancing.Txn.Law
import Freelancing.Txn.Atomic
import Freelancing.Txn.Rely
import Freelancing.Txn.Zoom
import Freelancing.Txn.Service
import Freelancing.Ledger.DoubleEntry
import Freelancing.Money.Rows
import Freelancing.Money.Session
import Freelancing.Money.Ledger
import Freelancing.Money.Alone
import Freelancing.Money.Payments
import Freelancing.Money.Refunds
import Freelancing.Money.Resolution
import Freelancing.Money.Frame
import Freelancing.Money.Update
import Freelancing.Money.Consistent
import Freelancing.Money.Effect
import Freelancing.Money.Steps
import Freelancing.Money.LedgerSpec
import Freelancing.Money.FundingSpec
import Freelancing.Money.WebhookSpec
import Freelancing.Money.Capture
import Freelancing.Money.ReleaseSpec
import Freelancing.Money.RefundSpec
import Freelancing.Money.DisputeSpec
import Freelancing.Money.ResolutionSpec
import Freelancing.Money.PayoutSpec
import Freelancing.Money.Runs
import Freelancing.Money.MilestoneLife
import Freelancing.Money.IntentLife
import Freelancing.Money.RefundLife
import Freelancing.Money.ContractBoundary
import Freelancing.Money.PayoutLife
import Freelancing.Money.PayoutSettlement
import Freelancing.Money.PayoutConservation
import Freelancing.Money.PayoutAccounts
import Freelancing.Money.PayoutRetries
import Freelancing.Money.RefundSettlement
import Freelancing.Money.EscrowBacking
import Freelancing.Money.EventLog
import Freelancing.Money.Settlement
import Freelancing.Money.LedgerIntegrity
import Freelancing.Money.WebhookOrder
import Freelancing.Money.LateCapture
import Freelancing.Money.Payouts
import Freelancing.Money.Contracts
import Freelancing.Agreements.Rows
import Freelancing.Agreements.Session
import Freelancing.Agreements.Contracts
import Freelancing.Agreements.Proposals
import Freelancing.Agreements.Frame
import Freelancing.Agreements.Consistent
import Freelancing.Agreements.Steps
import Freelancing.Agreements.Runs
import Freelancing.Agreements.Projects
import Freelancing.Agreements.Negotiation
import Freelancing.Agreements.Currency
import Freelancing.Agreements.ProposalLife
import Freelancing.Agreements.ContractIntegrity
import Freelancing.Identity.Sessions
import Freelancing.Identity.Steps
import Freelancing.Identity.Rotation
import Freelancing.Calls.Sessions
import Freelancing.Calls.Steps
import Freelancing.Calls.Life
import Freelancing.Files.Rows
import Freelancing.Messaging.Sessions
import Freelancing.Messaging.Steps
import Freelancing.Messaging.Delivery
import Freelancing.Files.Uploads
import Freelancing.Files.Steps
import Freelancing.Files.Scanned
import Freelancing.Notifications.Outbox
import Freelancing.Notifications.Steps
import Freelancing.Notifications.Delivery
import Freelancing.Workspace.View
import Freelancing.Workspace.Lossless
import Freelancing.Money.Success
import Freelancing.Money.Split
import Freelancing.Money.ExactSplit
import Freelancing.Money.ReleaseAgreement
import Freelancing.Text
import Freelancing.Keyset
import Freelancing.Disputes.Query
import Freelancing.Messaging.Receipts
import Freelancing.Messaging.ReadCursors
import Freelancing.Lockout
import Freelancing.Identity.Lockout
import Freelancing.Identity.Mfa
import Freelancing.Identity.RecoveryCodes
import Freelancing.Identity.Enrollment
import Freelancing.Txn.Trace
import Freelancing.Txn.Solo
import Freelancing.Reconciliation.Runs
import Freelancing.Reconciliation.Exact
import Freelancing.Base64
import Freelancing.Greedy
import Freelancing.Ci.Impact
import Freelancing.Ci.Targets
import Freelancing.Ci.Selection
import Freelancing.Files.Scanner
import Freelancing.Scroll
import Freelancing.Notifications.Paging
import Freelancing.JsString
import Freelancing.Frontend.MoneyInput
import Freelancing.Recommendations.Pricing
import Freelancing.Words
import Freelancing.CodePoints
import Freelancing.Freelancers.Slug
import Freelancing.UrlPath
import Freelancing.Frontend.Proxy
import Freelancing.Async
import Freelancing.Frontend.CallController
import Freelancing.Frontend.CallMedia
import Freelancing.Aead
import Freelancing.Pii.Cipher
import Freelancing.Pii.Rotation
import Freelancing.Pii.Startup
import Freelancing.Total
import Freelancing.Money.Clearing
import Freelancing.Money.DisputeLife
import Freelancing.Agreements.VersionHistory
import Freelancing.Redis
import Freelancing.Security.RateLimit
import Freelancing.Txn.Talk
import Freelancing.Txn.Beside
import Freelancing.Realtime.Sockets
import Freelancing.Realtime.Manners
import Freelancing.Realtime.Authority
import Freelancing.Realtime.Presence
import Freelancing.Frontend.SocketClient
import Freelancing.JsonText
import Freelancing.Agreements.DocumentHash
import Freelancing.Txn.Worlds
import Freelancing.Txn.Drive
import Freelancing.Search.Rows
import Freelancing.Search.Services
import Freelancing.Search.Projection
import Freelancing.Search.Drain
import Freelancing.Search.Writers
import Freelancing.Search.CatchUp
