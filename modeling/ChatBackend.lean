import ChatBackend.Foundations.Prog
import ChatBackend.Foundations.ReadCommitted
import ChatBackend.Foundations.Schedule
import ChatBackend.Foundations.Guarantee
import ChatBackend.Foundations.Integer
import ChatBackend.Foundations.SlidingWindow
import ChatBackend.Model.Data
import ChatBackend.Wallet.Ledger
import ChatBackend.Wallet.Service
import ChatBackend.Wallet.Sequential
import ChatBackend.Wallet.Concurrency
import ChatBackend.Wallet.Transactions
import ChatBackend.Policy.Engine
import ChatBackend.Auth.Data
import ChatBackend.Auth.Service
import ChatBackend.Auth.Sequential
import ChatBackend.Auth.Rotation
import ChatBackend.Auth.Identity
import ChatBackend.Billing.Data
import ChatBackend.Billing.Service
import ChatBackend.Billing.Adapty
import ChatBackend.Billing.Crediting
import ChatBackend.Billing.AdaptyCrediting
import ChatBackend.Billing.CloudPayments
import ChatBackend.Billing.CloudPaymentsCrediting
import ChatBackend.Billing.StoreKit
import ChatBackend.Billing.StoreKitCredits
import ChatBackend.Chat.Data
import ChatBackend.Chat.Store
import ChatBackend.Chat.Repository
import ChatBackend.Chat.Messages
import ChatBackend.Chat.Orchestrator
import ChatBackend.Chat.Rounds
import ChatBackend.Chat.Sequential
import ChatBackend.Chat.Generation
import ChatBackend.Chat.Calls
import ChatBackend.Chat.Requests
import ChatBackend.Chat.History
import ChatBackend.Chat.Accumulators
import ChatBackend.Chats.Wire
import ChatBackend.Chats.Service
import ChatBackend.Chats.Display
import ChatBackend.Chats.Projection
import ChatBackend.Chat.Script
import ChatBackend.Chat.Content
import ChatBackend.Chat.Coherence
import ChatBackend.Billing.Access
import ChatBackend.Chat.ImageBilling
import ChatBackend.Chat.TextBilling
import ChatBackend.Gateway.RateLimit
import ChatBackend.Chat.Clients
import ChatBackend.Chat.Truncation
import ChatBackend.Byok.Data
import ChatBackend.Policy.Loader
import ChatBackend.Byok.Service
import ChatBackend.Byok.Script
import ChatBackend.Byok.Lifecycle
import ChatBackend.Byok.Interleaving
import ChatBackend.Foundations.Splitting
import ChatBackend.Website.Paths
import ChatBackend.Foundations.Base64
import ChatBackend.Foundations.Decimal
import ChatBackend.Model.Time
import ChatBackend.Website.Service
import ChatBackend.Website.Tools
import ChatBackend.Foundations.Keyed
import ChatBackend.Website.Files
import ChatBackend.Website.Isolation
import ChatBackend.Website.Turns
import ChatBackend.Foundations.Keyset
import ChatBackend.Model.Cursor
import ChatBackend.Chats.Listing
import ChatBackend.Workspaces.Listing
import ChatBackend.Images.Service
import ChatBackend.Gateway.Pagination
import ChatBackend.Images.Visibility
import ChatBackend.Foundations.Alone
import ChatBackend.Workspaces.Files
import ChatBackend.Foundations.Solo
import ChatBackend.Billing.CloudPaymentsOutcome
import ChatBackend.Billing.StoreKitVerifier
import ChatBackend.Foundations.OrderBy
import ChatBackend.Chats.Order
import ChatBackend.Chats.ContextBlock
import ChatBackend.Chats.HiddenSettings
import ChatBackend.Foundations.Like
import ChatBackend.Chats.Search
import ChatBackend.Foundations.Rejection
import ChatBackend.Billing.AdaptyFailures
import ChatBackend.Chat.Replay
import ChatBackend.Chat.MessageBilling
import ChatBackend.Chat.Editing
import ChatBackend.Chat.StrictSchema
import ChatBackend.Chat.WorkspaceContext
import ChatBackend.Gateway.ClientIp
import ChatBackend.Foundations.Nested
import ChatBackend.Observability.Redaction
import ChatBackend.Website.SignedUrl
import ChatBackend.Chat.Attachments
import ChatBackend.Chat.FullMessages
import ChatBackend.Chat.Quiz
import ChatBackend.Chat.SessionGate
import ChatBackend.Chat.Ownership
import ChatBackend.Workspaces.Requests
import ChatBackend.Preferences.Secrets
import ChatBackend.Admin.Crediting
import ChatBackend.Website.Preview
import ChatBackend.Gateway.Limits
import ChatBackend.Chat.Pairing
