import DarkXray.Library.Runs
import DarkXray.Library.Tables
import DarkXray.Library.Transactions
import DarkXray.Library.Staircase
import DarkXray.Policy.Basics
import DarkXray.Credit.Entitlement
import DarkXray.Credit.Coverage
import DarkXray.Credit.PlanRuns
import DarkXray.Policy.Store
import DarkXray.Credit.Change
import DarkXray.Policy.Operations
import DarkXray.Policy.Conservation
import DarkXray.Nodes.Traffic
import DarkXray.Library.Meters
import DarkXray.Nodes.TrafficReset
import DarkXray.Nodes.AcknowledgementRuns
import DarkXray.Nodes.Commands
import DarkXray.Nodes.CommandOrder
import DarkXray.Nodes.Lease
import DarkXray.Library.Procedures
import DarkXray.Nodes.LeaseRuns
import DarkXray.Nodes.Runtime
import DarkXray.Nodes.LeaseGuard
import DarkXray.Library.Preconditions
import DarkXray.Nodes.DesiredState
import DarkXray.Nodes.DesiredRuns
import DarkXray.Library.Threads
import DarkXray.Nodes.Credentials
import DarkXray.Nodes.CredentialRuns
import DarkXray.Commerce.Shop
import DarkXray.Commerce.Wallet
import DarkXray.Commerce.Checkout
import DarkXray.Commerce.Marketplace
import DarkXray.Commerce.WalletRuns
import DarkXray.Commerce.OrderRuns
import DarkXray.Commerce.Webhook
import DarkXray.Commerce.MarketRuns
import DarkXray.Library.Chains
import DarkXray.Library.Documents
import DarkXray.Library.Checks
import DarkXray.Core.Store
import DarkXray.Core.Inbounds
import DarkXray.Core.Sections
import DarkXray.Core.BuildConfig
import DarkXray.Core.Listeners
import DarkXray.Core.References
import DarkXray.Nodes.LeaseRenewal
import DarkXray.Core.Activation
import DarkXray.Access.Accounts
import DarkXray.Access.AccountRuns
import DarkXray.Library.Digraphs
import DarkXray.Nodes.Relays
import DarkXray.Nodes.RelayRuns
import DarkXray.Core.TrafficMatrix
import DarkXray.Deployment.Swaps
import DarkXray.Library.Precedence
import DarkXray.Deployment.Payload
import DarkXray.Deployment.RouteCopies
import DarkXray.Deployment.RouteTargets
import DarkXray.Deployment.AgentRouting
import DarkXray.Nodes.RestoreUsage
import DarkXray.Deployment.Accounting
import DarkXray.Library.Ranks
import DarkXray.Policy.Guard
import DarkXray.Policy.GuardRuns
import DarkXray.Library.Calendar
import DarkXray.Policy.Cycles
import DarkXray.Policy.CycleRuns
import DarkXray.Commerce.Renewals
import DarkXray.Commerce.RepCredit
import DarkXray.Usage.LocalRuns
import DarkXray.Deployment.RelayRouting
import DarkXray.Nodes.Transport
import DarkXray.Core.Clients
import DarkXray.Core.TunnelRouting
import DarkXray.Core.RoutePreview
import DarkXray.Nodes.GlobalSecurity
import DarkXray.Library.Journals
import DarkXray.Nodes.UsageBooks
import DarkXray.Nodes.UsageRuns
import DarkXray.Nodes.RestoreRuns
import DarkXray.Core.HostChecks
import DarkXray.Deployment.Cutover
import DarkXray.Deployment.Advertising
import DarkXray.Library.Outcomes
import DarkXray.Access.SecondFactor
import DarkXray.Nodes.RestoreSafety
import DarkXray.Nodes.SafetyRuns
import DarkXray.Library.Expiry
import DarkXray.Policy.Broker
import DarkXray.Policy.BrokerRuns
import DarkXray.Policy.BanReplay
import DarkXray.Policy.BanRestore
import DarkXray.Policy.BanRuns
import DarkXray.Library.Lines
import DarkXray.Library.Utf8
import DarkXray.Core.AccessLog
import DarkXray.Core.LogRuns
import DarkXray.Library.Frames
import DarkXray.Management.Contracts
import DarkXray.Library.Rotations
import DarkXray.Nodes.PairingReservations
