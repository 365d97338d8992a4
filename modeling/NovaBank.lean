import NovaBank.Java.Map
import NovaBank.Replica.Entities
import NovaBank.Replica.Repository
import NovaBank.Replica.Helper
import NovaBank.Replica.Contracts
import NovaBank.Replica.Request
import NovaBank.Replica.Service
import NovaBank.Replica.Index
import NovaBank.Replica.Runs
import NovaBank.Replica.Threads
import NovaBank.Replica.Attribution
import NovaBank.Replica.Book
import NovaBank.Replica.Simulation
import NovaBank.Replica.Answers
import NovaBank.Proxy.Commands
import NovaBank.Replica.Agreement
import NovaBank.Replica.Snapshot
import NovaBank.Money.Balances
import NovaBank.Money.Attempts
import NovaBank.Money.CompareAndSet
import NovaBank.Proxy.Cache
import NovaBank.Money.Transfers
import NovaBank.Money.Escrow
import NovaBank.Money.Effects
import NovaBank.Money.DoubleSpend
import NovaBank.Money.Moves
import NovaBank.Money.Solvency
import NovaBank.Money.Authority
import NovaBank.Common.Quorum
import NovaBank.Proxy.Reply
import NovaBank.Proxy.SingleReply
import NovaBank.Proxy.Listing
import NovaBank.Proxy.Forging
import NovaBank.Proxy.Delivery
import NovaBank.Proxy.Rest
import NovaBank.Ledger.Accounts
import NovaBank.Ledger.Closing
import NovaBank.Ledger.Listings
import NovaBank.Ledger.Refusals
import NovaBank.Ledger.Bidding
import NovaBank.Proxy.Requests
import NovaBank.Replica.Uploads
import NovaBank.Proxy.Entries
import NovaBank.Proxy.Refresh
import NovaBank.Common.Retry
import NovaBank.Proxy.Controller
import NovaBank.Money.Retries
import NovaBank.Money.Coherence
import NovaBank.Proxy.Invoke
import NovaBank.Ledger.Answered
import NovaBank.Java.Split
import NovaBank.Ledger.Readable
import NovaBank.Replica.Operations
import NovaBank.Ledger.BidTexts
import NovaBank.Proxy.AuctionStore
import NovaBank.Ledger.Faults
import NovaBank.Ledger.Principals
import NovaBank.Ledger.Roles
import NovaBank.Money.Arithmetic
import NovaBank.Ledger.AllAccounts
import NovaBank.Common.Footprint
import NovaBank.Spec.Bank
import NovaBank.Spec.Refinement
import NovaBank.Spec.Commuting
import NovaBank.Money.Accounting
import NovaBank.Replica.Silent
import NovaBank.Java.Replace
import NovaBank.Proxy.Security
import NovaBank.Ledger.Sessions
import NovaBank.Ledger.Rounds
import NovaBank.Spec.Teller
import NovaBank.Money.Stale
import NovaBank.Java.Reading
import NovaBank.Ledger.Commands
import NovaBank.Common.Cost
import NovaBank.Money.Contention
import NovaBank.Replica.Secrets
import NovaBank.Ledger.Linear
import NovaBank.Ledger.Desk
