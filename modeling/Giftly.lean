import Giftly.Concurrency.ActiveLimits
import Giftly.Concurrency.Assignment
import Giftly.Concurrency.LostUpdate
import Giftly.Concurrency.OrderStatus
import Giftly.Concurrency.Payout
import Giftly.Concurrency.Promo
import Giftly.Concurrency.Reserved
import Giftly.Concurrency.Settlement
import Giftly.Concurrency.Split.Webhooks
import Giftly.Ledger.Invariant
import Giftly.Serial.Agreement
import Giftly.Serial.Escrow
import Giftly.Serial.Holds
import Giftly.Serial.Slots
import Giftly.Ledger.Returns
import Giftly.Triggers.InvoiceItems
import Giftly.Accounts.Models
import Giftly.Accounts.Services
import Giftly.Accounts.Identity
import Giftly.Accounts.Access
import Giftly.Accounts.Changes
import Giftly.Accounts.RefreshTokens
import Giftly.Accounts.AccessTokens
import Giftly.Ledger.Reconcile
import Giftly.Auth.Otp
import Giftly.Auth.Budget
import Giftly.Auth.SingleUse
import Giftly.Store.Outbox
import Giftly.Services.Receipt
import Giftly.Concurrency.Receipts
import Giftly.Concurrency.IntentStatus
import Giftly.Chat.Counters
import Giftly.Store.Noted
import Giftly.Concurrency.Statement
import Giftly.Store.Deadlock
import Giftly.Concurrency.LockOrder
import Giftly.Rounding
import Giftly.Pricing.Amounts
import Giftly.Pricing.Allocation
import Giftly.Pricing.Engine
import Giftly.Pricing.Totals
import Giftly.Pricing.Discount
import Giftly.Pricing.Promos
import Giftly.Pricing.Settlement
import Giftly.Services.Checkout
import Giftly.Pricing.Replay
import Giftly.Serial.Invoicing
import Giftly.Serial.Preview
import Giftly.Base64
import Giftly.Core.Envelope
import Giftly.Secrets.Vault
import Giftly.Chat.Preview
import Giftly.Datetime
import Giftly.Admin.Sessions
import Giftly.Admin.Lifetime
import Giftly.Store.Runs
import Giftly.Core.Locks
import Giftly.Core.RateLimit
import Giftly.Store.Keyset
import Giftly.Services.Pages
import Giftly.Numerals
import Giftly.Core.Parsing
import Giftly.Json
import Giftly.Services.Webhook
import Giftly.Store.Passes
import Giftly.Serial.Sweeps
import Giftly.Regex.Occurs
import Giftly.Regex.Sub
import Giftly.Core.Logging
import Giftly.Store.Traverse
import Giftly.Secrets.Rotation
import Giftly.Secrets.Requests
import Giftly.Secrets.History
import Giftly.Serial.Closings
import Giftly.Serial.Couriers
import Giftly.Serial.Drawings
import Giftly.Serial.Withdrawals
import Giftly.Serial.PaidWithdrawals
import Giftly.Serial.BalanceSheet
import Giftly.Serial.Cash
