import TinyWallet.Library.RustText
import TinyWallet.Library.Numerals
import TinyWallet.Library.Fractions
import TinyWallet.Library.Tables
import TinyWallet.Library.Json
import TinyWallet.Library.Programs
import TinyWallet.Library.Custody
import TinyWallet.Library.Sharing
import TinyWallet.Library.Calendar
import TinyWallet.Library.Readers
import TinyWallet.Library.Rfc3339
import TinyWallet.Library.Rlp
import TinyWallet.Library.LongDecimal
import TinyWallet.Library.Base58
import TinyWallet.Library.Base64
import TinyWallet.Library.Bech32
import TinyWallet.X402.Selection
import TinyWallet.Keys.Slip10
import TinyWallet.Bitcoin.Addresses
import TinyWallet.Address
import TinyWallet.Tron.Proto
import TinyWallet.Tron.Reference
import TinyWallet.Tron.Verify
import TinyWallet.Tron.Acceptance
import TinyWallet.Wire
import TinyWallet.Tron.Send
import TinyWallet.Engine.Requests
import TinyWallet.Engine.Evm
import TinyWallet.Engine.Btc
import TinyWallet.Tx.Evm
import TinyWallet.Tx.Btc
import TinyWallet.Tx.Planning
import TinyWallet.Tx.Signing
import TinyWallet.Engine.Solana
import TinyWallet.Solana.Messages
import TinyWallet.Solana.Versioned
import TinyWallet.Engine.Tron
import TinyWallet.Module.Unsigned
import TinyWallet.Module.Construction
import TinyWallet.Tron.Panics
import TinyWallet.Tron.Fields
import TinyWallet.Solana.Transport
import TinyWallet.Module.HexTexts
import TinyWallet.Quotes.Store
import TinyWallet.Quotes.Lifecycle
import TinyWallet.Engine.Execution
import TinyWallet.Engine.Protocol
import TinyWallet.Quotes.Runs
import TinyWallet.Quotes.Broadcasts
import TinyWallet.Module.Service
import TinyWallet.Module.Calls
import TinyWallet.Module.Approvals
import TinyWallet.Intent.Checks
import TinyWallet.Intent.Native
import TinyWallet.Tx.Erc20
import TinyWallet.Intent.Payments
import TinyWallet.Intent.Web3
import TinyWallet.Ledger.Records
import TinyWallet.Amounts
import TinyWallet.Ledger.Store
import TinyWallet.Ledger.Storage
import TinyWallet.Ledger.Reading
import TinyWallet.Ledger.Calls
import TinyWallet.Ledger.Receipts
import TinyWallet.Ledger.Finality
import TinyWallet.Ledger.Service
import TinyWallet.Ledger.World
import TinyWallet.Ledger.Sections
import TinyWallet.Ledger.InUse
import TinyWallet.Ledger.GivingBack
import TinyWallet.Ledger.Handover
import TinyWallet.Ledger.Mirrors
import TinyWallet.Ledger.Totals
import TinyWallet.Ledger.Holds
import TinyWallet.Ledger.HoldSteps
import TinyWallet.Ledger.HoldCalls
import TinyWallet.Ledger.Reserving
import TinyWallet.Ledger.Counted
import TinyWallet.Ledger.Caps
import TinyWallet.Ledger.Refusals
import TinyWallet.Ledger.Reopening
import TinyWallet.Ledger.Budget
import TinyWallet.Ledger.Legacy
import TinyWallet.Ledger.Migration
import TinyWallet.Ledger.Instants
import TinyWallet.Ledger.Overlap
import TinyWallet.Ledger.Precision
import TinyWallet.Library.Digests
import TinyWallet.X402.Wire
import TinyWallet.X402.TypedData
import TinyWallet.X402.EvmPayment
import TinyWallet.X402.SolanaPayment
import TinyWallet.X402.Payments
import TinyWallet.X402.SamePayment
import TinyWallet.X402.RequestTool
