import TinyWallet.Ledger.Calls
import TinyWallet.X402.Types

/-!
# Receipts and expiry observations

What the payment service does to a payment after it was prepared: `record`
looks the payment up and writes its new state in two sections of the ledger,
and a refresh collects candidates, waits for the chain and writes what it saw.

The same text runs against a bare ledger and inside the module, so that both
are given as programs over a host.
-/

namespace LedgerReceipts

open Programs Sharing LedgerRecords LedgerStore
open X402Wire (SettlementResponse)

/-- How a caller reaches its ledger, the clock and the chain. -/
structure Host (P E : Type) (R : E → Type) where
  withLedger : {α : Type} → Op P α → Prog E R Empty (Except String α)
  utcNow : Prog E R Empty Instant
  /-- `none` when the caller gives up waiting. -/
  finalizedHeight : Prog E R Empty (Option (Option Nat))

variable {P E : Type} {R : E → Type} (host : Host P E R) (rounds : Nat)

structure RecordPaymentRequest where
  service : String
  paymentId : String
  settlementResponse : Option String

section Recording

variable (parseSettlementResponse : String → Except String SettlementResponse)

/-- The receipt, where there is one that parses. -/
def receiptOf (request : RecordPaymentRequest) : Option SettlementResponse :=
  request.settlementResponse.bind fun value => (parseSettlementResponse value).toOption

def receivedStatus (receipt : Option SettlementResponse) : PaymentStatus :=
  if receipt.any SettlementResponse.success then .settled else .pending

def settledRecord (request : RecordPaymentRequest) (receipt : Option SettlementResponse)
    (pending : PaymentRecord) (now : Instant) : PaymentRecord :=
  { pending with
    id := request.paymentId
    txSignature := (receipt.filter fun receipt =>
      receipt.success && !receipt.transaction.isEmpty).map SettlementResponse.transaction
    status := receivedStatus receipt
    timestamp := now }

/-- What the payment that was found asks for: an error, nothing, or a record of it. -/
def toRecord (receipt : Option SettlementResponse) :
    Option PaymentRecord → Except String (Option PaymentRecord)
  | none => .error "x402 payment handle was missing"
  | some pending =>
    if pending.status = .settled then .ok none
    else if pending.status ≠ .pending ∧
        ¬(pending.status = .failed ∧ pending.authorizationValidUntil.isSome) then
      .error "x402 payment handle was missing or expired"
    else if receivedStatus receipt = pending.status then .ok none
    else .ok (some pending)

def lookUp (id : String) : Op P (Option PaymentRecord) := do
  let ledger ← Method.self
  pure (payment ledger.records id)

/-- `X402Runtime::record`, after the handle was checked. -/
def record (request : RecordPaymentRequest) : Prog E R Empty (Except String Unit) := do
  let receipt := receiptOf parseSettlementResponse request
  let found ← host.withLedger (lookUp request.paymentId)
  match found.bind (toRecord receipt) with
  | .error text => .pure (.error text)
  | .ok none => .pure (.ok ())
  | .ok (some pending) => do
    let now ← host.utcNow
    host.withLedger (tryRecordPayment rounds (settledRecord request receipt pending now))

end Recording

structure ExpiryCandidate where
  id : String
  issuedAt : Instant
  lastValidHeight : Nat

def expiryCandidates (ledger : PaymentLedger) : List ExpiryCandidate :=
  ledger.pendingPayments.filterMap fun record =>
    if record.authorizationExpiredAt.isNone then
      record.solanaLastValidBlockHeight.map fun height => ⟨record.id, record.timestamp, height⟩
    else none

/-- Each candidate gets its own evidence; one that fails does not stop the rest. -/
def observeAll (generation observedHeight : Nat) (observedAt : Instant) :
    List ExpiryCandidate → Op P Unit
  | [] => pure ()
  | candidate :: rest => do
    let _ ← (observeSolanaExpiry rounds
      { generation := generation
        id := candidate.id
        issuedAt := candidate.issuedAt
        lastValidHeight := candidate.lastValidHeight
        observedHeight := observedHeight
        observedAt := observedAt }).tried
    observeAll generation observedHeight observedAt rest

/-- `none` when the call is cancelled while it waits for the height. -/
def refreshSolanaAuthorizations : Prog E R Empty (Option (Except String Unit)) := do
  let view ← host.withLedger (Method.self >>= fun ledger =>
    pure (ledger.generation, expiryCandidates ledger))
  match view with
  | .error text => .pure (some (.error text))
  | .ok (generation, candidates) =>
    if candidates.isEmpty then .pure (some (.ok ()))
    else do
      let height ← host.finalizedHeight
      match height with
      | none => .pure none
      | some none => .pure (some (.ok ()))
      | some (some observedHeight) => do
        let observedAt ← host.utcNow
        let result ← host.withLedger
          (observeAll rounds generation observedHeight observedAt candidates)
        .pure (some result)

/-- The host of a caller in process `p`. -/
def processHost (p : P) : Host P (Request P) Request.Answer where
  withLedger := fun method => withLedger p method
  utcNow := .call .utcNow .pure
  finalizedHeight := .call .finalizedSolanaBlockHeight fun height => .pure (some height)

end LedgerReceipts
