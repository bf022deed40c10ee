import TinyWallet.Ledger.Receipts

/-!
# The payment service of the wallet module

Configuring, closing, preparing and recording, as the module runs them: under
one read/write lock around the runtime, over one process-wide ledger behind a
mutex. An await may end in cancellation, which runs what a dropped call runs.
A renewal of holds takes the mutex alone, and other processes write to the same
storage.

Parsing a challenge, deriving accounts and signing are left outside: a request
carries what parsing it gives, and an await what the host answers.
-/

namespace LedgerService

open Programs Sharing LedgerRecords LedgerStore LedgerStorage LedgerReceipts
open X402Wire (SettlementResponse)

def maxPending : Nat := 64

/-- The configured service. -/
structure X402Runtime where
  handle : String
  sessionId : String
  preparing : Nat
deriving DecidableEq, Repr

structure ConfigureRequest where
  sessionId : String
  budget : SpendingBudget

structure Challenge where
  amountAtomic : Nat
  asset : String
  recipient : String
  network : String
deriving DecidableEq, Repr

structure PreparePaymentRequest where
  service : String
  url : String
  threadId : Option String
  /-- Whether the secrets and the challenge header are well formed. -/
  accepted : Except String Unit
  challenge : Except String Challenge

/-- What the builder says about the authorization it signed. -/
structure BuiltPayment where
  authorizationValidUntil : Option Instant
  solanaLastValidBlockHeight : Option Nat

/-- A write of another process to the shared storage. -/
inductive Elsewhere where
  | put (holds : Holds)
  | append (value : Option StoredPayment)

/-- What a call asks of the module, its host and storage. Awaits answer `none`
or `false` when the call is cancelled there. `inHand` is the reservation that
the call holds once the ledger is given back. -/
inductive ModuleRequest where
  | read
  | readDone
  | write
  | writeDone
  | runtime
  | setRuntime (next : Option X402Runtime)
  | beginPending
  | endPending
  | lockLedger
  | unlockLedger (ledger : Option PaymentLedger) (inHand : Option ReservationId)
  | storage (e : Request Unit)
  | ledgerStorage
  | migrationReady
  | numberLedger
  | newHandle
  | newPaymentId
  | authorize
  | build
  | finalizedHeight
  | elsewhere (change : Elsewhere)

@[reducible] def ModuleRequest.Answer : ModuleRequest → Type
  | .read => Bool
  | .readDone => Unit
  | .write => Bool
  | .writeDone => Unit
  | .runtime => Option X402Runtime
  | .setRuntime _ => Unit
  | .beginPending => Bool
  | .endPending => Unit
  | .lockLedger => Option PaymentLedger
  | .unlockLedger _ _ => Unit
  | .storage e => e.Answer
  | .ledgerStorage => Option (Except String Unit)
  | .migrationReady => Except String Unit
  | .numberLedger => Nat × String
  | .newHandle => String
  | .newPaymentId => String
  | .authorize => Option (Except String Unit)
  | .build => Option (Except String BuiltPayment)
  | .finalizedHeight => Option (Option Nat)
  | .elsewhere _ => Unit

abbrev Run (α : Type) := Prog ModuleRequest ModuleRequest.Answer Empty α

/-- How a call ends. -/
inductive Ended where
  | cancelled
  | failed (message : String)
  | configured (handle : String)
  | closed
  | prepared (paymentId : String)
  | recorded
  | renewed
  | written
deriving DecidableEq

/-- A ledger method makes its requests to storage. -/
def lifted {α : Type} : Prog (Request Unit) Request.Answer Empty α → Run α
  | .pure a => .pure a
  | .fail e => e.elim
  | .call e k => .call (.storage e) fun r => lifted (k r)

variable (rounds : Nat) (parseSettlementResponse : String → Except String SettlementResponse)

def notInitialised : String := "x402 payment ledger not initialized"

/-- `with_ledger_mut`. `inHand` says which reservation the caller holds afterwards. -/
def withLedgerMut {α : Type} (method : Op Unit α)
    (inHand : Except String α → Option ReservationId) : Run (Except String α) :=
  .call .lockLedger fun found =>
    match found with
    | none => .call (.unlockLedger none (inHand (.error notInitialised))) fun _ =>
        .pure (.error notInitialised)
    | some ledger => lifted (method ledger) >>= fun out =>
        .call (.unlockLedger (some out.2) (inHand out.1)) fun _ => .pure out.1

/-- A section that neither takes nor ends a reservation. -/
def withLedger {α : Type} (method : Op Unit α) : Run (Except String α) :=
  withLedgerMut method fun _ => none

def utcNow : Op Unit Instant := Method.ask .utcNow Except.ok

/-- `ledger::reserve`. -/
def reserve (amount : Nat) : Run (Except String (Except BudgetRefusal ReservationId)) :=
  withLedgerMut (utcNow >>= fun now => reserveAt rounds now amount) fun result =>
    match result with
    | .ok (.ok id) => some id
    | _ => none

/-- `Reservation::drop`. -/
def dropReservation (id : ReservationId) : Run Unit :=
  withLedgerMut (release id) (fun _ => none) >>= fun _ => .pure ()

/-- `Reservation::commit_durable`: a reservation that could not be committed is dropped. -/
def commitDurable (id : ReservationId) (record : PaymentRecord) : Run (Except String Unit) :=
  withLedgerMut (tryCommitReservation rounds id record) (fun result =>
      match result with
      | .ok _ => none
      | .error _ => some id) >>= fun result =>
    match result with
    | .ok _ => .pure (.ok ())
    | .error text => dropReservation id >>= fun _ => .pure (.error text)

/-- The module, as the one who records payments and refreshes authorizations. -/
def moduleHost : Host Unit ModuleRequest ModuleRequest.Answer where
  withLedger := withLedger
  utcNow := .call (.storage .utcNow) .pure
  finalizedHeight := .call .finalizedHeight .pure

def walletError (text : String) : String := "x402 wallet: " ++ text

def refusalText : BudgetRefusal → String
  | .perRequest requested cap =>
    "x402 amount " ++ toString requested ++ " exceeds per-request cap " ++ toString cap
  | .daily current cap =>
    "x402 daily budget exceeded: " ++ toString current ++ "/" ++ toString cap ++ " atomic units"
  | .monthly current cap =>
    "x402 monthly budget exceeded: " ++ toString current ++ "/" ++ toString cap ++ " atomic units"

def capacityReached : String := "x402 pending-payment capacity reached"

def pendingRecord (request : PreparePaymentRequest) (challenge : Challenge) (built : BuiltPayment)
    (sessionId paymentId : String) (now : Instant) : PaymentRecord where
  id := paymentId
  url := request.url
  asset := challenge.asset
  amountAtomic := challenge.amountAtomic
  amountDisplay := formatUsdc challenge.amountAtomic
  recipient := challenge.recipient
  network := challenge.network
  txSignature := none
  status := .pending
  timestamp := now
  authorizationValidUntil := built.authorizationValidUntil
  solanaLastValidBlockHeight := built.solanaLastValidBlockHeight
  authorizationExpiredAt := none
  authorizationExpiryObservedHeight := none
  sessionId := sessionId
  threadId := request.threadId

/-- From the reservation to the durable record. -/
def payReserved (request : PreparePaymentRequest) (challenge : Challenge) (sessionId : String)
    (id : ReservationId) : Run Ended :=
  .call .authorize fun authorized =>
  match authorized with
  | none => dropReservation id >>= fun _ => .pure .cancelled
  | some (.error text) => dropReservation id >>= fun _ => .pure (.failed (walletError text))
  | some (.ok _) => .call .build fun built =>
    match built with
    | none => dropReservation id >>= fun _ => .pure .cancelled
    | some (.error text) => dropReservation id >>= fun _ => .pure (.failed text)
    | some (.ok built) => .call .newPaymentId fun paymentId =>
      .call (.storage .utcNow) fun now =>
        commitDurable rounds id (pendingRecord request challenge built sessionId paymentId now)
          >>= fun result =>
        match result with
        | .ok _ => .pure (.prepared paymentId)
        | .error _ => .pure (.failed "x402 payment budget could not be durably recorded")

/-- `handle_402_and_pay_authorized` and what follows it. -/
def pay (request : PreparePaymentRequest) (sessionId : String) : Run Ended :=
  match request.challenge with
  | .error text => .pure (.failed text)
  | .ok challenge => refreshSolanaAuthorizations moduleHost rounds >>= fun refreshed =>
    match refreshed with
    | none => .pure .cancelled
    | some (.error text) => .pure (.failed (walletError text))
    | some (.ok _) => reserve rounds challenge.amountAtomic >>= fun reserved =>
      match reserved with
      | .error text => .pure (.failed (walletError text))
      | .ok (.error refusal) => .pure (.failed (refusalText refusal))
      | .ok (.ok id) => payReserved rounds request challenge sessionId id

/-- `PendingAdmission::ensure_capacity`; the number of calls being prepared is read first. -/
def ensureCapacity : Run (Except String Unit) :=
  .call .runtime fun runtime =>
    withLedger (utcNow >>= fun now => Method.self >>= fun ledger =>
      pure (ledger.usablePendingCount now)) >>= fun pending =>
    match pending with
    | .error text => .pure (.error text)
    | .ok pending =>
      if maxPending < pending + (runtime.map X402Runtime.preparing).getD 0 then
        .pure (.error capacityReached)
      else .pure (.ok ())

/-- `X402Runtime::prepare`, after the handle was checked. -/
def prepare (request : PreparePaymentRequest) (sessionId : String) : Run Ended :=
  match request.accepted with
  | .error text => .pure (.failed text)
  | .ok _ => .call .beginPending fun admitted =>
    if admitted then
      (refreshSolanaAuthorizations moduleHost rounds >>= fun refreshed =>
        match refreshed with
        | none => .pure .cancelled
        | some (.error text) => .pure (.failed (walletError text))
        | some (.ok _) => ensureCapacity >>= fun capacity =>
          match capacity with
          | .error text => .pure (.failed text)
          | .ok _ => pay rounds request sessionId) >>= fun ended =>
      .call .endPending fun _ => .pure ended
    else .pure (.failed capacityReached)

def hostUnavailable : String := "wallet host callback interface is unavailable"

def handleUnavailable : String := "x402 service handle is unavailable"

/-- Runs `body` under the read lock if the presented handle is the current one. -/
def underRead (service : String) (body : X402Runtime → Run Ended) : Run Ended :=
  .call .read fun granted =>
    if granted then
      .call .runtime fun runtime =>
        (match runtime with
          | none => .pure (.failed hostUnavailable)
          | some runtime =>
            if service = runtime.handle then body runtime
            else .pure (.failed handleUnavailable)) >>= fun ended =>
        .call .readDone fun _ => .pure ended
    else .pure .cancelled

def x402PreparePayment (request : PreparePaymentRequest) : Run Ended :=
  underRead request.service fun runtime => prepare rounds request runtime.sessionId

def x402RecordPayment (request : RecordPaymentRequest) : Run Ended :=
  underRead request.service fun _ =>
    record moduleHost rounds parseSettlementResponse request >>= fun result =>
    match result with
    | .ok _ => .pure .recorded
    | .error text => .pure (.failed text)

/-- A ledger that has read nothing. -/
def unopened (generation : Nat) (owner : String) (request : ConfigureRequest) : PaymentLedger where
  generation := generation
  records := []
  committedHolds := []
  nextOffset := 0
  budget := request.budget
  sessionId := request.sessionId
  owner := owner
  reservations := ∅
  holds := ∅

/-- `X402Runtime::new`: the process-wide ledger is swapped once the new one has opened. -/
def newRuntime (request : ConfigureRequest) : Run (Except String X402Runtime) :=
  .call .migrationReady fun ready =>
  match ready with
  | .error text => .pure (.error text)
  | .ok _ => .call .numberLedger fun numbered =>
    lifted (openLedger rounds numbered.1 numbered.2 request.sessionId request.budget
      (unopened numbered.1 numbered.2 request)) >>= fun opened =>
    match opened with
    | (.error text, _) => .pure (.error text)
    | (.ok _, ledger) => .call .lockLedger fun _ =>
      .call (.unlockLedger (some ledger) none) fun _ =>
      .call .newHandle fun handle => .pure (.ok ⟨handle, request.sessionId, 0⟩)

def x402Configure (request : ConfigureRequest) : Run Ended :=
  .call .ledgerStorage fun storage =>
  match storage with
  | none => .pure .cancelled
  | some (.error text) => .pure (.failed text)
  | some (.ok _) => .call .write fun granted =>
    if granted then
      newRuntime rounds request >>= fun next =>
      match next with
      | .error text => .call .writeDone fun _ => .pure (.failed text)
      | .ok runtime => .call (.setRuntime (some runtime)) fun _ =>
        .call .writeDone fun _ => .pure (.configured runtime.handle)
    else .pure .cancelled

def x402Close (service : String) : Run Ended :=
  .call .write fun granted =>
    if granted then
      .call .runtime fun runtime =>
        match runtime with
        | none => .call .writeDone fun _ => .pure (.failed hostUnavailable)
        | some runtime =>
          if service = runtime.handle then
            .call .lockLedger fun _ =>
            .call (.unlockLedger none none) fun _ =>
            .call (.setRuntime none) fun _ =>
            .call .writeDone fun _ => .pure .closed
          else .call .writeDone fun _ => .pure (.failed handleUnavailable)
    else .pure .cancelled

/-- `renew_holds_once`, which no lock of the module holds back. -/
def renewHoldsOnce : Run Ended :=
  withLedger (utcNow >>= fun now => renewHoldsAt now) >>= fun _ => .pure .renewed

inductive ModuleCall where
  | configure (request : ConfigureRequest)
  | close (service : String)
  | prepare (request : PreparePaymentRequest)
  | record (request : RecordPaymentRequest)
  | renewHolds
  | elsewhere (change : Elsewhere)

def ModuleCall.program : ModuleCall → Run Ended
  | .configure request => x402Configure rounds request
  | .close service => x402Close service
  | .prepare request => x402PreparePayment rounds request
  | .record request => x402RecordPayment rounds parseSettlementResponse request
  | .renewHolds => renewHoldsOnce
  | .elsewhere change => .call (.elsewhere change) fun _ => .pure .written

/-- The handle a call presents. -/
def ModuleCall.presented : ModuleCall → Option String
  | .close service => some service
  | .prepare request => some request.service
  | .record request => some request.service
  | _ => none

end LedgerService
