import TinyWallet.Ledger.Reading

/-!
# Calls

The public methods of a ledger as calls that any number of callers make on any
number of ledgers. A call takes its process's ledger, runs one method and gives
the ledger back.
-/

namespace LedgerCalls

open Programs Sharing LedgerRecords LedgerStore LedgerStorage

inductive Outcome where
  | done
  | reserved (result : Except BudgetRefusal ReservationId)
  | renewed (count : Nat)
  | observed (written : Bool)
deriving DecidableEq

inductive Call where
  | openLedger (generation : Nat) (owner sessionId : String) (budget : SpendingBudget)
  | reserveAt (now : Instant) (amount : Nat)
  | release (id : ReservationId)
  | renewHoldsAt (now : Instant)
  | commitReservation (id : ReservationId) (record : PaymentRecord)
  | tryCommitReservation (id : ReservationId) (record : PaymentRecord)
  | tryRecordPayment (record : PaymentRecord)
  | recordPayment (record : PaymentRecord)
  | observeSolanaExpiry (evidence : ExpiryEvidence)

variable {P : Type}

def Call.method (rounds : Nat) : Call → Op P Outcome
  | .openLedger generation owner sessionId budget => do
    LedgerStore.openLedger rounds generation owner sessionId budget
    pure .done
  | .reserveAt now amount => do
    let result ← LedgerStore.reserveAt rounds now amount
    pure (.reserved result)
  | .release id => do
    LedgerStore.release id
    pure .done
  | .renewHoldsAt now => do
    let count ← LedgerStore.renewHoldsAt now
    pure (.renewed count)
  | .commitReservation id record => do
    LedgerStore.commitReservation rounds id record
    pure .done
  | .tryCommitReservation id record => do
    LedgerStore.tryCommitReservation rounds id record
    pure .done
  | .tryRecordPayment record => do
    LedgerStore.tryRecordPayment rounds record
    pure .done
  | .recordPayment record => do
    LedgerStore.recordPayment rounds record
    pure .done
  | .observeSolanaExpiry evidence => do
    let written ← LedgerStore.observeSolanaExpiry rounds evidence
    pure (.observed written)

/-- Calls that keep their record in memory even when it could not be stored. -/
def Call.Unsaved : Call → Prop
  | .commitReservation _ _ => True
  | .recordPayment _ => True
  | _ => False

def Call.program (rounds : Nat) (p : P) (call : Call) :
    Prog (Request P) Request.Answer Empty (Except String Outcome) :=
  withLedger p (call.method rounds)

/-- Noon of 15 March 2026. -/
def sampleNow : Instant := ⟨1773576000000000000, by decide, by decide⟩

def sampleRecord (id : String) (amount : Nat) (status : PaymentStatus) : PaymentRecord where
  id := id
  url := "https://api.example.com/data"
  asset := "USDC"
  amountAtomic := amount
  amountDisplay := ""
  recipient := "Recipient"
  network := "solana:5eykt4UsFv8P8NJdTREpY1vzqKqZKvdp"
  txSignature := none
  status := status
  timestamp := sampleNow
  authorizationValidUntil := none
  solanaLastValidBlockHeight := none
  authorizationExpiredAt := none
  authorizationExpiryObservedHeight := none
  sessionId := "session-a"
  threadId := none

def sampleBudget : SpendingBudget := ⟨10, 6, 100, by decide⟩

/-- A ledger that has read nothing yet. -/
def sampleLedger (owner : String) : PaymentLedger where
  generation := 1
  records := []
  committedHolds := []
  nextOffset := 0
  budget := sampleBudget
  sessionId := "session-a"
  owner := owner
  reservations := ∅
  holds := ∅

def sampleShared {ι : Type} (owner : P → String) (stream : List (Option StoredPayment)) :
    Shared P ι where
  doc := none
  nextVersion := 0
  unused := nofun
  stream := stream
  memory := fun p => sampleLedger (owner p)
  holder := fun _ => none
  ids := fun _ => 1
  clock := sampleNow

end LedgerCalls
