import TinyWallet.Ledger.Records
import TinyWallet.Library.Numerals
import TinyWallet.Library.Sharing

/-!
# The payment ledger

One ledger's memory and its methods. Every storage call is a request, so that
other processes may act between any two of them; a method runs while its caller
holds the ledger, which is what `&mut self` and the process-wide mutex give.

The loop that reads the stream goes on while there is something to read.
`rounds` cuts it off: a reader that would go on stalls, and what is proved for
every `rounds` holds of every finite run.
-/

namespace LedgerStore

open Programs Sharing Tables LedgerRecords

def holdCasAttempts : Nat := 16

def holdTtlMs : Int := 15 * 60 * 1000

/-- Entries read per stream window. -/
def windowSize : Nat := 512

structure Hold where
  amount : Nat
  expiresMs : Int
deriving DecidableEq, Repr

abbrev Holds := Table String Hold

abbrev Version := Nat

abbrev ReservationId := Nat

/-- A hold this ledger placed. -/
structure OwnHold where
  key : String
  amount : Nat
deriving DecidableEq, Repr

structure PaymentLedger where
  generation : Nat
  records : List PaymentRecord
  committedHolds : List String
  nextOffset : Nat
  budget : SpendingBudget
  sessionId : String
  owner : String
  reservations : Table ReservationId OwnHold
  holds : Holds

/-- An entry as the stream returns it; `none` stands for a value that is not a
stored payment. -/
structure StreamEntry where
  offset : Nat
  value : Option StoredPayment

/-- A payment read back from the stream, with the hold its entry committed. -/
abbrev LoadedPayment := PaymentRecord × Option String

/-- What a call asks of the rest of the process and of storage. `P` names the
processes, each with one ledger behind a mutex. -/
inductive Request (P : Type) where
  | lock (p : P)
  | unlock (p : P) (ledger : PaymentLedger)
  | loadHolds
  | storeHolds (version : Option Version) (holds : Holds)
  | readWindow (next : Nat)
  | append (value : StoredPayment)
  | nextReservation
  | utcNow
  | finalizedSolanaBlockHeight
  | stall

@[reducible] def Request.Answer {P : Type} : Request P → Type
  | .lock _ => PaymentLedger
  | .unlock _ _ => Unit
  | .loadHolds => Except String (Option Version × Holds)
  | .storeHolds _ _ => Except String Bool
  | .readWindow _ => Except String (List StreamEntry)
  | .append _ => Except String Nat
  | .nextReservation => ReservationId
  | .utcNow => Instant
  | .finalizedSolanaBlockHeight => Option Nat
  | .stall => Empty

/-- A method of the ledger. -/
abbrev Op (P α : Type) := Method (Request P) Request.Answer PaymentLedger α

variable {P : Type} (rounds : Nat)

def loadHolds : Op P (Option Version × Holds) := Method.ask .loadHolds id

def storeHolds (version : Option Version) (holds : Holds) : Op P Bool :=
  Method.ask (.storeHolds version holds) id

def append (record : PaymentRecord) (committedHold : Option String) : Op P Nat :=
  Method.ask (.append (storedPayment record committedHold)) id

def nextReservation : Op P ReservationId := Method.ask .nextReservation Except.ok

/-- An entry that no longer parses is skipped. -/
def parsed (value : Option StoredPayment) : Option LoadedPayment :=
  value.bind fun stored => (intoRecord stored).toOption

def readFrom : Nat → Nat → List LoadedPayment → Op P (List LoadedPayment × Nat)
  | 0, _, _ => Method.ask .stall Empty.elim
  | rounds + 1, next, records => do
    let window ← Method.ask (.readWindow next) id
    match window.getLast? with
    | none => pure (records, next)
    | some last =>
      readFrom rounds (last.offset + 1)
        (records ++ window.filterMap fun entry => parsed entry.value)

/-- The ledger with more of the stream read. -/
def PaymentLedger.loaded (ledger : PaymentLedger) (fresh : List LoadedPayment) (next : Nat) :
    PaymentLedger :=
  { ledger with
    committedHolds := fresh.filterMap Prod.snd ++ ledger.committedHolds
    records := ledger.records ++ fresh.map Prod.fst
    nextOffset := next }

def PaymentLedger.push (ledger : PaymentLedger) (record : PaymentRecord) : PaymentLedger :=
  { ledger with records := ledger.records ++ [record] }

/-- `from_persist`: a ledger that has read the whole stream and holds nothing. -/
def openLedger (generation : Nat) (owner sessionId : String) (budget : SpendingBudget) :
    Op P Unit := do
  let (records, nextOffset) ← readFrom rounds 0 []
  Method.update fun _ =>
    { generation := generation
      records := records.map Prod.fst
      committedHolds := records.filterMap Prod.snd
      nextOffset := nextOffset
      budget := budget
      sessionId := sessionId
      owner := owner
      reservations := ∅
      holds := ∅ }

def refreshRecords : Op P Unit := do
  let ledger ← Method.self
  let (fresh, next) ← readFrom rounds ledger.nextOffset []
  Method.update fun ledger => ledger.loaded fresh next

def commitKey (committedHold : Option String) (ledger : PaymentLedger) : PaymentLedger :=
  { ledger with committedHolds := committedHold.toList ++ ledger.committedHolds }

def appendRecord (record : PaymentRecord) (committedHold : Option String) : Op P Unit := do
  let record := record.atMillisecondPrecision
  let offset ← append record committedHold
  Method.update (commitKey committedHold)
  let ledger ← Method.self
  if offset = ledger.nextOffset then
    Method.update fun ledger => { ledger.push record with nextOffset := offset + 1 }
  else do
    let refreshed ← (refreshRecords rounds).tried
    match refreshed with
    | .ok _ => pure ()
    -- another writer interleaved and the re-read failed
    | .error _ => Method.update fun ledger => ledger.push record

def tryRecordPayment (record : PaymentRecord) : Op P Unit := appendRecord rounds record none

def recordPayment (record : PaymentRecord) : Op P Unit := do
  let appended ← (appendRecord rounds record none).tried
  match appended with
  | .ok _ => pure ()
  | .error _ => Method.update fun ledger => ledger.push record.atMillisecondPrecision

def heldAtomic (holds : Holds) : Nat :=
  holds.entries.foldl (fun total entry => saturatingAdd total entry.2.amount) 0

def PaymentLedger.reservedAtomic (ledger : PaymentLedger) : Nat := heldAtomic ledger.holds

def PaymentLedger.checkBudgetAt (ledger : PaymentLedger) (now : Instant) (amount : Nat) :
    BudgetCheck :=
  checkBudget ledger.budget ledger.reservedAtomic ledger.records now amount

/-- The holds that a reservation at `nowMs` counts. -/
def liveHolds (nowMs : Int) (committedHolds : List String) (holds : Holds) : Holds :=
  retain (fun key hold => nowMs < hold.expiresMs && !committedHolds.contains key) holds

def holdKey (owner : String) (id : ReservationId) : String := owner ++ ":" ++ toString id

theorem holdKey_inj {owner owner' : String} {id id' : ReservationId}
    (h : holdKey owner id = holdKey owner' id') : owner = owner' ∧ id = id' :=
  Numerals.colon_toString_inj h

def contended : String := "x402 budget hold contention: gave up after repeated conflicts"

def reserveLoop (now : Instant) (amount : Nat) :
    Nat → Op P (Except BudgetRefusal ReservationId)
  | 0 => Method.throw contended
  | attempts + 1 => do
    let (version, doc) ← loadHolds
    refreshRecords rounds
    Method.update fun ledger =>
      { ledger with holds := liveHolds now.millis ledger.committedHolds doc }
    let ledger ← Method.self
    match (ledger.checkBudgetAt now amount).refusal with
    | some refusal => do
      let (current, _) ← loadHolds
      if current = version then pure (.error refusal) else reserveLoop now amount attempts
    | none => do
      let id ← nextReservation
      let key := holdKey ledger.owner id
      let holds := ledger.holds.insert key ⟨amount, now.millis + holdTtlMs⟩
      let stored ← storeHolds version holds
      if stored then do
        Method.update fun ledger =>
          { ledger with
            holds := holds
            reservations := ledger.reservations.insert id ⟨key, amount⟩ }
        pure (.ok id)
      else reserveLoop now amount attempts

def reserveAt (now : Instant) (amount : Nat) : Op P (Except BudgetRefusal ReservationId) := do
  let ledger ← Method.self
  if ledger.budget.perRequestMaxAtomic < amount then
    pure (.error (.perRequest amount ledger.budget.perRequestMaxAtomic))
  else reserveLoop rounds now amount holdCasAttempts

/-- The stored hold goes; giving up leaves it to expire. -/
def releaseLoop (key : String) : Nat → Op P Unit
  | 0 => pure ()
  | attempts + 1 => do
    let found ← loadHolds.tried
    match found with
    | .error _ => pure ()
    | .ok (version, doc) =>
      if version.isNone || (doc.lookup key).isNone then pure ()
      else do
        let stored ← (storeHolds version (doc.erase key)).tried
        match stored with
        | .ok true => pure ()
        | .ok false => releaseLoop key attempts
        | .error _ => pure ()

def release (id : ReservationId) : Op P Unit := do
  let ledger ← Method.self
  match ledger.reservations.lookup id with
  | none => pure ()
  | some own => do
    Method.update fun ledger =>
      { ledger with
        reservations := ledger.reservations.erase id
        holds := ledger.holds.erase own.key }
    releaseLoop own.key holdCasAttempts

/-- The document with the ledger's own holds placed again. -/
def renewed (ledger : PaymentLedger) (nowMs : Int) (doc : Holds) : Holds :=
  ledger.reservations.entries.foldl
    (fun holds entry => holds.insert entry.2.key ⟨entry.2.amount, nowMs + holdTtlMs⟩)
    (retain (fun _ hold => nowMs < hold.expiresMs) doc)

/-- Every own key is placed again, and nothing else is touched. -/
theorem lookup_placed (expiresMs : Int) (entries : List (Sigma fun _ : ReservationId => OwnHold))
    (holds : Holds) (key : String) :
    let placed := entries.foldl
      (fun holds entry => holds.insert entry.2.key ⟨entry.2.amount, expiresMs⟩) holds
    (∃ entry ∈ entries, entry.2.key = key ∧
        placed.lookup key = some ⟨entry.2.amount, expiresMs⟩) ∨
      ((∀ entry ∈ entries, entry.2.key ≠ key) ∧ placed.lookup key = holds.lookup key) := by
  induction entries generalizing holds with
  | nil => exact .inr ⟨by simp, rfl⟩
  | cons entry rest ih =>
    rcases ih (holds.insert entry.2.key ⟨entry.2.amount, expiresMs⟩) with
      ⟨later, hlater, hkey, hlookup⟩ | ⟨hothers, hlookup⟩
    · exact .inl ⟨later, List.mem_cons_of_mem _ hlater, hkey, hlookup⟩
    · by_cases hkey : entry.2.key = key
      · refine .inl ⟨entry, List.mem_cons_self, hkey, ?_⟩
        rw [← hkey, AList.lookup_insert] at hlookup
        rw [← hkey]
        exact hlookup
      · refine .inr ⟨?_, ?_⟩
        · intro other hmem
          rcases List.mem_cons.mp hmem with rfl | hmem
          · exact hkey
          · exact hothers other hmem
        · rw [AList.lookup_insert_ne (Ne.symm hkey)] at hlookup
          exact hlookup

theorem lookup_renewed (ledger : PaymentLedger) (nowMs : Int) (doc : Holds) (key : String) :
    (∃ id own, ledger.reservations.lookup id = some own ∧ own.key = key ∧
        (renewed ledger nowMs doc).lookup key = some ⟨own.amount, nowMs + holdTtlMs⟩) ∨
      ((∀ id own, ledger.reservations.lookup id = some own → own.key ≠ key) ∧
        (renewed ledger nowMs doc).lookup key =
          (doc.lookup key).filter fun hold => nowMs < hold.expiresMs) := by
  rcases lookup_placed (nowMs + holdTtlMs) ledger.reservations.entries
    (retain (fun _ hold => nowMs < hold.expiresMs) doc) key with
    ⟨entry, hentry, hkey, hlookup⟩ | ⟨hothers, hlookup⟩
  · exact .inl ⟨entry.1, entry.2, AList.mem_lookup_iff.mpr hentry, hkey, hlookup⟩
  · refine .inr ⟨fun id own hown hkey => ?_, ?_⟩
    · exact hothers ⟨id, own⟩ (AList.mem_lookup_iff.mp hown) hkey
    · rw [lookup_retain] at hlookup
      exact hlookup

def renewLoop (now : Instant) : Nat → Op P Nat
  | 0 => Method.throw "x402 budget hold renewal: gave up after repeated conflicts"
  | attempts + 1 => do
    let (version, doc) ← loadHolds
    let ledger ← Method.self
    let holds := renewed ledger now.millis doc
    let stored ← storeHolds version holds
    if stored then do
      Method.update fun ledger => { ledger with holds := holds }
      pure ledger.reservations.entries.length
    else renewLoop now attempts

def renewHoldsAt (now : Instant) : Op P Nat := do
  let ledger ← Method.self
  if ledger.reservations.entries.isEmpty then pure 0 else renewLoop now holdCasAttempts

def reservationKey (ledger : PaymentLedger) (id : ReservationId) : Option String :=
  (ledger.reservations.lookup id).map OwnHold.key

def commitReservation (id : ReservationId) (record : PaymentRecord) : Op P Unit := do
  let ledger ← Method.self
  let appended ← (appendRecord rounds record (reservationKey ledger id)).tried
  match appended with
  | .ok _ => pure ()
  | .error _ => Method.update fun ledger => ledger.push record.atMillisecondPrecision
  release id

def tryCommitReservation (id : ReservationId) (record : PaymentRecord) : Op P Unit := do
  let ledger ← Method.self
  appendRecord rounds record (reservationKey ledger id)
  release id

/-- Finalized evidence that an authorization can no longer be submitted. -/
structure ExpiryEvidence where
  generation : Nat
  id : String
  issuedAt : Instant
  lastValidHeight : Nat
  observedHeight : Nat
  observedAt : Instant

/-- The record is still the pending authorization the evidence is about. -/
def ExpiryEvidence.fits (evidence : ExpiryEvidence) (latest : PaymentRecord) : Bool :=
  latest.status = .pending && latest.timestamp = evidence.issuedAt &&
    latest.solanaLastValidBlockHeight = some evidence.lastValidHeight &&
    latest.authorizationExpiredAt.isNone && latest.timestamp.nanos ≤ evidence.observedAt.nanos

def ExpiryEvidence.expired (evidence : ExpiryEvidence) (latest : PaymentRecord) : PaymentRecord :=
  { latest with
    authorizationExpiredAt := some evidence.observedAt
    authorizationExpiryObservedHeight := some evidence.observedHeight }

def observeSolanaExpiry (evidence : ExpiryEvidence) : Op P Bool := do
  let ledger ← Method.self
  if ledger.generation ≠ evidence.generation ∨ evidence.observedHeight ≤ evidence.lastValidHeight
  then pure false
  else do
    refreshRecords rounds
    let ledger ← Method.self
    match payment ledger.records evidence.id with
    | none => pure false
    | some latest =>
      if evidence.fits latest then do
        tryRecordPayment rounds (evidence.expired latest)
        pure true
      else pure false

def PaymentLedger.pendingPayments (ledger : PaymentLedger) : List PaymentRecord :=
  (latestRecords ledger.records).filter fun record => record.status = .pending

def PaymentLedger.usablePendingCount (ledger : PaymentLedger) (now : Instant) : Nat :=
  ((latestRecords ledger.records).filter fun record =>
    record.status = .pending &&
      (authorizationWindowEnd record).all fun finish => now.nanos < finish.nanos).length

def PaymentLedger.outstandingAtomic (ledger : PaymentLedger) : Nat :=
  saturatingAdd (chargedTotal 0 isUnresolved ledger.records) ledger.reservedAtomic

/-- Run a method on a process's ledger while holding its mutex. -/
def withLedger {α : Type} (p : P) (method : Op P α) :
    Prog (Request P) Request.Answer Empty (Except String α) :=
  .call (.lock p) fun ledger =>
    method ledger >>= fun out => .call (.unlock p out.2) fun _ => .pure out.1

end LedgerStore
