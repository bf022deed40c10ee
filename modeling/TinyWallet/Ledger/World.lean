import TinyWallet.Ledger.Service
import TinyWallet.Ledger.Storage

/-!
# The module around the payment service

The read/write lock, the configured runtime, the process-wide ledger with its
mutex, and the storage that other processes write to as well. They draw holds
under owners of their own, so what they write keeps no key of this module's
owners that is not stored already.

Notes record which reservation a call was granted and on which ledger it was
settled, whether storage failed the call, and what the call has changed.
-/

namespace LedgerWorld

open Programs Sharing Tables LedgerRecords LedgerStore LedgerStorage LedgerService

variable {ι : Type}

structure World (ι : Type) where
  /-- Storage, the clock and the counter of reservations. -/
  storage : Shared Unit ι
  readers : ι → Bool
  writer : Option ι
  runtime : Option X402Runtime
  ledger : Option PaymentLedger
  /-- Who has the ledger's mutex. -/
  user : Option ι
  generations : Nat
  /-- The owners this module has opened ledgers under. -/
  owners : List String

def World.handle (s : World ι) : Option String := s.runtime.map X402Runtime.handle

/-- A key of this module's. -/
def World.Ours (s : World ι) (key : String) : Prop :=
  ∃ owner ∈ s.owners, ∃ id, key = holdKey owner id

/-- The stored hold of a key. -/
def World.stored (s : World ι) (key : String) : Option Hold := s.storage.holds.lookup key

variable [DecidableEq ι]

/-- How a request of call `i` may be answered, and what is left then. -/
def ModuleAnswers (s : World ι) (i : ι) : (e : ModuleRequest) → e.Answer → World ι → Prop
  | .read, granted, t =>
    (granted = true ∧ s.writer = none ∧
        t = { s with readers := Function.update s.readers i true }) ∨
      (granted = false ∧ t = s)
  | .readDone, _, t => t = { s with readers := Function.update s.readers i false }
  | .write, granted, t =>
    (granted = true ∧ s.writer = none ∧ (∀ j, s.readers j = false) ∧
      t = { s with writer := some i }) ∨ (granted = false ∧ t = s)
  | .writeDone, _, t => t = { s with writer := none }
  | .runtime, runtime, t => runtime = s.runtime ∧ t = s
  | .setRuntime next, _, t => t = { s with runtime := next }
  | .beginPending, admitted, t =>
    match s.runtime with
    | none => admitted = false ∧ t = s
    | some runtime =>
      if maxPending ≤ runtime.preparing then admitted = false ∧ t = s
      else admitted = true ∧
        t = { s with runtime := some { runtime with preparing := runtime.preparing + 1 } }
  | .endPending, _, t =>
    t = { s with
      runtime := s.runtime.map fun runtime =>
        { runtime with preparing := runtime.preparing - 1 } }
  | .lockLedger, ledger, t =>
    s.user = none ∧ ledger = s.ledger ∧ t = { s with user := some i }
  | .unlockLedger ledger _, _, t => t = { s with ledger := ledger, user := none }
  | .storage e, r, t => Plain e ∧
    ∃ storage, Answers (fun _ => ()) s.storage i e r storage ∧ t = { s with storage := storage }
  | .ledgerStorage, _, t => t = s
  | .migrationReady, _, t => t = s
  | .numberLedger, (generation, owner), t =>
    s.generations ≤ generation ∧ owner ∉ s.owners ∧
      t = { s with generations := generation + 1, owners := owner :: s.owners }
  | .newHandle, _, t => t = s
  | .newPaymentId, _, t => t = s
  | .authorize, _, t => t = s
  | .build, _, t => t = s
  | .finalizedHeight, _, t => t = s
  | .elsewhere (.put holds), _, t =>
    (∀ key, s.Ours key → s.stored key = none → holds.lookup key = none) ∧
      t = { s with storage := s.storage.put holds }
  | .elsewhere (.append value), _, t =>
    t = { s with storage := { s.storage with stream := s.storage.stream ++ [value] } }

/-- What a host answers to the awaits of a call. -/
structure HostAnswers where
  migrated : Except String Unit
  authorized : Option (Except String Unit)
  built : Option (Except String BuiltPayment)
  finalizedHeight : Option (Option Nat)

def numberedOwner (generation : Nat) : String := "ledger-" ++ toString generation

instance decidablePlain (e : Request Unit) : Decidable (Plain e) :=
  match e with
  | .lock _ => .isFalse id
  | .unlock _ _ => .isFalse id
  | .loadHolds => .isTrue trivial
  | .storeHolds _ _ => .isTrue trivial
  | .readWindow _ => .isTrue trivial
  | .append _ => .isTrue trivial
  | .nextReservation => .isTrue trivial
  | .utcNow => .isTrue trivial
  | .finalizedSolanaBlockHeight => .isTrue trivial
  | .stall => .isTrue trivial

def respondStorage (i : ι) (s : World ι) (e : Request Unit) : Option (e.Answer × World ι) :=
  if Plain e then
    (respond (fun _ => ()) (fun _ => false) i s.storage e).map fun reply =>
      (reply.1, { s with storage := reply.2 })
  else none

theorem respondStorage_answers {i : ι} {s t : World ι} {e : Request Unit} {r : e.Answer}
    (h : respondStorage i s e = some (r, t)) : ModuleAnswers s i (.storage e) r t := by
  rw [respondStorage] at h
  split_ifs at h with hplain
  obtain ⟨reply, hreply, heq⟩ := Option.map_eq_some_iff.mp h
  cases heq
  exact ⟨hplain, reply.2, respond_answers hreply, rfl⟩

/-- The answer to a request where storage works; `none` where the caller has to wait. -/
def respondModule [Fintype ι] (host : HostAnswers) (i : ι) (s : World ι) :
    (e : ModuleRequest) → Option (e.Answer × World ι)
  | .read =>
    if s.writer = none then
      some (true, { s with readers := Function.update s.readers i true })
    else none
  | .readDone => some ((), { s with readers := Function.update s.readers i false })
  | .write =>
    if s.writer = none ∧ ∀ j, s.readers j = false then some (true, { s with writer := some i })
    else none
  | .writeDone => some ((), { s with writer := none })
  | .runtime => some (s.runtime, s)
  | .setRuntime next => some ((), { s with runtime := next })
  | .beginPending =>
    match s.runtime with
    | none => some (false, s)
    | some runtime =>
      if maxPending ≤ runtime.preparing then some (false, s)
      else some (true, { s with
        runtime := some { runtime with preparing := runtime.preparing + 1 } })
  | .endPending => some ((), { s with
      runtime := s.runtime.map fun runtime =>
        { runtime with preparing := runtime.preparing - 1 } })
  | .lockLedger => if s.user = none then some (s.ledger, { s with user := some i }) else none
  | .unlockLedger ledger _ => some ((), { s with ledger := ledger, user := none })
  | .storage e => respondStorage i s e
  | .ledgerStorage => some (some (.ok ()), s)
  | .migrationReady => some (host.migrated, s)
  | .numberLedger =>
    if numberedOwner s.generations ∉ s.owners then
      some ((s.generations, numberedOwner s.generations), { s with
        generations := s.generations + 1
        owners := numberedOwner s.generations :: s.owners })
    else none
  | .newHandle => some ("handle-" ++ toString s.generations, s)
  | .newPaymentId => some ("x402_payment", s)
  | .authorize => some (host.authorized, s)
  | .build => some (host.built, s)
  | .finalizedHeight => some (host.finalizedHeight, s)
  | .elsewhere _ => none

theorem respondModule_answers [Fintype ι] {host : HostAnswers} {i : ι} {s t : World ι}
    {e : ModuleRequest} {r : e.Answer} (h : respondModule host i s e = some (r, t)) :
    ModuleAnswers s i e r t := by
  cases e with
  | read =>
    simp only [respondModule] at h
    split_ifs at h with hfree
    cases h
    exact .inl ⟨rfl, hfree, rfl⟩
  | write =>
    simp only [respondModule] at h
    split_ifs at h with hfree
    cases h
    exact .inl ⟨rfl, hfree.1, hfree.2, rfl⟩
  | beginPending =>
    simp only [respondModule] at h
    cases hruntime : s.runtime with
    | none =>
      rw [hruntime] at h
      cases h
      simp [ModuleAnswers, hruntime]
    | some runtime =>
      rw [hruntime] at h
      dsimp only at h
      split_ifs at h with hfull
      · cases h
        simp [ModuleAnswers, hruntime, hfull]
      · cases h
        simp [ModuleAnswers, hruntime, hfull]
  | lockLedger =>
    simp only [respondModule] at h
    split_ifs at h with hfree
    cases h
    exact ⟨hfree, rfl, rfl⟩
  | storage e => exact respondStorage_answers h
  | numberLedger =>
    simp only [respondModule] at h
    split_ifs at h with hnew
    cases h
    exact ⟨le_refl _, hnew, rfl⟩
  | runtime =>
    cases h
    exact ⟨rfl, rfl⟩
  | readDone | writeDone | setRuntime | endPending | unlockLedger | ledgerStorage
  | migrationReady | newHandle | newPaymentId | authorize | build | finalizedHeight =>
    cases h
    exact rfl
  | elsewhere change => cases h

/-- A reservation and the ledger that granted it. -/
structure Grant where
  generation : Nat
  id : ReservationId
  key : String
deriving DecidableEq, Repr

structure Notes (ι : Type) where
  granted : ι → Option Grant
  /-- The ledger that a call's reservation was committed or released on. -/
  settled : ι → Option Nat
  /-- A storage request of the call failed, or its retries were used up. -/
  failed : ι → Bool
  /-- Races lost in a row since the ledger was taken. -/
  lost : ι → Nat
  changed : Set ι
  /-- Calls that changed something while they presented another handle. -/
  stale : Set ι

/-- The reservation a call has in hand. -/
def Notes.hand (n : Notes ι) (i : ι) : Option Grant :=
  if (n.settled i).isSome then none else n.granted i

/-- The handle, the ledger, the holds or the stream are others than before. -/
def Changes (s t : World ι) : Prop :=
  t.handle ≠ s.handle ∨ t.ledger ≠ s.ledger ∨ t.storage.doc ≠ s.storage.doc ∨
    t.storage.stream ≠ s.storage.stream

def grantedAfter (hand granted : Option Grant) : ModuleRequest → Option Grant
  | .unlockLedger (some ledger) (some id) =>
    if hand.isNone then some ⟨ledger.generation, id, holdKey ledger.owner id⟩ else granted
  | _ => granted

def settledAfter (hand : Option Grant) (settled : Option Nat) : ModuleRequest → Option Nat
  | .unlockLedger ledger none =>
    if hand.isSome then ledger.map PaymentLedger.generation else settled
  | _ => settled

def lostAfter (lost : Nat) : (e : ModuleRequest) → e.Answer → Nat
  | .lockLedger, _ => 0
  | .storage (.storeHolds _ _), .ok true => 0
  | .storage (.storeHolds _ _), .ok false => lost + 1
  | _, _ => lost

def faulted : (e : ModuleRequest) → e.Answer → Bool
  | .storage .loadHolds, .error _ => true
  | .storage (.storeHolds _ _), .error _ => true
  | .storage (.readWindow _), .error _ => true
  | .storage (.append _), .error _ => true
  | _, _ => false

def Notes.after (presented : ι → Option String) (n : Notes ι) (s : World ι) (i : ι)
    (e : ModuleRequest) (r : e.Answer) (t : World ι) : Notes ι where
  granted := Function.update n.granted i (grantedAfter (n.hand i) (n.granted i) e)
  settled := Function.update n.settled i (settledAfter (n.hand i) (n.settled i) e)
  failed := Function.update n.failed i
    (n.failed i || faulted e r || holdCasAttempts ≤ lostAfter (n.lost i) e r)
  lost := Function.update n.lost i (lostAfter (n.lost i) e r)
  changed := n.changed ∪ {j | j = i ∧ Changes s t}
  stale := n.stale ∪ {j | j = i ∧ Changes s t ∧ ∃ handle, presented i = some handle ∧
    s.handle ≠ some handle}

/-- One request of a call in the module. -/
def moduleEnv (presented : ι → Option String) (s : World ι × Notes ι) (i : ι) (e : ModuleRequest)
    (r : e.Answer) (t : World ι × Notes ι) : Prop :=
  ModuleAnswers s.1 i e r t.1 ∧ t.2 = s.2.after presented s.1 i e r t.1

/-- The ledger has the granted reservation. -/
structure HeldBy (m : PaymentLedger) (grant : Grant) : Prop where
  generation : m.generation = grant.generation
  key : grant.key = holdKey m.owner grant.id
  held : (m.reservations.lookup grant.id).isSome

/-- The ledger has nothing of the granted reservation. -/
def FreeOf (m : PaymentLedger) (grant : Grant) : Prop :=
  m.reservations.lookup grant.id = none ∧ m.holds.lookup grant.key = none

/-- A settled reservation that storage did not fail. -/
def Gone (s : World ι × Notes ι) (j : ι) (grant : Grant) : Prop :=
  s.2.granted j = some grant ∧ (s.2.settled j).isSome ∧ s.2.failed j = false

/-- Reservations are stored under their own keys. -/
def Keyed (m : PaymentLedger) : Prop :=
  ∀ id own, m.reservations.lookup id = some own → own.key = holdKey m.owner id

structure Inv (s : World ι × Notes ι) : Prop where
  exclusive : ∀ i j, s.1.writer = some i → s.1.readers j = false
  hands : ∀ j grant, s.2.hand j = some grant →
    s.1.readers j = true ∧ ∃ m, s.1.ledger = some m ∧ HeldBy m grant
  keyed : ∀ m, s.1.ledger = some m → m.owner ∈ s.1.owners ∧ Keyed m
  gone : ∀ j grant, Gone s j grant →
    s.1.stored grant.key = none ∧ ∀ m, s.1.ledger = some m → FreeOf m grant
  granted : ∀ j grant, s.2.granted j = some grant →
    grant.id < s.1.storage.ids () ∧ ∃ owner ∈ s.1.owners, grant.key = holdKey owner grant.id
  apart : ∀ j k a b, s.2.granted j = some a → s.2.granted k = some b → a.id = b.id → j = k
  settled : ∀ j generation, s.2.settled j = some generation →
    ∃ grant, s.2.granted j = some grant ∧ grant.generation = generation
  current : s.2.stale = ∅

/-- What a request of call `i` leaves to the other calls. -/
structure Guar (i : ι) (s t : World ι × Notes ι) : Prop where
  readers : ∀ j, j ≠ i → t.1.readers j = s.1.readers j
  writer : ∀ j, j ≠ i → (t.1.writer = some j ↔ s.1.writer = some j)
  user : ∀ j, j ≠ i → (t.1.user = some j ↔ s.1.user = some j)
  /-- A ledger in use is nobody else's to touch. -/
  sectionKept : ∀ j, j ≠ i → s.1.user = some j → t.1.ledger = s.1.ledger ∧
    t.2.granted i = s.2.granted i ∧ t.2.settled i = s.2.settled i ∧
    ∀ key, s.1.Ours key → s.1.stored key = none → t.1.stored key = none
  /-- The service stays while somebody reads it or writes it. -/
  service : ∀ j, j ≠ i → s.1.readers j = true ∨ s.1.writer = some j → t.1.handle = s.1.handle
  notes : ∀ j, j ≠ i → t.2.granted j = s.2.granted j ∧ t.2.settled j = s.2.settled j ∧
    t.2.failed j = s.2.failed j ∧ t.2.lost j = s.2.lost j ∧ (j ∈ t.2.changed ↔ j ∈ s.2.changed)
  failed : s.2.failed i = true → t.2.failed i = true
  ids : s.1.storage.ids () ≤ t.1.storage.ids ()
  owners : ∀ owner ∈ s.1.owners, owner ∈ t.1.owners

def moduleContract : Contract (World ι × Notes ι) ι where
  inv := Inv
  guar := Guar

end LedgerWorld
