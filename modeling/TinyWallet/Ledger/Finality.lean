import TinyWallet.Ledger.Mirrors
import TinyWallet.Ledger.Receipts

/-!
# Whether settled is final

Recording a receipt and observing an expiry both read first and append later.
An entry that is not settled goes behind a settled one of the same payment
exactly when the settled one was appended after the ledger had last read.

Notes keep how much of the stream each call had read when it looked its payment
up. Any storage call may fail, with or without having had its effect.
-/

namespace LedgerFinality

open Programs Sharing Tables LedgerRecords LedgerStore LedgerStorage LedgerReading LedgerCalls
  LedgerMirrors LedgerReceipts
open X402Wire (SettlementResponse)

variable {P ι γ : Type}

inductive ReceiptCall where
  | record (request : RecordPaymentRequest)
  | observeSolanaExpiry (evidence : ExpiryEvidence)

def ReceiptCall.program (rounds : Nat)
    (parseSettlementResponse : String → Except String SettlementResponse) (p : P) :
    ReceiptCall → Prog (Request P) Request.Answer Empty (Except String Unit)
  | .record request => LedgerReceipts.record (processHost p) rounds parseSettlementResponse request
  | .observeSolanaExpiry evidence =>
    withLedger p (LedgerStore.observeSolanaExpiry rounds evidence >>= fun _ => pure ())

def SettledIn (id : String) (records : List PaymentRecord) : Prop :=
  ∃ record ∈ records, record.id = id ∧ record.status = .settled

/-- Only settled records follow a settled one of the same payment. -/
def Final (records : List PaymentRecord) : Prop :=
  records.Pairwise fun earlier later =>
    earlier.status = .settled → earlier.id = later.id → later.status = .settled

/-- The last record of a payment is settled. -/
def LatestSettled (id : String) (records : List PaymentRecord) : Prop :=
  ∃ latest, payment records id = some latest ∧ latest.status = .settled

theorem settledIn_append {id : String} {records more : List PaymentRecord} :
    SettledIn id (records ++ more) ↔ SettledIn id records ∨ SettledIn id more := by
  constructor
  · rintro ⟨record, hmem, h⟩
    rcases List.mem_append.mp hmem with hmem | hmem
    · exact .inl ⟨record, hmem, h⟩
    · exact .inr ⟨record, hmem, h⟩
  · rintro (⟨record, hmem, h⟩ | ⟨record, hmem, h⟩)
    · exact ⟨record, List.mem_append_left _ hmem, h⟩
    · exact ⟨record, List.mem_append_right _ hmem, h⟩

theorem LatestSettled.append_of_settled {id : String} {records more : List PaymentRecord}
    (h : LatestSettled id records)
    (later : ∀ record ∈ more, record.id = id → record.status = .settled) :
    LatestSettled id (records ++ more) := by
  obtain ⟨latest, hlatest, hsettled⟩ := h
  rw [LatestSettled, payment_append]
  cases hmore : payment more id with
  | none => exact ⟨latest, hlatest, hsettled⟩
  | some last => exact ⟨last, rfl, later last (payment_mem hmore) (payment_id hmore)⟩

theorem LatestSettled.append_right {id : String} {more : List PaymentRecord}
    (h : LatestSettled id more) (records : List PaymentRecord) :
    LatestSettled id (records ++ more) := by
  obtain ⟨latest, hlatest, hsettled⟩ := h
  refine ⟨latest, ?_, hsettled⟩
  rw [payment_append, hlatest]
  rfl

theorem latestSettled_of_final {id : String} {records : List PaymentRecord} (h : Final records)
    (settled : SettledIn id records) : LatestSettled id records := by
  induction records with
  | nil =>
    obtain ⟨record, hmem, -⟩ := settled
    cases hmem
  | cons first rest ih =>
    obtain ⟨hfirst, hrest⟩ := List.pairwise_cons.mp h
    obtain ⟨record, hmem, hid, hsettled⟩ := settled
    have hsplit : first :: rest = [first] ++ rest := rfl
    rw [hsplit]
    rcases List.mem_cons.mp hmem with rfl | hmem
    · have hhead : LatestSettled id [record] := ⟨record, by simp [payment, hid], hsettled⟩
      refine hhead.append_of_settled ?_
      exact fun later hlater heq => hfirst later hlater hsettled (hid.trans heq.symm)
    · exact (ih hrest ⟨record, hmem, hid, hsettled⟩).append_right _

theorem settled_of_final {id : String} {records more : List PaymentRecord}
    (h : Final (records ++ more)) (settled : SettledIn id records) :
    ∀ record ∈ more, record.id = id → record.status = .settled := by
  obtain ⟨record, hmem, hid, hsettled⟩ := settled
  intro later hlater heq
  exact (List.pairwise_append.mp h).2.2 record hmem later hlater hsettled (hid.trans heq.symm)

/-- A record may follow if it is settled or its payment is not. -/
def MayFollow (record : PaymentRecord) (records : List PaymentRecord) : Prop :=
  record.status ≠ .settled → ¬SettledIn record.id records

theorem Final.push {records : List PaymentRecord} {record : PaymentRecord} (h : Final records)
    (follows : MayFollow record records) : Final (records ++ [record]) := by
  refine List.pairwise_append.mpr ⟨h, List.pairwise_singleton _ _, ?_⟩
  intro earlier hearlier later hlater hsettled hid
  rw [List.mem_singleton.mp hlater] at hid ⊢
  by_contra hunsettled
  exact follows hunsettled ⟨earlier, hearlier, hid, hsettled⟩

theorem LatestSettled.push {id : String} {records known : List PaymentRecord}
    {record : PaymentRecord} (h : LatestSettled id known) (settled : SettledIn id records)
    (follows : MayFollow record records) : LatestSettled id (known ++ [record]) := by
  refine h.append_of_settled fun later hlater hid => ?_
  rw [List.mem_singleton.mp hlater] at hid ⊢
  by_contra hunsettled
  rw [← hid] at settled
  exact follows hunsettled settled

/-- A payment that is settled in what the ledger has read is settled in its memory. -/
structure Informed (ledger : PaymentLedger) (stream : List (Option StoredPayment)) : Prop where
  reached : ledger.nextOffset ≤ stream.length
  settled : ∀ id, SettledIn id (recordsOf (stream.take ledger.nextOffset)) →
    LatestSettled id ledger.records

theorem Informed.grow {ledger : PaymentLedger} {stream later : List (Option StoredPayment)}
    (h : Informed ledger stream) (grown : stream <+: later) : Informed ledger later := by
  obtain ⟨more, rfl⟩ := grown
  have htake : (stream ++ more).take ledger.nextOffset = stream.take ledger.nextOffset :=
    List.take_append_of_le_length h.reached
  constructor
  · rw [List.length_append]
    exact Nat.le_trans h.reached (Nat.le_add_right _ _)
  · rw [htake]
    exact h.settled

theorem Informed.commitKey {ledger : PaymentLedger} {stream : List (Option StoredPayment)}
    (h : Informed ledger stream) (key : Option String) :
    Informed (LedgerStore.commitKey key ledger) stream := ⟨h.reached, h.settled⟩

theorem Informed.caughtUp {ledger : PaymentLedger} {stream : List (Option StoredPayment)}
    (h : Informed ledger stream) (final : Final (recordsOf stream)) :
    Informed (LedgerReading.caughtUp ledger stream) stream := by
  refine ⟨le_refl _, fun id settled => ?_⟩
  have hall : (LedgerReading.caughtUp ledger stream).nextOffset = stream.length := rfl
  have hrecords : (LedgerReading.caughtUp ledger stream).records =
      ledger.records ++ recordsOf (stream.drop ledger.nextOffset) := rfl
  rw [hall, List.take_length] at settled
  rw [hrecords]
  rw [← recordsOf_complete stream ledger.nextOffset] at settled final
  by_cases hread : SettledIn id (recordsOf (stream.take ledger.nextOffset))
  · exact (h.settled id hread).append_of_settled (settled_of_final final hread)
  · have hunread := (settledIn_append.mp settled).resolve_left hread
    exact (latestSettled_of_final (List.pairwise_append.mp final).2.1 hunread).append_right _

theorem Informed.tookIn {failed : Prop} {m m' : PaymentLedger} {record : PaymentRecord}
    {key : Option String} {before now : List (Option StoredPayment)} (h : Informed m before)
    (final : Final (recordsOf now))
    (follows : MayFollow record.atMillisecondPrecision (recordsOf before))
    (entry : before ++ [some (storedPayment record.atMillisecondPrecision key)] <+: now)
    (took : TookIn failed m record.atMillisecondPrecision key before now m') :
    Informed m' now := by
  cases took with
  | next here =>
    refine Informed.grow ⟨?_, fun id settled => ?_⟩ entry
    · simp
    · have htake : before.take m.nextOffset = before := List.take_of_length_le here.le
      have hall : (before ++ [some (storedPayment record.atMillisecondPrecision key)]).take
          (before.length + 1) =
            before ++ [some (storedPayment record.atMillisecondPrecision key)] :=
        List.take_of_length_le (by simp)
      simp only [hall, recordsOf_append, recordsOf_stored] at settled
      have hread := h.settled id
      rw [htake] at hread
      show LatestSettled id (m.records ++ [record.atMillisecondPrecision])
      rcases settledIn_append.mp settled with hbefore | ⟨own, hown, hid, hsettled⟩
      · exact (hread hbefore).push hbefore follows
      · rw [List.mem_singleton.mp hown] at hid hsettled
        have hhead : LatestSettled id [record.atMillisecondPrecision] :=
          ⟨_, by simp [payment, hid], hsettled⟩
        exact hhead.append_right _
  | reread later =>
    exact ((h.commitKey key).grow ((List.prefix_append _ _).trans entry)).caughtUp final
  | kept later unread =>
    have hgrown := h.grow ((List.prefix_append _ _).trans entry)
    refine ⟨hgrown.reached, fun id settled => ?_⟩
    have hread := hgrown.settled id settled
    show LatestSettled id (m.records ++ [record.atMillisecondPrecision])
    have hsame : now.take m.nextOffset = before.take m.nextOffset := by
      obtain ⟨more, rfl⟩ := (List.prefix_append _ _).trans entry
      exact List.take_append_of_le_length h.reached
    have hbefore : SettledIn id (recordsOf before) := by
      rw [← recordsOf_complete before m.nextOffset]
      refine settledIn_append.mpr (.inl ?_)
      rw [← hsame]
      exact settled
    exact hread.push hbefore follows

/-- How much of the stream the ledger of a call had read when the call looked its
payment up; `none` before. -/
abbrev Looked (ι : Type) := ι → Option Nat

/-- A record that is not settled is appended only where no settled record of its
payment is behind what was read. -/
def nothingUnread [DecidableEq ι] : Rules P ι (Looked ι) where
  permits := fun s looked i e _ _ =>
    match e with
    | .append value => value.status ≠ .settled → ∀ reached, looked i = some reached →
        ¬SettledIn value.id (recordsOf (s.stream.drop reached))
    | _ => True
  note := fun looked s i e r _ =>
    match e, r with
    | .lock _, ledger =>
      if looked i = none then Function.update looked i (some ledger.nextOffset) else looked
    | .readWindow _, .ok [] => Function.update looked i (some s.stream.length)
    | _, _ => looked

section Sections

variable {process : ι → P} {i : ι}

abbrev State (P ι : Type) := Shared P ι × Looked ι

/-- Settled is final in the stream, and every ledger knows what it has read. -/
structure AllInformed (s : State P ι) : Prop where
  final : Final (recordsOf s.1.stream)
  informed : ∀ p, Informed (s.1.memory p) s.1.stream

theorem AllInformed.of_same {s t : State P ι} (h : AllInformed s)
    (stream : t.1.stream = s.1.stream) (memory : t.1.memory = s.1.memory) : AllInformed t := by
  constructor
  · rw [stream]
    exact h.final
  · rw [stream, memory]
    exact h.informed

/-- A property that depends on the call's own notes and on what is in the stream. -/
def Lasting (i : ι) (known : State P ι → Prop) : Prop :=
  ∀ s t, known s → t.2 i = s.2 i → s.1.stream <+: t.1.stream → known t

/-- The call has looked at a ledger. -/
def Counted (i : ι) (s : State P ι) : Prop :=
  ∃ reached, s.2 i = some reached ∧ reached ≤ s.1.stream.length

/-- The payment was not settled in what the ledger had read. -/
def LookedUp (i : ι) (id : String) (s : State P ι) : Prop :=
  ∃ reached, s.2 i = some reached ∧ reached ≤ s.1.stream.length ∧
    ¬SettledIn id (recordsOf (s.1.stream.take reached))

/-- The call knows enough of the payment to append this record of it. -/
def MayAppend (i : ι) (record : PaymentRecord) (s : State P ι) : Prop :=
  record.status ≠ .settled → LookedUp i record.id s

theorem lasting_unnoted : Lasting i fun s : State P ι => s.2 i = none := by
  intro s t hs noted _
  rw [noted, hs]

theorem lasting_counted : Lasting (P := P) i (Counted i) := by
  rintro s t ⟨reached, hreached, hle⟩ noted grown
  exact ⟨reached, noted.trans hreached, Nat.le_trans hle grown.length_le⟩

theorem lasting_lookedUp (id : String) : Lasting (P := P) i (LookedUp i id) := by
  rintro s t ⟨reached, hreached, hle, hunsettled⟩ noted grown
  refine ⟨reached, noted.trans hreached, Nat.le_trans hle grown.length_le, ?_⟩
  obtain ⟨more, hmore⟩ := grown
  rw [← hmore, List.take_append_of_le_length hle]
  exact hunsettled

theorem lasting_mayAppend (record : PaymentRecord) :
    Lasting (P := P) i (MayAppend i record) := by
  intro s t hs noted grown hunsettled
  exact lasting_lookedUp record.id s t (hs hunsettled) noted grown

variable [DecidableEq P] [DecidableEq ι]

def finalContract (process : ι → P) : Contract (State P ι) ι :=
  contract process nothingUnread AllInformed fun _ _ _ => True

/-- What one call has read is noted by that call alone. -/
theorem looked_other {s t : State P ι} {j : ι} (hj : j ≠ i) {e : Request P} {r : e.Answer}
    (h : env process nothingUnread s j e r t) : t.2 i = s.2 i := by
  rw [h.2.2]
  cases e with
  | lock p =>
    by_cases hnone : s.2 j = none
    · simp [nothingUnread, hnone, hj.symm]
    · simp [nothingUnread, hnone]
  | readWindow next =>
    cases r with
    | error text => rfl
    | ok window =>
      cases window with
      | nil => simp [nothingUnread, hj.symm]
      | cons entry rest => rfl
  | unlock | loadHolds | storeHolds | append | nextReservation | utcNow
  | finalizedSolanaBlockHeight | stall => rfl

theorem Lasting.other {known : State P ι → Prop} (lasting : Lasting i known) {s t : State P ι}
    (h : known s) (step : ∃ j, j ≠ i ∧ (finalContract process).guar j s t) : known t := by
  obtain ⟨j, hj, ⟨e, r, hstep⟩, -⟩ := step
  exact lasting s t h (looked_other hj hstep) hstep.1.change.stream

theorem Lasting.rely {known : State P ι → Prop} (lasting : Lasting i known) {s t : State P ι}
    (h : known s) (rely : (finalContract process).Rely i s t) : known t :=
  rely.stable (fun _ _ hu _ step => lasting.other hu step) h

theorem informed_rely {m : PaymentLedger} {s t : State P ι} (h : Informed m s.1.stream)
    (rely : (finalContract process).Rely i s t) : Informed m t.1.stream :=
  h.grow (rely_stream rely)

theorem counted_steady :
    Steady process nothingUnread AllInformed (fun _ _ _ => True) i (Counted i) where
  others := fun _ _ hs _ step => lasting_counted.other hs step
  reading := by
    rintro s next r t hinv ⟨reached, hreached, hle⟩ ⟨hanswer, -, hnote⟩
    have hsame : t.1 = s.1 := by
      cases r with
      | error text => exact hanswer
      | ok window => exact hanswer.2
    refine ⟨hinv.of_same (by rw [hsame]) (by rw [hsame]), trivial, ?_⟩
    rw [Counted, hnote, hsame]
    cases r with
    | error text => exact ⟨reached, hreached, hle⟩
    | ok window =>
      cases window with
      | nil => exact ⟨s.1.stream.length, by simp [nothingUnread], le_refl _⟩
      | cons entry rest => exact ⟨reached, hreached, hle⟩

/-- A section takes the ledger, runs its method and gives the ledger back. What
is known before it and after it is lasting. -/
theorem withLedger_safe {α : Type} {known : State P ι → Prop}
    {after : Except String α → State P ι → Prop} {method : Op P α} (hknown : Lasting i known)
    (hafter : ∀ r, Lasting i (after r))
    (hmethod : ∀ s ledger t, AllInformed t → known s → Informed ledger t.1.stream →
      env process nothingUnread s i (.lock (process i)) ledger t →
      Meets (env process nothingUnread) (finalContract process) i
        (fun r m v => Informed m v.1.stream ∧ after r v) method ledger t)
    {s : State P ι} (h : known s) :
    Safe (env process nothingUnread) (finalContract process) i after
      (withLedger (process i) method) s := by
  intro t ht hinvt ledger u hu
  obtain ⟨hfree, hledger, htaken⟩ := hu.1
  have hinvu : AllInformed u := hinvt.of_same (by rw [htaken]; rfl) (by rw [htaken]; rfl)
  have hm : Informed ledger u.1.stream := by
    rw [hledger]
    exact (hinvt.informed _).grow hu.1.change.stream
  refine ⟨hinvu, ⟨⟨_, _, hu⟩, trivial⟩, ?_⟩
  refine safe_bind ?_ hinvu (hmethod t ledger u hinvu (hknown.rely h ht) hm hu)
  rintro ⟨r, m⟩ v hinvv ⟨hmv, hrv⟩ w hw hinvw _ x hx
  obtain ⟨-, hgiven⟩ := hx.1
  have hmw : Informed m w.1.stream := informed_rely hmv hw
  have hinvx : AllInformed x := by
    constructor
    · rw [hgiven]
      exact hinvw.final
    · intro p
      rw [hgiven]
      by_cases hp : p = process i
      · subst hp
        simpa [Shared.unlocked] using hmw
      · simpa [Shared.unlocked, hp] using hinvw.informed p
  refine ⟨hinvx, ⟨⟨_, _, hx⟩, trivial⟩, fun y hy _ => ?_⟩
  have hrw : after r w := (hafter r).rely hrv hw
  have hrx : after r x := by
    refine hafter r w x hrw ?_ hx.1.change.stream
    rw [hx.2.2]
    rfl
  exact (hafter r).rely hrx hy

/-- What the ledger of a section knows when the section ends. -/
def Leaves {α : Type} (_ : Except String α) (m : PaymentLedger) (s : State P ι) : Prop :=
  Informed m s.1.stream

theorem storedPayment_settled {record : PaymentRecord} {key : Option String} :
    (storedPayment record key).status = .settled ↔ record.status = .settled := by
  cases hstatus : record.status <;> simp [storedPayment, hstatus, PaymentStatus.stored]

omit [DecidableEq P] in
/-- An append that is permitted comes behind no settled record of its payment. -/
theorem mayFollow_of_permitted {record : PaymentRecord} {key : Option String} {s t : State P ι}
    {r : Except String Nat} (h : MayAppend i record s)
    (permitted : (nothingUnread (P := P)).permits s.1 s.2 i
      (.append (storedPayment record key)) r t.1) : MayFollow record (recordsOf s.1.stream) := by
  intro hunsettled hsettled
  obtain ⟨reached, hreached, -, hread⟩ := h hunsettled
  rw [← recordsOf_complete s.1.stream reached] at hsettled
  rcases settledIn_append.mp hsettled with hbefore | hbehind
  · exact hread hbefore
  · exact permitted (fun heq => hunsettled (storedPayment_settled.mp heq)) reached hreached hbehind

theorem appends_final {m : PaymentLedger} {record : PaymentRecord} (key : Option String) :
    Appends process nothingUnread AllInformed (fun _ _ _ => True) i
      (fun s => Informed m s.1.stream ∧ MayAppend i record.atMillisecondPrecision s)
      (fun s => Informed m s.1.stream)
      (fun before _ => Informed m before ∧
        MayFollow record.atMillisecondPrecision (recordsOf before))
      (storedPayment record.atMillisecondPrecision key) where
  others := by
    rintro s t ⟨hm, hmay⟩ - step
    refine ⟨?_, (lasting_mayAppend _).other hmay step⟩
    obtain ⟨j, -, ⟨e, r, hstep⟩, -⟩ := step
    exact hm.grow hstep.1.change.stream
  step := by
    rintro s r t hinv ⟨hm, hmay⟩ ⟨hanswer, hpermitted, -⟩
    have hfollows := mayFollow_of_permitted hmay hpermitted
    have happended : ∀ u : State P ι,
        u.1 = s.1.appended (storedPayment record.atMillisecondPrecision key) → AllInformed u := by
      intro u hu
      constructor
      · rw [hu, Shared.appended, recordsOf_append, recordsOf_stored]
        exact hinv.final.push hfollows
      · rw [hu]
        exact fun p => (hinv.informed p).grow (List.prefix_append _ _)
    cases r with
    | error text =>
      rcases hanswer with hsame | hentered
      · refine ⟨hinv.of_same (by rw [hsame]) (by rw [hsame]), trivial, ?_⟩
        rw [hsame]
        exact hm
      · refine ⟨happended t hentered, trivial, ?_⟩
        rw [hentered]
        exact hm.grow (List.prefix_append _ _)
    | ok offset => exact ⟨happended t hanswer.2, trivial, hm, hfollows⟩
  later := by
    intro before
    refine ⟨fun _ _ h _ _ => h, ?_⟩
    rintro s next r t hinv h ⟨hanswer, -, -⟩
    have hsame : t.1 = s.1 := by
      cases r with
      | error text => exact hanswer
      | ok window => exact hanswer.2
    exact ⟨hinv.of_same (by rw [hsame]) (by rw [hsame]), trivial, h⟩

theorem tryRecordPayment_leaves (rounds : Nat) {record : PaymentRecord} {m : PaymentLedger}
    {s : State P ι} (hm : Informed m s.1.stream)
    (hmay : MayAppend i record.atMillisecondPrecision s) :
    Meets (env process nothingUnread) (finalContract process) i Leaves
      (tryRecordPayment rounds record) m s := by
  refine meets_mono ?_ (appendRecord_meets rounds (appends_final (m := m) none) ⟨hm, hmay⟩
    hm.reached)
  rintro r m' v - ⟨u, hinvu, hrely, hout⟩
  cases r with
  | error text =>
    obtain ⟨hmu, rfl⟩ := hout
    exact informed_rely hmu hrely
  | ok done =>
    obtain ⟨before, ⟨hmb, hfollows⟩, -, hentry, htook⟩ := hout
    exact informed_rely (hmb.tookIn hinvu.final hfollows hentry htook) hrely

omit [DecidableEq P] [DecidableEq ι] in
/-- A payment that a caught-up ledger has not settled is settled nowhere. -/
theorem lookedUp_of_payment {m : PaymentLedger} {s : State P ι} {id : String}
    {latest : PaymentRecord} (hm : Informed m s.1.stream) (hall : m.nextOffset = s.1.stream.length)
    (hcounted : Counted i s) (found : payment m.records id = some latest)
    (hunsettled : latest.status ≠ .settled) : LookedUp i id s := by
  obtain ⟨reached, hreached, hle⟩ := hcounted
  refine ⟨reached, hreached, hle, ?_⟩
  rintro ⟨record, hmem, hid, hsettled⟩
  have hread : SettledIn id (recordsOf (s.1.stream.take m.nextOffset)) := by
    rw [hall, List.take_length, ← recordsOf_complete s.1.stream reached]
    exact ⟨record, List.mem_append_left _ hmem, hid, hsettled⟩
  obtain ⟨last, hlast, hstatus⟩ := hm.settled id hread
  rw [found] at hlast
  cases hlast
  exact hunsettled hstatus

theorem fits_unsettled {evidence : ExpiryEvidence} {latest : PaymentRecord}
    (h : evidence.fits latest = true) : latest.status ≠ .settled := by
  intro hsettled
  simp [ExpiryEvidence.fits, hsettled] at h

theorem observeSolanaExpiry_leaves (rounds : Nat) (evidence : ExpiryEvidence) {m : PaymentLedger}
    {s : State P ι} (hinv : AllInformed s) (hm : Informed m s.1.stream) (hcounted : Counted i s) :
    Meets (env process nothingUnread) (finalContract process) i Leaves
      (observeSolanaExpiry rounds evidence) m s := by
  refine meets_self_bind ?_
  split_ifs with hstale
  · exact meets_pure fun t ht _ => informed_rely hm ht
  refine meets_bind hinv (refreshRecords_meets (counted_steady.withPrefix s.1.stream) rounds hinv
    ⟨hcounted, List.prefix_rfl⟩ hm.reached) ?_ ?_
  · rintro _ m' t hinvt ⟨u, hinvu, ⟨hcountedu, hgrown⟩, hrely, hle, rfl⟩
    have hm' : Informed (caughtUp m u.1.stream) u.1.stream := (hm.grow hgrown).caughtUp hinvu.final
    refine meets_self_bind ?_
    cases hfound : payment (caughtUp m u.1.stream).records evidence.id with
    | none => exact meets_pure fun v hv _ => informed_rely hm' (hrely.trans hv)
    | some latest =>
      by_cases hfits : evidence.fits latest = true
      · simp only [hfits, if_true]
        have hlooked := lookedUp_of_payment hm' rfl hcountedu hfound (fits_unsettled hfits)
        rw [← payment_id hfound] at hlooked
        have hmay : MayAppend i (evidence.expired latest).atMillisecondPrecision t := fun _ =>
          (lasting_lookedUp _).rely hlooked hrely
        refine meets_bind hinvt (tryRecordPayment_leaves rounds (informed_rely hm' hrely) hmay)
          ?_ ?_
        · exact fun _ m'' v _ hv => meets_pure fun w hw _ => informed_rely hv hw
        · exact fun _ m'' v _ hv w hw _ => informed_rely hv hw
      · simp only [hfits]
        exact meets_pure fun v hv _ => informed_rely hm' (hrely.trans hv)
  · rintro text m' t - ⟨u, -, ⟨-, hgrown⟩, hrely, rfl, -⟩ v hv -
    exact informed_rely (hm.grow hgrown) (hrely.trans hv)

/-- The first ledger that a call takes is the one it looks its payment up in. -/
theorem noted_lock {s t : State P ι} {p : P} {ledger : PaymentLedger} (unnoted : s.2 i = none)
    (h : env process nothingUnread s i (.lock p) ledger t) : t.2 i = some ledger.nextOffset := by
  rw [h.2.2]
  simp [nothingUnread, unnoted]

theorem noted_lock_again {s t : State P ι} {p : P} {ledger : PaymentLedger} {reached : Nat}
    (noted : s.2 i = some reached) (h : env process nothingUnread s i (.lock p) ledger t) :
    t.2 i = s.2 i := by
  rw [h.2.2]
  simp [nothingUnread, noted]

theorem mayAppend_lock {record : PaymentRecord} {s t : State P ι} {p : P} {ledger : PaymentLedger}
    (h : MayAppend i record s) (hlock : env process nothingUnread s i (.lock p) ledger t) :
    MayAppend i record t := by
  intro hunsettled
  obtain ⟨reached, hreached, hrest⟩ := h hunsettled
  exact lasting_lookedUp record.id s t ⟨reached, hreached, hrest⟩ (noted_lock_again hreached hlock)
    hlock.1.change.stream

theorem toRecord_unsettled {receipt : Option SettlementResponse} {found : Option PaymentRecord}
    {pending : PaymentRecord} (h : toRecord receipt found = .ok (some pending)) :
    found = some pending ∧ pending.status ≠ .settled := by
  cases found with
  | none => cases h
  | some record =>
    rw [toRecord] at h
    split_ifs at h with hsettled hresolved hsame
    · cases h
    · cases h
    · cases h
      exact ⟨rfl, hsettled⟩

/-- A payment that is looked up and not settled was settled in nothing read so far. -/
theorem lookUp_knows (id : String) {m : PaymentLedger} {s : State P ι}
    (hm : Informed m s.1.stream) (noted : s.2 i = some m.nextOffset) :
    Meets (env process nothingUnread) (finalContract process) i
      (fun r m' v => Informed m' v.1.stream ∧ ∀ found pending, r = .ok found →
        found = some pending → pending.status ≠ .settled → LookedUp i id v)
      (lookUp id) m s := by
  refine meets_self_bind (meets_pure fun v hv _ => ⟨informed_rely hm hv, ?_⟩)
  rintro found pending heq hfound hunsettled
  have hlooked : LookedUp i id s := by
    refine ⟨m.nextOffset, noted, hm.reached, fun hread => ?_⟩
    obtain ⟨latest, hlatest, hsettled⟩ := hm.settled id hread
    cases heq
    rw [hlatest] at hfound
    cases hfound
    exact hunsettled hsettled
  exact (lasting_lookedUp id).rely hlooked hv

/-- The writing half of a recording. -/
theorem recordSettled_safe (rounds : Nat) (request : RecordPaymentRequest)
    (receipt : Option SettlementResponse) (pending : PaymentRecord) {s : State P ι}
    (hlooked : LookedUp i request.paymentId s) :
    Safe (env process nothingUnread) (finalContract process) i (fun _ _ => True)
      ((processHost (process i)).utcNow >>= fun now => (processHost (process i)).withLedger
        (tryRecordPayment rounds (settledRecord request receipt pending now))) s := by
  intro u hu hinvu now v hv
  refine ⟨hinvu.of_same (by rw [hv.1.2]) (by rw [hv.1.2]), ⟨⟨_, _, hv⟩, trivial⟩, ?_⟩
  have hmay : MayAppend i (settledRecord request receipt pending now).atMillisecondPrecision v := by
    intro _
    refine lasting_lookedUp _ u v ((lasting_lookedUp _).rely hlooked hu) ?_ hv.1.change.stream
    rw [hv.2.2]
    rfl
  refine withLedger_safe (lasting_mayAppend _) (fun _ _ _ _ _ _ => trivial) ?_ hmay
  intro w ledger x hinvx hmayw hledger hlock
  exact meets_mono (fun _ _ _ _ h => ⟨h, trivial⟩)
    (tryRecordPayment_leaves rounds hledger (mayAppend_lock hmayw hlock))

/-- An unsettled payment that a record call has found is noted. -/
def Shown (i : ι) (id : String) (r : Except String (Option PaymentRecord)) (s : State P ι) : Prop :=
  ∀ found pending, r = .ok found → found = some pending → pending.status ≠ .settled →
    LookedUp i id s

theorem record_safe (rounds : Nat)
    (parseSettlementResponse : String → Except String SettlementResponse)
    (request : RecordPaymentRequest) {s : State P ι} (hinv : AllInformed s)
    (unnoted : s.2 i = none) :
    Safe (env process nothingUnread) (finalContract process) i (fun _ _ => True)
      (record (processHost (process i)) rounds parseSettlementResponse request) s := by
  refine safe_bind ?_ hinv (show Safe (env process nothingUnread) (finalContract process) i
    (Shown i request.paymentId) _ s from ?_)
  · intro r t hinvt hknown
    cases hasked : r.bind (toRecord (receiptOf parseSettlementResponse request)) with
    | error text => exact fun _ _ _ => trivial
    | ok asked =>
      cases asked with
      | none => exact fun _ _ _ => trivial
      | some pending =>
        cases r with
        | error text => cases hasked
        | ok found =>
          obtain ⟨hpending, hunsettled⟩ := toRecord_unsettled hasked
          exact recordSettled_safe rounds request _ pending
            (hknown found pending rfl hpending hunsettled)
  · refine withLedger_safe lasting_unnoted ?_ ?_ unnoted
    · intro r u v h noted grown found pending heq hfound hunsettled
      exact lasting_lookedUp _ u v (h found pending heq hfound hunsettled) noted grown
    · intro u ledger v hinvv hu hledger hlock
      exact lookUp_knows _ hledger (noted_lock hu hlock)

theorem observe_safe (rounds : Nat) (evidence : ExpiryEvidence) {s : State P ι}
    (unnoted : s.2 i = none) :
    Safe (env process nothingUnread) (finalContract process) i (fun _ _ => True)
      (withLedger (process i) (observeSolanaExpiry rounds evidence >>= fun _ => pure ())) s := by
  refine withLedger_safe lasting_unnoted (fun _ _ _ _ _ _ => trivial) ?_ unnoted
  intro u ledger v hinvv hu hledger hlock
  have hcounted : Counted i v := ⟨_, noted_lock hu hlock, hledger.reached⟩
  refine meets_bind hinvv (observeSolanaExpiry_leaves rounds evidence hinvv hledger hcounted) ?_ ?_
  · exact fun _ m w _ hm => meets_pure fun x hx _ => ⟨informed_rely hm hx, trivial⟩
  · exact fun _ m w _ hm x hx _ => ⟨informed_rely hm hx, trivial⟩

theorem call_safe (rounds : Nat)
    (parseSettlementResponse : String → Except String SettlementResponse) (call : ReceiptCall)
    {s : State P ι} (hinv : AllInformed s) (unnoted : s.2 i = none) :
    Safe (env process nothingUnread) (finalContract process) i (fun _ _ => True)
      (call.program rounds parseSettlementResponse (process i)) s := by
  cases call with
  | record request => exact record_safe rounds parseSettlementResponse request hinv unnoted
  | observeSolanaExpiry evidence => exact observe_safe rounds evidence unnoted

/-- A ledger that mirrors the stream knows what is settled in it. -/
theorem Informed.of_mirrors {ledger : PaymentLedger} {stream : List (Option StoredPayment)}
    (h : Mirrors ledger stream) (final : Final (recordsOf stream)) : Informed ledger stream := by
  refine ⟨h.reached, fun id settled => ?_⟩
  rw [← recordsOf_complete stream ledger.nextOffset] at final
  rw [h.records]
  exact latestSettled_of_final (List.pairwise_append.mp final).1 settled

theorem settledIn_grow {id : String} {stream later : List (Option StoredPayment)}
    (h : SettledIn id (recordsOf stream)) (grown : stream <+: later) :
    SettledIn id (recordsOf later) := by
  obtain ⟨more, rfl⟩ := grown
  rw [recordsOf_append]
  exact settledIn_append.mpr (.inl h)

theorem steps_stream {α : Type} {rules : Rules P ι γ}
    {config later : Config (Shared P ι × γ) ι (Request P) Request.Answer Empty α}
    (steps : Relation.ReflTransGen (Programs.Step (env process rules)) config later) :
    config.shared.1.stream <+: later.shared.1.stream := by
  induction steps with
  | refl => exact List.prefix_rfl
  | tail _ step ih =>
    cases step with
    | answer next allowed => exact ih.trans allowed.1.change.stream

/-- As long as nothing settled goes unread where a record that is not settled is
appended, a payment that is settled once stays settled. -/
theorem settled_stays_settled (process : ι → P) (rounds : Nat)
    (parseSettlementResponse : String → Except String SettlementResponse)
    (calls : ι → ReceiptCall) {start : Shared P ι} (final : Final (recordsOf start.stream))
    (mirrors : ∀ p, Mirrors (start.memory p) start.stream)
    {config later : Config (State P ι) ι (Request P) Request.Answer Empty (Except String Unit)}
    (reach : Reachable (env process nothingUnread) (start, fun _ => none)
      (fun i => (calls i).program rounds parseSettlementResponse (process i)) config)
    (steps : Relation.ReflTransGen (Programs.Step (env process nothingUnread)) config later)
    {id : String} (settled : SettledIn id (recordsOf config.shared.1.stream)) :
    LatestSettled id (recordsOf later.shared.1.stream) := by
  have hinv : AllInformed ((start, fun _ => none) : State P ι) :=
    ⟨final, fun p => Informed.of_mirrors (mirrors p) final⟩
  have hreach : Reachable (env process nothingUnread) (start, fun _ => none)
      (fun i => (calls i).program rounds parseSettlementResponse (process i)) later :=
    reach.trans steps
  have hfinal := (reachable_safe hinv (fun i => call_safe rounds parseSettlementResponse (calls i)
    hinv rfl) hreach).1.final
  exact latestSettled_of_final hfinal (settledIn_grow settled (steps_stream steps))

end Sections

/-- Process `true` gets a receipt, and process `false` evidence that the payment
can no longer be submitted. -/
def sampleProcess : Fin 2 → Bool
  | 0 => false
  | 1 => true

def samplePending : PaymentRecord :=
  { sampleRecord "paid" 1 .pending with solanaLastValidBlockHeight := some 900 }

def sampleStream : List (Option StoredPayment) := [some (storedPayment samplePending none)]

/-- Both ledgers have read the pending payment. -/
def sampleStart : Shared Bool (Fin 2) :=
  { sampleShared (fun p => if p then "a" else "b") sampleStream with
    memory := fun p => caughtUp (sampleLedger (if p then "a" else "b")) sampleStream }

def sampleCalls : Fin 2 → ReceiptCall
  | 0 => .observeSolanaExpiry
      { generation := 1
        id := "paid"
        issuedAt := sampleNow
        lastValidHeight := 900
        observedHeight := 901
        observedAt := sampleNow }
  | 1 => .record ⟨"service", "paid", some "receipt"⟩

def sampleParse : String → Except String SettlementResponse := fun _ =>
  .ok ⟨true, "transaction", "network", none, none, none, ∅⟩

/-- The receipt lands after the observation has read the stream. -/
def lateTurns : List (Fin 2 × Nat) := [(0, 2), (1, 9), (0, 9)]

def lateAnswer := responding sampleProcess (@unrestricted Bool (Fin 2)) fun _ => false

theorem lateAnswer_env (i : Fin 2) (s : Shared Bool (Fin 2) × Unit) (e : Request Bool)
    (r : e.Answer) (t : Shared Bool (Fin 2) × Unit) (h : lateAnswer i s e = some (r, t)) :
    env sampleProcess unrestricted s i e r t := responding_env (fun _ _ _ => trivial) h

def lateRun :=
  schedule lateAnswer lateTurns (sampleStart, ())
    fun i => (sampleCalls i).program 4 sampleParse (sampleProcess i)

theorem sampleStart_final : Final (recordsOf sampleStart.stream) := by
  have hone : recordsOf sampleStart.stream = [samplePending.atMillisecondPrecision] := by
    decide +kernel
  rw [hone]
  exact List.pairwise_singleton _ _

/-- The expiry goes behind the receipt. -/
theorem expiry_overwrites_receipt :
    ∃ config, Reachable (env sampleProcess unrestricted) (sampleStart, ())
        (fun i => (sampleCalls i).program 4 sampleParse (sampleProcess i)) config ∧
      (∀ i, config.program i = .pure (.ok ())) ∧
      Final (recordsOf sampleStart.stream) ∧
      SettledIn "paid" (recordsOf config.shared.1.stream) ∧
      ¬LatestSettled "paid" (recordsOf config.shared.1.stream) := by
  obtain ⟨config, hreach, hshared, hprogram⟩ := Reachable.schedule lateAnswer_env lateTurns .refl
  have hrun : config.shared = lateRun.1 := hshared
  have hended : config.program = lateRun.2 := hprogram
  have hdone : ∀ i, (lateRun.2 i).value?.map Except.isOk = some true := by decide +kernel
  have hsettled : ∃ record ∈ recordsOf lateRun.1.1.stream,
      record.id = "paid" ∧ record.status = .settled := by
    decide +kernel
  have hlatest : (payment (recordsOf lateRun.1.1.stream) "paid").map PaymentRecord.status =
      some .pending := by
    decide +kernel
  refine ⟨config, hreach, fun i => ?_, sampleStart_final, ?_, ?_⟩
  · obtain ⟨result, hresult, hok⟩ := Option.map_eq_some_iff.mp (hdone i)
    rw [hended, Prog.eq_pure_of_value? hresult]
    cases result with
    | error text => cases hok
    | ok done => rfl
  · rw [hrun]
    exact hsettled
  · rw [hrun]
    rintro ⟨latest, hfound, hstatus⟩
    rw [hfound] at hlatest
    simp [hstatus] at hlatest

/-- The receipt lands first. -/
def earlyTurns : List (Fin 2 × Nat) := [(1, 9), (0, 9)]

/-- Only settled records are stored. -/
def earlyAnswer (i : Fin 2) (s : State Bool (Fin 2)) (e : Request Bool) :
    Option (e.Answer × State Bool (Fin 2)) :=
  match e with
  | .append value =>
    if value.status = .settled then
      responding sampleProcess nothingUnread (fun _ => false) i s (.append value)
    else none
  | e => responding sampleProcess nothingUnread (fun _ => false) i s e

theorem earlyAnswer_env (i : Fin 2) (s : State Bool (Fin 2)) (e : Request Bool) (r : e.Answer)
    (t : State Bool (Fin 2)) (h : earlyAnswer i s e = some (r, t)) :
    env sampleProcess nothingUnread s i e r t := by
  cases e with
  | append value =>
    rw [earlyAnswer] at h
    split_ifs at h with hsettled
    exact responding_env (fun _ _ _ hunsettled => absurd hsettled hunsettled) h
  | lock | unlock | loadHolds | storeHolds | readWindow | nextReservation | utcNow
  | finalizedSolanaBlockHeight | stall => exact responding_env (fun _ _ _ => trivial) h

def earlyRun :=
  schedule earlyAnswer earlyTurns (sampleStart, fun _ => none)
    fun i => (sampleCalls i).program 4 sampleParse (sampleProcess i)

theorem sample_settled_stays_settled :
    ∃ config, Reachable (env sampleProcess nothingUnread) (sampleStart, fun _ => none)
        (fun i => (sampleCalls i).program 4 sampleParse (sampleProcess i)) config ∧
      (config.program 0).value?.isSome = true ∧
      LatestSettled "paid" (recordsOf config.shared.1.stream) := by
  obtain ⟨config, hreach, hshared, hprogram⟩ := Reachable.schedule earlyAnswer_env earlyTurns .refl
  have hrun : config.shared = earlyRun.1 := hshared
  have hended : config.program = earlyRun.2 := hprogram
  have hmirrors : ∀ p, Mirrors (sampleStart.memory p) sampleStart.stream := fun p =>
    (sampleLedger_mirrors _ _).caughtUp
  have hsettled : ∃ record ∈ recordsOf earlyRun.1.1.stream,
      record.id = "paid" ∧ record.status = .settled := by
    decide +kernel
  refine ⟨config, hreach, ?_, settled_stays_settled sampleProcess 4 sampleParse sampleCalls
    sampleStart_final hmirrors hreach .refl ?_⟩
  · rw [hended]
    decide +kernel
  · rw [hrun]
    exact hsettled

end LedgerFinality
