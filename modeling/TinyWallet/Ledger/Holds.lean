import TinyWallet.Ledger.Totals

/-!
# Holds that are granted

What becomes of a granted hold while any number of ledgers rewrite one hold
document: it is in the document or an entry of the stream names it, until it is
released or its lease is seen to have ended.

Notes keep which holds were granted, released, seen to have lapsed, and named
by an append that was answered. In an orderly run nothing fails, no hold lapses
before its time and every append commits a hold that is still held; of such
runs the caps are proved as well.
-/

namespace LedgerHolds

open Programs Sharing Tables LedgerRecords LedgerStore LedgerStorage LedgerReading LedgerCalls
  LedgerMirrors LedgerTotals

variable {P ι : Type}

/-- A key that process `p` makes for a reservation of its own. -/
def KeyOf (owners : P → Set String) (p : P) (id : ReservationId) (key : String) : Prop :=
  ∃ owner ∈ owners p, key = holdKey owner id

/-- Processes open their ledgers under owners of their own. -/
def OwnersApart (owners : P → Set String) : Prop :=
  ∀ p q owner, owner ∈ owners p → owner ∈ owners q → p = q

theorem KeyOf.unique {owners : P → Set String} (apart : OwnersApart owners) {p q : P}
    {id id' : ReservationId} {key : String} (h : KeyOf owners p id key)
    (h' : KeyOf owners q id' key) : p = q ∧ id = id' := by
  obtain ⟨owner, howner, rfl⟩ := h
  obtain ⟨owner', howner', hkey⟩ := h'
  obtain ⟨rfl, hid⟩ := holdKey_inj hkey
  exact ⟨apart p q owner howner howner', hid⟩

/-- The instant with which a call looks at the hold document. -/
def dated : Call → Option Instant
  | .reserveAt now _ => some now
  | .renewHoldsAt now => some now
  | _ => none

/-- The record that a call stores for a reservation. -/
def commits : Call → Option (ReservationId × PaymentRecord)
  | .commitReservation id record => some (id, record)
  | .tryCommitReservation id record => some (id, record)
  | _ => none

structure Notes (ι : Type) where
  granted : List (String × Nat)
  released : List String
  lapsed : List String
  /-- Named by an append that was answered. -/
  committed : List String
  /-- What was outstanding when a call last looked at the document. -/
  owed : ι → List (String × Nat)
  /-- The ledger that a call gave back. -/
  given : ι → Option PaymentLedger

def Notes.none : Notes ι := ⟨[], [], [], [], fun _ => [], fun _ => Option.none⟩

/-- Granted, not released, and not seen to have lapsed. -/
def Notes.Outstanding (n : Notes ι) (key : String) (amount : Nat) : Prop :=
  (key, amount) ∈ n.granted ∧ key ∉ n.released ∧ key ∉ n.lapsed

def Notes.outstanding (n : Notes ι) : List (String × Nat) :=
  n.granted.filter fun hold => hold.1 ∉ n.released ∧ hold.1 ∉ n.lapsed

theorem mem_outstanding {n : Notes ι} {key : String} {amount : Nat} :
    (key, amount) ∈ n.outstanding ↔ n.Outstanding key amount := by
  simp [Notes.outstanding, Notes.Outstanding]

/-- Granted, neither released nor committed. -/
def Notes.Held (n : Notes ι) (key : String) (amount : Nat) : Prop :=
  (key, amount) ∈ n.granted ∧ key ∉ n.released ∧ key ∉ n.committed

/-- The holds whose lease has ended at `now`. -/
def lapsedAt (now : Instant) (holds : Holds) : List String :=
  (holds.entries.filter fun entry => entry.2.expiresMs ≤ now.millis).map Sigma.fst

theorem mem_lapsedAt {now : Instant} {holds : Holds} {key : String} :
    key ∈ lapsedAt now holds ↔ ∃ hold, holds.lookup key = some hold ∧
      hold.expiresMs ≤ now.millis := by
  constructor
  · intro h
    obtain ⟨⟨_, hold⟩, hentry, rfl⟩ := List.mem_map.mp h
    obtain ⟨hmem, hended⟩ := List.mem_filter.mp hentry
    exact ⟨hold, AList.mem_lookup_iff.mpr hmem, by simpa using hended⟩
  · rintro ⟨hold, hlookup, hended⟩
    refine List.mem_map.mpr ⟨⟨key, hold⟩, List.mem_filter.mpr ⟨?_, by simpa using hended⟩, rfl⟩
    exact AList.mem_lookup_iff.mp hlookup

/-- The holds that are in the second document and not in the first. -/
def newHolds (before after : Holds) : List (String × Nat) :=
  (after.entries.filter fun entry => before.lookup entry.1 = none).map
    fun entry => (entry.1, entry.2.amount)

theorem newHolds_insert {before kept : Holds} {key : String} {hold : Hold}
    (fresh : before.lookup key = none)
    (old : ∀ k, before.lookup k = none → kept.lookup k = none) :
    newHolds before (kept.insert key hold) = [(key, hold.amount)] := by
  have hnew : key ∉ kept := AList.lookup_eq_none.mp (old key fresh)
  have hrest : kept.entries.filter (fun entry => before.lookup entry.1 = none) = [] := by
    refine List.filter_eq_nil_iff.mpr ?_
    rintro ⟨k, h⟩ hmem hnone
    have hlookup : kept.lookup k = some h := AList.mem_lookup_iff.mpr hmem
    rw [old k (of_decide_eq_true hnone)] at hlookup
    cases hlookup
  rw [newHolds, AList.entries_insert_of_notMem hnew, List.filter_cons_of_pos (by simpa using fresh),
    hrest]
  rfl

/-- What a look at the document shows of leases. -/
def lapsedAfter (call : Call) (holds : Holds) (lapsed : List String) : List String :=
  (dated call).elim [] (fun now => lapsedAt now holds) ++ lapsed

def releasedAfter (call : Call) (ledger : PaymentLedger) (released : List String) : List String :=
  match call with
  | .release id => (reservationKey ledger id).toList ++ released
  | _ => released

def grantedAfter (call : Call) (before after : Holds) (granted : List (String × Nat)) :
    List (String × Nat) :=
  match call with
  | .reserveAt _ _ => newHolds before after ++ granted
  | _ => granted

def Notes.after [DecidableEq ι] (calls : ι → Call) (n : Notes ι) (s : Shared P ι) (i : ι) :
    (e : Request P) → e.Answer → Notes ι
  | .lock _, ledger => { n with released := releasedAfter (calls i) ledger n.released }
  | .unlock _ ledger, _ => { n with given := Function.update n.given i (some ledger) }
  | .loadHolds, .ok found =>
    let looked := { n with lapsed := lapsedAfter (calls i) found.2 n.lapsed }
    { looked with owed := Function.update n.owed i looked.outstanding }
  | .storeHolds _ holds, .ok true =>
    { n with
      granted := grantedAfter (calls i) s.holds holds n.granted
      owed := Function.update n.owed i n.outstanding }
  | .append value, .ok _ => { n with committed := value.committedHold.toList ++ n.committed }
  | _, _ => n

/-- What an orderly run admits: nothing fails, nothing held lapses, and every
append commits what is held, under an id of its own. -/
def Ordered (calls : ι → Call) (s : Shared P ι) (n : Notes ι) (i : ι) :
    (e : Request P) → e.Answer → Prop
  | .loadHolds, .ok found => ∀ now, dated (calls i) = some now → ∀ key amount, n.Held key amount →
      ∀ hold, found.2.lookup key = some hold → now.millis < hold.expiresMs
  | .append value, .ok _ => (∀ record ∈ recordsOf s.stream, record.id ≠ value.id) ∧
      ∃ key, value.committedHold = some key ∧ n.Held key value.amountAtomic
  | e, r => Succeeded e r

/-- Calls on any number of ledgers, and what is assumed of their run. -/
structure Setting (P ι : Type) where
  process : ι → P
  calls : ι → Call
  owners : P → Set String
  permits : Shared P ι → Notes ι → ι → (e : Request P) → e.Answer → Shared P ι → Prop
  orderly : Prop
  budget : SpendingBudget
  today : Instant
  apart : OwnersApart owners
  opened : ∀ i generation owner sessionId opening,
    calls i = .openLedger generation owner sessionId opening →
      owner ∈ owners (process i) ∧ (orderly → opening = budget)
  /-- An append of `commit_reservation` that names a hold and fails has had its effect. -/
  lands : ∀ s n i id record value text t, calls i = .commitReservation id record →
    value.committedHold.isSome → permits s n i (.append value) (.error text) t →
      t = s.appended value
  ordered : orderly → ∀ s n i e r t, permits s n i e r t → Ordered calls s n i e r
  sameDay : orderly → ∀ i now, dated (calls i) = some now → now.day = today.day

abbrev State (P ι : Type) := Shared P ι × Notes ι

/-- The rules that admit what `permits` does, and keep the notes. -/
def holdRules [DecidableEq ι] (calls : ι → Call)
    (permits : Shared P ι → Notes ι → ι → (e : Request P) → e.Answer → Shared P ι → Prop) :
    Rules P ι (Notes ι) where
  permits := permits
  note := fun n s i e r _ => n.after calls s i e r

def Setting.rules [DecidableEq ι] (w : Setting P ι) : Rules P ι (Notes ι) :=
  holdRules w.calls w.permits

/-- An entry of the stream that names the hold, with this record. -/
def Names (stream : List (Option StoredPayment)) (record : PaymentRecord) (key : String) : Prop :=
  (record, some key) ∈ stream.filterMap parsed

theorem mem_keysOf {stream : List (Option StoredPayment)} {key : String} :
    key ∈ keysOf stream ↔ ∃ record, Names stream record key := by
  simp [keysOf, Names, List.mem_filterMap]

/-- What an entry that parses says. -/
theorem parsed_fields {value : StoredPayment} {record : PaymentRecord} {key : Option String}
    (h : parsed (some value) = some (record, key)) :
    record.id = value.id ∧ record.amountAtomic = value.amountAtomic ∧
      key = value.committedHold := by
  have hread : intoRecord value = .ok (record, key) := by
    cases hinto : intoRecord value with
    | error text => simp [parsed, hinto, Except.toOption] at h
    | ok loaded => simpa [parsed, hinto, Except.toOption] using h
  simp only [intoRecord, bind, Except.bind] at hread
  split at hread
  · cases hread
  split at hread
  · cases hread
  split at hread
  · cases hread
  cases hread
  exact ⟨rfl, rfl, rfl⟩

theorem Names.grow {stream later : List (Option StoredPayment)} {record : PaymentRecord}
    {key : String} (h : Names stream record key) (grown : stream <+: later) :
    Names later record key := by
  obtain ⟨more, rfl⟩ := grown
  rw [Names, List.filterMap_append]
  exact List.mem_append_left _ h

/-- A ledger has every record it has read, and has a record for every hold that
it takes to be committed. It may have records more than once. -/
structure Knows (ledger : PaymentLedger) (stream : List (Option StoredPayment)) : Prop where
  reached : ledger.nextOffset ≤ stream.length
  records : ∀ record ∈ recordsOf (stream.take ledger.nextOffset), record ∈ ledger.records
  committed : ∀ key ∈ ledger.committedHolds, ∃ record ∈ ledger.records, Names stream record key

theorem Knows.grow {ledger : PaymentLedger} {stream later : List (Option StoredPayment)}
    (h : Knows ledger stream) (grown : stream <+: later) : Knows ledger later := by
  refine ⟨Nat.le_trans h.reached grown.length_le, ?_, ?_⟩
  · obtain ⟨more, rfl⟩ := grown
    rw [List.take_append_of_le_length h.reached]
    exact h.records
  · intro key hkey
    obtain ⟨record, hmem, hnames⟩ := h.committed key hkey
    exact ⟨record, hmem, hnames.grow grown⟩

theorem Knows.of_mirrors {ledger : PaymentLedger} {stream : List (Option StoredPayment)}
    (h : Mirrors ledger stream) : Knows ledger stream := by
  refine ⟨h.reached, fun record hmem => ?_, fun key hkey => ?_⟩
  · rw [h.records]
    exact hmem
  · obtain ⟨record, hnames⟩ := mem_keysOf.mp ((h.committed key).mp hkey)
    refine ⟨record, ?_, hnames.grow (List.take_prefix _ _)⟩
    rw [h.records]
    exact List.mem_map.mpr ⟨_, hnames, rfl⟩

theorem Knows.of_same {ledger ledger' : PaymentLedger} {stream : List (Option StoredPayment)}
    (h : Knows ledger stream) (hrecords : ledger'.records = ledger.records)
    (hcommitted : ledger'.committedHolds = ledger.committedHolds)
    (hnext : ledger'.nextOffset = ledger.nextOffset) : Knows ledger' stream := by
  refine ⟨?_, ?_, ?_⟩
  · rw [hnext]
    exact h.reached
  · rw [hnext, hrecords]
    exact h.records
  · rw [hcommitted, hrecords]
    exact h.committed

theorem Knows.push {ledger : PaymentLedger} {stream : List (Option StoredPayment)}
    (h : Knows ledger stream) (record : PaymentRecord) : Knows (ledger.push record) stream := by
  refine ⟨h.reached, fun earlier hmem => ?_, fun key hkey => ?_⟩
  · exact List.mem_append_left _ (h.records earlier hmem)
  · obtain ⟨own, hmem, hnames⟩ := h.committed key hkey
    exact ⟨own, List.mem_append_left _ hmem, hnames⟩

theorem Knows.caughtUp {ledger : PaymentLedger} {stream : List (Option StoredPayment)}
    (h : Knows ledger stream) : Knows (caughtUp ledger stream) stream := by
  have hrecords : (LedgerReading.caughtUp ledger stream).records =
      ledger.records ++ recordsOf (stream.drop ledger.nextOffset) := rfl
  refine ⟨le_refl _, fun record hmem => ?_, fun key hkey => ?_⟩
  · rw [show (LedgerReading.caughtUp ledger stream).nextOffset = stream.length from rfl,
      List.take_length, ← recordsOf_complete stream ledger.nextOffset] at hmem
    rw [hrecords]
    rcases List.mem_append.mp hmem with hread | hunread
    · exact List.mem_append_left _ (h.records record hread)
    · exact List.mem_append_right _ hunread
  · rw [hrecords]
    have hkeys : (LedgerReading.caughtUp ledger stream).committedHolds =
        keysOf (stream.drop ledger.nextOffset) ++ ledger.committedHolds := rfl
    rw [hkeys] at hkey
    rcases List.mem_append.mp hkey with hnew | hold
    · obtain ⟨record, hnames⟩ := mem_keysOf.mp hnew
      refine ⟨record, List.mem_append_right _ (List.mem_map.mpr ⟨_, hnames, rfl⟩), ?_⟩
      exact List.Sublist.mem hnames ((List.drop_sublist _ _).filterMap _)
    · obtain ⟨record, hmem, hnames⟩ := h.committed key hold
      exact ⟨record, List.mem_append_left _ hmem, hnames⟩

/-- A ledger that has read the whole stream has the record of every named hold. -/
theorem Knows.named {ledger : PaymentLedger} {stream : List (Option StoredPayment)}
    (h : Knows ledger stream) (hall : ledger.nextOffset = stream.length) {key : String}
    (hkey : key ∈ keysOf stream) : ∃ record ∈ ledger.records, Names stream record key := by
  obtain ⟨record, hnames⟩ := mem_keysOf.mp hkey
  refine ⟨record, h.records record ?_, hnames⟩
  rw [hall, List.take_length]
  exact List.mem_map.mpr ⟨_, hnames, rfl⟩

theorem names_stored (record : PaymentRecord) (key : Option String)
    (before : List (Option StoredPayment)) : ∀ k ∈ key.toList,
      Names (before ++ [some (storedPayment record.atMillisecondPrecision key)])
        record.atMillisecondPrecision k := by
  intro k hk
  cases key with
  | none => cases hk
  | some own =>
    obtain rfl := List.mem_singleton.mp hk
    rw [Names, List.filterMap_append]
    exact List.mem_append_right _ (by simp [parsed_stored])

theorem Knows.commitKey {ledger : PaymentLedger} {stream : List (Option StoredPayment)}
    (h : Knows ledger stream) {record : PaymentRecord} {key : Option String}
    (hnames : ∀ k ∈ key.toList, Names stream record k) :
    Knows ((LedgerStore.commitKey key ledger).push record) stream := by
  refine ⟨h.reached, fun earlier hmem => ?_, fun k hk => ?_⟩
  · exact List.mem_append_left _ (h.records earlier hmem)
  · rcases List.mem_append.mp hk with hown | hold
    · exact ⟨record, List.mem_append_right _ (List.mem_singleton_self _), hnames k hown⟩
    · obtain ⟨own, hmem, hn⟩ := h.committed k hold
      exact ⟨own, List.mem_append_left _ hmem, hn⟩

/-- Taking in an own entry, however the re-read went. -/
theorem Knows.tookIn {failed : Prop} {m m' : PaymentLedger} {record : PaymentRecord}
    {key : Option String} {before now : List (Option StoredPayment)} (h : Knows m before)
    (entry : before ++ [some (storedPayment record.atMillisecondPrecision key)] <+: now)
    (took : TookIn failed m record.atMillisecondPrecision key before now m') : Knows m' now := by
  have hgrown := h.grow ((List.prefix_append _ _).trans entry)
  have hnames : ∀ k ∈ key.toList, Names now record.atMillisecondPrecision k := fun k hk =>
    (names_stored record key before k hk).grow entry
  cases took with
  | next here =>
    refine Knows.grow ⟨?_, ?_, ?_⟩ entry
    · simp
    · have hall : (before ++ [some (storedPayment record.atMillisecondPrecision key)]).take
          (before.length + 1) =
            before ++ [some (storedPayment record.atMillisecondPrecision key)] :=
        List.take_of_length_le (by simp)
      have hread := h.records
      rw [List.take_of_length_le here.le] at hread
      simp only [hall, recordsOf_append, recordsOf_stored]
      intro earlier hmem
      rcases List.mem_append.mp hmem with hearlier | hown
      · exact List.mem_append_left _ (hread earlier hearlier)
      · exact List.mem_append_right _ hown
    · intro k hk
      rcases List.mem_append.mp hk with hown | hold
      · exact ⟨_, List.mem_append_right _ (List.mem_singleton_self _),
          names_stored record key before k hown⟩
      · obtain ⟨own, hmem, hn⟩ := h.committed k hold
        exact ⟨own, List.mem_append_left _ hmem, hn.grow (List.prefix_append _ _)⟩
  | reread later =>
    have hcaught := hgrown.caughtUp
    refine ⟨hcaught.reached, hcaught.records, fun k hk => ?_⟩
    -- the own entry was read again
    have hkeys : (LedgerReading.caughtUp (LedgerStore.commitKey key m) now).committedHolds =
        keysOf (now.drop m.nextOffset) ++ (key.toList ++ m.committedHolds) := rfl
    rw [hkeys] at hk
    rcases List.mem_append.mp hk with hread | hk
    · exact hcaught.committed k (List.mem_append_left _ hread)
    rcases List.mem_append.mp hk with hown | hold
    · exact hcaught.named rfl (mem_keysOf.mpr ⟨_, hnames k hown⟩)
    · exact hcaught.committed k (List.mem_append_right _ hold)
  | kept later unread => exact hgrown.commitKey hnames

theorem tookIn_same {failed : Prop} {m m' : PaymentLedger} {record : PaymentRecord}
    {key : Option String} {before now : List (Option StoredPayment)}
    (took : TookIn failed m record key before now m') :
    m'.reservations = m.reservations ∧ m'.owner = m.owner ∧ m'.budget = m.budget := by
  cases took with
  | next here => exact ⟨rfl, rfl, rfl⟩
  | reread later => exact ⟨rfl, rfl, rfl⟩
  | kept later unread => exact ⟨rfl, rfl, rfl⟩

def InDoc (s : Shared P ι) (key : String) (amount : Nat) : Prop :=
  ∃ hold, s.holds.lookup key = some hold ∧ hold.amount = amount

/-- The holds of a document that no entry names. -/
def unnamed (stream : List (Option StoredPayment)) (holds : Holds) : Nat :=
  total (fun key hold => if key ∈ keysOf stream then 0 else hold.amount) holds

/-- What is charged, and what is held besides. -/
def spent (charged : PaymentRecord → Bool) (s : Shared P ι) : Nat :=
  chargedSum charged (recordsOf s.stream) + unnamed s.stream s.holds

structure WithinCaps (budget : SpendingBudget) (today : Instant) (s : Shared P ι) : Prop where
  daily : spent (chargedDaily today) s ≤ budget.dailyMaxAtomic
  monthly : spent (chargedMonthly today) s ≤ budget.monthlyMaxAtomic

/-- Nothing has used the key yet. -/
structure Unused (s : State P ι) (key : String) : Prop where
  granted : ∀ amount, (key, amount) ∉ s.2.granted
  held : s.1.holds.lookup key = none
  named : key ∉ keysOf s.1.stream
  released : key ∉ s.2.released
  lapsed : key ∉ s.2.lapsed
  committed : key ∉ s.2.committed

/-- From `s` to `t` nothing has begun to use the key. -/
structure LeavesAlone (s t : State P ι) (key : String) : Prop where
  granted : ∀ amount, (key, amount) ∈ t.2.granted → (key, amount) ∈ s.2.granted
  held : s.1.holds.lookup key = none → t.1.holds.lookup key = none
  named : key ∈ keysOf t.1.stream → key ∈ keysOf s.1.stream
  released : key ∈ t.2.released → key ∈ s.2.released
  lapsed : s.1.holds.lookup key = none → key ∈ t.2.lapsed → key ∈ s.2.lapsed
  committed : key ∈ t.2.committed → key ∈ s.2.committed

theorem Unused.left {s t : State P ι} {key : String} (h : Unused s key)
    (alone : LeavesAlone s t key) : Unused t key :=
  ⟨fun amount hmem => h.granted amount (alone.granted amount hmem), alone.held h.held,
    fun hmem => h.named (alone.named hmem), fun hmem => h.released (alone.released hmem),
    fun hmem => h.lapsed (alone.lapsed h.held hmem),
    fun hmem => h.committed (alone.committed hmem)⟩

/-- What process `p` may rely on its ledger for. The reservation `busy` is being
given up. -/
structure Owns (w : Setting P ι) (p : P) (busy : Option ReservationId) (m : PaymentLedger)
    (s : State P ι) : Prop where
  owner : m.owner ∈ w.owners p
  knows : Knows m s.1.stream
  keys : ∀ id own, m.reservations.lookup id = some own →
    KeyOf w.owners p id own.key ∧ id < s.1.ids p ∧ (own.key, own.amount) ∈ s.2.granted
  free : ∀ id own, busy ≠ some id → m.reservations.lookup id = some own →
    own.key ∉ s.2.released ∧ own.key ∉ s.2.committed
  orderly : w.orderly → Mirrors m s.1.stream ∧ m.budget = w.budget

structure Inv (w : Setting P ι) (s : State P ι) : Prop where
  covered : ∀ key amount, s.2.Outstanding key amount →
    InDoc s.1 key amount ∨ key ∈ keysOf s.1.stream
  memory : ∀ p, s.1.holder p = none → Owns w p none (s.1.memory p) s
  unused : ∀ p id key, KeyOf w.owners p id key → s.1.ids p ≤ id → Unused s key
  single : ∀ key a b, (key, a) ∈ s.2.granted → (key, b) ∈ s.2.granted → a = b
  written : ∀ record key amount, Names s.1.stream record key → (key, amount) ∈ s.2.granted →
    ∃ j id own, commits (w.calls j) = some (id, own) ∧ record = own.atMillisecondPrecision ∧
      KeyOf w.owners (w.process j) id key
  named : w.orderly → ∀ key amount, (key, amount) ∈ s.2.granted → key ∈ keysOf s.1.stream →
    key ∈ s.2.committed
  unlapsed : w.orderly → ∀ key amount, (key, amount) ∈ s.2.granted → key ∈ s.2.lapsed →
    key ∈ s.2.released ∨ key ∈ s.2.committed
  caps : w.orderly → WithinCaps w.budget w.today s.1

/-- A call uses no other keys than those of its own process's ledger, and these
only while it has the ledger. -/
def KeepsToOwn (w : Setting P ι) (i : ι) (s t : State P ι) : Prop :=
  ∀ key, LeavesAlone s t key ∨
    ((s.1.holder (w.process i) = some i ∨ t.1.holder (w.process i) = some i) ∧
      ∃ id < t.1.ids (w.process i), KeyOf w.owners (w.process i) id key)

/-- In an orderly run a hold that is held is in the document, and unnamed. -/
theorem Inv.held_inDoc {w : Setting P ι} {s : State P ι} (hinv : Inv w s) (horderly : w.orderly)
    {key : String} {amount : Nat} (h : s.2.Held key amount) :
    InDoc s.1 key amount ∧ key ∉ keysOf s.1.stream := by
  obtain ⟨hgranted, hreleased, hcommitted⟩ := h
  have hunnamed : key ∉ keysOf s.1.stream := fun hnamed =>
    hcommitted (hinv.named horderly key amount hgranted hnamed)
  have hlapsed : key ∉ s.2.lapsed := fun hmem =>
    (hinv.unlapsed horderly key amount hgranted hmem).elim hreleased hcommitted
  exact ⟨(hinv.covered key amount ⟨hgranted, hreleased, hlapsed⟩).resolve_right hunnamed, hunnamed⟩

/-- What lasts of process `p`'s business from `s` to `t`. -/
structure Carries (w : Setting P ι) (p : P) (s t : State P ι) : Prop where
  stream : s.1.stream <+: t.1.stream
  ids : s.1.ids p ≤ t.1.ids p
  granted : ∀ hold ∈ s.2.granted, hold ∈ t.2.granted
  released : ∀ id key, KeyOf w.owners p id key → key ∈ t.2.released → key ∈ s.2.released
  committed : ∀ id key, KeyOf w.owners p id key → key ∈ t.2.committed → key ∈ s.2.committed

theorem Owns.carry {w : Setting P ι} {p : P} {busy : Option ReservationId} {m : PaymentLedger}
    {s t : State P ι} (h : Owns w p busy m s) (carries : Carries w p s t) : Owns w p busy m t where
  owner := h.owner
  knows := h.knows.grow carries.stream
  keys := by
    intro id own hown
    obtain ⟨hkey, hid, hgranted⟩ := h.keys id own hown
    exact ⟨hkey, Nat.lt_of_lt_of_le hid carries.ids, carries.granted _ hgranted⟩
  free := by
    intro id own hbusy hown
    obtain ⟨hreleased, hcommitted⟩ := h.free id own hbusy hown
    have hkey := (h.keys id own hown).1
    exact ⟨fun hmem => hreleased (carries.released id own.key hkey hmem),
      fun hmem => hcommitted (carries.committed id own.key hkey hmem)⟩
  orderly := fun horderly =>
    ⟨(h.orderly horderly).1.grow carries.stream, (h.orderly horderly).2⟩

end LedgerHolds
