import TinyWallet.Ledger.Holds

/-!
# What one request does to the holds

Every request of a call keeps the invariant and stays with the keys of its own
process. Three kinds rewrite something: a put of the document, with or without
a new hold, and an append. All others are quiet.
-/

namespace LedgerHolds

open Programs Sharing Tables LedgerRecords LedgerStore LedgerStorage LedgerReading LedgerCalls
  LedgerMirrors LedgerTotals

variable {P ι : Type} [DecidableEq ι] {w : Setting P ι} {i : ι}

theorem after_granted {calls : ι → Call} {n : Notes ι} {s : Shared P ι} {e : Request P}
    {r : e.Answer} : ∀ hold ∈ n.granted, hold ∈ (n.after calls s i e r).granted := by
  intro hold hmem
  cases e with
  | storeHolds version holds =>
    match r with
    | .error text => exact hmem
    | .ok false => exact hmem
    | .ok true =>
      show hold ∈ grantedAfter (calls i) s.holds holds n.granted
      cases calls i with
      | reserveAt now amount => exact List.mem_append_right _ hmem
      | openLedger | release | renewHoldsAt | commitReservation | tryCommitReservation
      | tryRecordPayment | recordPayment | observeSolanaExpiry => exact hmem
  | loadHolds =>
    cases r with
    | error text => exact hmem
    | ok found => exact hmem
  | append value =>
    cases r with
    | error text => exact hmem
    | ok offset => exact hmem
  | lock | unlock | readWindow | nextReservation | utcNow | finalizedSolanaBlockHeight
  | stall => exact hmem

theorem after_released {calls : ι → Call} {n : Notes ι} {s : Shared P ι} {e : Request P}
    {r : e.Answer} : ∀ key ∈ n.released, key ∈ (n.after calls s i e r).released := by
  intro key hmem
  cases e with
  | lock p =>
    show key ∈ releasedAfter (calls i) r n.released
    cases calls i with
    | release id => exact List.mem_append_right _ hmem
    | openLedger | reserveAt | renewHoldsAt | commitReservation | tryCommitReservation
    | tryRecordPayment | recordPayment | observeSolanaExpiry => exact hmem
  | storeHolds version holds =>
    match r with
    | .error text => exact hmem
    | .ok false => exact hmem
    | .ok true => exact hmem
  | loadHolds =>
    cases r with
    | error text => exact hmem
    | ok found => exact hmem
  | append value =>
    cases r with
    | error text => exact hmem
    | ok offset => exact hmem
  | unlock | readWindow | nextReservation | utcNow | finalizedSolanaBlockHeight
  | stall => exact hmem

theorem after_lapsed {calls : ι → Call} {n : Notes ι} {s : Shared P ι} {e : Request P}
    {r : e.Answer} : ∀ key ∈ n.lapsed, key ∈ (n.after calls s i e r).lapsed := by
  intro key hmem
  cases e with
  | storeHolds version holds =>
    match r with
    | .error text => exact hmem
    | .ok false => exact hmem
    | .ok true => exact hmem
  | loadHolds =>
    cases r with
    | error text => exact hmem
    | ok found => exact List.mem_append_right _ hmem
  | append value =>
    cases r with
    | error text => exact hmem
    | ok offset => exact hmem
  | lock | unlock | readWindow | nextReservation | utcNow | finalizedSolanaBlockHeight
  | stall => exact hmem

/-- What a call has seen and given back is noted by that call alone. -/
theorem after_other {calls : ι → Call} {n : Notes ι} {s : Shared P ι} {j : ι} (hj : j ≠ i)
    {e : Request P} {r : e.Answer} :
    (n.after calls s j e r).owed i = n.owed i ∧ (n.after calls s j e r).given i = n.given i := by
  cases e with
  | storeHolds version holds =>
    match r with
    | .error text => exact ⟨rfl, rfl⟩
    | .ok false => exact ⟨rfl, rfl⟩
    | .ok true => exact ⟨Function.update_of_ne hj.symm _ _, rfl⟩
  | loadHolds =>
    cases r with
    | error text => exact ⟨rfl, rfl⟩
    | ok found => exact ⟨Function.update_of_ne hj.symm _ _, rfl⟩
  | append value =>
    cases r with
    | error text => exact ⟨rfl, rfl⟩
    | ok offset => exact ⟨rfl, rfl⟩
  | unlock p ledger => exact ⟨rfl, Function.update_of_ne hj.symm _ _⟩
  | lock | readWindow | nextReservation | utcNow | finalizedSolanaBlockHeight | stall =>
    exact ⟨rfl, rfl⟩

variable [DecidableEq P]

def Setting.contract (w : Setting P ι) : Contract (State P ι) ι :=
  LedgerStorage.contract w.process w.rules (Inv w) (KeepsToOwn w)

/-- Holds are granted by putting the document alone. -/
theorem granted_of_version {s t : State P ι} {e : Request P} {r : e.Answer}
    (h : env w.process w.rules s i e r t) (same : t.1.version = s.1.version) :
    t.2.granted = s.2.granted := by
  obtain ⟨hanswer, -, hnote⟩ := h
  rw [hnote]
  cases e with
  | storeHolds version holds =>
    match r with
    | .error text => rfl
    | .ok false => rfl
    | .ok true =>
      rcases hanswer with ⟨-, -, hput⟩ | ⟨hfalse, -⟩
      · rw [hput, put_version] at same
        exact absurd (version_unused same.symm) (Nat.lt_irrefl _)
      · cases hfalse
  | loadHolds =>
    cases r with
    | error text => rfl
    | ok found => rfl
  | append value =>
    cases r with
    | error text => rfl
    | ok offset => rfl
  | lock | unlock | readWindow | nextReservation | utcNow | finalizedSolanaBlockHeight
  | stall => rfl

omit [DecidableEq ι] in
/-- Only an append writes to the stream. -/
theorem stream_same {process : ι → P} {s t : Shared P ι} {e : Request P}
    (h : Change process s i e t) (other : ∀ value, e ≠ .append value) : t.stream = s.stream := by
  cases h with
  | append value => exact absurd rfl (other value)
  | nothing | lock | unlock | put | number | tick => rfl

/-- What any request adds to. -/
structure Grows (s t : State P ι) : Prop where
  stream : s.1.stream <+: t.1.stream
  granted : ∀ hold ∈ s.2.granted, hold ∈ t.2.granted
  released : ∀ key ∈ s.2.released, key ∈ t.2.released
  lapsed : ∀ key ∈ s.2.lapsed, key ∈ t.2.lapsed

/-- What call `i` may rely on, with or without its ledger. -/
structure Onward (i : ι) (s t : State P ι) : Prop where
  grows : Grows s t
  owed : t.2.owed i = s.2.owed i
  given : t.2.given i = s.2.given i

/-- What call `i` may rely on while it has its ledger. -/
structure Later (w : Setting P ι) (i : ι) (s t : State P ι) : Prop where
  onward : Onward i s t
  carries : Carries w (w.process i) s t
  alone : ∀ id key, KeyOf w.owners (w.process i) id key → LeavesAlone s t key
  inside : t.1.holder (w.process i) = some i

theorem grows_of_env {s t : State P ι} {e : Request P} {r : e.Answer}
    (h : env w.process w.rules s i e r t) : Grows s t := by
  obtain ⟨hanswer, -, hnote⟩ := h
  refine ⟨hanswer.change.stream, ?_, ?_, ?_⟩
  · rw [hnote]
    exact after_granted
  · rw [hnote]
    exact after_released
  · rw [hnote]
    exact after_lapsed

theorem onward_of_guar {s t : State P ι} (step : ∃ j, j ≠ i ∧ w.contract.guar j s t) :
    Onward i s t := by
  obtain ⟨j, hj, ⟨e, r, hstep⟩, -⟩ := step
  have hother : (s.2.after w.calls s.1 j e r).owed i = s.2.owed i ∧
      (s.2.after w.calls s.1 j e r).given i = s.2.given i := after_other hj
  refine ⟨grows_of_env hstep, ?_, ?_⟩
  · rw [hstep.2.2]
    exact hother.1
  · rw [hstep.2.2]
    exact hother.2

omit [DecidableEq ι] [DecidableEq P] in
/-- The keys of a process whose ledger call `j` does not use are left alone. -/
theorem alone_of_step {s t : State P ι} {j : ι} {q : P} (own : KeepsToOwn w j s t)
    (outside : q = w.process j → s.1.holder q ≠ some j ∧ t.1.holder q ≠ some j)
    {id : ReservationId} {key : String} (hkey : KeyOf w.owners q id key) : LeavesAlone s t key := by
  rcases own key with halone | ⟨huses, id', -, hkey'⟩
  · exact halone
  · obtain ⟨hq, -⟩ := hkey.unique w.apart hkey'
    obtain ⟨hs, ht⟩ := outside hq
    rw [← hq] at huses
    rcases huses with huses | huses
    · exact absurd huses hs
    · exact absurd huses ht

omit [DecidableEq ι] in
theorem carries_of_step {s t : State P ι} {j : ι} {q : P} {e : Request P}
    (change : Change w.process s.1 j e t.1) (granted : ∀ hold ∈ s.2.granted, hold ∈ t.2.granted)
    (own : KeepsToOwn w j s t)
    (outside : q = w.process j → s.1.holder q ≠ some j ∧ t.1.holder q ≠ some j) :
    Carries w q s t where
  stream := change.stream
  ids := change.ids q
  granted := granted
  released := fun _ _ hkey => (alone_of_step own outside hkey).released
  committed := fun _ _ hkey => (alone_of_step own outside hkey).committed

theorem later_of_guar {s t : State P ι} (inside : s.1.holder (w.process i) = some i)
    (step : ∃ j, j ≠ i ∧ w.contract.guar j s t) : Later w i s t := by
  have honward := onward_of_guar step
  obtain ⟨j, hj, ⟨e, r, hanswer, -⟩, hown⟩ := step
  have hstill := (hanswer.change.held hj.symm inside).1
  have houtside : w.process i = w.process j →
      s.1.holder (w.process i) ≠ some j ∧ t.1.holder (w.process i) ≠ some j := by
    intro _
    rw [inside, hstill]
    exact ⟨fun h => hj (Option.some.inj h).symm, fun h => hj (Option.some.inj h).symm⟩
  exact ⟨honward, carries_of_step hanswer.change honward.grows.granted hown houtside,
    fun id key hkey => alone_of_step hown houtside hkey, hstill⟩

omit [DecidableEq ι] in
/-- Ledgers that nobody uses stay in order. -/
theorem memory_step {s t : State P ι} {e : Request P} (hinv : Inv w s)
    (change : Change w.process s.1 i e t.1) (hplain : Plain e)
    (granted : ∀ hold ∈ s.2.granted, hold ∈ t.2.granted) (own : KeepsToOwn w i s t) (p : P)
    (free : t.1.holder p = none) : Owns w p none (t.1.memory p) t := by
  obtain ⟨hmemory, hholder⟩ := change.plain hplain
  rw [hmemory]
  have hfree : s.1.holder p = none := by
    rw [← hholder]
    exact free
  refine (hinv.memory p hfree).carry (carries_of_step change granted own fun _ => ?_)
  rw [hfree, free]
  exact ⟨nofun, nofun⟩

omit [DecidableEq ι] in
theorem unused_step {s t : State P ι} {e : Request P} (hinv : Inv w s)
    (change : Change w.process s.1 i e t.1) (own : KeepsToOwn w i s t) (p : P) (id : ReservationId)
    (key : String) (hkey : KeyOf w.owners p id key) (hid : t.1.ids p ≤ id) : Unused t key := by
  rcases own key with halone | ⟨-, id', hid', hkey'⟩
  · exact (hinv.unused p id key hkey (Nat.le_trans (change.ids p) hid)).left halone
  · obtain ⟨rfl, rfl⟩ := hkey.unique w.apart hkey'
    exact absurd hid' (Nat.not_lt.mpr hid)

/-- The document, the stream and what is granted, released and committed stay. -/
structure Quiet (w : Setting P ι) (s t : State P ι) : Prop where
  doc : t.1.doc = s.1.doc
  stream : t.1.stream = s.1.stream
  granted : t.2.granted = s.2.granted
  released : t.2.released = s.2.released
  committed : t.2.committed = s.2.committed
  lapsed : ∀ key ∈ s.2.lapsed, key ∈ t.2.lapsed
  looked : ∀ key ∈ t.2.lapsed, s.1.holds.lookup key = none → key ∈ s.2.lapsed
  unlapsed : w.orderly → ∀ key amount, (key, amount) ∈ s.2.granted → key ∈ t.2.lapsed →
    key ∈ s.2.released ∨ key ∈ s.2.committed

omit [DecidableEq ι] [DecidableEq P] in
theorem Quiet.alone {s t : State P ι} (h : Quiet w s t) (key : String) : LeavesAlone s t key := by
  have hholds : t.1.holds = s.1.holds := by rw [Shared.holds, h.doc, Shared.holds]
  refine ⟨?_, ?_, ?_, ?_, fun hnone hmem => h.looked key hmem hnone, ?_⟩
  · rw [h.granted]
    exact fun _ => id
  · rw [hholds]
    exact id
  · rw [h.stream]
    exact id
  · rw [h.released]
    exact id
  · rw [h.committed]
    exact id

omit [DecidableEq ι] in
theorem Inv.quiet {s t : State P ι} {e : Request P} (hinv : Inv w s)
    (change : Change w.process s.1 i e t.1) (hplain : Plain e) (h : Quiet w s t) :
    Inv w t ∧ KeepsToOwn w i s t := by
  have hown : KeepsToOwn w i s t := fun key => .inl (h.alone key)
  have hholds : t.1.holds = s.1.holds := by rw [Shared.holds, h.doc, Shared.holds]
  refine ⟨?_, hown⟩
  constructor
  · rintro key amount ⟨hgranted, hreleased, hlapsed⟩
    rw [h.granted] at hgranted
    rw [h.released] at hreleased
    rw [InDoc, hholds, h.stream]
    exact hinv.covered key amount ⟨hgranted, hreleased, fun hmem => hlapsed (h.lapsed key hmem)⟩
  · refine memory_step hinv change hplain ?_ hown
    rw [h.granted]
    exact fun _ => id
  · exact unused_step hinv change hown
  · rw [h.granted]
    exact hinv.single
  · rw [h.granted, h.stream]
    exact hinv.written
  · rw [h.granted, h.stream, h.committed]
    exact hinv.named
  · rw [h.granted, h.released, h.committed]
    exact h.unlapsed
  · intro horderly
    have hspent : ∀ charged, spent charged t.1 = spent charged s.1 := by
      intro charged
      rw [spent, spent, hholds, h.stream]
    obtain ⟨hdaily, hmonthly⟩ := hinv.caps horderly
    exact ⟨by rw [hspent]; exact hdaily, by rw [hspent]; exact hmonthly⟩

/-- The document is put anew, perhaps with a hold that is granted. -/
structure Puts (w : Setting P ι) (i : ι) (fresh : Option (String × Nat)) (holds : Holds)
    (s t : State P ι) : Prop where
  shared : t.1 = s.1.put holds
  granted : t.2.granted = fresh.toList ++ s.2.granted
  released : t.2.released = s.2.released
  lapsed : t.2.lapsed = s.2.lapsed
  committed : t.2.committed = s.2.committed
  inside : s.1.holder (w.process i) = some i
  new : ∀ key amount, fresh = some (key, amount) → Unused s key ∧ InDoc t.1 key amount ∧
    ∃ id < s.1.ids (w.process i), KeyOf w.owners (w.process i) id key
  cover : ∀ key amount, s.2.Outstanding key amount → InDoc s.1 key amount →
    InDoc t.1 key amount ∨ key ∈ keysOf s.1.stream
  own : ∀ key, s.1.holds.lookup key = none → holds.lookup key = none ∨
    ∃ id < s.1.ids (w.process i), KeyOf w.owners (w.process i) id key
  caps : w.orderly → WithinCaps w.budget w.today t.1

omit [DecidableEq ι] [DecidableEq P] in
theorem Puts.keepsToOwn {fresh : Option (String × Nat)} {holds : Holds} {s t : State P ι}
    (h : Puts w i fresh holds s t) : KeepsToOwn w i s t := by
  intro key
  have hids : t.1.ids = s.1.ids := by rw [h.shared]; rfl
  by_cases hused : ∃ id < s.1.ids (w.process i), KeyOf w.owners (w.process i) id key
  · rw [hids]
    exact .inr ⟨.inl h.inside, hused⟩
  · refine .inl ⟨fun amount hmem => ?_, fun hnone => ?_, ?_, ?_, ?_, ?_⟩
    · rw [h.granted] at hmem
      rcases List.mem_append.mp hmem with hnew | hmem
      · exact absurd (h.new key amount (Option.mem_toList.mp hnew)).2.2 hused
      · exact hmem
    · rw [h.shared]
      exact (h.own key hnone).resolve_right hused
    · rw [h.shared]
      exact id
    · rw [h.released]
      exact id
    · rw [h.lapsed]
      exact fun _ => id
    · rw [h.committed]
      exact id

omit [DecidableEq ι] in
theorem Inv.puts {fresh : Option (String × Nat)} {holds : Holds} {s t : State P ι} {e : Request P}
    (hinv : Inv w s) (change : Change w.process s.1 i e t.1) (hplain : Plain e)
    (h : Puts w i fresh holds s t) : Inv w t ∧ KeepsToOwn w i s t := by
  have hown := h.keepsToOwn
  have hstream : t.1.stream = s.1.stream := by rw [h.shared]; rfl
  have hgrown : ∀ hold ∈ s.2.granted, hold ∈ t.2.granted := by
    intro hold hmem
    rw [h.granted]
    exact List.mem_append_right _ hmem
  have hsplit : ∀ key amount, (key, amount) ∈ t.2.granted →
      fresh = some (key, amount) ∨ (key, amount) ∈ s.2.granted := by
    intro key amount hmem
    rw [h.granted] at hmem
    rcases List.mem_append.mp hmem with hnew | hmem
    · exact .inl (Option.mem_toList.mp hnew)
    · exact .inr hmem
  refine ⟨?_, hown⟩
  constructor
  · rintro key amount ⟨hgranted, hreleased, hlapsed⟩
    rw [hstream]
    rcases hsplit key amount hgranted with hnew | hold
    · exact .inl (h.new key amount hnew).2.1
    · rw [h.released] at hreleased
      rw [h.lapsed] at hlapsed
      rcases hinv.covered key amount ⟨hold, hreleased, hlapsed⟩ with hdoc | hnamed
      · exact h.cover key amount ⟨hold, hreleased, hlapsed⟩ hdoc
      · exact .inr hnamed
  · exact memory_step hinv change hplain hgrown hown
  · exact unused_step hinv change hown
  · intro key a b ha hb
    rcases hsplit key a ha with hnew | hold
    · rcases hsplit key b hb with hnew' | hold'
      · rw [hnew] at hnew'
        exact (Prod.mk.inj (Option.some.inj hnew')).2
      · exact absurd hold' ((h.new key a hnew).1.granted b)
    · rcases hsplit key b hb with hnew' | hold'
      · exact absurd hold ((h.new key b hnew').1.granted a)
      · exact hinv.single key a b hold hold'
  · intro record key amount hnames hgranted
    rw [hstream] at hnames
    rcases hsplit key amount hgranted with hnew | hold
    · exact absurd (mem_keysOf.mpr ⟨record, hnames⟩) (h.new key amount hnew).1.named
    · exact hinv.written record key amount hnames hold
  · intro horderly key amount hgranted hnamed
    rw [hstream] at hnamed
    rw [h.committed]
    rcases hsplit key amount hgranted with hnew | hold
    · exact absurd hnamed (h.new key amount hnew).1.named
    · exact hinv.named horderly key amount hold hnamed
  · intro horderly key amount hgranted hlapsed
    rw [h.lapsed] at hlapsed
    rw [h.released, h.committed]
    rcases hsplit key amount hgranted with hnew | hold
    · exact absurd hlapsed (h.new key amount hnew).1.lapsed
    · exact hinv.unlapsed horderly key amount hold hlapsed
  · exact h.caps

/-- A record enters the stream, perhaps for a hold of the call's ledger. -/
structure Enters (w : Setting P ι) (i : ι) (record : PaymentRecord) (key : Option String)
    (s t : State P ι) : Prop where
  shared : t.1 = s.1.appended (storedPayment record.atMillisecondPrecision key)
  granted : t.2.granted = s.2.granted
  released : t.2.released = s.2.released
  lapsed : t.2.lapsed = s.2.lapsed
  kept : ∀ k ∈ s.2.committed, k ∈ t.2.committed
  committed : ∀ k ∈ t.2.committed, k ∈ s.2.committed ∨ key = some k
  inside : s.1.holder (w.process i) = some i
  own : ∀ k, key = some k → ∃ id < s.1.ids (w.process i),
    KeyOf w.owners (w.process i) id k ∧ commits (w.calls i) = some (id, record)
  ordered : w.orderly → (∀ earlier ∈ recordsOf s.1.stream, earlier.id ≠ record.id) ∧
    ∃ k, key = some k ∧ s.2.Held k record.amountAtomic ∧ k ∈ t.2.committed

omit [DecidableEq ι] [DecidableEq P] in
theorem Enters.stream {record : PaymentRecord} {key : Option String} {s t : State P ι}
    (h : Enters w i record key s t) : t.1.stream =
      s.1.stream ++ [some (storedPayment record.atMillisecondPrecision key)] := by
  rw [h.shared]
  rfl

omit [DecidableEq ι] [DecidableEq P] in
theorem Enters.names {record : PaymentRecord} {key : Option String} {s t : State P ι}
    (h : Enters w i record key s t) {earlier : PaymentRecord} {k : String} :
    Names t.1.stream earlier k ↔ Names s.1.stream earlier k ∨
      (earlier = record.atMillisecondPrecision ∧ key = some k) := by
  rw [h.stream, Names, List.filterMap_append, List.mem_append]
  simp [Names, parsed_stored, eq_comm]

omit [DecidableEq ι] [DecidableEq P] in
theorem Enters.keys {record : PaymentRecord} {key : Option String} {s t : State P ι}
    (h : Enters w i record key s t) {k : String} :
    k ∈ keysOf t.1.stream ↔ k ∈ keysOf s.1.stream ∨ key = some k := by
  simp only [mem_keysOf, h.names, exists_or]
  simp

omit [DecidableEq ι] [DecidableEq P] in
theorem Enters.keepsToOwn {record : PaymentRecord} {key : Option String} {s t : State P ι}
    (h : Enters w i record key s t) : KeepsToOwn w i s t := by
  intro k
  have hids : t.1.ids = s.1.ids := by rw [h.shared]; rfl
  by_cases hown : key = some k
  · obtain ⟨id, hid, hkey, -⟩ := h.own k hown
    rw [hids]
    exact .inr ⟨.inl h.inside, id, hid, hkey⟩
  · refine .inl ⟨?_, ?_, ?_, ?_, ?_, ?_⟩
    · rw [h.granted]
      exact fun _ => id
    · rw [h.shared]
      exact id
    · exact fun hmem => (h.keys.mp hmem).resolve_right hown
    · rw [h.released]
      exact id
    · rw [h.lapsed]
      exact fun _ => id
    · exact fun hmem => (h.committed k hmem).resolve_right hown

/-- Naming a hold takes it out of what is held besides. -/
theorem unnamed_named {stream later : List (Option StoredPayment)} {holds : Holds} {key : String}
    {hold : Hold} (hdoc : holds.lookup key = some hold) (hunnamed : key ∉ keysOf stream)
    (hnamed : ∀ k, k ∈ keysOf later ↔ k ∈ keysOf stream ∨ k = key) :
    unnamed later holds + hold.amount = unnamed stream holds := by
  have hdrop := total_drop
    (fun k (h : Hold) => if k ∈ keysOf stream then 0 else h.amount)
    (fun k (h : Hold) => if k ∈ keysOf later then 0 else h.amount) hdoc
    (by simp [hnamed]) (fun k h hne _ => by simp [hnamed, hne])
  simpa [unnamed, hunnamed] using hdrop

/-- An entry that commits a hold moves what was held into a record. -/
theorem moved_le {stream : List (Option StoredPayment)} {value : StoredPayment} {holds : Holds}
    {key : String} {hold : Hold} (fresh : ∀ record ∈ recordsOf stream, record.id ≠ value.id)
    (names : value.committedHold = some key) (hdoc : holds.lookup key = some hold)
    (hamount : hold.amount = value.amountAtomic) (hunnamed : key ∉ keysOf stream)
    (charged : PaymentRecord → Bool) :
    chargedSum charged (recordsOf (stream ++ [some value])) +
        unnamed (stream ++ [some value]) holds ≤
      chargedSum charged (recordsOf stream) + unnamed stream holds := by
  cases hparsed : parsed (some value) with
  | none =>
    have hrecords : recordsOf [some value] = [] := by simp [recordsOf, hparsed]
    have hkeys : keysOf [some value] = [] := by simp [keysOf, hparsed]
    rw [unnamed, unnamed, recordsOf_append, keysOf_append, hrecords, hkeys, List.append_nil,
      List.append_nil]
  | some loaded =>
    obtain ⟨record, named⟩ := loaded
    obtain ⟨hid, hcharge, hnamed⟩ := parsed_fields hparsed
    have hrecords : recordsOf [some value] = [record] := by simp [recordsOf, hparsed]
    have hdrop : unnamed (stream ++ [some value]) holds + hold.amount = unnamed stream holds := by
      refine unnamed_named hdoc hunnamed fun k => ?_
      rw [keysOf_append, List.mem_append]
      simp [keysOf, hparsed, hnamed, names]
    have hfresh : ∀ earlier ∈ recordsOf stream, earlier.id ≠ record.id := by
      rw [hid]
      exact fresh
    rw [recordsOf_append, hrecords, chargedSum_append_fresh hfresh]
    split
    · omega
    · omega

omit [DecidableEq ι] [DecidableEq P] in
/-- A commit moves what is held into a record. -/
theorem Enters.spent_le {record : PaymentRecord} {key : Option String} {s t : State P ι}
    (hinv : Inv w s) (h : Enters w i record key s t) (horderly : w.orderly)
    (charged : PaymentRecord → Bool) : spent charged t.1 ≤ spent charged s.1 := by
  obtain ⟨hfresh, k, rfl, hheld, -⟩ := h.ordered horderly
  obtain ⟨⟨hold, hdoc, hamount⟩, hunnamed⟩ := hinv.held_inDoc horderly hheld
  rw [spent, spent, h.stream, show t.1.holds = s.1.holds by rw [h.shared]; rfl]
  exact moved_le hfresh rfl hdoc hamount hunnamed charged

omit [DecidableEq ι] in
theorem Inv.enters {record : PaymentRecord} {key : Option String} {s t : State P ι} {e : Request P}
    (hinv : Inv w s) (change : Change w.process s.1 i e t.1) (hplain : Plain e)
    (h : Enters w i record key s t) : Inv w t ∧ KeepsToOwn w i s t := by
  have hown := h.keepsToOwn
  have hholds : t.1.holds = s.1.holds := by rw [h.shared]; rfl
  refine ⟨?_, hown⟩
  constructor
  · rintro k amount ⟨hgranted, hreleased, hlapsed⟩
    rw [h.granted] at hgranted
    rw [h.released] at hreleased
    rw [h.lapsed] at hlapsed
    rw [InDoc, hholds, h.keys]
    rcases hinv.covered k amount ⟨hgranted, hreleased, hlapsed⟩ with hdoc | hnamed
    · exact .inl hdoc
    · exact .inr (.inl hnamed)
  · refine memory_step hinv change hplain ?_ hown
    rw [h.granted]
    exact fun _ => id
  · exact unused_step hinv change hown
  · rw [h.granted]
    exact hinv.single
  · intro earlier k amount hnames hgranted
    rw [h.granted] at hgranted
    rcases h.names.mp hnames with hearlier | ⟨rfl, hkey⟩
    · exact hinv.written earlier k amount hearlier hgranted
    · obtain ⟨id, -, hkeyOf, hcommits⟩ := h.own k hkey
      exact ⟨i, id, record, hcommits, rfl, hkeyOf⟩
  · intro horderly k amount hgranted hnamed
    rw [h.granted] at hgranted
    rcases h.keys.mp hnamed with hearlier | hkey
    · exact h.kept k (hinv.named horderly k amount hgranted hearlier)
    · obtain ⟨-, own, hown', -, hcommitted⟩ := h.ordered horderly
      rw [hkey] at hown'
      cases hown'
      exact hcommitted
  · intro horderly k amount hgranted hlapsed
    rw [h.granted] at hgranted
    rw [h.lapsed] at hlapsed
    rw [h.released]
    exact (hinv.unlapsed horderly k amount hgranted hlapsed).imp_right (h.kept k)
  · intro horderly
    obtain ⟨hdaily, hmonthly⟩ := hinv.caps horderly
    exact ⟨Nat.le_trans (h.spent_le hinv horderly _) hdaily,
      Nat.le_trans (h.spent_le hinv horderly _) hmonthly⟩

end LedgerHolds
