import TinyWallet.Ledger.HoldSteps

/-!
# The methods keep the holds

Every method of a ledger, called while the ledger is in order, leaves it in
order, whatever other ledgers do in between.
-/

namespace LedgerHolds

open Programs Sharing Tables LedgerRecords LedgerStore LedgerStorage LedgerReading LedgerCalls
  LedgerMirrors LedgerTotals

variable {P ι : Type} [DecidableEq P] [DecidableEq ι] {w : Setting P ι} {i : ι}

/-- The call is using its ledger, and the ledger is in order. -/
structure Inside (w : Setting P ι) (i : ι) (busy : Option ReservationId) (m : PaymentLedger)
    (s : State P ι) : Prop where
  inside : s.1.holder (w.process i) = some i
  owns : Owns w (w.process i) busy m s

omit [DecidableEq P] [DecidableEq ι] in
/-- What a call's ledger may rely on is that nobody else touches it. -/
theorem Inside.later {busy : Option ReservationId} {m : PaymentLedger} {s t : State P ι}
    (h : Inside w i busy m s) (later : Later w i s t) : Inside w i busy m t :=
  ⟨later.inside, h.owns.carry later.carries⟩

theorem Inside.other {busy : Option ReservationId} {m : PaymentLedger} {s t : State P ι}
    (h : Inside w i busy m s) (step : ∃ j, j ≠ i ∧ w.contract.guar j s t) : Inside w i busy m t :=
  h.later (later_of_guar h.inside step)

theorem Inside.rely {busy : Option ReservationId} {m : PaymentLedger} {s t : State P ι}
    (h : Inside w i busy m s) (rely : w.contract.Rely i s t) : Inside w i busy m t :=
  rely.stable (fun _ _ hu _ step => hu.other step) h

/-- What others leave, from a state in which the call has its ledger on. -/
theorem onward_rely {known : State P ι → Prop}
    (lasts : ∀ s t, known s → Onward i s t → known t) {s t : State P ι} (h : known s)
    (rely : w.contract.Rely i s t) : known t :=
  rely.stable (fun u v hu _ step => lasts u v hu (onward_of_guar step)) h

omit [DecidableEq P] [DecidableEq ι] in
/-- A change to the memory that the reservations do not show. -/
theorem Inside.of_same {busy : Option ReservationId} {m m' : PaymentLedger} {s : State P ι}
    (h : Inside w i busy m s) (hreservations : m'.reservations = m.reservations)
    (howner : m'.owner = m.owner) (hbudget : m'.budget = m.budget) (hknows : Knows m' s.1.stream)
    (hmirrors : w.orderly → Mirrors m' s.1.stream) : Inside w i busy m' s where
  inside := h.inside
  owns :=
    { owner := by rw [howner]; exact h.owns.owner
      knows := hknows
      keys := by rw [hreservations]; exact h.owns.keys
      free := by rw [hreservations]; exact h.owns.free
      orderly := fun horderly =>
        ⟨hmirrors horderly, by rw [hbudget]; exact (h.owns.orderly horderly).2⟩ }

omit [DecidableEq P] [DecidableEq ι] in
theorem Inside.withHolds {busy : Option ReservationId} {m : PaymentLedger} {s : State P ι}
    (h : Inside w i busy m s) (holds : Holds) : Inside w i busy { m with holds := holds } s :=
  h.of_same rfl rfl rfl (h.owns.knows.of_same rfl rfl rfl)
    fun horderly => (h.owns.orderly horderly).1.of_same rfl rfl rfl

omit [DecidableEq P] [DecidableEq ι] in
theorem Inside.caughtUp {busy : Option ReservationId} {m : PaymentLedger} {s : State P ι}
    (h : Inside w i busy m s) : Inside w i busy (caughtUp m s.1.stream) s :=
  h.of_same rfl rfl rfl h.owns.knows.caughtUp fun horderly => (h.owns.orderly horderly).1.caughtUp

/-- Requests that leave the document and the stream alone. -/
def Silent : Request P → Prop
  | .lock _ => False
  | .unlock _ _ => False
  | .storeHolds _ _ => False
  | .append _ => False
  | _ => True

omit [DecidableEq ι] in
theorem silent_same {process : ι → P} {e : Request P} (silent : Silent e) {s t : Shared P ι}
    (h : Change process s i e t) : t.doc = s.doc ∧ t.stream = s.stream := by
  cases h with
  | nothing | number | tick => exact ⟨rfl, rfl⟩
  | lock | unlock | put | append => exact silent.elim

theorem mem_lapsedAfter {call : Call} {holds : Holds} {lapsed : List String} {key : String} :
    key ∈ lapsedAfter call holds lapsed ↔
      (∃ now hold, dated call = some now ∧ holds.lookup key = some hold ∧
        hold.expiresMs ≤ now.millis) ∨ key ∈ lapsed := by
  rw [lapsedAfter, List.mem_append]
  cases hdated : dated call with
  | none => simp
  | some now => simp [mem_lapsedAt]

/-- A silent request shows the call the leases of the document at most. -/
theorem silent_quiet {e : Request P} (silent : Silent e) {s t : State P ι} {r : e.Answer}
    (hinv : Inv w s) (h : env w.process w.rules s i e r t) : Quiet w s t := by
  obtain ⟨hanswer, hpermits, hnote⟩ := h
  obtain ⟨hdoc, hstream⟩ := silent_same silent hanswer.change
  have hplain : t.2.granted = s.2.granted → t.2.released = s.2.released →
      t.2.committed = s.2.committed → t.2.lapsed = s.2.lapsed → Quiet w s t := by
    intro hgranted hreleased hcommitted hlapsed
    refine ⟨hdoc, hstream, hgranted, hreleased, hcommitted, ?_, ?_, ?_⟩
    · rw [hlapsed]
      exact fun _ => id
    · rw [hlapsed]
      exact fun _ hmem _ => hmem
    · rw [hlapsed]
      exact hinv.unlapsed
  cases e with
  | loadHolds =>
    cases r with
    | error text =>
      rw [show t.2 = s.2 from hnote] at hplain
      exact hplain rfl rfl rfl rfl
    | ok found =>
      obtain ⟨rfl, -⟩ := hanswer
      have hlapsed : t.2.lapsed = lapsedAfter (w.calls i) s.1.holds s.2.lapsed := by
        rw [hnote]
        rfl
      refine ⟨hdoc, hstream, by rw [hnote]; rfl, by rw [hnote]; rfl, by rw [hnote]; rfl, ?_, ?_, ?_⟩
      · intro key hmem
        rw [hlapsed]
        exact mem_lapsedAfter.mpr (.inr hmem)
      · intro key hmem hnone
        rw [hlapsed] at hmem
        rcases mem_lapsedAfter.mp hmem with ⟨now, hold, -, hlookup, -⟩ | hmem
        · rw [hnone] at hlookup
          cases hlookup
        · exact hmem
      · intro horderly key amount hgranted hmem
        rw [hlapsed] at hmem
        rcases mem_lapsedAfter.mp hmem with ⟨now, hold, hdated, hlookup, hended⟩ | hmem
        · by_contra hneither
          obtain ⟨hreleased, hcommitted⟩ := not_or.mp hneither
          have hlive := w.ordered horderly _ _ _ _ _ _ hpermits now hdated key amount
            ⟨hgranted, hreleased, hcommitted⟩ hold hlookup
          omega
        · exact hinv.unlapsed horderly key amount hgranted hmem
  | readWindow | nextReservation | utcNow | finalizedSolanaBlockHeight =>
    rw [show t.2 = s.2 from hnote] at hplain
    exact hplain rfl rfl rfl rfl
  | stall => exact r.elim
  | lock | unlock | storeHolds | append => exact silent.elim

omit [DecidableEq P] in
theorem Silent.plain {e : Request P} (silent : Silent e) : Plain e := by
  cases e with
  | lock | unlock | storeHolds | append => exact silent.elim
  | loadHolds | readWindow | nextReservation | utcNow | finalizedSolanaBlockHeight | stall =>
    trivial

omit [DecidableEq ι] in
/-- What any request of the call leaves of its own business, unless it commits. -/
theorem Inside.step {busy : Option ReservationId} {m : PaymentLedger} {s t : State P ι}
    {e : Request P} (h : Inside w i busy m s) (change : Change w.process s.1 i e t.1)
    (hplain : Plain e) (granted : ∀ hold ∈ s.2.granted, hold ∈ t.2.granted)
    (released : t.2.released = s.2.released) (committed : t.2.committed = s.2.committed) :
    Inside w i busy m t where
  inside := by
    rw [(change.plain hplain).2]
    exact h.inside
  owns := h.owns.carry
    { stream := change.stream
      ids := change.ids _
      granted := granted
      released := fun _ _ _ => by rw [released]; exact id
      committed := fun _ _ _ => by rw [committed]; exact id }

theorem silent_step {busy : Option ReservationId} {m : PaymentLedger} {e : Request P}
    (silent : Silent e) {s t : State P ι} {r : e.Answer} (hinv : Inv w s) (h : Inside w i busy m s)
    (hstep : env w.process w.rules s i e r t) :
    Inv w t ∧ KeepsToOwn w i s t ∧ Inside w i busy m t := by
  have hquiet := silent_quiet silent hinv hstep
  obtain ⟨hinvt, hown⟩ := hinv.quiet hstep.1.change silent.plain hquiet
  refine ⟨hinvt, hown, h.step hstep.1.change silent.plain ?_ hquiet.released hquiet.committed⟩
  rw [hquiet.granted]
  exact fun _ => id

/-- A method that goes on after a silent request. -/
theorem silent_ask_bind {α β : Type} {post : Except String β → PaymentLedger → State P ι → Prop}
    {e : Request P} (silent : Silent e) {g : e.Answer → Except String α} {f : α → Op P β}
    {busy : Option ReservationId} {m : PaymentLedger} {s : State P ι} (hm : Inside w i busy m s)
    (h : ∀ t r u, w.contract.Rely i s t → Inv w t → Inside w i busy m t →
      env w.process w.rules t i e r u → Inv w u → Inside w i busy m u → match g r with
        | .ok a => Meets (env w.process w.rules) w.contract i post (f a) m u
        | .error text => ∀ v, w.contract.Rely i u v → post (.error text) m v) :
    Meets (env w.process w.rules) w.contract i post (Method.ask e g >>= f) m s := by
  refine meets_ask_bind fun t ht hinvt r u hu => ?_
  have hmt := hm.rely ht
  obtain ⟨hinvu, hown, hmu⟩ := silent_step silent hinvt hmt hu
  have hnext := h t r u ht hinvt hmt hu hinvu hmu
  refine ⟨hinvu, ⟨⟨_, _, hu⟩, hown⟩, ?_⟩
  cases hg : g r with
  | ok a =>
    rw [hg] at hnext
    exact hnext
  | error text =>
    rw [hg] at hnext
    exact fun v hv _ => hnext v hv

/-- The document may be put as it is now wanted. -/
structure MayPut (w : Setting P ι) (i : ι) (holds : Holds) (s : State P ι) : Prop where
  cover : ∀ key amount, s.2.Outstanding key amount → InDoc s.1 key amount →
    (∃ hold, holds.lookup key = some hold ∧ hold.amount = amount) ∨ key ∈ keysOf s.1.stream
  own : ∀ key, s.1.holds.lookup key = none → holds.lookup key = none ∨
    ∃ id < s.1.ids (w.process i), KeyOf w.owners (w.process i) id key
  caps : w.orderly → WithinCaps w.budget w.today (s.1.put holds)

/-- A hold that a put grants. -/
structure Grants (w : Setting P ι) (i : ι) (fresh : Option (String × Nat)) (holds : Holds)
    (s : State P ι) : Prop where
  granted : grantedAfter (w.calls i) s.1.holds holds s.2.granted = fresh.toList ++ s.2.granted
  new : ∀ key amount, fresh = some (key, amount) → Unused s key ∧
    (∃ hold, holds.lookup key = some hold ∧ hold.amount = amount) ∧
    ∃ id < s.1.ids (w.process i), KeyOf w.owners (w.process i) id key

theorem store_step {fresh : Option (String × Nat)} {busy : Option ReservationId}
    {m : PaymentLedger} {version : Option Version} {holds : Holds} {s t : State P ι}
    {r : Except String Bool} (hinv : Inv w s) (h : Inside w i busy m s)
    (hmay : s.1.version = version → MayPut w i holds s)
    (hgrants : s.1.version = version → Grants w i fresh holds s)
    (hstep : env w.process w.rules s i (.storeHolds version holds) r t) :
    Inv w t ∧ KeepsToOwn w i s t ∧ Inside w i busy m t := by
  have hchange := hstep.1.change
  obtain ⟨hanswer, -, hnote⟩ := hstep
  have hsame : t.1 = s.1 → t.2 = s.2 →
      Inv w t ∧ KeepsToOwn w i s t ∧ Inside w i busy m t := by
    intro hshared hnotes
    obtain rfl : t = s := Prod.ext hshared hnotes
    exact ⟨hinv, fun key => .inl ⟨fun _ => id, id, id, id, fun _ => id, id⟩, h⟩
  -- a put, whether or not it was answered
  have hput : ∀ new : Option (String × Nat), s.1.version = version → t.1 = s.1.put holds →
      t.2.granted = new.toList ++ s.2.granted → (new = none ∨ new = fresh) →
      t.2.released = s.2.released → t.2.lapsed = s.2.lapsed → t.2.committed = s.2.committed →
      Inv w t ∧ KeepsToOwn w i s t ∧ Inside w i busy m t := by
    intro new hversion hshared hgranted hnew hreleased hlapsed hcommitted
    have hready := hmay hversion
    have hholds : t.1.holds = holds := by rw [hshared]; rfl
    have hputs : Puts w i new holds s t := by
      refine ⟨hshared, hgranted, hreleased, hlapsed, hcommitted, h.inside, ?_, ?_, hready.own, ?_⟩
      · rintro key amount rfl
        obtain ⟨hunused, hdoc, hown⟩ := (hgrants hversion).new key amount
          ((hnew.resolve_left nofun).symm)
        rw [InDoc, hholds]
        exact ⟨hunused, hdoc, hown⟩
      · intro key amount hout hdoc
        rw [InDoc, hholds]
        exact hready.cover key amount hout hdoc
      · rw [hshared]
        exact hready.caps
    obtain ⟨hinvt, hown⟩ := hinv.puts hchange trivial hputs
    refine ⟨hinvt, hown, h.step hchange trivial ?_ hreleased hcommitted⟩
    rw [hgranted]
    exact fun _ => List.mem_append_right _
  cases r with
  | error text =>
    rcases hanswer with hshared | ⟨hversion, hshared⟩
    · exact hsame hshared hnote
    · rw [show t.2 = s.2 from hnote] at hput
      exact hput none hversion hshared rfl (.inl rfl) rfl rfl rfl
  | ok stored =>
    rcases hanswer with ⟨rfl, hversion, hshared⟩ | ⟨rfl, -, hshared⟩
    · refine hput fresh hversion hshared ?_ (.inr rfl) (by rw [hnote]; rfl) (by rw [hnote]; rfl)
        (by rw [hnote]; rfl)
      rw [hnote]
      exact (hgrants hversion).granted
    · exact hsame hshared hnote

omit [DecidableEq P] [DecidableEq ι] in
/-- Calls other than reservations grant nothing. -/
theorem grants_none {holds : Holds} {s : State P ι}
    (hcall : ∀ now amount, w.calls i ≠ .reserveAt now amount) : Grants w i none holds s where
  granted := by
    cases hkind : w.calls i with
    | reserveAt now amount => exact absurd hkind (hcall now amount)
    | openLedger | release | renewHoldsAt | commitReservation | tryCommitReservation
    | tryRecordPayment | recordPayment | observeSolanaExpiry => rfl
  new := nofun

omit [DecidableEq P] [DecidableEq ι] in
/-- The document read before is the one that a put replaces. -/
theorem holds_of_version {version : Option Version} {holds : Holds} {s : State P ι}
    (since : Since version holds s.1) (current : s.1.version = version) : s.1.holds = holds := by
  cases since with
  | same _ unchanged => exact unchanged
  | gone changed _ => exact absurd current changed

theorem since_rely {version : Option Version} {holds : Holds} {s t : State P ι}
    (since : Since version holds s.1) (rely : w.contract.Rely i s t) : Since version holds t.1 := by
  refine rely.stable (P := fun u => Since version holds u.1) ?_ since
  rintro u v hu - ⟨j, -, ⟨e, r, hstep⟩, -⟩
  exact hu.change hstep.1.change

/-- A hold that need not be in the document. -/
def Spent (key : String) (s : State P ι) : Prop :=
  key ∈ s.2.released ∨ key ∈ keysOf s.1.stream

omit [DecidableEq P] [DecidableEq ι] in
theorem Spent.grows {key : String} {s t : State P ι} (h : Spent key s) (grows : Grows s t) :
    Spent key t := by
  rcases h with hreleased | hnamed
  · exact .inl (grows.released key hreleased)
  · obtain ⟨record, hnames⟩ := mem_keysOf.mp hnamed
    exact .inr (mem_keysOf.mpr ⟨record, hnames.grow grows.stream⟩)

omit [DecidableEq P] [DecidableEq ι] in
theorem mayPut_erase {key : String} {s : State P ι} (hinv : Inv w s) (hspent : Spent key s) :
    MayPut w i (s.1.holds.erase key) s where
  cover := by
    rintro k amount ⟨-, hreleased, -⟩ ⟨hold, hdoc, hamount⟩
    by_cases hk : k = key
    · subst hk
      exact .inr (hspent.resolve_left hreleased)
    · exact .inl ⟨hold, by rw [AList.lookup_erase_ne hk]; exact hdoc, hamount⟩
  own := by
    intro k hnone
    left
    by_cases hk : k = key
    · subst hk
      exact AList.lookup_erase _ _
    · rw [AList.lookup_erase_ne hk]
      exact hnone
  caps := by
    intro horderly
    obtain ⟨hdaily, hmonthly⟩ := hinv.caps horderly
    have hle : ∀ charged, spent charged (s.1.put (s.1.holds.erase key)) ≤ spent charged s.1 :=
      fun charged => Nat.add_le_add_left (total_erase_le _ _ _) _
    exact ⟨Nat.le_trans (hle _) hdaily, Nat.le_trans (hle _) hmonthly⟩

/-- A property that requests add nothing against. -/
def Lasting (known : State P ι → Prop) : Prop := ∀ s t, known s → Grows s t → known t

theorem Lasting.rely {known : State P ι → Prop} (lasting : Lasting known) {s t : State P ι}
    (h : known s) (rely : w.contract.Rely i s t) : known t :=
  rely.stable (fun u v hu _ step => lasting u v hu (onward_of_guar step).grows) h

omit [DecidableEq P] [DecidableEq ι] in
theorem lasting_true : Lasting fun _ : State P ι => True := fun _ _ _ _ => trivial

/-- The leases that have ended at `now` are noted. -/
def Looked (now : Instant) (holds : Holds) (s : State P ι) : Prop :=
  ∀ key hold, holds.lookup key = some hold → hold.expiresMs ≤ now.millis → key ∈ s.2.lapsed

omit [DecidableEq P] [DecidableEq ι] in
theorem lasting_looked (now : Instant) (holds : Holds) :
    Lasting fun s : State P ι => Looked now holds s :=
  fun _ _ h grows key hold hlookup hended => grows.lapsed key (h key hold hlookup hended)

omit [DecidableEq P] [DecidableEq ι] in
theorem lasting_spent (key : String) : Lasting fun s : State P ι => Spent key s :=
  fun _ _ h grows => h.grows grows

/-- The call has read the document, and what it shows of leases is noted. -/
def HasRead (w : Setting P ι) (i : ι) (r : Except String (Option Version × Holds))
    (s : State P ι) : Prop :=
  ∀ found, r = .ok found → Since found.1 found.2 s.1 ∧
    ∀ now, dated (w.calls i) = some now → Looked now found.2 s

theorem loadHolds_meets {known : State P ι → Prop} (lasting : Lasting known)
    {busy : Option ReservationId} {m : PaymentLedger} {s : State P ι} (hm : Inside w i busy m s)
    (hknown : known s) :
    Meets (env w.process w.rules) w.contract i
      (fun r m' v => m' = m ∧ Inside w i busy m v ∧ known v ∧ HasRead w i r v)
      (loadHolds : Op P _) m s := by
  refine meets_ask fun t ht hinvt r u hu => ?_
  have hmt := hm.rely ht
  obtain ⟨hinvu, hown, hmu⟩ := silent_step (e := .loadHolds) trivial hinvt hmt hu
  refine ⟨hinvu, ⟨⟨_, _, hu⟩, hown⟩, fun v hv _ => ?_⟩
  have hknownu : known u := lasting t u (lasting.rely hknown ht) (grows_of_env hu)
  refine ⟨rfl, hmu.rely hv, lasting.rely hknownu hv, ?_⟩
  rintro found rfl
  obtain ⟨⟨hfound, hsame⟩, -, hnote⟩ := hu
  constructor
  · refine since_rely ?_ hv
    rw [hfound, hsame]
    exact since_read t.1
  · intro now hdated
    refine (lasting_looked now found.2).rely (fun key hold hlookup hended => ?_) hv
    rw [hnote]
    exact mem_lapsedAfter.mpr (.inl ⟨now, hold, hdated, hlookup, hended⟩)

theorem storeHolds_meets {known : State P ι → Prop} (lasting : Lasting known)
    (hcall : ∀ now amount, w.calls i ≠ .reserveAt now amount) {busy : Option ReservationId}
    {m : PaymentLedger} {version : Option Version} {doc holds : Holds} {s : State P ι}
    (hm : Inside w i busy m s) (hknown : known s) (hsince : Since version doc s.1)
    (hmay : ∀ t, Inv w t → Inside w i busy m t → known t → t.1.holds = doc → MayPut w i holds t) :
    Meets (env w.process w.rules) w.contract i
      (fun _ m' v => m' = m ∧ Inside w i busy m v ∧ known v)
      (storeHolds version holds : Op P _) m s := by
  refine meets_ask fun t ht hinvt r u hu => ?_
  have hmt := hm.rely ht
  have hknownt := lasting.rely hknown ht
  obtain ⟨hinvu, hown, hmu⟩ := store_step hinvt hmt
    (fun hversion => hmay t hinvt hmt hknownt (holds_of_version (since_rely hsince ht) hversion))
    (fun _ => grants_none hcall) hu
  have hknownu := lasting t u hknownt (grows_of_env hu)
  exact ⟨hinvu, ⟨⟨_, _, hu⟩, hown⟩, fun v hv _ => ⟨rfl, hmu.rely hv, lasting.rely hknownu hv⟩⟩

theorem releaseLoop_meets (hcall : ∀ now amount, w.calls i ≠ .reserveAt now amount) (key : String)
    (attempts : Nat) : ∀ {m : PaymentLedger} {s : State P ι}, Inv w s → Inside w i none m s →
      Spent key s →
      Meets (env w.process w.rules) w.contract i (fun _ m' v => m' = m ∧ Inside w i none m v)
        (releaseLoop key attempts) m s := by
  induction attempts with
  | zero =>
    intro m s _ hm _
    exact meets_pure fun v hv _ => ⟨rfl, hm.rely hv⟩
  | succ attempts ih =>
    intro m s hinv hm hspent
    rw [releaseLoop]
    refine meets_tried_bind hinv (loadHolds_meets (lasting_spent key) hm hspent) ?_
    rintro found m' t hinvt ⟨rfl, hmt, hspentt, hread⟩
    cases found with
    | error text => exact meets_pure fun v hv _ => ⟨rfl, hmt.rely hv⟩
    | ok found =>
      obtain ⟨version, doc⟩ := found
      have hsince := (hread _ rfl).1
      dsimp only
      by_cases hnone : (version.isNone || (doc.lookup key).isNone) = true
      · rw [if_pos hnone]
        exact meets_pure fun v hv _ => ⟨rfl, hmt.rely hv⟩
      · rw [if_neg hnone]
        have hmay : ∀ u, Inv w u → Inside w i none m' u → Spent key u → u.1.holds = doc →
            MayPut w i (doc.erase key) u := by
          rintro u hinvu - hspentu rfl
          exact mayPut_erase hinvu hspentu
        refine meets_tried_bind hinvt
          (storeHolds_meets (lasting_spent key) hcall hmt hspentt hsince hmay) ?_
        rintro stored m'' u hinvu ⟨rfl, hmu, hspentu⟩
        cases stored with
        | error text => exact meets_pure fun v hv _ => ⟨rfl, hmu.rely hv⟩
        | ok stored =>
          cases stored with
          | true => exact meets_pure fun v hv _ => ⟨rfl, hmu.rely hv⟩
          | false => exact ih hinvu hmu hspentu

omit [DecidableEq P] [DecidableEq ι] in
/-- A reservation that is gone keeps the ledger busy no more. -/
theorem Inside.settle {id : ReservationId} {m : PaymentLedger} {s : State P ι}
    (h : Inside w i (some id) m s) (gone : m.reservations.lookup id = none) :
    Inside w i none m s where
  inside := h.inside
  owns :=
    { h.owns with
      free := by
        intro id' own _ hown
        refine h.owns.free id' own ?_ hown
        rintro ⟨⟩
        rw [gone] at hown
        cases hown }

omit [DecidableEq P] [DecidableEq ι] in
theorem Inside.dropped {busy : Option ReservationId} {m : PaymentLedger} {s : State P ι}
    (h : Inside w i busy m s) (id : ReservationId) (holds : Holds) :
    Inside w i busy { m with reservations := m.reservations.erase id, holds := holds } s := by
  have hlookup : ∀ id' own, (m.reservations.erase id).lookup id' = some own →
      m.reservations.lookup id' = some own := by
    intro id' own hown
    by_cases hid : id' = id
    · subst hid
      rw [AList.lookup_erase] at hown
      cases hown
    · rwa [AList.lookup_erase_ne hid] at hown
  refine ⟨h.inside, h.owns.owner, h.owns.knows.of_same rfl rfl rfl, ?_, ?_, ?_⟩
  · exact fun id' own hown => h.owns.keys id' own (hlookup id' own hown)
  · exact fun id' own hbusy hown => h.owns.free id' own hbusy (hlookup id' own hown)
  · exact fun horderly =>
      ⟨(h.owns.orderly horderly).1.of_same rfl rfl rfl, (h.owns.orderly horderly).2⟩

theorem release_meets (hcall : ∀ now amount, w.calls i ≠ .reserveAt now amount)
    (id : ReservationId) {m : PaymentLedger} {s : State P ι} (hinv : Inv w s)
    (hm : Inside w i (some id) m s)
    (hspent : ∀ own, m.reservations.lookup id = some own → Spent own.key s) :
    Meets (env w.process w.rules) w.contract i (fun _ m' v => Inside w i none m' v)
      (LedgerStore.release id) m s := by
  refine meets_self_bind ?_
  cases hown : m.reservations.lookup id with
  | none => exact meets_pure fun v hv _ => (hm.settle hown).rely hv
  | some own =>
    refine meets_update_bind ?_
    have hdropped := (hm.dropped id (m.holds.erase own.key)).settle
      (AList.lookup_erase _ _)
    refine meets_mono ?_ (releaseLoop_meets hcall own.key holdCasAttempts hinv hdropped
      (hspent own hown))
    rintro _ m' v - ⟨rfl, hmv⟩
    exact hmv

omit [DecidableEq P] [DecidableEq ι] in
theorem mayPut_renewed {m : PaymentLedger} {s : State P ι} {now : Instant} (hinv : Inv w s)
    (hm : Inside w i none m s) (hlooked : Looked now s.1.holds s) :
    MayPut w i (renewed m now.millis s.1.holds) s where
  cover := by
    rintro key amount ⟨hgranted, -, hlapsed⟩ ⟨hold, hdoc, hamount⟩
    left
    rcases lookup_renewed m now.millis s.1.holds key with ⟨id, own, hown, rfl, hlookup⟩ |
      ⟨-, hlookup⟩
    · refine ⟨_, hlookup, ?_⟩
      exact hinv.single own.key own.amount amount (hm.owns.keys id own hown).2.2 hgranted
    · refine ⟨hold, ?_, hamount⟩
      have halive : now.millis < hold.expiresMs := by
        by_contra hended
        exact hlapsed (hlooked key hold hdoc (not_lt.mp hended))
      rw [hlookup, hdoc, Option.filter_some, if_pos (decide_eq_true halive)]
  own := by
    intro key hnone
    rcases lookup_renewed m now.millis s.1.holds key with ⟨id, own, hown, rfl, -⟩ | ⟨-, hlookup⟩
    · obtain ⟨hkey, hid, -⟩ := hm.owns.keys id own hown
      exact .inr ⟨id, hid, hkey⟩
    · left
      rw [hlookup, hnone]
      rfl
  caps := by
    intro horderly
    have hunnamed : unnamed s.1.stream (renewed m now.millis s.1.holds) ≤
        unnamed s.1.stream s.1.holds := by
      refine total_le_of_lookup fun key hold hfound => ?_
      rcases lookup_renewed m now.millis s.1.holds key with ⟨id, own, hown, rfl, hlookup⟩ |
        ⟨-, hlookup⟩
      · -- an own hold that is held is in the document already
        obtain ⟨hreleased, hcommitted⟩ := hm.owns.free id own (Option.some_ne_none _).symm hown
        obtain ⟨⟨old, hold', hamount⟩, -⟩ := hinv.held_inDoc horderly
          ⟨(hm.owns.keys id own hown).2.2, hreleased, hcommitted⟩
        rw [hlookup] at hfound
        cases hfound
        exact ⟨old, hold', by rw [hamount]⟩
      · rw [hlookup] at hfound
        exact ⟨hold, (Option.filter_eq_some_iff.mp hfound).1, le_refl _⟩
    obtain ⟨hdaily, hmonthly⟩ := hinv.caps horderly
    have hle : ∀ charged, spent charged (s.1.put (renewed m now.millis s.1.holds)) ≤
        spent charged s.1 := fun charged => Nat.add_le_add_left hunnamed _
    exact ⟨Nat.le_trans (hle _) hdaily, Nat.le_trans (hle _) hmonthly⟩

theorem renewLoop_meets {now : Instant} (hcall : w.calls i = .renewHoldsAt now) (attempts : Nat) :
    ∀ {m : PaymentLedger} {s : State P ι}, Inv w s → Inside w i none m s →
      Meets (env w.process w.rules) w.contract i (fun _ m' v => Inside w i none m' v)
        (renewLoop now attempts) m s := by
  have hdated : dated (w.calls i) = some now := by
    rw [hcall]
    rfl
  have hnot : ∀ now' amount, w.calls i ≠ .reserveAt now' amount := by simp [hcall]
  induction attempts with
  | zero => exact fun _ hm => meets_throw fun v hv _ => hm.rely hv
  | succ attempts ih =>
    intro m s hinv hm
    rw [renewLoop]
    refine meets_bind hinv
      (loadHolds_meets lasting_true hm trivial) ?_ ?_
    · rintro ⟨version, doc⟩ m' t hinvt ⟨rfl, hmt, -, hread⟩
      obtain ⟨hsince, hlooked⟩ := hread _ rfl
      refine meets_self_bind (meets_bind hinvt (storeHolds_meets (lasting_looked now doc) hnot hmt
        (hlooked now hdated) hsince ?_) ?_ ?_)
      · rintro u hinvu hmu hlookedu rfl
        exact mayPut_renewed hinvu hmu hlookedu
      · rintro stored m'' u hinvu ⟨rfl, hmu, -⟩
        cases stored with
        | true => exact meets_update_bind (meets_pure fun v hv _ => (hmu.withHolds _).rely hv)
        | false => exact ih hinvu hmu
      · rintro text m'' u - ⟨rfl, hmu, -⟩ v hv -
        exact hmu.rely hv
    · rintro text m' t - ⟨rfl, hmt, -⟩ v hv -
      exact hmt.rely hv

theorem renewHoldsAt_meets {now : Instant} (hcall : w.calls i = .renewHoldsAt now)
    {m : PaymentLedger} {s : State P ι} (hinv : Inv w s) (hm : Inside w i none m s) :
    Meets (env w.process w.rules) w.contract i (fun _ m' v => Inside w i none m' v)
      (LedgerStore.renewHoldsAt now) m s := by
  refine meets_self_bind ?_
  by_cases hempty : m.reservations.entries.isEmpty = true
  · rw [if_pos hempty]
    exact meets_pure fun v hv _ => hm.rely hv
  · rw [if_neg hempty]
    exact renewLoop_meets hcall holdCasAttempts hinv hm

theorem inside_steady (busy : Option ReservationId) (m : PaymentLedger) :
    Steady w.process w.rules (Inv w) (KeepsToOwn w) i (Inside w i busy m) where
  others := fun _ _ h _ step => h.other step
  reading := fun _ _ _ _ hinv h hstep =>
    silent_step (e := .readWindow _) trivial hinv h hstep

/-- A ledger that reads the stream to its end stays in order. -/
theorem refreshRecords_inside (rounds : Nat) {busy : Option ReservationId} {m : PaymentLedger}
    {s : State P ι} (hinv : Inv w s) (hm : Inside w i busy m s) :
    Meets (env w.process w.rules) w.contract i (fun _ m' v => Inside w i busy m' v)
      (refreshRecords rounds) m s := by
  refine meets_mono ?_ (refreshRecords_meets (inside_steady busy m) rounds hinv hm
    hm.owns.knows.reached)
  rintro r m' v - ⟨u, -, hmu, hrely, hout⟩
  cases r with
  | ok done =>
    obtain ⟨-, rfl⟩ := hout
    exact hmu.caughtUp.rely hrely
  | error text =>
    obtain ⟨rfl, -⟩ := hout
    exact hmu.rely hrely

/-- The hold that an append names is the ledger's own. -/
structure OwnKey (w : Setting P ι) (i : ι) (m : PaymentLedger) (record : PaymentRecord)
    (id : ReservationId) (key : String) : Prop where
  reserved : reservationKey m id = some key
  commits : commits (w.calls i) = some (id, record)

/-- An append that a failed `commit_reservation` made has had its effect. -/
def Landed (w : Setting P ι) (i : ι) (key : Option String) (s : State P ι) : Prop :=
  ∀ id record, w.calls i = .commitReservation id record → ∀ k, key = some k →
    k ∈ keysOf s.1.stream

omit [DecidableEq P] [DecidableEq ι] in
theorem lasting_landed (key : Option String) :
    Lasting fun s : State P ι => Landed w i key s := by
  intro s t h grows id record hcall k hk
  obtain ⟨earlier, hnames⟩ := mem_keysOf.mp (h id record hcall k hk)
  exact mem_keysOf.mpr ⟨earlier, hnames.grow grows.stream⟩

theorem enters_of_answer {m : PaymentLedger} {record : PaymentRecord} {key : Option String}
    {s t : State P ι} {r : Except String Nat} (hm : Inside w i none m s)
    (hown : ∀ k, key = some k → ∃ id, OwnKey w i m record id k)
    (hstep : env w.process w.rules s i (.append (storedPayment record.atMillisecondPrecision key)) r
      t)
    (entered : t.1 = s.1.appended (storedPayment record.atMillisecondPrecision key)) :
    Enters w i record key s t := by
  obtain ⟨-, hpermits, hnote⟩ := hstep
  have howned : ∀ k, key = some k → ∃ id < s.1.ids (w.process i),
      KeyOf w.owners (w.process i) id k ∧ commits (w.calls i) = some (id, record) := by
    intro k hk
    obtain ⟨id, hreserved, hcommits⟩ := hown k hk
    obtain ⟨own, hlookup, rfl⟩ := Option.map_eq_some_iff.mp hreserved
    obtain ⟨hkey, hid, -⟩ := hm.owns.keys id own hlookup
    exact ⟨id, hid, hkey, hcommits⟩
  cases r with
  | error text =>
    have hsame : t.2 = s.2 := hnote
    refine ⟨entered, by rw [hsame], by rw [hsame], by rw [hsame], ?_, ?_, hm.inside, howned, ?_⟩
    · rw [hsame]
      exact fun _ => id
    · rw [hsame]
      exact fun _ => .inl
    · intro horderly
      exact (w.ordered horderly _ _ _ _ _ _ hpermits).elim
  | ok offset =>
    have hcommitted : t.2.committed = key.toList ++ s.2.committed := by
      rw [hnote]
      rfl
    refine ⟨entered, by rw [hnote]; rfl, by rw [hnote]; rfl, by rw [hnote]; rfl, ?_, ?_, hm.inside,
      howned, ?_⟩
    · rw [hcommitted]
      exact fun _ => List.mem_append_right _
    · intro k hmem
      rw [hcommitted] at hmem
      rcases List.mem_append.mp hmem with hnew | hold
      · exact .inr (Option.mem_toList.mp hnew)
      · exact .inl hold
    · intro horderly
      obtain ⟨hfresh, k, hk, hheld⟩ := w.ordered horderly _ _ _ _ _ _ hpermits
      refine ⟨hfresh, k, hk, hheld, ?_⟩
      rw [hcommitted]
      exact List.mem_append_left _ (Option.mem_toList.mpr hk)

omit [DecidableEq P] [DecidableEq ι] in
/-- The append of a record names the reservation, which the ledger is then
giving up. -/
theorem Inside.named {busy : Option ReservationId} {m : PaymentLedger} {record : PaymentRecord}
    {key : Option String} {s t : State P ι} (h : Inside w i none m s)
    (henters : Enters w i record key s t)
    (hown : ∀ k, key = some k → ∃ id, OwnKey w i m record id k ∧ busy = some id) :
    Inside w i busy m t where
  inside := by
    rw [henters.shared]
    exact h.inside
  owns :=
    { owner := h.owns.owner
      knows := by
        rw [henters.stream]
        exact h.owns.knows.grow (List.prefix_append _ _)
      keys := by
        rw [henters.granted, henters.shared]
        exact h.owns.keys
      free := by
        intro id own hbusy hlookup
        obtain ⟨hreleased, hcommitted⟩ := h.owns.free id own (Option.some_ne_none _).symm hlookup
        rw [henters.released]
        refine ⟨hreleased, fun hmem => ?_⟩
        rcases henters.committed own.key hmem with hold | hkey
        · exact hcommitted hold
        · obtain ⟨id', ⟨hreserved, -⟩, hbusy'⟩ := hown own.key hkey
          obtain ⟨own', hlookup', hsame⟩ := Option.map_eq_some_iff.mp hreserved
          have hkey' := (h.owns.keys id' own' hlookup').1
          rw [hsame] at hkey'
          obtain ⟨-, rfl⟩ := (h.owns.keys id own hlookup).1.unique w.apart hkey'
          exact hbusy hbusy'
      orderly := by
        intro horderly
        rw [henters.stream]
        exact ⟨(h.owns.orderly horderly).1.grow (List.prefix_append _ _),
          (h.owns.orderly horderly).2⟩ }

omit [DecidableEq P] [DecidableEq ι] in
theorem keysOf_appended {s : Shared P ι} {record : PaymentRecord} {key : Option String} {k : String}
    (hk : key = some k) :
    k ∈ keysOf (s.appended (storedPayment record.atMillisecondPrecision key)).stream :=
  mem_keysOf.mpr ⟨_, names_stored record key s.stream k (Option.mem_toList.mpr hk)⟩

theorem appends_inside {busy : Option ReservationId} {m : PaymentLedger} {record : PaymentRecord}
    {key : Option String}
    (hown : ∀ k, key = some k → ∃ id, OwnKey w i m record id k ∧ busy = some id) :
    Appends w.process w.rules (Inv w) (KeepsToOwn w) i (Inside w i none m)
      (fun s => Inside w i none m s ∧ Landed w i key s ∧ ¬w.orderly)
      (fun before s => Inside w i busy m s ∧ Knows m before ∧ (w.orderly → Mirrors m before))
      (storedPayment record.atMillisecondPrecision key) where
  others := fun _ _ h _ step => h.other step
  step := by
    intro s r t hinv hm hstep
    have howned : ∀ k, key = some k → ∃ id, OwnKey w i m record id k := fun k hk => by
      obtain ⟨id, h, -⟩ := hown k hk
      exact ⟨id, h⟩
    cases r with
    | error text =>
      have hnote : t.2 = s.2 := hstep.2.2
      have hlanded : Landed w i key t := by
        intro id own hcall k hk
        have hnames : (storedPayment record.atMillisecondPrecision key).committedHold.isSome := by
          rw [hk]
          rfl
        rw [w.lands _ _ _ _ _ _ _ _ hcall hnames hstep.2.1]
        exact keysOf_appended hk
      have hdisorderly : ¬w.orderly := fun horderly =>
        w.ordered horderly _ _ _ _ _ _ hstep.2.1
      rcases hstep.1 with hsame | hentered
      · obtain rfl : t = s := Prod.ext hsame hnote
        exact ⟨hinv, fun key => .inl ⟨fun _ => id, id, id, id, fun _ => id, id⟩, hm, hlanded,
          hdisorderly⟩
      · have henters := enters_of_answer hm howned hstep hentered
        obtain ⟨hinvt, hkeeps⟩ := hinv.enters hstep.1.change trivial henters
        refine ⟨hinvt, hkeeps, hm.step hstep.1.change trivial ?_ ?_ ?_, hlanded, hdisorderly⟩
        · rw [hnote]
          exact fun _ => id
        · rw [hnote]
        · rw [hnote]
    | ok offset =>
      have henters := enters_of_answer hm howned hstep hstep.1.2
      obtain ⟨hinvt, hkeeps⟩ := hinv.enters hstep.1.change trivial henters
      exact ⟨hinvt, hkeeps, hm.named henters hown, hm.owns.knows,
        fun horderly => (hm.owns.orderly horderly).1⟩
  later := by
    intro before
    refine ⟨?_, ?_⟩
    · rintro s t ⟨hm, hknows⟩ - step
      exact ⟨hm.other step, hknows⟩
    · rintro s next r t hinv ⟨hm, hknows⟩ hstep
      obtain ⟨hinvt, hkeeps, hmt⟩ := silent_step (e := .readWindow _) trivial hinv hm hstep
      exact ⟨hinvt, hkeeps, hmt, hknows⟩

/-- How an append leaves the ledger: busy with the hold that the entry names, or
as it was. -/
def Appended (w : Setting P ι) (i : ι) (busy : Option ReservationId) (key : Option String)
    (m : PaymentLedger) (r : Except String Unit) (m' : PaymentLedger) (s : State P ι) : Prop :=
  match r with
  | .ok _ => Inside w i busy m' s ∧ m'.reservations = m.reservations ∧
      ∀ k, key = some k → k ∈ keysOf s.1.stream
  | .error _ => Inside w i none m s ∧ m' = m ∧ Landed w i key s ∧ ¬w.orderly

theorem appendRecord_inside (rounds : Nat) {busy : Option ReservationId} {m : PaymentLedger}
    {record : PaymentRecord} {key : Option String} {s : State P ι}
    (hown : ∀ k, key = some k → ∃ id, OwnKey w i m record id k ∧ busy = some id)
    (hm : Inside w i none m s) :
    Meets (env w.process w.rules) w.contract i (Appended w i busy key m)
      (appendRecord rounds record key) m s := by
  refine meets_mono ?_ (appendRecord_meets rounds (appends_inside hown) hm hm.owns.knows.reached)
  rintro r m' v - ⟨u, hinvu, hrely, hout⟩
  cases r with
  | error text =>
    obtain ⟨⟨hmu, hlanded, hdisorderly⟩, rfl⟩ := hout
    exact ⟨hmu.rely hrely, rfl, (lasting_landed key).rely hlanded hrely, hdisorderly⟩
  | ok done =>
    obtain ⟨before, ⟨hmu, hknows, hmirrors⟩, -, hentry, htook⟩ := hout
    obtain ⟨hreservations, howner, hbudget⟩ := tookIn_same htook
    have hmu' : Inside w i busy m' u := by
      refine hmu.of_same hreservations howner hbudget (hknows.tookIn hentry htook) ?_
      intro horderly
      refine (hmirrors horderly).tookIn ?_ hentry htook
      rintro ⟨text, x, next, y, -, -, hfails⟩
      exact (w.ordered horderly _ _ _ _ _ _ hfails.2.1).elim
    refine ⟨hmu'.rely hrely, hreservations, fun k hk => ?_⟩
    have hnamed := names_stored record key before k (Option.mem_toList.mpr hk)
    exact mem_keysOf.mpr ⟨_, (hnamed.grow hentry).grow (rely_stream hrely)⟩

theorem appendUnnamed_inside (rounds : Nat) (record : PaymentRecord) {m : PaymentLedger}
    {s : State P ι} (hm : Inside w i none m s) :
    Meets (env w.process w.rules) w.contract i (Appended w i none none m)
      (appendRecord rounds record none) m s :=
  appendRecord_inside rounds nofun hm

omit [DecidableEq P] [DecidableEq ι] in
theorem Inside.busy {busy : Option ReservationId} {m : PaymentLedger} {s : State P ι}
    (h : Inside w i none m s) : Inside w i busy m s where
  inside := h.inside
  owns := { h.owns with free := fun id own _ => h.owns.free id own (Option.some_ne_none _).symm }

omit [DecidableEq P] [DecidableEq ι] in
/-- A record kept in memory alone. -/
theorem Inside.push {busy : Option ReservationId} {m : PaymentLedger} {s : State P ι}
    (h : Inside w i busy m s) (hdisorderly : ¬w.orderly) (record : PaymentRecord) :
    Inside w i busy (m.push record) s :=
  h.of_same rfl rfl rfl (h.owns.knows.push record) fun horderly => absurd horderly hdisorderly

omit [DecidableEq P] [DecidableEq ι] in
theorem ownKey_of_reserved {m : PaymentLedger} {record : PaymentRecord} {id : ReservationId}
    (hcall : commits (w.calls i) = some (id, record)) :
    ∀ k, reservationKey m id = some k → ∃ id', OwnKey w i m record id' k ∧ some id = some id' :=
  fun _ hk => ⟨id, ⟨hk, hcall⟩, rfl⟩

omit [DecidableEq P] [DecidableEq ι] in
theorem not_reserve {id : ReservationId} {record : PaymentRecord}
    (hcall : commits (w.calls i) = some (id, record)) :
    ∀ now amount, w.calls i ≠ .reserveAt now amount := by
  intro now amount hreserve
  rw [hreserve] at hcall
  cases hcall

omit [DecidableEq P] [DecidableEq ι] in
/-- The hold of a reservation that an entry names may go. -/
theorem spent_of_named {m m' : PaymentLedger} {id : ReservationId} {s : State P ι}
    (hsame : m'.reservations = m.reservations)
    (hnamed : ∀ k, reservationKey m id = some k → k ∈ keysOf s.1.stream) (own : OwnHold)
    (hown : m'.reservations.lookup id = some own) : Spent own.key s := by
  rw [hsame] at hown
  exact .inr (hnamed own.key (by rw [reservationKey, hown]; rfl))

theorem tryCommitReservation_meets (rounds : Nat) {id : ReservationId} {record : PaymentRecord}
    (hcall : w.calls i = .tryCommitReservation id record) {m : PaymentLedger} {s : State P ι}
    (hinv : Inv w s) (hm : Inside w i none m s) :
    Meets (env w.process w.rules) w.contract i (fun _ m' v => Inside w i none m' v)
      (LedgerStore.tryCommitReservation rounds id record) m s := by
  have hcommits : commits (w.calls i) = some (id, record) := by
    rw [hcall]
    rfl
  refine meets_self_bind (meets_bind hinv
    (appendRecord_inside rounds (ownKey_of_reserved hcommits) hm) ?_ ?_)
  · rintro _ m' t hinvt ⟨hmt, hsame, hnamed⟩
    exact release_meets (not_reserve hcommits) id hinvt hmt (spent_of_named hsame hnamed)
  · rintro text m' t - ⟨hmt, rfl, -⟩ v hv -
    exact hmt.rely hv

theorem commitReservation_meets (rounds : Nat) {id : ReservationId} {record : PaymentRecord}
    (hcall : w.calls i = .commitReservation id record) {m : PaymentLedger} {s : State P ι}
    (hinv : Inv w s) (hm : Inside w i none m s) :
    Meets (env w.process w.rules) w.contract i (fun _ m' v => Inside w i none m' v)
      (LedgerStore.commitReservation rounds id record) m s := by
  have hcommits : commits (w.calls i) = some (id, record) := by
    rw [hcall]
    rfl
  refine meets_self_bind (meets_tried_bind hinv
    (appendRecord_inside rounds (ownKey_of_reserved hcommits) hm) ?_)
  intro r m' t hinvt happended
  cases r with
  | ok done =>
    obtain ⟨hmt, hsame, hnamed⟩ := happended
    exact release_meets (not_reserve hcommits) id hinvt hmt (spent_of_named hsame hnamed)
  | error text =>
    -- the record is kept in memory, and the hold goes all the same
    obtain ⟨hmt, rfl, hlanded, hdisorderly⟩ := happended
    refine meets_update_bind (release_meets (not_reserve hcommits) id hinvt
      (hmt.push hdisorderly _).busy (spent_of_named rfl ?_))
    exact hlanded id record hcall

theorem tryRecordPayment_meets (rounds : Nat) (record : PaymentRecord) {m : PaymentLedger}
    {s : State P ι} (hm : Inside w i none m s) :
    Meets (env w.process w.rules) w.contract i (fun _ m' v => Inside w i none m' v)
      (LedgerStore.tryRecordPayment rounds record) m s := by
  refine meets_mono ?_ (appendUnnamed_inside rounds record hm)
  intro r m' v _ happended
  cases r with
  | ok done => exact happended.1
  | error text =>
    obtain ⟨hmv, rfl, -⟩ := happended
    exact hmv

theorem recordPayment_meets (rounds : Nat) (record : PaymentRecord) {m : PaymentLedger}
    {s : State P ι} (hinv : Inv w s) (hm : Inside w i none m s) :
    Meets (env w.process w.rules) w.contract i (fun _ m' v => Inside w i none m' v)
      (LedgerStore.recordPayment rounds record) m s := by
  refine meets_tried_bind hinv (appendUnnamed_inside rounds record hm) ?_
  intro r m' t _ happended
  cases r with
  | ok done => exact meets_pure fun v hv _ => happended.1.rely hv
  | error text =>
    obtain ⟨hmt, rfl, -, hdisorderly⟩ := happended
    exact fun v hv _ => (hmt.push hdisorderly _).rely hv

theorem observeSolanaExpiry_meets (rounds : Nat) (evidence : ExpiryEvidence) {m : PaymentLedger}
    {s : State P ι} (hinv : Inv w s) (hm : Inside w i none m s) :
    Meets (env w.process w.rules) w.contract i (fun _ m' v => Inside w i none m' v)
      (LedgerStore.observeSolanaExpiry rounds evidence) m s := by
  refine meets_self_bind ?_
  split_ifs with hstale
  · exact meets_pure fun v hv _ => hm.rely hv
  refine meets_bind hinv (refreshRecords_inside rounds hinv hm) ?_ ?_
  · intro _ m' t hinvt hmt
    refine meets_self_bind ?_
    cases hfound : payment m'.records evidence.id with
    | none => exact meets_pure fun v hv _ => hmt.rely hv
    | some latest =>
      by_cases hfits : evidence.fits latest = true
      · simp only [hfits, if_true]
        refine meets_bind hinvt (tryRecordPayment_meets rounds _ hmt) ?_ ?_
        · exact fun _ m'' v _ hmv => meets_pure fun x hx _ => hmv.rely hx
        · exact fun _ m'' v _ hmv x hx _ => hmv.rely hx
      · simp only [hfits]
        exact meets_pure fun v hv _ => hmt.rely hv
  · exact fun _ m' t _ hmt v hv _ => hmt.rely hv

/-- A ledger that has just read the whole stream. -/
theorem opened_mirrors (generation : Nat) (owner sessionId : String) (budget : SpendingBudget)
    (stream : List (Option StoredPayment)) :
    Mirrors
      { generation := generation
        records := (stream.filterMap parsed).map Prod.fst
        committedHolds := (stream.filterMap parsed).filterMap Prod.snd
        nextOffset := stream.length
        budget := budget
        sessionId := sessionId
        owner := owner
        reservations := ∅
        holds := ∅ } stream :=
  ⟨le_refl _, by simp [recordsOf], by simp [keysOf]⟩

theorem openLedger_meets (rounds : Nat) {generation : Nat} {owner sessionId : String}
    {budget : SpendingBudget}
    (hcall : w.calls i = .openLedger generation owner sessionId budget) {m : PaymentLedger}
    {s : State P ι} (hinv : Inv w s) (hm : Inside w i none m s) :
    Meets (env w.process w.rules) w.contract i (fun _ m' v => Inside w i none m' v)
      (LedgerStore.openLedger rounds generation owner sessionId budget) m s := by
  obtain ⟨howner, hbudget⟩ := w.opened i _ _ _ _ hcall
  refine meets_bind hinv (readFrom_nil_meets (inside_steady none m) rounds 0 hm (Nat.zero_le _))
    ?_ ?_
  · rintro ⟨records, next⟩ m' t - ⟨rfl, u, -, hmu, hrely, -, heq⟩
    obtain ⟨rfl, rfl⟩ := Prod.mk.inj heq
    rw [List.drop_zero]
    have hmirrors := opened_mirrors generation owner sessionId budget u.1.stream
    refine meets_update_bind (meets_pure fun v hv _ => Inside.rely ?_ (hrely.trans hv))
    refine ⟨hmu.inside, howner, Knows.of_mirrors hmirrors, nofun, nofun, fun horderly => ?_⟩
    exact ⟨hmirrors, hbudget horderly⟩
  · rintro text m' t - ⟨rfl, u, -, hmu, hrely, -⟩ v hv -
    exact hmu.rely (hrely.trans hv)

end LedgerHolds
