import TinyWallet.Ledger.HoldCalls

/-!
# Reserving keeps the holds

A reservation reads the document, then the stream, and puts the document under
the version it read. What it read of other ledgers' holds is therefore still
all there is when it answers, and what it found room for still has room when
the new hold is put: others can only have turned holds into records.
-/

namespace LedgerHolds

open Programs Sharing Tables LedgerRecords LedgerStore LedgerStorage LedgerReading LedgerCalls
  LedgerMirrors LedgerTotals

variable {P ι : Type} {w : Setting P ι} {i : ι}

theorem chargedDaily_of_day {now today : Instant} (h : now.day = today.day) :
    chargedDaily now = chargedDaily today := by
  have hwindow : dayWindow now = dayWindow today := by rw [dayWindow, dayWindow, h]
  funext record
  rw [chargedDaily, chargedDaily, hwindow]

theorem chargedMonthly_of_day {now today : Instant} (h : now.day = today.day) :
    chargedMonthly now = chargedMonthly today := by
  have hmonth : now.month = today.month := congrArg Calendar.monthOf h
  have hwindow : monthWindow now = monthWindow today := by rw [monthWindow, monthWindow, hmonth]
  funext record
  rw [chargedMonthly, chargedMonthly, hwindow, hmonth]

/-- There is room for the amount besides what is charged and these holds. -/
structure Room (w : Setting P ι) (holds : Holds) (amount : Nat)
    (stream : List (Option StoredPayment)) : Prop where
  daily : chargedSum (chargedDaily w.today) (recordsOf stream) + unnamed stream holds + amount ≤
    w.budget.dailyMaxAtomic
  monthly : chargedSum (chargedMonthly w.today) (recordsOf stream) + unnamed stream holds +
    amount ≤ w.budget.monthlyMaxAtomic

theorem trueTotal_le_spent (charged : PaymentRecord → Bool) (nowMs : Int) (s : Shared P ι) :
    trueTotal charged nowMs s ≤ spent charged s := by
  refine Nat.add_le_add_left (total_le_of_weight fun key hold _ => ?_) _
  by_cases hnamed : key ∈ keysOf s.stream
  · simp [hnamed]
  · simp only [hnamed, not_false_eq_true, and_true, if_false]
    split
    · exact le_refl _
    · exact Nat.zero_le _

theorem unnamed_live_le (nowMs : Int) (committed : List String)
    (stream : List (Option StoredPayment)) (doc : Holds) :
    unnamed stream (liveHolds nowMs committed doc) ≤ uncommitted nowMs stream doc := by
  rw [unnamed, liveHolds, total_retain]
  refine total_le_of_weight fun key hold _ => ?_
  by_cases hnamed : key ∈ keysOf stream
  · simp [hnamed]
  · by_cases hlive : nowMs < hold.expiresMs
    · simp only [hlive, hnamed, not_false_eq_true, and_self, if_true, if_false]
      split
      · exact le_refl _
      · exact Nat.zero_le _
    · simp [hlive]

/-- A check that has just caught up and allows the amount has found room. -/
theorem room_of_check {m : PaymentLedger} {s : State P ι} (hinv : Inv w s) (horderly : w.orderly)
    (hm : Mirrors m s.1.stream) (hend : m.nextOffset = s.1.stream.length)
    (hbudget : m.budget = w.budget) {now : Instant} (hday : now.day = w.today.day) {amount : Nat}
    (hcheck : (({ m with holds := liveHolds now.millis m.committedHolds s.1.holds } :
      PaymentLedger).checkBudgetAt now amount).refusal = none) :
    Room w (liveHolds now.millis m.committedHolds s.1.holds) amount s.1.stream := by
  obtain ⟨hdaily, hmonthly⟩ := hinv.caps horderly
  obtain ⟨-, hfitsDaily, hfitsMonthly⟩ := w.budget.fits
  have hlive := unnamed_live_le now.millis m.committedHolds s.1.stream s.1.holds
  simp only [PaymentLedger.checkBudgetAt, PaymentLedger.reservedAtomic, checkBudget,
    chargedTotal_trueTotal hm hend, hbudget] at hcheck
  split at hcheck
  · cases hcheck
  split at hcheck
  · cases hcheck
  next hunderDaily =>
  split at hcheck
  · cases hcheck
  next hunderMonthly =>
  have hsumDaily := trueTotal_le_spent (chargedDaily now) now.millis s.1
  have hsumMonthly := trueTotal_le_spent (chargedMonthly now) now.millis s.1
  rw [chargedDaily_of_day hday] at hunderDaily hsumDaily
  rw [chargedMonthly_of_day hday] at hunderMonthly hsumMonthly
  have hroomDaily := not_exceeds_trueTotal (by omega) (eq_false_of_ne_true hunderDaily)
  have hroomMonthly := not_exceeds_trueTotal (by omega) (eq_false_of_ne_true hunderMonthly)
  rw [trueTotal] at hroomDaily hroomMonthly
  exact ⟨by omega, by omega⟩

section Steps

variable [DecidableEq P] [DecidableEq ι]

/-- What others do leaves the room, as long as the document stays. -/
theorem Room.step {holds : Holds} {amount : Nat} {s t : State P ι} {j : ι} {e : Request P}
    {r : e.Answer} (h : Room w holds amount s.1.stream) (hinv : Inv w s) (horderly : w.orderly)
    (hstep : env w.process w.rules s j e r t)
    (kept : ∀ key held, s.2.Held key held → ∃ hold, holds.lookup key = some hold ∧
      hold.amount = held) : Room w holds amount t.1.stream := by
  have hle : ∀ charged, chargedSum charged (recordsOf t.1.stream) + unnamed t.1.stream holds ≤
      chargedSum charged (recordsOf s.1.stream) + unnamed s.1.stream holds := by
    intro charged
    have hchange := hstep.1.change
    obtain ⟨hanswer, hpermits, -⟩ := hstep
    cases e with
    | append value =>
      cases r with
      | error text => exact (w.ordered horderly _ _ _ _ _ _ hpermits).elim
      | ok offset =>
        obtain ⟨hfresh, key, hnames, hheld⟩ := w.ordered horderly _ _ _ _ _ _ hpermits
        obtain ⟨hold, hlookup, hamount⟩ := kept key value.amountAtomic hheld
        rw [hanswer.2]
        exact moved_le hfresh hnames hlookup hamount (hinv.held_inDoc horderly hheld).2 charged
    | lock | unlock | loadHolds | storeHolds | readWindow | nextReservation | utcNow
    | finalizedSolanaBlockHeight | stall =>
      rw [stream_same hchange fun _ => nofun]
  exact ⟨Nat.le_trans (Nat.add_le_add_right (hle _) _) h.daily,
    Nat.le_trans (Nat.add_le_add_right (hle _) _) h.monthly⟩

end Steps

/-- The ledger counts the hold, as a hold or as a record. -/
def Counts (ledger : PaymentLedger) (stream : List (Option StoredPayment)) (key : String)
    (amount : Nat) : Prop :=
  (∃ hold, ledger.holds.lookup key = some hold ∧ hold.amount = amount) ∨
    ∃ record ∈ ledger.records, Names stream record key

theorem Counts.grow {ledger : PaymentLedger} {stream later : List (Option StoredPayment)}
    {key : String} {amount : Nat} (h : Counts ledger stream key amount) (grown : stream <+: later) :
    Counts ledger later key amount := by
  rcases h with hheld | ⟨record, hmem, hnames⟩
  · exact .inl hheld
  · exact .inr ⟨record, hmem, hnames.grow grown⟩

/-- The document that was read under `version`, with the stream of that instant. -/
structure Viewed (now : Instant) (version : Option Version) (doc : Holds)
    (known : List (String × Nat)) (before : List (Option StoredPayment)) (s : State P ι) :
    Prop where
  since : Since version doc s.1
  granted : s.1.version = version → s.2.granted = known
  looked : Looked now doc s
  covered : ∀ key amount, (key, amount) ∈ known → key ∉ s.2.released → key ∉ s.2.lapsed →
    (∃ hold, doc.lookup key = some hold ∧ hold.amount = amount) ∨ key ∈ keysOf before

section Views

variable [DecidableEq P] [DecidableEq ι]

/-- No request of anybody takes the view away. -/
theorem Viewed.step {now : Instant} {version : Option Version} {doc : Holds}
    {granted : List (String × Nat)} {before : List (Option StoredPayment)} {s t : State P ι} {j : ι}
    {e : Request P} {r : e.Answer} (h : Viewed now version doc granted before s)
    (hstep : env w.process w.rules s j e r t) : Viewed now version doc granted before t := by
  have hgrows := grows_of_env hstep
  have hsince := h.since.change hstep.1.change
  refine ⟨hsince, ?_, lasting_looked now doc s t h.looked hgrows, ?_⟩
  · intro hversion
    -- a document that came back to the version never left it
    have hsame : s.1.version = version := by
      cases h.since with
      | same current _ => exact current
      | gone changed past => exact absurd hversion (gone_change hstep.1.change changed past).1
    rw [granted_of_version hstep (hversion.trans hsame.symm)]
    exact h.granted hsame
  · intro key amount hgranted hreleased hlapsed
    exact h.covered key amount hgranted (fun hmem => hreleased (hgrows.released key hmem))
      fun hmem => hlapsed (hgrows.lapsed key hmem)

/-- A ledger that has read the document and then the stream, and is about to
decide about an amount. -/
structure Ready (w : Setting P ι) (i : ι) (now : Instant) (amount : Nat)
    (version : Option Version) (doc : Holds) (granted : List (String × Nat))
    (before : List (Option StoredPayment)) (m : PaymentLedger) (s : State P ι) : Prop where
  inv : Inv w s
  inside : Inside w i none m s
  view : Viewed now version doc granted before s
  live : m.holds = liveHolds now.millis m.committedHolds doc
  read : ∀ key ∈ keysOf before, ∃ record ∈ m.records, Names s.1.stream record key
  room : (m.checkBudgetAt now amount).refusal = none → w.orderly → s.1.version = version →
    Room w m.holds amount s.1.stream

variable {now : Instant} {amount : Nat} {version : Option Version} {doc : Holds}
  {granted : List (String × Nat)} {before : List (Option StoredPayment)} {m : PaymentLedger}

omit [DecidableEq P] [DecidableEq ι] in
theorem Ready.holds {s : State P ι} (h : Ready w i now amount version doc granted before m s)
    (current : s.1.version = version) : s.1.holds = doc :=
  holds_of_version h.view.since current

omit [DecidableEq P] [DecidableEq ι] in
/-- What was in the document is live, unless it has lapsed or is committed. -/
theorem Ready.lives {s : State P ι} (h : Ready w i now amount version doc granted before m s)
    {key : String} {hold : Hold} (hdoc : doc.lookup key = some hold) (unlapsed : key ∉ s.2.lapsed) :
    m.holds.lookup key = some hold ∨ key ∈ m.committedHolds := by
  by_cases hcommitted : key ∈ m.committedHolds
  · exact .inr hcommitted
  · left
    have halive : now.millis < hold.expiresMs := by
      by_contra hended
      exact unlapsed (h.view.looked key hold hdoc (not_lt.mp hended))
    rw [h.live, liveHolds, lookup_retain, hdoc, Option.filter_some]
    simp [halive, hcommitted]

omit [DecidableEq P] [DecidableEq ι] in
/-- While the document is the one that was read, everything outstanding is counted. -/
theorem Ready.counts {s : State P ι} (h : Ready w i now amount version doc granted before m s)
    (current : s.1.version = version) {key : String} {held : Nat}
    (out : s.2.Outstanding key held) : Counts m s.1.stream key held := by
  obtain ⟨hgranted, hreleased, hlapsed⟩ := out
  rw [h.view.granted current] at hgranted
  rcases h.view.covered key held hgranted hreleased hlapsed with ⟨hold, hdoc, hamount⟩ | hnamed
  · rcases h.lives hdoc hlapsed with hlive | hcommitted
    · exact .inl ⟨hold, hlive, hamount⟩
    · exact .inr (h.inside.owns.knows.committed key hcommitted)
  · exact .inr (h.read key hnamed)

omit [DecidableEq P] [DecidableEq ι] in
theorem Ready.held_live {s : State P ι} (h : Ready w i now amount version doc granted before m s)
    (horderly : w.orderly) (current : s.1.version = version) {key : String} {held : Nat}
    (hheld : s.2.Held key held) : ∃ hold, m.holds.lookup key = some hold ∧ hold.amount = held := by
  obtain ⟨⟨hold, hdoc, hamount⟩, hunnamed⟩ := h.inv.held_inDoc horderly hheld
  rw [h.holds current] at hdoc
  have hunlapsed : key ∉ s.2.lapsed := fun hmem =>
    (h.inv.unlapsed horderly key held hheld.1 hmem).elim hheld.2.1 hheld.2.2
  rcases h.lives hdoc hunlapsed with hlive | hcommitted
  · exact ⟨hold, hlive, hamount⟩
  · obtain ⟨record, -, hnames⟩ := h.inside.owns.knows.committed key hcommitted
    exact absurd (mem_keysOf.mpr ⟨record, hnames⟩) hunnamed

/-- What lasts whoever makes the request, once the invariant and the ledger's
order are known to last. -/
theorem Ready.step {s t : State P ι} {j : ι} {e : Request P} {r : e.Answer}
    (h : Ready w i now amount version doc granted before m s)
    (hstep : env w.process w.rules s j e r t) (hinv : Inv w t) (hinside : Inside w i none m t) :
    Ready w i now amount version doc granted before m t where
  inv := hinv
  inside := hinside
  view := h.view.step hstep
  live := h.live
  read := by
    intro key hkey
    obtain ⟨record, hmem, hnames⟩ := h.read key hkey
    exact ⟨record, hmem, hnames.grow hstep.1.change.stream⟩
  room := by
    intro hcheck horderly hversion
    have hsame : s.1.version = version := by
      cases h.view.since with
      | same current _ => exact current
      | gone changed past => exact absurd hversion (gone_change hstep.1.change changed past).1
    exact (h.room hcheck horderly hsame).step h.inv horderly hstep fun key held hheld =>
      h.held_live horderly hsame hheld

theorem Ready.other {s t : State P ι}
    (h : Ready w i now amount version doc granted before m s) (hinv : Inv w t)
    (step : ∃ j, j ≠ i ∧ w.contract.guar j s t) :
    Ready w i now amount version doc granted before m t := by
  have hinside := h.inside.other step
  obtain ⟨j, -, ⟨e, r, hstep⟩, -⟩ := step
  exact h.step hstep hinv hinside

theorem Ready.rely {s t : State P ι} (h : Ready w i now amount version doc granted before m s)
    (rely : w.contract.Rely i s t) : Ready w i now amount version doc granted before m t :=
  rely.stable (fun _ _ hu hinv step => hu.other hinv step) h

omit [DecidableEq P] [DecidableEq ι] in
/-- What a ledger is ready with once it has read the stream to its end. -/
theorem ready_caughtUp (amount : Nat) {s : State P ι} (hinv : Inv w s) (hm : Inside w i none m s)
    (hview : Viewed now version doc granted before s) (hgrown : before <+: s.1.stream)
    (hday : w.orderly → now.day = w.today.day) :
    Ready w i now amount version doc granted before
      { caughtUp m s.1.stream with
        holds := liveHolds now.millis (caughtUp m s.1.stream).committedHolds doc } s where
  inv := hinv
  inside := hm.caughtUp.withHolds _
  view := hview
  live := rfl
  read := by
    intro key hkey
    obtain ⟨record, hnames⟩ := mem_keysOf.mp hkey
    exact hm.owns.knows.caughtUp.named rfl (mem_keysOf.mpr ⟨record, hnames.grow hgrown⟩)
  room := by
    intro hcheck horderly hversion
    obtain ⟨hmirrors, hbudget⟩ := hm.caughtUp.owns.orderly horderly
    have hholds := holds_of_version hview.since hversion
    rw [← hholds] at hcheck ⊢
    exact room_of_check hinv horderly hmirrors rfl hbudget (hday horderly) hcheck

end Views

/-- What a reservation's answer says about its ledger and the notes. -/
structure Reserved (i : ι) (amount : Nat) (result : Except BudgetRefusal ReservationId)
    (m : PaymentLedger) (s : State P ι) : Prop where
  granted : ∀ id, result = .ok id → (holdKey m.owner id, amount) ∈ s.2.granted
  counted : (∀ requested cap, result ≠ .error (.perRequest requested cap)) →
    ∀ key held, (key, held) ∈ s.2.owed i → Counts m s.1.stream key held

theorem Reserved.onward {amount : Nat} {result : Except BudgetRefusal ReservationId}
    {m : PaymentLedger} {s t : State P ι} (h : Reserved i amount result m s)
    (onward : Onward i s t) : Reserved i amount result m t where
  granted := fun id hid => onward.grows.granted _ (h.granted id hid)
  counted := by
    intro hresult key held hmem
    rw [onward.owed] at hmem
    exact (h.counted hresult key held hmem).grow onward.grows.stream

/-- A reservation leaves its ledger in order, and answers as it should. -/
def Reserves (w : Setting P ι) (i : ι) (amount : Nat)
    (r : Except String (Except BudgetRefusal ReservationId)) (m : PaymentLedger)
    (s : State P ι) : Prop :=
  Inside w i none m s ∧ ∀ result, r = .ok result → Reserved i amount result m s

theorem Reserves.failed {amount : Nat} {text : String} {m : PaymentLedger} {s : State P ι}
    (h : Inside w i none m s) : Reserves w i amount (.error text) m s :=
  ⟨h, nofun⟩

/-- A refusal grants nothing. -/
theorem Reserved.refused {amount : Nat} {refusal : BudgetRefusal} {m : PaymentLedger}
    {s : State P ι} (counted : (∀ requested cap, refusal ≠ .perRequest requested cap) →
      ∀ key held, (key, held) ∈ s.2.owed i → Counts m s.1.stream key held) :
    Reserved i amount (.error refusal) m s where
  granted := nofun
  counted := fun hresult => counted fun requested cap h => hresult requested cap (h ▸ rfl)

/-- A key that the call may grant. -/
structure Fresh (w : Setting P ι) (i : ι) (id : ReservationId) (key : String) (s : State P ι) :
    Prop where
  unused : Unused s key
  below : id < s.1.ids (w.process i)
  key : KeyOf w.owners (w.process i) id key

section Loop

variable [DecidableEq P] [DecidableEq ι]

theorem Reserves.rely {amount : Nat} {r : Except String (Except BudgetRefusal ReservationId)}
    {m : PaymentLedger} {s t : State P ι} (h : Reserves w i amount r m s)
    (rely : w.contract.Rely i s t) : Reserves w i amount r m t := by
  refine ⟨h.1.rely rely, fun result hr => ?_⟩
  exact onward_rely (fun _ _ hu onward => hu.onward onward) (h.2 result hr) rely

theorem Fresh.rely {busy : Option ReservationId} {m : PaymentLedger} {id : ReservationId}
    {key : String} {s t : State P ι} (h : Fresh w i id key s) (hm : Inside w i busy m s)
    (rely : w.contract.Rely i s t) : Fresh w i id key t := by
  refine (rely.stable (P := fun u => Inside w i busy m u ∧ Fresh w i id key u) ?_ ⟨hm, h⟩).2
  rintro u v ⟨hmu, hu⟩ - step
  have hlater := later_of_guar hmu.inside step
  exact ⟨hmu.later hlater, hu.unused.left (hlater.alone id key hu.key),
    Nat.lt_of_lt_of_le hu.below hlater.carries.ids, hu.key⟩

/-- A number that nobody has used makes a key that nobody has used. -/
theorem fresh_numbered {m : PaymentLedger} {id : ReservationId} {s t : State P ι}
    (hinv : Inv w s) (hm : Inside w i none m s)
    (hstep : env w.process w.rules s i .nextReservation id t) :
    Fresh w i id (holdKey m.owner id) t := by
  have hkey : KeyOf w.owners (w.process i) id (holdKey m.owner id) :=
    ⟨m.owner, hm.owns.owner, rfl⟩
  have hquiet := silent_quiet (e := .nextReservation) trivial hinv hstep
  obtain ⟨⟨hunused, hnumbered⟩, -⟩ := hstep
  refine ⟨(hinv.unused _ _ _ hkey hunused).left (hquiet.alone _), ?_, hkey⟩
  rw [hnumbered]
  simp [Shared.numbered]

theorem viewed_loaded {now : Instant} {amount : Nat} (hcall : w.calls i = .reserveAt now amount)
    {s t : State P ι} (hinv : Inv w t)
    (hstep : env w.process w.rules s i .loadHolds (.ok (s.1.version, s.1.holds)) t) :
    Viewed now s.1.version s.1.holds t.2.granted t.1.stream t := by
  obtain ⟨⟨-, hsame⟩, -, hnote⟩ := hstep
  refine ⟨by rw [hsame]; exact since_read s.1, fun _ => rfl, ?_, ?_⟩
  · intro key hold hlookup hended
    have hlapsed : t.2.lapsed = lapsedAfter (w.calls i) s.1.holds s.2.lapsed := by
      rw [hnote]
      rfl
    rw [hlapsed]
    exact mem_lapsedAfter.mpr (.inl ⟨now, hold, by rw [hcall]; rfl, hlookup, hended⟩)
  · intro key amount hgranted hreleased hlapsed
    have hcovered := hinv.covered key amount ⟨hgranted, hreleased, hlapsed⟩
    rwa [InDoc, show t.1.holds = s.1.holds by rw [hsame]] at hcovered

theorem view_steady (now : Instant) (version : Option Version) (doc : Holds)
    (granted : List (String × Nat)) (before : List (Option StoredPayment)) (m : PaymentLedger) :
    Steady w.process w.rules (Inv w) (KeepsToOwn w) i
      (fun s => Inside w i none m s ∧ Viewed now version doc granted before s) where
  others := by
    rintro s t ⟨hm, hview⟩ - step
    have hmt := hm.other step
    obtain ⟨j, -, ⟨e, r, hstep⟩, -⟩ := step
    exact ⟨hmt, hview.step hstep⟩
  reading := by
    rintro s next r t hinv ⟨hm, hview⟩ hstep
    obtain ⟨hinvt, hown, hmt⟩ := silent_step (e := .readWindow _) trivial hinv hm hstep
    exact ⟨hinvt, hown, hmt, hview.step hstep⟩

variable {now : Instant} {amount : Nat} {version : Option Version} {doc : Holds}
  {granted : List (String × Nat)} {before : List (Option StoredPayment)} {m : PaymentLedger}

/-- The document with the new hold, which may be put in place of the one that was read. -/
def withHold (m : PaymentLedger) (now : Instant) (amount : Nat) (id : ReservationId) : Holds :=
  m.holds.insert (holdKey m.owner id) ⟨amount, now.millis + holdTtlMs⟩

omit [DecidableEq P] [DecidableEq ι] in
theorem Ready.live_none {s : State P ι}
    (h : Ready w i now amount version doc granted before m s) {key : String}
    (hnone : doc.lookup key = none) : m.holds.lookup key = none := by
  rw [h.live, liveHolds, lookup_retain, hnone]
  rfl

omit [DecidableEq P] [DecidableEq ι] in
theorem Ready.mayPut {s : State P ι} (h : Ready w i now amount version doc granted before m s)
    (hcheck : (m.checkBudgetAt now amount).refusal = none) (current : s.1.version = version)
    {id : ReservationId} (hfresh : Fresh w i id (holdKey m.owner id) s) :
    MayPut w i (withHold m now amount id) s where
  cover := by
    rintro key held hout ⟨hold, hdoc, hamount⟩
    rw [h.holds current] at hdoc
    have hne : key ≠ holdKey m.owner id := by
      rintro rfl
      exact hfresh.unused.granted held hout.1
    rcases h.lives hdoc hout.2.2 with hlive | hcommitted
    · exact .inl ⟨hold, by rw [withHold, AList.lookup_insert_ne hne]; exact hlive, hamount⟩
    · obtain ⟨record, -, hnames⟩ := h.inside.owns.knows.committed key hcommitted
      exact .inr (mem_keysOf.mpr ⟨record, hnames⟩)
  own := by
    intro key hnone
    rw [h.holds current] at hnone
    by_cases hkey : key = holdKey m.owner id
    · subst hkey
      exact .inr ⟨id, hfresh.below, hfresh.key⟩
    · left
      rw [withHold, AList.lookup_insert_ne hkey]
      exact h.live_none hnone
  caps := by
    intro horderly
    obtain ⟨hdaily, hmonthly⟩ := h.room hcheck horderly current
    have hnone := h.live_none (by rw [← h.holds current]; exact hfresh.unused.held)
    have hunnamed : unnamed s.1.stream (withHold m now amount id) =
        amount + unnamed s.1.stream m.holds := by
      rw [unnamed, withHold, total_insert_of_notMem _ (AList.lookup_eq_none.mp hnone),
        if_neg hfresh.unused.named]
      rfl
    have hspent : ∀ charged, spent charged (s.1.put (withHold m now amount id)) =
        chargedSum charged (recordsOf s.1.stream) + (amount + unnamed s.1.stream m.holds) :=
      fun charged => by rw [← hunnamed]; rfl
    exact ⟨by rw [hspent]; omega, by rw [hspent]; omega⟩

omit [DecidableEq P] [DecidableEq ι] in
theorem Ready.grants {s : State P ι} (h : Ready w i now amount version doc granted before m s)
    (hcall : w.calls i = .reserveAt now amount) (current : s.1.version = version)
    {id : ReservationId} (hfresh : Fresh w i id (holdKey m.owner id) s) :
    Grants w i (some (holdKey m.owner id, amount)) (withHold m now amount id) s where
  granted := by
    rw [hcall]
    refine congrArg (· ++ s.2.granted) (newHolds_insert hfresh.unused.held fun key hnone => ?_)
    rw [h.holds current] at hnone
    exact h.live_none hnone
  new := by
    rintro key held ⟨⟩
    refine ⟨hfresh.unused, ⟨_, AList.lookup_insert _, rfl⟩, id, hfresh.below, hfresh.key⟩

omit [DecidableEq P] [DecidableEq ι] in
/-- The ledger that has placed its hold. -/
theorem Inside.placed {s : State P ι} (h : Inside w i none m s) {id : ReservationId}
    (hfresh : id < s.1.ids (w.process i)) (hgranted : (holdKey m.owner id, amount) ∈ s.2.granted)
    (hreleased : holdKey m.owner id ∉ s.2.released)
    (hcommitted : holdKey m.owner id ∉ s.2.committed) (holds : Holds) :
    Inside w i none
      { m with
        holds := holds
        reservations := m.reservations.insert id ⟨holdKey m.owner id, amount⟩ } s := by
  have hsplit : ∀ id' own, (m.reservations.insert id ⟨holdKey m.owner id, amount⟩).lookup id' =
      some own → (id' = id ∧ own = ⟨holdKey m.owner id, amount⟩) ∨
        m.reservations.lookup id' = some own := by
    intro id' own hown
    by_cases hid : id' = id
    · subst hid
      rw [AList.lookup_insert] at hown
      exact .inl ⟨rfl, (Option.some.inj hown).symm⟩
    · rw [AList.lookup_insert_ne hid] at hown
      exact .inr hown
  refine ⟨h.inside, h.owns.owner, h.owns.knows.of_same rfl rfl rfl, ?_, ?_, ?_⟩
  · intro id' own hown
    rcases hsplit id' own hown with ⟨rfl, rfl⟩ | hold
    · exact ⟨⟨m.owner, h.owns.owner, rfl⟩, hfresh, hgranted⟩
    · exact h.owns.keys id' own hold
  · intro id' own hbusy hown
    rcases hsplit id' own hown with ⟨rfl, rfl⟩ | hold
    · exact ⟨hreleased, hcommitted⟩
    · exact h.owns.free id' own hbusy hold
  · exact fun horderly =>
      ⟨(h.owns.orderly horderly).1.of_same rfl rfl rfl, (h.owns.orderly horderly).2⟩

/-- A refusal that finds the document unchanged has counted everything. -/
theorem refused_meets {refusal : BudgetRefusal}
    {retry : Op P (Except BudgetRefusal ReservationId)}
    (hretry : ∀ {s : State P ι}, Inv w s → Inside w i none m s →
      Meets (env w.process w.rules) w.contract i (Reserves w i amount) retry m s)
    {s : State P ι} (h : Ready w i now amount version doc granted before m s) :
    Meets (env w.process w.rules) w.contract i (Reserves w i amount)
      (do
        let (current, _) ← loadHolds
        if current = version then pure (.error refusal) else retry) m s := by
  refine silent_ask_bind (e := .loadHolds) trivial h.inside ?_
  intro t again u ht hinvt hmt hu hinvu hmu
  cases again with
  | error text => exact fun v hv => .failed (hmu.rely hv)
  | ok again =>
  have hready := (h.rely ht).step hu hinvu hmu
  obtain ⟨⟨rfl, hsame⟩, -, hnote⟩ := hu
  by_cases hcurrent : t.1.version = version
  · simp only [id, hcurrent, if_true]
    refine meets_pure fun v hv _ => Reserves.rely ⟨hmu, ?_⟩ hv
    rintro result ⟨⟩
    refine .refused fun _ key held hmem => hready.counts (by rw [hsame]; exact hcurrent) ?_
    have howed : u.2.owed i = u.2.outstanding := by
      rw [hnote]
      exact Function.update_self _ _ _
    rw [howed] at hmem
    exact mem_outstanding.mp hmem
  · simp only [id, hcurrent, if_false]
    exact hretry hinvu hmu

/-- A grant has counted everything that was outstanding before it. -/
theorem granted_meets (hcall : w.calls i = .reserveAt now amount)
    (hcheck : (m.checkBudgetAt now amount).refusal = none)
    {retry : Op P (Except BudgetRefusal ReservationId)}
    (hretry : ∀ {s : State P ι}, Inv w s → Inside w i none m s →
      Meets (env w.process w.rules) w.contract i (Reserves w i amount) retry m s)
    {s : State P ι} (h : Ready w i now amount version doc granted before m s) :
    Meets (env w.process w.rules) w.contract i (Reserves w i amount)
      (do
        let id ← nextReservation
        let key := holdKey m.owner id
        let holds := m.holds.insert key ⟨amount, now.millis + holdTtlMs⟩
        let stored ← storeHolds version holds
        if stored then do
          Method.update fun ledger =>
            { ledger with
              holds := holds
              reservations := ledger.reservations.insert id ⟨key, amount⟩ }
          pure (.ok id)
        else retry) m s := by
  refine silent_ask_bind (e := .nextReservation) trivial h.inside ?_
  intro x id y hx hinvx hmx hy hinvy hmy
  have hready := (h.rely hx).step hy hinvy hmy
  have hfresh := fresh_numbered hinvx hmx hy
  refine meets_ask_bind fun t ht hinvt stored u hu => ?_
  have hreadyt := hready.rely ht
  have hfresht := hfresh.rely hmy ht
  obtain ⟨hinvu, hown, hmu⟩ := store_step hinvt hreadyt.inside
    (fun current => hreadyt.mayPut hcheck current hfresht)
    (fun current => hreadyt.grants hcall current hfresht) hu
  refine ⟨hinvu, ⟨⟨_, _, hu⟩, hown⟩, ?_⟩
  cases stored with
  | error text => exact fun v hv _ => .failed (hmu.rely hv)
  | ok stored =>
    cases stored with
    | false => exact hretry hinvu hmu
    | true =>
      obtain ⟨hanswer, -, hnote⟩ := hu
      obtain ⟨-, hcurrent, hput⟩ := hanswer.resolve_right fun h => Bool.noConfusion h.1
      have hgranted : u.2.granted = (holdKey m.owner id, amount) :: t.2.granted := by
        rw [hnote]
        exact (hreadyt.grants hcall hcurrent hfresht).granted
      have hmem : (holdKey m.owner id, amount) ∈ u.2.granted := by
        rw [hgranted]
        exact List.mem_cons_self
      have hplaced := hmu.placed (by rw [hput]; exact hfresht.below) hmem
        (by rw [hnote]; exact hfresht.unused.released)
        (by rw [hnote]; exact hfresht.unused.committed) (withHold m now amount id)
      refine meets_update_bind (meets_pure fun v hv _ => Reserves.rely ⟨hplaced, ?_⟩ hv)
      rintro result ⟨⟩
      refine ⟨?_, fun _ key held howing => ?_⟩
      · rintro id' ⟨⟩
        exact hmem
      · have howed : u.2.owed i = t.2.outstanding := by
          rw [hnote]
          exact Function.update_self _ _ _
        rw [howed] at howing
        have hout := mem_outstanding.mp howing
        rw [hput]
        rcases hreadyt.counts hcurrent hout with ⟨hold, hlookup, hamount⟩ | hrecord
        · have hne : key ≠ holdKey m.owner id := by
            rintro rfl
            exact hfresht.unused.granted held hout.1
          exact .inl ⟨hold, (AList.lookup_insert_ne hne).trans hlookup, hamount⟩
        · exact .inr hrecord

theorem reserveLoop_meets (rounds : Nat) (hcall : w.calls i = .reserveAt now amount)
    (attempts : Nat) : ∀ {m : PaymentLedger} {s : State P ι}, Inv w s → Inside w i none m s →
      Meets (env w.process w.rules) w.contract i (Reserves w i amount)
        (reserveLoop rounds now amount attempts) m s := by
  induction attempts with
  | zero => exact fun _ hm => meets_throw fun v hv _ => .failed (hm.rely hv)
  | succ attempts ih =>
    intro m s hinv hm
    rw [reserveLoop]
    -- the document is read first
    refine silent_ask_bind (e := .loadHolds) trivial hm ?_
    intro t found u ht hinvt hmt hu hinvu hmu
    cases found with
    | error text => exact fun v hv => .failed (hmu.rely hv)
    | ok found =>
    obtain rfl : found = (t.1.version, t.1.holds) := hu.1.1
    have hview := viewed_loaded hcall hinvu hu
    -- then the stream, to its end
    refine meets_bind hinvu (refreshRecords_meets ((view_steady now _ _ _ _ m).withPrefix
      u.1.stream) rounds hinvu ⟨⟨hmu, hview⟩, List.prefix_rfl⟩ hmu.owns.knows.reached) ?_ ?_
    · rintro _ m' v hinvv ⟨x, hinvx, ⟨⟨hmx, hviewx⟩, hgrown⟩, hrely, -, rfl⟩
      have hready := (ready_caughtUp amount hinvx hmx hviewx hgrown ?_).rely hrely
      · refine meets_update_bind (meets_self_bind ?_)
        cases hcheck : (PaymentLedger.checkBudgetAt { caughtUp m x.1.stream with
            holds := liveHolds now.millis (caughtUp m x.1.stream).committedHolds t.1.holds }
            now amount).refusal with
        | some refusal => exact refused_meets (fun hinv hm => ih hinv hm) hready
        | none => exact granted_meets hcall hcheck (fun hinv hm => ih hinv hm) hready
      · exact fun horderly => w.sameDay horderly i now (by rw [hcall]; rfl)
    · rintro text m' v - ⟨x, -, ⟨⟨hmx, -⟩, -⟩, hrely, rfl, -⟩ y hy -
      exact .failed (hmx.rely (hrely.trans hy))

theorem reserveAt_meets (rounds : Nat) (hcall : w.calls i = .reserveAt now amount)
    {m : PaymentLedger} {s : State P ι} (hinv : Inv w s) (hm : Inside w i none m s) :
    Meets (env w.process w.rules) w.contract i (Reserves w i amount)
      (LedgerStore.reserveAt rounds now amount) m s := by
  refine meets_self_bind ?_
  by_cases hlarge : m.budget.perRequestMaxAtomic < amount
  · simp only [if_pos hlarge]
    refine meets_pure fun v hv _ => ⟨hm.rely hv, ?_⟩
    rintro result ⟨⟩
    exact .refused fun hother => absurd rfl (hother _ _)
  · simp only [if_neg hlarge]
    exact reserveLoop_meets rounds hcall holdCasAttempts hinv hm

end Loop

/-- The reservation that a call is there to give up. -/
def givesUp : Call → Option ReservationId
  | .release id => some id
  | _ => none

theorem mem_releasedAfter {call : Call} {ledger : PaymentLedger} {released : List String}
    {key : String} : key ∈ releasedAfter call ledger released ↔
      (∃ id own, givesUp call = some id ∧ ledger.reservations.lookup id = some own ∧
        own.key = key) ∨ key ∈ released := by
  cases call with
  | release id =>
    simp only [releasedAfter, reservationKey, givesUp, List.mem_append, Option.mem_toList,
      Option.map_eq_some_iff, Option.some.injEq]
    constructor
    · rintro (⟨own, hlookup, hkey⟩ | hmem)
      · exact .inl ⟨id, own, rfl, hlookup, hkey⟩
      · exact .inr hmem
    · rintro (⟨_, own, rfl, hlookup, hkey⟩ | hmem)
      · exact .inl ⟨own, hlookup, hkey⟩
      · exact .inr hmem
  | openLedger | reserveAt | renewHoldsAt | commitReservation | tryCommitReservation
  | tryRecordPayment | recordPayment | observeSolanaExpiry => simp [releasedAfter, givesUp]

section Handing

variable [DecidableEq P] [DecidableEq ι]

theorem lock_step {s t : State P ι} {ledger : PaymentLedger} (hinv : Inv w s)
    (hstep : env w.process w.rules s i (.lock (w.process i)) ledger t) :
    Inv w t ∧ KeepsToOwn w i s t ∧ Inside w i (givesUp (w.calls i)) ledger t ∧
      ∀ id own, givesUp (w.calls i) = some id → ledger.reservations.lookup id = some own →
        own.key ∈ t.2.released := by
  have hchange := hstep.1.change
  obtain ⟨⟨hfree, rfl, hlocked⟩, -, hnote⟩ := hstep
  have howns := hinv.memory (w.process i) hfree
  have hheld : t.1.holder (w.process i) = some i := by
    rw [hlocked]
    exact Function.update_self _ _ _
  have hreleased : ∀ key, key ∈ t.2.released ↔ (∃ id own, givesUp (w.calls i) = some id ∧
      (s.1.memory (w.process i)).reservations.lookup id = some own ∧ own.key = key) ∨
        key ∈ s.2.released := by
    intro key
    rw [hnote]
    exact mem_releasedAfter
  have hholds : t.1.holds = s.1.holds := by rw [hlocked]; rfl
  have hstream : t.1.stream = s.1.stream := by rw [hlocked]; rfl
  have hids : t.1.ids = s.1.ids := by rw [hlocked]; rfl
  have hgranted : t.2.granted = s.2.granted := by rw [hnote]; rfl
  have hlapsed : t.2.lapsed = s.2.lapsed := by rw [hnote]; rfl
  have hcommitted : t.2.committed = s.2.committed := by rw [hnote]; rfl
  have hown : KeepsToOwn w i s t := by
    intro key
    by_cases hnew : ∃ id own, givesUp (w.calls i) = some id ∧
        (s.1.memory (w.process i)).reservations.lookup id = some own ∧ own.key = key
    · obtain ⟨id, own, -, hlookup, rfl⟩ := hnew
      obtain ⟨hkey, hid, -⟩ := howns.keys id own hlookup
      rw [hids]
      exact .inr ⟨.inr hheld, id, hid, hkey⟩
    · refine .inl ⟨?_, ?_, ?_, fun hmem => ((hreleased key).mp hmem).resolve_left hnew, ?_, ?_⟩
      · rw [hgranted]
        exact fun _ => id
      · rw [hholds]
        exact id
      · rw [hstream]
        exact id
      · rw [hlapsed]
        exact fun _ => id
      · rw [hcommitted]
        exact id
  have hkept : ∀ hold ∈ s.2.granted, hold ∈ t.2.granted := by
    rw [hgranted]
    exact fun _ => id
  refine ⟨?_, hown, ?_, fun id own hid hlookup => (hreleased _).mpr (.inl ⟨id, own, hid, hlookup,
    rfl⟩)⟩
  · constructor
    · rintro key amount ⟨hmem, hnot, hlive⟩
      rw [hgranted] at hmem
      rw [hlapsed] at hlive
      rw [InDoc, hholds, hstream]
      exact hinv.covered key amount ⟨hmem, fun h => hnot ((hreleased key).mpr (.inr h)), hlive⟩
    · intro p hp
      have hne : p ≠ w.process i := by
        rintro rfl
        rw [hheld] at hp
        cases hp
      have hbefore : s.1.holder p = none := by
        rw [hlocked] at hp
        simpa [Shared.locked, hne] using hp
      rw [show t.1.memory = s.1.memory by rw [hlocked]; rfl]
      exact (hinv.memory p hbefore).carry
        (carries_of_step hchange hkept hown fun h => absurd h hne)
    · exact unused_step hinv hchange hown
    · rw [hgranted]
      exact hinv.single
    · rw [hgranted, hstream]
      exact hinv.written
    · rw [hgranted, hstream, hcommitted]
      exact hinv.named
    · rw [hgranted, hlapsed, hcommitted]
      intro horderly key amount hmem hlive
      exact (hinv.unlapsed horderly key amount hmem hlive).imp_left
        fun h => (hreleased key).mpr (.inr h)
    · intro horderly
      have hspent : ∀ charged, spent charged t.1 = spent charged s.1 := by
        intro charged
        rw [spent, spent, hholds, hstream]
      obtain ⟨hdaily, hmonthly⟩ := hinv.caps horderly
      exact ⟨by rw [hspent]; exact hdaily, by rw [hspent]; exact hmonthly⟩
  · refine ⟨hheld, howns.owner, by rw [hstream]; exact howns.knows, ?_, ?_, ?_⟩
    · rw [hgranted, hids]
      exact howns.keys
    · intro id own hbusy hlookup
      obtain ⟨hnot, huncommitted⟩ := howns.free id own (Option.some_ne_none _).symm hlookup
      rw [hcommitted]
      refine ⟨fun hmem => ?_, huncommitted⟩
      rcases (hreleased own.key).mp hmem with ⟨id', own', hgives, hlookup', hkey⟩ | hmem
      · have hkey' := (howns.keys id' own' hlookup').1
        rw [hkey] at hkey'
        obtain ⟨-, rfl⟩ := (howns.keys id own hlookup).1.unique w.apart hkey'
        exact hbusy hgives
      · exact hnot hmem
    · rw [hstream]
      exact howns.orderly

theorem unlock_step {s t : State P ι} {m : PaymentLedger} {u : Unit} (hinv : Inv w s)
    (hm : Inside w i none m s)
    (hstep : env w.process w.rules s i (.unlock (w.process i) m) u t) :
    Inv w t ∧ KeepsToOwn w i s t ∧ Grows s t ∧ t.2.owed i = s.2.owed i ∧ t.2.given i = some m := by
  have hgrows := grows_of_env hstep
  obtain ⟨⟨-, hgiven⟩, -, hnote⟩ := hstep
  have hholds : t.1.holds = s.1.holds := by rw [hgiven]; rfl
  have hstream : t.1.stream = s.1.stream := by rw [hgiven]; rfl
  have hids : t.1.ids = s.1.ids := by rw [hgiven]; rfl
  have hgranted : t.2.granted = s.2.granted := by rw [hnote]; rfl
  have hreleased : t.2.released = s.2.released := by rw [hnote]; rfl
  have hlapsed : t.2.lapsed = s.2.lapsed := by rw [hnote]; rfl
  have hcommitted : t.2.committed = s.2.committed := by rw [hnote]; rfl
  have halone : ∀ key, LeavesAlone s t key := by
    intro key
    refine ⟨?_, ?_, ?_, ?_, ?_, ?_⟩
    · rw [hgranted]
      exact fun _ => id
    · rw [hholds]
      exact id
    · rw [hstream]
      exact id
    · rw [hreleased]
      exact id
    · rw [hlapsed]
      exact fun _ => id
    · rw [hcommitted]
      exact id
  have hcarries : ∀ p, Carries w p s t := fun p =>
    ⟨hgrows.stream, by rw [hids], hgrows.granted, fun _ key _ => (halone key).released,
      fun _ key _ => (halone key).committed⟩
  refine ⟨?_, fun key => .inl (halone key), hgrows, by rw [hnote]; rfl, ?_⟩
  · constructor
    · rintro key amount ⟨hmem, hnot, hlive⟩
      rw [hgranted] at hmem
      rw [hreleased] at hnot
      rw [hlapsed] at hlive
      rw [InDoc, hholds, hstream]
      exact hinv.covered key amount ⟨hmem, hnot, hlive⟩
    · intro p hp
      rw [hgiven] at hp ⊢
      by_cases hsame : p = w.process i
      · subst hsame
        simp only [Shared.unlocked, Function.update_self]
        exact hm.owns.carry (hcarries _)
      · simp only [Shared.unlocked, Function.update_of_ne hsame] at hp ⊢
        exact (hinv.memory p hp).carry (hcarries p)
    · intro p id key hkey hid
      rw [hids] at hid
      exact (hinv.unused p id key hkey hid).left (halone key)
    · rw [hgranted]
      exact hinv.single
    · rw [hgranted, hstream]
      exact hinv.written
    · rw [hgranted, hstream, hcommitted]
      exact hinv.named
    · rw [hgranted, hreleased, hlapsed, hcommitted]
      exact hinv.unlapsed
    · intro horderly
      have hspent : ∀ charged, spent charged t.1 = spent charged s.1 := by
        intro charged
        rw [spent, spent, hholds, hstream]
      obtain ⟨hdaily, hmonthly⟩ := hinv.caps horderly
      exact ⟨by rw [hspent]; exact hdaily, by rw [hspent]; exact hmonthly⟩
  · rw [hnote]
    exact Function.update_self _ _ _

end Handing

/-- How a call leaves its ledger. -/
def Leaves (w : Setting P ι) (i : ι) (r : Except String Outcome) (m : PaymentLedger)
    (s : State P ι) : Prop :=
  Inside w i none m s ∧ ∀ now amount result, w.calls i = .reserveAt now amount →
    r = .ok (.reserved result) → Reserved i amount result m s

/-- What a call that has ended says about the notes. -/
def Answered (w : Setting P ι) (i : ι) (r : Except String Outcome) (s : State P ι) : Prop :=
  ∀ now amount result, w.calls i = .reserveAt now amount → r = .ok (.reserved result) →
    ∃ ledger, s.2.given i = some ledger ∧ Reserved i amount result ledger s

section Calls

variable [DecidableEq P] [DecidableEq ι]

omit [DecidableEq P] [DecidableEq ι] in
theorem Leaves.failed {text : String} {m : PaymentLedger} {s : State P ι}
    (h : Inside w i none m s) : Leaves w i (.error text) m s :=
  ⟨h, fun _ _ _ _ => nofun⟩

theorem Leaves.rely {r : Except String Outcome} {m : PaymentLedger} {s t : State P ι}
    (h : Leaves w i r m s) (rely : w.contract.Rely i s t) : Leaves w i r m t := by
  refine ⟨h.1.rely rely, fun now amount result hcall hr => ?_⟩
  exact onward_rely (fun _ _ hu onward => hu.onward onward) (h.2 now amount result hcall hr) rely

theorem Answered.rely {r : Except String Outcome} {s t : State P ι} (h : Answered w i r s)
    (rely : w.contract.Rely i s t) : Answered w i r t := by
  refine onward_rely (fun u v hu onward now amount result hcall hr => ?_) h rely
  obtain ⟨ledger, hgiven, hreserved⟩ := hu now amount result hcall hr
  exact ⟨ledger, onward.given.trans hgiven, hreserved.onward onward⟩

/-- A method that keeps its ledger in order and is no reservation. -/
theorem meets_leaves {α : Type} {method : Op P α} {f : α → Outcome}
    (hcall : ∀ now amount, w.calls i ≠ .reserveAt now amount) {m : PaymentLedger} {s : State P ι}
    (hinv : Inv w s) (h : Meets (env w.process w.rules) w.contract i
      (fun _ m' v => Inside w i none m' v) method m s) :
    Meets (env w.process w.rules) w.contract i (Leaves w i)
      (method >>= fun a => pure (f a)) m s := by
  have hleaves : ∀ r m' v, Inside w i none m' v → Leaves w i r m' v :=
    fun _ _ _ hm => ⟨hm, fun now amount _ hreserve => absurd hreserve (hcall now amount)⟩
  refine meets_bind hinv h ?_ ?_
  · exact fun _ _ _ _ hm => meets_pure fun v hv _ => (hleaves _ _ _ hm).rely hv
  · exact fun _ _ _ _ hm v hv _ => (hleaves _ _ _ hm).rely hv

theorem call_meets (rounds : Nat) {m : PaymentLedger} {s : State P ι} (hinv : Inv w s)
    (hm : Inside w i (givesUp (w.calls i)) m s)
    (hreleased : ∀ id own, givesUp (w.calls i) = some id → m.reservations.lookup id = some own →
      own.key ∈ s.2.released) :
    Meets (env w.process w.rules) w.contract i (Leaves w i) ((w.calls i).method rounds) m s := by
  cases hcall : w.calls i with
  | openLedger generation owner sessionId budget =>
    rw [hcall] at hm
    exact meets_leaves (by simp [hcall]) hinv (openLedger_meets rounds hcall hinv hm)
  | reserveAt now amount =>
    rw [hcall] at hm
    refine meets_bind hinv (reserveAt_meets rounds hcall hinv hm) ?_ ?_
    · rintro result m' t - ⟨hmt, hreserved⟩
      refine meets_pure fun v hv _ => Leaves.rely ⟨hmt, fun now' amount' result' hsame hr => ?_⟩ hv
      rw [hcall] at hsame
      cases hsame
      cases hr
      exact hreserved result rfl
    · rintro text m' t - ⟨hmt, -⟩ v hv -
      exact Leaves.failed (hmt.rely hv)
  | release id =>
    rw [hcall] at hm hreleased
    exact meets_leaves (by simp [hcall]) hinv (release_meets (by simp [hcall]) id hinv hm
      fun own hown => .inl (hreleased id own rfl hown))
  | renewHoldsAt now =>
    rw [hcall] at hm
    exact meets_leaves (by simp [hcall]) hinv (renewHoldsAt_meets hcall hinv hm)
  | commitReservation id record =>
    rw [hcall] at hm
    exact meets_leaves (by simp [hcall]) hinv (commitReservation_meets rounds hcall hinv hm)
  | tryCommitReservation id record =>
    rw [hcall] at hm
    exact meets_leaves (by simp [hcall]) hinv (tryCommitReservation_meets rounds hcall hinv hm)
  | tryRecordPayment record =>
    rw [hcall] at hm
    exact meets_leaves (by simp [hcall]) hinv (tryRecordPayment_meets rounds record hm)
  | recordPayment record =>
    rw [hcall] at hm
    exact meets_leaves (by simp [hcall]) hinv (recordPayment_meets rounds record hinv hm)
  | observeSolanaExpiry evidence =>
    rw [hcall] at hm
    exact meets_leaves (by simp [hcall]) hinv (observeSolanaExpiry_meets rounds evidence hinv hm)

/-- A call keeps the holds from any state in order. -/
theorem call_safe (rounds : Nat) {s : State P ι} :
    Safe (env w.process w.rules) w.contract i (Answered w i)
      ((w.calls i).program rounds (w.process i)) s := by
  intro t ht hinvt ledger u hu
  obtain ⟨hinvu, hown, hmu, hreleased⟩ := lock_step hinvt hu
  refine ⟨hinvu, ⟨⟨_, _, hu⟩, hown⟩, ?_⟩
  refine safe_bind ?_ hinvu (call_meets rounds hinvu hmu hreleased)
  rintro ⟨r, m⟩ v hinvv hleaves
  intro x hx hinvx done y hy
  obtain ⟨hmx, hreserved⟩ := hleaves.rely hx
  obtain ⟨hinvy, howny, hgrows, howed, hgiven⟩ := unlock_step hinvx hmx hy
  refine ⟨hinvy, ⟨⟨_, _, hy⟩, howny⟩, fun z hz _ => Answered.rely ?_ hz⟩
  intro now amount result hcall hr
  obtain ⟨hgranted, hcounted⟩ := hreserved now amount result hcall hr
  refine ⟨m, hgiven, fun id hid => hgrows.granted _ (hgranted id hid), ?_⟩
  intro hresult key held hmem
  rw [howed] at hmem
  exact (hcounted hresult key held hmem).grow hgrows.stream

end Calls

/-- The ledgers are freshly opened, and no key that they can still make is in use. -/
structure Opened (owners : P → Set String) (s : Shared P ι) : Prop where
  owner : ∀ p, (s.memory p).owner ∈ owners p
  mirrors : ∀ p, Mirrors (s.memory p) s.stream
  empty : ∀ p, (s.memory p).reservations = ∅
  held : ∀ p id key, KeyOf owners p id key → s.ids p ≤ id → s.holds.lookup key = none
  named : ∀ p id key, KeyOf owners p id key → s.ids p ≤ id → key ∉ keysOf s.stream

theorem Opened.inv {s : Shared P ι} (h : Opened w.owners s)
    (orderly : w.orderly → (∀ p, (s.memory p).budget = w.budget) ∧
      WithinCaps w.budget w.today s) : Inv w (s, Notes.none) where
  covered := fun _ _ hout => absurd hout.1 List.not_mem_nil
  memory := fun p _ =>
    { owner := h.owner p
      knows := .of_mirrors (h.mirrors p)
      keys := fun id own hown => by
        rw [h.empty p] at hown
        cases hown
      free := fun id own _ hown => by
        rw [h.empty p] at hown
        cases hown
      orderly := fun horderly => ⟨h.mirrors p, (orderly horderly).1 p⟩ }
  unused := fun p id key hkey hid =>
    ⟨fun _ => List.not_mem_nil, h.held p id key hkey hid, h.named p id key hkey hid,
      List.not_mem_nil, List.not_mem_nil, List.not_mem_nil⟩
  single := fun _ _ _ hmem => absurd hmem List.not_mem_nil
  written := fun _ _ _ _ hmem => absurd hmem List.not_mem_nil
  named := fun _ _ _ hmem => absurd hmem List.not_mem_nil
  unlapsed := fun _ _ _ hmem => absurd hmem List.not_mem_nil
  caps := fun horderly => (orderly horderly).2

variable [DecidableEq P] [DecidableEq ι]

/-- However the calls interleave, the holds stay in order. -/
theorem reachable_inv (rounds : Nat) {start : Shared P ι} (hstart : Opened w.owners start)
    (orderly : w.orderly → (∀ p, (start.memory p).budget = w.budget) ∧
      WithinCaps w.budget w.today start)
    {config : Config (State P ι) ι (Request P) Request.Answer Empty (Except String Outcome)}
    (reach : Reachable (env w.process w.rules) (start, Notes.none)
      (fun i => (w.calls i).program rounds (w.process i)) config) :
    Inv w config.shared ∧ ∀ i r, config.program i = .pure r → Answered w i r config.shared := by
  have hsafe : ∀ i, Safe (env w.process w.rules) w.contract i (Answered w i)
      ((w.calls i).program rounds (w.process i)) (start, Notes.none) := fun i => call_safe rounds
  refine ⟨(reachable_safe (hstart.inv orderly) hsafe reach).1, fun i r hend => ?_⟩
  exact reachable_ends (hstart.inv orderly) hsafe reach hend

end LedgerHolds
