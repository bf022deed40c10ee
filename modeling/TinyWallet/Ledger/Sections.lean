import TinyWallet.Ledger.World

/-!
# The ledger in use

What a call may rely on between its requests, and what the ledger's methods
leave of the reservations that other calls have in hand and of those that were
settled before.
-/

namespace LedgerWorld

open Programs Sharing Tables LedgerRecords LedgerStore LedgerStorage LedgerService

variable {ι : Type} [DecidableEq ι] {presented : ι → Option String} {i : ι}

abbrev State (ι : Type) := World ι × Notes ι

/-- The call presented the current handle, if any, and nobody may change it. -/
def Rightful (presented : ι → Option String) (i : ι) (s : State ι) : Prop :=
  ∀ handle, presented i = some handle →
    s.1.handle = some handle ∧ (s.1.readers i = true ∨ s.1.writer = some i)

/-- Where a call is: what it has taken, and what became of its reservation. -/
structure Stage where
  reads : Bool
  writes : Bool
  uses : Bool
  granted : Option Grant
  settled : Option Nat

def Stage.hand (stage : Stage) : Option Grant :=
  if stage.settled.isSome then none else stage.granted

structure At (i : ι) (stage : Stage) (s : State ι) : Prop where
  readers : s.1.readers i = stage.reads
  writer : s.1.writer = some i ↔ stage.writes = true
  user : s.1.user = some i ↔ stage.uses = true
  granted : s.2.granted i = stage.granted
  settled : s.2.settled i = stage.settled

/-- Knowledge that no other call can spoil. -/
def Stable (i : ι) (known : State ι → Prop) : Prop :=
  ∀ s t, known s → (∃ j, j ≠ i ∧ Guar j s t) → known t

omit [DecidableEq ι] in
theorem Stable.rely {known : State ι → Prop} (stable : Stable i known) {s t : State ι}
    (h : known s) (rely : moduleContract.Rely i s t) : known t :=
  rely.stable (fun u v hu _ step => stable u v hu step) h

omit [DecidableEq ι] in
theorem Stable.and {known known' : State ι → Prop} (h : Stable i known) (h' : Stable i known') :
    Stable i fun s => known s ∧ known' s :=
  fun s t hs step => ⟨h s t hs.1 step, h' s t hs.2 step⟩

omit [DecidableEq ι] in
theorem At.hand {stage : Stage} {s : State ι} (h : At i stage s) : s.2.hand i = stage.hand := by
  rw [Notes.hand, Stage.hand, h.granted, h.settled]

omit [DecidableEq ι] in
theorem at_stable (stage : Stage) : Stable i (At i stage) := by
  rintro s t hs ⟨j, hj, guar⟩
  have hi : i ≠ j := fun h => hj h.symm
  obtain ⟨hgranted, hsettled, -⟩ := guar.notes i hi
  constructor
  · rw [guar.readers i hi]
    exact hs.readers
  · exact (guar.writer i hi).trans hs.writer
  · exact (guar.user i hi).trans hs.user
  · exact hgranted.trans hs.granted
  · exact hsettled.trans hs.settled

omit [DecidableEq ι] in
theorem rightful_stable : Stable i (Rightful presented i) := by
  rintro s t hs ⟨j, hj, guar⟩ handle hpresented
  have hi : i ≠ j := fun h => hj h.symm
  obtain ⟨hhandle, hlock⟩ := hs handle hpresented
  refine ⟨(guar.service i hi hlock).trans hhandle, ?_⟩
  rcases hlock with hreads | hwrites
  · exact .inl ((guar.readers i hi).trans hreads)
  · exact .inr ((guar.writer i hi).mpr hwrites)

/-- What requests leave that neither give the ledger back nor change it. -/
structure Minor (i : ι) (s t : State ι) : Prop where
  ledger : t.1.ledger = s.1.ledger
  granted : t.2.granted = s.2.granted
  settled : t.2.settled = s.2.settled
  failed : ∀ j, s.2.failed j = true → t.2.failed j = true
  readers : ∀ j, j ≠ i → t.1.readers j = s.1.readers j
  others : ∀ j, j ≠ i → t.2.failed j = s.2.failed j ∧ t.2.lost j = s.2.lost j ∧
    (j ∈ t.2.changed ↔ j ∈ s.2.changed)
  ids : s.1.storage.ids () ≤ t.1.storage.ids ()
  owners : ∀ owner ∈ s.1.owners, owner ∈ t.1.owners

omit [DecidableEq ι] in
theorem Minor.hand {s t : State ι} (h : Minor i s t) (j : ι) : t.2.hand j = s.2.hand j := by
  rw [Notes.hand, Notes.hand, h.granted, h.settled]

omit [DecidableEq ι] in
theorem Gone.minor {s t : State ι} {j : ι} {grant : Grant} (h : Gone t j grant)
    (granted : t.2.granted = s.2.granted) (settled : t.2.settled = s.2.settled)
    (failed : ∀ k, s.2.failed k = true → t.2.failed k = true) : Gone s j grant := by
  obtain ⟨hgranted, hsettled, hfailed⟩ := h
  rw [granted] at hgranted
  rw [settled] at hsettled
  refine ⟨hgranted, hsettled, ?_⟩
  by_contra htrue
  rw [failed j (Bool.eq_true_of_not_eq_false htrue)] at hfailed
  cases hfailed

/-- A request that does not give the ledger back. -/
def Keeping (e : ModuleRequest) : Prop := ∀ ledger id, e ≠ .unlockLedger ledger id

theorem keeping_notes {s t : State ι} {e : ModuleRequest} {r : e.Answer} (keeping : Keeping e)
    (step : moduleEnv presented s i e r t) :
    t.2.granted = s.2.granted ∧ t.2.settled = s.2.settled ∧
      (∀ j, s.2.failed j = true → t.2.failed j = true) ∧
      ∀ j, j ≠ i → t.2.failed j = s.2.failed j ∧ t.2.lost j = s.2.lost j ∧
        (j ∈ t.2.changed ↔ j ∈ s.2.changed) := by
  have hgranted : grantedAfter (s.2.hand i) (s.2.granted i) e = s.2.granted i := by
    cases e with
    | unlockLedger ledger id => exact absurd rfl (keeping ledger id)
    | _ => rfl
  have hsettled : settledAfter (s.2.hand i) (s.2.settled i) e = s.2.settled i := by
    cases e with
    | unlockLedger ledger id => exact absurd rfl (keeping ledger id)
    | _ => rfl
  rw [step.2]
  refine ⟨?_, ?_, fun j hj => ?_, fun j hj => ?_⟩
  · simp [Notes.after, hgranted]
  · simp [Notes.after, hsettled]
  · by_cases hi : j = i
    · subst hi
      simp [Notes.after, hj]
    · simp [Notes.after, hi, hj]
  · simp [Notes.after, hj]

theorem stale_after {s t : State ι} {e : ModuleRequest} {r : e.Answer} (current : s.2.stale = ∅)
    (rightful : Changes s.1 t.1 → Rightful presented i s)
    (step : moduleEnv presented s i e r t) : t.2.stale = ∅ := by
  rw [step.2]
  simp only [Notes.after, current, Set.empty_union]
  refine Set.eq_empty_of_forall_notMem ?_
  rintro j ⟨-, hchanges, handle, hpresented, hother⟩
  exact hother (rightful hchanges handle hpresented).1

omit [DecidableEq ι] in
theorem Minor.inv {s t : State ι} (hinv : Inv s) (minor : Minor i s t)
    (exclusive : ∀ j k, t.1.writer = some j → t.1.readers k = false)
    (hands : ∀ grant, s.2.hand i = some grant → t.1.readers i = true)
    (clean : ∀ j grant, Gone s j grant → t.1.stored grant.key = none)
    (current : t.2.stale = ∅) : Inv t := by
  constructor
  · exact exclusive
  · intro j grant hhand
    rw [minor.hand] at hhand
    obtain ⟨hreads, hheld⟩ := hinv.hands j grant hhand
    rw [minor.ledger]
    refine ⟨?_, hheld⟩
    by_cases hj : j = i
    · subst hj
      exact hands grant hhand
    · rw [minor.readers j hj]
      exact hreads
  · intro m hm
    rw [minor.ledger] at hm
    obtain ⟨howner, hkeyed⟩ := hinv.keyed m hm
    exact ⟨minor.owners _ howner, hkeyed⟩
  · intro j grant hgone
    have hbefore := hgone.minor minor.granted minor.settled minor.failed
    rw [minor.ledger]
    exact ⟨clean j grant hbefore, (hinv.gone j grant hbefore).2⟩
  · intro j grant hgranted
    rw [minor.granted] at hgranted
    obtain ⟨hid, owner, howner, hkey⟩ := hinv.granted j grant hgranted
    exact ⟨Nat.lt_of_lt_of_le hid minor.ids, owner, minor.owners _ howner, hkey⟩
  · rw [minor.granted]
    exact hinv.apart
  · rw [minor.granted, minor.settled]
    exact hinv.settled
  · exact current

omit [DecidableEq ι] in
theorem Minor.guar {s t : State ι} (minor : Minor i s t)
    (writer : ∀ j, j ≠ i → (t.1.writer = some j ↔ s.1.writer = some j))
    (user : ∀ j, j ≠ i → (t.1.user = some j ↔ s.1.user = some j))
    (service : ∀ j, j ≠ i → s.1.readers j = true ∨ s.1.writer = some j →
      t.1.handle = s.1.handle)
    (stored : ∀ j, j ≠ i → s.1.user = some j →
      ∀ key, s.1.Ours key → s.1.stored key = none → t.1.stored key = none) : Guar i s t where
  readers := minor.readers
  writer := writer
  user := user
  sectionKept := fun j hj huser =>
    ⟨minor.ledger, congrFun minor.granted i, congrFun minor.settled i, stored j hj huser⟩
  service := service
  notes := fun j hj => ⟨congrFun minor.granted j, congrFun minor.settled j, minor.others j hj⟩
  failed := minor.failed i
  ids := minor.ids
  owners := minor.owners

/-- One request to storage. -/
def storageEnv (presented : ι → Option String) (s : State ι) (i : ι) (e : Request Unit)
    (r : e.Answer) (t : State ι) : Prop :=
  moduleEnv presented s i (.storage e) r t

theorem lifted_safe {α : Type} {post : α → State ι → Prop}
    {p : Prog (Request Unit) Request.Answer Empty α} {s : State ι}
    (h : Safe (storageEnv presented) moduleContract i post p s) :
    Safe (moduleEnv presented) moduleContract i post (lifted p) s := by
  induction p generalizing s with
  | pure a => exact h
  | fail e => exact e.elim
  | call e k ih =>
    intro t ht hinv r u hu
    obtain ⟨hinv', hguar, hrest⟩ := h t ht hinv r u hu
    exact ⟨hinv', hguar, ih r hrest⟩

/-- What requests to storage leave. -/
structure Keeps (i : ι) (s t : State ι) : Prop extends Minor i s t where
  user : t.1.user = s.1.user
  reading : t.1.readers i = s.1.readers i
  writer : t.1.writer = s.1.writer
  handle : t.1.handle = s.1.handle

omit [DecidableEq ι] in
theorem At.keeps {stage : Stage} {s t : State ι} (h : At i stage s) (keeps : Keeps i s t) :
    At i stage t := by
  constructor
  · exact keeps.reading.trans h.readers
  · rw [keeps.writer]
    exact h.writer
  · rw [keeps.user]
    exact h.user
  · rw [keeps.granted]
    exact h.granted
  · rw [keeps.settled]
    exact h.settled

omit [DecidableEq ι] in
theorem Rightful.keeps {s t : State ι} (h : Rightful presented i s) (keeps : Keeps i s t) :
    Rightful presented i t := by
  intro handle hpresented
  rw [keeps.handle, keeps.reading, keeps.writer]
  exact h handle hpresented

omit [DecidableEq ι] in
/-- The hold document stays unless it is put. -/
theorem stored_none {process : ι → Unit} {s t : Shared Unit ι} {e : Request Unit}
    (change : Change process s i e t) {key : String} (absent : s.holds.lookup key = none)
    (clean : ∀ version holds, e = .storeHolds version holds → s.version = version →
      holds.lookup key = none) : t.holds.lookup key = none := by
  cases change with
  | put holds => exact clean _ _ rfl rfl
  | nothing | lock | unlock | append | number | tick => exact absent

theorem storage_step {s t : State ι} {e : Request Unit} {r : e.Answer} (hinv : Inv s)
    (rightful : Rightful presented i s)
    (clean : ∀ version holds, e = .storeHolds version holds → s.1.user = some i ∧
      (s.1.storage.version = version → ∀ j grant, Gone s j grant →
        holds.lookup grant.key = none))
    (step : storageEnv presented s i e r t) : Inv t ∧ Guar i s t ∧ Keeps i s t := by
  obtain ⟨hgranted, hsettled, hfailed, hothers⟩ :=
    keeping_notes (fun _ _ h => by cases h) step
  have hcurrent := stale_after hinv.current (fun _ => rightful) step
  obtain ⟨⟨-, storage, hanswer, hworld⟩, -⟩ := step
  have hchange := hanswer.change
  have hids : s.1.storage.ids () ≤ t.1.storage.ids () := by
    rw [hworld]
    exact hchange.ids ()
  have hreaders : t.1.readers = s.1.readers := by rw [hworld]
  have hwriter : t.1.writer = s.1.writer := by rw [hworld]
  have huser : t.1.user = s.1.user := by rw [hworld]
  have hhandle : t.1.handle = s.1.handle := by rw [hworld]; rfl
  have hminor : Minor i s t := by
    refine ⟨by rw [hworld], hgranted, hsettled, hfailed, fun _ _ => by rw [hreaders], hothers, hids,
      ?_⟩
    rw [hworld]
    exact fun _ => id
  refine ⟨hminor.inv hinv ?_ ?_ ?_ hcurrent, hminor.guar ?_ ?_ (fun _ _ _ => hhandle) ?_,
    ⟨hminor, huser, by rw [hreaders], hwriter, hhandle⟩⟩
  · rw [hwriter, hreaders]
    exact hinv.exclusive
  · intro grant hhand
    rw [hreaders]
    exact (hinv.hands i grant hhand).1
  · intro j grant hgone
    rw [World.stored, hworld]
    exact stored_none hchange (hinv.gone j grant hgone).1 fun version holds he hversion =>
      (clean version holds he).2 hversion j grant hgone
  · intro j _
    rw [hwriter]
  · intro j _
    rw [huser]
  · intro j hj husing key _ hstored
    rw [World.stored, hworld]
    refine stored_none hchange hstored fun version holds he _ => ?_
    -- the ledger is in use, so that this call puts nothing
    have hmine := (clean version holds he).1
    rw [husing] at hmine
    exact absurd (Option.some.inj hmine) hj

/-- Knowledge that a call keeps while it makes requests to storage. -/
structure Steady (presented : ι → Option String) (i : ι) (allowed : Request Unit → Prop)
    (known : State ι → Prop) : Prop where
  stable : Stable i known
  rightful : ∀ s, known s → Rightful presented i s
  own : ∀ s t e r, known s → allowed e → storageEnv presented s i e r t → Keeps i s t → known t

/-- Requests other than a put. -/
def Mild (e : Request Unit) : Prop := ∀ version holds, e ≠ .storeHolds version holds

/-- Requests for more of the stream. -/
def Reads (e : Request Unit) : Prop := ∃ next, e = .readWindow next

theorem Reads.mild {e : Request Unit} (h : Reads e) : Mild e := by
  obtain ⟨next, rfl⟩ := h
  exact fun _ _ h => by cases h

theorem mild_step {s t : State ι} {e : Request Unit} {r : e.Answer} (mild : Mild e) (hinv : Inv s)
    (rightful : Rightful presented i s) (step : storageEnv presented s i e r t) :
    Inv t ∧ Guar i s t ∧ Keeps i s t :=
  storage_step hinv rightful (fun version holds he => absurd he (mild version holds)) step

/-- The same ledger as far as reservations go. -/
structure Alike (m m' : PaymentLedger) : Prop where
  generation : m'.generation = m.generation
  owner : m'.owner = m.owner
  reservations : m'.reservations = m.reservations
  holds : m'.holds = m.holds

theorem Alike.refl (m : PaymentLedger) : Alike m m := ⟨rfl, rfl, rfl, rfl⟩

theorem Alike.trans {a b c : PaymentLedger} (h : Alike a b) (h' : Alike b c) : Alike a c :=
  ⟨h'.generation.trans h.generation, h'.owner.trans h.owner,
    h'.reservations.trans h.reservations, h'.holds.trans h.holds⟩

/-- A method that makes requests of one kind and changes no reservation. -/
def Plainly (presented : ι → Option String) (i : ι) (allowed : Request Unit → Prop) {α : Type}
    (method : Op Unit α) : Prop :=
  ∀ (known : State ι → Prop), Steady presented i allowed known → ∀ m s, Inv s → known s →
    Meets (storageEnv presented) moduleContract i (fun _ m' t => Alike m m' ∧ known t) method m s

variable {allowed : Request Unit → Prop}

theorem plainly_ask {α : Type} {e : Request Unit} (here : allowed e) (mild : Mild e)
    (g : e.Answer → Except String α) :
    Plainly presented i allowed (Method.ask e g : Op Unit α) := by
  intro known steady m s hinv hknown
  refine meets_ask fun t ht hinvt r u hu => ?_
  have hknownt := steady.stable.rely hknown ht
  obtain ⟨hinvu, hguar, hkeeps⟩ := mild_step mild hinvt (steady.rightful t hknownt) hu
  have hknownu := steady.own t u e r hknownt here hu hkeeps
  exact ⟨hinvu, hguar, fun v hv _ => ⟨.refl m, steady.stable.rely hknownu hv⟩⟩

theorem plainly_pure {α : Type} (a : α) : Plainly presented i allowed (pure a : Op Unit α) :=
  fun _ steady m _ _ hknown => meets_pure fun _ hv _ => ⟨.refl m, steady.stable.rely hknown hv⟩

theorem plainly_bind {α β : Type} {method : Op Unit α} {f : α → Op Unit β}
    (h : Plainly presented i allowed method) (next : ∀ a, Plainly presented i allowed (f a)) :
    Plainly presented i allowed (method >>= f) := by
  intro known steady m s hinv hknown
  refine meets_bind hinv (h known steady m s hinv hknown) ?_ ?_
  · rintro a m' t hinvt ⟨halike, hknownt⟩
    refine meets_mono ?_ (next a known steady m' t hinvt hknownt)
    rintro r m'' v - ⟨halike', hknownv⟩
    exact ⟨halike.trans halike', hknownv⟩
  · rintro text m' t - ⟨halike, hknownt⟩ v hv -
    exact ⟨halike, steady.stable.rely hknownt hv⟩

theorem plainly_tried_bind {α β : Type} {method : Op Unit α} {f : Except String α → Op Unit β}
    (h : Plainly presented i allowed method) (next : ∀ r, Plainly presented i allowed (f r)) :
    Plainly presented i allowed (method.tried >>= f) := by
  intro known steady m s hinv hknown
  refine meets_tried_bind hinv (h known steady m s hinv hknown) ?_
  rintro r m' t hinvt ⟨halike, hknownt⟩
  refine meets_mono ?_ (next r known steady m' t hinvt hknownt)
  rintro r' m'' v - ⟨halike', hknownv⟩
  exact ⟨halike.trans halike', hknownv⟩

theorem plainly_self_bind {β : Type} {f : PaymentLedger → Op Unit β}
    (next : ∀ ledger, Plainly presented i allowed (f ledger)) :
    Plainly presented i allowed (Method.self >>= f) :=
  fun known steady m s hinv hknown => meets_self_bind (next m known steady m s hinv hknown)

theorem plainly_update_bind {β : Type} {change : PaymentLedger → PaymentLedger}
    {f : Unit → Op Unit β} (halike : ∀ m, Alike m (change m))
    (next : Plainly presented i allowed (f ())) :
    Plainly presented i allowed (Method.update change >>= f) := by
  intro known steady m s hinv hknown
  refine meets_update_bind (meets_mono ?_ (next known steady (change m) s hinv hknown))
  rintro r m' v - ⟨halike', hknownv⟩
  exact ⟨(halike m).trans halike', hknownv⟩

theorem plainly_update {change : PaymentLedger → PaymentLedger}
    (halike : ∀ m, Alike m (change m)) :
    Plainly presented i allowed (Method.update change : Op Unit Unit) :=
  fun _ steady m _ _ hknown _ hv _ => ⟨halike m, steady.stable.rely hknown hv⟩

theorem plainly_readFrom (reads : ∀ e, Reads e → allowed e) (rounds : Nat) :
    ∀ (next : Nat) (records : List LoadedPayment),
      Plainly presented i allowed (readFrom rounds next records) := by
  induction rounds with
  | zero =>
    intro next records known steady m s hinv hknown
    exact meets_ask fun t ht hinvt r => r.elim
  | succ rounds ih =>
    intro next records
    rw [readFrom]
    have hread : Reads (.readWindow next) := ⟨next, rfl⟩
    refine plainly_bind (plainly_ask (reads _ hread) hread.mild _) fun window => ?_
    cases window.getLast? with
    | none => exact plainly_pure _
    | some last => exact ih _ _

theorem plainly_refreshRecords (rounds : Nat) :
    Plainly presented i Mild (refreshRecords rounds) :=
  plainly_self_bind fun _ => plainly_bind (plainly_readFrom (fun _ => Reads.mild) rounds _ _)
    fun _ => plainly_update fun _ => ⟨rfl, rfl, rfl, rfl⟩

theorem plainly_mild {α : Type} {e : Request Unit} (mild : Mild e)
    (g : e.Answer → Except String α) : Plainly presented i Mild (Method.ask e g : Op Unit α) :=
  plainly_ask mild mild g

theorem plainly_appendRecord (rounds : Nat) (record : PaymentRecord) (key : Option String) :
    Plainly presented i Mild (appendRecord rounds record key) := by
  refine plainly_bind (plainly_mild (fun _ _ h => by cases h) _) fun offset => ?_
  refine plainly_update_bind (fun _ => ⟨rfl, rfl, rfl, rfl⟩) (plainly_self_bind fun ledger => ?_)
  split_ifs with hnext
  · exact plainly_update fun _ => ⟨rfl, rfl, rfl, rfl⟩
  · refine plainly_tried_bind (plainly_refreshRecords rounds) fun refreshed => ?_
    cases refreshed with
    | ok done => exact plainly_pure _
    | error text => exact plainly_update fun _ => ⟨rfl, rfl, rfl, rfl⟩

theorem plainly_observeSolanaExpiry (rounds : Nat) (evidence : ExpiryEvidence) :
    Plainly presented i Mild (observeSolanaExpiry rounds evidence) := by
  refine plainly_self_bind fun ledger => ?_
  split_ifs with hstale
  · exact plainly_pure _
  refine plainly_bind (plainly_refreshRecords rounds) fun _ => plainly_self_bind fun ledger => ?_
  cases payment ledger.records evidence.id with
  | none => exact plainly_pure _
  | some latest =>
    by_cases hfits : evidence.fits latest = true
    · simp only [hfits, if_true]
      exact plainly_bind (plainly_appendRecord rounds _ _) fun _ => plainly_pure _
    · simp only [hfits]
      exact plainly_pure _

end LedgerWorld
