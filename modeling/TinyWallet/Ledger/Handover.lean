import TinyWallet.Ledger.GivingBack

/-!
# Reservations across reconfiguration

However configuring, closing, preparing, recording and renewing interleave, and
whatever awaits are cancelled: a reservation is settled on the ledger that
granted it, nothing of it is left when its call has ended, a configuration that
fails changes nothing, and nothing is changed under another handle.
-/

namespace LedgerWorld

open Programs Sharing Tables LedgerRecords LedgerStore LedgerStorage LedgerReceipts LedgerService
open X402Wire (SettlementResponse)

variable {ι : Type} [DecidableEq ι] {presented : ι → Option String} {i : ι}

theorem changed_after {s t : State ι} {e : ModuleRequest} {r : e.Answer}
    (step : moduleEnv presented s i e r t) (same : ¬Changes s.1 t.1) :
    i ∈ t.2.changed ↔ i ∈ s.2.changed := by
  rw [step.2]
  simp [Notes.after, same]

/-- A request that leaves storage and the ledger as they are. -/
structure Calm (i : ι) (s t : World ι) : Prop where
  storage : t.storage = s.storage
  ledger : t.ledger = s.ledger
  user : t.user = s.user
  owners : ∀ owner ∈ s.owners, owner ∈ t.owners
  readers : ∀ j, j ≠ i → t.readers j = s.readers j
  exclusive : ∀ j k, t.writer = some j → t.readers k = false
  writer : ∀ j, j ≠ i → (t.writer = some j ↔ s.writer = some j)
  service : ∀ j, j ≠ i → s.readers j = true ∨ s.writer = some j → t.handle = s.handle

theorem calm_step {s t : State ι} {e : ModuleRequest} {r : e.Answer} (hinv : Inv s)
    (keeping : Keeping e) (step : moduleEnv presented s i e r t) (calm : Calm i s.1 t.1)
    (hands : ∀ grant, s.2.hand i = some grant → t.1.readers i = true)
    (rightful : t.1.handle ≠ s.1.handle → Rightful presented i s) :
    Inv t ∧ Guar i s t ∧ t.2.granted i = s.2.granted i ∧ t.2.settled i = s.2.settled i := by
  obtain ⟨hgranted, hsettled, hfailed, hothers⟩ := keeping_notes keeping step
  have hcurrent : t.2.stale = ∅ := by
    refine stale_after hinv.current (fun hchanges => ?_) step
    rcases hchanges with hhandle | hledger | hdoc | hstream
    · exact rightful hhandle
    · exact absurd calm.ledger hledger
    · exact absurd (by rw [calm.storage]) hdoc
    · exact absurd (by rw [calm.storage]) hstream
  have hminor : Minor i s t := by
    refine ⟨calm.ledger, hgranted, hsettled, hfailed, calm.readers, hothers, ?_, calm.owners⟩
    rw [calm.storage]
  have hstored : ∀ key, t.1.stored key = s.1.stored key := by
    intro key
    rw [World.stored, World.stored, calm.storage]
  refine ⟨hminor.inv hinv calm.exclusive hands (fun j grant hgone => ?_) hcurrent,
    hminor.guar calm.writer (fun j _ => ?_) calm.service (fun j _ _ key _ hnone => ?_),
    congrFun hgranted i, congrFun hsettled i⟩
  · rw [hstored]
    exact (hinv.gone j grant hgone).1
  · rw [calm.user]
  · rw [hstored]
    exact hnone

/-- Requests that leave all that others see of the module. -/
def Quiet : ModuleRequest → Prop
  | .runtime => True
  | .beginPending => True
  | .endPending => True
  | .ledgerStorage => True
  | .migrationReady => True
  | .newHandle => True
  | .newPaymentId => True
  | .authorize => True
  | .build => True
  | .finalizedHeight => True
  | _ => False

theorem Quiet.world {s t : World ι} {e : ModuleRequest} {r : e.Answer} (quiet : Quiet e)
    (answers : ModuleAnswers s i e r t) :
    t = { s with runtime := t.runtime } ∧ t.handle = s.handle := by
  have same : t = s → t = { s with runtime := t.runtime } ∧ t.handle = s.handle := by
    rintro rfl
    exact ⟨rfl, rfl⟩
  cases e with
  | runtime => exact same answers.2
  | beginPending =>
    simp only [ModuleAnswers] at answers
    split at answers
    · exact same answers.2
    · split_ifs at answers
      · exact same answers.2
      · rw [answers.2]
        exact ⟨rfl, by simp [World.handle, *]⟩
  | endPending =>
    rw [show t = _ from answers]
    refine ⟨rfl, ?_⟩
    cases hruntime : s.runtime with
    | none => simp [World.handle, hruntime]
    | some runtime => simp [World.handle, hruntime]
  | ledgerStorage | migrationReady | newHandle | newPaymentId | authorize | build
  | finalizedHeight => exact same answers
  | read | readDone | write | writeDone | setRuntime | lockLedger | unlockLedger | storage
  | numberLedger | elsewhere => exact quiet.elim

theorem Quiet.keeping {e : ModuleRequest} (quiet : Quiet e) : Keeping e := by
  rintro ledger id rfl
  exact quiet

theorem unseen_step {s t : State ι} {e : ModuleRequest} {r : e.Answer} (hinv : Inv s)
    (keeping : Keeping e) (step : moduleEnv presented s i e r t)
    (hworld : t.1 = { s.1 with runtime := t.1.runtime }) (hhandle : t.1.handle = s.1.handle) :
    Inv t ∧ Guar i s t ∧ Keeps i s t ∧ (i ∈ t.2.changed ↔ i ∈ s.2.changed) := by
  have hstorage : t.1.storage = s.1.storage := by rw [hworld]
  have hledger : t.1.ledger = s.1.ledger := by rw [hworld]
  have hreaders : t.1.readers = s.1.readers := by rw [hworld]
  have hwriter : t.1.writer = s.1.writer := by rw [hworld]
  have huser : t.1.user = s.1.user := by rw [hworld]
  have howners : ∀ owner ∈ s.1.owners, owner ∈ t.1.owners := by
    rw [hworld]
    exact fun _ => id
  have hcalm : Calm i s.1 t.1 := by
    refine ⟨hstorage, hledger, huser, howners, fun j _ => by rw [hreaders], ?_,
      fun j _ => by rw [hwriter], fun _ _ _ => hhandle⟩
    rw [hwriter, hreaders]
    exact hinv.exclusive
  obtain ⟨hinvt, hguar, -, -⟩ := calm_step hinv keeping step hcalm
    (fun grant hhand => by rw [hreaders]; exact (hinv.hands i grant hhand).1)
    fun hother => absurd hhandle hother
  obtain ⟨hgranted, hsettled, hfailed, hothers⟩ := keeping_notes keeping step
  refine ⟨hinvt, hguar, ⟨⟨hledger, hgranted, hsettled, hfailed, fun j _ => by rw [hreaders],
    hothers, by rw [hstorage], howners⟩, huser, by rw [hreaders], hwriter, hhandle⟩,
    changed_after step ?_⟩
  rintro (h | h | h | h)
  · exact h hhandle
  · exact h hledger
  · exact h (by rw [hstorage])
  · exact h (by rw [hstorage])

/-- Knowledge that quiet requests keep as well. -/
structure Lasting (i : ι) (known : State ι → Prop) : Prop where
  stable : Stable i known
  quiet : ∀ s t, known s → Keeps i s t → (i ∈ t.2.changed ↔ i ∈ s.2.changed) → known t

omit [DecidableEq ι] in
theorem Lasting.and {known known' : State ι → Prop} (h : Lasting i known) (h' : Lasting i known') :
    Lasting i fun s => known s ∧ known' s where
  stable := h.stable.and h'.stable
  quiet := fun s t hs keeps changed =>
    ⟨h.quiet s t hs.1 keeps changed, h'.quiet s t hs.2 keeps changed⟩

omit [DecidableEq ι] in
theorem at_lasting {stage : Stage} : Lasting i (At i stage) where
  stable := at_stable stage
  quiet := fun _ _ h keeps _ => h.keeps keeps

omit [DecidableEq ι] in
theorem acts_lasting {stage : Stage} : Lasting i (Acts presented i stage) where
  stable := acts_stable
  quiet := fun _ _ h keeps _ => ⟨h.1.keeps keeps, h.2.keeps keeps⟩

/-- The call has changed nothing. -/
def Untouched (i : ι) (s : State ι) : Prop := i ∉ s.2.changed

omit [DecidableEq ι] in
theorem untouched_lasting : Lasting i (Untouched i) where
  stable := by
    rintro s t hs ⟨j, hj, guar⟩
    obtain ⟨-, -, -, -, hchanged⟩ := guar.notes i fun h => hj h.symm
    rw [Untouched, hchanged]
    exact hs
  quiet := by
    intro s t hs _ changed
    rw [Untouched, changed]
    exact hs

theorem quiet_safe {α : Type} {known : State ι → Prop} (lasting : Lasting i known)
    {post : α → State ι → Prop} {e : ModuleRequest} (quiet : Quiet e) {k : e.Answer → Run α}
    {s : State ι} (h : known s)
    (next : ∀ r t, Inv t → known t → Safe (moduleEnv presented) moduleContract i post (k r) t) :
    Safe (moduleEnv presented) moduleContract i post (.call e k) s := by
  refine safe_call lasting.stable h fun t r u hinvt ht hstep => ?_
  obtain ⟨hworld, hhandle⟩ := quiet.world hstep.1
  obtain ⟨hinvu, hguar, hkeeps, hchanged⟩ :=
    unseen_step hinvt quiet.keeping hstep hworld hhandle
  exact ⟨hinvu, hguar, next r u hinvu (lasting.quiet t u ht hkeeps hchanged)⟩

theorem clock_safe {α : Type} {stage : Stage} {post : α → State ι → Prop}
    {k : Instant → Run α} {s : State ι} (h : Acts presented i stage s)
    (next : ∀ now t, Inv t → Acts presented i stage t →
      Safe (moduleEnv presented) moduleContract i post (k now) t) :
    Safe (moduleEnv presented) moduleContract i post (.call (.storage .utcNow) k) s := by
  refine safe_call acts_stable h fun t r u hinvt ht hstep => ?_
  obtain ⟨hinvu, hguar, hkeeps⟩ := mild_step (fun _ _ he => by cases he) hinvt ht.2 hstep
  exact ⟨hinvu, hguar, next r u hinvu ⟨ht.1.keeps hkeeps, ht.2.keeps hkeeps⟩⟩

/-- The module's clock. -/
theorem utcNow_safe {α : Type} {stage : Stage} {post : α → State ι → Prop}
    {f : Instant → Run α} {s : State ι} (h : Acts presented i stage s)
    (next : ∀ now t, Inv t → Acts presented i stage t →
      Safe (moduleEnv presented) moduleContract i post (f now) t) :
    Safe (moduleEnv presented) moduleContract i post (moduleHost.utcNow >>= f) s :=
  clock_safe h next

theorem within_safe_plainly {α : Type} {method : Op Unit α} {stage : Stage}
    (plainly : Plainly presented i Mild method) {s : State ι} (h : Acts presented i stage s)
    (idle : stage.uses = false) (empty : stage.hand = none) :
    Safe (moduleEnv presented) moduleContract i (fun _ t => Acts presented i stage t)
      (withLedger method) s :=
  withLedger_safe h idle empty fun _ _ hinvt ht => meets_mono
    (fun _ _ _ _ hwithin => hwithin.2) (within_plainly plainly hinvt ht)

theorem plainly_observeAll (rounds generation height : Nat) (observedAt : Instant)
    (candidates : List ExpiryCandidate) :
    Plainly presented i Mild (observeAll rounds generation height observedAt candidates) := by
  induction candidates with
  | nil => exact plainly_pure _
  | cons candidate rest ih =>
    exact plainly_tried_bind (plainly_observeSolanaExpiry rounds _) fun _ => ih

theorem refresh_safe (rounds : Nat) {stage : Stage} {s : State ι} (hinv : Inv s)
    (h : Acts presented i stage s) (idle : stage.uses = false) (empty : stage.hand = none) :
    Safe (moduleEnv presented) moduleContract i (fun _ t => Acts presented i stage t)
      (refreshSolanaAuthorizations moduleHost rounds) s := by
  refine safe_bind (fun view t hinvt ht => ?_) hinv
    (within_safe_plainly (plainly_self_bind fun _ => plainly_pure _) h idle empty)
  rcases view with text | ⟨generation, candidates⟩
  · exact safe_pure acts_stable ht fun _ => id
  dsimp only
  split_ifs with hnothing
  · exact safe_pure acts_stable ht fun _ => id
  refine quiet_safe acts_lasting (by trivial) ht fun height u hinvu hu => ?_
  rcases height with _ | _ | height
  · exact safe_pure acts_stable hu fun _ => id
  · exact safe_pure acts_stable hu fun _ => id
  refine utcNow_safe hu fun now v hinvv hv => ?_
  refine safe_bind (fun result w _ hw => ?_) hinvv
    (within_safe_plainly (plainly_observeAll rounds generation height now candidates) hv idle empty)
  exact safe_pure acts_stable hw fun _ => id

theorem plainly_lookUp (paymentId : String) : Plainly presented i Mild (lookUp paymentId) :=
  plainly_self_bind fun _ => plainly_pure _

theorem record_safe (rounds : Nat) (parse : String → Except String SettlementResponse)
    (request : RecordPaymentRequest) {stage : Stage} {s : State ι} (hinv : Inv s)
    (h : Acts presented i stage s) (idle : stage.uses = false) (empty : stage.hand = none) :
    Safe (moduleEnv presented) moduleContract i (fun _ t => Acts presented i stage t)
      (record moduleHost rounds parse request) s := by
  refine safe_bind (fun found t hinvt ht => ?_) hinv
    (within_safe_plainly (plainly_lookUp request.paymentId) h idle empty)
  rcases found.bind (toRecord (receiptOf parse request)) with text | ⟨_ | pending⟩
  · exact safe_pure acts_stable ht fun _ => id
  · exact safe_pure acts_stable ht fun _ => id
  refine utcNow_safe ht fun now u hinvu hu => ?_
  exact within_safe_plainly (plainly_appendRecord rounds _ _) hu idle empty

/-- A reader of the service that has no reservation in hand. -/
def Through (i : ι) (s : State ι) : Prop :=
  ∃ stage : Stage, stage.uses = false ∧ stage.hand = none ∧ At i stage s

omit [DecidableEq ι] in
theorem through_lasting : Lasting i (Through i) where
  stable := by
    rintro s t ⟨stage, hidle, hempty, hs⟩ step
    exact ⟨stage, hidle, hempty, at_stable stage s t hs step⟩
  quiet := by
    rintro s t ⟨stage, hidle, hempty, hs⟩ keeps _
    exact ⟨stage, hidle, hempty, hs.keeps keeps⟩

theorem safe_through {stage : Stage} {s : State ι} (ended : Ended)
    (h : Acts presented i stage s) (idle : stage.uses = false) (empty : stage.hand = none) :
    Safe (moduleEnv presented) moduleContract i (fun _ t => Through i t)
      (.pure ended : Run Ended) s :=
  safe_pure acts_stable h fun _ ht => ⟨stage, idle, empty, ht.1⟩

/-- A reader that has reserved ends its reservation, whatever happens. -/
theorem payReserved_safe (rounds : Nat) (request : PreparePaymentRequest) (challenge : Challenge)
    (sessionId : String) {stage : Stage} {grant : Grant} {s : State ι}
    (h : Acts presented i stage s) (idle : stage.uses = false) (hand : stage.hand = some grant) :
    Safe (moduleEnv presented) moduleContract i (fun _ t => Through i t)
      (payReserved rounds request challenge sessionId grant.id) s := by
  have hempty : ({ stage with settled := some grant.generation } : Stage).hand = none := rfl
  have dropped : ∀ (ended : Ended) t, Inv t → Acts presented i stage t →
      Safe (moduleEnv presented) moduleContract i (fun _ t => Through i t)
        (dropReservation grant.id >>= fun _ => .pure ended) t := by
    intro ended t hinvt ht
    refine safe_bind (fun _ u _ hu => ?_) hinvt (dropReservation_safe hinvt ht idle hand)
    exact safe_through ended hu idle hempty
  refine quiet_safe acts_lasting (by trivial) h fun authorized t hinvt ht => ?_
  rcases authorized with _ | text | _
  · exact dropped _ t hinvt ht
  · exact dropped _ t hinvt ht
  refine quiet_safe acts_lasting (by trivial) ht fun built u hinvu hu => ?_
  rcases built with _ | text | built
  · exact dropped _ u hinvu hu
  · exact dropped _ u hinvu hu
  refine quiet_safe acts_lasting (by trivial) hu fun paymentId v hinvv hv => ?_
  refine clock_safe hv fun now w hinvw hw => ?_
  refine safe_bind (fun result x _ hx => ?_) hinvw
    (commitDurable_safe rounds _ hinvw hw idle hand)
  cases result with
  | ok done => exact safe_through _ hx idle hempty
  | error text => exact safe_through _ hx idle hempty

theorem pay_safe (rounds : Nat) (request : PreparePaymentRequest) (sessionId : String)
    {stage : Stage} {s : State ι} (hinv : Inv s) (h : Acts presented i stage s)
    (idle : stage.uses = false) (reads : stage.reads = true) (ungranted : stage.granted = none)
    (unsettled : stage.settled = none) :
    Safe (moduleEnv presented) moduleContract i (fun _ t => Through i t)
      (pay rounds request sessionId) s := by
  have hempty : stage.hand = none := by
    simp [Stage.hand, ungranted]
  rw [pay]
  cases request.challenge with
  | error text => exact safe_through _ h idle hempty
  | ok challenge =>
    refine safe_bind (fun refreshed t hinvt ht => ?_) hinv
      (refresh_safe rounds hinv h idle hempty)
    rcases refreshed with _ | text | _
    · exact safe_through _ ht idle hempty
    · exact safe_through _ ht idle hempty
    refine safe_bind (fun reserved u hinvu hu => ?_) hinvt
      (reserve_safe rounds challenge.amountAtomic ht idle reads ungranted unsettled)
    rcases reserved with text | refusal | id
    · exact safe_through _ hu idle hempty
    · exact safe_through _ hu idle hempty
    · obtain ⟨grant, rfl, hacts⟩ := hu
      refine payReserved_safe rounds request challenge sessionId hacts idle ?_
      simp [Stage.hand, unsettled]

theorem ensureCapacity_safe {stage : Stage} {s : State ι} (h : Acts presented i stage s)
    (idle : stage.uses = false) (empty : stage.hand = none) :
    Safe (moduleEnv presented) moduleContract i (fun _ t => Acts presented i stage t)
      ensureCapacity s := by
  refine quiet_safe acts_lasting (by trivial) h fun runtime t hinvt ht => ?_
  refine safe_bind (fun pending u _ hu => ?_) hinvt (within_safe_plainly
    (plainly_bind (plainly_mild (fun _ _ he => by cases he) _) fun _ =>
      plainly_self_bind fun _ => plainly_pure _) ht idle empty)
  cases pending with
  | error text => exact safe_pure acts_stable hu fun _ => id
  | ok pending =>
    dsimp only
    split_ifs with hfull
    · exact safe_pure acts_stable hu fun _ => id
    · exact safe_pure acts_stable hu fun _ => id

theorem prepare_safe (rounds : Nat) (request : PreparePaymentRequest) (sessionId : String)
    {stage : Stage} {s : State ι} (h : Acts presented i stage s)
    (idle : stage.uses = false) (reads : stage.reads = true) (ungranted : stage.granted = none)
    (unsettled : stage.settled = none) :
    Safe (moduleEnv presented) moduleContract i (fun _ t => Through i t)
      (prepare rounds request sessionId) s := by
  have hempty : stage.hand = none := by
    simp [Stage.hand, ungranted]
  rw [prepare]
  cases request.accepted with
  | error text => exact safe_through _ h idle hempty
  | ok _ =>
    refine quiet_safe acts_lasting (by trivial) h fun admitted t hinvt ht => ?_
    cases admitted with
    | false => exact safe_through _ ht idle hempty
    | true =>
      refine safe_bind (fun ended u _ (hu : Through i u) => ?_) hinvt ?_
      · exact quiet_safe through_lasting (by trivial) hu fun _ v _ hv =>
          safe_pure through_lasting.stable hv fun _ => id
      · refine safe_bind (fun refreshed u hinvu hu => ?_) hinvt
          (refresh_safe rounds hinvt ht idle hempty)
        rcases refreshed with _ | text | _
        · exact safe_through _ hu idle hempty
        · exact safe_through _ hu idle hempty
        refine safe_bind (fun capacity v hinvv hv => ?_) hinvu
          (ensureCapacity_safe hu idle hempty)
        cases capacity with
        | error text => exact safe_through _ hv idle hempty
        | ok _ => exact pay_safe rounds request sessionId hinvv hv idle reads ungranted unsettled

/-- A call that has taken nothing and reserved nothing. -/
def Stage.first : Stage := ⟨false, false, false, none, none⟩

/-- A call that reads the service. -/
def Stage.reading : Stage := { Stage.first with reads := true }

/-- A call that may replace the service. -/
def Stage.writing : Stage := { Stage.first with writes := true }

omit [DecidableEq ι] in
/-- Where a call is after a request that moved its locks. -/
theorem at_moved {s t : State ι} {stage : Stage} (h : At i stage s)
    (granted : t.2.granted i = s.2.granted i) (settled : t.2.settled i = s.2.settled i)
    {reads writes : Bool} (readers : t.1.readers i = reads)
    (writer : t.1.writer = some i ↔ writes = true) (user : t.1.user = s.1.user) :
    At i { stage with reads := reads, writes := writes } t := by
  refine ⟨readers, writer, ?_, granted.trans h.granted, settled.trans h.settled⟩
  rw [user]
  exact h.user

theorem read_step {s t : State ι} {granted : Bool} (hinv : Inv s) (h : At i .first s)
    (step : moduleEnv presented s i .read granted t) :
    Inv t ∧ Guar i s t ∧ if granted then At i .reading t else At i .first t := by
  rcases step.1 with ⟨rfl, hwriter, hworld⟩ | ⟨rfl, hworld⟩
  · have hcalm : Calm i s.1 t.1 := by
      rw [hworld]
      refine ⟨rfl, rfl, rfl, fun _ => id, fun j hj => ?_, fun j k hw => ?_, fun _ _ => Iff.rfl,
        fun _ _ _ => rfl⟩
      · simp [hj]
      · rw [hwriter] at hw
        cases hw
    have hreads : t.1.readers i = true := by
      rw [hworld]
      simp
    obtain ⟨hinvt, hguar, hgranted, hsettled⟩ := calm_step hinv (fun _ _ he => by cases he) step
      hcalm (fun _ _ => hreads) fun hother => absurd (by rw [hworld]; rfl) hother
    refine ⟨hinvt, hguar, at_moved h hgranted hsettled hreads ?_ hcalm.user⟩
    rw [hworld]
    exact h.writer
  · obtain ⟨hinvt, hguar, hkeeps, -⟩ := unseen_step hinv (fun _ _ he => by cases he) step
      (by rw [hworld]) (by rw [hworld])
    exact ⟨hinvt, hguar, h.keeps hkeeps⟩

theorem readDone_step {s t : State ι} {stage : Stage} {r : Unit} (hinv : Inv s) (h : At i stage s)
    (empty : stage.hand = none) (step : moduleEnv presented s i .readDone r t) :
    Inv t ∧ Guar i s t ∧ At i { stage with reads := false } t := by
  have hworld : t.1 = { s.1 with readers := Function.update s.1.readers i false } := step.1
  have hcalm : Calm i s.1 t.1 := by
    rw [hworld]
    refine ⟨rfl, rfl, rfl, fun _ => id, fun j hj => ?_, fun j k hw => ?_, fun _ _ => Iff.rfl,
      fun _ _ _ => rfl⟩
    · simp [hj]
    · by_cases hk : k = i
      · simp [hk]
      · simp [hk, hinv.exclusive j k hw]
  obtain ⟨hinvt, hguar, hgranted, hsettled⟩ := calm_step hinv (fun _ _ he => by cases he) step
    hcalm (fun grant hhand => by rw [h.hand, empty] at hhand; cases hhand)
    fun hother => absurd (by rw [hworld]; rfl) hother
  refine ⟨hinvt, hguar, at_moved h hgranted hsettled ?_ ?_ hcalm.user⟩
  · rw [hworld]
    simp
  · rw [hworld]
    exact h.writer

theorem write_step {s t : State ι} {granted : Bool} (hinv : Inv s) (h : At i .first s)
    (step : moduleEnv presented s i .write granted t) :
    Inv t ∧ Guar i s t ∧ (i ∈ t.2.changed ↔ i ∈ s.2.changed) ∧
      if granted then At i .writing t else At i .first t := by
  rcases step.1 with ⟨rfl, hwriter, hreaders, hworld⟩ | ⟨rfl, hworld⟩
  · have hcalm : Calm i s.1 t.1 := by
      rw [hworld]
      refine ⟨rfl, rfl, rfl, fun _ => id, fun _ _ => rfl, fun _ k _ => hreaders k, fun j hj => ?_,
        fun _ _ _ => rfl⟩
      rw [hwriter]
      simp [hj.symm]
    obtain ⟨hinvt, hguar, hgranted, hsettled⟩ := calm_step hinv (fun _ _ he => by cases he) step
      hcalm (fun grant hhand => by rw [h.hand] at hhand; cases hhand)
      fun hother => absurd (by rw [hworld]; rfl) hother
    refine ⟨hinvt, hguar, changed_after step ?_,
      at_moved h hgranted hsettled (by rw [hworld]; exact h.readers) ?_ hcalm.user⟩
    · rw [hworld]
      simp [Changes, World.handle]
    · rw [hworld]
      simp
  · obtain ⟨hinvt, hguar, hkeeps, hchanged⟩ := unseen_step hinv (fun _ _ he => by cases he) step
      (by rw [hworld]) (by rw [hworld])
    exact ⟨hinvt, hguar, hchanged, h.keeps hkeeps⟩

theorem writeDone_step {s t : State ι} {r : Unit} (hinv : Inv s) (h : At i .writing s)
    (step : moduleEnv presented s i .writeDone r t) :
    Inv t ∧ Guar i s t ∧ (i ∈ t.2.changed ↔ i ∈ s.2.changed) ∧ At i .first t := by
  have hworld : t.1 = { s.1 with writer := none } := step.1
  have hwriter : s.1.writer = some i := h.writer.mpr rfl
  have hcalm : Calm i s.1 t.1 := by
    rw [hworld]
    refine ⟨rfl, rfl, rfl, fun _ => id, fun _ _ => rfl, fun j k hw => ?_, fun j hj => ?_,
      fun _ _ _ => rfl⟩
    · cases hw
    · rw [hwriter]
      simp [hj.symm]
  obtain ⟨hinvt, hguar, hgranted, hsettled⟩ := calm_step hinv (fun _ _ he => by cases he) step
    hcalm (fun grant hhand => by rw [h.hand] at hhand; cases hhand)
    fun hother => absurd (by rw [hworld]; rfl) hother
  refine ⟨hinvt, hguar, changed_after step ?_,
    at_moved h hgranted hsettled (by rw [hworld]; exact h.readers) ?_ hcalm.user⟩
  · rw [hworld]
    simp [Changes, World.handle]
  · rw [hworld]
    simp

/-- The service is replaced by who may replace it. -/
theorem setRuntime_step {s t : State ι} {next : Option X402Runtime} {r : Unit} (hinv : Inv s)
    (h : Acts presented i .writing s) (step : moduleEnv presented s i (.setRuntime next) r t) :
    Inv t ∧ Guar i s t ∧ At i .writing t := by
  have hworld : t.1 = { s.1 with runtime := next } := step.1
  have hwriter : s.1.writer = some i := h.1.writer.mpr rfl
  have hcalm : Calm i s.1 t.1 := by
    rw [hworld]
    refine ⟨rfl, rfl, rfl, fun _ => id, fun _ _ => rfl, hinv.exclusive, fun _ _ => Iff.rfl,
      fun j hj hlock => ?_⟩
    rcases hlock with hreads | hwrites
    · rw [hinv.exclusive i j hwriter] at hreads
      cases hreads
    · rw [hwriter] at hwrites
      exact absurd (Option.some.inj hwrites).symm hj
  obtain ⟨hinvt, hguar, hgranted, hsettled⟩ := calm_step hinv (fun _ _ he => by cases he) step
    hcalm (fun grant hhand => by rw [h.1.hand] at hhand; cases hhand) fun _ => h.2
  refine ⟨hinvt, hguar, at_moved h.1 hgranted hsettled ?_ ?_ hcalm.user⟩
  · rw [hworld]
    exact h.1.readers
  · rw [hworld]
    exact h.1.writer

theorem numberLedger_step {s t : State ι} {numbered : Nat × String} (hinv : Inv s)
    (h : At i .writing s) (step : moduleEnv presented s i .numberLedger numbered t) :
    Inv t ∧ Guar i s t ∧ (i ∈ t.2.changed ↔ i ∈ s.2.changed) ∧ At i .writing t ∧
      numbered.2 ∈ t.1.owners := by
  obtain ⟨generation, owner⟩ := numbered
  obtain ⟨-, -, hworld⟩ := step.1
  have hcalm : Calm i s.1 t.1 := by
    rw [hworld]
    exact ⟨rfl, rfl, rfl, fun _ hmem => List.mem_cons_of_mem _ hmem, fun _ _ => rfl,
      hinv.exclusive, fun _ _ => Iff.rfl, fun _ _ _ => rfl⟩
  obtain ⟨hinvt, hguar, hgranted, hsettled⟩ := calm_step hinv (fun _ _ he => by cases he) step
    hcalm (fun grant hhand => by rw [h.hand] at hhand; cases hhand)
    fun hother => absurd (by rw [hworld]; rfl) hother
  refine ⟨hinvt, hguar, changed_after step ?_,
    at_moved h hgranted hsettled (by rw [hworld]; exact h.readers) ?_ hcalm.user, ?_⟩
  · rw [hworld]
    simp [Changes, World.handle]
  · rw [hworld]
    exact h.writer
  · rw [hworld]
    exact List.mem_cons_self

theorem underRead_safe {service : String} {body : X402Runtime → Run Ended} {s : State ι}
    (presents : presented i = some service) (h : At i .first s)
    (safe : ∀ runtime t, Inv t → Acts presented i .reading t →
      Safe (moduleEnv presented) moduleContract i (fun _ u => Through i u) (body runtime) t) :
    Safe (moduleEnv presented) moduleContract i (fun _ t => t.2.hand i = none)
      (underRead service body) s := by
  refine safe_call (at_stable _) h fun t granted u hinvt ht hstep => ?_
  obtain ⟨hinvu, hguar, hu⟩ := read_step hinvt ht hstep
  refine ⟨hinvu, hguar, ?_⟩
  cases granted with
  | false => exact safe_pure (at_stable .first) hu fun v hv => hv.hand
  | true =>
    refine safe_call (at_stable .reading) hu fun v runtime w hinvv hv hstep' => ?_
    obtain ⟨hruntime, hworld⟩ := hstep'.1
    obtain ⟨hinvw, hguar', hkeeps, -⟩ := unseen_step hinvv (fun _ _ he => by cases he) hstep'
      (by rw [hworld]) (by rw [hworld])
    have hw := hv.keeps hkeeps
    refine ⟨hinvw, hguar', safe_bind (fun ended x _ (hx : Through i x) => ?_) hinvw ?_⟩
    · refine safe_call through_lasting.stable hx fun y r z hinvy hy hstep'' => ?_
      obtain ⟨stage, hidle, hempty, hat⟩ := hy
      obtain ⟨hinvz, hguar'', hz⟩ := readDone_step hinvy hat hempty hstep''
      exact ⟨hinvz, hguar'', safe_pure (at_stable _) hz fun _ ha => ha.hand.trans hempty⟩
    · have stop : ∀ ended : Ended, Safe (moduleEnv presented) moduleContract i
          (fun _ t => Through i t) (.pure ended : Run Ended) w := fun ended =>
        safe_pure (at_stable .reading) hw fun _ ht => ⟨.reading, rfl, rfl, ht⟩
      cases runtime with
      | none => exact stop _
      | some runtime =>
        dsimp only
        split_ifs with hhandle
        · refine safe runtime w hinvw ⟨hw, fun handle hpresented => ⟨?_, .inl hw.readers⟩⟩
          rw [presents] at hpresented
          cases hpresented
          rw [hkeeps.handle, World.handle, ← hruntime, hhandle]
          rfl
        · exact stop _

theorem prepare_call_safe (rounds : Nat) (request : PreparePaymentRequest) {s : State ι}
    (presents : presented i = some request.service) (h : At i .first s) :
    Safe (moduleEnv presented) moduleContract i (fun _ t => t.2.hand i = none)
      (x402PreparePayment rounds request) s :=
  underRead_safe presents h fun runtime _ _ ht =>
    prepare_safe rounds request runtime.sessionId ht rfl rfl rfl rfl

theorem record_call_safe (rounds : Nat) (parse : String → Except String SettlementResponse)
    (request : RecordPaymentRequest) {s : State ι}
    (presents : presented i = some request.service) (h : At i .first s) :
    Safe (moduleEnv presented) moduleContract i (fun _ t => t.2.hand i = none)
      (x402RecordPayment rounds parse request) s := by
  refine underRead_safe presents h fun _ t hinvt ht => ?_
  refine safe_bind (fun result u _ hu => ?_) hinvt
    (record_safe rounds parse request hinvt ht rfl rfl)
  cases result with
  | ok done => exact safe_through _ hu rfl rfl
  | error text => exact safe_through _ hu rfl rfl

omit [DecidableEq ι] in
theorem rightful_none (unpresented : presented i = none) (s : State ι) :
    Rightful presented i s := by
  intro handle hpresented
  rw [unpresented] at hpresented
  cases hpresented

theorem renewHoldsOnce_safe {s : State ι} (unpresented : presented i = none)
    (hinv : Inv s) (h : At i .first s) :
    Safe (moduleEnv presented) moduleContract i (fun _ t => t.2.hand i = none)
      renewHoldsOnce s := by
  refine safe_bind (fun result t _ ht => ?_) hinv
    (withLedger_safe ⟨h, rightful_none unpresented s⟩ rfl rfl
      fun m t _ ht => renewHoldsAt_within ht)
  exact safe_pure acts_stable ht fun _ hu => hu.1.hand

omit [DecidableEq ι] in
/-- While the service is being replaced nobody has anything in hand. -/
theorem writing_hands {s : State ι} (hinv : Inv s) (writing : s.1.writer = some i) (j : ι) :
    s.2.hand j = none := by
  refine Option.eq_none_iff_forall_ne_some.mpr fun grant hhand => ?_
  have hreads := (hinv.hands j grant hhand).1
  rw [hinv.exclusive i j writing] at hreads
  cases hreads

/-- A ledger that replaces another one holds nothing. -/
def Blank (owners : List String) (found : Option PaymentLedger) : Prop :=
  ∀ m, found = some m → m.owner ∈ owners ∧ m.reservations = ∅ ∧ m.holds = ∅

omit [DecidableEq ι] in
theorem freeOf_blank {owners : List String} {found : Option PaymentLedger}
    (blank : Blank owners found) {m : PaymentLedger} (hm : found = some m) (grant : Grant) :
    FreeOf m grant := by
  obtain ⟨-, hreservations, hholds⟩ := blank m hm
  rw [FreeOf, hreservations, hholds]
  exact ⟨rfl, rfl⟩

omit [DecidableEq ι] in
theorem Blank.mono {owners owners' : List String} {found : Option PaymentLedger}
    (h : Blank owners found) (grown : ∀ owner ∈ owners, owner ∈ owners') :
    Blank owners' found :=
  fun m hm => ⟨grown _ (h m hm).1, (h m hm).2⟩

omit [DecidableEq ι] in
theorem blank_stable {found : Option PaymentLedger} : Stable i fun s => Blank s.1.owners found := by
  rintro s t hs ⟨j, -, guar⟩
  exact hs.mono guar.owners

/-- The ledger is swapped by who may replace the service. -/
theorem swap_safe {α : Type} {post : α → State ι → Prop} {found : Option PaymentLedger}
    {k : Run α} {s : State ι} (h : Acts presented i .writing s) (blank : Blank s.1.owners found)
    (next : ∀ t, Inv t → Acts presented i .writing t →
      Safe (moduleEnv presented) moduleContract i post k t) :
    Safe (moduleEnv presented) moduleContract i post
      (.call .lockLedger fun _ => .call (.unlockLedger found none) fun _ => k) s := by
  refine safe_call (acts_stable.and blank_stable) ⟨h, blank⟩
    fun t ledger u hinvt ⟨ht, hblank⟩ hstep => ?_
  obtain ⟨hinvu, hguar, hu, -⟩ := lockLedger_step hinvt ht hstep
  refine ⟨hinvu, hguar, ?_⟩
  refine safe_call (acts_stable.and blank_stable) ⟨hu, hblank.mono hguar.owners⟩
    fun v done w hinvv ⟨hv, hblankv⟩ hstep' => ?_
  have hhands := writing_hands hinvv (hv.1.writer.mpr rfl)
  have hrespects : Respects i found v := by
    refine ⟨fun m hm => ⟨(hblankv m hm).1, fun id own hown => ?_⟩, fun j _ grant hhand => ?_,
      fun j _ grant _ m hm => freeOf_blank hblankv hm grant⟩
    · rw [(hblankv m hm).2.1] at hown
      cases hown
    · rw [hhands j] at hhand
      cases hhand
  obtain ⟨hinvw, hguar', hw⟩ := unlock_step hinvv hv.1 rfl hv.2 hstep' hrespects
    (given_nothing hinvv hv.1 rfl fun grant _ m hm => freeOf_blank hblankv hm grant)
  rw [after_nothing rfl rfl] at hw
  exact ⟨hinvw, hguar', next w hinvw hw⟩

theorem close_safe {service : String} {s : State ι} (presents : presented i = some service)
    (h : At i .first s) :
    Safe (moduleEnv presented) moduleContract i (fun _ _ => True) (x402Close service) s := by
  have anything : ∀ (known : State ι → Prop), Stable i known → ∀ (ended : Ended) t, known t →
      Safe (moduleEnv presented) moduleContract i (fun _ _ => True) (.pure ended : Run Ended) t :=
    fun _ stable _ _ ht => safe_pure stable ht fun _ _ => trivial
  have leave : ∀ (ended : Ended) t, At i .writing t →
      Safe (moduleEnv presented) moduleContract i (fun _ _ => True)
        (.call .writeDone fun _ => .pure ended : Run Ended) t := by
    intro ended t ht
    refine safe_call (at_stable .writing) ht fun u r v hinvu hu hstep => ?_
    obtain ⟨hinvv, hguar, -, hv⟩ := writeDone_step hinvu hu hstep
    exact ⟨hinvv, hguar, anything _ (at_stable .first) _ v hv⟩
  refine safe_call (at_stable _) h fun t granted u hinvt ht hstep => ?_
  obtain ⟨hinvu, hguar, -, hu⟩ := write_step hinvt ht hstep
  refine ⟨hinvu, hguar, ?_⟩
  cases granted with
  | false => exact anything _ (at_stable .first) _ u hu
  | true =>
    refine safe_call (at_stable .writing) hu fun v runtime w hinvv hv hstep' => ?_
    obtain ⟨hruntime, hworld⟩ := hstep'.1
    obtain ⟨hinvw, hguar', hkeeps, -⟩ := unseen_step hinvv (fun _ _ he => by cases he) hstep'
      (by rw [hworld]) (by rw [hworld])
    have hw := hv.keeps hkeeps
    refine ⟨hinvw, hguar', ?_⟩
    cases runtime with
    | none => exact leave _ w hw
    | some runtime =>
      dsimp only
      split_ifs with hhandle
      · have hacts : Acts presented i .writing w := by
          refine ⟨hw, fun handle hpresented => ⟨?_, .inr (hw.writer.mpr rfl)⟩⟩
          rw [presents] at hpresented
          cases hpresented
          rw [hkeeps.handle, World.handle, ← hruntime, hhandle]
          rfl
        refine swap_safe hacts (fun m hm => by cases hm) fun x hinvx hx => ?_
        refine safe_call acts_stable hx fun y r z hinvy hy hstep'' => ?_
        obtain ⟨hinvz, hguar'', hz⟩ := setRuntime_step hinvy hy hstep''
        exact ⟨hinvz, hguar'', leave _ z hz⟩
      · exact leave _ w hw

omit [DecidableEq ι] in
theorem owner_lasting {owner : String} : Lasting i fun s => owner ∈ s.1.owners where
  stable := by
    rintro s t hs ⟨j, -, guar⟩
    exact guar.owners owner hs
  quiet := fun _ _ hs keeps _ => keeps.owners owner hs

/-- Reading the stream changes nothing. -/
theorem reads_unchanged {s t : State ι} {e : Request Unit} {r : e.Answer} (reads : Reads e)
    (step : storageEnv presented s i e r t) : ¬Changes s.1 t.1 := by
  obtain ⟨next, rfl⟩ := reads
  obtain ⟨⟨-, storage, hanswer, hworld⟩, -⟩ := step
  have hsame : storage = s.1.storage := by
    cases r with
    | error text => exact hanswer
    | ok window => exact hanswer.2
  rw [hworld, hsame]
  simp [Changes, World.handle]

/-- What a configuration knows while it opens its ledger. -/
def Opening (i : ι) (owner : String) (s : State ι) : Prop :=
  (At i .writing s ∧ Untouched i s) ∧ owner ∈ s.1.owners

omit [DecidableEq ι] in
theorem opening_lasting {owner : String} : Lasting i (Opening i owner) :=
  (at_lasting.and untouched_lasting).and owner_lasting

theorem opening_steady {owner : String} (unpresented : presented i = none) :
    Steady presented i Reads (Opening i owner) where
  stable := opening_lasting.stable
  rightful := fun s _ => rightful_none unpresented s
  own := fun s t _ _ hs reads step keeps =>
    opening_lasting.quiet s t hs keeps (changed_after step (reads_unchanged reads step))

theorem openLedger_opened (rounds generation : Nat) (owner sessionId : String)
    (budget : SpendingBudget) (unpresented : presented i = none) {m : PaymentLedger} {s : State ι}
    (hinv : Inv s) (h : Opening i owner s) :
    Meets (storageEnv presented) moduleContract i
      (fun r m' t => Opening i owner t ∧ ∀ done, r = .ok done → Blank t.1.owners (some m'))
      (openLedger rounds generation owner sessionId budget) m s := by
  have hsteady : Steady presented i Reads (Opening i owner) := opening_steady unpresented
  refine meets_bind hinv (plainly_readFrom (fun _ => id) rounds 0 [] _ hsteady m s hinv h) ?_ ?_
  · rintro ⟨records, nextOffset⟩ m' t hinvt ⟨-, ht⟩ u hu -
    have hopening := opening_lasting.stable.rely ht hu
    refine ⟨hopening, fun done _ m'' hm => ?_⟩
    cases hm
    exact ⟨hopening.2, rfl, rfl⟩
  · rintro text m' t - ⟨-, ht⟩ u hu -
    exact ⟨opening_lasting.stable.rely ht hu, fun done hdone => by cases hdone⟩

/-- Where a configuration is when it has opened its ledger, or could not. -/
def ConfiguredAt (i : ι) (r : Except String X402Runtime) (s : State ι) : Prop :=
  match r with
  | .ok _ => At i .writing s
  | .error _ => At i .writing s ∧ Untouched i s

theorem newRuntime_safe (rounds : Nat) (request : ConfigureRequest) {s : State ι}
    (unpresented : presented i = none) (h : At i .writing s ∧ Untouched i s) :
    Safe (moduleEnv presented) moduleContract i (ConfiguredAt i) (newRuntime rounds request) s := by
  have hlasting : Lasting i fun s => At i .writing s ∧ Untouched i s :=
    at_lasting.and untouched_lasting
  refine quiet_safe hlasting (by trivial) h fun ready t hinvt ht => ?_
  cases ready with
  | error text => exact safe_pure hlasting.stable ht fun _ => id
  | ok _ =>
  refine safe_call hlasting.stable ht fun u numbered v hinvu hu hstep => ?_
  obtain ⟨hinvv, hguar, hchanged, hv, howner⟩ := numberLedger_step hinvu hu.1 hstep
  have huntouched : Untouched i v := fun hmem => hu.2 (hchanged.mp hmem)
  refine ⟨hinvv, hguar, ?_⟩
  refine safe_bind (fun opened w hinvw hw => ?_) hinvv (lifted_safe
    (openLedger_opened rounds numbered.1 numbered.2 request.sessionId request.budget unpresented
      hinvv ⟨⟨hv, huntouched⟩, howner⟩))
  obtain ⟨hopening, hblank⟩ := hw
  rcases opened with ⟨text | done, ledger⟩
  · exact safe_pure hlasting.stable hopening.1 fun _ => id
  refine swap_safe ⟨hopening.1.1, rightful_none unpresented w⟩ (hblank done rfl) fun x _ hx => ?_
  refine quiet_safe acts_lasting (by trivial) hx fun handle y _ hy => ?_
  exact safe_pure acts_stable hy fun _ hz => hz.1

/-- A configuration that fails or is cancelled has changed nothing. -/
theorem configure_safe (rounds : Nat) (request : ConfigureRequest) {s : State ι}
    (unpresented : presented i = none) (h : At i .first s ∧ Untouched i s) :
    Safe (moduleEnv presented) moduleContract i
      (fun ended t => (∀ handle, ended ≠ .configured handle) → Untouched i t)
      (x402Configure rounds request) s := by
  have hlasting : Lasting i fun s => At i .first s ∧ Untouched i s :=
    at_lasting.and untouched_lasting
  have hwriting : Lasting i fun s => At i .writing s ∧ Untouched i s :=
    at_lasting.and untouched_lasting
  have stop : ∀ (ended : Ended) t, At i .first t ∧ Untouched i t →
      Safe (moduleEnv presented) moduleContract i
        (fun ended t => (∀ handle, ended ≠ .configured handle) → Untouched i t)
        (.pure ended : Run Ended) t :=
    fun ended t ht => safe_pure hlasting.stable ht fun _ hu _ => hu.2
  refine quiet_safe hlasting (by trivial) h fun storage t hinvt ht => ?_
  rcases storage with _ | text | _
  · exact stop _ t ht
  · exact stop _ t ht
  refine safe_call hlasting.stable ht fun u granted v hinvu hu hstep => ?_
  obtain ⟨hinvv, hguar, hchanged, hv⟩ := write_step hinvu hu.1 hstep
  have huntouched : Untouched i v := fun hmem => hu.2 (hchanged.mp hmem)
  refine ⟨hinvv, hguar, ?_⟩
  cases granted with
  | false => exact stop _ v ⟨hv, huntouched⟩
  | true =>
  refine safe_bind (fun next w hinvw hw => ?_) hinvv
    (newRuntime_safe rounds request unpresented ⟨hv, huntouched⟩)
  cases next with
  | error text =>
    refine safe_call hwriting.stable hw fun x r y hinvx hx hstep' => ?_
    obtain ⟨hinvy, hguar', hchanged', hy⟩ := writeDone_step hinvx hx.1 hstep'
    exact ⟨hinvy, hguar', stop _ y ⟨hy, fun hmem => hx.2 (hchanged'.mp hmem)⟩⟩
  | ok runtime =>
    refine safe_call (at_stable .writing) hw fun x r y hinvx hx hstep' => ?_
    obtain ⟨hinvy, hguar', hy⟩ := setRuntime_step hinvx ⟨hx, rightful_none unpresented x⟩ hstep'
    refine ⟨hinvy, hguar', ?_⟩
    refine safe_call (at_stable .writing) hy fun z r' a hinvz hz hstep'' => ?_
    obtain ⟨hinva, hguar'', -, ha⟩ := writeDone_step hinvz hz hstep''
    exact ⟨hinva, hguar'', safe_pure (at_stable .first) ha fun _ _ hnot => absurd rfl (hnot _)⟩

/-- Another process puts nothing under the keys of this module. -/
theorem elsewhere_step {s t : State ι} {change : Elsewhere} {r : Unit} (hinv : Inv s)
    (unpresented : presented i = none) (h : At i .first s)
    (step : moduleEnv presented s i (.elsewhere change) r t) : Inv t ∧ Guar i s t := by
  obtain ⟨hgranted, hsettled, hfailed, hothers⟩ := keeping_notes (fun _ _ he => by cases he) step
  have hcurrent := stale_after hinv.current (fun _ => rightful_none unpresented s) step
  have hempty : ∀ grant, s.2.hand i ≠ some grant := by
    intro grant hhand
    rw [h.hand] at hhand
    cases hhand
  have hworld : ∃ storage : Shared Unit ι, t.1 = { s.1 with storage := storage } ∧
      storage.ids = s.1.storage.ids ∧
        ∀ key, s.1.Ours key → s.1.stored key = none → storage.holds.lookup key = none := by
    cases change with
    | put holds =>
      obtain ⟨hclean, hworld⟩ := step.1
      exact ⟨_, hworld, rfl, hclean⟩
    | append value =>
      exact ⟨_, step.1, rfl, fun _ _ hnone => hnone⟩
  obtain ⟨storage, hworld, hids, hclean⟩ := hworld
  have hminor : Minor i s t := by
    refine ⟨by rw [hworld], hgranted, hsettled, hfailed, ?_, hothers, ?_, ?_⟩
    · rw [hworld]
      exact fun _ _ => rfl
    · rw [hworld]
      exact le_of_eq (congrFun hids ()).symm
    · rw [hworld]
      exact fun _ => id
  refine ⟨hminor.inv hinv ?_ (fun grant hhand => absurd hhand (hempty grant)) ?_ hcurrent,
    hminor.guar ?_ ?_ ?_ ?_⟩
  · rw [hworld]
    exact hinv.exclusive
  · intro j grant hgone
    obtain ⟨-, owner, howner, hkey⟩ := hinv.granted j grant hgone.1
    rw [World.stored, hworld]
    exact hclean _ ⟨owner, howner, grant.id, hkey⟩ (hinv.gone j grant hgone).1
  · rw [hworld]
    exact fun _ _ => Iff.rfl
  · rw [hworld]
    exact fun _ _ => Iff.rfl
  · rw [hworld]
    exact fun _ _ _ => rfl
  · intro _ _ _ key hours hnone
    rw [World.stored, hworld]
    exact hclean key hours hnone

/-- Nothing has happened yet. -/
def Notes.none : Notes ι where
  granted := fun _ => Option.none
  settled := fun _ => Option.none
  failed := fun _ => false
  lost := fun _ => 0
  changed := ∅
  stale := ∅

/-- The module as it is loaded. -/
structure Loaded (s : World ι) : Prop where
  readers : ∀ i, s.readers i = false
  writer : s.writer = none
  user : s.user = none
  ledger : s.ledger = none

omit [DecidableEq ι] in
theorem Loaded.inv {s : World ι} (h : Loaded s) : Inv (s, Notes.none) where
  exclusive := fun _ j _ => h.readers j
  hands := fun _ _ hhand => by cases hhand
  keyed := fun m hm => by
    rw [h.ledger] at hm
    cases hm
  gone := fun _ _ hgone => by cases hgone.1
  granted := fun _ _ hg => by cases hg
  apart := fun _ _ _ _ hg => by cases hg
  settled := fun _ _ hs => by cases hs
  current := rfl

omit [DecidableEq ι] in
theorem Loaded.first {s : World ι} (h : Loaded s) (i : ι) :
    At i .first (s, Notes.none) ∧ Untouched i (s, Notes.none) := by
  refine ⟨⟨h.readers i, ?_, ?_, rfl, rfl⟩, Set.notMem_empty i⟩
  · simp [h.writer, Stage.first]
  · simp [h.user, Stage.first]

/-- How a call may leave its own notes when it ends. -/
def EndsWell (call : ModuleCall) (i : ι) (ended : Ended) (s : State ι) : Prop :=
  match call with
  | .configure _ => (∀ handle, ended ≠ .configured handle) → Untouched i s
  | .prepare _ => s.2.hand i = none
  | _ => True

theorem call_safe (rounds : Nat) (parse : String → Except String SettlementResponse)
    (call : ModuleCall) {s : State ι} (presents : presented i = call.presented) (hinv : Inv s)
    (h : At i .first s ∧ Untouched i s) :
    Safe (moduleEnv presented) moduleContract i (EndsWell call i)
      (call.program rounds parse) s := by
  cases call with
  | configure request => exact configure_safe rounds request presents h
  | close service => exact close_safe presents h.1
  | prepare request => exact prepare_call_safe rounds request presents h.1
  | record request =>
    exact safe_mono (fun _ _ _ _ => trivial) (record_call_safe rounds parse request presents h.1)
  | renewHolds =>
    exact safe_mono (fun _ _ _ _ => trivial) (renewHoldsOnce_safe presents hinv h.1)
  | elsewhere change =>
    refine safe_call (at_stable .first) h.1 fun t r u hinvt ht hstep => ?_
    obtain ⟨hinvu, hguar⟩ := elsewhere_step hinvt presents ht hstep
    exact ⟨hinvu, hguar, fun _ _ _ => trivial⟩

/-- What holds of the reservations whenever one looks. -/
structure HandedOver (calls : ι → ModuleCall)
    (config : Config (State ι) ι ModuleRequest ModuleRequest.Answer Empty Ended) : Prop where
  /-- The ledger in place is the one that granted what is in hand, and has it. -/
  held : ∀ i grant, config.shared.2.hand i = some grant →
    ∃ m, config.shared.1.ledger = some m ∧ HeldBy m grant
  /-- It is settled on the ledger that granted it. -/
  settled : ∀ i generation, config.shared.2.settled i = some generation →
    ∃ grant, config.shared.2.granted i = some grant ∧ grant.generation = generation
  /-- A call that has ended has settled its reservation, and nothing is left of it
  unless storage failed or its retries were used up. -/
  ended : ∀ i request result grant, calls i = .prepare request →
    config.program i = .pure result → config.shared.2.granted i = some grant →
      config.shared.2.settled i = some grant.generation ∧
        (config.shared.2.failed i = false → config.shared.1.stored grant.key = none ∧
          ∀ m, config.shared.1.ledger = some m → FreeOf m grant)
  /-- A configuration that fails changes neither service, ledger, holds nor stream. -/
  configured : ∀ i request result, calls i = .configure request →
    config.program i = .pure result → (∀ handle, result ≠ .configured handle) →
      i ∉ config.shared.2.changed
  /-- Nothing is changed by a call that presents another handle. -/
  current : config.shared.2.stale = ∅

theorem handed_over (rounds : Nat) (parse : String → Except String SettlementResponse)
    (calls : ι → ModuleCall) {start : World ι} (hstart : Loaded start)
    {config : Config (State ι) ι ModuleRequest ModuleRequest.Answer Empty Ended}
    (reach : Reachable (moduleEnv fun i => (calls i).presented) (start, Notes.none)
      (fun i => (calls i).program rounds parse) config) : HandedOver calls config := by
  have hsafe : ∀ i, Safe (moduleEnv fun i => (calls i).presented) moduleContract i
      (EndsWell (calls i) i) ((calls i).program rounds parse) (start, Notes.none) :=
    fun i => call_safe rounds parse (calls i) rfl hstart.inv (hstart.first i)
  obtain ⟨hinv, -⟩ := reachable_safe hstart.inv hsafe reach
  have hends := fun i result => reachable_ends (i := i) (a := result) hstart.inv hsafe reach
  constructor
  · exact fun i grant hhand => (hinv.hands i grant hhand).2
  · exact hinv.settled
  · intro i request result grant hcall hend hgranted
    have hempty : config.shared.2.hand i = none := by
      have hwell := hends i result hend
      rw [hcall] at hwell
      exact hwell
    rw [Notes.hand] at hempty
    split_ifs at hempty with hsettled
    · obtain ⟨generation, hgeneration⟩ := Option.isSome_iff_exists.mp hsettled
      obtain ⟨own, hown, rfl⟩ := hinv.settled i generation hgeneration
      rw [hgranted] at hown
      cases hown
      exact ⟨hgeneration, fun hfailed => hinv.gone i grant ⟨hgranted, hsettled, hfailed⟩⟩
    · rw [hgranted] at hempty
      cases hempty
  · intro i request result hcall hend hnot
    have hwell := hends i result hend
    rw [hcall] at hwell
    exact hwell hnot
  · exact hinv.current

/-- One call is cancelled after it has reserved, another one pays, and a
configuration that waits for both fails. -/
inductive Caller where
  | opening
  | cancelled
  | replacing
  | paying
deriving DecidableEq

instance callers : Fintype Caller :=
  ⟨{.opening, .cancelled, .replacing, .paying}, fun caller => by cases caller <;> decide⟩

def sampleRequest : PreparePaymentRequest where
  service := "handle-1"
  url := "https://api.example.com/data"
  threadId := none
  accepted := .ok ()
  challenge := .ok ⟨5, "USDC", "Recipient", "solana:5eykt4UsFv8P8NJdTREpY1vzqKqZKvdp"⟩

def sampleCalls : Caller → ModuleCall
  | .opening => .configure ⟨"session-a", LedgerCalls.sampleBudget⟩
  | .cancelled => .prepare sampleRequest
  | .replacing => .configure ⟨"session-b", LedgerCalls.sampleBudget⟩
  | .paying => .prepare sampleRequest

def sampleHost (caller : Caller) : HostAnswers where
  migrated := if caller = .replacing then .error "not migrated" else .ok ()
  authorized := if caller = .cancelled then none else some (.ok ())
  built := some (.ok ⟨none, none⟩)
  finalizedHeight := some none

def sampleWorld : World Caller where
  storage := LedgerCalls.sampleShared (fun _ => "") []
  readers := fun _ => false
  writer := none
  runtime := none
  ledger := none
  user := none
  generations := 0
  owners := []

def sampleAnswer (caller : Caller) (s : State Caller) (e : ModuleRequest) :
    Option (e.Answer × State Caller) :=
  (respondModule (sampleHost caller) caller s.1 e).map fun reply =>
    (reply.1, (reply.2,
      s.2.after (fun i => (sampleCalls i).presented) s.1 caller e reply.1 reply.2))

theorem sampleAnswer_allowed (caller : Caller) (s : State Caller) (e : ModuleRequest)
    (r : e.Answer) (t : State Caller) (h : sampleAnswer caller s e = some (r, t)) :
    moduleEnv (fun i => (sampleCalls i).presented) s caller e r t := by
  obtain ⟨reply, hreply, heq⟩ := Option.map_eq_some_iff.mp h
  cases heq
  exact ⟨respondModule_answers hreply, rfl⟩

def sampleParse (_ : String) : Except String SettlementResponse := .error "no receipt"

def sampleTurns : List (Caller × Nat) :=
  [(.opening, 40), (.cancelled, 20), (.paying, 12), (.replacing, 40), (.cancelled, 40),
    (.replacing, 40), (.paying, 60), (.replacing, 40)]

def sampleRun :=
  schedule sampleAnswer sampleTurns
    (sampleWorld, Notes.none) fun i => (sampleCalls i).program 4 sampleParse

theorem sample_handed_over :
    ∃ config, Reachable (moduleEnv fun i => (sampleCalls i).presented) (sampleWorld, Notes.none)
        (fun i => (sampleCalls i).program 4 sampleParse) config ∧
      config.program .cancelled = .pure .cancelled ∧
      config.program .replacing = .pure (.failed "not migrated") ∧
      config.program .paying = .pure (.prepared "x402_payment") ∧
      -- both calls had reserved, and one payment is recorded
      config.shared.1.storage.ids () = 3 ∧ config.shared.1.stored "ledger-0:1" = none ∧
      config.shared.1.storage.stream.length = 1 ∧ HandedOver sampleCalls config := by
  have hstart : Reachable (moduleEnv fun i => (sampleCalls i).presented)
      (sampleWorld, Notes.none) (fun i => (sampleCalls i).program 4 sampleParse)
      (Config.initial (sampleWorld, Notes.none) fun i => (sampleCalls i).program 4 sampleParse) :=
    .refl
  obtain ⟨config, hreach, hshared, hprogram⟩ :=
    Reachable.schedule sampleAnswer_allowed sampleTurns hstart
  have hrun : config.shared = sampleRun.1 := hshared
  have hended : config.program = sampleRun.2 := hprogram
  have hloaded : Loaded sampleWorld := ⟨fun _ => rfl, rfl, rfl, rfl⟩
  have hvalues : (sampleRun.2 .cancelled).value? = some .cancelled ∧
      (sampleRun.2 .replacing).value? = some (.failed "not migrated") ∧
      (sampleRun.2 .paying).value? = some (.prepared "x402_payment") := by decide +kernel
  have hstorage : sampleRun.1.1.storage.ids () = 3 ∧ sampleRun.1.1.stored "ledger-0:1" = none ∧
      sampleRun.1.1.storage.stream.length = 1 := by decide +kernel
  obtain ⟨hcancelled, hreplacing, hpaying⟩ := hvalues
  refine ⟨config, hreach, ?_, ?_, ?_, ?_, ?_, ?_,
    handed_over 4 sampleParse sampleCalls hloaded hreach⟩
  · rw [hended]
    exact Prog.eq_pure_of_value? hcancelled
  · rw [hended]
    exact Prog.eq_pure_of_value? hreplacing
  · rw [hended]
    exact Prog.eq_pure_of_value? hpaying
  · rw [hrun]
    exact hstorage.1
  · rw [hrun]
    exact hstorage.2.1
  · rw [hrun]
    exact hstorage.2.2

end LedgerWorld
