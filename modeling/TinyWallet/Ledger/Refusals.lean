import TinyWallet.Ledger.Totals

/-!
# Refusals are justified

A reservation reads the hold document, then the stream to its end, and refuses
only when a second read finds the document unchanged. At the instant the
reading ended the document and the stream were both what was read, so the total
that was refused is the true total of that instant.
-/

namespace LedgerRefusals

open Programs Sharing Tables LedgerRecords LedgerStore LedgerStorage LedgerReading LedgerCalls
  LedgerMirrors LedgerTotals

variable {P ι γ : Type} [DecidableEq P] {process : ι → P} {i : ι}

variable {rules : Rules P ι γ} {rereading : ι → γ → Prop} {seen : ι → Shared P ι → γ → Prop}

/-- A refusal for a window has seen a state in which the window was too full. -/
def RefusalSeen (seen : ι → Shared P ι → γ → Prop) (i : ι) (now : Instant) (amount : Nat)
    (r : Except String (Except BudgetRefusal ReservationId)) (g : γ) : Prop :=
  (∀ current cap, r = .ok (.error (.daily current cap)) →
    ∃ x, seen i x g ∧ cap < trueTotal (chargedDaily now) now.millis x + amount) ∧
  (∀ current cap, r = .ok (.error (.monthly current cap)) →
    ∃ x, seen i x g ∧ cap < trueTotal (chargedMonthly now) now.millis x + amount)

omit [DecidableEq P] in
theorem refusalSeen_other {now : Instant} {amount : Nat}
    {r : Except String (Except BudgetRefusal ReservationId)} {g : γ}
    (h : ∀ refusal, r ≠ .ok (.error refusal)) : RefusalSeen seen i now amount r g :=
  ⟨fun _ _ hr => absurd hr (h _), fun _ _ hr => absurd hr (h _)⟩

omit [DecidableEq P] in
theorem refusalSeen_error {now : Instant} {amount : Nat} {text : String} {g : γ} :
    RefusalSeen seen i now amount (.error text) g :=
  refusalSeen_other fun _ => nofun

omit [DecidableEq P] in
theorem refusalSeen_granted {now : Instant} {amount : Nat} {id : ReservationId} {g : γ} :
    RefusalSeen seen i now amount (.ok (.ok id)) g :=
  refusalSeen_other fun _ => nofun

omit [DecidableEq P] in
theorem refusalSeen_perRequest {now : Instant} {amount requested cap : Nat} {g : γ} :
    RefusalSeen seen i now amount (.ok (.error (.perRequest requested cap))) g :=
  ⟨nofun, nofun⟩

omit [DecidableEq P] in
/-- What a check that has just caught up refuses is refused for a true total. -/
theorem checked_refusal {ledger : PaymentLedger} {x : Shared P ι} (hm : Mirrors ledger x.stream)
    (hend : ledger.nextOffset = x.stream.length) {now : Instant} {amount : Nat}
    {refusal : BudgetRefusal}
    (hcheck : (({ ledger with
      holds := liveHolds now.millis ledger.committedHolds x.holds } : PaymentLedger).checkBudgetAt
        now amount).refusal = some refusal) {g : γ} (hseen : seen i x g) :
    RefusalSeen seen i now amount (.ok (.error refusal)) g := by
  simp only [PaymentLedger.checkBudgetAt, PaymentLedger.reservedAtomic, checkBudget,
    chargedTotal_trueTotal hm hend] at hcheck
  split at hcheck
  · cases hcheck
    exact ⟨nofun, nofun⟩
  · split at hcheck
    · next hdaily =>
      cases hcheck
      refine ⟨fun _ _ h => ?_, nofun⟩
      cases h
      exact ⟨x, hseen, exceeds_trueTotal ledger.budget.fits.2.1 hdaily⟩
    · split at hcheck
      · next hmonthly =>
        cases hcheck
        refine ⟨nofun, fun _ _ h => ?_⟩
        cases h
        exact ⟨x, hseen, exceeds_trueTotal ledger.budget.fits.2.2 hmonthly⟩
      · cases hcheck

section Loop

variable (observed : Observed process rules rereading seen)
include observed

theorem seen_rely {s t : Shared P ι × γ} {x : Shared P ι} (hw : Within process seen i s)
    (hx : seen i x s.2) (h : (mirrorContract process rules).Rely i s t) : seen i x t.2 := by
  refine (h.stable (P := fun u => Within process seen i u ∧ seen i x u.2) ?_ ⟨hw, hx⟩).2
  rintro u v ⟨hwu, hxu⟩ - step
  refine ⟨within_other observed hwu step, ?_⟩
  obtain ⟨j, -, ⟨e, r, hstep⟩, -⟩ := step
  rw [hstep.2.2]
  exact observed.keeps hstep.2.1 hwu.1 hxu

theorem refusalSeen_rely {s t : Shared P ι × γ} {now : Instant} {amount : Nat}
    {r : Except String (Except BudgetRefusal ReservationId)} (hw : Within process seen i s)
    (h : RefusalSeen seen i now amount r s.2) (rely : (mirrorContract process rules).Rely i s t) :
    RefusalSeen seen i now amount r t.2 := by
  refine ⟨fun current cap hr => ?_, fun current cap hr => ?_⟩
  · obtain ⟨x, hx, hcap⟩ := h.1 current cap hr
    exact ⟨x, seen_rely observed hw hx rely, hcap⟩
  · obtain ⟨x, hx, hcap⟩ := h.2 current cap hr
    exact ⟨x, seen_rely observed hw hx rely, hcap⟩

theorem refusalSeen_step {s t : Shared P ι × γ} {e : Request P} {a : e.Answer} {now : Instant}
    {amount : Nat} {r : Except String (Except BudgetRefusal ReservationId)}
    (hw : Within process seen i s) (h : RefusalSeen seen i now amount r s.2)
    (hstep : env process rules s i e a t) : RefusalSeen seen i now amount r t.2 := by
  refine ⟨fun current cap hr => ?_, fun current cap hr => ?_⟩
  · obtain ⟨x, hx, hcap⟩ := h.1 current cap hr
    rw [hstep.2.2]
    exact ⟨x, observed.keeps hstep.2.1 hw.1 hx, hcap⟩
  · obtain ⟨x, hx, hcap⟩ := h.2 current cap hr
    rw [hstep.2.2]
    exact ⟨x, observed.keeps hstep.2.1 hw.1 hx, hcap⟩

theorem since_steady (version : Option Version) (holds : Holds) :
    Steady process rules AllMirror (fun _ _ _ => True) i
      (fun s => Within process seen i s ∧ Since version holds s.1) where
  others := by
    rintro s t ⟨hw, hsince⟩ - step
    refine ⟨within_other observed hw step, ?_⟩
    obtain ⟨j, -, ⟨e, r, hstep⟩, -⟩ := step
    exact hsince.change hstep.1.change
  reading := by
    rintro s next r t hinv ⟨hw, hsince⟩ hstep
    obtain ⟨hinvt, hextra, hwt⟩ := (within_steady observed).reading s next r t hinv hw hstep
    exact ⟨hinvt, hextra, hwt, hsince.change hstep.1.change⟩

omit observed in
theorem gone_rely {s t : Shared P ι × γ} {version : Option Version}
    (changed : s.1.version ≠ version) (past : ∀ n, version = some n → n < s.1.nextVersion)
    (h : (mirrorContract process rules).Rely i s t) : t.1.version ≠ version := by
  refine (h.stable (P := fun u => u.1.version ≠ version ∧ ∀ n, version = some n →
    n < u.1.nextVersion) ?_ ⟨changed, past⟩).1
  rintro u v ⟨hchanged, hpast⟩ - ⟨j, -, ⟨e, r, hstep⟩, -⟩
  exact gone_change hstep.1.change hchanged hpast

/-- One request of a call that keeps the mirror. -/
theorem plain_ask_bind {α β : Type} {post : Except String β → PaymentLedger → Shared P ι × γ → Prop}
    {e : Request P} (hplain : Plain e) {g : e.Answer → Except String α} {f : α → Op P β}
    {m : PaymentLedger} {s : Shared P ι × γ} (hm : Mirrors m s.1.stream)
    (hw : Within process seen i s)
    (h : ∀ t r u, (mirrorContract process rules).Rely i s t → Within process seen i t →
      env process rules t i e r u → AllMirror u → Mirrors m u.1.stream →
      Within process seen i u → match g r with
        | .ok a => Meets (env process rules) (mirrorContract process rules) i post (f a) m u
        | .error text => ∀ v, (mirrorContract process rules).Rely i u v → post (.error text) m v) :
    Meets (env process rules) (mirrorContract process rules) i post (Method.ask e g >>= f) m s := by
  refine meets_ask_bind fun t ht hinvt r u hu => ?_
  have hinvu := allMirror_step hinvt hu hplain
  have hwt := within_rely observed hw ht
  have hnext := h t r u ht hwt hu hinvu ((mirrors_rely hm ht).grow hu.1.change.stream)
    (within_step observed hwt hu hplain)
  refine ⟨hinvu, ⟨⟨_, _, hu⟩, trivial⟩, ?_⟩
  cases hg : g r with
  | ok a =>
    rw [hg] at hnext
    exact hnext
  | error text =>
    rw [hg] at hnext
    exact fun v hv _ => hnext v hv

/-- The loop keeps the mirror and refuses only what it has seen to be too much. -/
theorem reserveLoop_meets (rounds : Nat) (now : Instant) (amount attempts : Nat) :
    ∀ {m : PaymentLedger} {s : Shared P ι × γ}, AllMirror s → Mirrors m s.1.stream →
      Within process seen i s →
      Meets (env process rules) (mirrorContract process rules) i
        (fun r m' t => Kept process seen i r m' t ∧ RefusalSeen seen i now amount r t.2)
        (reserveLoop rounds now amount attempts) m s := by
  induction attempts with
  | zero =>
    intro m s hinv hm hw
    exact fun v hv _ => ⟨kept_rely observed ⟨hm, hw⟩ hv, refusalSeen_error⟩
  | succ attempts ih =>
    intro m s hinv hm hw
    rw [reserveLoop]
    -- the document is read first
    refine plain_ask_bind observed (e := .loadHolds) trivial hm hw ?_
    intro t found u _ _ hu hinvu hmu hwu
    cases found with
    | error text => exact fun v hv => ⟨kept_rely observed (r := .ok ()) ⟨hmu, hwu⟩ hv,
        refusalSeen_error⟩
    | ok found =>
    obtain ⟨rfl, hsame⟩ := hu.1
    have hsince : Since t.1.version t.1.holds u.1 := by
      rw [hsame]
      exact since_read t.1
    -- then the stream, to its end
    refine meets_bind hinvu (refreshRecords_meets ((since_steady observed _ _).withPrefix
      u.1.stream) rounds hinvu ⟨⟨hwu, hsince⟩, List.prefix_rfl⟩ hmu.reached) ?_ ?_
    · rintro _ m' v hinvv ⟨x, -, ⟨⟨hwx, hsincex⟩, hgrown⟩, hrely, -, rfl⟩
      have hmx : Mirrors (caughtUp m x.1.stream) x.1.stream := (hmu.grow hgrown).caughtUp
      refine meets_update_bind (meets_self_bind ?_)
      have hmv : Mirrors { caughtUp m x.1.stream with
          holds := liveHolds now.millis (caughtUp m x.1.stream).committedHolds t.1.holds }
          v.1.stream :=
        (mirrors_rely hmx hrely).of_same rfl rfl rfl
      have hwv := within_rely observed hwx hrely
      cases hcheck : (PaymentLedger.checkBudgetAt { caughtUp m x.1.stream with
          holds := liveHolds now.millis (caughtUp m x.1.stream).committedHolds t.1.holds }
          now amount).refusal with
      | some refusal =>
        refine plain_ask_bind observed (e := .loadHolds) trivial hmv hwv ?_
        intro y again z hy hwy hz hinvz hmz hwz
        cases again with
        | error text => exact fun w hw => ⟨kept_rely observed (r := .ok ()) ⟨hmz, hwz⟩ hw,
            refusalSeen_error⟩
        | ok again =>
        obtain ⟨rfl, -⟩ := hz.1
        by_cases hcurrent : y.1.version = t.1.version
        · simp only [id, hcurrent, if_true]
          have hstill : x.1.holds = t.1.holds := by
            cases hsincex with
            | same _ unchanged => exact unchanged
            | gone changed past =>
              exact absurd hcurrent (gone_rely changed past (hrely.trans hy))
          have hrefusal : RefusalSeen seen i now amount (.ok (.error refusal)) x.2 := by
            refine checked_refusal hmx rfl ?_ hwx.2
            rw [hstill]
            exact hcheck
          have hlater := refusalSeen_step observed hwy
            (refusalSeen_rely observed hwx hrefusal (hrely.trans hy)) hz
          exact fun w hw _ => ⟨kept_rely observed (r := .ok ()) ⟨hmz, hwz⟩ hw,
            refusalSeen_rely observed hwz hlater hw⟩
        · simp only [id, hcurrent, if_false]
          exact ih hinvz hmz hwz
      | none =>
        refine plain_ask_bind observed (e := .nextReservation) trivial hmv hwv ?_
        intro y id z _ _ _ hinvz hmz hwz
        refine plain_ask_bind observed (e := .storeHolds _ _) trivial hmz hwz ?_
        intro y' stored z' _ _ _ hinvz' hmz' hwz'
        cases stored with
        | error text => exact fun w hw => ⟨kept_rely observed (r := .ok ()) ⟨hmz', hwz'⟩ hw,
            refusalSeen_error⟩
        | ok stored =>
          cases stored with
          | true =>
            exact fun w hw _ => ⟨kept_rely observed (r := .ok ())
              ⟨hmz'.of_same rfl rfl rfl, hwz'⟩ hw, refusalSeen_granted⟩
          | false => exact ih hinvz' hmz' hwz'
    · rintro text m' v - ⟨x, -, ⟨⟨hwx, -⟩, hgrown⟩, hrely, rfl, -⟩ y hy -
      exact ⟨kept_rely observed (r := .ok ()) ⟨hmu.grow hgrown, hwx⟩ (hrely.trans hy),
        refusalSeen_error⟩

theorem reserveAt_meets (rounds : Nat) (now : Instant) (amount : Nat) {m : PaymentLedger}
    {s : Shared P ι × γ} (hinv : AllMirror s) (hm : Mirrors m s.1.stream)
    (hw : Within process seen i s) :
    Meets (env process rules) (mirrorContract process rules) i
      (fun r m' t => Kept process seen i r m' t ∧ RefusalSeen seen i now amount r t.2)
      (LedgerStore.reserveAt rounds now amount) m s := by
  refine meets_self_bind ?_
  by_cases hlarge : m.budget.perRequestMaxAtomic < amount
  · simp only [if_pos hlarge]
    exact fun v hv _ => ⟨kept_rely observed (r := .ok ()) ⟨hm, hw⟩ hv, refusalSeen_perRequest⟩
  · simp only [if_neg hlarge]
    exact reserveLoop_meets observed rounds now amount holdCasAttempts hinv hm hw

/-- What a reservation may answer; other calls are free. -/
def Justified (seen : ι → Shared P ι → γ → Prop) (i : ι) (call : Call)
    (r : Except String Outcome) (g : γ) : Prop :=
  ∀ now amount result, call = .reserveAt now amount → r = .ok (.reserved result) →
    RefusalSeen seen i now amount (.ok result) g

omit observed in
theorem meets_unjustified {call : Call} (hother : ∀ now amount, call ≠ .reserveAt now amount)
    {method : Op P Outcome} (h : Keeps process rules seen i method) {m : PaymentLedger}
    {s : Shared P ι × γ} (hinv : AllMirror s) (hm : Mirrors m s.1.stream)
    (hw : Within process seen i s) :
    Meets (env process rules) (mirrorContract process rules) i
      (fun r m' t => Kept process seen i r m' t ∧ Justified seen i call r t.2) method m s :=
  meets_mono (fun _ _ _ _ hkept =>
    ⟨hkept, fun _ _ _ hreserve => absurd hreserve (hother _ _)⟩) (h m s hinv hm hw)

theorem call_meets (rounds : Nat) (call : Call)
    (hdurable : call.Unsaved → Durable rules i) {m : PaymentLedger}
    {s : Shared P ι × γ} (hinv : AllMirror s) (hm : Mirrors m s.1.stream)
    (hw : Within process seen i s) :
    Meets (env process rules) (mirrorContract process rules) i
      (fun r m' t => Kept process seen i r m' t ∧ Justified seen i call r t.2)
      (call.method rounds) m s := by
  cases call with
  | reserveAt now amount =>
    refine meets_bind hinv (reserveAt_meets observed rounds now amount hinv hm hw) ?_ ?_
    · rintro result m' t - ⟨hkept, hseen⟩ u hu -
      refine ⟨kept_rely observed (r := .ok ()) hkept hu, ?_⟩
      rintro now' amount' result' hcall hresult
      cases hcall
      cases hresult
      exact refusalSeen_rely observed hkept.2 hseen hu
    · rintro text m' t - ⟨hkept, -⟩ u hu -
      exact ⟨kept_rely observed (r := .ok ()) hkept hu, fun _ _ _ _ => nofun⟩
  | openLedger generation owner sessionId budget =>
    exact meets_unjustified (by simp)
      (keeps_outcome observed (keeps_openLedger observed rounds _ _ _ _) _) hinv hm hw
  | release id =>
    exact meets_unjustified (by simp) (keeps_outcome observed (keeps_release observed id) _)
      hinv hm hw
  | renewHoldsAt now =>
    exact meets_unjustified (by simp)
      (keeps_outcome observed (keeps_renewHoldsAt observed now) _) hinv hm hw
  | commitReservation id record =>
    exact meets_unjustified (by simp)
      (keeps_outcome observed
        (keeps_commitReservation observed (hdurable trivial) rounds id record) _)
      hinv hm hw
  | tryCommitReservation id record =>
    exact meets_unjustified (by simp)
      (keeps_outcome observed (keeps_tryCommitReservation observed rounds id record) _) hinv hm hw
  | tryRecordPayment record =>
    exact meets_unjustified (by simp)
      (keeps_outcome observed (keeps_appendRecord observed rounds record none) _) hinv hm hw
  | recordPayment record =>
    exact meets_unjustified (by simp)
      (keeps_outcome observed (keeps_recordPayment observed (hdurable trivial) rounds record) _)
      hinv hm hw
  | observeSolanaExpiry evidence =>
    exact meets_unjustified (by simp)
      (keeps_outcome observed (keeps_observeSolanaExpiry observed rounds evidence) _) hinv hm hw

end Loop

variable [DecidableEq ι]

/-- No storage call fails. For each call, the states from its taking of the
ledger on are noted until it gives the ledger back. -/
def watched (process : ι → P) : Rules P ι (ι → List (Shared P ι)) where
  permits := fun _ _ _ e r _ => Succeeded e r
  note := fun seen s _ _ _ t j =>
    if t.holder (process j) = some j then
      if s.holder (process j) = some j then t :: seen j else [t]
    else seen j

omit [DecidableEq P] in
theorem watched_observed (process : ι → P) :
    Observed process (watched process) (fun _ _ => True) fun j x seen => x ∈ seen j where
  starts := fun _ => trivial
  others := fun _ _ _ => trivial
  reading := fun _ _ => trivial
  rereads := fun h => h.elim
  refused := fun h => h.elim
  sees := by
    rintro s g i j e r t - hinside
    by_cases hbefore : s.holder (process i) = some i
    · simp [watched, hinside, hbefore]
    · simp [watched, hinside, hbefore]
  keeps := by
    rintro s g i j e r t x - hinside hx
    by_cases hafter : t.holder (process i) = some i
    · simp [watched, hinside, hafter, hx]
    · simp [watched, hafter, hx]
  rests := by
    rintro s g i j e r t x - houtside hx
    simp [watched, houtside, hx]

/-- However the calls on any ledgers interleave, a reservation is refused for
the day or the month only if, at some instant between its call and its return,
the true total and the amount exceeded that cap. -/
theorem refusal_is_justified (process : ι → P) (rounds : Nat) (calls : ι → Call)
    {start : Shared P ι} (mirrors : ∀ p, Mirrors (start.memory p) start.stream)
    {config : Config (Shared P ι × (ι → List (Shared P ι))) ι (Request P) Request.Answer Empty
      (Except String Outcome)}
    (reach : Reachable (env process (watched process)) (start, fun _ => [])
      (fun i => (calls i).program rounds (process i)) config)
    {i : ι} {now : Instant} {amount : Nat} (hcall : calls i = .reserveAt now amount) :
    (∀ current cap, config.program i = .pure (.ok (.reserved (.error (.daily current cap)))) →
      ∃ instant ∈ config.shared.2 i,
        cap < trueTotal (chargedDaily now) now.millis instant + amount) ∧
    (∀ current cap, config.program i = .pure (.ok (.reserved (.error (.monthly current cap)))) →
      ∃ instant ∈ config.shared.2 i,
        cap < trueTotal (chargedMonthly now) now.millis instant + amount) := by
  have observed := watched_observed process
  have hdurable : ∀ j, Durable (watched process) j := fun _ _ _ _ _ _ h => h
  have hsafe : ∀ j, Safe (env process (watched process)) (mirrorContract process (watched process))
      j (fun r t => Justified (fun j x seen => x ∈ seen j) j (calls j) r t.2)
      ((calls j).program rounds (process j)) (start, fun _ => []) := by
    intro j
    refine withLedger_safe observed (fun m s hinv hm hw =>
      call_meets observed rounds (calls j) (fun _ => hdurable j) hinv hm hw) ?_
    rintro r s g k e a t hpermits hwhen hjustified now' amount' result hreserve hr
    have hkeep : ∀ x, x ∈ g j → x ∈ (watched process).note g s k e a t j := by
      intro x hx
      rcases hwhen with hinside | houtside
      · exact observed.keeps hpermits hinside hx
      · exact observed.rests hpermits houtside hx
    have hseen := hjustified now' amount' result hreserve hr
    refine ⟨fun current cap h => ?_, fun current cap h => ?_⟩
    · obtain ⟨x, hx, hcap⟩ := hseen.1 current cap h
      exact ⟨x, hkeep x hx, hcap⟩
    · obtain ⟨x, hx, hcap⟩ := hseen.2 current cap h
      exact ⟨x, hkeep x hx, hcap⟩
  have hends := fun r (h : config.program i = .pure r) => reachable_ends mirrors hsafe reach h
  constructor
  · intro current cap h
    exact (hends _ h now amount _ hcall rfl).1 current cap rfl
  · intro current cap h
    exact (hends _ h now amount _ hcall rfl).2 current cap rfl

/-- Two ledgers under a daily cap of 6. Ledger `true` has found room for three units and drawn a
number when ledger `false` reserves four, so that it has to look again. -/
def sampleProcess (i : Bool) : Bool := i

def sampleCalls : Bool → Call
  | false => .reserveAt sampleNow 4
  | true => .reserveAt sampleNow 3

def sampleStart : Shared Bool Bool × (Bool → List (Shared Bool Bool)) :=
  (sampleShared (fun p => if p then "a" else "b") [], fun _ => [])

def sampleTurns : List (Bool × Nat) := [(true, 4), (false, 9), (true, 9)]

def sampleRun :=
  schedule (responding sampleProcess (watched sampleProcess) fun _ => false) sampleTurns sampleStart
    fun i => (sampleCalls i).program 4 (sampleProcess i)

theorem sample_refusal_is_justified :
    ∃ config, Reachable (env sampleProcess (watched sampleProcess)) sampleStart
        (fun i => (sampleCalls i).program 4 (sampleProcess i)) config ∧
      config.program false = .pure (.ok (.reserved (.ok 1))) ∧
      config.program true = .pure (.ok (.reserved (.error (.daily 4 6)))) ∧
      ∃ instant ∈ config.shared.2 true,
        6 < trueTotal (chargedDaily sampleNow) sampleNow.millis instant + 3 := by
  obtain ⟨config, hreach, -, hprogram⟩ := Reachable.schedule
    (fun i s e r t h => @responding_env Bool Bool _ _ _ sampleProcess (watched sampleProcess) _ i s
      t e r (fun r t hr => respond_succeeded hr) h) sampleTurns .refl
  have hended : config.program = sampleRun.2 := hprogram
  have hgranted : (sampleRun.2 false).value? = some (.ok (.reserved (.ok 1))) := by decide +kernel
  have hrefused : (sampleRun.2 true).value? = some (.ok (.reserved (.error (.daily 4 6)))) := by
    decide +kernel
  have hend : config.program true = .pure (.ok (.reserved (.error (.daily 4 6)))) := by
    rw [hended]
    exact Prog.eq_pure_of_value? hrefused
  refine ⟨config, hreach, ?_, hend, ?_⟩
  · rw [hended]
    exact Prog.eq_pure_of_value? hgranted
  · exact (refusal_is_justified sampleProcess 4 sampleCalls (fun _ => sampleLedger_mirrors _ _)
      hreach rfl).1 4 6 hend

end LedgerRefusals
