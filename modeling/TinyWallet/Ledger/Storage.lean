import TinyWallet.Ledger.Store

/-!
# The storage that ledgers share

One hold document and one payments stream, with the processes' ledgers and the
mutexes around them. Every storage call is atomic; a put of the hold document
succeeds when the given version still matches, versions never repeat, and an
append gives the next offset. A call may also fail: a read changes nothing
then, a write may have taken effect or not.

Rules narrow what may happen to what a statement assumes and keep notes of
what has happened, so that a statement can speak of the past.
-/

namespace LedgerStorage

open Programs Sharing Tables LedgerRecords LedgerStore

variable {P ι γ : Type}

structure Shared (P ι : Type) where
  doc : Option (Version × Holds)
  nextVersion : Version
  unused : ∀ found, doc = some found → found.1 < nextVersion
  stream : List (Option StoredPayment)
  memory : P → PaymentLedger
  holder : P → Option ι
  /-- The least reservation id each process has not used. -/
  ids : P → ReservationId
  clock : Instant

def Shared.version (s : Shared P ι) : Option Version := s.doc.map Prod.fst

def Shared.holds (s : Shared P ι) : Holds := (s.doc.map Prod.snd).getD ∅

/-- The hold document rewritten. -/
def Shared.put (s : Shared P ι) (holds : Holds) : Shared P ι :=
  { s with
    doc := some (s.nextVersion, holds)
    nextVersion := s.nextVersion + 1
    unused := fun found h => by
      cases h
      exact Nat.lt_succ_self _ }

def Shared.appended (s : Shared P ι) (value : StoredPayment) : Shared P ι :=
  { s with stream := s.stream ++ [some value] }

/-- The window of a stream that starts at an offset. -/
def windowAt (stream : List (Option StoredPayment)) (next : Nat) : List StreamEntry :=
  (((stream.drop next).take windowSize).zipIdx next).map fun entry => ⟨entry.2, entry.1⟩

variable [DecidableEq P]

def Shared.locked (s : Shared P ι) (p : P) (i : ι) : Shared P ι :=
  { s with holder := Function.update s.holder p (some i) }

def Shared.unlocked (s : Shared P ι) (p : P) (ledger : PaymentLedger) : Shared P ι :=
  { s with
    holder := Function.update s.holder p none
    memory := Function.update s.memory p ledger }

def Shared.numbered (s : Shared P ι) (p : P) (id : ReservationId) : Shared P ι :=
  { s with ids := Function.update s.ids p (id + 1) }

/-- How call `i` of process `process i` may be answered, and what is left then. -/
def Answers (process : ι → P) (s : Shared P ι) (i : ι) :
    (e : Request P) → e.Answer → Shared P ι → Prop
  | .lock p, ledger, t => s.holder p = none ∧ ledger = s.memory p ∧ t = s.locked p i
  | .unlock p ledger, _, t => s.holder p = some i ∧ t = s.unlocked p ledger
  | .loadHolds, .ok found, t => found = (s.version, s.holds) ∧ t = s
  | .loadHolds, .error _, t => t = s
  | .storeHolds version holds, .ok stored, t =>
    (stored = true ∧ s.version = version ∧ t = s.put holds) ∨
      (stored = false ∧ s.version ≠ version ∧ t = s)
  | .storeHolds version holds, .error _, t => t = s ∨ (s.version = version ∧ t = s.put holds)
  | .readWindow next, .ok window, t => window = windowAt s.stream next ∧ t = s
  | .readWindow _, .error _, t => t = s
  | .append value, .ok offset, t => offset = s.stream.length ∧ t = s.appended value
  | .append value, .error _, t => t = s ∨ t = s.appended value
  | .nextReservation, (id : Nat), t => s.ids (process i) ≤ id ∧ t = s.numbered (process i) id
  | .utcNow, (now : Instant), t => s.clock.nanos ≤ now.nanos ∧ t = { s with clock := now }
  | .finalizedSolanaBlockHeight, _, t => t = s
  | .stall, r, _ => r.elim

/-- Which answers a statement admits, and the notes it keeps. -/
structure Rules (P ι γ : Type) where
  permits : Shared P ι → γ → ι → (e : Request P) → e.Answer → Shared P ι → Prop
  note : γ → Shared P ι → ι → (e : Request P) → e.Answer → Shared P ι → γ

def env (process : ι → P) (rules : Rules P ι γ) (s : Shared P ι × γ) (i : ι) (e : Request P)
    (r : e.Answer) (t : Shared P ι × γ) : Prop :=
  Answers process s.1 i e r t.1 ∧ rules.permits s.1 s.2 i e r t.1 ∧
    t.2 = rules.note s.2 s.1 i e r t.1

/-- Every answer that storage can give. -/
def unrestricted : Rules P ι Unit where
  permits := fun _ _ _ _ _ _ => True
  note := fun _ _ _ _ _ _ => ()

/-- Every request a call makes is answered by the rules; `inv` and `extra` are
what a statement adds. -/
def contract (process : ι → P) (rules : Rules P ι γ) (inv : Shared P ι × γ → Prop)
    (extra : ι → Shared P ι × γ → Shared P ι × γ → Prop) : Contract (Shared P ι × γ) ι where
  inv := inv
  guar := fun i s t => (∃ e r, env process rules s i e r t) ∧ extra i s t

section Steps

variable {process : ι → P} {s t : Shared P ι} {i : ι}

/-- Requests made while a ledger is in use. -/
def Plain : Request P → Prop
  | .lock _ => False
  | .unlock _ _ => False
  | _ => True

/-- What a request can leave behind. -/
inductive Change (process : ι → P) (s : Shared P ι) (i : ι) : Request P → Shared P ι → Prop
  | nothing (e : Request P) : Change process s i e s
  | lock (p : P) (free : s.holder p = none) : Change process s i (.lock p) (s.locked p i)
  | unlock (p : P) (ledger : PaymentLedger) (mine : s.holder p = some i) :
      Change process s i (.unlock p ledger) (s.unlocked p ledger)
  | put (holds : Holds) : Change process s i (.storeHolds s.version holds) (s.put holds)
  | append (value : StoredPayment) : Change process s i (.append value) (s.appended value)
  | number (id : ReservationId) (fresh : s.ids (process i) ≤ id) :
      Change process s i .nextReservation (s.numbered (process i) id)
  | tick (now : Instant) (later : s.clock.nanos ≤ now.nanos) :
      Change process s i .utcNow { s with clock := now }

theorem Answers.change {e : Request P} {r : e.Answer} (h : Answers process s i e r t) :
    Change process s i e t := by
  cases e with
  | lock p =>
    obtain ⟨free, -, rfl⟩ := h
    exact .lock p free
  | unlock p ledger =>
    obtain ⟨mine, rfl⟩ := h
    exact .unlock p ledger mine
  | loadHolds =>
    cases r with
    | error e =>
      rw [show t = s from h]
      exact .nothing _
    | ok found =>
      rw [h.2]
      exact .nothing _
  | storeHolds version holds =>
    cases r with
    | error e =>
      rcases h with rfl | ⟨rfl, rfl⟩
      · exact .nothing _
      · exact .put holds
    | ok stored =>
      rcases h with ⟨-, rfl, rfl⟩ | ⟨-, -, rfl⟩
      · exact .put holds
      · exact .nothing _
  | readWindow next =>
    cases r with
    | error e =>
      rw [show t = s from h]
      exact .nothing _
    | ok window =>
      rw [h.2]
      exact .nothing _
  | append value =>
    cases r with
    | error e =>
      rcases h with rfl | rfl
      · exact .nothing _
      · exact .append value
    | ok offset =>
      rw [h.2]
      exact .append value
  | nextReservation =>
    rw [h.2]
    exact .number r h.1
  | utcNow =>
    rw [h.2]
    exact .tick r h.1
  | finalizedSolanaBlockHeight =>
    rw [show t = s from h]
    exact .nothing _
  | stall => exact r.elim

theorem Change.stream {e : Request P} (h : Change process s i e t) : s.stream <+: t.stream := by
  cases h with
  | append value => exact List.prefix_append _ _
  | nothing | lock | unlock | put | number | tick => exact List.prefix_rfl

theorem Change.ids {e : Request P} (h : Change process s i e t) (p : P) : s.ids p ≤ t.ids p := by
  cases h with
  | number id fresh =>
    by_cases hp : p = process i
    · subst hp
      simpa [Shared.numbered] using Nat.le_succ_of_le fresh
    · simp [Shared.numbered, hp]
  | nothing | lock | unlock | put | append | tick => exact le_refl _

/-- The hold document stays, or is rewritten under a new version. -/
theorem Change.doc {e : Request P} (h : Change process s i e t) :
    (t.doc = s.doc ∧ t.nextVersion = s.nextVersion) ∨ ∃ holds, t = s.put holds := by
  cases h with
  | put holds => exact .inr ⟨holds, rfl⟩
  | nothing | lock | unlock | append | number | tick => exact .inl ⟨rfl, rfl⟩

/-- A ledger in use stays with the call that uses it. -/
theorem Change.held {e : Request P} (h : Change process s i e t) {p : P} {j : ι} (hj : j ≠ i)
    (held : s.holder p = some j) : t.holder p = some j ∧ t.memory p = s.memory p := by
  cases h with
  | lock q free =>
    have hpq : p ≠ q := by
      rintro rfl
      simp [free] at held
    exact ⟨by simp [Shared.locked, hpq, held], rfl⟩
  | unlock q ledger mine =>
    have hpq : p ≠ q := by
      rintro rfl
      rw [mine] at held
      exact hj (Option.some.inj held).symm
    exact ⟨by simp [Shared.unlocked, hpq, held], by simp [Shared.unlocked, hpq]⟩
  | nothing | put | append | number | tick => exact ⟨held, rfl⟩

/-- Nobody takes a ledger for another call. -/
theorem Change.notTaken {e : Request P} (h : Change process s i e t) {p : P} {j : ι} (hj : j ≠ i)
    (outside : s.holder p ≠ some j) : t.holder p ≠ some j := by
  cases h with
  | lock q free =>
    by_cases hpq : p = q
    · subst hpq
      simpa [Shared.locked] using hj.symm
    · simpa [Shared.locked, hpq] using outside
  | unlock q ledger mine =>
    by_cases hpq : p = q
    · subst hpq
      simp [Shared.unlocked]
    · simpa [Shared.unlocked, hpq] using outside
  | nothing | put | append | number | tick => exact outside

/-- A request that neither takes nor gives back a ledger leaves both the ledgers
and the mutexes alone. -/
theorem Change.plain {e : Request P} (h : Change process s i e t) (hplain : Plain e) :
    t.memory = s.memory ∧ t.holder = s.holder := by
  cases h with
  | lock p free => exact hplain.elim
  | unlock p ledger mine => exact hplain.elim
  | nothing | put | append | number | tick => exact ⟨rfl, rfl⟩

/-- The hold document is the one read at `version`, or it never will be again. -/
inductive Since (version : Option Version) (holds : Holds) (s : Shared P ι) : Prop
  | same (current : s.version = version) (unchanged : s.holds = holds)
  | gone (changed : s.version ≠ version) (past : ∀ n, version = some n → n < s.nextVersion)

omit [DecidableEq P] in
theorem since_read (s : Shared P ι) : Since s.version s.holds s := .same rfl rfl

omit [DecidableEq P] in
theorem version_unused {s : Shared P ι} {n : Version} (h : s.version = some n) :
    n < s.nextVersion := by
  obtain ⟨found, hfound, rfl⟩ := Option.map_eq_some_iff.mp h
  exact s.unused found hfound

omit [DecidableEq P] in
theorem put_version (s : Shared P ι) (holds : Holds) : (s.put holds).version = some s.nextVersion :=
  rfl

theorem gone_change {version : Option Version} {e : Request P} (h : Change process s i e t)
    (changed : s.version ≠ version) (past : ∀ n, version = some n → n < s.nextVersion) :
    t.version ≠ version ∧ ∀ n, version = some n → n < t.nextVersion := by
  rcases h.doc with ⟨hdoc, hnext⟩ | ⟨holds, rfl⟩
  · refine ⟨?_, fun n hn => ?_⟩
    · simpa [Shared.version, hdoc] using changed
    · rw [hnext]
      exact past n hn
  · refine ⟨fun hsame => ?_, fun n hn => Nat.lt_succ_of_lt (past n hn)⟩
    have := past _ hsame.symm
    exact Nat.lt_irrefl _ this

theorem Since.change {version : Option Version} {holds : Holds} {e : Request P}
    (hs : Since version holds s) (h : Change process s i e t) : Since version holds t := by
  cases hs with
  | same current unchanged =>
    rcases h.doc with ⟨hdoc, hnext⟩ | ⟨holds', rfl⟩
    · refine .same ?_ ?_
      · simpa [Shared.version, hdoc] using current
      · simpa [Shared.holds, hdoc] using unchanged
    · have hpast : ∀ n, version = some n → n < s.nextVersion := fun n hn =>
        version_unused (current.trans hn)
      refine .gone ?_ fun n hn => Nat.lt_succ_of_lt (hpast n hn)
      intro hsame
      exact Nat.lt_irrefl _ (hpast _ hsame.symm)
  | gone changed past =>
    obtain ⟨changed', past'⟩ := gone_change h changed past
    exact .gone changed' past'

end Steps

omit [DecidableEq P] in
/-- No storage call fails. -/
def Succeeded : (e : Request P) → e.Answer → Prop
  | .loadHolds, .error _ => False
  | .storeHolds _ _, .error _ => False
  | .readWindow _, .error _ => False
  | .append _, .error _ => False
  | _, _ => True

/-- The answer to a request when the calls chosen by `faulty` fail without any
effect; `none` where the caller has to wait. -/
def respond [DecidableEq ι] (process : ι → P) (faulty : Request P → Bool) (i : ι)
    (s : Shared P ι) : (e : Request P) → Option (e.Answer × Shared P ι)
  | .lock p => if s.holder p = none then some (s.memory p, s.locked p i) else none
  | .unlock p ledger => if s.holder p = some i then some ((), s.unlocked p ledger) else none
  | .loadHolds =>
    if faulty .loadHolds then some (.error "unavailable", s)
    else some (.ok (s.version, s.holds), s)
  | .storeHolds version holds =>
    if faulty (.storeHolds version holds) then some (.error "unavailable", s)
    else if s.version = version then some (.ok true, s.put holds)
    else some (.ok false, s)
  | .readWindow next =>
    if faulty (.readWindow next) then some (.error "unavailable", s)
    else some (.ok (windowAt s.stream next), s)
  | .append value =>
    if faulty (.append value) then some (.error "unavailable", s)
    else some (.ok s.stream.length, s.appended value)
  | .nextReservation => some (s.ids (process i), s.numbered (process i) (s.ids (process i)))
  | .utcNow => some (s.clock, s)
  | .finalizedSolanaBlockHeight => some (none, s)
  | .stall => none

theorem respond_answers [DecidableEq ι] {process : ι → P} {faulty : Request P → Bool} {i : ι}
    {s t : Shared P ι} {e : Request P} {r : e.Answer}
    (h : respond process faulty i s e = some (r, t)) : Answers process s i e r t := by
  cases e with
  | lock p =>
    by_cases hfree : s.holder p = none
    · simp only [respond, hfree, if_true, Option.some.injEq, Prod.mk.injEq] at h
      exact ⟨hfree, h.1.symm, h.2.symm⟩
    · simp [respond, hfree] at h
  | unlock p ledger =>
    by_cases hmine : s.holder p = some i
    · simp only [respond, hmine, if_true, Option.some.injEq, Prod.mk.injEq] at h
      exact ⟨hmine, h.2.symm⟩
    · simp [respond, hmine] at h
  | loadHolds =>
    by_cases hfault : faulty .loadHolds = true
    · simp only [respond, hfault, if_true] at h
      cases h
      exact rfl
    · simp only [respond, hfault] at h
      cases h
      exact ⟨rfl, rfl⟩
  | storeHolds version holds =>
    by_cases hfault : faulty (.storeHolds version holds) = true
    · simp only [respond, hfault, if_true] at h
      cases h
      exact .inl rfl
    · by_cases hversion : s.version = version
      · simp only [respond, hfault, hversion, if_true] at h
        cases h
        exact .inl ⟨rfl, hversion, rfl⟩
      · simp only [respond, hfault, hversion, if_false] at h
        cases h
        exact .inr ⟨rfl, hversion, rfl⟩
  | readWindow next =>
    by_cases hfault : faulty (.readWindow next) = true
    · simp only [respond, hfault, if_true] at h
      cases h
      exact rfl
    · simp only [respond, hfault] at h
      cases h
      exact ⟨rfl, rfl⟩
  | append value =>
    by_cases hfault : faulty (.append value) = true
    · simp only [respond, hfault, if_true] at h
      cases h
      exact .inl rfl
    · simp only [respond, hfault] at h
      cases h
      exact ⟨rfl, rfl⟩
  | nextReservation =>
    cases h
    exact ⟨le_refl _, rfl⟩
  | utcNow =>
    cases h
    exact ⟨le_refl _, rfl⟩
  | finalizedSolanaBlockHeight =>
    cases h
    exact rfl
  | stall => cases h

/-- Calls that run by `respond`, in a world that keeps notes. -/
def responding [DecidableEq ι] (process : ι → P) (rules : Rules P ι γ) (faulty : Request P → Bool)
    (i : ι) (s : Shared P ι × γ) (e : Request P) : Option (e.Answer × (Shared P ι × γ)) :=
  (respond process faulty i s.1 e).map fun reply =>
    (reply.1, (reply.2, rules.note s.2 s.1 i e reply.1 reply.2))

theorem responding_env [DecidableEq ι] {process : ι → P} {rules : Rules P ι γ}
    {faulty : Request P → Bool} {i : ι} {s t : Shared P ι × γ} {e : Request P} {r : e.Answer}
    (permitted : ∀ r t, respond process faulty i s.1 e = some (r, t) →
      rules.permits s.1 s.2 i e r t)
    (h : responding process rules faulty i s e = some (r, t)) : env process rules s i e r t := by
  obtain ⟨reply, hreply, heq⟩ := Option.map_eq_some_iff.mp h
  obtain ⟨a, u⟩ := reply
  cases heq
  exact ⟨respond_answers hreply, permitted _ _ hreply, rfl⟩

theorem respond_succeeded [DecidableEq ι] {process : ι → P} {i : ι} {s t : Shared P ι}
    {e : Request P} {r : e.Answer} (h : respond process (fun _ => false) i s e = some (r, t)) :
    Succeeded e r := by
  cases e with
  | storeHolds version holds =>
    by_cases hversion : s.version = version
    · simp only [respond, hversion, if_true] at h
      cases h
      trivial
    · simp only [respond, hversion, if_false] at h
      cases h
      trivial
  | loadHolds | readWindow | append | nextReservation | utcNow | finalizedSolanaBlockHeight =>
    cases h
    trivial
  | lock p => trivial
  | unlock p ledger => trivial
  | stall => cases h

end LedgerStorage
