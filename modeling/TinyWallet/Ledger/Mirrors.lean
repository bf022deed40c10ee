import TinyWallet.Ledger.Calls

/-!
# The memory of a ledger mirrors the stream

A ledger that mirrors the stream holds the records of every entry below its
next offset, in order and once each. Every method keeps that, with any number
of other writers, as long as the re-read after an interleaved append succeeds
and a failed append leaves nothing behind.

The same rules carry the states a call has seen, for statements about an
instant between a call and its return.
-/

namespace LedgerMirrors

open Programs Sharing Tables LedgerRecords LedgerStore LedgerStorage LedgerReading LedgerCalls

variable {P ι γ : Type} [DecidableEq P]

structure Mirrors (ledger : PaymentLedger) (stream : List (Option StoredPayment)) : Prop where
  reached : ledger.nextOffset ≤ stream.length
  records : ledger.records = recordsOf (stream.take ledger.nextOffset)
  committed : ∀ key, key ∈ ledger.committedHolds ↔ key ∈ keysOf (stream.take ledger.nextOffset)

theorem Mirrors.grow {ledger : PaymentLedger} {stream later : List (Option StoredPayment)}
    (h : Mirrors ledger stream) (grown : stream <+: later) : Mirrors ledger later := by
  obtain ⟨more, rfl⟩ := grown
  have htake : (stream ++ more).take ledger.nextOffset = stream.take ledger.nextOffset :=
    List.take_append_of_le_length h.reached
  refine ⟨?_, ?_, ?_⟩
  · rw [List.length_append]
    exact Nat.le_trans h.reached (Nat.le_add_right _ _)
  · rw [htake]
    exact h.records
  · rw [htake]
    exact h.committed

/-- The holds and the reservations of a ledger are no part of the mirror. -/
theorem Mirrors.of_same {ledger ledger' : PaymentLedger} {stream : List (Option StoredPayment)}
    (h : Mirrors ledger stream) (hrecords : ledger'.records = ledger.records)
    (hcommitted : ledger'.committedHolds = ledger.committedHolds)
    (hnext : ledger'.nextOffset = ledger.nextOffset) : Mirrors ledger' stream := by
  refine ⟨?_, ?_, ?_⟩
  · rw [hnext]
    exact h.reached
  · rw [hrecords, hnext]
    exact h.records
  · rw [hcommitted, hnext]
    exact h.committed

theorem sampleLedger_mirrors (owner : String) (stream : List (Option StoredPayment)) :
    Mirrors (sampleLedger owner) stream :=
  ⟨Nat.zero_le _, by simp [sampleLedger, recordsOf], by simp [sampleLedger, keysOf]⟩

theorem recordsOf_complete (stream : List (Option StoredPayment)) (next : Nat) :
    recordsOf (stream.take next) ++ recordsOf (stream.drop next) = recordsOf stream := by
  rw [← recordsOf_append, List.take_append_drop]

theorem keysOf_complete (stream : List (Option StoredPayment)) (next : Nat) :
    keysOf (stream.take next) ++ keysOf (stream.drop next) = keysOf stream := by
  rw [← keysOf_append, List.take_append_drop]

/-- A ledger that has caught up mirrors all of the stream. -/
theorem Mirrors.caughtUp {ledger : PaymentLedger} {stream : List (Option StoredPayment)}
    (h : Mirrors ledger stream) : Mirrors (caughtUp ledger stream) stream := by
  refine ⟨le_refl _, ?_, fun key => ?_⟩
  · rw [show (LedgerReading.caughtUp ledger stream).nextOffset = stream.length from rfl,
      List.take_length, ← recordsOf_complete stream ledger.nextOffset, ← h.records]
    rfl
  · rw [show (LedgerReading.caughtUp ledger stream).nextOffset = stream.length from rfl,
      List.take_length, ← keysOf_complete stream ledger.nextOffset]
    have hkey := h.committed key
    simp only [LedgerReading.caughtUp, PaymentLedger.loaded, List.mem_append] at hkey ⊢
    rw [← hkey, or_comm]
    rfl

theorem parsed_stored (record : PaymentRecord) (key : Option String) :
    parsed (some (storedPayment record.atMillisecondPrecision key)) =
      some (record.atMillisecondPrecision, key) := by
  simp [parsed, intoRecord_storedPayment, Except.toOption]

theorem recordsOf_stored (record : PaymentRecord) (key : Option String) :
    recordsOf [some (storedPayment record.atMillisecondPrecision key)] =
      [record.atMillisecondPrecision] := by
  simp [recordsOf, parsed_stored]

theorem keysOf_stored (record : PaymentRecord) (key : Option String) :
    keysOf [some (storedPayment record.atMillisecondPrecision key)] = key.toList := by
  cases key <;> simp [keysOf, parsed_stored]

/-- Taking in an own entry keeps the mirror, unless the re-read failed. -/
theorem Mirrors.tookIn {failed : Prop} (hfailed : ¬failed) {m m' : PaymentLedger}
    {record : PaymentRecord} {key : Option String} {before now : List (Option StoredPayment)}
    (h : Mirrors m before)
    (entry : before ++ [some (storedPayment record.atMillisecondPrecision key)] <+: now)
    (took : TookIn failed m record.atMillisecondPrecision key before now m') : Mirrors m' now := by
  cases took with
  | next here =>
    refine Mirrors.grow ⟨?_, ?_, fun k => ?_⟩ entry
    · simp
    · have htake : before.take m.nextOffset = before := List.take_of_length_le here.le
      have hall : (before ++ [some (storedPayment record.atMillisecondPrecision key)]).take
          (before.length + 1) =
            before ++ [some (storedPayment record.atMillisecondPrecision key)] :=
        List.take_of_length_le (by simp)
      have hrecords := h.records
      rw [htake] at hrecords
      simp only [hall, recordsOf_append, recordsOf_stored, ← hrecords]
      rfl
    · have htake : before.take m.nextOffset = before := List.take_of_length_le here.le
      have hall : (before ++ [some (storedPayment record.atMillisecondPrecision key)]).take
          (before.length + 1) =
            before ++ [some (storedPayment record.atMillisecondPrecision key)] :=
        List.take_of_length_le (by simp)
      have hcommitted := h.committed k
      rw [htake] at hcommitted
      simp only [hall, keysOf_append, keysOf_stored, List.mem_append, ← hcommitted]
      simp only [PaymentLedger.push, commitKey, List.mem_append]
      exact or_comm
  | reread later =>
    have hreached : m.nextOffset ≤ now.length :=
      Nat.le_trans h.reached ((List.prefix_append _ _).trans entry).length_le
    have hgrown := h.grow ((List.prefix_append _ _).trans entry)
    have hcaught := hgrown.caughtUp
    refine ⟨hcaught.reached, hcaught.records, fun k => ?_⟩
    -- the own key is among the keys that were read
    have hown : ∀ own, own ∈ key.toList → own ∈ keysOf now := by
      intro own hmem
      obtain ⟨more, rfl⟩ := entry
      simp only [keysOf_append, keysOf_stored, List.mem_append]
      exact .inl (.inr hmem)
    have hk := hcaught.committed k
    rw [show (LedgerReading.caughtUp m now).nextOffset = now.length from rfl,
      List.take_length] at hk
    rw [show (LedgerReading.caughtUp (commitKey key m) now).nextOffset = now.length from rfl,
      List.take_length]
    simp only [LedgerReading.caughtUp, PaymentLedger.loaded, commitKey, List.mem_append] at hk ⊢
    constructor
    · rintro (hread | hself | hold)
      · exact hk.mp (.inl hread)
      · exact hown k hself
      · exact hk.mp (.inr hold)
    · intro hin
      rcases hk.mpr hin with hread | hold
      · exact .inl hread
      · exact .inr (.inr hold)
  | kept later unread => exact absurd unread hfailed

/-- `rereading i` says that call `i` has appended, `seen i` which states lie
between call `i` and its return. -/
structure Observed (process : ι → P) (rules : Rules P ι γ) (rereading : ι → γ → Prop)
    (seen : ι → Shared P ι → γ → Prop) : Prop where
  starts : ∀ {s g i value r t}, rules.permits s g i (.append value) r t →
    rereading i (rules.note g s i (.append value) r t)
  others : ∀ {s g i j e r t}, j ≠ i → rules.permits s g j e r t → rereading i g →
    rereading i (rules.note g s j e r t)
  reading : ∀ {s g i next r t}, rules.permits s g i (.readWindow next) r t → rereading i g →
    rereading i (rules.note g s i (.readWindow next) r t)
  rereads : ∀ {s g i next text t}, rules.permits s g i (.readWindow next) (.error text) t →
    ¬rereading i g
  refused : ∀ {s g i value text t}, rules.permits s g i (.append value) (.error text) t →
    t.stream = s.stream
  sees : ∀ {s g i j e r t}, rules.permits s g j e r t → t.holder (process i) = some i →
    seen i t (rules.note g s j e r t)
  keeps : ∀ {s g i j e r t x}, rules.permits s g j e r t → s.holder (process i) = some i →
    seen i x g → seen i x (rules.note g s j e r t)
  rests : ∀ {s g i j e r t x}, rules.permits s g j e r t → t.holder (process i) ≠ some i →
    seen i x g → seen i x (rules.note g s j e r t)

/-- Every process's ledger mirrors the stream. -/
def AllMirror (s : Shared P ι × γ) : Prop := ∀ p, Mirrors (s.1.memory p) s.1.stream

def mirrorContract (process : ι → P) (rules : Rules P ι γ) : Contract (Shared P ι × γ) ι :=
  contract process rules AllMirror fun _ _ _ => True

/-- The appends of a call do not fail. -/
def Durable (rules : Rules P ι γ) (i : ι) : Prop :=
  ∀ s g value text t, ¬rules.permits s g i (.append value) (.error text) t

/-- The call is using its ledger, and has seen the present state. -/
def Within (process : ι → P) (seen : ι → Shared P ι → γ → Prop) (i : ι) (s : Shared P ι × γ) :
    Prop :=
  s.1.holder (process i) = some i ∧ seen i s.1 s.2

variable {process : ι → P} {rules : Rules P ι γ} {rereading : ι → γ → Prop}
  {seen : ι → Shared P ι → γ → Prop} {i : ι} {α β : Type}

theorem allMirror_step {s t : Shared P ι × γ} {e : Request P} {r : e.Answer} (hinv : AllMirror s)
    (h : env process rules s i e r t) (hplain : Plain e) : AllMirror t := by
  intro p
  rw [(h.1.change.plain hplain).1]
  exact (hinv p).grow h.1.change.stream

theorem within_step (observed : Observed process rules rereading seen) {s t : Shared P ι × γ}
    {e : Request P} {r : e.Answer} (hwithin : Within process seen i s)
    (h : env process rules s i e r t) (hplain : Plain e) : Within process seen i t := by
  have hholder : t.1.holder (process i) = some i := by
    rw [(h.1.change.plain hplain).2]
    exact hwithin.1
  refine ⟨hholder, ?_⟩
  rw [h.2.2]
  exact observed.sees h.2.1 hholder

theorem within_other (observed : Observed process rules rereading seen) {s t : Shared P ι × γ}
    (hwithin : Within process seen i s)
    (h : ∃ j, j ≠ i ∧ (mirrorContract process rules).guar j s t) : Within process seen i t := by
  obtain ⟨j, hj, ⟨e, r, hstep⟩, -⟩ := h
  have hholder := (hstep.1.change.held hj.symm hwithin.1).1
  refine ⟨hholder, ?_⟩
  rw [hstep.2.2]
  exact observed.sees hstep.2.1 hholder

theorem within_rely (observed : Observed process rules rereading seen) {s t : Shared P ι × γ}
    (hwithin : Within process seen i s) (h : (mirrorContract process rules).Rely i s t) :
    Within process seen i t :=
  h.stable (fun _ _ hu _ step => within_other observed hu step) hwithin

theorem mirrors_rely {m : PaymentLedger} {s t : Shared P ι × γ} (hm : Mirrors m s.1.stream)
    (h : (mirrorContract process rules).Rely i s t) : Mirrors m t.1.stream :=
  hm.grow (rely_stream h)

/-- A method leaves its ledger mirroring the stream. -/
def Kept (process : ι → P) (seen : ι → Shared P ι → γ → Prop) (i : ι) (_ : Except String α)
    (m : PaymentLedger) (t : Shared P ι × γ) : Prop :=
  Mirrors m t.1.stream ∧ Within process seen i t

def Keeps (process : ι → P) (rules : Rules P ι γ) (seen : ι → Shared P ι → γ → Prop) (i : ι)
    (method : Op P α) : Prop :=
  ∀ m s, AllMirror s → Mirrors m s.1.stream → Within process seen i s →
    Meets (env process rules) (mirrorContract process rules) i (Kept process seen i) method m s

section Methods

variable (observed : Observed process rules rereading seen)
include observed

theorem kept_rely {r : Except String α} {m : PaymentLedger} {s t : Shared P ι × γ}
    (h : Kept process seen i r m s) (rely : (mirrorContract process rules).Rely i s t) :
    Kept process seen i r m t :=
  ⟨mirrors_rely h.1 rely, within_rely observed h.2 rely⟩

theorem keeps_pure (a : α) : Keeps process rules seen i (pure a) := fun _ _ _ hm hw =>
  meets_pure fun _ ht _ => ⟨mirrors_rely hm ht, within_rely observed hw ht⟩

theorem keeps_throw (text : String) : Keeps process rules seen i (Method.throw text : Op P α) :=
  fun _ _ _ hm hw => meets_throw fun _ ht _ => ⟨mirrors_rely hm ht, within_rely observed hw ht⟩

theorem keeps_bind {method : Op P α} {f : α → Op P β} (h : Keeps process rules seen i method)
    (rest : ∀ a, Keeps process rules seen i (f a)) : Keeps process rules seen i (method >>= f) :=
  fun m s hinv hm hw => meets_bind hinv (h m s hinv hm hw)
    (fun a m' t hinvt hkept => rest a m' t hinvt hkept.1 hkept.2)
    fun _ _ _ _ hkept _ rely _ => kept_rely observed hkept rely

omit observed in
theorem keeps_tried_bind {method : Op P α} {f : Except String α → Op P β}
    (h : Keeps process rules seen i method) (rest : ∀ r, Keeps process rules seen i (f r)) :
    Keeps process rules seen i (method.tried >>= f) :=
  fun m s hinv hm hw => meets_tried_bind hinv (h m s hinv hm hw)
    fun r m' t hinvt hkept => rest r m' t hinvt hkept.1 hkept.2

omit observed in
theorem keeps_self_bind {f : PaymentLedger → Op P β}
    (rest : ∀ ledger, Keeps process rules seen i (f ledger)) :
    Keeps process rules seen i (Method.self >>= f) :=
  fun m s hinv hm hw => meets_self_bind (rest m m s hinv hm hw)

omit observed in
/-- A change to the holds and the reservations. -/
theorem keeps_update_bind {change : PaymentLedger → PaymentLedger} {f : Unit → Op P β}
    (hrecords : ∀ m, (change m).records = m.records)
    (hcommitted : ∀ m, (change m).committedHolds = m.committedHolds)
    (hnext : ∀ m, (change m).nextOffset = m.nextOffset)
    (rest : Keeps process rules seen i (f ())) :
    Keeps process rules seen i (Method.update change >>= f) :=
  fun m s hinv hm hw => meets_update_bind
    (rest (change m) s hinv (hm.of_same (hrecords m) (hcommitted m) (hnext m)) hw)

/-- Any request but the taking and the giving back of a ledger. -/
theorem keeps_ask {e : Request P} (hplain : Plain e) (g : e.Answer → Except String α) :
    Keeps process rules seen i (Method.ask e g : Op P α) := by
  intro m s _ hm hw
  refine meets_ask fun t ht hinvt r u hu => ?_
  refine ⟨allMirror_step hinvt hu hplain, ⟨⟨_, _, hu⟩, trivial⟩, fun v hv _ => ?_⟩
  have hmirror : Mirrors m u.1.stream := (mirrors_rely hm ht).grow hu.1.change.stream
  have hwithin := within_step observed (within_rely observed hw ht) hu hplain
  exact ⟨mirrors_rely hmirror hv, within_rely observed hwithin hv⟩

theorem keeps_loadHolds : Keeps process rules seen i (loadHolds : Op P _) :=
  keeps_ask observed (e := .loadHolds) trivial _

theorem keeps_storeHolds (version : Option Version) (holds : Holds) :
    Keeps process rules seen i (storeHolds version holds : Op P _) :=
  keeps_ask observed (e := .storeHolds version holds) trivial _

theorem keeps_releaseLoop (key : String) (attempts : Nat) :
    Keeps process rules seen i (releaseLoop key attempts : Op P Unit) := by
  induction attempts with
  | zero => exact keeps_pure observed ()
  | succ attempts ih =>
    rw [releaseLoop]
    refine keeps_tried_bind (keeps_loadHolds observed) fun found => ?_
    cases found with
    | error text => exact keeps_pure observed ()
    | ok found =>
      by_cases hgone : (found.1.isNone || (found.2.lookup key).isNone) = true
      · simp only [hgone, if_true]
        exact keeps_pure observed ()
      · simp only [hgone]
        refine keeps_tried_bind (keeps_storeHolds observed _ _) fun stored => ?_
        match stored with
        | .ok true => exact keeps_pure observed ()
        | .ok false => exact ih
        | .error text => exact keeps_pure observed ()

theorem keeps_release (id : ReservationId) :
    Keeps process rules seen i (LedgerStore.release id : Op P Unit) := by
  refine keeps_self_bind fun ledger => ?_
  cases ledger.reservations.lookup id with
  | none => exact keeps_pure observed ()
  | some own =>
    exact keeps_update_bind (fun _ => rfl) (fun _ => rfl) (fun _ => rfl)
      (keeps_releaseLoop observed own.key holdCasAttempts)

theorem keeps_renewLoop (now : Instant) (attempts : Nat) :
    Keeps process rules seen i (renewLoop now attempts : Op P Nat) := by
  induction attempts with
  | zero => exact keeps_throw observed _
  | succ attempts ih =>
    rw [renewLoop]
    refine keeps_bind observed (keeps_loadHolds observed) fun found => ?_
    refine keeps_self_bind fun ledger => ?_
    refine keeps_bind observed (keeps_storeHolds observed _ _) fun stored => ?_
    cases stored with
    | true =>
      exact keeps_update_bind (fun _ => rfl) (fun _ => rfl) (fun _ => rfl)
        (keeps_pure observed _)
    | false => exact ih

theorem keeps_renewHoldsAt (now : Instant) :
    Keeps process rules seen i (LedgerStore.renewHoldsAt now : Op P Nat) := by
  refine keeps_self_bind fun ledger => ?_
  by_cases hempty : ledger.reservations.entries.isEmpty = true
  · simp only [hempty, if_true]
    exact keeps_pure observed 0
  · simp only [hempty]
    exact keeps_renewLoop observed now holdCasAttempts

theorem within_steady : Steady process rules AllMirror (fun _ _ _ => True) i
    (Within process seen i) where
  others := fun _ _ hw _ step => within_other observed hw step
  reading := fun _ next _ _ hinv hw hstep =>
    ⟨allMirror_step (e := .readWindow next) hinv hstep trivial, trivial,
      within_step observed (e := .readWindow next) hw hstep trivial⟩

theorem keeps_refreshRecords (rounds : Nat) :
    Keeps process rules seen i (refreshRecords rounds : Op P Unit) := by
  intro m s hinv hm hw
  refine meets_mono ?_ (refreshRecords_meets ((within_steady observed).withPrefix s.1.stream)
    rounds hinv ⟨hw, List.prefix_rfl⟩ hm.reached)
  rintro r m' v - ⟨u, hinvu, ⟨hwithin, hgrown⟩, hrely, hout⟩
  have hmu : Mirrors m u.1.stream := hm.grow hgrown
  cases r with
  | ok _ =>
    rw [hout.2]
    exact kept_rely observed (r := .ok ()) ⟨hmu.caughtUp, hwithin⟩ hrely
  | error text =>
    rw [hout.1]
    exact kept_rely observed (r := .ok ()) ⟨hmu, hwithin⟩ hrely

theorem appends_mirror (m : PaymentLedger) (value : StoredPayment) :
    Appends process rules AllMirror (fun _ _ _ => True) i
      (fun s => Within process seen i s ∧ Mirrors m s.1.stream)
      (fun s => ¬Durable rules i ∧ Within process seen i s ∧ Mirrors m s.1.stream)
      (fun before s => (Within process seen i s ∧ rereading i s.2) ∧ Mirrors m before) value where
  others := by
    rintro s t ⟨hw, hm⟩ - step
    refine ⟨within_other observed hw step, ?_⟩
    obtain ⟨j, -, ⟨e, r, hstep⟩, -⟩ := step
    exact hm.grow hstep.1.change.stream
  step := by
    rintro s r t hinv ⟨hw, hm⟩ hstep
    have hwt := within_step observed (e := .append value) hw hstep trivial
    refine ⟨allMirror_step (e := .append value) hinv hstep trivial, trivial, ?_⟩
    cases r with
    | ok offset =>
      refine ⟨⟨hwt, ?_⟩, hm⟩
      rw [hstep.2.2]
      exact observed.starts hstep.2.1
    | error text =>
      refine ⟨fun hdurable => hdurable _ _ _ _ _ hstep.2.1, hwt, ?_⟩
      rw [observed.refused hstep.2.1]
      exact hm
  later before :=
    { others := by
        rintro s t ⟨⟨hw, hreread⟩, hm⟩ - ⟨j, hj, ⟨e, r, hstep⟩, hextra⟩
        refine ⟨⟨within_other observed hw ⟨j, hj, ⟨e, r, hstep⟩, hextra⟩, ?_⟩, hm⟩
        rw [hstep.2.2]
        exact observed.others hj hstep.2.1 hreread
      reading := by
        rintro s next r t hinv ⟨⟨hw, hreread⟩, hm⟩ hstep
        refine ⟨allMirror_step (e := .readWindow next) hinv hstep trivial, trivial,
          ⟨within_step observed (e := .readWindow next) hw hstep trivial, ?_⟩, hm⟩
        rw [hstep.2.2]
        exact observed.reading hstep.2.1 hreread }

theorem appendRecord_kept (rounds : Nat) (record : PaymentRecord) (key : Option String)
    {m : PaymentLedger} {s : Shared P ι × γ} (hm : Mirrors m s.1.stream)
    (hw : Within process seen i s) :
    Meets (env process rules) (mirrorContract process rules) i
      (fun r m' t => Kept process seen i r m' t ∧ ((∃ text, r = .error text) → ¬Durable rules i))
      (appendRecord rounds record key) m s := by
  refine meets_mono ?_ (appendRecord_meets rounds (appends_mirror observed m _) ⟨hw, hm⟩
    hm.reached)
  rintro r m' v - ⟨u, hinvu, hrely, hout⟩
  cases r with
  | error text =>
    obtain ⟨⟨hloose, hwu, hmu⟩, rfl⟩ := hout
    exact ⟨kept_rely observed (r := .ok ()) ⟨hmu, hwu⟩ hrely, fun _ => hloose⟩
  | ok _ =>
    obtain ⟨before, ⟨⟨hwu, hreread⟩, hmBefore⟩, -, hentry, htook⟩ := hout
    refine ⟨kept_rely observed (r := .ok ()) ⟨hmBefore.tookIn ?_ hentry htook, hwu⟩ hrely, ?_⟩
    · -- a re-read after the append does not fail
      rintro ⟨text, w, next, x, -, ⟨⟨-, hrereadw⟩, -⟩, hfail⟩
      exact observed.rereads hfail.2.1 hrereadw
    · rintro ⟨text, habsurd⟩
      cases habsurd

theorem keeps_appendRecord (rounds : Nat) (record : PaymentRecord) (key : Option String) :
    Keeps process rules seen i (appendRecord rounds record key : Op P Unit) :=
  fun _ _ _ hm hw => meets_mono (fun _ _ _ _ h => h.1)
    (appendRecord_kept observed rounds record key hm hw)

/-- A method that goes on after an append whatever its result. -/
theorem keeps_appendRecord_bind (hdurable : Durable rules i) (rounds : Nat)
    (record : PaymentRecord) (key : Option String) {f : Except String Unit → Op P α}
    (rest : Keeps process rules seen i (f (.ok ()))) :
    Keeps process rules seen i ((appendRecord rounds record key).tried >>= f) :=
  fun m s hinv hm hw => meets_tried_bind hinv (appendRecord_kept observed rounds record key hm hw)
    fun r m' t hinvt hkept => by
      cases r with
      | ok _ => exact rest m' t hinvt hkept.1.1 hkept.1.2
      | error text => exact absurd hdurable (hkept.2 ⟨text, rfl⟩)

theorem keeps_observeSolanaExpiry (rounds : Nat) (evidence : ExpiryEvidence) :
    Keeps process rules seen i (LedgerStore.observeSolanaExpiry rounds evidence : Op P Bool) := by
  refine keeps_self_bind fun ledger => ?_
  by_cases hstale : ledger.generation ≠ evidence.generation ∨
      evidence.observedHeight ≤ evidence.lastValidHeight
  · simp only [if_pos hstale]
    exact keeps_pure observed false
  · simp only [if_neg hstale]
    refine keeps_bind observed (keeps_refreshRecords observed rounds) fun _ => ?_
    refine keeps_self_bind fun ledger => ?_
    cases payment ledger.records evidence.id with
    | none => exact keeps_pure observed false
    | some latest =>
      by_cases hfits : evidence.fits latest = true
      · simp only [hfits, if_true]
        exact keeps_bind observed (keeps_appendRecord observed rounds _ _) fun _ =>
          keeps_pure observed true
      · simp only [hfits]
        exact keeps_pure observed false

theorem keeps_tryCommitReservation (rounds : Nat) (id : ReservationId) (record : PaymentRecord) :
    Keeps process rules seen i
      (LedgerStore.tryCommitReservation rounds id record : Op P Unit) := by
  refine keeps_self_bind fun ledger => ?_
  exact keeps_bind observed (keeps_appendRecord observed rounds record _) fun _ =>
    keeps_release observed id

theorem keeps_commitReservation (hdurable : Durable rules i) (rounds : Nat) (id : ReservationId)
    (record : PaymentRecord) :
    Keeps process rules seen i (LedgerStore.commitReservation rounds id record : Op P Unit) := by
  refine keeps_self_bind fun ledger => ?_
  exact keeps_appendRecord_bind observed hdurable rounds record _ (keeps_release observed id)

theorem keeps_recordPayment (hdurable : Durable rules i) (rounds : Nat) (record : PaymentRecord) :
    Keeps process rules seen i (LedgerStore.recordPayment rounds record : Op P Unit) :=
  keeps_appendRecord_bind observed hdurable rounds record none (keeps_pure observed ())

/-- A ledger that has just been opened mirrors what it has read. -/
theorem keeps_openLedger (rounds generation : Nat) (owner sessionId : String)
    (budget : SpendingBudget) :
    Keeps process rules seen i
      (LedgerStore.openLedger rounds generation owner sessionId budget : Op P Unit) := by
  intro m s hinv hm hw
  refine meets_bind hinv (readFrom_nil_meets ((within_steady observed).withPrefix s.1.stream) rounds
    0 ⟨hw, List.prefix_rfl⟩ (Nat.zero_le _)) ?_ ?_
  · rintro ⟨found, next⟩ m' t - ⟨-, u, -, ⟨hwu, -⟩, hrely, -, hfound⟩
    cases hfound
    refine fun v hv _ => kept_rely observed (r := .ok ()) ⟨⟨le_refl _, ?_, fun key => ?_⟩, hwu⟩
      (hrely.trans hv)
    · simp [recordsOf]
    · simp [keysOf]
  · rintro text m' t - ⟨rfl, u, -, ⟨hwu, hgrown⟩, hrely, -⟩ v hv -
    exact kept_rely observed (r := .ok ()) ⟨hm.grow hgrown, hwu⟩ (hrely.trans hv)

theorem keeps_outcome {method : Op P β} (h : Keeps process rules seen i method)
    (f : β → Outcome) :
    Keeps process rules seen i (method >>= fun b => (pure (f b) : Op P Outcome)) :=
  keeps_bind observed h fun _ => keeps_pure observed _

/-- A call that runs a method on its process's ledger. -/
theorem withLedger_safe {method : Op P α} {result : Except String α → γ → Prop}
    (hmethod : ∀ m s, AllMirror s → Mirrors m s.1.stream → Within process seen i s →
      Meets (env process rules) (mirrorContract process rules) i
        (fun r m' t => Kept process seen i r m' t ∧ result r t.2) method m s)
    (rests : ∀ {r s g j e a t}, rules.permits s g j e a t →
      s.holder (process i) = some i ∨ t.holder (process i) ≠ some i → result r g →
      result r (rules.note g s j e a t))
    {s : Shared P ι × γ} :
    Safe (env process rules) (mirrorContract process rules) i (fun r t => result r t.2)
      (withLedger (process i) method) s := by
  intro t ht hinvt ledger u hu
  obtain ⟨hfree, rfl, htaken⟩ := hu.1
  have hholder : u.1.holder (process i) = some i := by
    rw [htaken]
    simp [Shared.locked]
  have hwu : Within process seen i u := by
    refine ⟨hholder, ?_⟩
    rw [hu.2.2]
    exact observed.sees hu.2.1 hholder
  have hmemory : u.1.memory = t.1.memory := by
    rw [htaken]
    rfl
  have hinvu : AllMirror u := by
    intro p
    rw [hmemory]
    exact (hinvt p).grow hu.1.change.stream
  refine ⟨hinvu, ⟨⟨_, _, hu⟩, trivial⟩, ?_⟩
  have hm : Mirrors (t.1.memory (process i)) u.1.stream := by
    rw [← hmemory]
    exact hinvu _
  refine safe_bind ?_ hinvu (hmethod _ u hinvu hm hwu)
  rintro ⟨r, m'⟩ v hinvv ⟨⟨hmv, hwv⟩, hresult⟩
  intro w hw hinvw _ x hx
  have hmw : Mirrors m' w.1.stream := mirrors_rely hmv hw
  have hresultw : Within process seen i w ∧ result r w.2 := by
    refine hw.stable (P := fun y => Within process seen i y ∧ result r y.2) ?_ ⟨hwv, hresult⟩
    rintro y z ⟨hwy, hy⟩ - step
    refine ⟨within_other observed hwy step, ?_⟩
    obtain ⟨j, -, ⟨e, a, hstep⟩, -⟩ := step
    rw [hstep.2.2]
    exact rests hstep.2.1 (.inl hwy.1) hy
  obtain ⟨hmine, hgiven⟩ := hx.1
  have hinvx : AllMirror x := by
    intro p
    rw [hgiven]
    by_cases hp : p = process i
    · subst hp
      simpa [Shared.unlocked] using hmw
    · simpa [Shared.unlocked, hp] using hinvw p
  refine ⟨hinvx, ⟨⟨_, _, hx⟩, trivial⟩, fun y hy _ => ?_⟩
  -- the ledger is given back: nothing more is seen
  have houtside : x.1.holder (process i) ≠ some i := by
    rw [hgiven]
    simp [Shared.unlocked]
  have hresultx : result r x.2 := by
    rw [hx.2.2]
    exact rests hx.2.1 (.inl hmine) hresultw.2
  refine (hy.stable (P := fun y => y.1.holder (process i) ≠ some i ∧ result r y.2) ?_
    ⟨houtside, hresultx⟩).2
  rintro y z ⟨hout, hy⟩ - ⟨j, hj, ⟨e, a, hstep⟩, -⟩
  have hout' := hstep.1.change.notTaken hj.symm hout
  refine ⟨hout', ?_⟩
  rw [hstep.2.2]
  exact rests hstep.2.1 (.inr hout') hy

end Methods

end LedgerMirrors
