import TinyWallet.Ledger.InUse

/-!
# Giving the ledger back

What a call owes to the others when it gives the ledger back, and sections of
the ledger from end to end: they take nothing, take a reservation, or end one.
-/

namespace LedgerWorld

open Programs Sharing Tables LedgerRecords LedgerStore LedgerStorage LedgerReceipts LedgerService

variable {ι : Type} [DecidableEq ι] {presented : ι → Option String} {i : ι}

/-- Where a call is once it has given the ledger back. -/
def Stage.after (stage : Stage) (found : Option PaymentLedger) (inHand : Option ReservationId) :
    Stage :=
  { stage with
    uses := false
    granted := grantedAfter stage.hand stage.granted (.unlockLedger found inHand)
    settled := settledAfter stage.hand stage.settled (.unlockLedger found inHand) }

/-- The stage of a call that takes the ledger. -/
def Stage.using (stage : Stage) : Stage := { stage with uses := true }

@[simp] theorem Stage.using_hand (stage : Stage) : stage.using.hand = stage.hand := rfl

@[simp] theorem Stage.using_uses (stage : Stage) : stage.using.uses = true := rfl

theorem Stage.using_after (stage : Stage) (found : Option PaymentLedger)
    (inHand : Option ReservationId) :
    stage.using.after found inHand =
      { stage with
        uses := false
        granted := grantedAfter stage.hand stage.granted (.unlockLedger found inHand)
        settled := settledAfter stage.hand stage.settled (.unlockLedger found inHand) } := rfl

/-- What a call owes for its own reservation when it gives a ledger back. -/
structure Given (i : ι) (stage : Stage) (found : Option PaymentLedger) (s : State ι) : Prop where
  hand : ∀ grant, stage.hand = some grant →
    s.1.readers i = true ∧ ∃ m, found = some m ∧ HeldBy m grant
  gone : ∀ grant, stage.granted = some grant → stage.settled.isSome → s.2.failed i = false →
    s.1.stored grant.key = none ∧ ∀ m, found = some m → FreeOf m grant
  granted : ∀ grant, stage.granted = some grant →
    (grant.id < s.1.storage.ids () ∧ ∃ owner ∈ s.1.owners, grant.key = holdKey owner grant.id) ∧
      ∀ j, j ≠ i → ∀ other, s.2.granted j = some other → other.id ≠ grant.id
  settled : ∀ generation, stage.settled = some generation →
    ∃ grant, stage.granted = some grant ∧ grant.generation = generation

/-- What it owes for those of the others. -/
structure Respects (i : ι) (found : Option PaymentLedger) (s : State ι) : Prop where
  keyed : ∀ m, found = some m → m.owner ∈ s.1.owners ∧ Keyed m
  others : ∀ j, j ≠ i → ∀ grant, s.2.hand j = some grant → ∃ m, found = some m ∧ HeldBy m grant
  gone : ∀ j, j ≠ i → ∀ grant, Gone s j grant → ∀ m, found = some m → FreeOf m grant

theorem unlock_notes {s t : State ι} {stage : Stage} {found : Option PaymentLedger}
    {inHand : Option ReservationId} (h : At i stage s) {r : Unit}
    (step : moduleEnv presented s i (.unlockLedger found inHand) r t) :
    (t.2.granted i = (stage.after found inHand).granted ∧
      t.2.settled i = (stage.after found inHand).settled ∧
      (t.2.failed i = false → s.2.failed i = false)) ∧
      ∀ j, j ≠ i → t.2.granted j = s.2.granted j ∧ t.2.settled j = s.2.settled j ∧
        t.2.failed j = s.2.failed j ∧ t.2.lost j = s.2.lost j ∧
        (j ∈ t.2.changed ↔ j ∈ s.2.changed) := by
  rw [step.2]
  refine ⟨⟨?_, ?_, fun hfailed => ?_⟩, fun j hj => ?_⟩
  · simp [Notes.after, Stage.after, h.hand, h.granted]
  · simp [Notes.after, Stage.after, h.hand, h.settled]
  · by_contra htrue
    simp [Notes.after, Bool.eq_true_of_not_eq_false htrue] at hfailed
  · simp [Notes.after, hj]

theorem unlock_step {s t : State ι} {stage : Stage} {found : Option PaymentLedger}
    {inHand : Option ReservationId} (hinv : Inv s) (h : At i stage s) (uses : stage.uses = true)
    (rightful : Rightful presented i s) {r : Unit}
    (step : moduleEnv presented s i (.unlockLedger found inHand) r t)
    (respects : Respects i found s) (given : Given i (stage.after found inHand) found s) :
    Inv t ∧ Guar i s t ∧ At i (stage.after found inHand) t ∧ Rightful presented i t := by
  have hcurrent := stale_after hinv.current (fun _ => rightful) step
  obtain ⟨⟨hgranted, hsettled, hfailed⟩, hothers⟩ := unlock_notes h step
  have hworld : t.1 = { s.1 with ledger := found, user := none } := step.1
  have huser : s.1.user = some i := h.user.mpr uses
  have hhand : t.2.hand i = (stage.after found inHand).hand := by
    rw [Notes.hand, Stage.hand, hgranted, hsettled]
  have hhands : ∀ j, j ≠ i → t.2.hand j = s.2.hand j := by
    intro j hj
    rw [Notes.hand, Notes.hand, (hothers j hj).1, (hothers j hj).2.1]
  have hgone : ∀ j, j ≠ i → ∀ grant, Gone t j grant → Gone s j grant := by
    rintro j hj grant ⟨hg, hs, hf⟩
    rw [(hothers j hj).1] at hg
    rw [(hothers j hj).2.1] at hs
    rw [(hothers j hj).2.2.1] at hf
    exact ⟨hg, hs, hf⟩
  refine ⟨?_, ?_, ?_, ?_⟩
  · constructor
    · rw [hworld]
      exact hinv.exclusive
    · intro j grant hj
      rw [hworld]
      by_cases hi : j = i
      · subst hi
        rw [hhand] at hj
        exact given.hand grant hj
      · rw [hhands j hi] at hj
        exact ⟨(hinv.hands j grant hj).1, respects.others j hi grant hj⟩
    · rw [hworld]
      exact respects.keyed
    · intro j grant hj
      rw [hworld]
      by_cases hi : j = i
      · subst hi
        obtain ⟨hg, hs, hf⟩ := hj
        rw [hgranted] at hg
        rw [hsettled] at hs
        exact given.gone grant hg hs (hfailed hf)
      · have hbefore := hgone j hi grant hj
        exact ⟨(hinv.gone j grant hbefore).1, respects.gone j hi grant hbefore⟩
    · intro j grant hj
      rw [hworld]
      by_cases hi : j = i
      · subst hi
        rw [hgranted] at hj
        exact (given.granted grant hj).1
      · rw [(hothers j hi).1] at hj
        exact hinv.granted j grant hj
    · intro j k a b ha hb hid
      by_cases hj : j = i
      · by_cases hk : k = i
        · rw [hj, hk]
        · rw [hj, hgranted] at ha
          rw [(hothers k hk).1] at hb
          exact absurd hid.symm ((given.granted a ha).2 k hk b hb)
      · rw [(hothers j hj).1] at ha
        by_cases hk : k = i
        · rw [hk, hgranted] at hb
          exact absurd hid ((given.granted b hb).2 j hj a ha)
        · rw [(hothers k hk).1] at hb
          exact hinv.apart j k a b ha hb hid
    · intro j generation hj
      by_cases hi : j = i
      · subst hi
        rw [hgranted]
        rw [hsettled] at hj
        exact given.settled generation hj
      · rw [(hothers j hi).1]
        rw [(hothers j hi).2.1] at hj
        exact hinv.settled j generation hj
    · exact hcurrent
  · refine ⟨?_, ?_, fun j hj => ?_, fun j hj husing => ?_, ?_, hothers, ?_, ?_, ?_⟩
    · rw [hworld]
      exact fun _ _ => rfl
    · rw [hworld]
      exact fun _ _ => Iff.rfl
    · rw [hworld, huser]
      simp [hj.symm]
    · rw [huser] at husing
      exact absurd (Option.some.inj husing).symm hj
    · rw [hworld]
      exact fun _ _ _ => rfl
    · intro htrue
      by_contra hfalse
      rw [hfailed (Bool.eq_false_of_not_eq_true hfalse)] at htrue
      cases htrue
    · rw [hworld]
    · rw [hworld]
      exact fun _ => id
  · refine ⟨?_, ?_, ?_, hgranted, hsettled⟩
    · rw [hworld]
      exact h.readers
    · rw [hworld]
      exact h.writer
    · rw [hworld]
      simp [Stage.after]
  · intro handle hpresented
    rw [hworld]
    exact rightful handle hpresented

omit [DecidableEq ι] in
theorem Within.respects {s : State ι} {stage : Stage} {m : PaymentLedger}
    (h : Within presented i stage m s) : Respects i (some m) s where
  keyed := fun m' hm => by
    cases hm
    exact ⟨h.owner, h.keyed⟩
  others := fun j hj grant hhand => ⟨m, rfl, h.others j hj grant hhand⟩
  gone := fun j _ grant hgone m' hm => by
    cases hm
    exact h.gone j grant hgone

omit [DecidableEq ι] in
/-- Nothing in hand, and nothing granted. -/
theorem given_nothing {s : State ι} {stage : Stage} {found : Option PaymentLedger} (hinv : Inv s)
    (h : At i stage s) (empty : stage.hand = none)
    (gone : ∀ grant, Gone s i grant → ∀ m, found = some m → FreeOf m grant) :
    Given i (stage.after found none) found s := by
  have hsettled : (stage.after found none).settled = stage.settled := by
    simp [Stage.after, settledAfter, empty]
  have hgranted : (stage.after found none).granted = stage.granted := by
    cases found <;> rfl
  constructor
  · intro grant hhand
    rw [Stage.hand, hsettled, hgranted] at hhand
    rw [Stage.hand] at empty
    rw [empty] at hhand
    cases hhand
  · intro grant hg hs hf
    rw [hgranted, ← h.granted] at hg
    rw [hsettled, ← h.settled] at hs
    have hgone : Gone s i grant := ⟨hg, hs, hf⟩
    exact ⟨(hinv.gone i grant hgone).1, gone grant hgone⟩
  · intro grant hg
    rw [hgranted, ← h.granted] at hg
    exact ⟨hinv.granted i grant hg,
      fun j hj other hother hid => hj (hinv.apart j i other grant hother hg hid)⟩
  · intro generation hs
    rw [hsettled, ← h.settled] at hs
    rw [hgranted, ← h.granted]
    exact hinv.settled i generation hs

theorem after_nothing {stage : Stage} {found : Option PaymentLedger} (idle : stage.uses = false)
    (empty : stage.hand = none) : stage.using.after found none = stage := by
  rw [Stage.using_after, ← idle]
  simp [grantedAfter, settledAfter, empty]

omit [DecidableEq ι] in
/-- A new reservation. -/
theorem given_reserved {s : State ι} {stage : Stage} {m : PaymentLedger} {id : ReservationId}
    (h : Within presented i stage m s) (reads : stage.reads = true)
    (ungranted : stage.granted = none) (unsettled : stage.settled = none)
    (held : (m.reservations.lookup id).isSome) (unused : Unused id s) :
    Given i (stage.after (some m) (some id)) (some m) s := by
  have hgranted : (stage.after (some m) (some id)).granted =
      some ⟨m.generation, id, holdKey m.owner id⟩ := by
    simp [Stage.after, grantedAfter, Stage.hand, ungranted]
  have hsettled : (stage.after (some m) (some id)).settled = none := unsettled
  constructor
  · intro grant hhand
    rw [Stage.hand, hsettled, hgranted] at hhand
    cases hhand
    exact ⟨h.standing.readers.trans reads, m, rfl, rfl, rfl, held⟩
  · intro grant _ hs
    rw [hsettled] at hs
    cases hs
  · intro grant hg
    rw [hgranted] at hg
    cases hg
    exact ⟨⟨unused.1, m.owner, h.owner, rfl⟩, fun j _ other hother => unused.2 j other hother⟩
  · intro generation hs
    rw [hsettled] at hs
    cases hs

theorem after_reserved {stage : Stage} {m : PaymentLedger} {id : ReservationId}
    (idle : stage.uses = false) (ungranted : stage.granted = none) :
    stage.using.after (some m) (some id) =
      { stage with granted := some ⟨m.generation, id, holdKey m.owner id⟩ } := by
  rw [Stage.using_after, ← idle]
  simp [grantedAfter, settledAfter, Stage.hand, ungranted]

omit [DecidableEq ι] in
/-- The reservation in hand, ended. -/
theorem given_settled {s : State ι} {stage : Stage} {m : PaymentLedger} {grant : Grant}
    (hinv : Inv s) (hand : stage.hand = some grant) (generation : m.generation = grant.generation)
    (h : Settled presented i stage grant m s) :
    Given i (stage.after (some m) none) (some m) s := by
  obtain ⟨⟨⟨hwithin, -⟩, hdropped⟩, hfree⟩ := h
  have hgrantedBefore := hand_granted (hwithin.standing.hand.trans hand)
  have hsettled : (stage.after (some m) none).settled = some grant.generation := by
    simp [Stage.after, settledAfter, hand, generation]
  have hgranted : (stage.after (some m) none).granted = some grant := by
    simp [Stage.after, grantedAfter, ← hwithin.standing.granted, hgrantedBefore]
  constructor
  · intro other hhand
    simp [Stage.hand, hsettled] at hhand
  · intro other hg _ hf
    rw [hgranted] at hg
    cases hg
    refine ⟨?_, fun m' hm => ?_⟩
    · rcases hdropped with hfailed | hstored
      · rw [hfailed] at hf
        cases hf
      · exact hstored
    · cases hm
      exact hfree
  · intro other hg
    rw [hgranted] at hg
    cases hg
    exact ⟨hinv.granted i grant hgrantedBefore,
      fun j hj other hother hid => hj (hinv.apart j i other grant hother hgrantedBefore hid)⟩
  · intro value hs
    rw [hsettled] at hs
    cases hs
    exact ⟨grant, hgranted, rfl⟩

theorem after_settled {stage : Stage} {m : PaymentLedger} {grant : Grant}
    (idle : stage.uses = false) (hand : stage.hand = some grant)
    (generation : m.generation = grant.generation) :
    stage.using.after (some m) none = { stage with settled := some grant.generation } := by
  rw [Stage.using_after, ← idle]
  simp [grantedAfter, settledAfter, hand, generation]

omit [DecidableEq ι] in
/-- The reservation stays in hand. -/
theorem given_kept {s : State ι} {stage : Stage} {m : PaymentLedger} {grant : Grant}
    (hinv : Inv s) (hand : stage.hand = some grant) (h : Within presented i stage m s)
    (held : HeldBy m grant) : Given i (stage.after (some m) (some grant.id)) (some m) s := by
  have hhand := h.standing.hand.trans hand
  have hgrantedBefore := hand_granted hhand
  have hgranted : (stage.after (some m) (some grant.id)).granted = stage.granted := by
    simp [Stage.after, grantedAfter, hand]
  have hsettled : (stage.after (some m) (some grant.id)).settled = stage.settled := rfl
  have hunsettled : stage.settled = none := by
    rw [Stage.hand] at hand
    split_ifs at hand with hsome
    exact Option.not_isSome_iff_eq_none.mp hsome
  constructor
  · intro other hother
    rw [Stage.hand, hgranted, hsettled] at hother
    rw [Stage.hand] at hand
    rw [hand] at hother
    cases hother
    exact ⟨(hinv.hands i grant hhand).1, m, rfl, held⟩
  · intro other _ hs
    rw [hsettled, hunsettled] at hs
    cases hs
  · intro other hg
    rw [hgranted, ← h.standing.granted, hgrantedBefore] at hg
    cases hg
    exact ⟨hinv.granted i grant hgrantedBefore,
      fun j hj other hother hid => hj (hinv.apart j i other grant hother hgrantedBefore hid)⟩
  · intro generation hs
    rw [hsettled, hunsettled] at hs
    cases hs

theorem after_kept {stage : Stage} {m : PaymentLedger} {grant : Grant}
    (idle : stage.uses = false) (hand : stage.hand = some grant) :
    stage.using.after (some m) (some grant.id) = stage := by
  rw [Stage.using_after, ← idle]
  simp [grantedAfter, settledAfter, hand]

/-- One request of a call. -/
theorem safe_call {α : Type} {known : State ι → Prop} (stable : Stable i known)
    {post : α → State ι → Prop} {e : ModuleRequest} {k : e.Answer → Run α} {s : State ι}
    (h : known s)
    (step : ∀ t r u, Inv t → known t → moduleEnv presented t i e r u →
      Inv u ∧ Guar i t u ∧ Safe (moduleEnv presented) moduleContract i post (k r) u) :
    Safe (moduleEnv presented) moduleContract i post (.call e k) s :=
  fun t ht hinv r u hu => step t r u hinv (stable.rely h ht) hu

/-- A call with its locks, which may act. -/
def Acts (presented : ι → Option String) (i : ι) (stage : Stage) (s : State ι) : Prop :=
  At i stage s ∧ Rightful presented i s

omit [DecidableEq ι] in
theorem acts_stable {stage : Stage} : Stable i (Acts presented i stage) :=
  (at_stable stage).and rightful_stable

theorem safe_pure {α : Type} {known : State ι → Prop} (stable : Stable i known)
    {post : α → State ι → Prop} {a : α} {s : State ι} (h : known s)
    (final : ∀ t, known t → post a t) :
    Safe (moduleEnv presented) moduleContract i post (.pure a : Run α) s :=
  fun t ht _ => final t (stable.rely h ht)

theorem lockLedger_step {s t : State ι} {stage : Stage} {r : Option PaymentLedger} (hinv : Inv s)
    (h : Acts presented i stage s) (step : moduleEnv presented s i .lockLedger r t) :
    Inv t ∧ Guar i s t ∧ Acts presented i stage.using t ∧ r = t.1.ledger := by
  obtain ⟨hat, hrightful⟩ := h
  obtain ⟨hgranted, hsettled, hfailed, hothers⟩ := keeping_notes (fun _ _ h => by cases h) step
  have hcurrent := stale_after hinv.current (fun _ => hrightful) step
  obtain ⟨⟨hfree, hledger, hworld⟩, -⟩ := step
  have hminor : Minor i s t := by
    refine ⟨by rw [hworld], hgranted, hsettled, hfailed, ?_, hothers, ?_, ?_⟩
    · rw [hworld]
      exact fun _ _ => rfl
    · rw [hworld]
    · rw [hworld]
      exact fun _ => id
  refine ⟨hminor.inv hinv ?_ ?_ ?_ hcurrent, hminor.guar ?_ ?_ ?_ ?_,
    ⟨⟨?_, ?_, ?_, ?_, ?_⟩, ?_⟩, ?_⟩
  · rw [hworld]
    exact hinv.exclusive
  · rw [hworld]
    exact fun grant hhand => (hinv.hands i grant hhand).1
  · rw [hworld]
    exact fun j grant hgone => (hinv.gone j grant hgone).1
  · rw [hworld]
    exact fun _ _ => Iff.rfl
  · intro j hj
    rw [hworld, hfree]
    simp [hj.symm]
  · rw [hworld]
    exact fun _ _ _ => rfl
  · rw [hworld]
    exact fun _ _ _ _ _ h => h
  · rw [hworld]
    exact hat.readers
  · rw [hworld]
    exact hat.writer
  · rw [hworld]
    simp
  · rw [hgranted]
    exact hat.granted
  · rw [hsettled]
    exact hat.settled
  · rw [Rightful, hworld]
    exact hrightful
  · rw [hworld, hledger]

omit [DecidableEq ι] in
theorem using_ledger_stable {stage : Stage} {ledger : Option PaymentLedger} :
    Stable i fun s => Acts presented i stage.using s ∧ s.1.ledger = ledger := by
  rintro s t ⟨hacts, hledger⟩ step
  refine ⟨acts_stable s t hacts step, ?_⟩
  obtain ⟨j, hj, guar⟩ := step
  exact (guar.sectionKept i (fun h => hj h.symm) (hacts.1.user.mpr rfl)).1.trans hledger

omit [DecidableEq ι] in
/-- The ledger as it was found. -/
theorem within_found {s : State ι} {stage : Stage} {m : PaymentLedger} (hinv : Inv s)
    (h : Acts presented i stage.using s) (found : s.1.ledger = some m) :
    Within presented i stage.using m s := by
  obtain ⟨howner, hkeyed⟩ := hinv.keyed m found
  refine ⟨h.1, rfl, h.2, howner, hkeyed, fun j _ grant hhand => ?_,
    fun j grant hgone => (hinv.gone j grant hgone).2 m found⟩
  obtain ⟨-, m', hm, hheld⟩ := hinv.hands j grant hhand
  rw [found] at hm
  cases hm
  exact hheld

omit [DecidableEq ι] in
theorem respects_absent {s : State ι} (hinv : Inv s) (absent : s.1.ledger = none) :
    Respects i none s where
  keyed := fun m hm => by cases hm
  others := fun j _ grant hhand => by
    obtain ⟨-, m, hm, -⟩ := hinv.hands j grant hhand
    rw [absent] at hm
    cases hm
  gone := fun j _ grant _ m hm => by cases hm

theorem section_safe {α : Type} {method : Op Unit α}
    {inHand : Except String α → Option ReservationId} {stage : Stage}
    {mid : Except String α → PaymentLedger → State ι → Prop}
    {post : Except String α → State ι → Prop} {s : State ι}
    (h : Acts presented i stage s) (idle : stage.uses = false) (lasting : ∀ r, Stable i (post r))
    (absent : stage.hand = none → inHand (.error notInitialised) = none ∧
      ∀ t, Acts presented i stage t → post (.error notInitialised) t)
    (stable : ∀ r m, Stable i (mid r m))
    (body : ∀ m t, Inv t → Within presented i stage.using m t →
      (∀ grant, stage.hand = some grant → HeldBy m grant) →
        Meets (storageEnv presented) moduleContract i mid method m t)
    (within : ∀ r m t, mid r m t → Within presented i stage.using m t)
    (given : ∀ r m t, Inv t → mid r m t →
      Given i (stage.using.after (some m) (inHand r)) (some m) t)
    (ends : ∀ r m t u, mid r m t → Acts presented i (stage.using.after (some m) (inHand r)) u →
      post r u) :
    Safe (moduleEnv presented) moduleContract i post (withLedgerMut method inHand) s := by
  refine safe_call acts_stable h fun t found u hinvt ht hstep => ?_
  obtain ⟨hinvu, hguar, ⟨hat, hrightful⟩, hfound⟩ := lockLedger_step hinvt ht hstep
  refine ⟨hinvu, hguar, ?_⟩
  cases found with
  | none =>
    have hempty : stage.hand = none := by
      rw [← Stage.using_hand, ← hat.hand]
      refine Option.eq_none_iff_forall_ne_some.mpr fun grant hhand => ?_
      obtain ⟨-, m, hm, -⟩ := hinvu.hands i grant hhand
      rw [← hfound] at hm
      cases hm
    obtain ⟨hnone, hpost⟩ := absent hempty
    refine safe_call using_ledger_stable ⟨⟨hat, hrightful⟩, hfound.symm⟩
      fun v done w hinvv ⟨hv, hledger⟩ hstep' => ?_
    have hafter : stage.using.after none (inHand (.error notInitialised)) = stage := by
      rw [hnone]
      exact after_nothing idle hempty
    have hgiven : Given i (stage.using.after none (inHand (.error notInitialised))) none v := by
      rw [hnone]
      exact given_nothing hinvv hv.1 hempty fun _ _ m hm => by cases hm
    obtain ⟨hinvw, hguar', hw⟩ := unlock_step hinvv hv.1 rfl hv.2 hstep'
      (respects_absent hinvv hledger) hgiven
    rw [hafter] at hw
    exact ⟨hinvw, hguar', safe_pure acts_stable hw hpost⟩
  | some m =>
    have hwithin := within_found hinvu ⟨hat, hrightful⟩ hfound.symm
    have hmine : ∀ grant, stage.hand = some grant → HeldBy m grant := by
      intro grant hhand
      obtain ⟨-, m', hm, hheld⟩ := hinvu.hands i grant (hat.hand.trans hhand)
      rw [← hfound] at hm
      cases hm
      exact hheld
    refine safe_bind (fun out v hinvv hmid => ?_) hinvu
      (lifted_safe (body m u hinvu hwithin hmine))
    refine safe_call (stable out.1 out.2) hmid fun w done x hinvw hw hstep' => ?_
    have hwithinw := within _ _ _ hw
    obtain ⟨hinvx, hguar', hx⟩ := unlock_step hinvw hwithinw.standing rfl hwithinw.rightful hstep'
      hwithinw.respects (given _ _ _ hinvw hw)
    exact ⟨hinvx, hguar', safe_pure (lasting out.1) (ends _ _ _ _ hw hx) fun _ => id⟩

/-- A section that neither takes nor ends a reservation. -/
theorem withLedger_safe {α : Type} {method : Op Unit α} {stage : Stage} {s : State ι}
    (h : Acts presented i stage s) (idle : stage.uses = false)
    (empty : stage.hand = none)
    (body : ∀ m t, Inv t → Within presented i stage.using m t →
      Meets (storageEnv presented) moduleContract i
        (fun _ m' u => Within presented i stage.using m' u) method m t) :
    Safe (moduleEnv presented) moduleContract i (fun _ t => Acts presented i stage t)
      (withLedger method) s := by
  refine section_safe h idle (fun _ => acts_stable) (fun _ => ⟨rfl, fun _ => id⟩)
    (fun _ _ => within_stable) (fun m t hinvt ht _ => body m t hinvt ht) (fun _ _ _ => id)
    (fun r m t hinvt ht => ?_) (fun r m t u _ hu => ?_)
  · refine given_nothing hinvt ht.standing empty fun grant hgone m' hm => ?_
    cases hm
    exact ht.gone i grant hgone
  · rw [after_nothing idle empty] at hu
    exact hu

/-- Where a call is when it has reserved. -/
def ReservedAt (presented : ι → Option String) (i : ι) (stage : Stage)
    (r : Except String (Except BudgetRefusal ReservationId)) (s : State ι) : Prop :=
  match r with
  | .ok (.ok id) => ∃ grant : Grant, grant.id = id ∧
      Acts presented i { stage with granted := some grant } s
  | _ => Acts presented i stage s

omit [DecidableEq ι] in
theorem reservedAt_stable {stage : Stage} (r : Except String (Except BudgetRefusal ReservationId)) :
    Stable i (ReservedAt presented i stage r) := by
  rcases r with text | ⟨refusal | id⟩
  · exact acts_stable
  · exact acts_stable
  · rintro s t ⟨grant, hid, hacts⟩ step
    exact ⟨grant, hid, acts_stable s t hacts step⟩

omit [DecidableEq ι] in
theorem reserveEnds_stable {stage : Stage} {m : PaymentLedger}
    (r : Except String (Except BudgetRefusal ReservationId)) :
    Stable i (ReserveEnds presented i stage r m) := by
  rintro s t ⟨hs, hid⟩ step
  refine ⟨within_stable s t hs step, fun id hr => ⟨(hid id hr).1, ?_⟩⟩
  obtain ⟨hgranted, -, -⟩ := section_notes hs.user step
  obtain ⟨hlt, hunused⟩ := (hid id hr).2
  obtain ⟨j, -, guar⟩ := step
  refine ⟨Nat.lt_of_lt_of_le hlt guar.ids, ?_⟩
  rw [hgranted]
  exact hunused

theorem reserve_safe (rounds amount : Nat) {stage : Stage} {s : State ι}
    (h : Acts presented i stage s) (idle : stage.uses = false) (reads : stage.reads = true)
    (ungranted : stage.granted = none) (unsettled : stage.settled = none) :
    Safe (moduleEnv presented) moduleContract i (ReservedAt presented i stage)
      (reserve rounds amount) s := by
  have hempty : stage.hand = none := by
    simp [Stage.hand, ungranted]
  refine section_safe h idle reservedAt_stable (fun _ => ⟨rfl, fun _ => id⟩)
    (fun r m => reserveEnds_stable r) (fun m t _ ht _ => reserve_within rounds amount ht)
    (fun _ _ _ ht => ht.1) (fun r m t hinvt ht => ?_) (fun r m t u ht hu => ?_)
  · rcases r with text | ⟨refusal | id⟩
    · exact given_nothing hinvt ht.1.standing hempty fun grant hgone m' hm => by
        cases hm
        exact ht.1.gone i grant hgone
    · exact given_nothing hinvt ht.1.standing hempty fun grant hgone m' hm => by
        cases hm
        exact ht.1.gone i grant hgone
    · exact given_reserved ht.1 reads ungranted unsettled (ht.2 id rfl).1 (ht.2 id rfl).2
  · rcases r with text | ⟨refusal | id⟩
    · dsimp only at hu
      rw [after_nothing idle hempty] at hu
      exact hu
    · dsimp only at hu
      rw [after_nothing idle hempty] at hu
      exact hu
    · dsimp only at hu
      rw [after_reserved idle ungranted] at hu
      exact ⟨_, rfl, hu⟩

omit [DecidableEq ι] in
theorem settled_stable {stage : Stage} {grant : Grant} {m : PaymentLedger} :
    Stable i (Settled presented i stage grant m) :=
  fun s t hs step => ⟨dropped_within s t hs.1 step, hs.2⟩

omit [DecidableEq ι] in
theorem committed_stable {stage : Stage} {grant : Grant} {m : PaymentLedger}
    (r : Except String Unit) : Stable i (Committed presented i stage grant r m) := by
  cases r with
  | ok done => exact fun s t hs step => ⟨hs.1, settled_stable s t hs.2 step⟩
  | error text => exact fun s t hs step => ⟨hs.1, within_stable s t hs.2 step⟩

theorem dropReservation_safe {stage : Stage} {grant : Grant} {s : State ι} (hinv : Inv s)
    (h : Acts presented i stage s) (idle : stage.uses = false) (hand : stage.hand = some grant) :
    Safe (moduleEnv presented) moduleContract i
      (fun _ t => Acts presented i { stage with settled := some grant.generation } t)
      (dropReservation grant.id) s := by
  have hsection : Safe (moduleEnv presented) moduleContract i
      (fun _ t => Acts presented i { stage with settled := some grant.generation } t)
      (withLedgerMut (release grant.id) fun _ => none) s := by
    refine section_safe h idle (fun _ => acts_stable) (fun hnone => ?_)
      (fun r m => fun s t hs step => ⟨hs.1, hs.2.1, settled_stable s t hs.2.2 step⟩)
      (fun m t hinvt ht mine => release_settled hinvt ht hand (mine grant hand))
      (fun r m t ht => ht.2.2.1.1.1)
      (fun r m t hinvt ht => given_settled hinvt hand ht.2.1 ht.2.2) (fun r m t u ht hu => ?_)
    · rw [hnone] at hand
      cases hand
    · rw [after_settled idle hand ht.2.1] at hu
      exact hu
  refine safe_bind (fun r t _ ht => ?_) hinv hsection
  exact safe_pure acts_stable ht fun _ => id

/-- Where a call is when it has tried to commit. -/
def CommittedAt (presented : ι → Option String) (i : ι) (stage : Stage) (grant : Grant)
    (r : Except String Unit) (s : State ι) : Prop :=
  match r with
  | .ok _ => Acts presented i { stage with settled := some grant.generation } s
  | .error _ => Acts presented i stage s

theorem commitDurable_safe (rounds : Nat) (record : PaymentRecord) {stage : Stage} {grant : Grant}
    {s : State ι} (hinv : Inv s) (h : Acts presented i stage s) (idle : stage.uses = false)
    (hand : stage.hand = some grant) :
    Safe (moduleEnv presented) moduleContract i
      (fun _ t => Acts presented i { stage with settled := some grant.generation } t)
      (commitDurable rounds grant.id record) s := by
  have hsection : Safe (moduleEnv presented) moduleContract i (CommittedAt presented i stage grant)
      (withLedgerMut (tryCommitReservation rounds grant.id record) fun result =>
        match result with
        | .ok _ => none
        | .error _ => some grant.id) s := by
    refine section_safe h idle (fun r => ?_) (fun hnone => ?_)
      (fun r m => committed_stable r)
      (fun m t hinvt ht mine => tryCommitReservation_committed rounds record hinvt ht hand
        (mine grant hand))
      (fun r m t ht => ?_) (fun r m t hinvt ht => ?_) (fun r m t u ht hu => ?_)
    · cases r with
      | ok done => exact acts_stable
      | error text => exact acts_stable
    · rw [hnone] at hand
      cases hand
    · cases r with
      | ok done => exact ht.2.1.1.1
      | error text => exact ht.2
    · cases r with
      | ok done => exact given_settled hinvt hand ht.1 ht.2
      | error text => exact given_kept hinvt hand ht.2 ht.1
    · cases r with
      | ok done =>
        dsimp only at hu
        rw [after_settled idle hand ht.1] at hu
        exact hu
      | error text =>
        dsimp only at hu
        rw [after_kept idle hand] at hu
        exact hu
  refine safe_bind (fun r t hinvt ht => ?_) hinv hsection
  cases r with
  | ok done => exact safe_pure acts_stable ht fun _ => id
  | error text =>
    refine safe_bind (fun _ u _ hu => ?_) hinvt (dropReservation_safe hinvt ht idle hand)
    exact safe_pure acts_stable hu fun _ => id

end LedgerWorld
