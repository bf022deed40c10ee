import TinyWallet.Ledger.Sections

/-!
# Methods on the ledger in use

A call that has the ledger keeps every reservation that others have in hand,
and nothing of what was settled comes back, neither in memory nor in storage.
-/

namespace LedgerWorld

open Programs Sharing Tables LedgerRecords LedgerStore LedgerStorage LedgerService

variable {ι : Type} [DecidableEq ι] {presented : ι → Option String} {i : ι}

omit [DecidableEq ι] in
theorem section_notes {s t : State ι} (uses : s.1.user = some i)
    (step : ∃ j, j ≠ i ∧ Guar j s t) :
    t.2.granted = s.2.granted ∧ t.2.settled = s.2.settled ∧
      ∀ j, s.2.failed j = true → t.2.failed j = true := by
  obtain ⟨j, hj, guar⟩ := step
  have hi : i ≠ j := fun h => hj h.symm
  obtain ⟨-, hgranted, hsettled, -⟩ := guar.sectionKept i hi uses
  refine ⟨?_, ?_, fun k hfailed => ?_⟩
  · funext k
    by_cases hk : k = j
    · rw [hk]
      exact hgranted
    · exact (guar.notes k hk).1
  · funext k
    by_cases hk : k = j
    · rw [hk]
      exact hsettled
    · exact (guar.notes k hk).2.1
  · by_cases hk : k = j
    · rw [hk] at hfailed ⊢
      exact guar.failed hfailed
    · rw [(guar.notes k hk).2.2.1]
      exact hfailed

/-- A call that has the ledger, with `m` as what it would give back. -/
structure Within (presented : ι → Option String) (i : ι) (stage : Stage) (m : PaymentLedger)
    (s : State ι) : Prop where
  standing : At i stage s
  uses : stage.uses = true
  rightful : Rightful presented i s
  owner : m.owner ∈ s.1.owners
  keyed : Keyed m
  others : ∀ j, j ≠ i → ∀ grant, s.2.hand j = some grant → HeldBy m grant
  gone : ∀ j grant, Gone s j grant → FreeOf m grant

variable {stage : Stage} {m m' : PaymentLedger}

omit [DecidableEq ι] in
theorem Within.user {s : State ι} (h : Within presented i stage m s) : s.1.user = some i :=
  h.standing.user.mpr h.uses

omit [DecidableEq ι] in
theorem within_stable : Stable i (Within presented i stage m) := by
  intro s t hs step
  obtain ⟨hgranted, hsettled, hfailed⟩ := section_notes hs.user step
  refine ⟨at_stable stage s t hs.standing step, hs.uses, rightful_stable s t hs.rightful step, ?_,
    hs.keyed, fun k hk grant hhand => ?_, fun k grant hgone => ?_⟩
  · obtain ⟨j, -, guar⟩ := step
    exact guar.owners _ hs.owner
  · rw [Notes.hand, hgranted, hsettled] at hhand
    exact hs.others k hk grant hhand
  · exact hs.gone k grant (hgone.minor hgranted hsettled hfailed)

omit [DecidableEq ι] in
theorem Within.keeps {s t : State ι} (h : Within presented i stage m s) (keeps : Keeps i s t) :
    Within presented i stage m t := by
  refine ⟨h.standing.keeps keeps, h.uses, h.rightful.keeps keeps, keeps.owners _ h.owner, h.keyed,
    fun k hk grant hhand => ?_, fun k grant hgone => ?_⟩
  · rw [keeps.hand] at hhand
    exact h.others k hk grant hhand
  · exact h.gone k grant (hgone.minor keeps.granted keeps.settled keeps.failed)

theorem within_steady {allowed : Request Unit → Prop} :
    Steady presented i allowed (Within presented i stage m) where
  stable := within_stable
  rightful := fun _ h => h.rightful
  own := fun _ _ _ _ h _ _ keeps => h.keeps keeps

theorem Alike.heldBy (h : Alike m m') {grant : Grant} (held : HeldBy m grant) :
    HeldBy m' grant := by
  refine ⟨h.generation.trans held.generation, ?_, ?_⟩
  · rw [h.owner]
    exact held.key
  · rw [h.reservations]
    exact held.held

omit [DecidableEq ι] in
theorem Within.alike {s : State ι} (h : Within presented i stage m s) (alike : Alike m m') :
    Within presented i stage m' s := by
  refine ⟨h.standing, h.uses, h.rightful, ?_, fun id own hown => ?_,
    fun j hj grant hhand => alike.heldBy (h.others j hj grant hhand), fun j grant hgone => ?_⟩
  · rw [alike.owner]
    exact h.owner
  · rw [alike.reservations] at hown
    rw [alike.owner]
    exact h.keyed id own hown
  · rw [FreeOf, alike.reservations, alike.holds]
    exact h.gone j grant hgone

theorem within_plainly {α : Type} {method : Op Unit α} (plainly : Plainly presented i Mild method)
    {s : State ι} (hinv : Inv s) (h : Within presented i stage m s) :
    Meets (storageEnv presented) moduleContract i
      (fun _ m' t => Alike m m' ∧ Within presented i stage m' t) method m s := by
  refine meets_mono ?_ (plainly _ within_steady m s hinv h)
  rintro r m' t - ⟨halike, hwithin⟩
  exact ⟨halike, hwithin.alike halike⟩

/-- The holds have nothing of what was settled. -/
def Clean (holds : Holds) (s : State ι) : Prop :=
  ∀ j grant, Gone s j grant → holds.lookup grant.key = none

omit [DecidableEq ι] in
theorem clean_within {holds : Holds} :
    Stable i fun s => Within presented i stage m s ∧ Clean holds s := by
  rintro s t ⟨hs, hclean⟩ step
  obtain ⟨hgranted, hsettled, hfailed⟩ := section_notes hs.user step
  exact ⟨within_stable s t hs step,
    fun k grant hgone => hclean k grant (hgone.minor hgranted hsettled hfailed)⟩

omit [DecidableEq ι] in
theorem Clean.keeps {holds : Holds} {s t : State ι} (h : Clean holds s) (keeps : Keeps i s t) :
    Clean holds t :=
  fun j grant hgone => h j grant (hgone.minor keeps.granted keeps.settled keeps.failed)

theorem clean_steady {allowed : Request Unit → Prop} {holds : Holds} :
    Steady presented i allowed fun s => Within presented i stage m s ∧ Clean holds s where
  stable := clean_within
  rightful := fun _ h => h.1.rightful
  own := fun _ _ _ _ h _ _ keeps => ⟨h.1.keeps keeps, h.2.keeps keeps⟩

omit [DecidableEq ι] in
theorem clean_doc {s : State ι} (hinv : Inv s) : Clean s.1.storage.holds s :=
  fun j grant hgone => (hinv.gone j grant hgone).1

omit [DecidableEq ι] in
theorem Clean.retain {holds : Holds} {s : State ι} (h : Clean holds s)
    (keep : String → Hold → Bool) : Clean (Tables.retain keep holds) s := by
  intro j grant hgone
  rw [lookup_retain, h j grant hgone]
  rfl

omit [DecidableEq ι] in
theorem Clean.erase {holds : Holds} {s : State ι} (h : Clean holds s) (key : String) :
    Clean (holds.erase key) s := by
  intro j grant hgone
  by_cases hkey : grant.key = key
  · rw [hkey, AList.lookup_erase]
  · rw [AList.lookup_erase_ne hkey]
    exact h j grant hgone

omit [DecidableEq ι] in
/-- A key of a number that nobody was granted. -/
theorem Clean.insert {holds : Holds} {s : State ι} (h : Clean holds s) (hinv : Inv s)
    {owner : String} {id : ReservationId}
    (fresh : ∀ j grant, s.2.granted j = some grant → grant.id ≠ id) (hold : Hold) :
    Clean (holds.insert (holdKey owner id) hold) s := by
  intro j grant hgone
  obtain ⟨-, owner', -, hkey⟩ := hinv.granted j grant hgone.1
  have hne : grant.key ≠ holdKey owner id := by
    intro heq
    exact fresh j grant hgone.1 (holdKey_inj (hkey.symm.trans heq)).2
  rw [AList.lookup_insert_ne hne]
  exact h j grant hgone

omit [DecidableEq ι] in
theorem Clean.renewed {doc : Holds} {s : State ι} (h : Clean doc s) (hinv : Inv s)
    (hwithin : Within presented i stage m s) (nowMs : Int) : Clean (renewed m nowMs doc) s := by
  intro j grant hgone
  obtain ⟨hfree, -⟩ := hwithin.gone j grant hgone
  rcases lookup_renewed m nowMs doc grant.key with ⟨id, own, hown, hkey, -⟩ | ⟨-, hlookup⟩
  · obtain ⟨-, owner', -, hgrant⟩ := hinv.granted j grant hgone.1
    have hid := (holdKey_inj ((hwithin.keyed id own hown).symm.trans (hkey.trans hgrant))).2
    rw [hid] at hown
    rw [hown] at hfree
    cases hfree
  · rw [hlookup, h j grant hgone]
    rfl

omit [DecidableEq ι] in
theorem Within.withHolds {s : State ι} (h : Within presented i stage m s) {holds : Holds}
    (clean : Clean holds s) : Within presented i stage { m with holds := holds } s :=
  ⟨h.standing, h.uses, h.rightful, h.owner, h.keyed,
    fun j hj grant hhand => ⟨(h.others j hj grant hhand).1, (h.others j hj grant hhand).2,
      (h.others j hj grant hhand).3⟩,
    fun j grant hgone => ⟨(h.gone j grant hgone).1, clean j grant hgone⟩⟩

/-- A request of the call that has the ledger, with what it knows before and after. -/
theorem section_ask_bind {α β : Type} {known : State ι → Prop}
    (steady : Steady presented i (fun _ => True) known)
    {post : Except String β → PaymentLedger → State ι → Prop} {e : Request Unit}
    {g : e.Answer → Except String α} {f : α → Op Unit β} {s : State ι} (h : known s)
    (clean : ∀ t, Inv t → known t → ∀ version holds, e = .storeHolds version holds →
      t.1.user = some i ∧ Clean holds t)
    (value : ∀ t r u, Inv t → known t → storageEnv presented t i e r u → Inv u → known u →
      ∀ a, g r = .ok a → Meets (storageEnv presented) moduleContract i post (f a) m u)
    (error : ∀ v text, known v → post (.error text) m v) :
    Meets (storageEnv presented) moduleContract i post (Method.ask e g >>= f) m s := by
  refine meets_ask_bind fun t ht hinvt r u hu => ?_
  have hknownt := steady.stable.rely h ht
  obtain ⟨hinvu, hguar, hkeeps⟩ := storage_step hinvt (steady.rightful t hknownt)
    (fun version holds he => ⟨(clean t hinvt hknownt version holds he).1,
      fun _ => (clean t hinvt hknownt version holds he).2⟩) hu
  have hknownu := steady.own t u e r hknownt trivial hu hkeeps
  refine ⟨hinvu, hguar, ?_⟩
  cases hg : g r with
  | ok a => exact value t r u hinvt hknownt hu hinvu hknownu a hg
  | error text => exact fun v hv _ => error v text (steady.stable.rely hknownu hv)

/-- The document that was read. -/
theorem loadHolds_read {s t : State ι} {r : (Request.loadHolds : Request Unit).Answer}
    (step : storageEnv presented s i .loadHolds r t) {version : Option Version} {doc : Holds}
    (hr : id r = Except.ok (version, doc)) :
    version = s.1.storage.version ∧ doc = s.1.storage.holds ∧ t.1.storage = s.1.storage := by
  obtain ⟨⟨-, storage, hanswer, hworld⟩, -⟩ := step
  rw [show r = Except.ok (version, doc) from hr] at hanswer
  obtain ⟨hfound, rfl⟩ := hanswer
  obtain ⟨rfl, rfl⟩ := Prod.mk.inj hfound
  exact ⟨rfl, rfl, by rw [hworld]⟩

/-- The number is this call's, and no reservation has it yet. -/
def Unused (id : ReservationId) (s : State ι) : Prop :=
  id < s.1.storage.ids () ∧ ∀ j grant, s.2.granted j = some grant → grant.id ≠ id

theorem nextReservation_unused {s t : State ι} {id : ReservationId} (hinv : Inv s)
    (step : storageEnv presented s i .nextReservation id t) : Unused id t := by
  obtain ⟨hgranted, -⟩ := keeping_notes (fun _ _ h => by cases h) step
  obtain ⟨⟨-, storage, ⟨hfresh, hnumbered⟩, hworld⟩, -⟩ := step
  refine ⟨?_, fun j grant hj => ?_⟩
  · rw [hworld, hnumbered]
    simp [Shared.numbered]
  · rw [hgranted] at hj
    exact Nat.ne_of_lt (Nat.lt_of_lt_of_le (hinv.granted j grant hj).1 hfresh)

theorem unused_steady {holds : Holds} {id : ReservationId} :
    Steady presented i (fun _ => True) fun s =>
      (Within presented i stage m s ∧ Clean holds s) ∧ Unused id s where
  stable := by
    rintro s t ⟨hs, hid, hunused⟩ step
    obtain ⟨hgranted, -, -⟩ := section_notes hs.1.user step
    refine ⟨clean_within s t hs step, ?_, ?_⟩
    · obtain ⟨j, -, guar⟩ := step
      exact Nat.lt_of_lt_of_le hid guar.ids
    · rw [hgranted]
      exact hunused
  rightful := fun _ h => h.1.1.rightful
  own := by
    rintro s t e r ⟨hs, hid, hunused⟩ hallowed step keeps
    refine ⟨⟨hs.1.keeps keeps, hs.2.keeps keeps⟩, Nat.lt_of_lt_of_le hid keeps.ids, ?_⟩
    rw [keeps.granted]
    exact hunused

omit [DecidableEq ι] in
theorem hand_granted {s : State ι} {j : ι} {grant : Grant} (h : s.2.hand j = some grant) :
    s.2.granted j = some grant := by
  rw [Notes.hand] at h
  split_ifs at h
  exact h

omit [DecidableEq ι] in
/-- A reservation under a number of its own displaces nothing. -/
theorem Within.insert {s : State ι} (h : Within presented i stage m s) {id : ReservationId}
    (unused : Unused id s) (amount : Nat) {holds : Holds} (clean : Clean holds s) :
    Within presented i stage
      { m with
        holds := holds
        reservations := m.reservations.insert id ⟨holdKey m.owner id, amount⟩ } s := by
  refine ⟨h.standing, h.uses, h.rightful, h.owner, fun own hold hown => ?_,
    fun j hj grant hhand => ?_, fun j grant hgone => ⟨?_, clean j grant hgone⟩⟩
  · by_cases hid : own = id
    · subst hid
      rw [AList.lookup_insert] at hown
      cases hown
      rfl
    · rw [AList.lookup_insert_ne hid] at hown
      exact h.keyed own hold hown
  · obtain ⟨hgeneration, hkey, hheld⟩ := h.others j hj grant hhand
    refine ⟨hgeneration, hkey, ?_⟩
    rw [AList.lookup_insert_ne (unused.2 j grant (hand_granted hhand))]
    exact hheld
  · rw [AList.lookup_insert_ne (unused.2 j grant hgone.1)]
    exact (h.gone j grant hgone).1

/-- What a reservation ends in. -/
def ReserveEnds (presented : ι → Option String) (i : ι) (stage : Stage)
    (r : Except String (Except BudgetRefusal ReservationId)) (m : PaymentLedger) (s : State ι) :
    Prop :=
  Within presented i stage m s ∧
    ∀ id, r = .ok (.ok id) → (m.reservations.lookup id).isSome ∧ Unused id s

theorem reserveLoop_within (rounds : Nat) (now : Instant) (amount attempts : Nat) {s : State ι}
    (hinv : Inv s) (h : Within presented i stage m s) :
    Meets (storageEnv presented) moduleContract i (ReserveEnds presented i stage)
      (reserveLoop rounds now amount attempts) m s := by
  induction attempts generalizing m s with
  | zero =>
    exact meets_throw fun t ht _ => ⟨within_stable.rely h ht, fun id hid => by cases hid⟩
  | succ attempts ih =>
    have failing : ∀ (m : PaymentLedger) (t : State ι) (text : String),
        Within presented i stage m t →
          ReserveEnds presented i stage (.error text) m t :=
      fun m t text hwithin => ⟨hwithin, fun id hid => by cases hid⟩
    refine section_ask_bind within_steady h (fun _ _ _ _ _ he => by cases he) ?_
      (failing m · ·)
    rintro t r u hinvt ht hstep hinvu hu ⟨version, doc⟩ hr
    obtain ⟨rfl, rfl, hsame⟩ := loadHolds_read hstep hr
    have hclean : Clean t.1.storage.holds u := by
      rw [← hsame]
      exact clean_doc hinvu
    refine meets_bind hinvu (plainly_refreshRecords rounds _ clean_steady m u hinvu ⟨hu, hclean⟩)
      ?_ fun text m₁ v _ ⟨halike, hwithin, _⟩ w hw _ =>
        failing m₁ w text ((within_stable.rely hwithin hw).alike halike)
    rintro done m₁ v hinvv ⟨halike, hv, hcleanv⟩
    have hlive := hcleanv.retain fun key hold =>
      now.millis < hold.expiresMs && !m₁.committedHolds.contains key
    refine meets_update_bind (meets_self_bind ?_)
    have hv₁ := (hv.alike halike).withHolds hlive
    cases hcheck : (PaymentLedger.checkBudgetAt
        { m₁ with holds := liveHolds now.millis m₁.committedHolds t.1.storage.holds }
        now amount).refusal with
    | some refusal =>
      refine section_ask_bind within_steady hv₁ (fun _ _ _ _ _ he => by cases he) ?_
        (failing _ · ·)
      rintro v' r' w hinvv' hv' hstep' hinvw hw ⟨current, doc'⟩ -
      dsimp only
      split_ifs with hcurrent
      · exact meets_pure fun x hx _ => ⟨within_stable.rely hw hx, fun id hid => by cases hid⟩
      · exact ih hinvw hw
    | none =>
      refine section_ask_bind clean_steady ⟨hv₁, hlive⟩ (fun _ _ _ _ _ he => by cases he) ?_
        fun w text hw => failing _ w text hw.1
      rintro v' r' w hinvv' - hstep' hinvw ⟨hw, hcleanw⟩ id hid
      obtain rfl : r' = id := Except.ok.inj hid
      have hunused := nextReservation_unused hinvv' hstep'
      refine section_ask_bind unused_steady ⟨⟨hw, hcleanw⟩, hunused⟩ ?_ ?_
        fun x text hx => failing _ x text hx.1.1
      · intro x hinvx hx version holds he
        cases he
        exact ⟨hx.1.1.user, hx.1.2.insert hinvx hx.2.2 _⟩
      rintro x stored y hinvx - hstep'' hinvy ⟨⟨hy, hcleany⟩, hunusedy⟩ accepted -
      cases accepted with
      | false => exact ih hinvy hy
      | true =>
        refine meets_update_bind (meets_pure fun z hz hinvz => ?_)
        obtain ⟨⟨hwithinz, hcleanz⟩, hunusedz⟩ :=
          unused_steady.stable.rely ⟨⟨hy, hcleany⟩, hunusedy⟩ hz
        refine ⟨hwithinz.insert hunusedz amount (hcleanz.insert hinvz hunusedz.2 _),
          fun granted hgranted => ?_⟩
        obtain rfl : r' = granted := Except.ok.inj (Except.ok.inj hgranted)
        exact ⟨by rw [AList.lookup_insert]; rfl, hunusedz⟩

theorem reserve_within (rounds amount : Nat) {s : State ι}
    (h : Within presented i stage m s) :
    Meets (storageEnv presented) moduleContract i (ReserveEnds presented i stage)
      (utcNow >>= fun now => reserveAt rounds now amount) m s := by
  refine section_ask_bind within_steady h (fun _ _ _ _ _ he => by cases he) ?_
    fun v text hv => ⟨hv, fun id hid => by cases hid⟩
  rintro t r u - - - hinvu hu now -
  refine meets_self_bind ?_
  split_ifs with hcap
  · exact meets_pure fun v hv _ => ⟨within_stable.rely hu hv, fun id hid => by cases hid⟩
  · exact reserveLoop_within rounds now amount holdCasAttempts hinvu hu

/-- The call's release has not been given up, or storage is to blame. -/
def Trying (i : ι) (attempts : Nat) (s : State ι) : Prop :=
  s.2.failed i = true ∨ 0 < attempts ∧ holdCasAttempts ≤ s.2.lost i + attempts

/-- The stored hold is gone, or storage is to blame. -/
def Dropped (i : ι) (key : String) (s : State ι) : Prop :=
  s.2.failed i = true ∨ s.1.stored key = none

theorem notes_lost {s t : State ι} {e : Request Unit} {r : e.Answer}
    (step : storageEnv presented s i e r t) :
    t.2.lost i = lostAfter (s.2.lost i) (.storage e) r ∧
      t.2.failed i = (s.2.failed i || faulted (.storage e) r ||
        holdCasAttempts ≤ lostAfter (s.2.lost i) (.storage e) r) := by
  rw [step.2]
  simp [Notes.after]

theorem lost_race {s t : State ι} {attempts : Nat} {version : Option Version} {holds : Holds}
    (h : Trying i (attempts + 1) s)
    (step : storageEnv presented s i (.storeHolds version holds) (.ok false) t) :
    Trying i attempts t := by
  obtain ⟨hlost, hfailed⟩ := notes_lost step
  have hlost' : t.2.lost i = s.2.lost i + 1 := hlost
  rcases h with hbefore | ⟨-, henough⟩
  · left
    rw [hfailed, hbefore]
    rfl
  · by_cases hleft : 0 < attempts
    · refine .inr ⟨hleft, ?_⟩
      omega
    · left
      have hused : holdCasAttempts ≤ s.2.lost i + 1 := by omega
      rw [hfailed]
      simp [lostAfter, hused]

omit [DecidableEq ι] in
theorem Stable.imp {p : Prop} {known : State ι → Prop} (stable : Stable i known) :
    Stable i fun s => p → known s :=
  fun s t h step hp => stable s t (h hp) step

omit [DecidableEq ι] in
theorem trying_within {attempts : Nat} :
    Stable i fun s => Within presented i stage m s ∧ Trying i attempts s := by
  rintro s t ⟨hs, htrying⟩ step
  refine ⟨within_stable s t hs step, ?_⟩
  obtain ⟨j, hj, guar⟩ := step
  obtain ⟨-, -, hfailed, hlost, -⟩ := guar.notes i fun h => hj h.symm
  rw [Trying, hfailed, hlost]
  exact htrying

omit [DecidableEq ι] in
theorem dropped_within {key : String} :
    Stable i fun s => (Within presented i stage m s ∧ s.1.Ours key) ∧ Dropped i key s := by
  rintro s t ⟨⟨hs, howner⟩, hdropped⟩ step
  have hwithin := within_stable s t hs step
  obtain ⟨j, hj, guar⟩ := step
  have hi : i ≠ j := fun h => hj h.symm
  refine ⟨⟨hwithin, ?_⟩, ?_⟩
  · obtain ⟨owner, hmem, id, hkey⟩ := howner
    exact ⟨owner, guar.owners owner hmem, id, hkey⟩
  · rcases hdropped with hfailed | hstored
    · exact .inl ((guar.notes i hi).2.2.1.trans hfailed)
    · exact .inr ((guar.sectionKept i hi hs.user).2.2.2 key howner hstored)

omit [DecidableEq ι] in
theorem ours_within {key : String} :
    Stable i fun s => Within presented i stage m s ∧ s.1.Ours key := by
  rintro s t ⟨hs, owner, hmem, id, hkey⟩ step
  refine ⟨within_stable s t hs step, owner, ?_, id, hkey⟩
  obtain ⟨j, -, guar⟩ := step
  exact guar.owners owner hmem

/-- A request of the call that has the ledger, looked at however it ended. -/
theorem section_ask {α : Type} {known : State ι → Prop} (stable : Stable i known)
    (rightful : ∀ s, known s → Rightful presented i s) {after : Except String α → State ι → Prop}
    (lasting : ∀ r, Stable i (after r)) {e : Request Unit} {g : e.Answer → Except String α}
    {s : State ι} (h : known s)
    (clean : ∀ t, known t → ∀ version holds, e = .storeHolds version holds →
      t.1.user = some i ∧ Clean holds t)
    (step : ∀ t r u, Inv t → known t → storageEnv presented t i e r u → Inv u → Keeps i t u →
      after (g r) u) :
    Meets (storageEnv presented) moduleContract i (fun r m' t => m' = m ∧ after r t)
      (Method.ask e g) m s := by
  refine meets_ask fun t ht hinvt r u hu => ?_
  have hknownt := stable.rely h ht
  obtain ⟨hinvu, hguar, hkeeps⟩ := storage_step hinvt (rightful t hknownt)
    (fun version holds he => ⟨(clean t hknownt version holds he).1,
      fun _ => (clean t hknownt version holds he).2⟩) hu
  have hafter := step t r u hinvt hknownt hu hinvu hkeeps
  exact ⟨hinvu, hguar, fun v hv _ => ⟨rfl, (lasting _).rely hafter hv⟩⟩

/-- What a release knows while it tries to put the document without the key. -/
def Releasing (presented : ι → Option String) (i : ι) (stage : Stage) (m : PaymentLedger)
    (key : String) (attempts : Nat) (s : State ι) : Prop :=
  (Within presented i stage m s ∧ s.1.Ours key) ∧ Within presented i stage m s ∧ Trying i attempts s

omit [DecidableEq ι] in
theorem releasing_stable {key : String} {attempts : Nat} :
    Stable i (Releasing presented i stage m key attempts) :=
  ours_within.and trying_within

/-- What a release has done. -/
def Released (presented : ι → Option String) (i : ι) (stage : Stage) (m : PaymentLedger)
    (key : String) (s : State ι) : Prop :=
  (Within presented i stage m s ∧ s.1.Ours key) ∧ Dropped i key s

omit [DecidableEq ι] in
theorem Ours.keeps {s t : State ι} {key : String} (h : s.1.Ours key) (keeps : Keeps i s t) :
    t.1.Ours key := by
  obtain ⟨owner, hmem, id, hkey⟩ := h
  exact ⟨owner, keeps.owners owner hmem, id, hkey⟩

/-- What a release knows of the document it has looked for. -/
def Looked (presented : ι → Option String) (i : ι) (stage : Stage) (m : PaymentLedger)
    (key : String) (attempts : Nat) (r : Except String (Option Version × Holds)) (s : State ι) :
    Prop :=
  match r with
  | .error _ => Released presented i stage m key s
  | .ok (version, doc) => Releasing presented i stage m key attempts s ∧
      (Within presented i stage m s ∧ Clean doc s) ∧
        ((version.isNone || (doc.lookup key).isNone) = true → Released presented i stage m key s)

theorem loadHolds_looked {key : String} {attempts : Nat} {s : State ι}
    (h : Releasing presented i stage m key attempts s) :
    Meets (storageEnv presented) moduleContract i
      (fun r m' t => m' = m ∧ Looked presented i stage m key attempts r t) loadHolds m s := by
  refine section_ask releasing_stable (fun _ h => h.1.1.rightful) (fun r => ?_) h
    (fun _ _ _ _ he => by cases he) ?_
  · cases r with
    | error text => exact dropped_within
    | ok found => exact releasing_stable.and (clean_within.and dropped_within.imp)
  rintro t r u hinvt ⟨⟨hwithin, hours⟩, -, htrying⟩ hstep hinvu hkeeps
  have hu := hwithin.keeps hkeeps
  have hoursu := Ours.keeps hours hkeeps
  obtain ⟨hlost, hfailed⟩ := notes_lost hstep
  cases r with
  | error text =>
    refine ⟨⟨hu, hoursu⟩, .inl ?_⟩
    rw [hfailed]
    simp [faulted]
  | ok found =>
    obtain ⟨version, doc⟩ := found
    obtain ⟨rfl, rfl, hsame⟩ := loadHolds_read hstep rfl
    have htryingu : Trying i attempts u := by
      rcases htrying with hbefore | henough
      · exact .inl (hkeeps.failed i hbefore)
      · right
        rw [hlost]
        exact henough
    have hclean : Clean t.1.storage.holds u := by
      rw [← hsame]
      exact clean_doc hinvu
    refine ⟨⟨⟨hu, hoursu⟩, hu, htryingu⟩, ⟨hu, hclean⟩, fun hnone => ⟨⟨hu, hoursu⟩, .inr ?_⟩⟩
    rw [World.stored, hsame]
    rcases Bool.or_eq_true_iff.mp hnone with hversion | hlookup
    · have hdoc : t.1.storage.doc = none := by simpa [Shared.version] using hversion
      simp [Shared.holds, hdoc]
    · exact Option.isNone_iff_eq_none.mp hlookup

/-- What a release knows once it has tried to put the document. -/
def Tried (presented : ι → Option String) (i : ι) (stage : Stage) (m : PaymentLedger)
    (key : String) (attempts : Nat) (r : Except String Bool) (s : State ι) : Prop :=
  match r with
  | .ok false => Releasing presented i stage m key attempts s
  | _ => Released presented i stage m key s

theorem storeHolds_tried {key : String} {attempts : Nat} {version : Option Version} {doc : Holds}
    {s : State ι} (h : Releasing presented i stage m key (attempts + 1) s)
    (clean : Within presented i stage m s ∧ Clean doc s) :
    Meets (storageEnv presented) moduleContract i
      (fun r m' t => m' = m ∧ Tried presented i stage m key attempts r t)
      (storeHolds version (doc.erase key)) m s := by
  refine section_ask (releasing_stable.and clean_within) (fun _ h => h.1.1.1.rightful)
    (fun r => ?_) ⟨h, clean⟩ (fun t ht version holds he => ?_) ?_
  · rcases r with text | ⟨_ | _⟩
    · exact dropped_within
    · exact releasing_stable
    · exact dropped_within
  · cases he
    exact ⟨ht.2.1.user, ht.2.2.erase key⟩
  rintro t r u hinvt ⟨⟨⟨hwithin, hours⟩, -, htrying⟩, -⟩ hstep hinvu hkeeps
  have hu := hwithin.keeps hkeeps
  have hoursu := Ours.keeps hours hkeeps
  rcases r with text | ⟨_ | _⟩
  · refine ⟨⟨hu, hoursu⟩, .inl ?_⟩
    rw [(notes_lost hstep).2]
    simp [faulted]
  · exact ⟨⟨hu, hoursu⟩, hu, lost_race htrying hstep⟩
  · refine ⟨⟨hu, hoursu⟩, .inr ?_⟩
    obtain ⟨⟨-, storage, hanswer, hworld⟩, -⟩ := hstep
    rcases hanswer with ⟨-, -, hput⟩ | ⟨hfalse, -, -⟩
    · rw [World.stored, hworld, hput]
      exact AList.lookup_erase key doc
    · cases hfalse

theorem releaseLoop_released {key : String} (attempts : Nat) {s : State ι} (hinv : Inv s)
    (h : Releasing presented i stage m key attempts s) :
    Meets (storageEnv presented) moduleContract i
      (fun r m' t => r = .ok () ∧ m' = m ∧ Released presented i stage m key t)
      (releaseLoop key attempts) m s := by
  induction attempts generalizing s with
  | zero =>
    refine meets_pure fun t ht _ => ?_
    obtain ⟨hours, -, htrying⟩ := releasing_stable.rely h ht
    refine ⟨rfl, rfl, hours, .inl ?_⟩
    rcases htrying with hfailed | ⟨hleft, -⟩
    · exact hfailed
    · exact absurd hleft (Nat.lt_irrefl 0)
  | succ attempts ih =>
    have done : ∀ t, Released presented i stage m key t →
        Meets (storageEnv presented) moduleContract i
          (fun r m' t => r = .ok () ∧ m' = m ∧ Released presented i stage m key t)
          (pure ()) m t :=
      fun t ht => meets_pure fun u hu _ => ⟨rfl, rfl, dropped_within.rely ht hu⟩
    refine meets_tried_bind hinv (loadHolds_looked h) ?_
    rintro (text | ⟨version, doc⟩) m' t hinvt ⟨rfl, hlooked⟩
    · exact done t hlooked
    obtain ⟨hreleasing, hclean, hgone⟩ := hlooked
    dsimp only
    split_ifs with hnone
    · exact done t (hgone hnone)
    refine meets_tried_bind hinvt (storeHolds_tried hreleasing hclean) ?_
    rintro (text | ⟨_ | _⟩) m'' u hinvu ⟨rfl, htried⟩
    · exact done u htried
    · exact ih hinvu htried
    · exact done u htried

omit [DecidableEq ι] in
/-- A reservation in hand goes without the others. -/
theorem Within.erase {s : State ι} (h : Within presented i stage m s) (hinv : Inv s)
    {grant : Grant} (hand : stage.hand = some grant) (key : String) :
    Within presented i stage
      { m with
        reservations := m.reservations.erase grant.id
        holds := m.holds.erase key } s := by
  have hmine := hand_granted (h.standing.hand.trans hand)
  refine ⟨h.standing, h.uses, h.rightful, h.owner, fun own hold hown => ?_,
    fun j hj other hhand => ?_, fun j other hgone => ⟨?_, ?_⟩⟩
  · by_cases hid : own = grant.id
    · rw [hid, AList.lookup_erase] at hown
      cases hown
    · rw [AList.lookup_erase_ne hid] at hown
      exact h.keyed own hold hown
  · obtain ⟨hgeneration, hkey, hheld⟩ := h.others j hj other hhand
    refine ⟨hgeneration, hkey, ?_⟩
    have hid : other.id ≠ grant.id := fun hid =>
      hj (hinv.apart j i other grant (hand_granted hhand) hmine hid)
    rw [AList.lookup_erase_ne hid]
    exact hheld
  · by_cases hid : other.id = grant.id
    · rw [hid, AList.lookup_erase]
    · rw [AList.lookup_erase_ne hid]
      exact (h.gone j other hgone).1
  · by_cases hkey : other.key = key
    · rw [hkey, AList.lookup_erase]
    · rw [AList.lookup_erase_ne hkey]
      exact (h.gone j other hgone).2

/-- What is left of a reservation that was ended. -/
def Settled (presented : ι → Option String) (i : ι) (stage : Stage) (grant : Grant)
    (m : PaymentLedger) (s : State ι) : Prop :=
  Released presented i stage m grant.key s ∧ FreeOf m grant

theorem release_settled {s : State ι} (hinv : Inv s) (h : Within presented i stage m s)
    {grant : Grant} (hand : stage.hand = some grant) (mine : HeldBy m grant) :
    Meets (storageEnv presented) moduleContract i
      (fun r m' t => r = .ok () ∧ m'.generation = grant.generation ∧
        Settled presented i stage grant m' t)
      (release grant.id) m s := by
  obtain ⟨own, hown⟩ := Option.isSome_iff_exists.mp mine.held
  have hkey : own.key = grant.key := (h.keyed grant.id own hown).trans mine.key.symm
  refine meets_self_bind ?_
  simp only [hown]
  refine meets_update_bind ?_
  rw [hkey]
  have herased := h.erase hinv hand grant.key
  refine meets_mono ?_ (releaseLoop_released holdCasAttempts hinv
    ⟨⟨herased, m.owner, h.owner, grant.id, mine.key⟩, herased, .inr ⟨by decide, by simp⟩⟩)
  rintro r m' t - ⟨rfl, rfl, hreleased⟩
  exact ⟨rfl, mine.generation, hreleased,
    AList.lookup_erase grant.id _, AList.lookup_erase grant.key _⟩

/-- What a commit leaves: the reservation ended, or as it was. -/
def Committed (presented : ι → Option String) (i : ι) (stage : Stage) (grant : Grant)
    (r : Except String Unit) (m : PaymentLedger) (s : State ι) : Prop :=
  match r with
  | .ok _ => m.generation = grant.generation ∧ Settled presented i stage grant m s
  | .error _ => HeldBy m grant ∧ Within presented i stage m s

theorem tryCommitReservation_committed (rounds : Nat) (record : PaymentRecord) {s : State ι}
    (hinv : Inv s) (h : Within presented i stage m s) {grant : Grant}
    (hand : stage.hand = some grant) (mine : HeldBy m grant) :
    Meets (storageEnv presented) moduleContract i (Committed presented i stage grant)
      (tryCommitReservation rounds grant.id record) m s := by
  refine meets_self_bind (meets_bind hinv
    (within_plainly (plainly_appendRecord rounds record _) hinv h) ?_ ?_)
  · rintro done m' t hinvt ⟨halike, hwithin⟩
    refine meets_mono ?_ (release_settled hinvt hwithin hand (halike.heldBy mine))
    rintro r m'' u - ⟨rfl, hsettled⟩
    exact hsettled
  · rintro text m' t - ⟨halike, hwithin⟩ u hu -
    exact ⟨halike.heldBy mine, within_stable.rely hwithin hu⟩

theorem renewLoop_within (now : Instant) (attempts : Nat) {s : State ι} (hinv : Inv s)
    (h : Within presented i stage m s) :
    Meets (storageEnv presented) moduleContract i (fun _ m' t => Within presented i stage m' t)
      (renewLoop now attempts) m s := by
  induction attempts generalizing s with
  | zero => exact meets_throw fun t ht _ => within_stable.rely h ht
  | succ attempts ih =>
    refine section_ask_bind within_steady h (fun _ _ _ _ _ he => by cases he) ?_
      fun v text hv => hv
    rintro t r u - - hstep hinvu hu ⟨version, doc⟩ hr
    obtain ⟨rfl, rfl, hsame⟩ := loadHolds_read hstep hr
    have hclean : Clean t.1.storage.holds u := by
      rw [← hsame]
      exact clean_doc hinvu
    have hrenewed := hclean.renewed hinvu hu now.millis
    refine meets_self_bind (section_ask_bind clean_steady ⟨hu, hrenewed⟩ ?_ ?_
      fun v text hv => hv.1)
    · intro v _ hv version holds he
      cases he
      exact ⟨hv.1.user, hv.2⟩
    rintro v stored w - - - hinvw ⟨hw, hcleanw⟩ accepted -
    cases accepted with
    | false => exact ih hinvw hw
    | true =>
      refine meets_update_bind (meets_pure fun x hx _ => ?_)
      obtain ⟨hwithinx, hcleanx⟩ := clean_within.rely ⟨hw, hcleanw⟩ hx
      exact hwithinx.withHolds hcleanx

theorem renewHoldsAt_within {s : State ι} (h : Within presented i stage m s) :
    Meets (storageEnv presented) moduleContract i (fun _ m' t => Within presented i stage m' t)
      (utcNow >>= fun now => renewHoldsAt now) m s := by
  refine section_ask_bind within_steady h (fun _ _ _ _ _ he => by cases he) ?_ fun v text hv => hv
  rintro t r u - - - hinvu hu now -
  refine meets_self_bind ?_
  split_ifs with hempty
  · exact meets_pure fun v hv _ => within_stable.rely hu hv
  · exact renewLoop_within now holdCasAttempts hinvu hu

end LedgerWorld
