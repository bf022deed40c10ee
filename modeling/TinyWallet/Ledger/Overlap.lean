import TinyWallet.Ledger.Intake

/-!
# Holds, committed keys and payments

A ledger counts a payment by its hold or by its record. A reservation refreshes
the mirror of the hold document and the committed keys together; other reads of
the stream refresh the keys alone, and a renewal the mirror alone. A commit that
cannot be stored leaves the record in memory, and no key.

A run is a sequence of calls on one ledger. What storage answers is arbitrary,
so other ledgers may do anything in between. Beside the ledger it carries the
holds whose payments have their record, which no call looks at.
-/

namespace LedgerOverlap

open Programs Sharing Tables LedgerRecords LedgerStore LedgerStorage LedgerReading LedgerCalls
  LedgerIntake

variable {P : Type}

/-- No hold of the mirror is committed. -/
def Apart (m : PaymentLedger) : Prop := ∀ key ∈ m.committedHolds, m.holds.lookup key = none

/-- Holds with the ids of the records they were committed with. -/
abbrev Paid := List (String × String)

/-- The holds of payments that have a record. -/
def recorded (m : PaymentLedger) (paid : Paid) : List String :=
  m.committedHolds ++ paid.map Prod.fst

/-- No payment that has a record has a hold in the mirror. -/
def Once (m : PaymentLedger) (paid : Paid) : Prop :=
  ∀ key ∈ recorded m paid, m.holds.lookup key = none

/-- The ledger knows each paid hold as committed, or else the record itself. -/
def Known (m : PaymentLedger) (paid : Paid) : Prop :=
  ∀ pair ∈ paid, pair.1 ∈ m.committedHolds ∨ ∃ record ∈ m.records, record.id = pair.2

/-- What the payments taken in commit. -/
def takenPairs (history : History P) : Paid :=
  (taken history).filterMap fun loaded => loaded.2.map fun key => (key, loaded.1.id)

theorem takenPairs_keys (history : History P) :
    (takenPairs history).map Prod.fst = takenKeys history := by
  rw [takenPairs, takenKeys, List.map_filterMap]
  refine congrArg (List.filterMap · (taken history)) (funext fun loaded => ?_)
  cases loaded.2 with
  | none => rfl
  | some key => rfl

/-- The hold that a commit ties to its record. -/
def ownPair (m : PaymentLedger) (id : ReservationId) (record : PaymentRecord) : Paid :=
  (reservationKey m id).toList.map fun key => (key, record.id)

/-- The paid holds after a call. A ledger that is opened anew forgets what only its memory had,
and a commit that reports an error has recorded nothing. -/
def paidAfter (before : PaymentLedger) (paid : Paid) (history : History P)
    (result : Except String Outcome) : Call → Paid
  | .openLedger .. => if result.isOk then takenPairs history else paid
  | .release _ | .renewHoldsAt _ => paid
  | .commitReservation id record => ownPair before id record ++ takenPairs history ++ paid
  | .tryCommitReservation id record =>
    (if result.isOk then ownPair before id record else []) ++ takenPairs history ++ paid
  | .reserveAt .. | .tryRecordPayment _ | .recordPayment _ | .observeSolanaExpiry _ =>
    takenPairs history ++ paid

theorem releaseLoop_silent {key : String} {attempts : Nat} : ∀ {m m' : PaymentLedger}
    {history : History P} {r : Except String Unit},
    Trace (releaseLoop key attempts m) history (.pure (r, m')) →
      m' = m ∧ r = .ok () ∧ ∀ rest, taken (history ++ rest) = taken rest := by
  induction attempts with
  | zero =>
    intro m m' history r trace
    obtain ⟨rfl, rfl, rfl⟩ := method_trace_done trace
    exact ⟨rfl, rfl, fun _ => rfl⟩
  | succ attempts ih =>
    intro m m' history r trace
    rw [releaseLoop] at trace
    obtain ⟨found, m₁, before, after, rfl, first, second⟩ := method_trace_tried trace
    obtain ⟨a, rfl, -, rfl⟩ := method_trace_ask first
    cases found with
    | error text =>
      obtain ⟨rfl, rfl, rfl⟩ := method_trace_done second
      exact ⟨rfl, rfl, fun _ => rfl⟩
    | ok found =>
      obtain ⟨version, doc⟩ := found
      dsimp only at second
      split_ifs at second
      · obtain ⟨rfl, rfl, rfl⟩ := method_trace_done second
        exact ⟨rfl, rfl, fun _ => rfl⟩
      · obtain ⟨stored, m₂, before, after, rfl, third, last⟩ := method_trace_tried second
        obtain ⟨b, rfl, -, rfl⟩ := method_trace_ask third
        cases stored with
        | error text =>
          obtain ⟨rfl, rfl, rfl⟩ := method_trace_done last
          exact ⟨rfl, rfl, fun _ => rfl⟩
        | ok stored =>
          cases stored with
          | true =>
            obtain ⟨rfl, rfl, rfl⟩ := method_trace_done last
            exact ⟨rfl, rfl, fun _ => rfl⟩
          | false =>
            obtain ⟨rfl, rfl, hrest⟩ := ih last
            exact ⟨rfl, rfl, hrest⟩

/-- The mirror without the hold of a reservation. -/
def heldWithout (m : PaymentLedger) (id : ReservationId) : Holds :=
  match reservationKey m id with
  | none => m.holds
  | some key => m.holds.erase key

/-- A release always ends well, and takes nothing in. -/
structure Releases (id : ReservationId) (m m' : PaymentLedger) (history : History P)
    (r : Except String Unit) : Prop where
  result : r = .ok ()
  holds : m'.holds = heldWithout m id
  committed : m'.committedHolds = m.committedHolds
  records : m'.records = m.records
  silent : ∀ rest, taken (history ++ rest) = taken rest

theorem release_releases {id : ReservationId} {m m' : PaymentLedger} {history : History P}
    {r : Except String Unit} (trace : Trace (release id m) history (.pure (r, m'))) :
    Releases id m m' history r := by
  have trace := method_trace_self trace
  cases hown : m.reservations.lookup id with
  | none =>
    rw [hown] at trace
    obtain ⟨rfl, rfl, rfl⟩ := method_trace_done trace
    refine ⟨rfl, ?_, rfl, rfl, fun _ => rfl⟩
    rw [heldWithout, reservationKey, hown]
    rfl
  | some own =>
    rw [hown] at trace
    obtain ⟨rfl, rfl, hsilent⟩ := releaseLoop_silent (method_trace_update trace)
    refine ⟨rfl, ?_, rfl, rfl, hsilent⟩
    rw [heldWithout, reservationKey, hown]
    rfl

theorem lookup_heldWithout (m : PaymentLedger) (id : ReservationId) (key : String) :
    (heldWithout m id).lookup key =
      if reservationKey m id = some key then none else m.holds.lookup key := by
  rw [heldWithout]
  cases hown : reservationKey m id with
  | none => simp
  | some own =>
    by_cases hkey : own = key
    · simp [hkey]
    · simp [hkey, AList.lookup_erase_ne (Ne.symm hkey)]

theorem recorded_iff_of_keeps {own : List String} {m m' : PaymentLedger} {history : History P}
    (h : Keeps own m m' history) {pairs : Paid} (hown : ∀ key ∈ own, key ∈ pairs.map Prod.fst)
    (paid : Paid) (key : String) :
    key ∈ recorded m' (pairs ++ takenPairs history ++ paid) ↔
      key ∈ pairs.map Prod.fst ∨ key ∈ takenKeys history ∨ key ∈ recorded m paid := by
  simp only [recorded, List.mem_append, List.map_append, takenPairs_keys, h.committed]
  constructor
  · rintro ((hmine | htaken | hold) | ((hpair | htaken) | hpaid))
    · exact .inl (hown key hmine)
    · exact .inr (.inl htaken)
    · exact .inr (.inr (.inl hold))
    · exact .inl hpair
    · exact .inr (.inl htaken)
    · exact .inr (.inr (.inr hpaid))
  · rintro (hpair | htaken | hold | hpaid)
    · exact .inr (.inl (.inl hpair))
    · exact .inl (.inr (.inl htaken))
    · exact .inl (.inr (.inr hold))
    · exact .inr (.inr hpaid)

/-- What was known stays known, and what was read is committed. -/
theorem known_of_keeps {own : List String} {m m' : PaymentLedger} {history : History P}
    (h : Keeps own m m' history) {pairs paid : Paid} (known : Known m paid)
    (hpairs : Known m' pairs) : Known m' (pairs ++ takenPairs history ++ paid) := by
  intro pair hpair
  rcases List.mem_append.mp hpair with hpair | hpair
  · rcases List.mem_append.mp hpair with hpair | hpair
    · exact hpairs pair hpair
    · refine .inl ((h.committed pair.1).mpr (.inr (.inl ?_)))
      rw [← takenPairs_keys]
      exact List.mem_map_of_mem hpair
  · rcases known pair hpair with hkey | ⟨record, hrecord, hid⟩
    · exact .inl ((h.committed pair.1).mpr (.inr (.inr hkey)))
    · exact .inr ⟨record, h.records record hrecord, hid⟩

/-- Reading keeps payments and holds apart exactly if none of the keys has a hold. -/
theorem takes_once_iff {m m' : PaymentLedger} {history : History P} {paid : Paid}
    (h : Takes [] m m' history) (known : Known m paid) (once : Once m paid) :
    Known m' (takenPairs history ++ paid) ∧
      (Once m' (takenPairs history ++ paid) ↔
        ∀ key ∈ takenKeys history, m.holds.lookup key = none) := by
  have hknown := @known_of_keeps P [] m m' history h.toKeeps [] paid known nofun
  have hrecorded := @recorded_iff_of_keeps P [] m m' history h.toKeeps [] (fun _ h => h) paid
  refine ⟨hknown, ?_⟩
  rw [Once, h.holds]
  constructor
  · intro hafter key hkey
    exact hafter key ((hrecorded key).mpr (.inr (.inl hkey)))
  · intro hkeys key hkey
    rcases (hrecorded key).mp hkey with hown | htaken | hold
    · cases hown
    · exact hkeys key htaken
    · exact once key hold

/-- What a commit leaves behind: its own hold is gone, whatever keys it has read. -/
structure Commits (id : ReservationId) (own : List String) (m m' : PaymentLedger)
    (history : History P) : Prop where
  keeps : Keeps own m m' history
  own : ∀ key ∈ own, key ∈ (reservationKey m id).toList
  holds : ∀ key, m'.holds.lookup key =
    if reservationKey m id = some key then none else m.holds.lookup key

theorem commits_of_release {id : ReservationId} {m m₁ m' : PaymentLedger}
    {before after : History P} {r : Except String Unit} {own : List String}
    (htakes : Takes own m m₁ before) (hown : ∀ key ∈ own, key ∈ (reservationKey m id).toList)
    (h : Releases id m₁ m' after r) : Commits id own m m' (before ++ after) := by
  have hnone := taken_silent h.silent
  have hkeys : takenKeys (before ++ after) = takenKeys before := by
    rw [takenKeys, htakes.closed, hnone, List.append_nil, takenKeys]
  have hkey : reservationKey m₁ id = reservationKey m id := by
    rw [reservationKey, reservationKey, htakes.reservations]
  refine ⟨⟨fun key => ?_, fun record hrecord => ?_, fun record hrecord => ?_, fun rest => ?_⟩,
    hown, fun key => ?_⟩
  · rw [h.committed, htakes.committed, hkeys]
  · rw [h.records]
    exact htakes.records record hrecord
  · rw [h.records] at hrecord
    exact htakes.precise record hrecord
  · rw [List.append_assoc, htakes.closed, h.silent, htakes.closed, hnone, List.append_nil]
  · rw [h.holds, lookup_heldWithout, hkey, htakes.holds]

theorem ownPair_keys (m : PaymentLedger) (id : ReservationId) (record : PaymentRecord) :
    (ownPair m id record).map Prod.fst = (reservationKey m id).toList := by
  rw [ownPair, List.map_map]
  exact List.map_id _

theorem Commits.once_iff {id : ReservationId} {m m' : PaymentLedger} {history : History P}
    {own : List String} {paid : Paid} (h : Commits id own m m' history)
    (record : PaymentRecord) (once : Once m paid) :
    Once m' (ownPair m id record ++ takenPairs history ++ paid) ↔
      ∀ key ∈ takenKeys history, reservationKey m id ≠ some key → m.holds.lookup key = none := by
  have hpairs := ownPair_keys m id record
  have hown : ∀ key ∈ own, key ∈ (ownPair m id record).map Prod.fst := by
    rw [hpairs]
    exact h.own
  have hrecorded := recorded_iff_of_keeps h.keeps hown paid
  constructor
  · intro hafter key htaken hother
    have hfree := hafter key ((hrecorded key).mpr (.inr (.inl htaken)))
    rwa [h.holds, if_neg hother] at hfree
  · intro hkeys key hkey
    rw [h.holds]
    by_cases hsame : reservationKey m id = some key
    · rw [if_pos hsame]
    · rw [if_neg hsame]
      rcases (hrecorded key).mp hkey with hmine | htaken | hold
      · rw [hpairs] at hmine
        exact absurd (Option.mem_toList.mp hmine) hsame
      · exact hkeys key htaken hsame
      · exact once key hold

/-- A commit that was stored has its key among the committed ones. -/
theorem Commits.known {id : ReservationId} {m m' : PaymentLedger} {history : History P}
    {paid : Paid} (h : Commits id (reservationKey m id).toList m m' history)
    (record : PaymentRecord) (known : Known m paid) :
    Known m' (ownPair m id record ++ takenPairs history ++ paid) := by
  refine known_of_keeps h.keeps known fun pair hpair => .inl ?_
  rw [h.keeps.committed, ← ownPair_keys m id record]
  exact .inl (List.mem_map_of_mem hpair)

/-- The document that a put was made on, as it was loaded. -/
def placedOn (last : Option Holds) : History P → Option Holds
  | [] => none
  | ⟨.loadHolds, .ok found⟩ :: rest => placedOn (some found.2) rest
  | ⟨.storeHolds _ _, .ok true⟩ :: _ => last
  | _ :: rest => placedOn last rest

theorem renewLoop_effect {now : Instant} {attempts : Nat} : ∀ {m m' : PaymentLedger}
    {history : History P} {r : Except String Nat} {last : Option Holds},
    Trace (renewLoop now attempts m) history (.pure (r, m')) →
      (m' = m ∧ placedOn last history = none) ∨ ∃ doc, placedOn last history = some doc ∧
        m' = { m with holds := renewed m now.millis doc } := by
  induction attempts with
  | zero =>
    intro m m' history r last trace
    obtain ⟨rfl, -, rfl⟩ := method_trace_throw trace
    exact .inl ⟨rfl, rfl⟩
  | succ attempts ih =>
    intro m m' history r last trace
    rw [renewLoop] at trace
    obtain ⟨a, rest, rfl, ⟨text, hanswer, rfl, rfl, rfl⟩ | ⟨found, hanswer, second⟩⟩ :=
      method_trace_asked trace
    · obtain rfl : a = .error text := hanswer
      exact .inl ⟨rfl, rfl⟩
    obtain rfl : a = .ok found := hanswer
    obtain ⟨b, rest, rfl, ⟨text, hanswer, rfl, rfl, rfl⟩ | ⟨stored, hanswer, third⟩⟩ :=
      method_trace_asked (method_trace_self second)
    · obtain rfl : b = .error text := hanswer
      exact .inl ⟨rfl, rfl⟩
    obtain rfl : b = .ok stored := hanswer
    cases stored with
    | true =>
      obtain ⟨rfl, hend⟩ := trace_pure third
      obtain ⟨-, rfl⟩ := Prod.mk.inj hend
      exact .inr ⟨found.2, rfl, rfl⟩
    | false =>
      rw [if_neg (by decide)] at third
      have hrest := @ih _ _ _ _ (some found.2) third
      exact hrest

/-- A hold that is still alive. -/
def Alive (nowMs : Int) (holds : Holds) (key : String) : Prop :=
  (holds.lookup key).any (fun hold => nowMs < hold.expiresMs) = true

theorem not_alive_iff (nowMs : Int) (holds : Holds) (key : String) :
    (holds.lookup key).filter (fun hold => nowMs < hold.expiresMs) = none ↔
      ¬Alive nowMs holds key := by
  rw [Alive]
  cases holds.lookup key with
  | none => simp
  | some hold => simp

/-- The keys of the holds that a ledger has placed. -/
def ownKeys (m : PaymentLedger) : List String :=
  m.reservations.entries.map fun entry => entry.2.key

/-- A renewed document has the holds that are alive and those of the ledger itself. -/
theorem renewed_without (m : PaymentLedger) (nowMs : Int) (doc : Holds) (key : String) :
    (renewed m nowMs doc).lookup key = none ↔ key ∉ ownKeys m ∧ ¬Alive nowMs doc key := by
  have hplaced := lookup_placed (nowMs + holdTtlMs) m.reservations.entries
    (retain (fun _ hold => nowMs < hold.expiresMs) doc) key
  rcases hplaced with ⟨entry, hentry, hkey, hlookup⟩ | ⟨hothers, hlookup⟩
  · have hrenewed : (renewed m nowMs doc).lookup key = some ⟨entry.2.amount, _⟩ := hlookup
    rw [hrenewed]
    constructor
    · exact nofun
    · rintro ⟨hnone, -⟩
      exact absurd (List.mem_map.mpr ⟨entry, hentry, hkey⟩) hnone
  · have hrenewed : (renewed m nowMs doc).lookup key = _ := hlookup
    have hnone : key ∉ ownKeys m := by
      intro hmem
      obtain ⟨entry, hentry, hkey⟩ := List.mem_map.mp hmem
      exact hothers entry hentry hkey
    rw [hrenewed, lookup_retain, not_alive_iff]
    exact ⟨fun h => ⟨hnone, h⟩, fun h => h.2⟩

/-- The numbers that a call draws. -/
def drawn : History P → List ReservationId
  | [] => []
  | ⟨.nextReservation, id⟩ :: rest => id :: drawn rest
  | _ :: rest => drawn rest

/-- The numbers that a call draws make keys of payments that have no record: they are unique in
the process, and owners are unique. -/
def DrawsFresh (m : PaymentLedger) (paid : Paid) (history : History P) : Prop :=
  ∀ id ∈ drawn history, holdKey m.owner id ∉ recorded m paid ∧
    holdKey m.owner id ∉ takenKeys history

/-- The document that a reservation mirrors: the last one it loaded before a reading that came
to the end of the stream. -/
def mirroredOn (last found : Option Holds) : History P → Option Holds
  | [] => found
  | ⟨.loadHolds, .ok loaded⟩ :: rest => mirroredOn (some loaded.2) found rest
  | ⟨.readWindow _, .ok window⟩ :: rest =>
    mirroredOn last (if window.isEmpty then last else found) rest
  | _ :: rest => mirroredOn last found rest

theorem mirroredOn_reading {history : History P} {loaded : Option (List LoadedPayment)}
    (h : Reading history loaded) (last found : Option Holds) (rest : History P) :
    mirroredOn last found (history ++ rest) =
      mirroredOn last (if loaded.isSome then last else found) rest := by
  induction h with
  | failed next text => rfl
  | ended next => rfl
  | window next nonempty tail ih =>
    rename_i window after loaded
    have hempty : window.isEmpty = false := by
      rw [List.isEmpty_eq_false_iff]
      exact nonempty
    simp only [List.cons_append, mirroredOn, hempty, Bool.false_eq_true, if_false,
      ih, Option.isSome_map]

theorem drawn_append (before after : History P) :
    drawn (before ++ after) = drawn before ++ drawn after := by
  induction before with
  | nil => rfl
  | cons event rest ih =>
    obtain ⟨request, answer⟩ := event
    cases request with
    | nextReservation => exact congrArg (answer :: ·) ih
    | lock | unlock | loadHolds | storeHolds | readWindow | append | utcNow
      | finalizedSolanaBlockHeight | stall => exact ih

/-- Holds as they were, or with one more under a key that the call has drawn. -/
def Granted (owner : String) (history : History P) (before after : Holds) : Prop :=
  after = before ∨ ∃ id ∈ drawn history, ∃ hold, after = before.insert (holdKey owner id) hold

theorem Granted.later {owner : String} {before history : History P} {holds holds' : Holds}
    (h : Granted owner history holds holds') : Granted owner (before ++ history) holds holds' := by
  rcases h with h | ⟨id, hid, hold, h⟩
  · exact .inl h
  · refine .inr ⟨id, ?_, hold, h⟩
    rw [drawn_append]
    exact List.mem_append_right _ hid

/-- A reservation starts from the holds as they were, or from those of the document that it
mirrored last. -/
structure Reserves (now : Instant) (m m' : PaymentLedger) (history : History P) : Prop where
  keeps : Keeps [] m m' history
  owner : m'.owner = m.owner
  holds : (Granted m.owner history m.holds m'.holds ∧ m'.committedHolds = m.committedHolds ∧
      ∀ last found, mirroredOn last found history = found) ∨
    ∃ doc, (∀ last found, mirroredOn last found history = some doc) ∧
      Granted m.owner history (liveHolds now.millis m'.committedHolds doc) m'.holds

theorem Reserves.silent {now : Instant} {m : PaymentLedger} {history : History P}
    (htaken : ∀ rest, taken (history ++ rest) = taken rest)
    (hmirrored : ∀ last found, mirroredOn last found history = found) : Reserves now m m history :=
  ⟨.nothing htaken rfl rfl, rfl, .inl ⟨.inl rfl, rfl, hmirrored⟩⟩

/-- One attempt mirrors its document before what follows. -/
theorem Reserves.mirror {now : Instant} {m m₁ m' : PaymentLedger} {before after : History P}
    {version : Option Version} {doc : Holds} {fresh : List LoadedPayment}
    (reading : Reading before (some fresh)) (htakes : Takes [] m m₁ before)
    (rest : Reserves now { m₁ with holds := liveHolds now.millis m₁.committedHolds doc } m' after) :
    Reserves now m m' ([⟨.loadHolds, .ok (version, doc)⟩] ++ (before ++ after)) := by
  have hkeeps : Keeps [] m { m₁ with holds := liveHolds now.millis m₁.committedHolds doc } before :=
    ⟨htakes.committed, htakes.records, htakes.precise, htakes.closed⟩
  have hfirst : Keeps [] m m ([⟨.loadHolds, .ok (version, doc)⟩] : History P) :=
    .nothing (fun _ => rfl) rfl rfl
  have hfound : ∀ last found, mirroredOn last found
      ([⟨.loadHolds, .ok (version, doc)⟩] ++ (before ++ after)) =
        mirroredOn (some doc) (some doc) after := fun last found =>
    mirroredOn_reading reading (some doc) found after
  refine ⟨hfirst.trans (hkeeps.trans rest.keeps), rest.owner.trans htakes.owner, .inr ?_⟩
  rcases rest.holds with ⟨hgranted, hcommitted, hnone⟩ | ⟨later, hlater, hgranted⟩
  · refine ⟨doc, fun last found => (hfound last found).trans (hnone _ _), ?_⟩
    rw [hcommitted, ← htakes.owner]
    exact hgranted.later.later
  · refine ⟨later, fun last found => (hfound last found).trans (hlater _ _), ?_⟩
    rw [← htakes.owner]
    exact hgranted.later.later

/-- A request that reads nothing stands before another attempt. -/
theorem Reserves.after {now : Instant} {m m' : PaymentLedger} {history : History P}
    {event : Event (Request P) Request.Answer}
    (htaken : ∀ rest, taken (event :: rest) = taken rest)
    (hmirrored : ∀ last found rest, ∃ last', mirroredOn last found (event :: rest) =
      mirroredOn last' found rest) (h : Reserves now m m' history) :
    Reserves now m m' (event :: history) := by
  have hbefore : Keeps [] m m [event] := .nothing htaken rfl rfl
  have hlater : ∀ holds holds', Granted m.owner history holds holds' →
      Granted m.owner (event :: history) holds holds' :=
    fun _ _ h => @Granted.later P m.owner [event] history _ _ h
  refine ⟨hbefore.trans h.keeps, h.owner, ?_⟩
  rcases h.holds with ⟨hgranted, hcommitted, hnone⟩ | ⟨doc, hdoc, hgranted⟩
  · refine .inl ⟨hlater _ _ hgranted, hcommitted, fun last found => ?_⟩
    obtain ⟨last', hlast⟩ := hmirrored last found history
    exact hlast.trans (hnone last' found)
  · refine .inr ⟨doc, fun last found => ?_, hlater _ _ hgranted⟩
    obtain ⟨last', hlast⟩ := hmirrored last found history
    exact hlast.trans (hdoc last' found)

theorem reserveLoop_reserves {rounds : Nat} {now : Instant} {amount attempts : Nat} :
    ∀ {m m' : PaymentLedger} {history : History P}
      {r : Except String (Except BudgetRefusal ReservationId)},
      Trace (reserveLoop rounds now amount attempts m) history (.pure (r, m')) →
        Reserves now m m' history := by
  induction attempts with
  | zero =>
    intro m m' history r trace
    obtain ⟨rfl, -, rfl⟩ := method_trace_throw trace
    exact .silent (fun _ => rfl) fun _ _ => rfl
  | succ attempts ih =>
    intro m m' history r trace
    rw [reserveLoop] at trace
    obtain ⟨a, rest, rfl, ⟨text, hanswer, rfl, rfl, rfl⟩ | ⟨⟨version, doc⟩, hanswer, second⟩⟩ :=
      method_trace_asked trace
    · obtain rfl : a = .error text := hanswer
      exact .silent (fun _ => rfl) fun _ _ => rfl
    obtain rfl : a = .ok (version, doc) := hanswer
    rcases method_trace_bind second with ⟨text, reading, rfl⟩ |
      ⟨_, m₁, middle, after, rfl, reading, third⟩
    · obtain ⟨hok, -⟩ | ⟨-, hreading, rfl⟩ := refreshRecords_reading reading
      · cases hok
      · refine .silent (fun rest => hreading.taken_append [] rest) fun last found => ?_
        have hnothing := mirroredOn_reading hreading (some doc) found []
        rw [List.append_nil] at hnothing
        exact hnothing
    obtain ⟨-, fresh, next, hreading, rfl⟩ | ⟨⟨text, hfailed⟩, -⟩ := refreshRecords_reading reading
    swap
    · cases hfailed
    have third := method_trace_self (method_trace_update third)
    refine .mirror hreading (loaded_takes hreading next) ?_
    generalize { m.loaded fresh next with
      holds := liveHolds now.millis (m.loaded fresh next).committedHolds doc } = m₂ at third ⊢
    cases hrefusal : (m₂.checkBudgetAt now amount).refusal with
    | some refusal =>
      rw [hrefusal] at third
      obtain ⟨b, rest, rfl, ⟨text, hanswer, rfl, rfl, rfl⟩ | ⟨⟨current, later⟩, hanswer, last⟩⟩ :=
        method_trace_asked third
      · obtain rfl : b = .error text := hanswer
        exact .silent (fun _ => rfl) fun _ _ => rfl
      · obtain rfl : b = .ok (current, later) := hanswer
        have silent : Reserves now m₂ m₂ ([⟨.loadHolds, .ok (current, later)⟩] : History P) :=
          .silent (fun _ => rfl) fun _ _ => rfl
        dsimp only at last
        split_ifs at last
        · obtain ⟨rfl, -, rfl⟩ := method_trace_done last
          exact silent
        · exact (ih last).after (fun _ => rfl) fun _ _ _ => ⟨some later, rfl⟩
    | none =>
      rw [hrefusal] at third
      obtain ⟨id, rest, rfl, ⟨text, hanswer, -⟩ | ⟨drawn, hanswer, fourth⟩⟩ :=
        method_trace_asked third
      · cases hanswer
      obtain rfl := Except.ok.inj hanswer
      obtain ⟨c, rest, rfl, ⟨text, hanswer, rfl, rfl, rfl⟩ | ⟨stored, hanswer, last⟩⟩ :=
        method_trace_asked fourth
      · obtain rfl : c = .error text := hanswer
        exact .silent (fun _ => rfl) fun _ _ => rfl
      obtain rfl : c = .ok stored := hanswer
      cases stored with
      | true =>
        rw [if_pos rfl] at last
        have last := method_trace_update last
        obtain ⟨rfl, -, rfl⟩ := method_trace_done last
        refine ⟨.nothing (fun _ => rfl) rfl rfl, rfl, .inl ⟨.inr ?_, rfl, fun _ _ => rfl⟩⟩
        exact ⟨id, List.mem_singleton_self id, _, rfl⟩
      | false =>
        refine .after (fun _ => rfl) (fun last _ _ => ⟨last, rfl⟩) ?_
        exact .after (fun _ => rfl) (fun last _ _ => ⟨last, rfl⟩) (ih last)

theorem reserveAt_reserves {rounds : Nat} {now : Instant} {amount : Nat} {m m' : PaymentLedger}
    {history : History P} {r : Except String (Except BudgetRefusal ReservationId)}
    (trace : Trace (reserveAt rounds now amount m) history (.pure (r, m'))) :
    Reserves now m m' history := by
  have trace := method_trace_self trace
  split_ifs at trace
  · obtain ⟨rfl, -, rfl⟩ := method_trace_done trace
    exact .silent (fun _ => rfl) fun _ _ => rfl
  · exact reserveLoop_reserves trace

/-- What a step takes for no payment to be counted twice: no key that a reading outside a
reservation takes in has a hold in the mirror, but the hold a commit takes away; a renewal keeps
no hold of a payment that has its record; and no document that a reservation mirrors has a live
hold of a payment whose record is in memory only. -/
def KeepsApart (before : PaymentLedger) (paid : Paid) (history : History P) : Call → Prop
  | .openLedger .. | .release _ => True
  | .reserveAt now _ => ∀ doc ∈ mirroredOn none none history, ∀ key ∈ paid.map Prod.fst,
      key ∈ before.committedHolds ∨ key ∈ takenKeys history ∨ ¬Alive now.millis doc key
  | .renewHoldsAt now => ∀ doc ∈ placedOn none history, ∀ key ∈ recorded before paid,
      key ∉ ownKeys before ∧ ¬Alive now.millis doc key
  | .commitReservation id _ | .tryCommitReservation id _ =>
    ∀ key ∈ takenKeys history, reservationKey before id ≠ some key →
      before.holds.lookup key = none
  | .tryRecordPayment _ | .recordPayment _ | .observeSolanaExpiry _ =>
    ∀ key ∈ takenKeys history, before.holds.lookup key = none

theorem lookup_liveHolds (nowMs : Int) (committed : List String) (doc : Holds) (key : String) :
    (liveHolds nowMs committed doc).lookup key = none ↔
      key ∈ committed ∨ ¬Alive nowMs doc key := by
  rw [liveHolds, lookup_retain, Alive]
  cases doc.lookup key with
  | none => simp
  | some hold =>
    by_cases hkey : key ∈ committed
    · simp [hkey]
    · simp [hkey]

theorem reserveAt_once_iff {now : Instant} {m m' : PaymentLedger} {paid : Paid}
    {history : History P} (reserves : Reserves now m m' history) (once : Once m paid)
    (fresh : DrawsFresh m paid history) :
    Once m' (takenPairs history ++ paid) ↔
      ∀ doc ∈ mirroredOn none none history, ∀ key ∈ paid.map Prod.fst,
        key ∈ m.committedHolds ∨ key ∈ takenKeys history ∨ ¬Alive now.millis doc key := by
  have hcommitted := reserves.keeps.committed
  have hrecorded := @recorded_iff_of_keeps P [] m m' history reserves.keeps [] (fun _ h => h) paid
  -- a drawn key is none of those that matter
  have hdrawn : ∀ {holds}, Granted m.owner history holds m'.holds →
      ∀ key ∈ recorded m' (takenPairs history ++ paid),
        m'.holds.lookup key = holds.lookup key := by
    rintro holds (hsame | ⟨id, hid, hold, hinsert⟩) key hkey
    · rw [hsame]
    · obtain ⟨hold, hnew⟩ := fresh id hid
      have hother : key ≠ holdKey m.owner id := by
        rintro rfl
        rcases (hrecorded _).mp hkey with hown | htaken | hbefore
        · cases hown
        · exact hnew htaken
        · exact hold hbefore
      rw [hinsert, AList.lookup_insert_ne hother]
  rcases reserves.holds with ⟨hgranted, hkeys, hnone⟩ | ⟨doc, hdoc, hgranted⟩
  · rw [hnone]
    refine iff_of_true (fun key hkey => ?_) nofun
    rw [hdrawn hgranted key hkey]
    rcases (hrecorded key).mp hkey with hown | htaken | hbefore
    · cases hown
    · have hmem := (hcommitted key).mpr (.inr (.inl htaken))
      rw [hkeys] at hmem
      exact once key (List.mem_append_left _ hmem)
    · exact once key hbefore
  · rw [hdoc]
    simp only [Option.mem_some_iff, forall_eq']
    constructor
    · intro hafter key hkey
      have hmem := (hrecorded key).mpr (.inr (.inr (List.mem_append_right _ hkey)))
      have hfree := hafter key hmem
      rw [hdrawn hgranted key hmem, lookup_liveHolds, hcommitted] at hfree
      rcases hfree with (hown | htaken | hold) | hdead
      · cases hown
      · exact .inr (.inl htaken)
      · exact .inl hold
      · exact .inr (.inr hdead)
    · intro hdead key hkey
      rw [hdrawn hgranted key hkey, lookup_liveHolds, hcommitted]
      rcases (hrecorded key).mp hkey with hown | htaken | hbefore
      · cases hown
      · exact .inl (.inr (.inl htaken))
      rcases List.mem_append.mp hbefore with hold | hpaid
      · exact .inl (.inr (.inr hold))
      rcases hdead key hpaid with hold | htaken | hdead
      · exact .inl (.inr (.inr hold))
      · exact .inl (.inr (.inl htaken))
      · exact .inr hdead

theorem renewHoldsAt_effect {now : Instant} {m m' : PaymentLedger} {history : History P}
    {r : Except String Nat} (trace : Trace (renewHoldsAt now m) history (.pure (r, m'))) :
    (m' = m ∧ placedOn none history = none) ∨ ∃ doc, placedOn none history = some doc ∧
      m' = { m with holds := renewed m now.millis doc } := by
  have trace := method_trace_self trace
  split_ifs at trace
  · obtain ⟨rfl, -, rfl⟩ := method_trace_done trace
    exact .inl ⟨rfl, rfl⟩
  · exact renewLoop_effect trace

theorem commitReservation_commits {rounds : Nat} {id : ReservationId} {record : PaymentRecord}
    {m m' : PaymentLedger} {history : History P} {r : Except String Unit}
    (trace : Trace (commitReservation rounds id record m) history (.pure (r, m'))) :
    Commits id (reservationKey m id).toList m m' history ∨
      (Commits id [] m m' history ∧ ∃ kept ∈ m'.records, kept.id = record.id) := by
  obtain ⟨appended, m₁, before, after, rfl, first, second⟩ :=
    method_trace_tried (method_trace_self trace)
  rcases appendRecord_takes first with ⟨rfl, htakes⟩ | ⟨⟨text, rfl⟩, rfl, hsilent⟩
  · exact .inl (commits_of_release htakes (fun _ h => h) (release_releases second))
  · -- the record is in memory only, and its key nowhere
    have hreleases := release_releases (method_trace_update second)
    have htakes : Takes [] m₁ (m₁.push record.atMillisecondPrecision) before :=
      (Takes.nothing hsilent).push record rfl rfl rfl rfl rfl
    refine .inr ⟨commits_of_release htakes nofun hreleases, record.atMillisecondPrecision, ?_, rfl⟩
    rw [hreleases.records]
    exact List.mem_append_right _ (List.mem_singleton_self _)

theorem tryCommitReservation_commits {rounds : Nat} {id : ReservationId} {record : PaymentRecord}
    {m m' : PaymentLedger} {history : History P} {r : Except String Unit}
    (trace : Trace (tryCommitReservation rounds id record m) history (.pure (r, m'))) :
    (r = .ok () ∧ Commits id (reservationKey m id).toList m m' history) ∨
      ((∃ text, r = .error text) ∧ Takes [] m m' history ∧ takenKeys history = []) := by
  rcases method_trace_bind (method_trace_self trace) with ⟨text, first, rfl⟩ |
    ⟨_, m₁, before, after, rfl, first, second⟩
  · rcases appendRecord_takes first with ⟨hok, -⟩ | ⟨-, rfl, hsilent⟩
    · cases hok
    · refine .inr ⟨⟨text, rfl⟩, .nothing hsilent, ?_⟩
      rw [takenKeys, taken_silent hsilent]
      rfl
  · rcases appendRecord_takes first with ⟨-, htakes⟩ | ⟨⟨text, hfailed⟩, -⟩
    · have hreleases := release_releases second
      exact .inl ⟨hreleases.result, commits_of_release htakes (fun _ h => h) hreleases⟩
    · cases hfailed

theorem tryRecordPayment_takes {rounds : Nat} {record : PaymentRecord} {m m' : PaymentLedger}
    {history : History P} {r : Except String Unit}
    (trace : Trace (tryRecordPayment rounds record m) history (.pure (r, m'))) :
    Takes [] m m' history := by
  rcases appendRecord_takes trace with ⟨-, htakes⟩ | ⟨-, rfl, hsilent⟩
  · exact htakes
  · exact .nothing hsilent

theorem recordPayment_takes {rounds : Nat} {record : PaymentRecord} {m m' : PaymentLedger}
    {history : History P} {r : Except String Unit}
    (trace : Trace (recordPayment rounds record m) history (.pure (r, m'))) :
    Takes [] m m' history := by
  obtain ⟨appended, m₁, before, after, rfl, first, second⟩ := method_trace_tried trace
  rcases appendRecord_takes first with ⟨rfl, htakes⟩ | ⟨⟨text, rfl⟩, rfl, hsilent⟩
  · obtain ⟨rfl, -, rfl⟩ := method_trace_done second
    rwa [List.append_nil]
  · obtain ⟨rfl, -, rfl⟩ := method_trace_changed second
    rw [List.append_nil]
    exact (Takes.nothing hsilent).push record rfl rfl rfl rfl rfl

/-- What a call does to holds and payments, and what stays known of them. -/
theorem step_once_iff {rounds : Nat} {call : Call} {m m' : PaymentLedger} {paid : Paid}
    {history : History P} {r : Except String Outcome}
    (trace : Trace (call.method rounds m) history (.pure (r, m'))) (once : Once m paid)
    (known : Known m paid) (fresh : DrawsFresh m paid history) :
    Known m' (paidAfter m paid history r call) ∧
      (Once m' (paidAfter m paid history r call) ↔ KeepsApart m paid history call) := by
  cases call with
  | openLedger generation owner sessionId budget =>
    obtain ⟨result, first, rfl⟩ := method_trace_map trace
    rcases openLedger_takes first with ⟨rfl, hholds, hcommitted, -⟩ | ⟨⟨text, rfl⟩, rfl⟩
    · refine ⟨fun pair hpair => .inl ?_, iff_of_true (fun key _ => ?_) trivial⟩
      · rw [hcommitted, ← takenPairs_keys]
        exact List.mem_map_of_mem hpair
      · rw [hholds]
        rfl
    · exact ⟨known, iff_of_true once trivial⟩
  | reserveAt now amount =>
    obtain ⟨result, first, -⟩ := method_trace_map trace
    have hreserves := reserveAt_reserves first
    have hknown := @known_of_keeps P [] m m' history hreserves.keeps [] paid known nofun
    exact ⟨hknown, reserveAt_once_iff hreserves once fresh⟩
  | release id =>
    obtain ⟨result, first, -⟩ := method_trace_map trace
    have hreleases := release_releases first
    refine ⟨?_, iff_of_true (fun key hkey => ?_) trivial⟩
    · rw [Known, hreleases.committed, hreleases.records]
      exact known
    · rw [recorded, hreleases.committed] at hkey
      rw [hreleases.holds, lookup_heldWithout, once key hkey, ite_self]
  | renewHoldsAt now =>
    obtain ⟨result, first, -⟩ := method_trace_map trace
    rcases renewHoldsAt_effect first with ⟨rfl, hnone⟩ | ⟨doc, hdoc, rfl⟩
    · rw [KeepsApart, hnone]
      exact ⟨known, iff_of_true once nofun⟩
    · refine ⟨known, ?_⟩
      rw [KeepsApart, hdoc, Once]
      simp only [Option.mem_some_iff, forall_eq', renewed_without]
      rfl
  | commitReservation id record =>
    obtain ⟨result, first, -⟩ := method_trace_map trace
    rcases commitReservation_commits first with hcommits | ⟨hcommits, kept, hkept, hid⟩
    · exact ⟨hcommits.known record known, hcommits.once_iff record once⟩
    · refine ⟨known_of_keeps hcommits.keeps known fun pair hpair => .inr ?_,
        hcommits.once_iff record once⟩
      obtain ⟨key, -, rfl⟩ := List.mem_map.mp hpair
      exact ⟨kept, hkept, hid⟩
  | tryCommitReservation id record =>
    obtain ⟨result, first, rfl⟩ := method_trace_map trace
    rcases tryCommitReservation_commits first with ⟨rfl, hcommits⟩ | ⟨⟨text, rfl⟩, htakes, hnone⟩
    · exact ⟨hcommits.known record known, hcommits.once_iff record once⟩
    · obtain ⟨hknown, honce⟩ := takes_once_iff htakes known once
      rw [hnone] at honce
      refine ⟨hknown, honce.trans (iff_of_true nofun ?_)⟩
      rw [KeepsApart, hnone]
      exact nofun
  | tryRecordPayment record =>
    obtain ⟨result, first, -⟩ := method_trace_map trace
    exact takes_once_iff (tryRecordPayment_takes first) known once
  | recordPayment record =>
    obtain ⟨result, first, -⟩ := method_trace_map trace
    exact takes_once_iff (recordPayment_takes first) known once
  | observeSolanaExpiry evidence =>
    obtain ⟨result, first, -⟩ := method_trace_map trace
    exact takes_once_iff (observeSolanaExpiry_takes first) known once

open LedgerBudget in
/-- A record that a call adds has whole milliseconds. -/
theorem step_precise {rounds : Nat} {call : Call} {m m' : PaymentLedger} {history : History P}
    {r : Except String Outcome} (trace : Trace (call.method rounds m) history (.pure (r, m'))) :
    ∀ record ∈ m'.records, record ∈ m.records ∨ Precise record := by
  cases call with
  | openLedger generation owner sessionId budget =>
    obtain ⟨result, first, -⟩ := method_trace_map trace
    rcases openLedger_takes first with ⟨-, -, -, hprecise⟩ | ⟨-, rfl⟩
    · exact fun record hrecord => .inr (hprecise record hrecord)
    · exact fun record hrecord => .inl hrecord
  | reserveAt now amount =>
    obtain ⟨result, first, -⟩ := method_trace_map trace
    exact (reserveAt_reserves first).keeps.precise
  | release id =>
    obtain ⟨result, first, -⟩ := method_trace_map trace
    rw [(release_releases first).records]
    exact fun record hrecord => .inl hrecord
  | renewHoldsAt now =>
    obtain ⟨result, first, -⟩ := method_trace_map trace
    rcases renewHoldsAt_effect first with ⟨rfl, -⟩ | ⟨doc, -, rfl⟩
    · exact fun record hrecord => .inl hrecord
    · exact fun record hrecord => .inl hrecord
  | commitReservation id record =>
    obtain ⟨result, first, -⟩ := method_trace_map trace
    rcases commitReservation_commits first with hcommits | ⟨hcommits, -⟩
    · exact hcommits.keeps.precise
    · exact hcommits.keeps.precise
  | tryCommitReservation id record =>
    obtain ⟨result, first, -⟩ := method_trace_map trace
    rcases tryCommitReservation_commits first with ⟨-, hcommits⟩ | ⟨-, htakes, -⟩
    · exact hcommits.keeps.precise
    · exact htakes.precise
  | tryRecordPayment record =>
    obtain ⟨result, first, -⟩ := method_trace_map trace
    exact (tryRecordPayment_takes first).precise
  | recordPayment record =>
    obtain ⟨result, first, -⟩ := method_trace_map trace
    exact (recordPayment_takes first).precise
  | observeSolanaExpiry evidence =>
    obtain ⟨result, first, -⟩ := method_trace_map trace
    exact (observeSolanaExpiry_takes first).precise

/-- One call of a run. -/
structure Step (P : Type) where
  before : PaymentLedger
  paid : Paid
  call : Call
  history : History P
  result : Except String Outcome
  after : PaymentLedger

def Step.paidAfter (step : Step P) : Paid :=
  LedgerOverlap.paidAfter step.before step.paid step.history step.result step.call

def Step.KeepsApart (step : Step P) : Prop :=
  LedgerOverlap.KeepsApart step.before step.paid step.history step.call

/-- Calls on one ledger, one after the other, whatever they are answered. -/
inductive Run (rounds : Nat) : PaymentLedger → Paid → List (Step P) → Prop
  | done (m : PaymentLedger) (paid : Paid) : Run rounds m paid []
  | call {step : Step P} {rest : List (Step P)}
      (trace : Trace (step.call.method rounds step.before) step.history
        (.pure (step.result, step.after)))
      (fresh : DrawsFresh step.before step.paid step.history)
      (tail : Run rounds step.after step.paidAfter rest) :
      Run rounds step.before step.paid (step :: rest)

/-- The holds in the mirror of payments that have no record. -/
def unrecorded (m : PaymentLedger) (paid : Paid) : Holds :=
  retain (fun key _ => !(recorded m paid).contains key) m.holds

/-- How many of the holds and latest records that are summed are those of one payment. -/
def timesCounted (m : PaymentLedger) (paid : Paid) (id : String) : Nat :=
  (m.holds.entries.filter fun entry => (entry.1, id) ∈ paid).length +
    ((latestRecords m.records).filter fun record => record.id = id).length

/-- Nothing is counted twice: no hold of the mirror is committed, a payment is counted by one
hold or by one record, and the totals are those of the latest records and of the holds whose
payments have no record. -/
structure CountsOnce (m : PaymentLedger) (paid : Paid) : Prop where
  apart : Apart m
  each : ∀ id, timesCounted m paid id ≤ 1
  reserved : m.reservedAtomic = heldAtomic (unrecorded m paid)
  outstanding : m.outstandingAtomic =
    saturatingAdd (chargedTotal 0 isUnresolved m.records) (heldAtomic (unrecorded m paid))
  check : ∀ now amount, m.checkBudgetAt now amount =
    checkBudget m.budget (heldAtomic (unrecorded m paid)) m.records now amount
  latest : ((latestRecords m.records).map PaymentRecord.id).Nodup

theorem filter_id_le {records : List PaymentRecord}
    (distinct : (records.map PaymentRecord.id).Nodup) (id : String) :
    (records.filter fun record => record.id = id).length ≤ 1 := by
  have hcount := List.nodup_iff_count_le_one.mp distinct id
  rw [List.count, List.countP_map, List.countP_eq_length_filter] at hcount
  simpa only [Function.comp_def, beq_eq_decide] using hcount

theorem Once.countsOnce {m : PaymentLedger} {paid : Paid} (once : Once m paid) :
    CountsOnce m paid := by
  have hreserved : m.reservedAtomic = heldAtomic (unrecorded m paid) := by
    refine LedgerTotals.heldAtomic_congr fun key => ?_
    rw [unrecorded, lookup_retain]
    by_cases hrecorded : key ∈ recorded m paid
    · rw [once key hrecorded]
      rfl
    · cases m.holds.lookup key with
      | none => rfl
      | some hold =>
        simp [hrecorded]
        rfl
  have hnodup := latestRecords_ids_nodup m.records
  constructor
  · exact fun key hkey => once key (List.mem_append_left _ hkey)
  · intro id
    have hnone : (m.holds.entries.filter fun entry => (entry.1, id) ∈ paid) = [] := by
      rw [List.filter_eq_nil_iff]
      intro entry hentry hpaid
      have hkey : entry.1 ∈ paid.map Prod.fst :=
        List.mem_map_of_mem (of_decide_eq_true hpaid)
      have hlookup : m.holds.lookup entry.1 = some entry.2 := AList.mem_lookup_iff.mpr hentry
      rw [once entry.1 (List.mem_append_right _ hkey)] at hlookup
      cases hlookup
    rw [timesCounted, hnone, List.length_nil, Nat.zero_add]
    exact filter_id_le hnodup id
  · exact hreserved
  · rw [PaymentLedger.outstandingAtomic, hreserved]
  · intro now amount
    rw [PaymentLedger.checkBudgetAt, hreserved]
  · exact hnodup

/-- A payment that is counted once and has its record has no hold beside it. -/
theorem countsOnce_iff {m : PaymentLedger} {paid : Paid} (known : Known m paid) :
    CountsOnce m paid ↔ Once m paid := by
  constructor
  · intro h key hkey
    rcases List.mem_append.mp hkey with hcommitted | hpaid
    · exact h.apart key hcommitted
    obtain ⟨pair, hpair, rfl⟩ := List.mem_map.mp hpaid
    rcases known pair hpair with hcommitted | ⟨record, hrecord, hid⟩
    · exact h.apart pair.1 hcommitted
    cases hhold : m.holds.lookup pair.1 with
    | none => rfl
    | some hold =>
      have hheld : 0 < (m.holds.entries.filter fun entry => (entry.1, pair.2) ∈ paid).length := by
        refine List.length_pos_of_mem (a := ⟨pair.1, hold⟩) ?_
        rw [List.mem_filter]
        exact ⟨AList.mem_lookup_iff.mp hhold, decide_eq_true hpair⟩
      have hlatest : 0 < ((latestRecords m.records).filter fun latest =>
          latest.id = pair.2).length := by
        have hids : pair.2 ∈ ((latestRecords m.records).map PaymentRecord.id).toFinset := by
          rw [LedgerBudget.latestRecords_ids, List.mem_toFinset, ← hid]
          exact List.mem_map_of_mem hrecord
        obtain ⟨latest, hlatest, hsame⟩ := List.mem_map.mp (List.mem_toFinset.mp hids)
        refine List.length_pos_of_mem (a := latest) ?_
        rw [List.mem_filter]
        exact ⟨hlatest, decide_eq_true hsame⟩
      have honce := h.each pair.2
      rw [timesCounted] at honce
      omega
  · exact Once.countsOnce

theorem run_once_iff {rounds : Nat} {m : PaymentLedger} {paid : Paid} {steps : List (Step P)}
    (run : Run rounds m paid steps) (once : Once m paid) (known : Known m paid) :
    (∀ step ∈ steps, CountsOnce step.after step.paidAfter) ↔
      ∀ step ∈ steps, step.KeepsApart := by
  induction run with
  | done m paid => simp
  | call trace fresh tail ih =>
    obtain ⟨hknown, honce⟩ := step_once_iff trace once known fresh
    have hcounts := countsOnce_iff hknown
    rw [List.forall_mem_cons, List.forall_mem_cons]
    constructor
    · rintro ⟨hfirst, hrest⟩
      have hfirst := hcounts.mp hfirst
      exact ⟨honce.mp hfirst, (ih hfirst hknown).mp hrest⟩
    · rintro ⟨hfirst, hrest⟩
      have hfirst := honce.mpr hfirst
      exact ⟨hcounts.mpr hfirst, (ih hfirst hknown).mpr hrest⟩

open LedgerBudget in
/-- Whatever storage answers, a ledger holds records of whole milliseconds: those the budget
check is exact about. -/
theorem run_precise {rounds : Nat} {m : PaymentLedger} {paid : Paid} {steps : List (Step P)}
    (run : Run rounds m paid steps) (precise : ∀ record ∈ m.records, Precise record) :
    ∀ step ∈ steps, ∀ record ∈ step.after.records, Precise record := by
  induction run with
  | done m paid => simp
  | call trace fresh tail ih =>
    have hafter := fun record hrecord =>
      (step_precise trace record hrecord).elim (precise record) id
    exact List.forall_mem_cons.mpr ⟨hafter, ih hafter⟩

/-- In a run of calls on an opened ledger, nothing is ever counted twice exactly if no step brings
the hold and the record of a payment together. -/
theorem counted_once_iff {rounds : Nat} {m : PaymentLedger} {paid : Paid} {steps : List (Step P)}
    (run : Run rounds m paid steps) (opened : m.holds = ∅) (known : Known m paid) :
    (∀ step ∈ steps, CountsOnce step.after step.paidAfter) ↔
      ∀ step ∈ steps, step.KeepsApart := by
  have once : Once m paid := by
    intro key _
    rw [opened]
    rfl
  exact run_once_iff run once known

/-- A script of calls, each with what it is answered. -/
abbrev Script (P : Type) := List (Call × ((e : Request P) → Option e.Answer))

def play (rounds fuel : Nat) : PaymentLedger → Paid → Script P → Option (List (Step P))
  | _, _, [] => some []
  | m, paid, (call, answer) :: rest => do
    let (history, result, after) ← outcome answer fuel (call.method rounds m)
    let step : Step P := ⟨m, paid, call, history, result, after⟩
    let steps ← play rounds fuel after step.paidAfter rest
    some (step :: steps)

theorem play_run {rounds fuel : Nat} {script : Script P} : ∀ {m : PaymentLedger} {paid : Paid}
    {steps : List (Step P)}, play rounds fuel m paid script = some steps →
      (∀ step ∈ steps, DrawsFresh step.before step.paid step.history) →
        Run rounds m paid steps ∧ steps.map Step.call = script.map Prod.fst := by
  induction script with
  | nil =>
    intro m paid steps h _
    obtain rfl := Option.some.inj h
    exact ⟨.done m paid, rfl⟩
  | cons entry rest ih =>
    intro m paid steps h fresh
    obtain ⟨call, answer⟩ := entry
    obtain ⟨⟨history, result, after⟩, hout, h⟩ := Option.bind_eq_some_iff.mp h
    obtain ⟨later, hlater, h⟩ := Option.bind_eq_some_iff.mp h
    obtain rfl := Option.some.inj h
    obtain ⟨hfirst, hrest⟩ := List.forall_mem_cons.mp fresh
    obtain ⟨run, hcalls⟩ := ih hlater hrest
    exact ⟨@Run.call P rounds ⟨m, paid, call, history, result, after⟩ later
      (outcome_trace hout) hfirst run, congrArg (call :: ·) hcalls⟩

instance (m : PaymentLedger) (paid : Paid) (history : History P) :
    Decidable (DrawsFresh m paid history) :=
  inferInstanceAs (Decidable (∀ id ∈ drawn history, _))

instance (nowMs : Int) (holds : Holds) (key : String) : Decidable (Alive nowMs holds key) :=
  inferInstanceAs (Decidable (_ = true))

instance (m : PaymentLedger) (paid : Paid) (history : History P) (call : Call) :
    Decidable (KeepsApart m paid history call) :=
  match call with
  | .openLedger .. | .release _ => inferInstanceAs (Decidable True)
  | .reserveAt .. => inferInstanceAs (Decidable (∀ doc ∈ mirroredOn none none history, _))
  | .renewHoldsAt _ => inferInstanceAs (Decidable (∀ doc ∈ placedOn none history, _))
  | .commitReservation .. | .tryCommitReservation .. | .tryRecordPayment _ | .recordPayment _
  | .observeSolanaExpiry _ => inferInstanceAs (Decidable (∀ key ∈ takenKeys history, _))

instance (step : Step P) : Decidable step.KeepsApart :=
  inferInstanceAs (Decidable (KeepsApart ..))

/-- Storage that answers one call. -/
def storage (number : ReservationId) (holds : Except String (Option Version × Holds))
    (stream : List (Option StoredPayment)) (appended : Except String Nat) :
    (e : Request Unit) → Option e.Answer
  | .loadHolds => some holds
  | .readWindow next => some (.ok (windowAt stream next))
  | .append _ => some appended
  | .nextReservation => some number
  | .storeHolds _ _ => some (.ok true)
  | _ => none

def sampleLive : Int := sampleNow.millis + holdTtlMs

/-- Two units of another ledger, and one of this ledger until an instant. -/
def sampleDocument (own : Option Int) : Except String (Option Version × Holds) :=
  let others := (∅ : Holds).insert "b:1" ⟨2, sampleLive⟩
  .ok (some 0, match own with
    | none => others
    | some expiresMs => others.insert "a:1" ⟨1, expiresMs⟩)

/-- A pending payment of a third ledger. -/
def sampleForeign : PaymentRecord :=
  { sampleRecord "r0" 1 .pending with solanaLastValidBlockHeight := some 7 }

def sampleForeignStream : List (Option StoredPayment) :=
  [some (storedPayment sampleForeign (some "c:9"))]

/-- The ledger reserves one unit, renews its hold, writes the expiry of the payment that it reads,
and commits its reservation while storage is out of reach, so that the hold stays in the document
until `lost`. Then it reserves another unit. -/
def sampleScript (lost : Int) : Script Unit :=
  [(.reserveAt sampleNow 1, storage 1 (sampleDocument none) [] (.ok 0)),
    (.renewHoldsAt sampleNow, storage 1 (sampleDocument (some sampleLive)) [] (.ok 0)),
    (.observeSolanaExpiry ⟨1, "r0", sampleNow, 7, 8, sampleNow⟩,
      storage 1 (sampleDocument (some sampleLive)) sampleForeignStream (.ok 1)),
    (.commitReservation 1 (sampleRecord "r1" 1 .pending),
      storage 1 (.error "storage is out of reach") sampleForeignStream
        (.error "storage is out of reach")),
    (.reserveAt sampleNow 1, storage 2 (sampleDocument (some lost)) sampleForeignStream (.ok 2))]

def sampleSteps (lost : Int) : Option (List (Step Unit)) :=
  play 4 9 (sampleLedger "a") [] (sampleScript lost)

/-- The end of the run: whether its steps keep holds and records apart, and what it reports. -/
def sampleEnd (lost : Int) : Option (Bool × Option Nat) :=
  (sampleSteps lost).bind fun steps =>
    if ∀ step ∈ steps, DrawsFresh step.before step.paid step.history then
      some (decide (∀ step ∈ steps, step.KeepsApart),
        steps.getLast?.map fun step => step.after.outstandingAtomic)
    else none

/-- A payment whose commit is lost is counted once if its hold has expired by the next
reservation, and else by its hold and by its record: two units are recorded and three held, one
of them twice. -/
theorem sample_counted_once :
    (∃ steps : List (Step Unit), Run 4 (sampleLedger "a") [] steps ∧
      steps.map Step.call = (sampleScript 0).map Prod.fst ∧
      (∀ step ∈ steps, CountsOnce step.after step.paidAfter) ∧
      (steps.getLast?.map fun step => step.after.outstandingAtomic) = some 5) ∧
    ∃ steps : List (Step Unit), Run 4 (sampleLedger "a") [] steps ∧
      steps.map Step.call = (sampleScript sampleLive).map Prod.fst ∧
      (¬∀ step ∈ steps, CountsOnce step.after step.paidAfter) ∧
      (steps.getLast?.map fun step => step.after.outstandingAtomic) = some 6 := by
  have hplayed : ∀ {lost : Int} {kept : Bool} {total : Nat},
      sampleEnd lost = some (kept, some total) → ∃ steps : List (Step Unit),
        Run 4 (sampleLedger "a") [] steps ∧
        steps.map Step.call = (sampleScript lost).map Prod.fst ∧
        ((∀ step ∈ steps, CountsOnce step.after step.paidAfter) ↔ kept = true) ∧
        (steps.getLast?.map fun step => step.after.outstandingAtomic) = some total := by
    intro lost kept total h
    obtain ⟨steps, hsteps, h⟩ := Option.bind_eq_some_iff.mp h
    split_ifs at h with hfresh
    obtain ⟨rfl, htotal⟩ := Prod.mk.inj (Option.some.inj h)
    obtain ⟨run, hcalls⟩ := play_run hsteps hfresh
    have hiff := counted_once_iff run rfl nofun
    exact ⟨steps, run, hcalls, hiff.trans decide_eq_true_iff.symm, htotal⟩
  have hkept : sampleEnd 0 = some (true, some 5) := by decide +kernel
  have hbroken : sampleEnd sampleLive = some (false, some 6) := by decide +kernel
  obtain ⟨steps, run, hcalls, honce, htotal⟩ := hplayed hkept
  obtain ⟨steps', run', hcalls', honce', htotal'⟩ := hplayed hbroken
  refine ⟨⟨steps, run, hcalls, honce.mpr rfl, htotal⟩, steps', run', hcalls', ?_, htotal'⟩
  rw [honce']
  decide

/-- Ledger `false` reserves two units and commits them. Ledger `true` has mirrored that hold,
and reads the record while it observes an expiry. -/
def sampleProcess : Fin 4 → Bool
  | 0 => false
  | 1 => true
  | 2 => false
  | 3 => true

def sampleCalls : Fin 4 → Call
  | 0 => .reserveAt sampleNow 2
  | 1 => .reserveAt sampleNow 1
  | 2 => .tryCommitReservation 1 (sampleRecord "pay" 2 .pending)
  | 3 => .observeSolanaExpiry ⟨1, "other", sampleNow, 0, 1, sampleNow⟩

def sampleStart : Shared Bool (Fin 4) × Unit :=
  (sampleShared (fun p => if p then "a" else "b") [], ())

def sampleTurns : List (Fin 4 × Nat) := [(0, 9), (1, 9), (2, 9), (3, 9)]

def sampleRun :=
  schedule (responding sampleProcess unrestricted fun _ => false) sampleTurns sampleStart
    fun i => (sampleCalls i).program 4 (sampleProcess i)

/-- The committed payment is counted by its hold and by its record: two units held and two
recorded, beside one unit held, are reported as five. -/
theorem committed_hold_counted_twice :
    ∃ config, Reachable (env sampleProcess unrestricted) sampleStart
        (fun i => (sampleCalls i).program 4 (sampleProcess i)) config ∧
      config.program 3 = .pure (.ok (.observed false)) ∧
      config.shared.1.holds.lookup "b:1" = none ∧
      "b:1" ∈ (config.shared.1.memory true).committedHolds ∧
      (config.shared.1.memory true).holds.lookup "b:1" ≠ none ∧
      (config.shared.1.memory true).outstandingAtomic = 5 := by
  obtain ⟨config, hreach, hshared, hprogram⟩ := Reachable.schedule
    (fun i s e r t h => @responding_env Bool (Fin 4) Unit _ _ sampleProcess unrestricted _ i s t e r
      (fun _ _ _ => trivial) h) sampleTurns .refl
  have hrun : config.shared = sampleRun.1 := hshared
  have hended : config.program = sampleRun.2 := hprogram
  have hvalue : (sampleRun.2 3).value? = some (.ok (.observed false)) := by decide +kernel
  refine ⟨config, hreach, ?_, ?_⟩
  · rw [hended]
    exact Prog.eq_pure_of_value? hvalue
  · rw [hrun]
    decide +kernel

end LedgerOverlap
