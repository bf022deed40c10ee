import TinyWallet.Ledger.Migration
import TinyWallet.Ledger.Mirrors

/-!
# Stored records keep every field

Storage keeps milliseconds, so a record is cut to milliseconds before it is
stored, and what the ledger then holds in memory is what is read back: through
the stored form and its JSON, and after an append among any other programs.
-/

namespace LedgerPrecision

open Programs Sharing LedgerRecords LedgerStore LedgerStorage LedgerReading LedgerCalls
  LedgerMirrors LedgerLegacy LedgerMigration

/-- Down by less than one millisecond. -/
def MovedDown (instant cut : Instant) : Prop :=
  cut.nanos ≤ instant.nanos ∧ instant.nanos - cut.nanos < 1000000

theorem cut_movedDown (instant : Instant) : MovedDown instant instant.cut := by
  rw [MovedDown, Instant.cut_nanos]
  omega

theorem map_cut_movedDown (instant : Option Instant) :
    Option.Rel MovedDown instant (instant.map Instant.cut) := by
  cases instant with
  | none => exact .none
  | some instant => exact .some (cut_movedDown instant)

/-- Nothing but the three instants differs, and they move down. -/
structure OnlyInstants (record cut : PaymentRecord) : Prop where
  others : cut = { record with
    timestamp := cut.timestamp
    authorizationValidUntil := cut.authorizationValidUntil
    authorizationExpiredAt := cut.authorizationExpiredAt }
  timestamp : MovedDown record.timestamp cut.timestamp
  validUntil : Option.Rel MovedDown record.authorizationValidUntil cut.authorizationValidUntil
  expiredAt : Option.Rel MovedDown record.authorizationExpiredAt cut.authorizationExpiredAt

theorem atMillisecondPrecision_onlyInstants (record : PaymentRecord) :
    OnlyInstants record record.atMillisecondPrecision := by
  constructor
  · rfl
  · exact cut_movedDown record.timestamp
  · exact map_cut_movedDown record.authorizationValidUntil
  · exact map_cut_movedDown record.authorizationExpiredAt

theorem millis_lt (instant : Instant) : instant.millis < 2 ^ 63 := by
  have hupper := instant.upper
  rw [maxNanos] at hupper
  rw [Instant.millis]
  omega

theorem map_millis_lt (instant : Option Instant) :
    ∀ ms ∈ instant.map Instant.millis, ms < 2 ^ 63 := by
  intro ms hms
  obtain ⟨instant, -, rfl⟩ := Option.map_eq_some_iff.mp hms
  exact millis_lt instant

theorem storedPayment_fits (record : PaymentRecord) (key : Option String) :
    FitsI64 (storedPayment record key) := by
  constructor
  · exact millis_lt record.timestamp
  constructor
  · exact map_millis_lt record.authorizationValidUntil
  · exact map_millis_lt record.authorizationExpiredAt

section Appending

variable {P ι γ : Type} [DecidableEq P] {process : ι → P} {rules : Rules P ι γ}

/-- Nothing is required of the programs. -/
def anything (process : ι → P) (rules : Rules P ι γ) : Contract (Shared P ι × γ) ι :=
  contract process rules (fun _ => True) fun _ _ _ => True

theorem safe_anything {α : Type} (i : ι) (p : Prog (Request P) Request.Answer Empty α)
    (s : Shared P ι × γ) :
    Safe (env process rules) (anything process rules) i (fun _ _ => True) p s := by
  induction p generalizing s with
  | pure a => exact fun _ _ _ => trivial
  | fail e => exact e.elim
  | call e k ih =>
    intro t _ _ r u hu
    exact ⟨trivial, ⟨⟨e, r, hu⟩, trivial⟩, ih r u⟩

theorem steady_anything (i : ι) :
    Steady process rules (fun _ => True) (fun _ _ _ => True) i fun _ => True where
  others := fun _ _ _ _ _ => trivial
  reading := fun _ _ _ _ _ _ _ => ⟨trivial, trivial, trivial⟩

theorem appends_anything (i : ι) (value : StoredPayment) :
    Appends process rules (fun _ => True) (fun _ _ _ => True) i (fun _ => True) (fun _ => True)
      (fun _ _ => True) value where
  others := fun _ _ _ _ _ => trivial
  step := by
    intro s r t _ _ _
    cases r with
    | ok offset => exact ⟨trivial, trivial, trivial⟩
    | error text => exact ⟨trivial, trivial, trivial⟩
  later := fun _ => steady_anything i

/-- What an append leaves in memory: the record alone, or in its place among the
entries of other writers that were read with it. -/
structure Entered (m m' : PaymentLedger) (before more : List (Option StoredPayment))
    (record : PaymentRecord) (key : Option String) : Prop where
  committed : ∀ k ∈ key, k ∈ m'.committedHolds
  records : m'.records = m.records ++ [record] ∨ ∃ seen, seen <+: more ∧
    m'.records = m.records ++ recordsOf (before.drop m.nextOffset) ++ record :: recordsOf seen

/-- What a ledger opened on a stream at rest reads where the entry stands. -/
def ReadsBack (P : Type) (before more : List (Option StoredPayment)) (entry : StoredPayment)
    (record : PaymentRecord) (key : Option String) : Prop :=
  ∀ generation owner sessionId budget m rounds, (before ++ some entry :: more).length < rounds →
    ∃ history ledger,
      outcome (atRest (P := P) (before ++ some entry :: more)) rounds
          (openLedger rounds generation owner sessionId budget m) =
        some (history, (.ok (), ledger)) ∧
      ledger.records = recordsOf before ++ record :: recordsOf more ∧
      ledger.committedHolds = keysOf before ++ key.toList ++ keysOf more

omit [DecidableEq P] in
theorem readsBack_stored (before more : List (Option StoredPayment)) (record : PaymentRecord)
    (key : Option String) :
    ReadsBack P before more (storedPayment record.atMillisecondPrecision key)
      record.atMillisecondPrecision key := by
  intro generation owner sessionId budget m rounds enough
  obtain ⟨history, hopen⟩ := openLedger_atRest (P := P) _ generation owner sessionId budget m rounds
    enough
  refine ⟨history, _, hopen, ?_, ?_⟩
  · rw [opened, List.append_cons, recordsOf_append, recordsOf_append, recordsOf_stored,
      List.append_assoc, List.singleton_append]
  · rw [opened, List.append_cons, keysOf_append, keysOf_append, keysOf_stored]

theorem entered_of_tookIn {failed : Prop} {m m' : PaymentLedger}
    {before seen more : List (Option StoredPayment)} {record : PaymentRecord} {key : Option String}
    (hoffset : m.nextOffset ≤ before.length) (hseen : seen <+: more)
    (took : TookIn failed m record.atMillisecondPrecision key before
      (before ++ some (storedPayment record.atMillisecondPrecision key) :: seen) m') :
    Entered m m' before more record.atMillisecondPrecision key := by
  have hkey : ∀ k ∈ key, k ∈ (commitKey key m).committedHolds := by
    intro k hk
    exact List.mem_append_left _ (by simpa using hk)
  cases took with
  | next here => exact ⟨hkey, .inl rfl⟩
  | kept later unread => exact ⟨hkey, .inl rfl⟩
  | reread later =>
    constructor
    · intro k hk
      exact List.mem_append_right _ (hkey k hk)
    · right
      refine ⟨seen, hseen, ?_⟩
      have hdrop : (before ++ some (storedPayment record.atMillisecondPrecision key) :: seen).drop
            m.nextOffset =
          before.drop m.nextOffset ++ [some (storedPayment record.atMillisecondPrecision key)] ++
            seen := by
        rw [List.drop_append_of_le_length hoffset, List.append_cons]
      have hrecords : (caughtUp (commitKey key m) (before ++
          some (storedPayment record.atMillisecondPrecision key) :: seen)).records =
          m.records ++ recordsOf
            ((before ++ some (storedPayment record.atMillisecondPrecision key) :: seen).drop
              m.nextOffset) := rfl
      rw [hrecords, hdrop, recordsOf_append, recordsOf_append, recordsOf_stored]
      simp only [List.append_assoc, List.singleton_append]

variable [DecidableEq ι]

/-- An append that ended well has its entry in the stream and its record in memory. -/
theorem append_entered {rounds : Nat} {record : PaymentRecord} {key : Option String}
    {m m' : PaymentLedger} {start : Shared P ι × γ} {i : ι}
    {programs : ι → Prog (Request P) Request.Answer Empty (Except String Unit × PaymentLedger)}
    (own : programs i = appendRecord rounds record key m)
    (reached : m.nextOffset ≤ start.1.stream.length)
    {config : Config (Shared P ι × γ) ι (Request P) Request.Answer Empty
      (Except String Unit × PaymentLedger)}
    (reach : Reachable (env process rules) start programs config)
    (ended : config.program i = .pure (.ok (), m')) :
    ∃ before more, config.shared.1.stream =
        before ++ some (storedPayment record.atMillisecondPrecision key) :: more ∧
      Entered m m' before more record.atMillisecondPrecision key := by
  have hmeets := @appendRecord_meets P ι γ _ process rules (fun _ => True) (fun _ _ _ => True) i
    (fun _ => True) (fun _ => True) (fun _ _ => True) rounds record key (appends_anything i _) m
    start trivial reached
  have hsafe : ∀ j, Safe (env process rules) (anything process rules) j
      (fun out s => j = i → AppendTo process rules (fun _ => True) (fun _ _ _ => True) i
        (fun _ => True) (fun _ _ => True) m record.atMillisecondPrecision key out.1 out.2 s)
      (programs j) start := by
    intro j
    by_cases hj : j = i
    · rw [hj, own]
      exact safe_mono (fun _ _ _ h _ => h) hmeets
    · exact safe_mono (fun _ _ _ _ h => absurd h hj) (safe_anything j (programs j) start)
  obtain ⟨u, -, rely, before, -, hoffset, hentry, took⟩ :=
    reachable_ends trivial hsafe reach ended rfl
  obtain ⟨more, hstream⟩ := rely_stream rely
  obtain ⟨seen, hnow⟩ := hentry
  rw [← List.append_cons] at hnow
  rw [← hnow] at took
  refine ⟨before, seen ++ more, ?_, entered_of_tookIn hoffset (List.prefix_append _ _) took⟩
  rw [← hstream, ← hnow, List.append_assoc, List.cons_append]

/-- A stored record reads back as itself, cut to milliseconds, with the hold it committed; the
cut changes nothing but the three instants; and the record that an append leaves in memory,
among any other programs, is the one that a reopened ledger reads in the place of its entry. -/
theorem stored_record_round_trips (process : ι → P) (rules : Rules P ι γ) (rounds : Nat)
    (record : PaymentRecord) (key : Option String) :
    intoRecord (storedPayment record.atMillisecondPrecision key) =
        .ok (record.atMillisecondPrecision, key) ∧
      record.atMillisecondPrecision.atMillisecondPrecision = record.atMillisecondPrecision ∧
      OnlyInstants record record.atMillisecondPrecision ∧
      ∀ (m m' : PaymentLedger) (start : Shared P ι × γ) (i : ι)
        (programs : ι → Prog (Request P) Request.Answer Empty (Except String Unit × PaymentLedger))
        (config : Config (Shared P ι × γ) ι (Request P) Request.Answer Empty
          (Except String Unit × PaymentLedger)),
        programs i = appendRecord rounds record key m → m.nextOffset ≤ start.1.stream.length →
        Reachable (env process rules) start programs config →
        config.program i = .pure (.ok (), m') →
        ∃ before more entry, config.shared.1.stream = before ++ some entry :: more ∧
          storedOf (storedValue entry) = some entry ∧
          Entered m m' before more record.atMillisecondPrecision key ∧
          ReadsBack P before more entry record.atMillisecondPrecision key := by
  have hback := intoRecord_storedPayment record.atMillisecondPrecision key
  rw [atMillisecondPrecision_twice] at hback
  refine ⟨hback, atMillisecondPrecision_twice record,
    atMillisecondPrecision_onlyInstants record, ?_⟩
  intro m m' start i programs config own reached reach ended
  obtain ⟨before, more, hstream, hentered⟩ := append_entered own reached reach ended
  exact ⟨before, more, _, hstream, storedOf_storedValue (storedPayment_fits _ _), hentered,
    readsBack_stored before more record key⟩

end Appending

/-- A record of the last instants of 1969 is appended behind another ledger's. -/
def sampleOwn : PaymentRecord :=
  { sampleRecord "own" 2 .settled with
    timestamp := ⟨-1, by decide, by decide⟩
    authorizationExpiredAt := some ⟨-1500001, by decide, by decide⟩ }

def samplePrograms : Bool →
    Prog (Request Bool) Request.Answer Empty (Except String Unit × PaymentLedger)
  | false => appendRecord 4 (sampleRecord "other" 1 .settled) none (sampleLedger "a")
  | true => appendRecord 4 sampleOwn (some "b:1") (sampleLedger "b")

def sampleStart : Shared Bool Bool × Unit :=
  (sampleShared (fun p => if p then "b" else "a") [], ())

def sampleTurns : List (Bool × Nat) := [(false, 9), (true, 9)]

def sampleRun :=
  schedule (responding id unrestricted fun _ => false) sampleTurns sampleStart samplePrograms

theorem sample_record_round_trips :
    ∃ config m' before more entry,
      Reachable (env id unrestricted) sampleStart samplePrograms config ∧
      config.program true = .pure (.ok (), m') ∧
      config.shared.1.stream = before ++ some entry :: more ∧
      storedOf (storedValue entry) = some entry ∧
      Entered (sampleLedger "b") m' before more sampleOwn.atMillisecondPrecision (some "b:1") ∧
      ReadsBack Bool before more entry sampleOwn.atMillisecondPrecision (some "b:1") := by
  obtain ⟨config, hreach, -, hprogram⟩ := Reachable.schedule
    (fun i s e r t h => @responding_env Bool Bool Unit _ _ id unrestricted _ i s t e r
      (fun _ _ _ => trivial) h) sampleTurns .refl
  have hended : config.program = sampleRun.2 := hprogram
  have hdone : (sampleRun.2 true).value?.map (fun out => out.1.isOk) = some true := by
    decide +kernel
  obtain ⟨⟨result, m'⟩, hvalue, hok⟩ := Option.map_eq_some_iff.mp hdone
  cases result with
  | error text => cases hok
  | ok _ =>
    have hpure : config.program true = .pure (.ok (), m') := by
      rw [hended]
      exact Prog.eq_pure_of_value? hvalue
    obtain ⟨before, more, entry, h⟩ := (stored_record_round_trips id unrestricted 4 sampleOwn
      (some "b:1")).2.2.2 (sampleLedger "b") m' sampleStart true samplePrograms config rfl
      (Nat.zero_le _) hreach hpure
    exact ⟨config, m', before, more, entry, hreach, hpure, h⟩

end LedgerPrecision
