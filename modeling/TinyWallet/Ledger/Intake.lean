import TinyWallet.Ledger.Budget

/-!
# What a call takes in from the stream

A reading asks for one window after another and takes their payments in once a
window is empty. Which payments the readings of a call take in is told from what
the call was answered, and so is what becomes of the records and of the
committed keys.
-/

namespace LedgerIntake

open Programs Sharing LedgerRecords LedgerStore LedgerReading LedgerCalls
  LedgerBudget

variable {P : Type}

abbrev History (P : Type) := List (Event (Request P) Request.Answer)

def payments (window : List StreamEntry) : List LoadedPayment :=
  window.filterMap fun entry => parsed entry.value

theorem payments_precise (window : List StreamEntry) :
    ∀ loaded ∈ payments window, Precise loaded.1 := by
  intro loaded hloaded
  refine recordsOf_precise (window.map StreamEntry.value) loaded.1 ?_
  have hpayments : (window.map StreamEntry.value).filterMap parsed = payments window :=
    List.filterMap_map ..
  rw [recordsOf, hpayments]
  exact List.mem_map_of_mem hloaded

/-- One reading, and the payments it found if it came to the end of the stream. -/
inductive Reading : History P → Option (List LoadedPayment) → Prop
  | failed (next : Nat) (text : String) : Reading [⟨.readWindow next, .error text⟩] none
  | ended (next : Nat) : Reading [⟨.readWindow next, .ok []⟩] (some [])
  | window (next : Nat) {window : List StreamEntry} {rest : History P}
      {found : Option (List LoadedPayment)} (nonempty : window ≠ []) (tail : Reading rest found) :
      Reading (⟨.readWindow next, .ok window⟩ :: rest) (found.map (payments window ++ ·))

theorem readFrom_reading {rounds : Nat} : ∀ {next : Nat} {records : List LoadedPayment}
    {m m' : PaymentLedger} {history : History P} {r : Except String (List LoadedPayment × Nat)},
    Trace (readFrom rounds next records m) history (.pure (r, m')) → m' = m ∧
      ∃ found, Reading history found ∧ r.toOption.map Prod.fst = found.map (records ++ ·) := by
  induction rounds with
  | zero =>
    intro next records m m' history r trace
    obtain ⟨a, -⟩ := method_trace_ask trace
    exact a.elim
  | succ rounds ih =>
    intro next records m m' history r trace
    rw [readFrom] at trace
    obtain ⟨a, rest, rfl, ⟨text, hanswer, rfl, rfl, rfl⟩ | ⟨window, hanswer, second⟩⟩ :=
      method_trace_asked trace
    · obtain rfl : a = .error text := hanswer
      exact ⟨rfl, none, .failed next text, rfl⟩
    · obtain rfl : a = .ok window := hanswer
      cases hlast : window.getLast? with
      | none =>
        rw [hlast] at second
        obtain ⟨rfl, hend⟩ := trace_pure second
        obtain ⟨rfl, rfl⟩ := Prod.mk.inj hend
        rw [List.getLast?_eq_none_iff.mp hlast]
        refine ⟨rfl, some [], .ended next, ?_⟩
        exact congrArg some (List.append_nil records).symm
      | some last =>
        rw [hlast] at second
        obtain ⟨rfl, found, hreading, hfound⟩ := ih second
        have hnonempty : window ≠ [] := by
          rintro rfl
          cases hlast
        refine ⟨rfl, found.map (payments window ++ ·), .window next hnonempty hreading, ?_⟩
        rw [hfound, Option.map_map]
        refine congrArg (Option.map · found) (funext fun fresh => ?_)
        exact List.append_assoc records (payments window) fresh

theorem Reading.precise {history : History P} {found : Option (List LoadedPayment)}
    (h : Reading history found) : ∀ fresh ∈ found, ∀ loaded ∈ fresh, Precise loaded.1 := by
  induction h with
  | failed next text => exact nofun
  | ended next =>
    intro fresh hfresh
    obtain rfl := Option.some.inj hfresh
    simp
  | window next nonempty tail ih =>
    intro fresh hfresh loaded hloaded
    obtain ⟨rest, hrest, rfl⟩ := Option.map_eq_some_iff.mp hfresh
    rcases List.mem_append.mp hloaded with hwindow | hlater
    · exact payments_precise _ loaded hwindow
    · exact ih rest hrest loaded hlater

/-- The payments that readings took in; `read` are those of the windows of the present one. -/
def takenFrom (read : List LoadedPayment) : History P → List LoadedPayment
  | [] => []
  | ⟨.readWindow _, .ok window⟩ :: rest =>
    if window.isEmpty then read ++ takenFrom [] rest else takenFrom (read ++ payments window) rest
  | _ :: rest => takenFrom [] rest

def taken (history : History P) : List LoadedPayment := takenFrom [] history

/-- The holds that the entries taken in commit. -/
def takenKeys (history : History P) : List String := (taken history).filterMap Prod.snd

theorem Reading.taken_append {history : History P} {found : Option (List LoadedPayment)}
    (h : Reading history found) (read : List LoadedPayment) (rest : History P) :
    takenFrom read (history ++ rest) = found.elim [] (read ++ ·) ++ takenFrom [] rest := by
  induction h generalizing read with
  | failed next text => rfl
  | ended next => simp [takenFrom]
  | window next nonempty tail ih =>
    rename_i window after found
    have hempty : window.isEmpty = false := by
      rw [List.isEmpty_eq_false_iff]
      exact nonempty
    simp only [List.cons_append, takenFrom, hempty, Bool.false_eq_true, if_false, ih]
    cases found with
    | none => rfl
    | some fresh => simp only [Option.elim_some, Option.map_some, List.append_assoc]

/-- What a call leaves of the keys and the records: `own` are keys that it commits itself, those
of its readings are committed, none is forgotten, and a new record is one that storage can hold. -/
structure Keeps (own : List String) (m m' : PaymentLedger) (history : History P) : Prop where
  committed : ∀ key, key ∈ m'.committedHolds ↔
    key ∈ own ∨ key ∈ takenKeys history ∨ key ∈ m.committedHolds
  records : ∀ record ∈ m.records, record ∈ m'.records
  precise : ∀ record ∈ m'.records, record ∈ m.records ∨ Precise record
  /-- No reading is left open. -/
  closed : ∀ rest, taken (history ++ rest) = taken history ++ taken rest

/-- The part of a call that reads the stream leaves all else as it was. -/
structure Takes (own : List String) (m m' : PaymentLedger) (history : History P) : Prop
    extends Keeps own m m' history where
  holds : m'.holds = m.holds
  reservations : m'.reservations = m.reservations
  owner : m'.owner = m.owner

theorem taken_silent {history : History P} (h : ∀ rest, taken (history ++ rest) = taken rest) :
    taken history = [] := by
  have hempty := h []
  rwa [List.append_nil] at hempty

theorem Keeps.nothing {m m' : PaymentLedger} {history : History P}
    (h : ∀ rest, taken (history ++ rest) = taken rest)
    (hcommitted : m'.committedHolds = m.committedHolds) (hrecords : m'.records = m.records) :
    Keeps [] m m' history := by
  have hnone := taken_silent h
  refine ⟨fun key => ?_, fun record hrecord => ?_, fun record hrecord => .inl ?_, fun rest => ?_⟩
  · simp [takenKeys, hnone, hcommitted]
  · rw [hrecords]
    exact hrecord
  · rw [← hrecords]
    exact hrecord
  · rw [h, hnone, List.nil_append]

theorem Takes.nothing {m : PaymentLedger} {history : History P}
    (h : ∀ rest, taken (history ++ rest) = taken rest) : Takes [] m m history :=
  ⟨.nothing h rfl rfl, rfl, rfl, rfl⟩

theorem Keeps.trans {m m' m'' : PaymentLedger} {before after : History P}
    (h : Keeps [] m m' before) (h' : Keeps [] m' m'' after) : Keeps [] m m'' (before ++ after) := by
  have htaken : taken (before ++ after) = taken before ++ taken after := h.closed after
  refine ⟨fun key => ?_, fun record hrecord => h'.records record (h.records record hrecord),
    fun record hrecord => (h'.precise record hrecord).elim (h.precise record) .inr,
    fun rest => ?_⟩
  · have hkeys : takenKeys (before ++ after) = takenKeys before ++ takenKeys after := by
      rw [takenKeys, htaken, List.filterMap_append, takenKeys, takenKeys]
    rw [h'.committed, h.committed, hkeys, List.mem_append]
    constructor
    · rintro (hown | hafter | hown | hbefore | hold)
      · exact .inl hown
      · exact .inr (.inl (.inr hafter))
      · exact .inl hown
      · exact .inr (.inl (.inl hbefore))
      · exact .inr (.inr hold)
    · rintro (hown | (hbefore | hafter) | hold)
      · exact .inl hown
      · exact .inr (.inr (.inr (.inl hbefore)))
      · exact .inr (.inl hafter)
      · exact .inr (.inr (.inr (.inr hold)))
  · rw [List.append_assoc, h.closed, h'.closed, htaken, List.append_assoc]

theorem Takes.trans {m m' m'' : PaymentLedger} {before after : History P}
    (h : Takes [] m m' before) (h' : Takes [] m' m'' after) : Takes [] m m'' (before ++ after) :=
  ⟨h.toKeeps.trans h'.toKeeps, h'.holds.trans h.holds, h'.reservations.trans h.reservations,
    h'.owner.trans h.owner⟩

theorem Reading.taken_eq {history : History P} {found : Option (List LoadedPayment)}
    (h : Reading history found) : taken history = found.getD [] := by
  have hall := h.taken_append [] []
  rw [List.append_nil] at hall
  rw [taken, hall]
  cases found with
  | none => rfl
  | some fresh => exact List.append_nil fresh

theorem Reading.closed {history : History P} {found : Option (List LoadedPayment)}
    (h : Reading history found) (rest : History P) :
    taken (history ++ rest) = taken history ++ taken rest := by
  rw [h.taken_eq, taken, h.taken_append, taken]
  cases found with
  | none => rfl
  | some fresh => rfl

/-- A refresh reads to the end and takes in what it found, or changes nothing. -/
theorem refreshRecords_reading {rounds : Nat} {m m' : PaymentLedger} {history : History P}
    {r : Except String Unit} (trace : Trace (refreshRecords rounds m) history (.pure (r, m'))) :
    (r = .ok () ∧ ∃ fresh next, Reading history (some fresh) ∧ m' = m.loaded fresh next) ∨
      ((∃ text, r = .error text) ∧ Reading history none ∧ m' = m) := by
  have trace := method_trace_self trace
  rcases method_trace_bind trace with ⟨text, first, rfl⟩ |
    ⟨⟨loaded, next⟩, m₁, before, after, rfl, first, second⟩
  · obtain ⟨rfl, found, hreading, hfound⟩ := readFrom_reading first
    obtain rfl : found = none := Option.map_eq_none_iff.mp hfound.symm
    exact .inr ⟨⟨text, rfl⟩, hreading, rfl⟩
  · obtain ⟨rfl, found, hreading, hfound⟩ := readFrom_reading first
    obtain ⟨rfl, hend⟩ := trace_pure second
    obtain ⟨rfl, rfl⟩ := Prod.mk.inj hend
    obtain ⟨fresh, rfl, hfresh⟩ := Option.map_eq_some_iff.mp hfound.symm
    have hloaded : fresh = loaded := hfresh
    rw [List.append_nil]
    exact .inl ⟨rfl, loaded, next, hloaded ▸ hreading, rfl⟩

theorem loaded_takes {m : PaymentLedger} {history : History P} {fresh : List LoadedPayment}
    (h : Reading history (some fresh)) (next : Nat) : Takes [] m (m.loaded fresh next) history := by
  refine ⟨⟨fun key => ?_, fun record hrecord => ?_, fun record hrecord => ?_, h.closed⟩, rfl, rfl,
    rfl⟩
  · rw [takenKeys, h.taken_eq]
    simp [PaymentLedger.loaded]
  · exact List.mem_append_left _ hrecord
  · rcases List.mem_append.mp hrecord with hold | hnew
    · exact .inl hold
    · obtain ⟨loaded, hloaded, rfl⟩ := List.mem_map.mp hnew
      exact .inr (h.precise fresh rfl loaded hloaded)

theorem refreshRecords_takes {rounds : Nat} {m m' : PaymentLedger} {history : History P}
    {r : Except String Unit} (trace : Trace (refreshRecords rounds m) history (.pure (r, m'))) :
    Takes [] m m' history ∧ ∀ text, r = .error text → m' = m := by
  rcases refreshRecords_reading trace with ⟨rfl, fresh, next, hreading, rfl⟩ |
    ⟨⟨text, rfl⟩, hreading, rfl⟩
  · exact ⟨loaded_takes hreading next, nofun⟩
  · exact ⟨.nothing (hreading.taken_append []), fun _ _ => rfl⟩

/-- One more record of whole milliseconds, and another offset, are no matter. -/
theorem Takes.push {own : List String} {m m' m'' : PaymentLedger} {history : History P}
    (h : Takes own m m' history) (record : PaymentRecord)
    (hrecords : m''.records = m'.records ++ [record.atMillisecondPrecision])
    (hcommitted : m''.committedHolds = m'.committedHolds) (hholds : m''.holds = m'.holds)
    (hreservations : m''.reservations = m'.reservations) (howner : m''.owner = m'.owner) :
    Takes own m m'' history := by
  refine ⟨⟨?_, fun old hold => ?_, fun new hnew => ?_, h.closed⟩, hholds.trans h.holds,
    hreservations.trans h.reservations, howner.trans h.owner⟩
  · rw [hcommitted]
    exact h.committed
  · rw [hrecords]
    exact List.mem_append_left _ (h.records old hold)
  · rw [hrecords] at hnew
    rcases List.mem_append.mp hnew with hbefore | hlast
    · exact h.precise new hbefore
    · rw [List.mem_singleton.mp hlast]
      exact .inr (atMillisecondPrecision_twice record)

/-- A request that reads no window stands before a reading. -/
theorem Takes.after {own : List String} {m m' : PaymentLedger} {history : History P}
    {event : Event (Request P) Request.Answer}
    (h : Takes own m m' history) (silent : ∀ rest, taken (event :: rest) = taken rest) :
    Takes own m m' (event :: history) := by
  refine ⟨⟨fun key => ?_, h.records, h.precise, fun rest => ?_⟩, h.holds, h.reservations, h.owner⟩
  · rw [takenKeys, silent]
    exact h.committed key
  · rw [List.cons_append, silent, silent]
    exact h.closed rest

/-- Committing a key of its own before it reads. -/
theorem Takes.commit {m m' : PaymentLedger} {history : History P} {key : Option String}
    (h : Takes [] (commitKey key m) m' history) : Takes key.toList m m' history := by
  refine ⟨⟨fun k => ?_, h.records, h.precise, h.closed⟩, h.holds, h.reservations, h.owner⟩
  rw [h.committed]
  simp only [commitKey, List.mem_append, List.not_mem_nil, false_or]
  constructor
  · rintro (htaken | hown | hold)
    · exact .inr (.inl htaken)
    · exact .inl hown
    · exact .inr (.inr hold)
  · rintro (hown | htaken | hold)
    · exact .inr (.inl hown)
    · exact .inl htaken
    · exact .inr (.inr hold)

theorem appendRecord_takes {rounds : Nat} {record : PaymentRecord} {key : Option String}
    {m m' : PaymentLedger} {history : History P} {r : Except String Unit}
    (trace : Trace (appendRecord rounds record key m) history (.pure (r, m'))) :
    (r = .ok () ∧ Takes key.toList m m' history) ∨
      ((∃ text, r = .error text) ∧ m' = m ∧ ∀ rest, taken (history ++ rest) = taken rest) := by
  rcases method_trace_bind trace with ⟨text, first, rfl⟩ |
    ⟨offset, m₁, before, after, rfl, first, second⟩
  · obtain ⟨a, rfl, -, rfl⟩ := method_trace_ask first
    exact .inr ⟨⟨text, rfl⟩, rfl, fun _ => rfl⟩
  · obtain ⟨a, rfl, -, rfl⟩ := method_trace_ask first
    have second := method_trace_self (method_trace_update second)
    left
    by_cases hhere : offset = (commitKey key m₁).nextOffset
    · rw [if_pos hhere] at second
      obtain ⟨rfl, rfl, rfl⟩ := method_trace_changed second
      have hnothing : Takes [] (commitKey key m₁) (commitKey key m₁) ([] : History P) :=
        .nothing fun _ => rfl
      exact ⟨rfl, (hnothing.commit.after fun _ => rfl).push record rfl rfl rfl rfl rfl⟩
    · rw [if_neg hhere] at second
      obtain ⟨result, m₂, before, after, rfl, reread, last⟩ := method_trace_tried second
      obtain ⟨htakes, hfailed⟩ := refreshRecords_takes reread
      cases result with
      | ok _ =>
        obtain ⟨rfl, rfl, rfl⟩ := method_trace_done last
        rw [List.append_nil]
        exact ⟨rfl, (Takes.commit htakes).after fun _ => rfl⟩
      | error text =>
        obtain ⟨rfl, rfl, rfl⟩ := method_trace_changed last
        obtain rfl := hfailed text rfl
        rw [List.append_nil]
        exact ⟨rfl, (htakes.commit.after fun _ => rfl).push record rfl rfl rfl rfl rfl⟩

/-- A method that only takes keys in. -/
theorem observeSolanaExpiry_takes {rounds : Nat} {evidence : ExpiryEvidence}
    {m m' : PaymentLedger} {history : History P} {r : Except String Bool}
    (trace : Trace (observeSolanaExpiry rounds evidence m) history (.pure (r, m'))) :
    Takes [] m m' history := by
  have trace := method_trace_self trace
  split_ifs at trace
  · obtain ⟨rfl, -, rfl⟩ := method_trace_done trace
    exact .nothing fun _ => rfl
  rcases method_trace_bind trace with ⟨text, first, rfl⟩ |
    ⟨_, m₁, before, after, rfl, first, second⟩
  · exact (refreshRecords_takes first).1
  have htakes := (refreshRecords_takes first).1
  have second := method_trace_self second
  cases hlatest : payment m₁.records evidence.id with
  | none =>
    rw [hlatest] at second
    obtain ⟨rfl, -, rfl⟩ := method_trace_done second
    rwa [List.append_nil]
  | some latest =>
    rw [hlatest] at second
    dsimp only at second
    split_ifs at second
    · obtain ⟨result, third, -⟩ := method_trace_map second
      rcases appendRecord_takes third with ⟨-, hafter⟩ | ⟨-, rfl, hsilent⟩
      · exact htakes.trans hafter
      · exact htakes.trans (.nothing hsilent)
    · obtain ⟨rfl, -, rfl⟩ := method_trace_done second
      rwa [List.append_nil]

/-- Opening takes in what the whole stream holds, or fails and changes nothing. -/
theorem openLedger_takes {rounds generation : Nat} {owner sessionId : String}
    {budget : SpendingBudget} {m m' : PaymentLedger} {history : History P} {r : Except String Unit}
    (trace : Trace (openLedger rounds generation owner sessionId budget m) history
      (.pure (r, m'))) :
    (r = .ok () ∧ m'.holds = ∅ ∧ m'.committedHolds = takenKeys history ∧
        ∀ record ∈ m'.records, Precise record) ∨
      ((∃ text, r = .error text) ∧ m' = m) := by
  rcases method_trace_bind trace with ⟨text, first, rfl⟩ |
    ⟨found, m₁, before, after, rfl, first, second⟩
  · obtain ⟨rfl, -⟩ := readFrom_reading first
    exact .inr ⟨⟨text, rfl⟩, rfl⟩
  · obtain ⟨-, loaded, hreading, hfound⟩ := readFrom_reading first
    obtain ⟨rfl, rfl, rfl⟩ := method_trace_changed second
    obtain ⟨fresh, rfl, hfresh⟩ := Option.map_eq_some_iff.mp hfound.symm
    have hread : fresh = found.1 := hfresh
    refine .inl ⟨rfl, rfl, ?_, fun record hrecord => ?_⟩
    · rw [List.append_nil, takenKeys, hreading.taken_eq, Option.getD_some, hread]
    · obtain ⟨loaded, hloaded, rfl⟩ := List.mem_map.mp hrecord
      exact hreading.precise fresh rfl loaded (hread ▸ hloaded)

end LedgerIntake
