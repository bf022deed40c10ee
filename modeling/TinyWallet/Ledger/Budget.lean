import TinyWallet.Ledger.Totals

/-!
# The budget check is exact

The check adds with saturation, over a map whose order is not specified, and
compares instants with the ends of windows. What it decides is said here in
unbounded sums over ids and in days and months of the calendar.
-/

namespace LedgerBudget

open Calendar Tables LedgerRecords LedgerStore LedgerStorage LedgerReading LedgerCalls
  LedgerTotals

theorem latestRecords_ids (records : List PaymentRecord) :
    ((latestRecords records).map PaymentRecord.id).toFinset =
      (records.map PaymentRecord.id).toFinset := by
  induction records using List.reverseRecOn with
  | nil => simp [latestRecords]
  | append_singleton records last ih =>
    ext id
    have hid := Finset.ext_iff.mp ih id
    simp only [List.mem_toFinset, List.mem_map] at hid
    rw [latestRecords_append]
    simp only [List.map_append, List.toFinset_append, List.map_cons, List.map_nil,
      List.toFinset_cons, List.toFinset_nil, Finset.mem_union, List.mem_toFinset, List.mem_map,
      List.mem_filter, Finset.mem_insert, Finset.notMem_empty, or_false]
    by_cases h : id = last.id
    · simp [h]
    · simp only [h, or_false]
      rw [← hid]
      constructor
      · rintro ⟨record, ⟨hmem, -⟩, rfl⟩
        exact ⟨record, hmem, rfl⟩
      · rintro ⟨record, hmem, rfl⟩
        exact ⟨record, ⟨hmem, by simpa using h⟩, rfl⟩

/-- What the payments of a record list amount to when each id counts by its last
record, if that is charged. -/
def dueTotal (charged : PaymentRecord → Prop) [DecidablePred charged]
    (records : List PaymentRecord) : Nat :=
  ∑ id ∈ (records.map PaymentRecord.id).toFinset,
    ((payment records id).filter fun record => charged record).elim 0 PaymentRecord.amountAtomic

theorem chargedSum_eq_dueTotal (charged : PaymentRecord → Prop) [DecidablePred charged]
    (records : List PaymentRecord) :
    chargedSum (fun record => charged record) records = dueTotal charged records := by
  have hlatest : ∀ record ∈ latestRecords records,
      ((payment records record.id).filter fun record => charged record).elim 0
        PaymentRecord.amountAtomic = if charged record then record.amountAtomic else 0 := by
    intro record hrecord
    rw [(mem_latestRecords_iff records record).mp hrecord]
    by_cases h : charged record
    · simp [Option.filter, h]
    · simp [Option.filter, h]
  rw [dueTotal, ← latestRecords_ids, List.sum_toFinset _ (latestRecords_ids_nodup records),
    List.map_map, chargedSum]
  have hmap := List.map_congr_left hlatest
  simp only [Function.comp_def]
  rw [hmap]
  generalize latestRecords records = latest
  induction latest with
  | nil => rfl
  | cons record rest ih =>
    by_cases h : charged record
    · simpa [h] using ih
    · simpa [h] using ih

/-- Charged to the period of `now`: settled in it, or unresolved with a window
from issue to end that meets it. -/
def ChargedTo (period : Instant → Int) (now : Instant) (record : PaymentRecord) : Prop :=
  (record.status = .settled ∧ period record.timestamp = period now) ∨
    (isUnresolved record = true ∧ period record.timestamp ≤ period now ∧
      ∀ finish ∈ authorizationWindowEnd record, period now ≤ period finish)

instance (period : Instant → Int) (now : Instant) : DecidablePred (ChargedTo period now) :=
  fun _ => inferInstanceAs (Decidable (_ ∨ _))

theorem dayWindow_start_le (now instant : Instant) :
    (dayWindow now).start ≤ instant.nanos ↔ now.day ≤ instant.day := by
  simp only [dayWindow, Instant.day, dayNanos]
  omega

/-- The last instant that chrono has lies in no half-open window. -/
theorem lt_dayWindow_finish {now instant : Instant} (h : instant.nanos < maxNanos) :
    instant.nanos < (dayWindow now).finish ↔ instant.day ≤ now.day := by
  simp only [dayWindow, Instant.day, dayNanos] at *
  omega

theorem monthWindow_start_le (now instant : Instant) :
    (monthWindow now).start ≤ instant.nanos ↔ now.month ≤ instant.month := by
  have hday : monthStart now.month ≤ instant.day ↔ now.month ≤ monthOf instant.day :=
    monthStart_le_iff _ _
  simp only [monthWindow, Instant.month] at *
  rw [← hday]
  simp only [Instant.day, dayNanos]
  omega

theorem lt_monthWindow_finish {now instant : Instant} (h : instant.nanos < maxNanos) :
    instant.nanos < (monthWindow now).finish ↔ instant.month ≤ now.month := by
  have hday : monthStart (now.month + 1) ≤ instant.day ↔ now.month + 1 ≤ monthOf instant.day :=
    monthStart_le_iff _ _
  have hnot : instant.month ≤ now.month ↔ instant.day < monthStart (now.month + 1) := by
    simp only [Instant.month] at *
    omega
  rw [hnot]
  simp only [monthWindow, Instant.day, dayNanos] at *
  omega

/-- A record as every ledger holds it: its instants are whole milliseconds. -/
def Precise (record : PaymentRecord) : Prop := record.atMillisecondPrecision = record

instance : DecidablePred Precise := fun record =>
  inferInstanceAs (Decidable (record.atMillisecondPrecision = record))

theorem Precise.early {record : PaymentRecord} (h : Precise record) :
    record.timestamp.nanos < maxNanos := by
  have hcut : record.timestamp.cut = record.timestamp := congrArg PaymentRecord.timestamp h
  have hnanos := Instant.cut_nanos record.timestamp
  rw [hcut] at hnanos
  have hupper := record.timestamp.upper
  simp only [maxNanos] at *
  omega

/-- What is read from a stream is precise, whatever the stream holds. -/
theorem recordsOf_precise (entries : List (Option StoredPayment)) :
    ∀ record ∈ recordsOf entries, Precise record := by
  intro record hrecord
  obtain ⟨loaded, hloaded, rfl⟩ := List.mem_map.mp hrecord
  obtain ⟨entry, -, hparsed⟩ := List.mem_filterMap.mp hloaded
  obtain ⟨stored, rfl, hinto⟩ := Option.bind_eq_some_iff.mp hparsed
  cases hread : intoRecord stored with
  | error text => simp [hread, Except.toOption] at hinto
  | ok found =>
    simp only [hread, Except.toOption, Option.some.injEq] at hinto
    subst hinto
    exact intoRecord_precise hread

theorem chargedDaily_iff {now : Instant} {record : PaymentRecord} (h : Precise record) :
    chargedDaily now record = decide (ChargedTo Instant.day now record) := by
  have hissued := @lt_dayWindow_finish now _ h.early
  have hsame : record.timestamp.day = now.day ↔
      now.day ≤ record.timestamp.day ∧ record.timestamp.day ≤ now.day := by omega
  rw [Bool.eq_iff_iff, decide_eq_true_iff]
  simp only [chargedDaily, overlapsAuthorizationWindow, ChargedTo, Bool.or_eq_true,
    Bool.and_eq_true, decide_eq_true_eq, Option.all_eq_true, dayWindow_start_le, hissued, hsame]
  tauto

theorem chargedMonthly_iff {now : Instant} {record : PaymentRecord} (h : Precise record) :
    chargedMonthly now record = decide (ChargedTo Instant.month now record) := by
  have hissued := @lt_monthWindow_finish now _ h.early
  rw [Bool.eq_iff_iff, decide_eq_true_iff]
  simp only [chargedMonthly, overlapsAuthorizationWindow, ChargedTo, Bool.or_eq_true,
    Bool.and_eq_true, decide_eq_true_eq, Option.all_eq_true, monthWindow_start_le, hissued]
  tauto

theorem chargedSum_congr {charged charged' : PaymentRecord → Bool} {records : List PaymentRecord}
    (h : ∀ record ∈ records, charged record = charged' record) :
    chargedSum charged records = chargedSum charged' records := by
  have hlatest : ∀ record ∈ latestRecords records, charged record = charged' record :=
    fun record hrecord => h record (mem_of_mem_latestRecords hrecord)
  rw [chargedSum, chargedSum, List.filter_congr hlatest]

/-- The check over the latest records in any order. They are visited once for the day and once
for the month, each time in an order of its own. -/
def checkLatest (budget : SpendingBudget) (held : Nat) (ofDay ofMonth : List PaymentRecord)
    (now : Instant) (amount : Nat) : BudgetCheck :=
  let total := fun (latest : List PaymentRecord) (charged : PaymentRecord → Bool) =>
    (latest.filter charged).foldl
      (fun total record => saturatingAdd total record.amountAtomic) held
  if budget.perRequestMaxAtomic < amount then
    .exceedsPerRequest amount budget.perRequestMaxAtomic
  else if exceeds (total ofDay (chargedDaily now)) amount budget.dailyMaxAtomic then
    .exceedsDailyBudget (total ofDay (chargedDaily now)) budget.dailyMaxAtomic
  else if exceeds (total ofMonth (chargedMonthly now)) amount budget.monthlyMaxAtomic then
    .exceedsMonthlyBudget (total ofMonth (chargedMonthly now)) budget.monthlyMaxAtomic
  else .allowed

theorem checkLatest_latestRecords (budget : SpendingBudget) (held : Nat)
    (records : List PaymentRecord) (now : Instant) (amount : Nat) :
    checkLatest budget held (latestRecords records) (latestRecords records) now amount =
      checkBudget budget held records now amount := rfl

theorem foldl_saturatingAdd_perm {latest latest' : List PaymentRecord} (h : latest.Perm latest')
    {held : Nat} (hheld : held ≤ u64Max) (charged : PaymentRecord → Bool) :
    (latest.filter charged).foldl (fun total record => saturatingAdd total record.amountAtomic)
        held =
      (latest'.filter charged).foldl
        (fun total record => saturatingAdd total record.amountAtomic) held := by
  rw [foldl_saturatingAdd _ hheld, foldl_saturatingAdd _ hheld,
    ((h.filter charged).map PaymentRecord.amountAtomic).sum_eq]

theorem checkLatest_perm {latest ofDay ofMonth : List PaymentRecord} (day : ofDay.Perm latest)
    (month : ofMonth.Perm latest) {held : Nat} (hheld : held ≤ u64Max) (budget : SpendingBudget)
    (now : Instant) (amount : Nat) :
    checkLatest budget held ofDay ofMonth now amount =
      checkLatest budget held latest latest now amount := by
  simp only [checkLatest, foldl_saturatingAdd_perm day hheld, foldl_saturatingAdd_perm month hheld]

/-- A saturated sum exceeds a cap exactly when the sum does, for a positive amount. -/
theorem exceeds_saturated_iff {sum amount cap : Nat} (hcap : cap < 2 ^ 64) (hamount : 1 ≤ amount) :
    exceeds (min sum u64Max) amount cap = true ↔ cap < sum + amount := by
  constructor
  · exact exceeds_trueTotal hcap
  · intro h
    by_cases hover : 2 ^ 64 ≤ min sum u64Max + amount
    · exact Bool.or_eq_true_iff.mpr (.inl (decide_eq_true hover))
    · refine Bool.or_eq_true_iff.mpr (.inr (decide_eq_true ?_))
      simp only [u64Max] at *
      omega

theorem reservedAtomic_le (ledger : PaymentLedger) : ledger.reservedAtomic ≤ u64Max :=
  heldAtomic_le ledger.holds

/-- What a ledger's mirror of the hold document amounts to. -/
def heldTotal (ledger : PaymentLedger) : Nat := total (fun _ hold => hold.amount) ledger.holds

/-- What counts against the period of `now`. -/
def periodTotal (period : Instant → Int) (ledger : PaymentLedger) (now : Instant) : Nat :=
  heldTotal ledger + dueTotal (ChargedTo period now) ledger.records

theorem chargedTotal_periodTotal {ledger : PaymentLedger} {charged : PaymentRecord → Bool}
    {period : Instant → Int} {now : Instant}
    (h : ∀ record ∈ ledger.records, charged record = decide (ChargedTo period now record)) :
    chargedTotal ledger.reservedAtomic charged ledger.records =
      min (periodTotal period ledger now) u64Max := by
  rw [chargedTotal_eq (reservedAtomic_le ledger), PaymentLedger.reservedAtomic, heldAtomic_eq,
    chargedSum_congr h, chargedSum_eq_dueTotal, periodTotal, heldTotal]
  omega

/-- A payment of 5, settled today under a daily cap of 6. -/
def sampleBusy : PaymentLedger :=
  { sampleLedger "a" with
    records := [sampleRecord "first" 2 .pending, sampleRecord "first" 5 .settled] }

end LedgerBudget
