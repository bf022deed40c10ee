import TinyWallet.Library.Calendar
import TinyWallet.Library.Tables

/-!
# Payment records and the spending budget

A record is one state of one payment; the last record of an id is the payment's
state. What a record charges to a day or a month depends on its status, its
date and, while it is unresolved, on the window its authorization can settle in.

Instants are chrono's: nanoseconds since 1970 within the range of its dates,
leap seconds left out. The stream keeps milliseconds.
-/

namespace LedgerRecords

open Calendar Tables

/-- `DateTime::<Utc>::MIN_UTC`, at the start of the year -262143. -/
def minNanos : Int := -8334601228800000000000

/-- `DateTime::<Utc>::MAX_UTC`, at the end of the year 262142. -/
def maxNanos : Int := 8210266876799999999999

structure Instant where
  nanos : Int
  lower : minNanos ≤ nanos
  upper : nanos ≤ maxNanos
deriving DecidableEq

theorem Instant.ext_nanos {a b : Instant} (h : a.nanos = b.nanos) : a = b := by
  cases a
  cases b
  simp_all

def Instant.millis (instant : Instant) : Int := instant.nanos / 1000000

def fromTimestampMillis (ms : Int) : Option Instant :=
  if h : minNanos ≤ ms * 1000000 ∧ ms * 1000000 ≤ maxNanos then some ⟨ms * 1000000, h.1, h.2⟩
  else none

/-- An instant cut to whole milliseconds. -/
def Instant.cut (instant : Instant) : Instant := (fromTimestampMillis instant.millis).getD instant

theorem fromTimestampMillis_millis (instant : Instant) :
    fromTimestampMillis instant.millis = some instant.cut := by
  have hin : minNanos ≤ instant.millis * 1000000 ∧ instant.millis * 1000000 ≤ maxNanos := by
    have hlower := instant.lower
    have hupper := instant.upper
    simp only [Instant.millis, minNanos, maxNanos] at *
    omega
  simp [Instant.cut, fromTimestampMillis, hin]

theorem Instant.cut_nanos (instant : Instant) :
    instant.cut.nanos = instant.nanos / 1000000 * 1000000 := by
  have h := fromTimestampMillis_millis instant
  simp only [fromTimestampMillis] at h
  split at h
  · have hcut := Option.some.inj h
    rw [← hcut]
    rfl
  · cases h

@[simp] theorem Instant.cut_cut (instant : Instant) : instant.cut.cut = instant.cut := by
  apply Instant.ext_nanos
  simp only [Instant.cut_nanos]
  omega

def dayNanos : Int := 86400000000000

/-- The UTC day of an instant, counted from 1970-01-01. -/
def Instant.day (instant : Instant) : Int := instant.nanos / dayNanos

/-- The calendar month of an instant, its year included. -/
def Instant.month (instant : Instant) : Int := monthOf instant.day

/-- A span of time, its end excluded. -/
structure Window where
  start : Int
  finish : Int
deriving DecidableEq, Repr

def dayWindow (now : Instant) : Window :=
  ⟨now.day * dayNanos, min ((now.day + 1) * dayNanos) maxNanos⟩

def monthWindow (now : Instant) : Window :=
  ⟨monthStart now.month * dayNanos, min (monthStart (now.month + 1) * dayNanos) maxNanos⟩

inductive PaymentStatus where
  | pending
  | settled
  | failed
  | denied
deriving DecidableEq, Repr

/-- Six decimal places. -/
def formatUsdc (amountAtomic : Nat) : String :=
  let rest := Nat.toDigits 10 (amountAtomic % 1000000)
  toString (amountAtomic / 1000000) ++ "." ++
    String.ofList (List.replicate (6 - rest.length) '0' ++ rest) ++ " USDC"

structure PaymentRecord where
  id : String
  url : String
  asset : String
  amountAtomic : Nat
  amountDisplay : String
  recipient : String
  network : String
  txSignature : Option String
  status : PaymentStatus
  timestamp : Instant
  authorizationValidUntil : Option Instant
  solanaLastValidBlockHeight : Option Nat
  authorizationExpiredAt : Option Instant
  authorizationExpiryObservedHeight : Option Nat
  sessionId : String
  threadId : Option String
deriving DecidableEq

def PaymentRecord.atMillisecondPrecision (record : PaymentRecord) : PaymentRecord :=
  { record with
    timestamp := record.timestamp.cut
    authorizationValidUntil := record.authorizationValidUntil.map Instant.cut
    authorizationExpiredAt := record.authorizationExpiredAt.map Instant.cut }

inductive StoredPaymentStatus where
  | pending
  | settled
  | failed
  | denied
deriving DecidableEq, Repr

/-- `StoredPaymentStatus::from`. -/
def PaymentStatus.stored : PaymentStatus → StoredPaymentStatus
  | .pending => .pending
  | .settled => .settled
  | .failed => .failed
  | .denied => .denied

/-- `PaymentStatus::from`. -/
def StoredPaymentStatus.status : StoredPaymentStatus → PaymentStatus
  | .pending => .pending
  | .settled => .settled
  | .failed => .failed
  | .denied => .denied

@[simp] theorem PaymentStatus.stored_status (status : PaymentStatus) :
    status.stored.status = status := by
  cases status <;> rfl

structure StoredPayment where
  id : String
  url : String
  asset : String
  amountAtomic : Nat
  amountDisplay : String
  recipient : String
  network : String
  txSignature : Option String
  status : StoredPaymentStatus
  timestampMs : Int
  authorizationValidUntilMs : Option Int
  solanaLastValidBlockHeight : Option Nat
  authorizationExpiredAtMs : Option Int
  authorizationExpiryObservedHeight : Option Nat
  sessionId : String
  threadId : Option String
  committedHold : Option String
deriving DecidableEq, Repr

def storedPayment (record : PaymentRecord) (committedHold : Option String) : StoredPayment where
  id := record.id
  url := record.url
  asset := record.asset
  amountAtomic := record.amountAtomic
  amountDisplay := record.amountDisplay
  recipient := record.recipient
  network := record.network
  txSignature := record.txSignature
  status := record.status.stored
  timestampMs := record.timestamp.millis
  authorizationValidUntilMs := record.authorizationValidUntil.map Instant.millis
  solanaLastValidBlockHeight := record.solanaLastValidBlockHeight
  authorizationExpiredAtMs := record.authorizationExpiredAt.map Instant.millis
  authorizationExpiryObservedHeight := record.authorizationExpiryObservedHeight
  sessionId := record.sessionId
  threadId := record.threadId
  committedHold := committedHold

def fromMs (field : String) (ms : Int) : Except String Instant :=
  match fromTimestampMillis ms with
  | some instant => .ok instant
  | none => .error (field ++ " " ++ toString ms ++ " is out of range")

def fromOptionalMs (field : String) : Option Int → Except String (Option Instant)
  | none => .ok none
  | some ms => (fromMs field ms).map some

/-- The record of a stored payment and the hold its entry committed. -/
def intoRecord (stored : StoredPayment) : Except String (PaymentRecord × Option String) := do
  let timestamp ← fromMs "timestamp_ms" stored.timestampMs
  let validUntil ← fromOptionalMs "authorization_valid_until_ms" stored.authorizationValidUntilMs
  let expiredAt ← fromOptionalMs "authorization_expired_at_ms" stored.authorizationExpiredAtMs
  .ok
    ({ id := stored.id
       url := stored.url
       asset := stored.asset
       amountAtomic := stored.amountAtomic
       amountDisplay := stored.amountDisplay
       recipient := stored.recipient
       network := stored.network
       txSignature := stored.txSignature
       status := stored.status.status
       timestamp := timestamp
       authorizationValidUntil := validUntil
       solanaLastValidBlockHeight := stored.solanaLastValidBlockHeight
       authorizationExpiredAt := expiredAt
       authorizationExpiryObservedHeight := stored.authorizationExpiryObservedHeight
       sessionId := stored.sessionId
       threadId := stored.threadId }, stored.committedHold)

theorem fromMs_millis (field : String) (instant : Instant) :
    fromMs field instant.millis = .ok instant.cut := by
  simp [fromMs, fromTimestampMillis_millis]

theorem fromOptionalMs_millis (field : String) (instant : Option Instant) :
    fromOptionalMs field (instant.map Instant.millis) = .ok (instant.map Instant.cut) := by
  cases instant with
  | none => rfl
  | some instant => simp [fromOptionalMs, fromMs_millis, Except.map]

/-- What is stored reads back, to the millisecond. -/
theorem intoRecord_storedPayment (record : PaymentRecord) (committedHold : Option String) :
    intoRecord (storedPayment record committedHold) =
      .ok (record.atMillisecondPrecision, committedHold) := by
  simp [intoRecord, storedPayment, fromMs_millis, fromOptionalMs_millis, bind, Except.bind,
    PaymentRecord.atMillisecondPrecision]

theorem cut_of_fromTimestampMillis {ms : Int} {instant : Instant}
    (h : fromTimestampMillis ms = some instant) : instant.cut = instant := by
  have hnanos : instant.nanos = ms * 1000000 := by
    simp only [fromTimestampMillis] at h
    split at h
    · rw [← Option.some.inj h]
    · cases h
  apply Instant.ext_nanos
  rw [Instant.cut_nanos, hnanos]
  omega

theorem cut_of_fromMs {field : String} {ms : Int} {instant : Instant}
    (h : fromMs field ms = .ok instant) : instant.cut = instant := by
  simp only [fromMs] at h
  cases hms : fromTimestampMillis ms with
  | none => simp [hms] at h
  | some found =>
    simp only [hms, Except.ok.injEq] at h
    subst h
    exact cut_of_fromTimestampMillis hms

theorem cut_of_fromOptionalMs {field : String} {ms : Option Int} {instant : Option Instant}
    (h : fromOptionalMs field ms = .ok instant) : instant.map Instant.cut = instant := by
  cases ms with
  | none =>
    cases h
    rfl
  | some ms =>
    simp only [fromOptionalMs] at h
    cases hms : fromMs field ms with
    | error text => simp [hms, Except.map] at h
    | ok found =>
      simp only [hms, Except.map, Except.ok.injEq] at h
      subst h
      simp [cut_of_fromMs hms]

/-- What is read back is precise to the millisecond and no more. -/
theorem intoRecord_precise {stored : StoredPayment} {loaded : PaymentRecord × Option String}
    (h : intoRecord stored = .ok loaded) : loaded.1.atMillisecondPrecision = loaded.1 := by
  simp only [intoRecord, bind, Except.bind] at h
  cases htimestamp : fromMs "timestamp_ms" stored.timestampMs with
  | error text => simp [htimestamp] at h
  | ok timestamp =>
  cases huntil : fromOptionalMs "authorization_valid_until_ms"
      stored.authorizationValidUntilMs with
  | error text => simp [htimestamp, huntil] at h
  | ok validUntil =>
  cases hexpired : fromOptionalMs "authorization_expired_at_ms" stored.authorizationExpiredAtMs with
  | error text => simp [htimestamp, huntil, hexpired] at h
  | ok expiredAt =>
  simp only [htimestamp, huntil, hexpired, Except.ok.injEq] at h
  subst h
  simp [PaymentRecord.atMillisecondPrecision, cut_of_fromMs htimestamp,
    cut_of_fromOptionalMs huntil, cut_of_fromOptionalMs hexpired]

@[simp] theorem atMillisecondPrecision_twice (record : PaymentRecord) :
    record.atMillisecondPrecision.atMillisecondPrecision = record.atMillisecondPrecision := by
  have hcut : Instant.cut ∘ Instant.cut = Instant.cut := by
    funext instant
    simp
  simp [PaymentRecord.atMillisecondPrecision, hcut]

def isUnresolved (record : PaymentRecord) : Bool :=
  record.status = .pending ||
    (record.status = .failed && record.authorizationValidUntil.isSome)

def authorizationWindowEnd (record : PaymentRecord) : Option Instant :=
  record.authorizationValidUntil.or
    (match record.solanaLastValidBlockHeight, record.authorizationExpiryObservedHeight,
        record.authorizationExpiredAt with
      | some lastValid, some observedHeight, some observedAt =>
        if lastValid < observedHeight ∧ record.timestamp.nanos ≤ observedAt.nanos then
          some observedAt
        else none
      | _, _, _ => none)

def overlapsAuthorizationWindow (record : PaymentRecord) (window : Window) : Bool :=
  record.timestamp.nanos < window.finish &&
    (authorizationWindowEnd record).all fun finish => window.start ≤ finish.nanos

/-- What counts against the day of `now`. -/
def chargedDaily (now : Instant) (record : PaymentRecord) : Bool :=
  (isUnresolved record && overlapsAuthorizationWindow record (dayWindow now)) ||
    (record.status = .settled && (dayWindow now).start ≤ record.timestamp.nanos &&
      record.timestamp.nanos < (dayWindow now).finish)

/-- What counts against the month of `now`. -/
def chargedMonthly (now : Instant) (record : PaymentRecord) : Bool :=
  (isUnresolved record && overlapsAuthorizationWindow record (monthWindow now)) ||
    (record.status = .settled && record.timestamp.month = now.month)

/-- The last record of each id. -/
def latestRecords : List PaymentRecord → List PaymentRecord
  | [] => []
  | record :: rest =>
    if rest.any fun later => later.id = record.id then latestRecords rest
    else record :: latestRecords rest

/-- The last record of one id. -/
def payment (records : List PaymentRecord) (id : String) : Option PaymentRecord :=
  records.reverse.find? fun record => record.id = id

structure SpendingBudget where
  perRequestMaxAtomic : Nat
  dailyMaxAtomic : Nat
  monthlyMaxAtomic : Nat
  fits : perRequestMaxAtomic < 2 ^ 64 ∧ dailyMaxAtomic < 2 ^ 64 ∧ monthlyMaxAtomic < 2 ^ 64
deriving DecidableEq, Repr

inductive BudgetCheck where
  | allowed
  | exceedsPerRequest (requested cap : Nat)
  | exceedsDailyBudget (current cap : Nat)
  | exceedsMonthlyBudget (current cap : Nat)
deriving DecidableEq, Repr

inductive BudgetRefusal where
  | perRequest (requested cap : Nat)
  | daily (current cap : Nat)
  | monthly (current cap : Nat)
deriving DecidableEq, Repr

def BudgetCheck.refusal : BudgetCheck → Option BudgetRefusal
  | .allowed => none
  | .exceedsPerRequest requested cap => some (.perRequest requested cap)
  | .exceedsDailyBudget current cap => some (.daily current cap)
  | .exceedsMonthlyBudget current cap => some (.monthly current cap)

def u64Max : Nat := 2 ^ 64 - 1

def saturatingAdd (a b : Nat) : Nat := min (a + b) u64Max

/-- The sum of the latest records that are charged, on top of what is held. -/
def chargedTotal (held : Nat) (charged : PaymentRecord → Bool)
    (records : List PaymentRecord) : Nat :=
  ((latestRecords records).filter charged).foldl
    (fun total record => saturatingAdd total record.amountAtomic) held

def exceeds (total amount cap : Nat) : Bool := 2 ^ 64 ≤ total + amount || cap < total + amount

/-- The check of one ledger: `held` is what its mirror of the hold document sums to. -/
def checkBudget (budget : SpendingBudget) (held : Nat) (records : List PaymentRecord)
    (now : Instant) (amount : Nat) : BudgetCheck :=
  if budget.perRequestMaxAtomic < amount then
    .exceedsPerRequest amount budget.perRequestMaxAtomic
  else
    let daily := chargedTotal held (chargedDaily now) records
    if exceeds daily amount budget.dailyMaxAtomic then
      .exceedsDailyBudget daily budget.dailyMaxAtomic
    else
      let monthly := chargedTotal held (chargedMonthly now) records
      if exceeds monthly amount budget.monthlyMaxAtomic then
        .exceedsMonthlyBudget monthly budget.monthlyMaxAtomic
      else .allowed

/-- What the latest records charge, without a bound. -/
def chargedSum (charged : PaymentRecord → Bool) (records : List PaymentRecord) : Nat :=
  (((latestRecords records).filter charged).map PaymentRecord.amountAtomic).sum

theorem foldl_saturatingAdd (records : List PaymentRecord) {held : Nat} (h : held ≤ u64Max) :
    records.foldl (fun total record => saturatingAdd total record.amountAtomic) held =
      min (held + (records.map PaymentRecord.amountAtomic).sum) u64Max := by
  induction records generalizing held with
  | nil => simp [h]
  | cons record rest ih =>
    have hstep : saturatingAdd held record.amountAtomic ≤ u64Max := by
      simp only [saturatingAdd]
      omega
    rw [List.foldl_cons, ih hstep]
    simp only [saturatingAdd, List.map_cons, List.sum_cons]
    omega

theorem chargedTotal_eq {held : Nat} (h : held ≤ u64Max) (charged : PaymentRecord → Bool)
    (records : List PaymentRecord) :
    chargedTotal held charged records = min (held + chargedSum charged records) u64Max :=
  foldl_saturatingAdd _ h

/-- A new record takes the place of the record of its id. -/
theorem latestRecords_append (records : List PaymentRecord) (record : PaymentRecord) :
    latestRecords (records ++ [record]) =
      (latestRecords records).filter (fun earlier => earlier.id ≠ record.id) ++ [record] := by
  induction records with
  | nil => simp [latestRecords]
  | cons first rest ih =>
    by_cases hlater : rest.any fun later => later.id = first.id
    · have hany : (rest ++ [record]).any (fun later => later.id = first.id) = true := by
        simp only [List.any_append, hlater, Bool.true_or]
      simp only [List.cons_append, latestRecords]
      rw [if_pos hany, if_pos hlater, ih]
    · by_cases hid : first.id = record.id
      · have hany : (rest ++ [record]).any (fun later => later.id = first.id) = true := by
          simp [hid]
        simp only [List.cons_append, latestRecords]
        rw [if_pos hany, if_neg hlater, ih]
        simp [hid]
      · have hany : ¬(rest ++ [record]).any (fun later => later.id = first.id) = true := by
          simp only [List.any_append, List.any_cons, List.any_nil, Bool.or_false, Bool.or_eq_true,
            decide_eq_true_eq, not_or]
          exact ⟨hlater, fun h => hid h.symm⟩
        simp only [List.cons_append, latestRecords]
        rw [if_neg hany, if_neg hlater, ih]
        simp [hid]

theorem mem_of_mem_latestRecords {records : List PaymentRecord} {record : PaymentRecord}
    (h : record ∈ latestRecords records) : record ∈ records := by
  induction records with
  | nil => simp [latestRecords] at h
  | cons first rest ih =>
    simp only [latestRecords] at h
    split at h
    · exact List.mem_cons_of_mem _ (ih h)
    · rcases List.mem_cons.mp h with rfl | h
      · exact List.mem_cons_self
      · exact List.mem_cons_of_mem _ (ih h)

/-- A record with a new id adds what it charges. -/
theorem chargedSum_append_fresh {charged : PaymentRecord → Bool} {records : List PaymentRecord}
    {record : PaymentRecord} (fresh : ∀ earlier ∈ records, earlier.id ≠ record.id) :
    chargedSum charged (records ++ [record]) =
      chargedSum charged records + if charged record then record.amountAtomic else 0 := by
  have hkeep : (latestRecords records).filter (fun earlier => earlier.id ≠ record.id) =
      latestRecords records := by
    refine List.filter_eq_self.mpr fun earlier hmem => ?_
    simpa using fresh earlier (mem_of_mem_latestRecords hmem)
  rw [chargedSum, latestRecords_append, hkeep, List.filter_append]
  by_cases h : charged record
  · simp [chargedSum, h]
  · simp [chargedSum, h]

theorem payment_append (records more : List PaymentRecord) (id : String) :
    payment (records ++ more) id = (payment more id).or (payment records id) := by
  simp [payment, List.find?_append]

theorem payment_push (records : List PaymentRecord) (record : PaymentRecord) (id : String) :
    payment (records ++ [record]) id =
      if record.id = id then some record else payment records id := by
  rw [payment_append]
  by_cases h : record.id = id
  · simp [payment, h]
  · simp [payment, h]

theorem payment_id {records : List PaymentRecord} {id : String} {record : PaymentRecord}
    (h : payment records id = some record) : record.id = id := by
  have hfound := List.find?_some h
  exact of_decide_eq_true hfound

theorem payment_mem {records : List PaymentRecord} {id : String} {record : PaymentRecord}
    (h : payment records id = some record) : record ∈ records :=
  List.mem_reverse.mp (List.mem_of_find?_eq_some h)

theorem mem_latestRecords_iff (records : List PaymentRecord) (record : PaymentRecord) :
    record ∈ latestRecords records ↔ payment records record.id = some record := by
  induction records using List.reverseRecOn with
  | nil => simp [latestRecords, payment]
  | append_singleton records last ih =>
    rw [latestRecords_append, payment_push]
    by_cases h : last.id = record.id
    · simp [h, eq_comm]
    · have hne : record ≠ last := by
        rintro rfl
        exact h rfl
      have hid : ¬record.id = last.id := fun heq => h heq.symm
      simp [h, ih, hne, hid]

/-- Each id has one latest record. -/
theorem latestRecords_ids_nodup (records : List PaymentRecord) :
    ((latestRecords records).map PaymentRecord.id).Nodup := by
  induction records using List.reverseRecOn with
  | nil => simp [latestRecords]
  | append_singleton records last ih =>
    rw [latestRecords_append, List.map_append, List.nodup_append]
    refine ⟨?_, by simp, ?_⟩
    · exact ih.sublist (List.filter_sublist.map _)
    · intro id hid other hother
      simp only [List.map_cons, List.map_nil, List.mem_singleton] at hother
      subst hother
      obtain ⟨record, hrecord, rfl⟩ := List.mem_map.mp hid
      simpa using (List.mem_filter.mp hrecord).2

end LedgerRecords
