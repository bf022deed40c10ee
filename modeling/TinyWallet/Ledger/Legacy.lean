import TinyWallet.Library.Json
import TinyWallet.Library.Rfc3339
import TinyWallet.Library.RustText
import TinyWallet.Ledger.Store

/-!
# Payments as the first storage version kept them

An entry of the old stream is a record with camelCase names and RFC 3339
instants. It is decoded here, its instants by the hand-written parser, and
turned into the stored form, which has a JSON form of its own.
-/

namespace LedgerLegacy

open Rfc3339 Calendar JsonValue Json RustText LedgerRecords LedgerStore

/-- The number that `len` digits at a position spell. -/
def digitsAt (bytes : List UInt8) (start len : Nat) : Option Nat :=
  if start + len ≤ bytes.length then
    let part := (bytes.drop start).take len
    if part.all isDigit then some (number part) else none
  else none

def separatorAt (bytes : List UInt8) (pos : Nat) (want : List UInt8) : Bool :=
  bytes[pos]?.any want.contains

def daysInMonth (year month : Nat) : Option Nat :=
  match month with
  | 2 => if year % 4 = 0 ∧ (year % 100 ≠ 0 ∨ year % 400 = 0) then some 29 else some 28
  | 4 | 6 | 9 | 11 => some 30
  | 1 | 3 | 5 | 7 | 8 | 10 | 12 => some 31
  | _ => none

/-- Where the fraction ends, and its milliseconds. -/
def fractionAt (bytes : List UInt8) (start : Nat) : Option (Nat × Nat) :=
  if bytes[start]? = some 46 then
    let digits := (bytes.drop (start + 1)).takeWhile isDigit
    if digits.isEmpty then none
    else some (start + 1 + digits.length,
      (((digits.take 3).zip [100, 10, 1]).map fun place => digitValue place.1 * place.2).sum)
  else some (start, 0)

def offsetMinutesAt (bytes : List UInt8) (pos : Nat) : Option Int :=
  match bytes[pos]? with
  | none => none
  | some sign =>
    if (sign = 90 ∨ sign = 122) ∧ pos + 1 = bytes.length then some 0
    else if (sign = 43 ∨ sign = 45) ∧ pos + 6 = bytes.length ∧ separatorAt bytes (pos + 3) [58]
    then do
      let hours ← digitsAt bytes (pos + 1) 2
      let minutePart ← digitsAt bytes (pos + 4) 2
      if 23 < hours ∨ 59 < minutePart then none
      else
        let minutes : Int := hours * 60 + minutePart
        some (if sign = 45 then -minutes else minutes : Int)
    else none

/-- Days from civil, proleptic Gregorian. -/
def daysFromCivil (year month day : Nat) : Int :=
  let y : Int := if month ≤ 2 then year - 1 else year
  let era := y / 400
  let yearOfEra := y - era * 400
  let dayOfYear : Int := (153 * ((month + 9) % 12) + 2) / 5 + day - 1
  let dayOfEra := yearOfEra * 365 + yearOfEra / 4 - yearOfEra / 100 + dayOfYear
  era * 146097 + dayOfEra - 719468

def parseRfc3339Bytes (bytes : List UInt8) : Option Int :=
  if separatorAt bytes 4 [45] && separatorAt bytes 7 [45] &&
      separatorAt bytes 10 [84, 116, 32] && separatorAt bytes 13 [58] &&
      separatorAt bytes 16 [58] then do
    let year ← digitsAt bytes 0 4
    let month ← digitsAt bytes 5 2
    let day ← digitsAt bytes 8 2
    let hour ← digitsAt bytes 11 2
    let minute ← digitsAt bytes 14 2
    let second ← digitsAt bytes 17 2
    let days ← daysInMonth year month
    if ¬(1 ≤ day ∧ day ≤ days) ∨ 23 < hour ∨ 59 < minute ∨ 60 < second then none
    else do
      let (pos, millis) ← fractionAt bytes 19
      let offsetMinutes ← offsetMinutesAt bytes pos
      let seconds := daysFromCivil year month day * 86400 + hour * 3600 + minute * 60 + second -
        offsetMinutes * 60
      some (seconds * 1000 + millis)
  else none

def parseRfc3339Ms (text : String) : Option Int := parseRfc3339Bytes (utf8Bytes text)

theorem daysInMonth_eq {year month days : Nat} (h : daysInMonth year month = some days) :
    (1 ≤ month ∧ month ≤ 12) ∧ days = monthLength year month := by
  have hleap : (((year : Int) % 4 = 0) ↔ year % 4 = 0) ∧ (((year : Int) % 100 = 0) ↔
      year % 100 = 0) ∧ (((year : Int) % 400 = 0) ↔ year % 400 = 0) := by omega
  simp only [daysInMonth] at h
  split at h
  · simp only [monthLength, if_true, ne_eq, hleap]
    split_ifs at h ⊢ with hyear
    · exact ⟨by decide, (Option.some.inj h).symm⟩
    · exact ⟨by decide, (Option.some.inj h).symm⟩
  all_goals first
    | exact ⟨by decide, (Option.some.inj h).symm⟩
    | cases h

theorem daysFromCivil_eq {year month : Nat} (hmonth : 1 ≤ month ∧ month ≤ 12) (day : Nat) :
    daysFromCivil year month day = monthStart (12 * year + month - 1) + (day - 1) := by
  have hyear : (12 * (year : Int) + month - 1 - 2) / 12 =
      if month ≤ 2 then (year : Int) - 1 else year := by
    split_ifs with hearly
    · omega
    · omega
  have hofYear : (12 * (year : Int) + month - 1 - 2) % 12 = ((month : Int) + 9) % 12 := by omega
  simp only [daysFromCivil, monthStart, leapDays, hyear, hofYear]
  generalize (if month ≤ 2 then (year : Int) - 1 else year) = y
  have hcentury : y / 100 = y / 4 / 25 := by omega
  omega

theorem digitsAt_eq {bytes : List UInt8} {start len n : Nat}
    (h : digitsAt bytes start len = some n) :
    bytes.drop start = decimal len n ++ bytes.drop (start + len) ∧ n < 10 ^ len := by
  simp only [digitsAt] at h
  split_ifs at h with hlength hdigits
  have hnumber := Option.some.inj h
  have hpart : ((bytes.drop start).take len).length = len := by
    rw [List.length_take, List.length_drop]
    omega
  have hall : ∀ b ∈ (bytes.drop start).take len, isDigit b = true := List.all_eq_true.mp hdigits
  have hdecimal := decimal_number _ hall
  have hlt := number_lt _ hall
  rw [hpart, hnumber] at hdecimal hlt
  refine ⟨?_, hlt⟩
  rw [hdecimal, ← List.drop_drop, List.take_append_drop]

theorem separatorAt_eq {bytes : List UInt8} {pos : Nat} {want : List UInt8}
    (h : separatorAt bytes pos want = true) :
    ∃ b ∈ want, bytes.drop pos = b :: bytes.drop (pos + 1) := by
  obtain ⟨b, hb, hwant⟩ := Option.any_eq_true _ _ |>.mp h
  obtain ⟨hlt, rfl⟩ := List.getElem?_eq_some_iff.mp hb
  exact ⟨_, by simpa using hwant, List.drop_eq_getElem_cons hlt⟩

theorem separatorAt_single {bytes : List UInt8} {pos : Nat} {b : UInt8}
    (h : separatorAt bytes pos [b] = true) : bytes.drop pos = b :: bytes.drop (pos + 1) := by
  obtain ⟨c, hc, hdrop⟩ := separatorAt_eq h
  rw [hdrop, List.mem_singleton.mp hc]

theorem sum_places (digits : List UInt8) :
    (((digits.take 3).zip [100, 10, 1]).map fun place => digitValue place.1 * place.2).sum =
      thousandths (digits.map digitValue) := by
  match digits with
  | [] => rfl
  | [a] => simp [thousandths]
  | [a, b] => simp [thousandths]
  | a :: b :: c :: rest =>
    simp [thousandths]
    omega

theorem fractionAt_eq {bytes : List UInt8} {start pos millis : Nat}
    (h : fractionAt bytes start = some (pos, millis)) :
    ∃ ds : List Nat, (∀ d ∈ ds, d < 10) ∧ millis = thousandths ds ∧
      bytes.drop start = fractionText ds ++ bytes.drop pos := by
  simp only [fractionAt] at h
  split_ifs at h with hpoint hempty
  · obtain ⟨hlt, hbyte⟩ := List.getElem?_eq_some_iff.mp hpoint
    obtain ⟨rfl, rfl⟩ := Prod.mk.inj (Option.some.inj h)
    generalize hrest : bytes.drop (start + 1) = rest at *
    have hdigit : ∀ b ∈ rest.takeWhile isDigit, isDigit b = true := fun b hb =>
      List.mem_takeWhile_imp hb
    have hback : (rest.takeWhile isDigit).map (digit ∘ digitValue) = rest.takeWhile isDigit := by
      have hid := List.map_congr_left fun b hb => digit_digitValue (hdigit b hb)
      simpa [Function.comp_def] using hid
    have htext : fractionText ((rest.takeWhile isDigit).map digitValue) =
        46 :: rest.takeWhile isDigit := by
      cases hcases : rest.takeWhile isDigit with
      | nil => simp [hcases] at hempty
      | cons b more =>
        rw [hcases] at hback
        simpa [fractionText] using hback
    have hafter : bytes.drop (start + 1 + (rest.takeWhile isDigit).length) =
        rest.dropWhile isDigit := by
      have hsplit := @List.takeWhile_append_dropWhile _ isDigit rest
      rw [← List.drop_drop, hrest]
      clear hback htext hdigit hempty h
      generalize rest.takeWhile isDigit = front at hsplit
      generalize rest.dropWhile isDigit = back at hsplit
      rw [← hsplit, List.drop_left]
    refine ⟨(rest.takeWhile isDigit).map digitValue, ?_, sum_places _, ?_⟩
    · intro d hd
      obtain ⟨b, hb, rfl⟩ := List.mem_map.mp hd
      exact digitValue_lt (hdigit b hb)
    · rw [List.drop_eq_getElem_cons hlt, hbyte, hrest, htext, hafter, List.cons_append,
        List.takeWhile_append_dropWhile]
  · obtain ⟨rfl, rfl⟩ := Prod.mk.inj (Option.some.inj h)
    exact ⟨[], by simp, rfl, rfl⟩

theorem offsetMinutesAt_eq {bytes : List UInt8} {pos : Nat} {offset : Int}
    (h : offsetMinutesAt bytes pos = some offset) :
    SpellsOffset (bytes.drop pos) offset ∧ -1440 < offset ∧ offset < 1440 := by
  simp only [offsetMinutesAt] at h
  cases hsign : bytes[pos]? with
  | none => simp [hsign] at h
  | some sign =>
    simp only [hsign] at h
    obtain ⟨hlt, hbyte⟩ := List.getElem?_eq_some_iff.mp hsign
    have hdrop := List.drop_eq_getElem_cons hlt
    rw [hbyte] at hdrop
    by_cases hutc : (sign = 90 ∨ sign = 122) ∧ pos + 1 = bytes.length
    · rw [if_pos hutc] at h
      obtain rfl := Option.some.inj h
      obtain ⟨hletter, hend⟩ := hutc
      rw [hdrop, List.drop_eq_nil_of_le (by omega)]
      exact ⟨.utc sign hletter, by decide, by decide⟩
    rw [if_neg hutc] at h
    by_cases hzone : (sign = 43 ∨ sign = 45) ∧ pos + 6 = bytes.length ∧
        separatorAt bytes (pos + 3) [58] = true
    · rw [if_pos hzone] at h
      obtain ⟨hside, hend, hcolon⟩ := hzone
      obtain ⟨hours, hhours, h⟩ := Option.bind_eq_some_iff.mp h
      obtain ⟨minutePart, hminutes, h⟩ := Option.bind_eq_some_iff.mp h
      have hfits : hours < 24 ∧ minutePart < 60 := by
        by_contra hrange
        rw [if_pos (by omega)] at h
        cases h
      rw [if_neg (by omega)] at h
      have hoffset := Option.some.inj h
      have htext : bytes.drop pos = sign :: decimal 2 hours ++ 58 :: decimal 2 minutePart := by
        rw [hdrop, (digitsAt_eq hhours).1, separatorAt_single hcolon, (digitsAt_eq hminutes).1,
          List.drop_eq_nil_of_le (by omega), List.append_nil]
        rfl
      rw [htext, ← hoffset]
      by_cases hwest : sign = 45
      · rw [if_pos hwest, hwest]
        exact ⟨.west hours minutePart hfits, by omega, by omega⟩
      · rw [if_neg hwest, hside.resolve_right hwest]
        exact ⟨.east hours minutePart hfits, by omega, by omega⟩
    · rw [if_neg hzone] at h
      cases h

/-- What is read is the instant that the text spells, cut to milliseconds. -/
theorem parseRfc3339Bytes_spells {bytes : List UInt8} {ms : Int}
    (h : parseRfc3339Bytes bytes = some ms) : ∃ t, Spells bytes t ∧ ms = t.millis := by
  simp only [parseRfc3339Bytes] at h
  split_ifs at h with hseparators
  simp only [Bool.and_eq_true] at hseparators
  obtain ⟨⟨⟨⟨hfour, hseven⟩, hten⟩, hthirteen⟩, hsixteen⟩ := hseparators
  obtain ⟨year, hyear, h⟩ := Option.bind_eq_some_iff.mp h
  obtain ⟨month, hmonth, h⟩ := Option.bind_eq_some_iff.mp h
  obtain ⟨day, hday, h⟩ := Option.bind_eq_some_iff.mp h
  obtain ⟨hour, hhour, h⟩ := Option.bind_eq_some_iff.mp h
  obtain ⟨minute, hminute, h⟩ := Option.bind_eq_some_iff.mp h
  obtain ⟨second, hsecond, h⟩ := Option.bind_eq_some_iff.mp h
  obtain ⟨days, hdays, h⟩ := Option.bind_eq_some_iff.mp h
  split_ifs at h with hrange
  obtain ⟨⟨pos, millis⟩, hfraction, h⟩ := Option.bind_eq_some_iff.mp h
  obtain ⟨offset, hoffset, h⟩ := Option.bind_eq_some_iff.mp h
  obtain ⟨hmonths, rfl⟩ := daysInMonth_eq hdays
  obtain ⟨ds, hds, rfl, hpoint⟩ := fractionAt_eq hfraction
  obtain ⟨hzone, hfits⟩ := offsetMinutesAt_eq hoffset
  obtain ⟨separator, hknown, hseparator⟩ := separatorAt_eq hten
  have hlt := (digitsAt_eq hyear).2
  let t : DateTime :=
    { year := year, month := month, day := day, hour := hour, minute := minute, second := second
      fraction := ds, offset := offset, year_lt := hlt, month_mem := hmonths
      day_mem := by omega, hour_lt := by omega, minute_lt := by omega, second_le := by omega
      fraction_digits := hds, offset_lt := hfits }
  refine ⟨t, ?_, ?_⟩
  · have hspells := Spells.mk t separator (bytes.drop pos) (by simpa using hknown) hzone
    have htext : bytes = decimal 4 t.year ++ 45 :: decimal 2 t.month ++ 45 :: decimal 2 t.day ++
        separator :: decimal 2 t.hour ++ 58 :: decimal 2 t.minute ++ 58 :: decimal 2 t.second ++
        fractionText t.fraction ++ bytes.drop pos := by
      calc bytes = decimal 4 year ++ bytes.drop 4 := (digitsAt_eq hyear).1
        _ = _ := by
          rw [separatorAt_single hfour, (digitsAt_eq hmonth).1, separatorAt_single hseven,
            (digitsAt_eq hday).1, hseparator, (digitsAt_eq hhour).1, separatorAt_single hthirteen,
            (digitsAt_eq hminute).1, separatorAt_single hsixteen, (digitsAt_eq hsecond).1, hpoint]
          simp only [List.append_assoc, List.cons_append, t]
    rw [htext]
    exact hspells
  · rw [← Option.some.inj h, t.millis_eq, DateTime.seconds, DateTime.civilDay,
      daysFromCivil_eq hmonths]

example : parseRfc3339Ms "2026-03-15T14:05:00.2509+02:00" = some 1773576300250 ∧
    parseRfc3339Ms "2025-02-29T00:00:00Z" = none := by decide +kernel

def statusOf : String → Option StoredPaymentStatus
  | "pending" => some .pending
  | "settled" => some .settled
  | "failed" => some .failed
  | "denied" => some .denied
  | _ => none

def statusText : StoredPaymentStatus → String
  | .pending => "pending"
  | .settled => "settled"
  | .failed => "failed"
  | .denied => "denied"

/-- A status is a text, or an object with that one name and null. -/
def paymentStatus : Json → Option StoredPaymentStatus
  | .string name => statusOf name
  | .object [(name, .null)] => statusOf name
  | _ => none

structure LegacyPayment where
  id : String
  url : String
  asset : String
  amountAtomic : Nat
  amountDisplay : String
  recipient : String
  network : String
  txSignature : Option String
  status : StoredPaymentStatus
  timestamp : Int
  authorizationValidUntil : Option Int
  solanaLastValidBlockHeight : Option Nat
  authorizationExpiredAt : Option Int
  authorizationExpiryObservedHeight : Option Nat
  sessionId : String
  threadId : Option String
  committedHold : Option String
deriving DecidableEq, Repr

def legacyNames : List String :=
  ["id", "url", "asset", "amountAtomic", "amountDisplay", "recipient", "network", "txSignature",
    "status", "timestamp", "authorizationValidUntil", "solanaLastValidBlockHeight",
    "authorizationExpiredAt", "authorizationExpiryObservedHeight", "sessionId", "threadId",
    "committed_hold"]

def instantMs (value : Json) : Option Int := value.asStr.bind parseRfc3339Ms

/-- `from_value::<LegacyPayment>`. -/
def legacyPayment (entry : Json) : Option LegacyPayment :=
  if entry.isRecord legacyNames then do
    let field := fun name => entry.field legacyNames name
    let id ← (field "id").bind asStr
    let url ← (field "url").bind asStr
    let asset ← (field "asset").bind asStr
    let amountAtomic ← (field "amountAtomic").bind asU64
    let amountDisplay ← (field "amountDisplay").bind asStr
    let recipient ← (field "recipient").bind asStr
    let network ← (field "network").bind asStr
    let txSignature ← optional asStr (field "txSignature")
    let status ← (field "status").bind paymentStatus
    let timestamp ← (field "timestamp").bind instantMs
    let validUntil ← optional instantMs (field "authorizationValidUntil")
    let lastValidHeight ← optional asU64 (field "solanaLastValidBlockHeight")
    let expiredAt ← optional instantMs (field "authorizationExpiredAt")
    let observedHeight ← optional asU64 (field "authorizationExpiryObservedHeight")
    let sessionId ← (field "sessionId").bind asStr
    let threadId ← optional asStr (field "threadId")
    let committedHold ← optional asStr (field "committed_hold")
    some
      { id := id
        url := url
        asset := asset
        amountAtomic := amountAtomic
        amountDisplay := amountDisplay
        recipient := recipient
        network := network
        txSignature := txSignature
        status := status
        timestamp := timestamp
        authorizationValidUntil := validUntil
        solanaLastValidBlockHeight := lastValidHeight
        authorizationExpiredAt := expiredAt
        authorizationExpiryObservedHeight := observedHeight
        sessionId := sessionId
        threadId := threadId
        committedHold := committedHold }
  else none

/-- `StoredPayment::from`. -/
def LegacyPayment.stored (legacy : LegacyPayment) : StoredPayment where
  id := legacy.id
  url := legacy.url
  asset := legacy.asset
  amountAtomic := legacy.amountAtomic
  amountDisplay := legacy.amountDisplay
  recipient := legacy.recipient
  network := legacy.network
  txSignature := legacy.txSignature
  status := legacy.status
  timestampMs := legacy.timestamp
  authorizationValidUntilMs := legacy.authorizationValidUntil
  solanaLastValidBlockHeight := legacy.solanaLastValidBlockHeight
  authorizationExpiredAtMs := legacy.authorizationExpiredAt
  authorizationExpiryObservedHeight := legacy.authorizationExpiryObservedHeight
  sessionId := legacy.sessionId
  threadId := legacy.threadId
  committedHold := legacy.committedHold

/-- The members of `to_value`, in order. -/
def storedFields (stored : StoredPayment) : List (String × Option Json) :=
  [("id", some (.string stored.id)),
    ("url", some (.string stored.url)),
    ("asset", some (.string stored.asset)),
    ("amount_atomic", some (.number (.posInt stored.amountAtomic))),
    ("amount_display", some (.string stored.amountDisplay)),
    ("recipient", some (.string stored.recipient)),
    ("network", some (.string stored.network)),
    ("tx_signature", stored.txSignature.map .string),
    ("status", some (.string (statusText stored.status))),
    ("timestamp_ms", some (ofI64 stored.timestampMs)),
    ("authorization_valid_until_ms", stored.authorizationValidUntilMs.map ofI64),
    ("solana_last_valid_block_height",
      stored.solanaLastValidBlockHeight.map fun height => .number (.posInt height)),
    ("authorization_expired_at_ms", stored.authorizationExpiredAtMs.map ofI64),
    ("authorization_expiry_observed_height",
      stored.authorizationExpiryObservedHeight.map fun height => .number (.posInt height)),
    ("session_id", some (.string stored.sessionId)),
    ("thread_id", stored.threadId.map .string),
    ("committed_hold", stored.committedHold.map .string)]

/-- `to_value` of a stored payment. -/
def storedValue (stored : StoredPayment) : Json := written (storedFields stored)

def storedNames : List String :=
  ["id", "url", "asset", "amount_atomic", "amount_display", "recipient", "network",
    "tx_signature", "status", "timestamp_ms", "authorization_valid_until_ms",
    "solana_last_valid_block_height", "authorization_expired_at_ms",
    "authorization_expiry_observed_height", "session_id", "thread_id", "committed_hold"]

/-- `from_value::<StoredPayment>`. -/
def storedOf (value : Json) : Option StoredPayment :=
  if value.isRecord storedNames then do
    let field := fun name => value.field storedNames name
    let id ← (field "id").bind asStr
    let url ← (field "url").bind asStr
    let asset ← (field "asset").bind asStr
    let amountAtomic ← (field "amount_atomic").bind asU64
    let amountDisplay ← (field "amount_display").bind asStr
    let recipient ← (field "recipient").bind asStr
    let network ← (field "network").bind asStr
    let txSignature ← optional asStr (field "tx_signature")
    let status ← (field "status").bind paymentStatus
    let timestampMs ← (field "timestamp_ms").bind asI64
    let validUntilMs ← optional asI64 (field "authorization_valid_until_ms")
    let lastValidHeight ← optional asU64 (field "solana_last_valid_block_height")
    let expiredAtMs ← optional asI64 (field "authorization_expired_at_ms")
    let observedHeight ← optional asU64 (field "authorization_expiry_observed_height")
    let sessionId ← (field "session_id").bind asStr
    let threadId ← optional asStr (field "thread_id")
    let committedHold ← optional asStr (field "committed_hold")
    some
      { id := id
        url := url
        asset := asset
        amountAtomic := amountAtomic
        amountDisplay := amountDisplay
        recipient := recipient
        network := network
        txSignature := txSignature
        status := status
        timestampMs := timestampMs
        authorizationValidUntilMs := validUntilMs
        solanaLastValidBlockHeight := lastValidHeight
        authorizationExpiredAtMs := expiredAtMs
        authorizationExpiryObservedHeight := observedHeight
        sessionId := sessionId
        threadId := threadId
        committedHold := committedHold }
  else none

theorem storedNames_nodup (stored : StoredPayment) :
    ((storedFields stored).map Prod.fst).Nodup := by
  have hnames : (storedFields stored).map Prod.fst = storedNames := rfl
  rw [hnames]
  decide

theorem statusOf_statusText (status : StoredPaymentStatus) :
    statusOf (statusText status) = some status := by
  cases status <;> rfl

theorem optional_map {α : Type} {decode : Json → Option α} {encode : α → Json} {value : Option α}
    (hnull : decode .null = none) (h : ∀ a ∈ value, decode (encode a) = some a) :
    optional decode (value.map encode) = some value := by
  cases value with
  | none => rfl
  | some a =>
    have ha := h a rfl
    have hoptional : optional decode (some (encode a)) = (decode (encode a)).map some := by
      cases hcode : encode a with
      | null =>
        rw [hcode, hnull] at ha
        cases ha
      | bool | number | string | array | object => rfl
    rw [Option.map_some, hoptional, ha]
    rfl

theorem field_storedValue (stored : StoredPayment) {name : String} {value : Option Json}
    (h : (storedFields stored).find? (fun f => f.1 = name) = some (name, value)) :
    (storedValue stored).field storedNames name = value := by
  have hget := get_written (storedNames_nodup stored) (List.mem_of_find?_eq_some h)
  exact hget

/-- Milliseconds that sixty-four bits hold. -/
def FitsI64 (stored : StoredPayment) : Prop :=
  stored.timestampMs < 2 ^ 63 ∧ (∀ ms ∈ stored.authorizationValidUntilMs, ms < 2 ^ 63) ∧
    ∀ ms ∈ stored.authorizationExpiredAtMs, ms < 2 ^ 63

/-- What is stored decodes to itself. -/
theorem storedOf_storedValue {stored : StoredPayment} (h : FitsI64 stored) :
    storedOf (storedValue stored) = some stored := by
  obtain ⟨htimestamp, huntil, hexpired⟩ := h
  have hfield := @field_storedValue stored
  have hrecord : (storedValue stored).isRecord storedNames = true := rfl
  have hstring : ∀ value : Option String, optional asStr (value.map .string) = some value :=
    fun value => optional_map rfl fun _ _ => rfl
  have hheight : ∀ value : Option Nat,
      optional asU64 (value.map fun height => .number (.posInt height)) = some value :=
    fun value => optional_map rfl fun _ _ => rfl
  have hvalidUntil := optional_map rfl fun ms hms => asI64_ofI64 (huntil ms hms)
  have hexpiredAt := optional_map rfl fun ms hms => asI64_ofI64 (hexpired ms hms)
  rw [storedOf, if_pos hrecord]
  simp only [@hfield "id" _ rfl, @hfield "url" _ rfl, @hfield "asset" _ rfl,
    @hfield "amount_atomic" _ rfl, @hfield "amount_display" _ rfl, @hfield "recipient" _ rfl,
    @hfield "network" _ rfl, @hfield "tx_signature" _ rfl, @hfield "status" _ rfl,
    @hfield "timestamp_ms" _ rfl, @hfield "authorization_valid_until_ms" _ rfl,
    @hfield "solana_last_valid_block_height" _ rfl, @hfield "authorization_expired_at_ms" _ rfl,
    @hfield "authorization_expiry_observed_height" _ rfl, @hfield "session_id" _ rfl,
    @hfield "thread_id" _ rfl, @hfield "committed_hold" _ rfl, hstring, hheight, hvalidUntil,
    hexpiredAt, Option.bind_some, asStr, asU64, paymentStatus, statusOf_statusText,
    asI64_ofI64 htimestamp, Option.bind_eq_bind]

end LedgerLegacy
