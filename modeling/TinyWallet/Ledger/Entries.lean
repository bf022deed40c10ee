import TinyWallet.Ledger.Instants

/-!
# What an old entry says

An entry of the old stream decodes exactly when its members spell a payment: the
texts and the counts as they stand, the instants by the grammar, a member that a
payment may lack absent or null. What decodes is stored anew as the record of
the same payment.
-/

namespace LedgerEntries

open Rfc3339 JsonValue Json RustText LedgerRecords LedgerStore LedgerLegacy

def Text (value : Json) (s : String) : Prop := value = .string s

def Count (value : Json) (n : Nat) : Prop := value = .number (.posInt n)

/-- A text that spells an instant, which is cut to milliseconds. -/
def Moment (value : Json) (ms : Int) : Prop :=
  ∃ text t, value = .string text ∧ Spells (utf8Bytes text) t ∧ ms = t.millis

def statusNames : List (String × StoredPaymentStatus) :=
  [("pending", .pending), ("settled", .settled), ("failed", .failed), ("denied", .denied)]

/-- The name of a status, alone or as the one member of an object. -/
def Status (value : Json) (status : StoredPaymentStatus) : Prop :=
  ∃ name, (name, status) ∈ statusNames ∧
    (value = .string name ∨ value = .object [(name, .null)])

variable {α : Type} (spells : Json → α → Prop)

/-- The member of an old entry spells a value. -/
def Member (entry : Json) (name : String) (a : α) : Prop :=
  ∃ value, entry.field legacyNames name = some value ∧ spells value a

/-- A member that may be absent or null. -/
def MayMember (entry : Json) (name : String) : Option α → Prop
  | none => ∀ value, entry.field legacyNames name = some value → value = .null
  | some a => Member spells entry name a

/-- The members of an entry spell a payment. -/
structure Spelled (entry : Json) (legacy : LegacyPayment) : Prop where
  record : entry.isRecord legacyNames = true
  id : Member Text entry "id" legacy.id
  url : Member Text entry "url" legacy.url
  asset : Member Text entry "asset" legacy.asset
  amountAtomic : Member Count entry "amountAtomic" legacy.amountAtomic
  amountDisplay : Member Text entry "amountDisplay" legacy.amountDisplay
  recipient : Member Text entry "recipient" legacy.recipient
  network : Member Text entry "network" legacy.network
  txSignature : MayMember Text entry "txSignature" legacy.txSignature
  status : Member Status entry "status" legacy.status
  timestamp : Member Moment entry "timestamp" legacy.timestamp
  validUntil : MayMember Moment entry "authorizationValidUntil" legacy.authorizationValidUntil
  lastValidHeight :
    MayMember Count entry "solanaLastValidBlockHeight" legacy.solanaLastValidBlockHeight
  expiredAt : MayMember Moment entry "authorizationExpiredAt" legacy.authorizationExpiredAt
  observedHeight : MayMember Count entry "authorizationExpiryObservedHeight"
    legacy.authorizationExpiryObservedHeight
  sessionId : Member Text entry "sessionId" legacy.sessionId
  threadId : MayMember Text entry "threadId" legacy.threadId
  committedHold : MayMember Text entry "committed_hold" legacy.committedHold

theorem asStr_iff (value : Json) (s : String) : asStr value = some s ↔ Text value s := by
  cases value with
  | string text => simp [asStr, Text]
  | null | bool | number | array | object => simp [asStr, Text]

theorem asU64_iff (value : Json) (n : Nat) : asU64 value = some n ↔ Count value n := by
  cases value with
  | number number =>
    cases number with
    | posInt m => simp [asU64, Count]
    | negInt | float => simp [asU64, Count]
  | null | bool | string | array | object => simp [asU64, Count]

theorem instantMs_iff (value : Json) (ms : Int) : instantMs value = some ms ↔ Moment value ms := by
  constructor
  · intro h
    obtain ⟨text, htext, hparse⟩ := Option.bind_eq_some_iff.mp h
    obtain ⟨t, hspells, hmillis⟩ := (LedgerInstants.parseRfc3339Bytes_iff _ _).mp hparse
    exact ⟨text, t, (asStr_iff value text).mp htext, hspells, hmillis⟩
  · rintro ⟨text, t, rfl, hspells, hmillis⟩
    exact (LedgerInstants.parseRfc3339Bytes_iff (utf8Bytes text) ms).mpr ⟨t, hspells, hmillis⟩

theorem statusOf_iff (name : String) (status : StoredPaymentStatus) :
    statusOf name = some status ↔ (name, status) ∈ statusNames := by
  constructor
  · intro h
    simp only [statusOf] at h
    split at h
    all_goals first
      | cases h; decide
      | cases h
  · intro h
    simp only [statusNames, List.mem_cons, Prod.mk.injEq, List.not_mem_nil, or_false] at h
    obtain ⟨rfl, rfl⟩ | ⟨rfl, rfl⟩ | ⟨rfl, rfl⟩ | ⟨rfl, rfl⟩ := h
    all_goals rfl

theorem paymentStatus_iff (value : Json) (status : StoredPaymentStatus) :
    paymentStatus value = some status ↔ Status value status := by
  constructor
  · intro h
    simp only [paymentStatus] at h
    split at h
    · exact ⟨_, (statusOf_iff _ _).mp h, .inl rfl⟩
    · exact ⟨_, (statusOf_iff _ _).mp h, .inr rfl⟩
    · cases h
  · rintro ⟨name, hname, rfl | rfl⟩
    · exact (statusOf_iff name status).mpr hname
    · exact (statusOf_iff name status).mpr hname

variable {spells} {decode : Json → Option α}

theorem member_iff (reads : ∀ value a, decode value = some a ↔ spells value a) (entry : Json)
    (name : String) (a : α) :
    (entry.field legacyNames name).bind decode = some a ↔ Member spells entry name a := by
  simp only [Option.bind_eq_some_iff, Member, reads]

theorem mayMember_iff (reads : ∀ value a, decode value = some a ↔ spells value a)
    (notNull : decode .null = none) (entry : Json) (name : String) (found : Option α) :
    Json.optional decode (entry.field legacyNames name) = some found ↔
      MayMember spells entry name found := by
  cases hfield : entry.field legacyNames name with
  | none => cases found <;> simp [Json.optional, MayMember, Member, hfield]
  | some value =>
    by_cases hnull : value = .null
    · subst hnull
      have hnone : ∀ a, ¬spells .null a := fun a ha => by
        have hsome := (reads _ a).mpr ha
        rw [notNull] at hsome
        cases hsome
      cases found <;> simp [Json.optional, MayMember, Member, hfield, hnone]
    · have hoptional : Json.optional decode (some value) = (decode value).map some := by
        cases value with
        | null => exact absurd rfl hnull
        | bool | number | string | array | object => rfl
      rw [hoptional]
      cases found with
      | none => simp [MayMember, hfield, hnull]
      | some a => simp [MayMember, Member, hfield, ← reads]

/-- An entry decodes as the payment that its members spell, and as no other. -/
theorem legacyPayment_iff (entry : Json) (legacy : LegacyPayment) :
    legacyPayment entry = some legacy ↔ Spelled entry legacy := by
  have htext := fun name => member_iff asStr_iff entry name
  have hcount := fun name => member_iff asU64_iff entry name
  have hmoment := fun name => member_iff instantMs_iff entry name
  have hstatus := fun name => member_iff paymentStatus_iff entry name
  have hmayText := fun name => mayMember_iff asStr_iff rfl entry name
  have hmayCount := fun name => mayMember_iff asU64_iff rfl entry name
  have hmayMoment := fun name => mayMember_iff instantMs_iff rfl entry name
  constructor
  · intro h
    rw [legacyPayment] at h
    by_cases hrecord : entry.isRecord legacyNames = true
    · rw [if_pos hrecord] at h
      obtain ⟨id, hid, h⟩ := Option.bind_eq_some_iff.mp h
      obtain ⟨url, hurl, h⟩ := Option.bind_eq_some_iff.mp h
      obtain ⟨asset, hasset, h⟩ := Option.bind_eq_some_iff.mp h
      obtain ⟨amountAtomic, hamount, h⟩ := Option.bind_eq_some_iff.mp h
      obtain ⟨amountDisplay, hdisplay, h⟩ := Option.bind_eq_some_iff.mp h
      obtain ⟨recipient, hrecipient, h⟩ := Option.bind_eq_some_iff.mp h
      obtain ⟨network, hnetwork, h⟩ := Option.bind_eq_some_iff.mp h
      obtain ⟨txSignature, hsignature, h⟩ := Option.bind_eq_some_iff.mp h
      obtain ⟨status, hnamed, h⟩ := Option.bind_eq_some_iff.mp h
      obtain ⟨timestamp, htimestamp, h⟩ := Option.bind_eq_some_iff.mp h
      obtain ⟨validUntil, huntil, h⟩ := Option.bind_eq_some_iff.mp h
      obtain ⟨lastValidHeight, hheight, h⟩ := Option.bind_eq_some_iff.mp h
      obtain ⟨expiredAt, hexpired, h⟩ := Option.bind_eq_some_iff.mp h
      obtain ⟨observedHeight, hobserved, h⟩ := Option.bind_eq_some_iff.mp h
      obtain ⟨sessionId, hsession, h⟩ := Option.bind_eq_some_iff.mp h
      obtain ⟨threadId, hthread, h⟩ := Option.bind_eq_some_iff.mp h
      obtain ⟨committedHold, hhold, h⟩ := Option.bind_eq_some_iff.mp h
      obtain rfl := Option.some.inj h
      exact ⟨hrecord, (htext _ _).mp hid, (htext _ _).mp hurl, (htext _ _).mp hasset,
        (hcount _ _).mp hamount, (htext _ _).mp hdisplay, (htext _ _).mp hrecipient,
        (htext _ _).mp hnetwork, (hmayText _ _).mp hsignature, (hstatus _ _).mp hnamed,
        (hmoment _ _).mp htimestamp, (hmayMoment _ _).mp huntil, (hmayCount _ _).mp hheight,
        (hmayMoment _ _).mp hexpired, (hmayCount _ _).mp hobserved, (htext _ _).mp hsession,
        (hmayText _ _).mp hthread, (hmayText _ _).mp hhold⟩
    · rw [if_neg hrecord] at h
      cases h
  · intro h
    rw [legacyPayment, if_pos h.record]
    simp only [(htext _ _).mpr h.id, (htext _ _).mpr h.url, (htext _ _).mpr h.asset,
      (hcount _ _).mpr h.amountAtomic, (htext _ _).mpr h.amountDisplay,
      (htext _ _).mpr h.recipient, (htext _ _).mpr h.network, (hmayText _ _).mpr h.txSignature,
      (hstatus _ _).mpr h.status, (hmoment _ _).mpr h.timestamp,
      (hmayMoment _ _).mpr h.validUntil, (hmayCount _ _).mpr h.lastValidHeight,
      (hmayMoment _ _).mpr h.expiredAt, (hmayCount _ _).mpr h.observedHeight,
      (htext _ _).mpr h.sessionId, (hmayText _ _).mpr h.threadId,
      (hmayText _ _).mpr h.committedHold, Option.bind_some, Option.bind_eq_bind]

example : ((legacyPayment (.object
    [("id", .string "pay-1"), ("url", .string "https://api.example.com/data"),
      ("asset", .string "USDC"), ("amountAtomic", .number (.posInt 2500)),
      ("amountDisplay", .string "0.002500 USDC"), ("recipient", .string "Recipient"),
      ("network", .string "eip155:8453"), ("txSignature", .null), ("status", .string "settled"),
      ("timestamp", .string "2026-03-15T12:00:00Z"), ("sessionId", .string "session-a"),
      ("committed_hold", .string "owner:1")])).map fun legacy =>
        (legacy.timestamp, legacy.committedHold)) = some (1773576000000, some "owner:1") := by
  decide +kernel

/-- Instants of four-digit years. -/
def InRange (ms : Int) : Prop := -62170000000000 < ms ∧ ms < 253500000000000

theorem Moment.inRange {value : Json} {ms : Int} (h : Moment value ms) : InRange ms := by
  obtain ⟨text, t, -, -, rfl⟩ := h
  exact t.millis_bounds

theorem Member.inRange {entry : Json} {name : String} {ms : Int}
    (h : Member Moment entry name ms) : InRange ms := by
  obtain ⟨value, -, hmoment⟩ := h
  exact hmoment.inRange

theorem MayMember.inRange {entry : Json} {name : String} {found : Option Int}
    (h : MayMember Moment entry name found) : ∀ ms ∈ found, InRange ms := by
  rintro ms rfl
  exact Member.inRange h

theorem Spelled.fits {entry : Json} {legacy : LegacyPayment} (h : Spelled entry legacy) :
    FitsI64 legacy.stored := by
  refine ⟨?_, fun ms hms => ?_, fun ms hms => ?_⟩
  · have hlt := h.timestamp.inRange.2
    simp only [LegacyPayment.stored]
    omega
  · have hlt := (h.validUntil.inRange ms hms).2
    omega
  · have hlt := (h.expiredAt.inRange ms hms).2
    omega

/-- The record says what the decoded entry says. -/
structure Preserved (legacy : LegacyPayment) (loaded : LoadedPayment) : Prop where
  id : loaded.1.id = legacy.id
  url : loaded.1.url = legacy.url
  asset : loaded.1.asset = legacy.asset
  amountAtomic : loaded.1.amountAtomic = legacy.amountAtomic
  amountDisplay : loaded.1.amountDisplay = legacy.amountDisplay
  recipient : loaded.1.recipient = legacy.recipient
  network : loaded.1.network = legacy.network
  txSignature : loaded.1.txSignature = legacy.txSignature
  status : loaded.1.status = legacy.status.status
  timestamp : loaded.1.timestamp.nanos = legacy.timestamp * 1000000
  validUntil : loaded.1.authorizationValidUntil.map Instant.nanos =
    legacy.authorizationValidUntil.map (· * 1000000)
  lastValidHeight : loaded.1.solanaLastValidBlockHeight = legacy.solanaLastValidBlockHeight
  expiredAt : loaded.1.authorizationExpiredAt.map Instant.nanos =
    legacy.authorizationExpiredAt.map (· * 1000000)
  observedHeight :
    loaded.1.authorizationExpiryObservedHeight = legacy.authorizationExpiryObservedHeight
  sessionId : loaded.1.sessionId = legacy.sessionId
  threadId : loaded.1.threadId = legacy.threadId
  committedHold : loaded.2 = legacy.committedHold

theorem nanos_injective : Function.Injective Instant.nanos := fun _ _ h => Instant.ext_nanos h

/-- The entry leaves nothing about the record open. -/
theorem Preserved.unique {legacy : LegacyPayment} {a b : LoadedPayment} (ha : Preserved legacy a)
    (hb : Preserved legacy b) : a = b := by
  obtain ⟨record, key⟩ := a
  obtain ⟨record', key'⟩ := b
  have htimestamp : record.timestamp = record'.timestamp :=
    nanos_injective (ha.timestamp.trans hb.timestamp.symm)
  have huntil : record.authorizationValidUntil = record'.authorizationValidUntil :=
    Option.map_injective nanos_injective (ha.validUntil.trans hb.validUntil.symm)
  have hexpired : record.authorizationExpiredAt = record'.authorizationExpiredAt :=
    Option.map_injective nanos_injective (ha.expiredAt.trans hb.expiredAt.symm)
  have hkey : key = key' := ha.committedHold.trans hb.committedHold.symm
  have hrecord : record = record' := by
    cases record
    cases record'
    simp only [PaymentRecord.mk.injEq]
    exact ⟨ha.id.trans hb.id.symm, ha.url.trans hb.url.symm, ha.asset.trans hb.asset.symm,
      ha.amountAtomic.trans hb.amountAtomic.symm, ha.amountDisplay.trans hb.amountDisplay.symm,
      ha.recipient.trans hb.recipient.symm, ha.network.trans hb.network.symm,
      ha.txSignature.trans hb.txSignature.symm, ha.status.trans hb.status.symm, htimestamp,
      huntil, ha.lastValidHeight.trans hb.lastValidHeight.symm, hexpired,
      ha.observedHeight.trans hb.observedHeight.symm, ha.sessionId.trans hb.sessionId.symm,
      ha.threadId.trans hb.threadId.symm⟩
  rw [hrecord, hkey]

theorem fromMs_inRange (field : String) {ms : Int} (h : InRange ms) :
    ∃ instant, fromMs field ms = .ok instant ∧ instant.nanos = ms * 1000000 := by
  have hin : minNanos ≤ ms * 1000000 ∧ ms * 1000000 ≤ maxNanos := by
    obtain ⟨hlow, hhigh⟩ := h
    simp only [minNanos, maxNanos]
    omega
  exact ⟨⟨ms * 1000000, hin.1, hin.2⟩, by simp [fromMs, fromTimestampMillis, hin], rfl⟩

theorem fromOptionalMs_inRange (field : String) {ms : Option Int} (h : ∀ n ∈ ms, InRange n) :
    ∃ instant, fromOptionalMs field ms = .ok instant ∧
      instant.map Instant.nanos = ms.map (· * 1000000) := by
  cases ms with
  | none => exact ⟨none, rfl, rfl⟩
  | some ms =>
    obtain ⟨instant, hfrom, hnanos⟩ := fromMs_inRange field (h ms rfl)
    refine ⟨some instant, ?_, ?_⟩
    · simp [fromOptionalMs, hfrom, Except.map]
    · simp [hnanos]

/-- No instant of a decoded entry is out of the range that records have. -/
theorem Spelled.intoRecord {entry : Json} {legacy : LegacyPayment} (h : Spelled entry legacy) :
    ∃ loaded, intoRecord legacy.stored = .ok loaded ∧ Preserved legacy loaded := by
  obtain ⟨timestamp, htimestamp, hissued⟩ := fromMs_inRange "timestamp_ms" h.timestamp.inRange
  obtain ⟨validUntil, huntil, hends⟩ := fromOptionalMs_inRange "authorization_valid_until_ms"
    h.validUntil.inRange
  obtain ⟨expiredAt, hexpired, hexpires⟩ := fromOptionalMs_inRange "authorization_expired_at_ms"
    h.expiredAt.inRange
  simp only [LedgerRecords.intoRecord, LegacyPayment.stored, htimestamp, huntil, hexpired, bind,
    Except.bind, Except.ok.injEq, exists_eq_left']
  exact ⟨rfl, rfl, rfl, rfl, rfl, rfl, rfl, rfl, rfl, hissued, hends, rfl, hexpires, rfl, rfl, rfl,
    rfl⟩

/-- A decoded entry, stored anew, is read as its record. -/
theorem parsed_migrated {entry : Json} {legacy : LegacyPayment}
    (h : legacyPayment entry = some legacy) :
    ∃ loaded, parsed (storedOf (storedValue legacy.stored)) = some loaded ∧
      Preserved legacy loaded := by
  have hspelled := (legacyPayment_iff entry legacy).mp h
  obtain ⟨loaded, hinto, hpreserved⟩ := hspelled.intoRecord
  refine ⟨loaded, ?_, hpreserved⟩
  rw [storedOf_storedValue hspelled.fits, parsed, Option.bind_some, hinto]
  rfl

end LedgerEntries
