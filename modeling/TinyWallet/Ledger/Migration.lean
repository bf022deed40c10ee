import TinyWallet.Ledger.Budget
import TinyWallet.Ledger.Entries

/-!
# From the first storage version to the second

The transforms of the payments stream and of the hold documents, the handler
that offers them to the host a chunk at a time, and what a ledger reads from the
storage they leave.
-/

namespace LedgerMigration

open Programs Sharing Tables JsonValue Json RustText LedgerRecords LedgerStore LedgerStorage
  LedgerReading LedgerLegacy LedgerEntries

def legacyPaymentsStream : String := "x402.payments"

def paymentsStream : String := "wallet.payments"

def legacyBudgetCollection : String := "x402_budget"

def budgetsCollection : String := "wallet.budgets"

/-- Unreadable entries are skipped. -/
def migratePaymentsStream (source : String) (entries : List Json) :
    Except String (Option (String × List Json)) :=
  if source ≠ legacyPaymentsStream then .ok none
  else .ok (some (paymentsStream, entries.filterMap fun entry =>
    (legacyPayment entry).map fun legacy => storedValue legacy.stored))

structure SourceRecord where
  id : String
  body : Json
  createdMs : Int
  expiresMs : Option Int

structure TargetRecord where
  collection : String
  id : String
  body : Json
  createdMs : Int
  expiresMs : Option Int

def renamedHold (hold : Json) : Option Json := do
  let amount ← (hold.get "amount").bind asU64
  let expiresMs ← (hold.get "expires_at_ms").bind asI64
  some (.object [("amount", .number (.posInt amount)), ("expires_ms", ofI64 expiresMs)])

/-- `{holds: {key: {amount, expires_at_ms}}}` as `{key: {amount, expires_ms}}`. -/
def renamedHolds (body : Json) : Option (Table String Json) :=
  match body.get "holds" with
  | none => some ∅
  | some holds => holds.members.bind (readAll renamedHold)

/-- Renames the hold documents without discarding malformed reservations. -/
def migrateBudgets (batch : List SourceRecord) : Except String (List TargetRecord) :=
  batch.mapM fun record =>
    match renamedHolds record.body with
    | none => .error ("legacy wallet budget document `" ++ record.id ++ "` is malformed")
    | some holds => .ok
      { collection := budgetsCollection
        id := record.id
        body := .object [("holds", ofTable holds)]
        createdMs := record.createdMs
        expiresMs := record.expiresMs }

inductive StepBody where
  | documents (transform : List SourceRecord → Except String (List TargetRecord))
  | streams (transform : String → List Json → Except String (Option (String × List Json)))

structure MigrationStep where
  id : String
  item : String
  source : Option String
  run : StepBody

def storageSchema : List MigrationStep :=
  [⟨"budgets_v2", budgetsCollection, some legacyBudgetCollection, .documents migrateBudgets⟩,
    ⟨"payments_v2", paymentsStream, some legacyPaymentsStream, .streams migratePaymentsStream⟩]

inductive TransformErrorKind where
  | invalidInput
  | unsupportedOperation
  | unsupportedVersion
deriving DecidableEq, Repr

structure TransformError where
  kind : TransformErrorKind
  message : String
deriving DecidableEq, Repr

def unsupportedOperation : TransformError :=
  ⟨.unsupportedOperation, "TinyWallet migration operation unsupported"⟩

def findStep (schema : List MigrationStep) (operation : String) (version : Nat)
    (expectedOperation stepId : String) : Except TransformError MigrationStep :=
  if operation ≠ expectedOperation then .error unsupportedOperation
  else if version ≠ 1 then
    .error ⟨.unsupportedVersion, "TinyWallet migration operation version unsupported"⟩
  else match schema.find? fun step => step.id = stepId with
    | some step => .ok step
    | none => .error unsupportedOperation

def budgetsOperation : String := "tinywallet.budgets-v2"

def paymentsOperation : String := "tinywallet.payments-v2"

def documents (schema : List MigrationStep) (operation : String) (version : Nat)
    (records : List SourceRecord) : Except TransformError (List TargetRecord) := do
  let step ← findStep schema operation version budgetsOperation "budgets_v2"
  match step.run with
  | .documents transform => (transform records).mapError fun _ =>
    ⟨.invalidInput, "TinyWallet budget migration rejected its input"⟩
  | .streams _ => .error unsupportedOperation

inductive StreamMapMode where
  | independentEntries
deriving DecidableEq, Repr

structure StreamPlan where
  target : String
  mode : StreamMapMode
deriving DecidableEq, Repr

def streamPlan (schema : List MigrationStep) (operation : String) (version : Nat)
    (source : String) : Except TransformError (Option StreamPlan) := do
  let step ← findStep schema operation version paymentsOperation "payments_v2"
  match step.run with
  | .streams transform => do
    let planned ← (transform source []).mapError fun _ =>
      ⟨.invalidInput, "TinyWallet payment migration rejected its source"⟩
    .ok (planned.map fun mapped => ⟨mapped.1, .independentEntries⟩)
  | .documents _ => .error unsupportedOperation

def streamEntries (schema : List MigrationStep) (operation : String) (version : Nat)
    (entries : List Json) : Except TransformError (List Json) := do
  let step ← findStep schema operation version paymentsOperation "payments_v2"
  match step.run with
  | .streams transform => do
    let source ← match step.source with
      | some source => .ok source
      | none => .error unsupportedOperation
    let mapped ← (transform source entries).mapError fun _ =>
      ⟨.invalidInput, "TinyWallet payment migration rejected its entries"⟩
    match mapped with
    | some mapped => .ok mapped.2
    | none => .error unsupportedOperation
  | .documents _ => .error unsupportedOperation

/-- The entries of the new stream. -/
def migratedValues (entries : List Json) : List Json :=
  entries.filterMap fun entry => (legacyPayment entry).map fun legacy => storedValue legacy.stored

theorem migratePaymentsStream_legacy (entries : List Json) :
    migratePaymentsStream legacyPaymentsStream entries =
      .ok (some (paymentsStream, migratedValues entries)) := by
  rw [migratePaymentsStream, if_neg (not_not.mpr rfl)]
  rfl

theorem streamPlan_legacy :
    streamPlan storageSchema paymentsOperation 1 legacyPaymentsStream =
      .ok (some ⟨paymentsStream, .independentEntries⟩) := rfl

theorem streamEntries_legacy (entries : List Json) :
    streamEntries storageSchema paymentsOperation 1 entries = .ok (migratedValues entries) := rfl

/-- Chunks that are migrated one by one give the stream that is migrated whole. -/
theorem streamEntries_chunks (chunks : List (List Json)) :
    ∃ parts, chunks.mapM (streamEntries storageSchema paymentsOperation 1) = .ok parts ∧
      parts.flatten = migratedValues chunks.flatten := by
  refine ⟨chunks.map migratedValues, ?_, ?_⟩
  · induction chunks with
    | nil => rfl
    | cons chunk rest ih =>
      rw [List.mapM_cons, streamEntries_legacy, ih]
      rfl
  · induction chunks with
    | nil => rfl
    | cons chunk rest ih =>
      rw [List.map_cons, List.flatten_cons, List.flatten_cons, ih, migratedValues, migratedValues,
        migratedValues, List.filterMap_append]

/-- The entries as a ledger reads them. -/
def asStream (values : List Json) : List (Option StoredPayment) := values.map storedOf

/-- Every entry that decodes has its record, and no entry is lost on the way. -/
theorem migratedValues_read (entries : List Json) :
    List.Forall₂ Preserved (entries.filterMap legacyPayment)
        ((asStream (migratedValues entries)).filterMap parsed) ∧
      ((asStream (migratedValues entries)).filterMap parsed).length =
        (migratedValues entries).length := by
  induction entries with
  | nil => exact ⟨.nil, rfl⟩
  | cons entry rest ih =>
    cases hlegacy : legacyPayment entry with
    | none =>
      have hvalues : migratedValues (entry :: rest) = migratedValues rest := by
        simp [migratedValues, hlegacy]
      rw [hvalues, List.filterMap_cons_none hlegacy]
      exact ih
    | some legacy =>
      obtain ⟨loaded, hparsed, hpreserved⟩ := parsed_migrated hlegacy
      have hvalues : migratedValues (entry :: rest) =
          storedValue legacy.stored :: migratedValues rest := by
        simp [migratedValues, hlegacy]
      have hread : (asStream (migratedValues (entry :: rest))).filterMap parsed =
          loaded :: (asStream (migratedValues rest)).filterMap parsed := by
        rw [hvalues, asStream, List.map_cons, List.filterMap_cons_some hparsed]
        rfl
      rw [hread, List.filterMap_cons_some hlegacy, hvalues]
      refine ⟨.cons hpreserved ih.1, ?_⟩
      rw [List.length_cons, List.length_cons, ih.2]

variable {P : Type}

/-- Storage that nobody writes to while it is read. -/
def atRest (stream : List (Option StoredPayment)) : (e : Request P) → Option e.Answer
  | .readWindow next => some (.ok (windowAt stream next))
  | _ => none

/-- What reading does with the window at `next`. -/
def readOn (stream : List (Option StoredPayment)) (rounds next : Nat)
    (before : List LoadedPayment) : Op P (List LoadedPayment × Nat) :=
  match (windowAt stream next).getLast? with
  | none => pure (before, next)
  | some last => readFrom rounds (last.offset + 1)
      (before ++ (windowAt stream next).filterMap fun entry => parsed entry.value)

/-- Reading a stream at rest ends, with everything it holds. -/
theorem readFrom_atRest (stream : List (Option StoredPayment)) (m : PaymentLedger) :
    ∀ (rounds next : Nat) (before : List LoadedPayment), next ≤ stream.length →
      stream.length < next + rounds →
      ∃ history, outcome (atRest (P := P) stream) rounds (readFrom rounds next before m) =
        some (history,
          (.ok (before ++ (stream.drop next).filterMap parsed, stream.length), m)) := by
  intro rounds
  induction rounds with
  | zero =>
    intro next before hle hlt
    omega
  | succ rounds ih =>
    intro next before hle hlt
    have hstep : outcome (atRest (P := P) stream) (rounds + 1)
          (readFrom (rounds + 1) next before m) =
        (outcome (atRest stream) rounds (readOn stream rounds next before m)).map fun result =>
          (⟨.readWindow next, .ok (windowAt stream next)⟩ :: result.1, result.2) := rfl
    rw [hstep, readOn]
    cases hlast : (windowAt stream next).getLast? with
    | none =>
      have hend := windowAt_getLast_none hlast
      have hnext : next = stream.length := by omega
      refine ⟨[⟨.readWindow next, .ok (windowAt stream next)⟩], ?_⟩
      rw [List.drop_eq_nil_of_le hend, List.filterMap_nil, List.append_nil, ← hnext]
      cases rounds <;> rfl
    | some last =>
      have hoffset := windowAt_getLast hlast
      have hread : ((stream.drop next).take windowSize).length ≠ 0 := by
        intro hempty
        have hwindow := List.length_eq_zero_iff.mp ((windowAt_length stream next).trans hempty)
        simp [hwindow] at hlast
      have hlonger : last.offset + 1 ≤ stream.length := by
        rw [hoffset, List.length_take, List.length_drop]
        omega
      obtain ⟨history, hrest⟩ := ih (last.offset + 1)
        (before ++ (windowAt stream next).filterMap fun entry => parsed entry.value) hlonger
        (by omega)
      refine ⟨⟨.readWindow next, .ok (windowAt stream next)⟩ :: history, ?_⟩
      have hall : before ++ ((windowAt stream next).filterMap fun entry => parsed entry.value) ++
          (stream.drop (last.offset + 1)).filterMap parsed =
          before ++ (stream.drop next).filterMap parsed := by
        have hskip : last.offset + 1 = next + windowSize ∨ stream.length ≤ last.offset + 1 := by
          rw [hoffset, List.length_take, List.length_drop]
          omega
        have hdrop : stream.drop (last.offset + 1) = (stream.drop next).drop windowSize := by
          rcases hskip with hskip | hskip
          · rw [hskip, List.drop_drop]
          · rw [List.drop_eq_nil_of_le hskip, List.drop_drop, List.drop_eq_nil_of_le]
            rw [hoffset, List.length_take, List.length_drop] at hskip
            omega
        rw [windowAt_parsed, List.append_assoc, ← List.filterMap_append, hdrop,
          List.take_append_drop]
      dsimp only
      rw [hrest, hall]
      rfl

/-- One budget hold as stored. -/
def holdOf (value : Json) : Option Hold :=
  if value.isRecord ["amount", "expires_ms"] then do
    let amount ← (value.field ["amount", "expires_ms"] "amount").bind asU64
    let expiresMs ← (value.field ["amount", "expires_ms"] "expires_ms").bind asI64
    some ⟨amount, expiresMs⟩
  else none

/-- `from_value::<HoldsDoc>`. -/
def holdsDoc (doc : Json) : Option Holds :=
  if doc.isRecord ["holds"] then
    match doc.field ["holds"] "holds" with
    | none => some ∅
    | some holds => holds.members.bind (readAll holdOf)
  else none

/-- The old document has something under the key. -/
def OldKey (body : Json) (key : String) : Prop :=
  ∃ holds, body.get "holds" = some holds ∧ (holds.get key).isSome

/-- The old document holds an amount under the key until an instant. -/
def OldHold (body : Json) (key : String) (hold : Hold) : Prop :=
  ∃ holds value, body.get "holds" = some holds ∧ holds.get key = some value ∧
    (value.get "amount").bind asU64 = some hold.amount ∧
    (value.get "expires_at_ms").bind asI64 = some hold.expiresMs

/-- Every reservation of the old document can be read. -/
def Readable (body : Json) : Prop :=
  ∀ holds, body.get "holds" = some holds →
    holds.members.isSome ∧ ∀ key, OldKey body key → ∃ hold, OldHold body key hold

theorem holdOf_renamedHold {value renamed : Json} (h : renamedHold value = some renamed) :
    ∃ hold, holdOf renamed = some hold ∧
      (value.get "amount").bind asU64 = some hold.amount ∧
      (value.get "expires_at_ms").bind asI64 = some hold.expiresMs := by
  obtain ⟨amount, hamount, h⟩ := Option.bind_eq_some_iff.mp h
  obtain ⟨expiresMs, hexpires, h⟩ := Option.bind_eq_some_iff.mp h
  obtain rfl := Option.some.inj h
  have hback := asI64_ofI64 (asI64_lt (Option.bind_eq_some_iff.mp hexpires).choose_spec.2)
  refine ⟨⟨amount, expiresMs⟩, ?_, hamount, hexpires⟩
  have hholds : holdOf (.object [("amount", .number (.posInt amount)),
      ("expires_ms", ofI64 expiresMs)]) =
      (asI64 (ofI64 expiresMs)).bind fun expiresMs => some ⟨amount, expiresMs⟩ := rfl
  rw [hholds, hback]
  rfl

/-- A table of renamed reservations is read back key by key. -/
theorem holdsDoc_ofTable {renamed : Table String Json}
    (readable : ∀ key value, renamed.lookup key = some value → (holdOf value).isSome) :
    ∃ holds, holdsDoc (.object [("holds", ofTable renamed)]) = some holds ∧
      (∀ key, holds.lookup key = (renamed.lookup key).bind holdOf) ∧
      ∀ key, (renamed.lookup key).isSome → (holds.lookup key).isSome := by
  obtain ⟨t, ht⟩ : ∃ t, (ofTable renamed).members = some t := ⟨_, rfl⟩
  have hlookup : ∀ key, t.lookup key = renamed.lookup key := fun key =>
    (lookup_members ht key).trans (get_ofTable renamed key)
  have hdoc : holdsDoc (.object [("holds", ofTable renamed)]) = readAll holdOf t :=
    congrArg (Option.bind · (readAll holdOf)) ht
  cases hread : readAll holdOf t with
  | none =>
    obtain ⟨key, value, hvalue, hnone⟩ := readAll_none hread
    have hsome := readable key value ((hlookup key).symm.trans hvalue)
    rw [hnone] at hsome
    cases hsome
  | some holds =>
    refine ⟨holds, hdoc.trans hread, fun key => ?_, fun key => ?_⟩
    · rw [← hlookup]
      exact (lookup_readAll hread key).1
    · rw [← hlookup]
      exact (lookup_readAll hread key).2

/-- A renamed document is read as the reservations of the old one. -/
theorem holdsDoc_renamedHolds {body : Json} {renamed : Table String Json}
    (h : renamedHolds body = some renamed) :
    ∃ holds, holdsDoc (.object [("holds", ofTable renamed)]) = some holds ∧
      (∀ key hold, holds.lookup key = some hold ↔ OldHold body key hold) ∧
      ∀ key, key ∈ holds ↔ OldKey body key := by
  have hlookup : ∀ key, renamed.lookup key =
        ((body.get "holds").bind (get key)).bind renamedHold ∧
      (((body.get "holds").bind (get key)).isSome → (renamed.lookup key).isSome) := by
    intro key
    simp only [renamedHolds] at h
    cases hbody : body.get "holds" with
    | none =>
      rw [hbody] at h
      obtain rfl := Option.some.inj h
      exact ⟨rfl, id⟩
    | some old =>
      rw [hbody] at h
      obtain ⟨t, ht, hread⟩ := Option.bind_eq_some_iff.mp h
      rw [Option.bind_some, ← lookup_members ht key]
      exact lookup_readAll hread key
  have hreadable : ∀ key value, renamed.lookup key = some value → (holdOf value).isSome := by
    intro key value hvalue
    rw [(hlookup key).1] at hvalue
    obtain ⟨old, -, hrenamed⟩ := Option.bind_eq_some_iff.mp hvalue
    obtain ⟨hold, hhold, -⟩ := holdOf_renamedHold hrenamed
    rw [hhold]
    rfl
  obtain ⟨holds, hdoc, hholds, hkeys⟩ := holdsDoc_ofTable hreadable
  refine ⟨holds, hdoc, fun key hold => ?_, fun key => ?_⟩
  · rw [hholds, (hlookup key).1]
    constructor
    · intro hsome
      obtain ⟨renamed, hrenamed, hhold⟩ := Option.bind_eq_some_iff.mp hsome
      obtain ⟨old, hold', hrename⟩ := Option.bind_eq_some_iff.mp hrenamed
      obtain ⟨entries, hentries, hget⟩ := Option.bind_eq_some_iff.mp hold'
      obtain ⟨found, hfound, hamount, hexpires⟩ := holdOf_renamedHold hrename
      obtain rfl := Option.some.inj (hfound.symm.trans hhold)
      exact ⟨entries, old, hentries, hget, hamount, hexpires⟩
    · rintro ⟨entries, old, hentries, hget, hamount, hexpires⟩
      obtain ⟨renamed, hrename⟩ : ∃ renamed, renamedHold old = some renamed := by
        simp [renamedHold, hamount, hexpires]
      obtain ⟨found, hfound, hamount', hexpires'⟩ := holdOf_renamedHold hrename
      have hsame : found = hold := by
        cases found
        cases hold
        simp_all
      rw [hentries, Option.bind_some, hget, Option.bind_some, hrename, Option.bind_some, hfound,
        hsame]
  · rw [← AList.lookup_isSome]
    constructor
    · intro hsome
      rw [hholds, (hlookup key).1] at hsome
      cases hbody : body.get "holds" with
      | none => simp [hbody] at hsome
      | some entries =>
        refine ⟨entries, hbody, ?_⟩
        cases hget : entries.get key with
        | none => simp [hbody, hget] at hsome
        | some old => rfl
    · rintro ⟨entries, hentries, hsome⟩
      refine hkeys key ((hlookup key).2 ?_)
      rw [hentries]
      exact hsome

/-- Only an unreadable reservation stops a document. -/
theorem renamedHolds_none {body : Json} (h : renamedHolds body = none) : ¬Readable body := by
  simp only [renamedHolds] at h
  cases hbody : body.get "holds" with
  | none =>
    rw [hbody] at h
    cases h
  | some old =>
    rw [hbody] at h
    intro hreadable
    obtain ⟨hobject, hkeys⟩ := hreadable old hbody
    obtain ⟨t, ht⟩ := Option.isSome_iff_exists.mp hobject
    simp only [ht, Option.bind_some] at h
    obtain ⟨key, value, hvalue, hnone⟩ := readAll_none h
    rw [lookup_members ht] at hvalue
    obtain ⟨hold, entries, found, hentries, hget, hamount, hexpires⟩ :=
      hkeys key ⟨old, hbody, by simp [hvalue]⟩
    obtain rfl := Option.some.inj (hbody.symm.trans hentries)
    obtain rfl := Option.some.inj (hvalue.symm.trans hget)
    simp [renamedHold, hamount, hexpires] at hnone

/-- The new document holds what the old one held. -/
structure HoldsKept (record : SourceRecord) (target : TargetRecord) : Prop where
  collection : target.collection = budgetsCollection
  id : target.id = record.id
  createdMs : target.createdMs = record.createdMs
  expiresMs : target.expiresMs = record.expiresMs
  holds : ∃ holds, holdsDoc target.body = some holds ∧
    (∀ key hold, holds.lookup key = some hold ↔ OldHold record.body key hold) ∧
    ∀ key, key ∈ holds ↔ OldKey record.body key

/-- A batch is migrated whole or not at all, and only a reservation that cannot be
read stops it. -/
theorem migrateBudgets_kept (batch : List SourceRecord) :
    match migrateBudgets batch with
    | .error text => ∃ record ∈ batch, ¬Readable record.body ∧
        text = "legacy wallet budget document `" ++ record.id ++ "` is malformed"
    | .ok targets => List.Forall₂ HoldsKept batch targets := by
  cases hmigrated : migrateBudgets batch with
  | error text =>
    obtain ⟨record, hrecord, hfails⟩ := exists_of_mapM_error hmigrated
    refine ⟨record, hrecord, ?_⟩
    cases hrenamed : renamedHolds record.body with
    | none =>
      simp only [hrenamed, Except.error.injEq] at hfails
      exact ⟨renamedHolds_none hrenamed, hfails.symm⟩
    | some holds => simp [hrenamed] at hfails
  | ok targets =>
    refine (forall₂_of_mapM_ok hmigrated).imp fun record target h => ?_
    cases hrenamed : renamedHolds record.body with
    | none => simp [hrenamed] at h
    | some holds =>
      simp only [hrenamed] at h
      obtain rfl := Except.ok.inj h
      exact ⟨rfl, rfl, rfl, rfl, holdsDoc_renamedHolds hrenamed⟩

/-- A ledger that has read a whole stream and holds nothing. -/
def opened (stream : List (Option StoredPayment)) (generation : Nat) (owner sessionId : String)
    (budget : SpendingBudget) : PaymentLedger where
  generation := generation
  records := recordsOf stream
  committedHolds := keysOf stream
  nextOffset := stream.length
  budget := budget
  sessionId := sessionId
  owner := owner
  reservations := ∅
  holds := ∅

theorem openLedger_atRest (stream : List (Option StoredPayment)) (generation : Nat)
    (owner sessionId : String) (budget : SpendingBudget) (m : PaymentLedger) (rounds : Nat)
    (enough : stream.length < rounds) :
    ∃ history, outcome (atRest (P := P) stream) rounds
        (openLedger rounds generation owner sessionId budget m) =
      some (history, (.ok (), opened stream generation owner sessionId budget)) := by
  obtain ⟨history, hread⟩ := readFrom_atRest (P := P) stream m rounds 0 [] (Nat.zero_le _)
    (by omega)
  have hopen : openLedger rounds generation owner sessionId budget m =
      (readFrom rounds 0 [] m : Prog (Request P) _ _ _) >>= fun out =>
        match out with
        | (.ok found, _) => .pure (.ok (),
          { generation := generation
            records := found.1.map Prod.fst
            committedHolds := found.1.filterMap Prod.snd
            nextOffset := found.2
            budget := budget
            sessionId := sessionId
            owner := owner
            reservations := ∅
            holds := ∅ })
        | (.error text, m') => .pure (.error text, m') := by
    refine congrArg (Prog.bind _) (funext fun out => ?_)
    obtain ⟨result, m'⟩ := out
    cases result with
    | ok found => rfl
    | error text => rfl
  refine ⟨history, ?_⟩
  rw [hopen]
  refine outcome_bind ?_ hread
  rfl

theorem chargedTotal_le (charged : PaymentRecord → Bool) (records : List PaymentRecord) :
    chargedTotal 0 charged records ≤ u64Max := by
  rw [chargedTotal_eq (Nat.zero_le _)]
  exact Nat.min_le_right _ _

/-- What a ledger over the new storage reports is what the decoded entries amount
to. `direct` lists their records and keys; a table `old` lists the reservations of
an old document, which a ledger mirrors once it has read the new one. -/
structure BudgetKept (entries : List Json) (ledger : PaymentLedger) : Prop where
  records : ∀ direct, List.Forall₂ Preserved (entries.filterMap legacyPayment) direct →
    ledger.records = direct.map Prod.fst ∧ ledger.committedHolds = direct.filterMap Prod.snd
  outstanding : ∀ direct, List.Forall₂ Preserved (entries.filterMap legacyPayment) direct →
    ledger.outstandingAtomic = chargedTotal 0 isUnresolved (direct.map Prod.fst)
  check : ∀ direct, List.Forall₂ Preserved (entries.filterMap legacyPayment) direct →
    ∀ now amount, ledger.checkBudgetAt now amount =
      checkBudget ledger.budget 0 (direct.map Prod.fst) now amount
  mirrored : ∀ direct, List.Forall₂ Preserved (entries.filterMap legacyPayment) direct →
    ∀ record target, HoldsKept record target → ∀ holds, holdsDoc target.body = some holds →
    ∀ old : Holds, (∀ key hold, old.lookup key = some hold ↔ OldHold record.body key hold) →
    ∀ now : Instant,
      let held := heldAtomic (liveHolds now.millis (direct.filterMap Prod.snd) old)
      let mirror := { ledger with
        holds := liveHolds now.millis ledger.committedHolds holds }
      mirror.outstandingAtomic =
          saturatingAdd (chargedTotal 0 isUnresolved (direct.map Prod.fst)) held ∧
        ∀ amount, mirror.checkBudgetAt now amount =
          checkBudget ledger.budget held (direct.map Prod.fst) now amount

theorem direct_eq {legacies : List LegacyPayment} {direct loaded : List LoadedPayment}
    (hdirect : List.Forall₂ Preserved legacies direct)
    (hloaded : List.Forall₂ Preserved legacies loaded) : direct = loaded := by
  induction hdirect generalizing loaded with
  | nil =>
    cases hloaded
    rfl
  | cons here _ ih =>
    cases hloaded with
    | cons here' rest' => rw [here.unique here', ih rest']

theorem opened_budgetKept (entries : List Json) (generation : Nat) (owner sessionId : String)
    (budget : SpendingBudget) : BudgetKept entries
      (opened (asStream (migratedValues entries)) generation owner sessionId budget) := by
  have hloaded := (migratedValues_read entries).1
  constructor
  · intro direct hdirect
    rw [direct_eq hdirect hloaded]
    exact ⟨rfl, rfl⟩
  · intro direct hdirect
    rw [direct_eq hdirect hloaded]
    have hle := chargedTotal_le isUnresolved (recordsOf (asStream (migratedValues entries)))
    exact Nat.min_eq_left hle
  · intro direct hdirect now amount
    rw [direct_eq hdirect hloaded]
    rfl
  · intro direct hdirect record target hkept holds hholds old hold now
    rw [direct_eq hdirect hloaded]
    obtain ⟨found, hfound, hsame, -⟩ := hkept.holds
    obtain rfl := Option.some.inj (hholds.symm.trans hfound)
    have hlookup : ∀ key, holds.lookup key = old.lookup key := fun key => by
      ext value
      exact (hsame key value).trans (hold key value).symm
    have hheld : heldAtomic (liveHolds now.millis
          (keysOf (asStream (migratedValues entries))) holds) =
        heldAtomic (liveHolds now.millis
          (keysOf (asStream (migratedValues entries))) old) := by
      refine LedgerTotals.heldAtomic_congr fun key => ?_
      rw [liveHolds, liveHolds, lookup_retain, lookup_retain, hlookup]
    refine ⟨?_, fun amount => ?_⟩
    · exact congrArg (saturatingAdd _) hheld
    · exact congrArg (fun held => checkBudget budget held _ now amount) hheld

/-- The migration preserves the ledger: each entry whose members spell a payment, and
no other, is one record, in order, of that payment and with its instants; chunks make no
difference; the hold documents keep every reservation or the batch fails; and budgets
come out as the decoded entries say. -/
theorem migration_preserves_ledger (chunks : List (List Json)) (batch : List SourceRecord) :
    ∃ values loaded,
      migratePaymentsStream legacyPaymentsStream chunks.flatten =
        .ok (some (paymentsStream, values)) ∧
      (∀ m rounds, values.length < rounds → ∃ history,
        outcome (atRest (P := P) (asStream values)) rounds (readFrom rounds 0 [] m) =
          some (history, (.ok (loaded, values.length), m))) ∧
      List.Forall₂ Preserved (chunks.flatten.filterMap legacyPayment) loaded ∧
      loaded.length = values.length ∧
      (∀ entry legacy, legacyPayment entry = some legacy ↔ Spelled entry legacy) ∧
      streamPlan storageSchema paymentsOperation 1 legacyPaymentsStream =
        .ok (some ⟨paymentsStream, .independentEntries⟩) ∧
      (∃ parts, chunks.mapM (streamEntries storageSchema paymentsOperation 1) = .ok parts ∧
        parts.flatten = values) ∧
      (match migrateBudgets batch with
        | .error text => ∃ record ∈ batch, ¬Readable record.body ∧
            text = "legacy wallet budget document `" ++ record.id ++ "` is malformed"
        | .ok targets => List.Forall₂ HoldsKept batch targets) ∧
      documents storageSchema budgetsOperation 1 batch = (migrateBudgets batch).mapError
        (fun _ => ⟨.invalidInput, "TinyWallet budget migration rejected its input"⟩) ∧
      ∀ generation owner sessionId budget m rounds, values.length < rounds →
        ∃ history ledger, outcome (atRest (P := P) (asStream values)) rounds
            (openLedger rounds generation owner sessionId budget m) =
              some (history, (.ok (), ledger)) ∧
          ledger.budget = budget ∧ BudgetKept chunks.flatten ledger := by
  have hlength : (asStream (migratedValues chunks.flatten)).length =
      (migratedValues chunks.flatten).length := List.length_map _
  obtain ⟨hpreserved, hcount⟩ := migratedValues_read chunks.flatten
  refine ⟨migratedValues chunks.flatten, (asStream (migratedValues chunks.flatten)).filterMap
    parsed, migratePaymentsStream_legacy _, fun m rounds enough => ?_, hpreserved, hcount,
    legacyPayment_iff, streamPlan_legacy,
    streamEntries_chunks chunks, migrateBudgets_kept batch, rfl,
    fun generation owner sessionId budget m rounds enough => ?_⟩
  · rw [← hlength]
    exact readFrom_atRest _ m rounds 0 [] (Nat.zero_le _) (by omega)
  · obtain ⟨history, hopen⟩ := openLedger_atRest (P := P) _ generation owner sessionId budget m
      rounds (by rw [hlength]; exact enough)
    exact ⟨history, _, hopen, rfl, opened_budgetKept _ _ _ _ _⟩

/-- An old entry with the members that every entry has, and others. -/
def sampleEntry (id : String) (amount : Nat) (status : Json) (timestamp : String)
    (others : List (String × Json)) : Json :=
  .object ([("id", .string id), ("url", .string "https://api.example.com/data"),
    ("asset", .string "USDC"), ("amountAtomic", .number (.posInt amount)),
    ("amountDisplay", .string ""), ("recipient", .string "Recipient"),
    ("network", .string "solana:5eykt4UsFv8P8NJdTREpY1vzqKqZKvdp"), ("status", status),
    ("timestamp", .string timestamp), ("sessionId", .string "session-a")] ++ others)

/-- A payment that was settled, one whose instant is no instant, and one that is pending
until it expires. -/
def sampleEntries : List (List Json) :=
  [[sampleEntry "r0" 2 (.object [("settled", .null)]) "2026-03-15T14:00:00+02:00"
      [("txSignature", .string "sig"), ("threadId", .null), ("committed_hold", .string "a:1")],
    sampleEntry "r1" 3 (.string "pending") "2026-02-30T12:00:00Z" []],
    [sampleEntry "r2" 4 (.string "pending") "2026-03-15T12:00:00.0009Z"
      [("authorizationValidUntil", .string "2026-03-15T12:00:01.5Z"),
        ("solanaLastValidBlockHeight", .number (.posInt 100))]]]

def sampleLegacy (id : String) (amount : Nat) (status : StoredPaymentStatus) :
    LegacyPayment where
  id := id
  url := "https://api.example.com/data"
  asset := "USDC"
  amountAtomic := amount
  amountDisplay := ""
  recipient := "Recipient"
  network := "solana:5eykt4UsFv8P8NJdTREpY1vzqKqZKvdp"
  txSignature := none
  status := status
  timestamp := 1773576000000
  authorizationValidUntil := none
  solanaLastValidBlockHeight := none
  authorizationExpiredAt := none
  authorizationExpiryObservedHeight := none
  sessionId := "session-a"
  threadId := none
  committedHold := none

def sampleLegacies : List LegacyPayment :=
  [{ sampleLegacy "r0" 2 .settled with txSignature := some "sig", committedHold := some "a:1" },
    { sampleLegacy "r2" 4 .pending with
      authorizationValidUntil := some 1773576001500
      solanaLastValidBlockHeight := some 100 }]

open LedgerCalls in
/-- The records of the entries that decode. -/
def sampleDirect : List LoadedPayment :=
  [({ sampleRecord "r0" 2 .settled with txSignature := some "sig" }, some "a:1"),
    ({ sampleRecord "r2" 4 .pending with
        authorizationValidUntil := some ⟨1773576001500000000, by decide, by decide⟩
        solanaLastValidBlockHeight := some 100 }, none)]

def sampleHold (amount : Nat) (expiresMs : Int) : Json :=
  .object [("amount", .number (.posInt amount)), ("expires_at_ms", ofI64 expiresMs)]

/-- Old documents: one with two reservations, and one without any. -/
def sampleBatch : List SourceRecord :=
  [⟨"holds", .object [("holds", .object [("a:1", sampleHold 2 1773576300000),
      ("b:1", sampleHold 5 1773576300000)])], 0, none⟩, ⟨"other", .object [], 0, some 7⟩]

theorem sample_decoded : sampleEntries.flatten.filterMap legacyPayment = sampleLegacies := by
  decide +kernel

theorem sample_preserved :
    List.Forall₂ Preserved (sampleEntries.flatten.filterMap legacyPayment) sampleDirect := by
  rw [sample_decoded]
  refine .cons ?_ (.cons ?_ .nil)
  · constructor <;> rfl
  · constructor <;> rfl

/-- Two of three entries survive, in their order, the middle one is no payment, the batch of
documents is migrated, and the pending payment is what is outstanding. -/
theorem sample_migration_preserves_ledger :
    (∀ legacy, ¬Spelled
      (sampleEntry "r1" 3 (.string "pending") "2026-02-30T12:00:00Z" []) legacy) ∧
    (∃ targets, migrateBudgets sampleBatch = .ok targets ∧
      List.Forall₂ HoldsKept sampleBatch targets) ∧
    ∃ values history ledger,
      migratePaymentsStream legacyPaymentsStream sampleEntries.flatten =
        .ok (some (paymentsStream, values)) ∧
      outcome (atRest (P := Unit) (asStream values)) 3
          (openLedger 3 1 "a" "session-a" LedgerCalls.sampleBudget
            (LedgerCalls.sampleLedger "a")) = some (history, (.ok (), ledger)) ∧
      ledger.records = sampleDirect.map Prod.fst ∧ ledger.outstandingAtomic = 4 ∧
      ledger.checkBudgetAt LedgerCalls.sampleNow 1 = .exceedsDailyBudget 6 6 := by
  obtain ⟨values, loaded, hvalues, -, hpreserved, hcount, hiff, -, -, hbatch, -, hopen⟩ :=
    migration_preserves_ledger (P := Unit) sampleEntries sampleBatch
  have hshort : values.length < 3 := by
    rw [← hcount, ← hpreserved.length_eq, sample_decoded]
    decide
  obtain ⟨history, ledger, hopened, hbudget, hkept⟩ := hopen 1 "a" "session-a"
    LedgerCalls.sampleBudget (LedgerCalls.sampleLedger "a") 3 hshort
  refine ⟨fun legacy hspelled => ?_, ?_, values, history, ledger, hvalues, hopened, ?_⟩
  · have hnone : legacyPayment (sampleEntry "r1" 3 (.string "pending") "2026-02-30T12:00:00Z" [])
        = none := by decide +kernel
    rw [← hiff, hnone] at hspelled
    cases hspelled
  · cases hmigrated : migrateBudgets sampleBatch with
    | error text =>
      have hok : (migrateBudgets sampleBatch).isOk = true := by decide +kernel
      rw [hmigrated] at hok
      cases hok
    | ok targets =>
      rw [hmigrated] at hbatch
      exact ⟨targets, rfl, hbatch⟩
  · refine ⟨(hkept.records _ sample_preserved).1, ?_, ?_⟩
    · rw [hkept.outstanding _ sample_preserved]
      decide +kernel
    · rw [hkept.check _ sample_preserved, hbudget]
      decide +kernel

end LedgerMigration
