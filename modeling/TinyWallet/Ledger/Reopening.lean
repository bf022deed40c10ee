import TinyWallet.Ledger.Refusals

/-!
# What a reopened ledger reads back

A ledger that mirrors the stream is what a ledger opened at the same offset
would be. The one place where a ledger stops mirroring is the re-read after an
append that another writer came before: when it fails the ledger keeps its own
record and reads it again later.
-/

namespace LedgerReopening

open Programs Sharing Tables LedgerRecords LedgerStore LedgerStorage LedgerReading LedgerCalls
  LedgerMirrors LedgerRefusals

variable {P ι : Type} [DecidableEq P] [DecidableEq ι]

/-- A failed append leaves nothing behind; any other call may fail. Which calls
have appended is noted. -/
def anyReadFails : Rules P ι (ι → Bool) where
  permits := fun s _ _ e r t =>
    match e, r with
    | .append _, .error _ => t = s
    | _, _ => True
  note := fun appended _ i e _ _ =>
    match e with
    | .append _ => Function.update appended i true
    | _ => appended

/-- The same, but a read does not fail once its call has appended. -/
def rereadsSucceed : Rules P ι (ι → Bool) where
  permits := fun s appended i e r t =>
    anyReadFails.permits s appended i e r t ∧
      match e, r with
      | .readWindow _, .error _ => appended i = false
      | _, _ => True
  note := anyReadFails.note

omit [DecidableEq P] in
theorem rereadsSucceed_observed (process : ι → P) :
    Observed process (rereadsSucceed (P := P) (ι := ι)) (fun i appended => appended i = true)
      fun _ _ _ => True where
  starts := by
    intro s g i value r t _
    simp [rereadsSucceed, anyReadFails]
  others := by
    intro s g i j e r t hj _ h
    cases e <;> simp_all [rereadsSucceed, anyReadFails, Function.update_of_ne hj.symm]
  reading := by
    intro s g i next r t _ h
    simpa [rereadsSucceed, anyReadFails] using h
  rereads := by
    rintro s g i next text t ⟨-, hfirst⟩ hagain
    rw [hfirst] at hagain
    cases hagain
  refused := by
    rintro s g i value text t ⟨hsame, -⟩
    rw [show t = s from hsame]
  sees := fun _ _ => trivial
  keeps := fun _ _ _ => trivial
  rests := fun _ _ _ => trivial

/-- Two ledgers that have read the same part of one stream agree. -/
structure Agree (a b : PaymentLedger) : Prop where
  records : a.records = b.records
  committed : ∀ key, key ∈ a.committedHolds ↔ key ∈ b.committedHolds
  latest : latestRecords a.records = latestRecords b.records
  verdict : a.budget = b.budget → a.holds = b.holds →
    ∀ now amount, a.checkBudgetAt now amount = b.checkBudgetAt now amount

theorem mirrors_agree {a b : PaymentLedger} {stream : List (Option StoredPayment)}
    (ha : Mirrors a stream) (hb : Mirrors b stream) (hnext : a.nextOffset = b.nextOffset) :
    Agree a b := by
  have hrecords : a.records = b.records := by
    rw [ha.records, hb.records, hnext]
  refine ⟨hrecords, fun key => ?_, by rw [hrecords], fun hbudget hholds now amount => ?_⟩
  · rw [ha.committed, hb.committed, hnext]
  · simp only [PaymentLedger.checkBudgetAt, PaymentLedger.reservedAtomic, hrecords, hbudget,
      hholds]

/-- As long as no read fails after its call's append, every ledger holds exactly
the parseable entries below its next offset, in order and once each, and agrees
with any ledger that has read as far. -/
theorem memory_mirrors_stream (process : ι → P) (rounds : Nat) (calls : ι → Call)
    (saved : ∀ i, ¬(calls i).Unsaved) {start : Shared P ι}
    (mirrors : ∀ p, Mirrors (start.memory p) start.stream)
    {config : Config (Shared P ι × (ι → Bool)) ι (Request P) Request.Answer Empty
      (Except String Outcome)}
    (reach : Reachable (env process rereadsSucceed) (start, fun _ => false)
      (fun i => (calls i).program rounds (process i)) config) :
    (∀ p, (config.shared.1.memory p).records =
        recordsOf (config.shared.1.stream.take (config.shared.1.memory p).nextOffset)) ∧
      ∀ p q, (config.shared.1.memory p).nextOffset = (config.shared.1.memory q).nextOffset →
        Agree (config.shared.1.memory p) (config.shared.1.memory q) := by
  have observed := rereadsSucceed_observed process
  have hsafe : ∀ i, Safe (env process rereadsSucceed) (mirrorContract process rereadsSucceed) i
      (fun _ _ => True) ((calls i).program rounds (process i)) (start, fun _ => false) := by
    intro i
    refine @withLedger_safe P ι _ _ process rereadsSucceed _ _ i _ observed _ (fun _ _ => True)
      (fun m s hinv hm hw => ?_) (fun _ _ _ => trivial) _
    exact meets_mono (fun _ _ _ _ h => ⟨h.1, trivial⟩) (call_meets observed rounds (calls i)
      (fun hunsaved => absurd hunsaved (saved i)) hinv hm hw)
  have hall : AllMirror config.shared := (reachable_safe mirrors hsafe reach).1
  exact ⟨fun p => (hall p).records, fun p q => mirrors_agree (hall p) (hall q)⟩

/-- Ledger `true` appends behind ledger `false`, and then reserves. -/
def sampleProcess : Fin 3 → Bool
  | 0 => false
  | _ => true

def sampleCalls : Fin 3 → Call
  | 0 => .tryRecordPayment (sampleRecord "other" 1 .settled)
  | 1 => .tryRecordPayment (sampleRecord "own" 2 .settled)
  | 2 => .reserveAt sampleNow 1

def sampleStart : Shared Bool (Fin 3) :=
  sampleShared (fun p => if p then "a" else "b") []

local instance threeCalls : NeZero 3 := ⟨by decide⟩

def sampleTurns : List (Fin 3 × Nat) := [(0, 9), (1, 9), (2, 9)]

/-- Whether the reads of the second call fail. -/
def sampleAnswer (fails : Bool) (rules : Rules Bool (Fin 3) (Fin 3 → Bool)) (i : Fin 3) :=
  responding sampleProcess rules
    (fun e => match e with
      | .readWindow _ => fails && i == 1
      | _ => false) i

def sampleRun (fails : Bool) (rules : Rules Bool (Fin 3) (Fin 3 → Bool)) :=
  schedule (sampleAnswer fails rules) sampleTurns (sampleStart, fun _ => false)
    fun i => (sampleCalls i).program 4 (sampleProcess i)

theorem sampleAnswer_anyReadFails (fails : Bool) (i : Fin 3) (s e r t)
    (h : sampleAnswer fails anyReadFails i s e = some (r, t)) :
    env sampleProcess anyReadFails s i e r t := by
  refine responding_env (fun r t hr => ?_) h
  cases e with
  | append value =>
    cases hr
    trivial
  | lock | unlock | loadHolds | storeHolds | readWindow | nextReservation | utcNow
  | finalizedSolanaBlockHeight | stall => trivial

theorem sampleAnswer_rereadsSucceed (i : Fin 3) (s e r t)
    (h : sampleAnswer false rereadsSucceed i s e = some (r, t)) :
    env sampleProcess rereadsSucceed s i e r t := by
  refine responding_env (fun r t hr => ?_) h
  cases e with
  | append value =>
    cases hr
    exact ⟨trivial, trivial⟩
  | readWindow next =>
    cases hr
    exact ⟨trivial, trivial⟩
  | lock | unlock | loadHolds | storeHolds | nextReservation | utcNow
  | finalizedSolanaBlockHeight | stall => exact ⟨trivial, trivial⟩

/-- The re-read fails, and the own record is in memory twice after the next refresh. -/
theorem failed_reread_repeats_record :
    ∃ config, Reachable (env sampleProcess anyReadFails) (sampleStart, fun _ => false)
        (fun i => (sampleCalls i).program 4 (sampleProcess i)) config ∧
      config.program 2 = .pure (.ok (.reserved (.ok 1))) ∧
      (config.shared.1.memory true).records ≠
        recordsOf (config.shared.1.stream.take (config.shared.1.memory true).nextOffset) := by
  obtain ⟨config, hreach, hshared, hprogram⟩ := Reachable.schedule
    (sampleAnswer_anyReadFails true) sampleTurns .refl
  have hrun : config.shared = (sampleRun true anyReadFails).1 := hshared
  have hended : config.program = (sampleRun true anyReadFails).2 := hprogram
  have hvalue : ((sampleRun true anyReadFails).2 2).value? = some (.ok (.reserved (.ok 1))) := by
    decide +kernel
  refine ⟨config, hreach, ?_, ?_⟩
  · rw [hended]
    exact Prog.eq_pure_of_value? hvalue
  · rw [hrun]
    decide +kernel

theorem sample_memory_mirrors_stream :
    ∃ config, Reachable (env sampleProcess rereadsSucceed) (sampleStart, fun _ => false)
        (fun i => (sampleCalls i).program 4 (sampleProcess i)) config ∧
      (config.shared.1.memory true).nextOffset = 2 ∧
      (config.shared.1.memory true).records =
        recordsOf (config.shared.1.stream.take (config.shared.1.memory true).nextOffset) := by
  obtain ⟨config, hreach, hshared, -⟩ := Reachable.schedule
    sampleAnswer_rereadsSucceed sampleTurns .refl
  have hrun : config.shared = (sampleRun false rereadsSucceed).1 := hshared
  have hsaved : ∀ i, ¬(sampleCalls i).Unsaved := by
    intro i
    fin_cases i <;> exact id
  refine ⟨config, hreach, ?_, (memory_mirrors_stream sampleProcess 4 sampleCalls hsaved
    (fun _ => sampleLedger_mirrors _ _) hreach).1 true⟩
  rw [hrun]
  decide +kernel

end LedgerReopening
