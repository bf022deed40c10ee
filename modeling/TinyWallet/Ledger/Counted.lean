import TinyWallet.Ledger.Reserving

/-!
# What is outstanding is counted

A reserved amount is a hold of the document or a record of the stream until it
is released or its lease is seen to have ended, and every reservation that is
granted or refused for its window counts it, whatever storage calls fail. The
exception is `commit_reservation`: it gives up the hold even when the entry that
should replace it was not stored.
-/

namespace LedgerCounted

open Programs Sharing Tables LedgerRecords LedgerStore LedgerStorage LedgerReading LedgerCalls
  LedgerMirrors LedgerHolds

variable {P ι : Type}

/-- An append by which `commit_reservation` replaces a hold has its effect, also
when it fails. Everything else may fail with or without effect. -/
def landing (calls : ι → Call) (s : Shared P ι) (_ : Notes ι) (i : ι) :
    (e : Request P) → e.Answer → Shared P ι → Prop
  | .append value, .error _, t => (∃ id record, calls i = .commitReservation id record) →
      value.committedHold.isSome → t = s.appended value
  | _, _, _ => True

theorem landing_succeeded {calls : ι → Call} {s t : Shared P ι} (n : Notes ι) {i : ι}
    {e : Request P} {r : e.Answer} (h : Succeeded e r) : landing calls s n i e r t := by
  cases e with
  | append value =>
    cases r with
    | error text => exact h.elim
    | ok offset => trivial
  | lock | unlock | loadHolds | storeHolds | readWindow | nextReservation | utcNow
  | finalizedSolanaBlockHeight | stall => trivial

/-- An entry that a call has written for the reservation of this key. -/
def Committed (process : ι → P) (calls : ι → Call) (owners : P → Set String) (s : Shared P ι)
    (key : String) : Prop :=
  ∃ record, Names s.stream record key ∧ ∃ j id own, commits (calls j) = some (id, own) ∧
    record = own.atMillisecondPrecision ∧ KeyOf owners (process j) id key

/-- Nothing outstanding is missing, neither from storage nor from what a
reservation that has been answered counted. -/
structure NeverMissing (process : ι → P) (calls : ι → Call) (owners : P → Set String)
    (config : Config (State P ι) ι (Request P) Request.Answer Empty (Except String Outcome)) :
    Prop where
  stored : ∀ key amount, config.shared.2.Outstanding key amount →
    InDoc config.shared.1 key amount ∨ Committed process calls owners config.shared.1 key
  counted : ∀ i now amount result, calls i = .reserveAt now amount →
    config.program i = .pure (.ok (.reserved result)) →
      ∃ ledger, config.shared.2.given i = some ledger ∧
        Reserved i amount result ledger config.shared

/-- Calls that may fail anywhere, apart from `landing`. -/
def landingSetting (process : ι → P) (calls : ι → Call) (owners : P → Set String)
    (apart : OwnersApart owners)
    (opened : ∀ i generation owner sessionId opening,
      calls i = .openLedger generation owner sessionId opening → owner ∈ owners (process i)) :
    Setting P ι where
  process := process
  calls := calls
  owners := owners
  permits := landing calls
  orderly := False
  budget := ⟨0, 0, 0, by decide⟩
  today := ⟨0, by decide, by decide⟩
  apart := apart
  opened := fun i generation owner sessionId opening hcall =>
    ⟨opened i generation owner sessionId opening hcall, False.elim⟩
  lands := fun _ _ _ id record _ _ _ hcall hnames hpermits => hpermits ⟨id, record, hcall⟩ hnames
  ordered := False.elim
  sameDay := False.elim

variable [DecidableEq P] [DecidableEq ι]

/-- As long as every entry by which `commit_reservation` replaces a hold is
stored, nothing outstanding is ever missing. -/
theorem outstanding_is_counted (process : ι → P) (rounds : Nat) (calls : ι → Call)
    (owners : P → Set String) (apart : OwnersApart owners)
    (opened : ∀ i generation owner sessionId opening,
      calls i = .openLedger generation owner sessionId opening → owner ∈ owners (process i))
    {start : Shared P ι} (hstart : Opened owners start)
    {config : Config (State P ι) ι (Request P) Request.Answer Empty (Except String Outcome)}
    (reach : Reachable (env process (holdRules calls (landing calls))) (start, Notes.none)
      (fun i => (calls i).program rounds (process i)) config) :
    NeverMissing process calls owners config := by
  obtain ⟨hinv, hends⟩ := reachable_inv (w := landingSetting process calls owners apart opened)
    rounds hstart False.elim reach
  constructor
  · intro key amount hout
    rcases hinv.covered key amount hout with hdoc | hnamed
    · exact .inl hdoc
    · obtain ⟨record, hnames⟩ := mem_keysOf.mp hnamed
      exact .inr ⟨record, hnames, hinv.written record key amount hnames hout.1⟩
  · intro i now amount result hcall hend
    exact hends i _ hend now amount result hcall rfl

/-- Two ledgers under a daily cap of 6, and each reserves 5. -/
def sampleProcess : Fin 3 → Bool
  | 2 => true
  | _ => false

def sampleOwner (p : Bool) : String := if p then "a" else "b"

def sampleOwners (p : Bool) : Set String := {sampleOwner p}

theorem sampleOwners_apart : OwnersApart sampleOwners := by
  intro p q owner hp hq
  obtain rfl := Set.mem_singleton_iff.mp hp
  have hsame := Set.mem_singleton_iff.mp hq
  revert hsame
  cases p <;> cases q <;> simp [sampleOwner]

/-- The first ledger commits what it has reserved. -/
def sampleCalls : Fin 3 → Call
  | 0 => .reserveAt sampleNow 5
  | 1 => .commitReservation 1 (sampleRecord "paid" 5 .pending)
  | 2 => .reserveAt sampleNow 5

def sampleStart : Shared Bool (Fin 3) := sampleShared sampleOwner []

theorem sampleStart_opened : Opened sampleOwners sampleStart where
  owner := fun _ => rfl
  mirrors := fun _ => sampleLedger_mirrors _ _
  empty := fun _ => rfl
  held := fun _ _ _ _ _ => rfl
  named := fun _ _ _ _ _ => List.not_mem_nil

theorem sampleCalls_opened (i : Fin 3) (generation : Nat) (owner sessionId : String)
    (opening : SpendingBudget)
    (h : sampleCalls i = .openLedger generation owner sessionId opening) :
    owner ∈ sampleOwners (sampleProcess i) := by
  fin_cases i <;> cases h

/-- One call after the other. -/
def sampleTurns : List (Fin 3 × Nat) := (List.finRange 3).map fun i => (i, 9)

def anyAnswer : Rules Bool (Fin 3) (Notes (Fin 3)) :=
  holdRules sampleCalls fun _ _ _ _ _ _ => True

/-- The append fails without effect. -/
def lossyRun :=
  schedule (responding sampleProcess anyAnswer fun e => match e with
    | .append _ => true
    | _ => false) sampleTurns (sampleStart, Notes.none)
    fun i => (sampleCalls i).program 4 (sampleProcess i)

/-- The amount of the failed commit is neither held nor recorded, and the other
ledger is granted what no longer fits. -/
theorem failed_commit_loses_amount :
    ∃ config, Reachable (env sampleProcess anyAnswer) (sampleStart, Notes.none)
        (fun i => (sampleCalls i).program 4 (sampleProcess i)) config ∧
      config.program 2 = .pure (.ok (.reserved (.ok 1))) ∧
      config.shared.2.Outstanding "b:1" 5 ∧ ("b:1", 5) ∈ config.shared.2.owed 2 ∧
      ¬NeverMissing sampleProcess sampleCalls sampleOwners config := by
  obtain ⟨config, hreach, hshared, hprogram⟩ := Reachable.schedule
    (fun i s e r t h => @responding_env Bool (Fin 3) (Notes (Fin 3)) _ _ sampleProcess anyAnswer _ i
      s t e r (fun _ _ _ => trivial) h) sampleTurns .refl
  have hrun : config.shared = lossyRun.1 := hshared
  have hended : config.program = lossyRun.2 := hprogram
  have hvalue : (lossyRun.2 2).value? = some (.ok (.reserved (.ok 1))) := by decide +kernel
  have hout : ("b:1", 5) ∈ lossyRun.1.2.granted ∧ "b:1" ∉ lossyRun.1.2.released ∧
      "b:1" ∉ lossyRun.1.2.lapsed ∧ ("b:1", 5) ∈ lossyRun.1.2.owed 2 := by decide +kernel
  have hgone : lossyRun.1.1.holds.lookup "b:1" = none ∧ lossyRun.1.1.stream = [] := by
    decide +kernel
  refine ⟨config, hreach, ?_, ?_, ?_, fun h => ?_⟩
  · rw [hended]
    exact Prog.eq_pure_of_value? hvalue
  · rw [hrun]
    exact ⟨hout.1, hout.2.1, hout.2.2.1⟩
  · rw [hrun]
    exact hout.2.2.2
  · have hstored := h.stored "b:1" 5
    rw [hrun] at hstored
    rcases hstored ⟨hout.1, hout.2.1, hout.2.2.1⟩ with ⟨hold, hlookup, -⟩ | ⟨record, hnames, -⟩
    · rw [hgone.1] at hlookup
      cases hlookup
    · rw [Names, hgone.2] at hnames
      cases hnames

/-- The append succeeds. -/
def storedRun :=
  schedule (responding sampleProcess (holdRules sampleCalls (landing sampleCalls)) fun _ => false)
    sampleTurns (sampleStart, Notes.none)
    fun i => (sampleCalls i).program 4 (sampleProcess i)

theorem sample_outstanding_is_counted :
    ∃ config, Reachable (env sampleProcess (holdRules sampleCalls (landing sampleCalls)))
        (sampleStart, Notes.none) (fun i => (sampleCalls i).program 4 (sampleProcess i)) config ∧
      config.program 2 = .pure (.ok (.reserved (.error (.daily 5 6)))) ∧
      ("b:1", 5) ∈ config.shared.2.owed 2 ∧
      NeverMissing sampleProcess sampleCalls sampleOwners config := by
  obtain ⟨config, hreach, hshared, hprogram⟩ := Reachable.schedule
    (fun i s e r t h => @responding_env Bool (Fin 3) (Notes (Fin 3)) _ _ sampleProcess
      (holdRules sampleCalls (landing sampleCalls)) _ i s t e r
      (fun r t hr => landing_succeeded s.2 (respond_succeeded hr)) h) sampleTurns .refl
  have hrun : config.shared = storedRun.1 := hshared
  have hended : config.program = storedRun.2 := hprogram
  have hvalue : (storedRun.2 2).value? = some (.ok (.reserved (.error (.daily 5 6)))) := by
    decide +kernel
  have howed : ("b:1", 5) ∈ storedRun.1.2.owed 2 := by decide +kernel
  refine ⟨config, hreach, ?_, ?_, outstanding_is_counted sampleProcess 4 sampleCalls sampleOwners
    sampleOwners_apart sampleCalls_opened sampleStart_opened hreach⟩
  · rw [hended]
    exact Prog.eq_pure_of_value? hvalue
  · rw [hrun]
    exact howed

end LedgerCounted
