import TinyWallet.Ledger.Counted

/-!
# The caps hold across ledgers

Ledgers with one budget share a storage whose calls do not fail. However their
reservations, renewals, releases and commits interleave, what is charged to the
day and to the month, with every hold that no entry names, stays within the
caps: a reservation that read an older document is not put, and since the
document was read others can only have turned holds into records.
-/

namespace LedgerCaps

open Programs Sharing Tables LedgerRecords LedgerStore LedgerStorage LedgerReading LedgerCalls
  LedgerMirrors LedgerHolds

variable {P ι : Type}

/-- The rules of an orderly run. -/
def ordered (calls : ι → Call) (s : Shared P ι) (n : Notes ι) (i : ι) (e : Request P)
    (r : e.Answer) (_ : Shared P ι) : Prop :=
  Ordered calls s n i e r

def orderedSetting (process : ι → P) (calls : ι → Call) (owners : P → Set String)
    (budget : SpendingBudget) (today : Instant) (apart : OwnersApart owners)
    (opened : ∀ i generation owner sessionId opening,
      calls i = .openLedger generation owner sessionId opening →
        owner ∈ owners (process i) ∧ opening = budget)
    (sameDay : ∀ i now, dated (calls i) = some now → now.day = today.day) : Setting P ι where
  process := process
  calls := calls
  owners := owners
  permits := ordered calls
  orderly := True
  budget := budget
  today := today
  apart := apart
  opened := fun i generation owner sessionId opening hcall =>
    ⟨(opened i generation owner sessionId opening hcall).1,
      fun _ => (opened i generation owner sessionId opening hcall).2⟩
  lands := fun _ _ _ _ _ _ _ _ _ _ hpermits => hpermits.elim
  ordered := fun _ _ _ _ _ _ _ hpermits => hpermits
  sameDay := fun _ => sameDay

variable [DecidableEq P] [DecidableEq ι]

/-- In every reachable state the caps of the day and of the month hold. -/
theorem caps_hold (process : ι → P) (rounds : Nat) (calls : ι → Call) (owners : P → Set String)
    (budget : SpendingBudget) (today : Instant) (apart : OwnersApart owners)
    (opened : ∀ i generation owner sessionId opening,
      calls i = .openLedger generation owner sessionId opening →
        owner ∈ owners (process i) ∧ opening = budget)
    (sameDay : ∀ i now, dated (calls i) = some now → now.day = today.day)
    {start : Shared P ι} (hstart : Opened owners start)
    (budgets : ∀ p, (start.memory p).budget = budget) (within : WithinCaps budget today start)
    {config : Config (State P ι) ι (Request P) Request.Answer Empty (Except String Outcome)}
    (reach : Reachable (env process (holdRules calls (ordered calls))) (start, Notes.none)
      (fun i => (calls i).program rounds (process i)) config) :
    WithinCaps budget today config.shared.1 := by
  have hinv := (reachable_inv
    (w := orderedSetting process calls owners budget today apart opened sameDay)
    rounds hstart (fun _ => ⟨budgets, within⟩) reach).1
  exact hinv.caps trivial

/-- One ledger reserves 5 of a daily cap of 6 and commits them, and the other is refused. -/
def sampleCalls : Fin 3 → Call
  | 0 => .reserveAt sampleNow 5
  | 1 => .tryCommitReservation 1 (sampleRecord "paid" 5 .pending)
  | 2 => .reserveAt sampleNow 5

/-- Answers of an orderly run: leases last, and an append commits what is held. -/
def sampleAnswer (i : Fin 3) (s : State Bool (Fin 3)) (e : Request Bool) :
    Option (e.Answer × State Bool (Fin 3)) :=
  match e with
  | .loadHolds =>
    if ∀ entry ∈ s.1.holds.entries, sampleNow.millis < entry.2.expiresMs then
      responding LedgerCounted.sampleProcess (holdRules sampleCalls (ordered sampleCalls))
        (fun _ => false) i s .loadHolds
    else none
  | .append value =>
    if (∀ record ∈ recordsOf s.1.stream, record.id ≠ value.id) ∧
        ∃ hold ∈ s.2.granted, value.committedHold = some hold.1 ∧ hold.2 = value.amountAtomic ∧
          hold.1 ∉ s.2.released ∧ hold.1 ∉ s.2.committed then
      responding LedgerCounted.sampleProcess (holdRules sampleCalls (ordered sampleCalls))
        (fun _ => false) i s (.append value)
    else none
  | e => responding LedgerCounted.sampleProcess (holdRules sampleCalls (ordered sampleCalls))
      (fun _ => false) i s e

theorem sampleCalls_dated {i : Fin 3} {now : Instant} (h : dated (sampleCalls i) = some now) :
    now = sampleNow := by
  fin_cases i
  · exact (Option.some.inj h).symm
  · cases h
  · exact (Option.some.inj h).symm

theorem sampleAnswer_env (i : Fin 3) (s : State Bool (Fin 3)) (e : Request Bool) (r : e.Answer)
    (t : State Bool (Fin 3)) (h : sampleAnswer i s e = some (r, t)) :
    env LedgerCounted.sampleProcess (holdRules sampleCalls (ordered sampleCalls)) s i e r t := by
  cases e with
  | loadHolds =>
    rw [sampleAnswer] at h
    split_ifs at h with hleases
    refine responding_env (fun r t hr => ?_) h
    cases hr
    intro now hdated key amount _ hold hlookup
    rw [sampleCalls_dated hdated]
    exact hleases ⟨key, hold⟩ (AList.mem_lookup_iff.mp hlookup)
  | append value =>
    rw [sampleAnswer] at h
    split_ifs at h with hheld
    refine responding_env (fun r t hr => ?_) h
    cases hr
    obtain ⟨hfresh, hold, hgranted, hnames, hamount, hreleased, hcommitted⟩ := hheld
    refine ⟨hfresh, hold.1, hnames, ?_, hreleased, hcommitted⟩
    rw [← hamount]
    exact hgranted
  | storeHolds version holds =>
    exact responding_env (fun _ _ hr => respond_succeeded hr) h
  | lock | unlock | readWindow | nextReservation | utcNow | finalizedSolanaBlockHeight | stall =>
    exact responding_env (fun _ _ hr => respond_succeeded hr) h

def sampleRun :=
  schedule sampleAnswer LedgerCounted.sampleTurns (LedgerCounted.sampleStart, Notes.none)
    fun i => (sampleCalls i).program 4 (LedgerCounted.sampleProcess i)

theorem sample_caps_hold :
    ∃ config, Reachable (env LedgerCounted.sampleProcess
        (holdRules sampleCalls (ordered sampleCalls)))
        (LedgerCounted.sampleStart, Notes.none)
        (fun i => (sampleCalls i).program 4 (LedgerCounted.sampleProcess i)) config ∧
      config.program 2 = .pure (.ok (.reserved (.error (.daily 5 6)))) ∧
      config.shared.1.stream.length = 1 ∧
      WithinCaps sampleBudget sampleNow config.shared.1 := by
  obtain ⟨config, hreach, hshared, hprogram⟩ := Reachable.schedule sampleAnswer_env
    LedgerCounted.sampleTurns .refl
  have hrun : config.shared = sampleRun.1 := hshared
  have hended : config.program = sampleRun.2 := hprogram
  have hvalue : (sampleRun.2 2).value? = some (.ok (.reserved (.error (.daily 5 6)))) := by
    decide +kernel
  have hlength : sampleRun.1.1.stream.length = 1 := by decide +kernel
  have hwithin : WithinCaps sampleBudget sampleNow LedgerCounted.sampleStart :=
    ⟨Nat.zero_le _, Nat.zero_le _⟩
  have hopened : ∀ i generation owner sessionId opening,
      sampleCalls i = .openLedger generation owner sessionId opening →
        owner ∈ LedgerCounted.sampleOwners (LedgerCounted.sampleProcess i) ∧
          opening = sampleBudget := by
    intro i generation owner sessionId opening hcall
    fin_cases i <;> cases hcall
  have hday : ∀ i now, dated (sampleCalls i) = some now → now.day = sampleNow.day :=
    fun i now hdated => congrArg Instant.day (sampleCalls_dated hdated)
  refine ⟨config, hreach, ?_, ?_, caps_hold LedgerCounted.sampleProcess 4 sampleCalls
    LedgerCounted.sampleOwners sampleBudget sampleNow LedgerCounted.sampleOwners_apart hopened hday
    LedgerCounted.sampleStart_opened (fun _ => rfl) hwithin hreach⟩
  · rw [hended]
    exact Prog.eq_pure_of_value? hvalue
  · rw [hrun]
    exact hlength

end LedgerCaps
