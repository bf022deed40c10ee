import TinyWallet.Ledger.Mirrors

/-!
# What the ledgers count together

The total of a window counts every payment once: by its latest record, or by a
hold that no entry of the stream commits. A ledger that has just caught up with
the stream computes that total, cut at 64 bits, from the document it read.
-/

namespace LedgerTotals

open Programs Sharing Tables LedgerRecords LedgerStore LedgerStorage LedgerReading LedgerMirrors

variable {P ι γ : Type}

/-- Unexpired holds that no entry commits. -/
def uncommitted (nowMs : Int) (stream : List (Option StoredPayment)) (holds : Holds) : Nat :=
  total (fun key hold => if nowMs < hold.expiresMs ∧ key ∉ keysOf stream then hold.amount else 0)
    holds

def trueTotal (charged : PaymentRecord → Bool) (nowMs : Int) (s : Shared P ι) : Nat :=
  chargedSum charged (recordsOf s.stream) + uncommitted nowMs s.stream s.holds

theorem foldl_held (entries : List (Sigma fun _ : String => Hold)) {start : Nat}
    (h : start ≤ u64Max) :
    entries.foldl (fun total entry => saturatingAdd total entry.2.amount) start =
      min (start + (entries.map fun entry => entry.2.amount).sum) u64Max := by
  induction entries generalizing start with
  | nil => simp [h]
  | cons entry rest ih =>
    have hstep : saturatingAdd start entry.2.amount ≤ u64Max := by
      simp only [saturatingAdd]
      omega
    rw [List.foldl_cons, ih hstep]
    simp only [saturatingAdd, List.map_cons, List.sum_cons]
    omega

theorem heldAtomic_eq (holds : Holds) :
    heldAtomic holds = min (total (fun _ hold => hold.amount) holds) u64Max := by
  rw [heldAtomic, foldl_held holds.entries (Nat.zero_le _), Nat.zero_add]
  rfl

theorem heldAtomic_congr {holds holds' : Holds} (h : ∀ key, holds.lookup key = holds'.lookup key) :
    heldAtomic holds = heldAtomic holds' := by
  rw [heldAtomic_eq, heldAtomic_eq, total_congr _ h]

theorem heldAtomic_le (holds : Holds) : heldAtomic holds ≤ u64Max := by
  rw [heldAtomic_eq]
  exact Nat.min_le_right _ _

/-- The holds a reservation keeps are the unexpired ones that nothing commits. -/
theorem total_liveHolds {ledger : PaymentLedger} {stream : List (Option StoredPayment)}
    (h : Mirrors ledger stream) (hend : ledger.nextOffset = stream.length) (nowMs : Int)
    (doc : Holds) :
    total (fun _ hold => hold.amount) (liveHolds nowMs ledger.committedHolds doc) =
      uncommitted nowMs stream doc := by
  rw [liveHolds, total_retain, uncommitted]
  refine total_eq_of_weight fun key hold _ => ?_
  have hkey := h.committed key
  rw [hend, List.take_length] at hkey
  by_cases hcommitted : key ∈ keysOf stream
  · have hmem : key ∈ ledger.committedHolds := hkey.mpr hcommitted
    simp [hmem, hcommitted]
  · have hmem : key ∉ ledger.committedHolds := fun h => hcommitted (hkey.mp h)
    simp [hmem, hcommitted]

/-- The computed total of a ledger that has just caught up. -/
theorem chargedTotal_trueTotal {ledger : PaymentLedger} {s : Shared P ι}
    (h : Mirrors ledger s.stream) (hend : ledger.nextOffset = s.stream.length) (nowMs : Int)
    (charged : PaymentRecord → Bool) :
    chargedTotal (heldAtomic (liveHolds nowMs ledger.committedHolds s.holds)) charged
        ledger.records = min (trueTotal charged nowMs s) u64Max := by
  have hrecords := h.records
  rw [hend, List.take_length] at hrecords
  rw [chargedTotal_eq (heldAtomic_le _), heldAtomic_eq, total_liveHolds h hend, hrecords,
    trueTotal]
  omega

theorem exceeds_trueTotal {sum amount cap : Nat} (hcap : cap < 2 ^ 64)
    (h : exceeds (min sum u64Max) amount cap = true) : cap < sum + amount := by
  rcases Bool.or_eq_true_iff.mp h with h | h
  · have hover := of_decide_eq_true h
    simp only [u64Max] at hover
    omega
  · have hover := of_decide_eq_true h
    simp only [u64Max] at hover
    omega

/-- A total that fits is below the cap after the amount is added. -/
theorem not_exceeds_trueTotal {sum amount cap : Nat} (hfits : sum < 2 ^ 64)
    (h : exceeds (min sum u64Max) amount cap = false) : sum + amount ≤ cap := by
  have hunder := of_decide_eq_false (Bool.or_eq_false_iff.mp h).2
  simp only [u64Max] at hunder
  omega

end LedgerTotals
