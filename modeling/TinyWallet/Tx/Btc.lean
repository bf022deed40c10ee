import TinyWallet.Engine.Btc

/-!
# Bitcoin transactions as the signer builds them

The signer is handed coins, an amount and an absolute fee, and selects coins
again on its own. The planner's selection survives that second one: no shorter
prefix of the planned coins reaches the signer's target, because each further
input only raises the fee the planner asks for.

Address parsing and transaction ids belong to the `bitcoin` crate, collected in
`Crates`. Witnesses and sighashes are not modelled here.
-/

namespace TxBtc

open RustText Wire Btc

/-- Outputs of at most this many satoshis go to the fee. -/
def dustThreshold : Nat := 546

structure Transfer where
  sender : String
  recipient : String
  amount : Nat
  fee : Nat
deriving DecidableEq, Repr

structure Selection where
  inputs : List Utxo
  change : Nat
deriving DecidableEq, Repr

inductive Error where
  | address (e : Address.Error)
  | invalidField (field reason : String)
  | insufficientFunds (available required : Nat)
  | signing (reason : String)
deriving DecidableEq, Repr

/-- The `bitcoin` crate: the script that pays an address, and a transaction id
from its text. The error texts are the crate's own. -/
structure Crates where
  scriptPubkey : String → Except String (List UInt8)
  txidFromStr : String → Except String (List UInt8)

structure OutPoint where
  txid : List UInt8
  vout : Nat
deriving DecidableEq, Repr

/-- `Sequence::ENABLE_RBF_NO_LOCKTIME`. -/
def enableRbfNoLocktime : Nat := 0xFFFFFFFD

structure TxIn where
  previousOutput : OutPoint
  scriptSig : List UInt8
  sequence : Nat
  witness : List (List UInt8)
deriving DecidableEq, Repr

structure TxOut where
  value : Nat
  scriptPubkey : List UInt8
deriving DecidableEq, Repr

structure Transaction where
  version : Nat
  lockTime : Nat
  input : List TxIn
  output : List TxOut
deriving DecidableEq, Repr

/-- The selection loop: `chosen` holds what is taken, worth `total`. -/
def selectLoop (target : Nat) : List Utxo → List Utxo → Nat → Except Error Selection
  | [], _, total => .error (.insufficientFunds total target)
  | utxo :: rest, chosen, total =>
    if 2 ^ 64 ≤ total + utxo.value then .error (.invalidField "utxos" "total value overflows")
    else
      let total := total + utxo.value
      let chosen := chosen ++ [utxo]
      if target ≤ total then
        let surplus := total - target
        .ok ⟨chosen, if dustThreshold < surplus then surplus else 0⟩
      else selectLoop target rest chosen total

/-- A stable sort, largest value first. -/
def largestFirst (utxos : List Utxo) : List Utxo :=
  utxos.mergeSort fun a b => decide (b.value ≤ a.value)

def selectCoins (utxos : List Utxo) (target : Nat) : Except Error Selection :=
  selectLoop target (largestFirst utxos) [] 0

def scriptPubkey (lib : Crates) (address : String) : Except Error (List UInt8) :=
  (lib.scriptPubkey address).mapError fun e => .invalidField "address" e

def txIn (lib : Crates) (utxo : Utxo) : Except Error TxIn :=
  match lib.txidFromStr utxo.txid with
  | .error e => .error (.invalidField "utxo.txid" (utxo.txid ++ ": " ++ e))
  | .ok txid => .ok ⟨⟨txid, utxo.vout⟩, [], enableRbfNoLocktime, []⟩

def Transfer.build (ext : Address.Crates) (lib : Crates) (transfer : Transfer)
    (utxos : List Utxo) : Except Error (Transaction × Selection) := do
  let sender ← (Address.Btc.validateSender ext transfer.sender).mapError .address
  let recipient ← (Address.Btc.validate ext transfer.recipient).mapError .address
  let target := transfer.amount + transfer.fee
  if 2 ^ 64 ≤ target then .error (.invalidField "amount" "amount + fee overflows")
  else do
    let selection ← selectCoins utxos target
    let senderScript ← scriptPubkey lib sender
    let recipientScript ← scriptPubkey lib recipient
    let input ← selection.inputs.mapM (txIn lib)
    let change := if 0 < selection.change then [⟨selection.change, senderScript⟩] else []
    .ok (⟨2, 0, input, ⟨transfer.amount, recipientScript⟩ :: change⟩, selection)

def coinTotal (coins : List Utxo) : Nat := (coins.map Utxo.value).sum

def outputTotal (outputs : List TxOut) : Nat := (outputs.map TxOut.value).sum

theorem feeFor_ok {rate inputs outputs fee : Nat} (h : feeFor rate inputs outputs = .ok fee) :
    fee = rate * estimatedVbytes inputs outputs := by
  simp only [feeFor] at h
  split at h
  · cases h
    rfl
  · cases h

theorem checkedAdd_ok {message : String} {a b total : Nat}
    (h : checkedAdd message a b = .ok total) : total = a + b ∧ a + b < 2 ^ 64 := by
  simp only [checkedAdd] at h
  split at h
  · next hlt =>
    cases h
    exact ⟨rfl, hlt⟩
  · cases h

theorem estimatedVbytes_mono {n m outputs : Nat} (h : n ≤ m) :
    estimatedVbytes n outputs ≤ estimatedVbytes m outputs := by
  simp only [estimatedVbytes]
  omega

theorem le_saturatingAdd {a : Nat} (b : Nat) (h : a < 2 ^ 64) : a ≤ saturatingAdd a b := by
  simp only [saturatingAdd]
  omega

theorem saturatingAdd_mono {a b c : Nat} (h : b ≤ c) : saturatingAdd a b ≤ saturatingAdd a c := by
  simp only [saturatingAdd]
  omega

theorem saturatingAdd_le (a b : Nat) : saturatingAdd a b ≤ a + b := by
  simp only [saturatingAdd]
  omega

/-- The least the planner asks for at `inputs` inputs. -/
def least (amount rate inputs : Nat) : Nat :=
  saturatingAdd amount (rate * estimatedVbytes inputs 1)

theorem least_mono {amount rate n m : Nat} (h : n ≤ m) :
    least amount rate n ≤ least amount rate m :=
  saturatingAdd_mono (Nat.mul_le_mul_left rate (estimatedVbytes_mono h))

theorem least_le_with_change (amount rate inputs : Nat) :
    least amount rate inputs ≤ amount + rate * estimatedVbytes inputs 2 := by
  have hbytes : estimatedVbytes inputs 1 ≤ estimatedVbytes inputs 2 := by
    simp only [estimatedVbytes]
    omega
  have hfee := Nat.mul_le_mul_left rate hbytes
  have hsum := saturatingAdd_le amount (rate * estimatedVbytes inputs 1)
  simp only [least]
  omega

/-- How the planner stops at coins worth `total`: with change above dust, or
with the whole surplus as the fee. -/
inductive Stops (amount rate total inputs : Nat) (plan : SpendPlan) : Prop where
  | withChange (hfee : plan.feeSats = rate * estimatedVbytes inputs 2)
      (htotal : amount + plan.feeSats + plan.changeSats = total)
      (hchange : dustThresholdSats < plan.changeSats)
  | withoutChange (htotal : amount + plan.feeSats = total)
      (hleast : least amount rate inputs ≤ total) (hchange : plan.changeSats = 0)

/-- What the loop can do with one more coin. -/
theorem selectFrom_cons {amount rate : Nat} (hamount : amount < 2 ^ 64) {utxo : Utxo}
    {rest chosen : List Utxo} {total : Nat} {plan : SpendPlan}
    (h : selectFrom amount rate (utxo :: rest) chosen total = .ok plan) :
    total + utxo.value < 2 ^ 64 ∧
      (plan.selected = chosen ++ [utxo] ∧
          Stops amount rate (total + utxo.value) (chosen.length + 1) plan ∨
        total + utxo.value < least amount rate (chosen.length + 1) ∧
          selectFrom amount rate rest (chosen ++ [utxo]) (total + utxo.value) = .ok plan) := by
  rw [selectFrom] at h
  obtain ⟨sum, hsum, h⟩ := bind_ok_iff.mp h
  obtain ⟨rfl, hlt⟩ := checkedAdd_ok hsum
  obtain ⟨feeWith, hwith, h⟩ := bind_ok_iff.mp h
  obtain ⟨feeWithout, hwithout, h⟩ := bind_ok_iff.mp h
  have hw := feeFor_ok hwith
  have hwo := feeFor_ok hwithout
  rw [List.length_append, List.length_singleton] at hw hwo
  refine ⟨hlt, ?_⟩
  dsimp only at h
  split at h
  · next hchange =>
    cases h
    refine .inl ⟨rfl, .withChange hw ?_ hchange.2⟩
    have hsat : saturatingAdd amount feeWith = amount + feeWith := by
      have := hchange.2
      simp only [saturatingAdd, dustThresholdSats] at this ⊢
      omega
    simp only [hsat] at hchange ⊢
    omega
  · split at h
    · next hcover =>
      cases h
      rw [hwo] at hcover
      have hle := le_saturatingAdd (rate * estimatedVbytes (chosen.length + 1) 1) hamount
      refine .inl ⟨rfl, .withoutChange ?_ hcover rfl⟩
      simp only
      omega
    · next hshort =>
      rw [hwo] at hshort
      exact .inr ⟨by simpa [least] using hshort, h⟩

/-- A plan's target is at least what the planner asked for at every earlier
count of inputs. -/
theorem least_le_target {amount rate : Nat} (hamount : amount < 2 ^ 64) {coins : List Utxo} :
    ∀ {chosen : List Utxo} {total : Nat} {plan : SpendPlan},
      selectFrom amount rate coins chosen total = .ok plan →
        least amount rate (chosen.length + 1) ≤ amount + plan.feeSats := by
  induction coins with
  | nil =>
    intro chosen total plan h
    rw [selectFrom] at h
    obtain ⟨fee, hfee, h⟩ := bind_ok_iff.mp h
    cases h
  | cons utxo rest ih =>
    intro chosen total plan h
    obtain ⟨-, ⟨-, hstop⟩ | ⟨-, hrest⟩⟩ := selectFrom_cons hamount h
    · cases hstop with
      | withChange hfee htotal hchange =>
        rw [hfee]
        exact least_le_with_change amount rate _
      | withoutChange htotal hleast hchange =>
        rw [htotal]
        exact hleast
    · have hlater := ih hrest
      rw [List.length_append, List.length_singleton] at hlater
      exact Nat.le_trans (least_mono (Nat.le_succ _)) hlater

theorem stops_selects {amount rate total inputs : Nat} {plan : SpendPlan}
    (h : Stops amount rate total inputs plan) :
    amount + plan.feeSats ≤ total ∧
      (if dustThreshold < total - (amount + plan.feeSats) then total - (amount + plan.feeSats)
        else 0) = plan.changeSats ∧
      total = amount + plan.feeSats + plan.changeSats := by
  cases h with
  | withChange hfee htotal hchange =>
    simp only [dustThresholdSats] at hchange
    refine ⟨by omega, ?_, htotal.symm⟩
    rw [if_pos (by simp only [dustThreshold]; omega)]
    omega
  | withoutChange htotal hleast hchange =>
    refine ⟨by omega, ?_, by omega⟩
    rw [htotal, Nat.sub_self, if_neg (by simp [dustThreshold]), hchange]

/-- The signer's loop over the coins the planner went on to take stops where
the planner did. -/
theorem selectLoop_of_selectFrom {amount rate : Nat} (hamount : amount < 2 ^ 64)
    {coins : List Utxo} :
    ∀ {chosen : List Utxo} {total : Nat} {plan : SpendPlan},
      selectFrom amount rate coins chosen total = .ok plan →
        ∃ taken, taken <+: coins ∧ plan.selected = chosen ++ taken ∧
          selectLoop (amount + plan.feeSats) taken chosen total =
            .ok ⟨plan.selected, plan.changeSats⟩ ∧
          total + coinTotal taken = amount + plan.feeSats + plan.changeSats ∧
          total + coinTotal taken < 2 ^ 64 := by
  induction coins with
  | nil =>
    intro chosen total plan h
    rw [selectFrom] at h
    obtain ⟨fee, hfee, h⟩ := bind_ok_iff.mp h
    cases h
  | cons utxo rest ih =>
    intro chosen total plan h
    obtain ⟨hlt, ⟨hselected, hstop⟩ | ⟨hshort, hrest⟩⟩ := selectFrom_cons hamount h
    · obtain ⟨hreach, hchange, htotal⟩ := stops_selects hstop
      refine ⟨[utxo], by simp, hselected, ?_, by simpa [coinTotal] using htotal,
        by simpa [coinTotal] using hlt⟩
      simp only [selectLoop]
      rw [if_neg (Nat.not_le.mpr hlt), if_pos hreach, hchange, hselected]
    · obtain ⟨taken, hprefix, hselected, hloop, htotal, hfits⟩ := ih hrest
      have hleast := least_le_target hamount h
      refine ⟨utxo :: taken, by simpa using hprefix, by simpa using hselected, ?_, ?_, ?_⟩
      · -- the signer cannot stop here: its target is beyond what the planner still missed
        simp only [selectLoop]
        rw [if_neg (Nat.not_le.mpr hlt), if_neg (by omega)]
        exact hloop
      · simp only [coinTotal, List.map_cons, List.sum_cons] at htotal ⊢
        omega
      · simp only [coinTotal, List.map_cons, List.sum_cons] at hfits ⊢
        omega

theorem largestFirst_of_prefix {coins taken : List Utxo} (h : taken <+: largestFirst coins) :
    largestFirst taken = taken := by
  have hsorted : (largestFirst coins).Pairwise fun a b => decide (b.value ≤ a.value) = true := by
    refine List.pairwise_mergeSort ?_ ?_ coins
    · intro a b c hab hbc
      simp only [decide_eq_true_eq] at hab hbc ⊢
      omega
    · intro a b
      simp only [Bool.or_eq_true, decide_eq_true_eq]
      omega
  exact List.mergeSort_of_pairwise (hsorted.sublist h.sublist)

/-- The signer's selection over a plan's coins is the plan. -/
theorem selectCoins_of_plan {utxos : List Utxo} {amount rate : Nat} {plan : SpendPlan}
    (h : planSpend utxos amount rate = .ok plan) :
    selectCoins plan.selected (amount + plan.feeSats) = .ok ⟨plan.selected, plan.changeSats⟩ ∧
      coinTotal plan.selected = amount + plan.feeSats + plan.changeSats ∧
      coinTotal plan.selected < 2 ^ 64 := by
  simp only [planSpend] at h
  obtain ⟨cheapest, -, h⟩ := bind_ok_iff.mp h
  obtain ⟨sum, hsum, h⟩ := bind_ok_iff.mp h
  have hamount : amount < 2 ^ 64 := by
    have := (checkedAdd_ok hsum).2
    omega
  obtain ⟨taken, hprefix, hselected, hloop, htotal, hfits⟩ := selectLoop_of_selectFrom hamount h
  rw [List.nil_append] at hselected
  subst hselected
  rw [Nat.zero_add] at htotal hfits
  refine ⟨?_, htotal, hfits⟩
  rw [selectCoins, largestFirst_of_prefix hprefix]
  exact hloop

/-- An input spends the coin it was made from. -/
def Spends (lib : Crates) (coin : Utxo) (input : TxIn) : Prop :=
  lib.txidFromStr coin.txid = .ok input.previousOutput.txid ∧
    input.previousOutput.vout = coin.vout

theorem txIn_spends {lib : Crates} {coin : Utxo} {txid : List UInt8}
    (h : lib.txidFromStr coin.txid = .ok txid) :
    ∃ input, txIn lib coin = .ok input ∧ Spends lib coin input := by
  simp only [txIn, h]
  exact ⟨_, rfl, h, rfl⟩

theorem mapM_txIn_spends {lib : Crates} {coins : List Utxo}
    (h : ∀ coin ∈ coins, ∃ txid, lib.txidFromStr coin.txid = .ok txid) :
    ∃ inputs, coins.mapM (txIn lib) = .ok inputs ∧ List.Forall₂ (Spends lib) coins inputs := by
  induction coins with
  | nil => exact ⟨[], rfl, .nil⟩
  | cons coin rest ih =>
    obtain ⟨txid, htxid⟩ := h coin (by simp)
    obtain ⟨input, hinput, hspends⟩ := txIn_spends htxid
    obtain ⟨inputs, hinputs, hrest⟩ := ih fun other hmem => h other (by simp [hmem])
    refine ⟨input :: inputs, ?_, .cons hspends hrest⟩
    rw [List.mapM_cons, hinput, hinputs]
    rfl

/-- The outputs of a plan: the payment, then the change when there is any. -/
def plannedOutputs (amount change : Nat) (senderScript recipientScript : List UInt8) :
    List TxOut :=
  ⟨amount, recipientScript⟩ :: if 0 < change then [⟨change, senderScript⟩] else []

theorem outputTotal_planned (amount change : Nat) (senderScript recipientScript : List UInt8) :
    outputTotal (plannedOutputs amount change senderScript recipientScript) = amount + change := by
  by_cases h : 0 < change
  · simp [outputTotal, plannedOutputs, h]
  · have : change = 0 := by omega
    simp [outputTotal, plannedOutputs, this]

/-- The signer spends exactly the coins that were planned, in that order, with
the planned change and the planned fee. -/
theorem planned_spend_is_built {ext : Address.Crates} {lib : Crates} {utxos : List Utxo}
    {amount rate : Nat} {plan : SpendPlan} {sender recipient senderText recipientText : String}
    {senderScript recipientScript : List UInt8}
    (hplan : planSpend utxos amount rate = .ok plan)
    (hsender : Address.Btc.validateSender ext sender = .ok senderText)
    (hrecipient : Address.Btc.validate ext recipient = .ok recipientText)
    (hsenderScript : lib.scriptPubkey senderText = .ok senderScript)
    (hrecipientScript : lib.scriptPubkey recipientText = .ok recipientScript)
    (htxids : ∀ coin ∈ plan.selected, ∃ txid, lib.txidFromStr coin.txid = .ok txid) :
    ∃ tx, Transfer.build ext lib ⟨sender, recipient, amount, plan.feeSats⟩ plan.selected =
        .ok (tx, ⟨plan.selected, plan.changeSats⟩) ∧
      List.Forall₂ (Spends lib) plan.selected tx.input ∧
      tx.output = plannedOutputs amount plan.changeSats senderScript recipientScript ∧
      coinTotal plan.selected = outputTotal tx.output + plan.feeSats := by
  obtain ⟨hselect, htotal, hfits⟩ := selectCoins_of_plan hplan
  obtain ⟨inputs, hinputs, hspends⟩ := mapM_txIn_spends htxids
  refine ⟨⟨2, 0, inputs, plannedOutputs amount plan.changeSats senderScript recipientScript⟩,
    ?_, hspends, rfl, ?_⟩
  · have hnoOverflow : ¬2 ^ 64 ≤ amount + plan.feeSats := by omega
    simp only [Transfer.build, scriptPubkey, hsender, hrecipient, hsenderScript,
      hrecipientScript, Except.mapError, bind, Except.bind, hselect]
    rw [if_neg hnoOverflow]
    rw [hinputs]
    rfl
  · rw [outputTotal_planned]
    omega

def sampleAddress : String := "bc1qw508d6qejxtdg4y5r3zarvary0c5xw7kv8f3t4"

def sampleProgram : List UInt8 :=
  [0x75, 0x1e, 0x76, 0xe8, 0x19, 0x91, 0x96, 0xd4, 0x54, 0x94, 0x1c, 0x45, 0xd1, 0xb3, 0xa3,
    0x23, 0xf1, 0x43, 0x3b, 0xd6]

def sampleExt : Address.Crates where
  sha256 := fun _ => []
  base58Decode := fun _ => .error "not used"
  base58CheckDecode := fun _ _ => .error "not used"
  base58Encode := fun _ => ""
  segwitDecode := fun text =>
    if text = sampleAddress then .ok ("bc", 0, sampleProgram) else .error "not used"
  onCurve := fun _ => false

def sampleTxid : String := String.ofList (List.replicate 64 '1')

def sampleLib : Crates where
  scriptPubkey := fun text =>
    if text = sampleAddress then .ok (0x00 :: 0x14 :: sampleProgram) else .error "not used"
  txidFromStr := fun text =>
    if text = sampleTxid then .ok (List.replicate 32 0x11) else .error "not used"

/-- Three coins, one of them worth nothing. -/
def sampleUtxos : List Utxo := [⟨sampleTxid, 2, 40000⟩, ⟨sampleTxid, 1, 9000⟩, ⟨sampleTxid, 0, 0⟩]

def samplePlan : SpendPlan :=
  ⟨[⟨sampleTxid, 2, 40000⟩, ⟨sampleTxid, 1, 9000⟩], 4180, 4820⟩

theorem sample_spend_is_built :
    planSpend sampleUtxos 40000 20 = .ok samplePlan ∧
      ∃ tx, Transfer.build sampleExt sampleLib ⟨sampleAddress, sampleAddress, 40000, 4180⟩
          samplePlan.selected = .ok (tx, ⟨samplePlan.selected, 4820⟩) ∧
        List.Forall₂ (Spends sampleLib) samplePlan.selected tx.input ∧
        tx.output = plannedOutputs 40000 4820 (0x00 :: 0x14 :: sampleProgram)
          (0x00 :: 0x14 :: sampleProgram) ∧
        coinTotal samplePlan.selected = outputTotal tx.output + 4180 := by
  have hplan : planSpend sampleUtxos 40000 20 = .ok samplePlan := by
    simp only [planSpend]
    rw [List.mergeSort_of_pairwise (by decide)]
    rfl
  have hsender : Address.Btc.validateSender sampleExt sampleAddress = .ok sampleAddress := by
    decide +kernel
  have hrecipient : Address.Btc.validate sampleExt sampleAddress = .ok sampleAddress := by
    decide +kernel
  have hscript : sampleLib.scriptPubkey sampleAddress = .ok (0x00 :: 0x14 :: sampleProgram) := by
    simp [sampleLib]
  have htxids : ∀ coin ∈ samplePlan.selected,
      ∃ txid, sampleLib.txidFromStr coin.txid = .ok txid := by
    intro coin hmem
    have htxid : coin.txid = sampleTxid := by
      simp only [samplePlan, List.mem_cons, List.not_mem_nil, or_false] at hmem
      rcases hmem with rfl | rfl <;> rfl
    exact ⟨List.replicate 32 0x11, by simp [sampleLib, htxid]⟩
  exact ⟨hplan, planned_spend_is_built hplan hsender hrecipient hscript hscript htxids⟩

end TxBtc
