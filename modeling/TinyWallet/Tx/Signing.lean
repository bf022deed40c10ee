import TinyWallet.Tx.Planning

/-!
# Hashing and attaching, apart from each other

A transfer is built once to hash its inputs and again to attach signatures to
them. Both runs see the same coins and take the same ones in the same order, so
a signature ends up on the input whose digest it signs.

The sighash, the DER form of a signature, the address of a key and the
serialisation belong to the `bitcoin` crate, collected in `Signer`.
-/

namespace BtcSigning

open RustText Wire TxBtc BtcPlanning

structure Signer where
  /-- The P2WPKH address of a compressed key. -/
  p2wpkh : List UInt8 → Option String
  /-- The digest of one input: the transaction, the input's index, the script of
  the coin it spends and that coin's value. -/
  p2wpkhSignatureHash : Transaction → Nat → List UInt8 → Nat → Except String (List UInt8)
  /-- A compact signature read, brought to low `s` and written as DER. -/
  lowSDer : List UInt8 → Option (List UInt8)
  serializeHex : Transaction → String

/-- `EcdsaSighashType::All`. -/
def sighashAll : UInt8 := 1

variable (ext : Address.Crates) (lib : Crates) (crypto : Signer)

def checkControlsFrom (transfer : Transfer) (publicKey : List UInt8) : Except Error Unit :=
  match crypto.p2wpkh publicKey with
  | none => .error (.signing "not a valid compressed secp256k1 public key")
  | some derived =>
    if derived ≠ trim transfer.sender then
      .error (.signing "public key does not control the `from` address")
    else .ok ()

def sighashes (transfer : Transfer) (utxos : List Utxo) (publicKey : List UInt8) :
    Except Error (Selection × List (List UInt8)) := do
  checkControlsFrom crypto transfer publicKey
  let (tx, selection) ← transfer.build ext lib utxos
  let sender ← (Address.Btc.validateSender ext transfer.sender).mapError .address
  let senderScript ← scriptPubkey lib sender
  let digests ← selection.inputs.zipIdx.mapM fun coin =>
    (crypto.p2wpkhSignatureHash tx coin.2 senderScript coin.1.value).mapError fun e =>
      Error.signing ("sighash failed: " ++ e)
  .ok (selection, digests)

/-- An input with its witness in place. -/
def witnessed (publicKey : List UInt8) (signed : TxIn × List UInt8) : Except Error TxIn :=
  match crypto.lowSDer signed.2 with
  | none => .error (.signing "signature is not a valid secp256k1 (r, s) pair")
  | some der => .ok { signed.1 with witness := [der ++ [sighashAll], publicKey] }

def attachSignatures (transfer : Transfer) (utxos : List Utxo) (publicKey : List UInt8)
    (signatures : List (List UInt8)) : Except Error String := do
  checkControlsFrom crypto transfer publicKey
  let (tx, selection) ← transfer.build ext lib utxos
  if signatures.length ≠ selection.inputs.length then
    .error (.signing ("expected " ++ toString selection.inputs.length ++ " signatures for " ++
      toString selection.inputs.length ++ " inputs, got " ++ toString signatures.length))
  else do
    let input ← (tx.input.zip signatures).mapM (witnessed crypto publicKey)
    .ok (crypto.serializeHex { tx with input := input })

theorem selectLoop_ok {target : Nat} {selection : Selection} (rest : List Utxo) :
    ∀ {chosen : List Utxo} {total : Nat},
      selectLoop target rest chosen total = .ok selection →
        ∃ more, more <+: rest ∧ selection.inputs = chosen ++ more ∧
          target ≤ total + coinTotal more ∧
          selection.change = if dustThreshold < total + coinTotal more - target then
            total + coinTotal more - target else 0 := by
  induction rest with
  | nil =>
    intro chosen total h
    cases h
  | cons coin rest ih =>
    intro chosen total h
    simp only [selectLoop] at h
    split_ifs at h with hexcess hreached hdust
    · cases h
      refine ⟨[coin], by simp, rfl, by simpa using hreached, ?_⟩
      rw [coinTotal_cons, coinTotal_nil, Nat.add_zero, if_pos hdust]
    · cases h
      refine ⟨[coin], by simp, rfl, by simpa using hreached, ?_⟩
      rw [coinTotal_cons, coinTotal_nil, Nat.add_zero, if_neg hdust]
    · obtain ⟨more, hahead, hinputs, hcovers, hchange⟩ := ih h
      refine ⟨coin :: more, by simpa using hahead, by simpa using hinputs, ?_, ?_⟩
      · rw [coinTotal_cons]
        omega
      · rw [coinTotal_cons, ← Nat.add_assoc]
        exact hchange

/-- The loop lacks funds exactly when all coins together do. -/
theorem selectLoop_insufficient_iff {target : Nat} (htarget : target < 2 ^ 64)
    (rest : List Utxo) : ∀ {chosen : List Utxo} {total : Nat}, total < target →
      ((∃ available required,
          selectLoop target rest chosen total = .error (.insufficientFunds available required)) ↔
        total + coinTotal rest < target) := by
  induction rest with
  | nil =>
    intro chosen total htotal
    simp only [selectLoop, coinTotal_nil, Nat.add_zero, htotal, iff_true]
    exact ⟨_, _, rfl⟩
  | cons coin rest ih =>
    intro chosen total htotal
    rw [coinTotal_cons]
    by_cases hexcess : 2 ^ 64 ≤ total + coin.value
    · simp only [selectLoop, if_pos hexcess, Except.error.injEq, reduceCtorEq, exists_false,
        false_iff]
      omega
    · by_cases hreached : target ≤ total + coin.value
      · simp only [selectLoop, if_neg hexcess, if_pos hreached, reduceCtorEq, exists_false,
          false_iff]
        omega
      · simp only [selectLoop, if_neg hexcess, if_neg hreached]
        rw [ih (by omega), Nat.add_assoc]

/-- Everything a successful build has checked and made. -/
structure Built (transfer : Transfer) (utxos : List Utxo) (tx : Transaction)
    (selection : Selection) (senderScript recipientScript : List UInt8) : Prop where
  sender : ∃ text, Address.Btc.validateSender ext transfer.sender = .ok text ∧
    lib.scriptPubkey text = .ok senderScript
  recipient : ∃ text, Address.Btc.validate ext transfer.recipient = .ok text ∧
    lib.scriptPubkey text = .ok recipientScript
  selected : selectCoins utxos (transfer.amount + transfer.fee) = .ok selection
  inputs : List.Forall₂ (Spends lib) selection.inputs tx.input
  outputs : tx.output = plannedOutputs transfer.amount selection.change senderScript recipientScript

variable {ext lib crypto}

theorem txIn_ok {coin : Utxo} {input : TxIn} (h : txIn lib coin = .ok input) :
    Spends lib coin input := by
  simp only [txIn] at h
  cases htxid : lib.txidFromStr coin.txid with
  | error e => simp [htxid] at h
  | ok txid =>
    simp only [htxid, Except.ok.injEq] at h
    subst h
    exact ⟨htxid, rfl⟩

theorem txIn_error {coin : Utxo} {e : Error} (h : txIn lib coin = .error e) :
    ∃ field reason, e = .invalidField field reason := by
  simp only [txIn] at h
  cases htxid : lib.txidFromStr coin.txid with
  | error text =>
    simp only [htxid, Except.error.injEq] at h
    exact ⟨_, _, h.symm⟩
  | ok txid => simp [htxid] at h

theorem mapM_txIn_error {coins : List Utxo} {e : Error} (h : coins.mapM (txIn lib) = .error e) :
    ∃ field reason, e = .invalidField field reason := by
  induction coins with
  | nil => cases h
  | cons coin rest ih =>
    rw [List.mapM_cons] at h
    cases hfirst : txIn lib coin with
    | error text =>
      simp only [hfirst, bind, Except.bind, Except.error.injEq] at h
      subst h
      exact txIn_error hfirst
    | ok input =>
      cases hrest : rest.mapM (txIn lib) with
      | error text =>
        simp only [hfirst, hrest, bind, Except.bind, Except.error.injEq] at h
        subst h
        exact ih hrest
      | ok inputs => simp [hfirst, hrest, bind, Except.bind, pure, Except.pure] at h

theorem build_built {transfer : Transfer} {utxos : List Utxo} {tx : Transaction}
    {selection : Selection} (h : transfer.build ext lib utxos = .ok (tx, selection)) :
    ∃ senderScript recipientScript,
      Built ext lib transfer utxos tx selection senderScript recipientScript := by
  simp only [Transfer.build] at h
  obtain ⟨sender, hsender, h⟩ := bind_ok_iff.mp h
  obtain ⟨recipient, hrecipient, h⟩ := bind_ok_iff.mp h
  split_ifs at h with hexcess
  obtain ⟨selected, hselected, h⟩ := bind_ok_iff.mp h
  obtain ⟨senderScript, hsenderScript, h⟩ := bind_ok_iff.mp h
  obtain ⟨recipientScript, hrecipientScript, h⟩ := bind_ok_iff.mp h
  obtain ⟨input, hinput, h⟩ := bind_ok_iff.mp h
  cases h
  refine ⟨senderScript, recipientScript, ⟨sender, mapError_ok hsender, mapError_ok hsenderScript⟩,
    ⟨recipient, mapError_ok hrecipient, mapError_ok hrecipientScript⟩, hselected, ?_, rfl⟩
  exact (forall₂_of_mapM_ok hinput).imp fun _ _ => txIn_ok

theorem selectCoins_ok {utxos : List Utxo} {target : Nat} {selection : Selection}
    (h : selectCoins utxos target = .ok selection) :
    selection.inputs.Subperm utxos ∧ target ≤ coinTotal selection.inputs ∧
      selection.change = if dustThreshold < coinTotal selection.inputs - target then
        coinTotal selection.inputs - target else 0 := by
  obtain ⟨more, hahead, hinputs, hcovers, hchange⟩ := selectLoop_ok (largestFirst utxos) h
  rw [List.nil_append] at hinputs
  rw [Nat.zero_add] at hcovers hchange
  rw [hinputs]
  exact ⟨hahead.sublist.subperm.trans (largestFirst_perm utxos).subperm, hcovers, hchange⟩

/-- What a transaction does with the value of its inputs. -/
structure Conserves (transfer : Transfer) (utxos : List Utxo) (tx : Transaction)
    (selection : Selection) (senderScript recipientScript : List UInt8) : Prop where
  coins : selection.inputs.Subperm utxos
  payment : tx.output.head? = some ⟨transfer.amount, recipientScript⟩
  change : tx.output.tail =
    if dustThreshold < coinTotal selection.inputs - transfer.amount - transfer.fee then
      [⟨coinTotal selection.inputs - transfer.amount - transfer.fee, senderScript⟩] else []
  covered : outputTotal tx.output + transfer.fee ≤ coinTotal selection.inputs
  kept : coinTotal selection.inputs ≤ outputTotal tx.output + transfer.fee + dustThreshold

theorem Built.conserves {transfer : Transfer} {utxos : List Utxo} {tx : Transaction}
    {selection : Selection} {senderScript recipientScript : List UInt8}
    (h : Built ext lib transfer utxos tx selection senderScript recipientScript) :
    Conserves transfer utxos tx selection senderScript recipientScript := by
  obtain ⟨hcoins, hcovers, hchange⟩ := selectCoins_ok h.selected
  have hsurplus : coinTotal selection.inputs - transfer.amount - transfer.fee =
      coinTotal selection.inputs - (transfer.amount + transfer.fee) := by omega
  have houtput : outputTotal tx.output = transfer.amount + selection.change := by
    rw [h.outputs, outputTotal_planned]
  refine ⟨hcoins, ?_, ?_, ?_, ?_⟩
  · rw [h.outputs]
    rfl
  · rw [h.outputs, hsurplus, plannedOutputs, List.tail_cons, hchange]
    by_cases hdust : dustThreshold < coinTotal selection.inputs - (transfer.amount + transfer.fee)
    · have hpositive : 0 < coinTotal selection.inputs - (transfer.amount + transfer.fee) :=
        Nat.zero_lt_of_lt hdust
      simp only [if_pos hdust, if_pos hpositive]
    · simp only [if_neg hdust, Nat.lt_irrefl, if_false]
  · rw [houtput, hchange]
    split_ifs <;> omega
  · rw [houtput, hchange]
    split_ifs <;> omega

/-- With valid addresses, a build lacks funds exactly when all coins together do. -/
theorem build_insufficient_iff {transfer : Transfer} {utxos : List Utxo}
    (hsender : ∃ text, Address.Btc.validateSender ext transfer.sender = .ok text)
    (hrecipient : ∃ text, Address.Btc.validate ext transfer.recipient = .ok text)
    (hpositive : 0 < transfer.amount + transfer.fee)
    (hfits : transfer.amount + transfer.fee < 2 ^ 64) :
    (∃ available required,
        transfer.build ext lib utxos = .error (.insufficientFunds available required)) ↔
      coinTotal utxos < transfer.amount + transfer.fee := by
  obtain ⟨sender, hsender⟩ := hsender
  obtain ⟨recipient, hrecipient⟩ := hrecipient
  have htotal : coinTotal (largestFirst utxos) = coinTotal utxos :=
    ((largestFirst_perm utxos).map Utxo.value).sum_eq
  have hloop := @selectLoop_insufficient_iff _ hfits (largestFirst utxos) [] 0 hpositive
  rw [Nat.zero_add, htotal] at hloop
  rw [← hloop]
  simp only [Transfer.build, hsender, hrecipient, Except.mapError, bind, Except.bind,
    if_neg (Nat.not_le.mpr hfits), selectCoins]
  cases selectLoop (transfer.amount + transfer.fee) (largestFirst utxos) [] 0 with
  | error e => simp only [Except.error.injEq]
  | ok selection =>
    -- whatever fails after the selection is another error
    simp only [reduceCtorEq, exists_false, iff_false, not_exists]
    intro available required
    simp only [scriptPubkey]
    cases lib.scriptPubkey sender with
    | error text => simp [Except.mapError]
    | ok senderScript =>
    cases lib.scriptPubkey recipient with
    | error text => simp [Except.mapError]
    | ok recipientScript =>
    simp only [Except.mapError]
    cases hinputs : selection.inputs.mapM (txIn lib) with
    | error e =>
      have hfield := mapM_txIn_error hinputs
      rintro h
      cases h
      obtain ⟨field, reason, habsurd⟩ := hfield
      cases habsurd
    | ok input => simp

/-- Digest `i` is of input `i`, which spends coin `i`, and of that coin's value. -/
def DigestsAligned (lib : Crates) (crypto : Signer) (tx : Transaction) (selection : Selection)
    (senderScript : List UInt8) (digests : List (List UInt8)) : Prop :=
  digests.length = selection.inputs.length ∧ tx.input.length = selection.inputs.length ∧
    ∀ i coin, selection.inputs[i]? = some coin → ∃ input digest, tx.input[i]? = some input ∧
      digests[i]? = some digest ∧ Spends lib coin input ∧
      crypto.p2wpkhSignatureHash tx i senderScript coin.value = .ok digest

/-- The same transaction with signature `i` in the witness of input `i`. -/
def WitnessesAligned (crypto : Signer) (tx signed : Transaction) (publicKey : List UInt8)
    (signatures : List (List UInt8)) : Prop :=
  signed = { tx with input := signed.input } ∧ signed.input.length = tx.input.length ∧
    signatures.length = tx.input.length ∧
    ∀ (i : Nat) (input : TxIn), tx.input[i]? = some input → ∃ signature der,
      signatures[i]? = some signature ∧ crypto.lowSDer signature = some der ∧
      signed.input[i]? = some { input with witness := [der ++ [sighashAll], publicKey] }

theorem sighashes_aligned {transfer : Transfer} {utxos : List Utxo} {publicKey : List UInt8}
    {selection : Selection} {digests : List (List UInt8)}
    (h : sighashes ext lib crypto transfer utxos publicKey = .ok (selection, digests)) :
    ∃ tx senderScript recipientScript, transfer.build ext lib utxos = .ok (tx, selection) ∧
      Built ext lib transfer utxos tx selection senderScript recipientScript ∧
      DigestsAligned lib crypto tx selection senderScript digests := by
  simp only [sighashes] at h
  obtain ⟨-, -, h⟩ := bind_ok_iff.mp h
  obtain ⟨⟨tx, selected⟩, hbuild, h⟩ := bind_ok_iff.mp h
  obtain ⟨sender, hsender, h⟩ := bind_ok_iff.mp h
  obtain ⟨script, hscript, h⟩ := bind_ok_iff.mp h
  obtain ⟨found, hdigests, h⟩ := bind_ok_iff.mp h
  cases h
  obtain ⟨senderScript, recipientScript, hbuilt⟩ := build_built hbuild
  have hsame : script = senderScript := by
    obtain ⟨text, hvalid, htext⟩ := hbuilt.sender
    rw [mapError_ok hsender] at hvalid
    cases hvalid
    have hread := mapError_ok hscript
    rw [htext] at hread
    exact (Except.ok.inj hread).symm
  subst hsame
  have hhashed := forall₂_of_mapM_ok hdigests
  refine ⟨tx, script, recipientScript, hbuild, hbuilt, ?_, hbuilt.inputs.length_eq.symm, ?_⟩
  · rw [← hhashed.length_eq, List.length_zipIdx]
  · intro i coin hcoin
    obtain ⟨input, hinput, hspends⟩ := getElem?_of_forall₂ hbuilt.inputs hcoin
    have hindexed : selected.inputs.zipIdx[i]? = some (coin, i) := by
      rw [List.getElem?_zipIdx, hcoin]
      simp
    obtain ⟨digest, hdigest, hhash⟩ := getElem?_of_forall₂ hhashed hindexed
    exact ⟨input, digest, hinput, hdigest, hspends, mapError_ok hhash⟩

theorem witnessed_ok {publicKey : List UInt8} {input signed : TxIn} {signature : List UInt8}
    (h : witnessed crypto publicKey (input, signature) = .ok signed) :
    ∃ der, crypto.lowSDer signature = some der ∧
      signed = { input with witness := [der ++ [sighashAll], publicKey] } := by
  simp only [witnessed] at h
  cases hder : crypto.lowSDer signature with
  | none => simp [hder] at h
  | some der =>
    simp only [hder, Except.ok.injEq] at h
    exact ⟨der, rfl, h.symm⟩

theorem attachSignatures_aligned {transfer : Transfer} {utxos : List Utxo}
    {publicKey : List UInt8} {signatures : List (List UInt8)} {hex : String}
    (h : attachSignatures ext lib crypto transfer utxos publicKey signatures = .ok hex) :
    ∃ tx selection signed, transfer.build ext lib utxos = .ok (tx, selection) ∧
      hex = crypto.serializeHex signed ∧
      WitnessesAligned crypto tx signed publicKey signatures := by
  simp only [attachSignatures] at h
  obtain ⟨-, -, h⟩ := bind_ok_iff.mp h
  obtain ⟨⟨tx, selection⟩, hbuild, h⟩ := bind_ok_iff.mp h
  split_ifs at h with hcount
  obtain ⟨input, hinput, h⟩ := bind_ok_iff.mp h
  cases h
  obtain ⟨senderScript, recipientScript, hbuilt⟩ := build_built hbuild
  have hlength : signatures.length = tx.input.length := by
    rw [← hbuilt.inputs.length_eq]
    exact not_not.mp hcount
  have hsigned := forall₂_of_mapM_ok hinput
  refine ⟨tx, selection, { tx with input := input }, hbuild, rfl, rfl, ?_, hlength, ?_⟩
  · rw [← hsigned.length_eq, List.length_zip, hlength, Nat.min_self]
  · intro i bare hbare
    have hi : i < signatures.length := by
      rw [hlength]
      exact (List.getElem?_eq_some_iff.mp hbare).1
    have hzip : (tx.input.zip signatures)[i]? = some (bare, signatures[i]) := by
      rw [List.getElem?_zip_eq_some]
      exact ⟨hbare, List.getElem?_eq_getElem hi⟩
    obtain ⟨done, hdone, hwitnessed⟩ := getElem?_of_forall₂ hsigned hzip
    obtain ⟨der, hder, hsame⟩ := witnessed_ok hwitnessed
    exact ⟨signatures[i], der, List.getElem?_eq_getElem hi, hder, by rw [hdone, hsame]⟩

/-- Building conserves value, refuses exactly for lack of funds, and hashing and
attaching meet on the same inputs. -/
theorem build_conserves_and_aligns (ext : Address.Crates) (lib : Crates) (crypto : Signer)
    (transfer : Transfer) (utxos : List Utxo) :
    (∀ tx selection, transfer.build ext lib utxos = .ok (tx, selection) →
      ∃ senderScript recipientScript,
        Built ext lib transfer utxos tx selection senderScript recipientScript ∧
          Conserves transfer utxos tx selection senderScript recipientScript) ∧
    ((∃ text, Address.Btc.validateSender ext transfer.sender = .ok text) →
      (∃ text, Address.Btc.validate ext transfer.recipient = .ok text) →
      0 < transfer.amount + transfer.fee → transfer.amount + transfer.fee < 2 ^ 64 →
      ((∃ available required,
          transfer.build ext lib utxos = .error (.insufficientFunds available required)) ↔
        coinTotal utxos < transfer.amount + transfer.fee)) ∧
    ∀ publicKey selection digests signatures hex,
      sighashes ext lib crypto transfer utxos publicKey = .ok (selection, digests) →
      attachSignatures ext lib crypto transfer utxos publicKey signatures = .ok hex →
      ∃ tx senderScript recipientScript signed,
        transfer.build ext lib utxos = .ok (tx, selection) ∧
        Built ext lib transfer utxos tx selection senderScript recipientScript ∧
        DigestsAligned lib crypto tx selection senderScript digests ∧
        hex = crypto.serializeHex signed ∧
        WitnessesAligned crypto tx signed publicKey signatures := by
  refine ⟨?_, ?_, ?_⟩
  · intro tx selection hbuild
    obtain ⟨senderScript, recipientScript, hbuilt⟩ := build_built hbuild
    exact ⟨senderScript, recipientScript, hbuilt, hbuilt.conserves⟩
  · intro hsender hrecipient hpositive hfits
    exact build_insufficient_iff hsender hrecipient hpositive hfits
  · intro publicKey selection digests signatures hex hhashes hattached
    obtain ⟨tx, senderScript, recipientScript, hbuild, hbuilt, hdigests⟩ :=
      sighashes_aligned hhashes
    obtain ⟨tx', selection', signed, hbuild', hhex, hwitnesses⟩ :=
      attachSignatures_aligned hattached
    rw [hbuild] at hbuild'
    cases hbuild'
    exact ⟨tx, senderScript, recipientScript, signed, hbuild, hbuilt, hdigests, hhex, hwitnesses⟩

def samplePublicKey : List UInt8 := 0x02 :: List.replicate 32 0x79

/-- A signer for one key. Its digest spells out the outpoint, the index, the script
and the value it commits to. -/
def sampleSigner : Signer where
  p2wpkh := fun key => if key = samplePublicKey then some sampleAddress else none
  p2wpkhSignatureHash := fun tx i script value =>
    match tx.input[i]? with
    | none => .error "the index has no input"
    | some input => .ok (input.previousOutput.txid ++
        [UInt8.ofNat input.previousOutput.vout, UInt8.ofNat i] ++ script ++
        [UInt8.ofNat (value / 256), UInt8.ofNat value])
  lowSDer := fun signature => if signature.length = 64 then some (0x30 :: signature) else none
  serializeHex := fun tx => hexLower (tx.input.flatMap fun input => input.witness.flatten)

def sampleSignatures : List (List UInt8) := [List.replicate 64 1, List.replicate 64 2]

def sampleTransfer : Transfer := ⟨sampleAddress, sampleAddress, 40000, 4180⟩

theorem ok_of_isOk {ε α : Type} {x : Except ε α} (h : x.isOk = true) : ∃ a, x = .ok a := by
  cases x with
  | error e => cases h
  | ok a => exact ⟨a, rfl⟩

theorem sample_build_conserves :
    ∃ tx selection senderScript recipientScript signed digests hex,
      sighashes sampleExt sampleLib sampleSigner sampleTransfer sampleUtxos samplePublicKey =
        .ok (selection, digests) ∧
      attachSignatures sampleExt sampleLib sampleSigner sampleTransfer sampleUtxos samplePublicKey
        sampleSignatures = .ok hex ∧
      Built sampleExt sampleLib sampleTransfer sampleUtxos tx selection senderScript
        recipientScript ∧
      DigestsAligned sampleLib sampleSigner tx selection senderScript digests ∧
      hex = sampleSigner.serializeHex signed ∧
      WitnessesAligned sampleSigner tx signed samplePublicKey sampleSignatures ∧
      (∃ senderScript recipientScript,
        Conserves sampleTransfer sampleUtxos tx selection senderScript recipientScript) ∧
      ∃ available required, Transfer.build sampleExt sampleLib
        { sampleTransfer with amount := 45000 } sampleUtxos =
          .error (.insufficientFunds available required) := by
  have hhashed : (sighashes sampleExt sampleLib sampleSigner sampleTransfer sampleUtxos
      samplePublicKey).isOk = true := by
    simp only [sighashes, Transfer.build, selectCoins, largestFirst]
    rw [List.mergeSort_of_pairwise (by decide)]
    decide +kernel
  have hattached : (attachSignatures sampleExt sampleLib sampleSigner sampleTransfer sampleUtxos
      samplePublicKey sampleSignatures).isOk = true := by
    simp only [attachSignatures, Transfer.build, selectCoins, largestFirst]
    rw [List.mergeSort_of_pairwise (by decide)]
    decide +kernel
  obtain ⟨⟨selection, digests⟩, hhashes⟩ := ok_of_isOk hhashed
  obtain ⟨hex, hattach⟩ := ok_of_isOk hattached
  have hwhole := build_conserves_and_aligns sampleExt sampleLib sampleSigner
  obtain ⟨hconserves, -, haligns⟩ := hwhole sampleTransfer sampleUtxos
  obtain ⟨tx, senderScript, recipientScript, signed, hbuild, hbuilt, hdigests, hhex, hwitnesses⟩ :=
    haligns samplePublicKey selection digests sampleSignatures hex hhashes hattach
  obtain ⟨_, _, -, hkept⟩ := hconserves tx selection hbuild
  have hlacking := (hwhole { sampleTransfer with amount := 45000 } sampleUtxos).2.1
    ⟨sampleAddress, by decide +kernel⟩ ⟨sampleAddress, by decide +kernel⟩ (by decide) (by decide)
  exact ⟨tx, selection, senderScript, recipientScript, signed, digests, hex, hhashes, hattach,
    hbuilt, hdigests, hhex, hwitnesses, ⟨_, _, hkept⟩, hlacking.mpr (by decide)⟩

end BtcSigning
