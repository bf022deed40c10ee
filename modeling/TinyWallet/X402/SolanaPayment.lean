import TinyWallet.Library.Digests
import TinyWallet.Solana.Messages
import TinyWallet.X402.Wire

/-!
# Payments on Solana

A legacy message that moves the amount between the token accounts of payer and
recipient, with a memo that makes it one of a kind. The transaction is sent out
half signed: the first signature is the facilitator's to fill in.
-/

namespace SolanaPayment

open RustText Readers JsonValue Digests X402Wire SolanaMessages
open Solana (CompiledInstruction leBytes64 ataProgramB58)

/-- The functions of third-party crates that a payment on Solana needs. -/
structure Crates where
  sha256 : List UInt8 → Key
  base58Decode : String → Except String (List UInt8)
  onCurve : List UInt8 → Bool

variable (ext : Crates)

def splTokenProgram : String := "TokenkegQfeZyiNwAJbNbGKPFXCWuBvf9Ss623VQ5DA"

def splMemoProgram : String := "MemoSq4gqABAXKb96qnH8TysNcWxMyWCqXgDLGmfcHr"

def computeBudgetProgram : String := "ComputeBudget111111111111111111111111111111"

/-- A base58 text of exactly 32 bytes. -/
def b58To32 (addr : String) : Except X402Error Key :=
  match ext.base58Decode (trim addr) with
  | .error e => .error (.protocol ("invalid base58 '" ++ addr ++ "': " ++ e))
  | .ok bytes =>
    if h : bytes.length = 32 then .ok ⟨bytes, h⟩
    else .error (.protocol
      ("expected 32-byte key, got " ++ toString bytes.length ++ " for '" ++ addr ++ "'"))

/-- The bumps below `bump`, from the highest down. -/
def ataBelow (owner mint tokenProgram ataProgram : Key) : Nat → Except X402Error Key
  | 0 => .error (.protocol "ATA PDA derivation failed")
  | bump + 1 =>
    let candidate := ext.sha256 (owner.val ++ tokenProgram.val ++ mint.val ++ [UInt8.ofNat bump] ++
      ataProgram.val ++ utf8Bytes "ProgramDerivedAddress")
    if ext.onCurve candidate.val then ataBelow owner mint tokenProgram ataProgram bump
    else .ok candidate

def deriveAta (owner mint tokenProgram : Key) : Except X402Error Key := do
  let ataProgram ← b58To32 ext ataProgramB58
  ataBelow ext owner mint tokenProgram ataProgram 256

def feePayerOf (requirement : PaymentRequirements) : Except X402Error String :=
  match requirement.feePayerPubkey with
  | some feePayer => .ok feePayer
  | none => .error (.protocol "no fee_payer in payment requirements")

/-- `amount.parse()` of an option. -/
def parseAmount (requirement : PaymentRequirements) : Except X402Error Nat :=
  (parseU64 requirement.amount).mapError fun e =>
    .protocol ("invalid amount '" ++ requirement.amount ++ "': " ++ e)

/-- What `build_solana_payment` reads out of the option. -/
def paymentAccounts (ourPubkey : Key) (requirement : PaymentRequirements) :
    Except X402Error (Nat × PaymentAccounts) := do
  let amount ← parseAmount requirement
  let feePayer ← feePayerOf requirement
  let feePayerBytes ← b58To32 ext feePayer
  let payToBytes ← b58To32 ext requirement.payTo
  let mintBytes ← b58To32 ext requirement.asset
  let tokenProgram ← b58To32 ext splTokenProgram
  let computeBudget ← b58To32 ext computeBudgetProgram
  let memoProgram ← b58To32 ext splMemoProgram
  let srcAta ← deriveAta ext ourPubkey mintBytes tokenProgram
  let dstAta ← deriveAta ext payToBytes mintBytes tokenProgram
  .ok (amount, ⟨feePayerBytes, ourPubkey, srcAta, dstAta, mintBytes, tokenProgram, computeBudget,
    memoProgram⟩)

/-- `random_memo_nonce` of a fresh nonce. -/
def randomMemoNonce (nonce : Key) : List UInt8 := utf8Bytes (hexLower (nonce.val.take 16))

/-- The answer to `getLatestBlockhash`: the blockhash and the last height it is valid at. -/
def decodeBlockhash (answer : Json) : Option (String × Nat) := do
  let value ← (answer.structOf ["value"]).bind List.head?
  let fields ← value.structOf ["blockhash", "lastValidBlockHeight"]
  let blockhash ← (fields[0]?).bind Json.asStr
  let height ← (fields[1]?).bind (readUnsigned 64)
  some (blockhash, height.toNat)

/-- Two slots for signatures, the fee payer's still empty. -/
def solanaWire (signature message : List UInt8) : List UInt8 :=
  encodeShortvecUsize 2 ++ List.replicate 64 0 ++ signature ++ message

def solanaPayload (challenge : PaymentRequired) (requirement : PaymentRequirements)
    (wire : List UInt8) : PaymentPayload where
  x402Version := x402Version
  resource := some challenge.resource
  accepted := requirement
  payload := .solana ⟨String.ofList (Base64.encode wire)⟩
  extensions := ∅

/-- A transaction: its signatures and its message. -/
def readTransaction (text : String) : Option (List (List UInt8) × Message) :=
  (Base64.decode text.toList).bind <| whole do
    let signatures ← compactU16 >>= times (exactly 64)
    let message ← readMessage
    pure (signatures, message)

/-- The accounts of an option: whom it pays, in which token, and who pays the fee. -/
structure Reads (ourPubkey : Key) (requirement : PaymentRequirements) (amount : Nat)
    (accounts : PaymentAccounts) : Prop where
  amount : parseU64 requirement.amount = .ok amount
  ours : accounts.ourPubkey = ourPubkey
  feePayer : ∃ feePayer, requirement.feePayerPubkey = some feePayer ∧
    b58To32 ext feePayer = .ok accounts.feePayer
  mint : b58To32 ext requirement.asset = .ok accounts.mint
  tokenProgram : b58To32 ext splTokenProgram = .ok accounts.tokenProgram
  computeBudget : b58To32 ext computeBudgetProgram = .ok accounts.computeBudget
  memoProgram : b58To32 ext splMemoProgram = .ok accounts.memoProgram
  source : deriveAta ext ourPubkey accounts.mint accounts.tokenProgram = .ok accounts.srcAta
  destination : ∃ payTo, b58To32 ext requirement.payTo = .ok payTo ∧
    deriveAta ext payTo accounts.mint accounts.tokenProgram = .ok accounts.dstAta

variable {ext}

theorem paymentAccounts_ok {ourPubkey : Key} {requirement : PaymentRequirements} {amount : Nat}
    {accounts : PaymentAccounts}
    (h : paymentAccounts ext ourPubkey requirement = .ok (amount, accounts)) :
    Reads ext ourPubkey requirement amount accounts := by
  obtain ⟨amount', hamount, h⟩ := bind_ok_iff.mp h
  obtain ⟨feePayer, hfee, h⟩ := bind_ok_iff.mp h
  obtain ⟨feePayerBytes, hfeeBytes, h⟩ := bind_ok_iff.mp h
  obtain ⟨payTo, hpayTo, h⟩ := bind_ok_iff.mp h
  obtain ⟨mint, hmint, h⟩ := bind_ok_iff.mp h
  obtain ⟨tokenProgram, htoken, h⟩ := bind_ok_iff.mp h
  obtain ⟨computeBudget, hcompute, h⟩ := bind_ok_iff.mp h
  obtain ⟨memoProgram, hmemo, h⟩ := bind_ok_iff.mp h
  obtain ⟨srcAta, hsource, h⟩ := bind_ok_iff.mp h
  obtain ⟨dstAta, hdestination, h⟩ := bind_ok_iff.mp h
  have hpair := Except.ok.inj h
  obtain ⟨rfl, rfl⟩ := Prod.mk.inj hpair
  have hnamed : requirement.feePayerPubkey = some feePayer := by
    rw [feePayerOf] at hfee
    cases hpubkey : requirement.feePayerPubkey with
    | none =>
      rw [hpubkey] at hfee
      cases hfee
    | some found =>
      rw [hpubkey] at hfee
      exact congrArg some (Except.ok.inj hfee)
  exact ⟨mapError_ok hamount, rfl, ⟨feePayer, hnamed, hfeeBytes⟩, hmint, htoken, hcompute, hmemo,
    hsource, ⟨payTo, hpayTo, hdestination⟩⟩

/-- The transaction is read as the two signatures and the message that was
signed, if the memo can be counted. -/
theorem readTransaction_payload {challenge : PaymentRequired} {requirement : PaymentRequirements}
    {accounts : PaymentAccounts} {amount : Nat} {memoData signature : List UInt8} {blockhash : Key}
    (memo : memoData.length < 2 ^ 16) (signed : signature.length = 64) :
    ∃ proof, (solanaPayload challenge requirement (solanaWire signature
        (paymentMessage accounts amount memoData blockhash))).payload = .solana proof ∧
      readTransaction proof.transaction =
        some ([List.replicate 64 0, signature],
          x402Message accounts amount memoData blockhash) := by
  refine ⟨_, rfl, ?_⟩
  have fits := x402Message_fits accounts amount memo blockhash
  have hmessage : paymentMessage accounts amount memoData blockhash =
      (x402Message accounts amount memoData blockhash).bytes := by
    rw [← encodeLegacyMessage_eq fits]
    rfl
  have hcount : encodeShortvecUsize 2 = groups 2 := encodeShortvecUsize_eq (by decide)
  have heach : ∀ s ∈ [List.replicate 64 0, signature], Undoes (exactly 64) s (id s) := by
    intro s hs
    rcases List.mem_pair.mp hs with rfl | rfl
    · exact undoes_exactly List.length_replicate
    · exact undoes_exactly signed
  have hsignatures : Undoes (compactU16 >>= times (exactly 64)) [List.replicate 64 0, signature]
      (groups 2 ++ (List.replicate 64 0 ++ signature)) := by
    have htimes := undoes_times heach
    simp only [List.map_id, List.flatten_cons, List.flatten_nil, List.append_nil] at htimes
    exact undoes_counted (by decide) htimes
  have hbytes : solanaWire signature (paymentMessage accounts amount memoData blockhash) =
      (groups 2 ++ (List.replicate 64 0 ++ signature)) ++
        (x402Message accounts amount memoData blockhash).bytes := by
    rw [solanaWire, hmessage, hcount]
    simp only [List.append_assoc]
  rw [readTransaction, String.toList_ofList, Base64.decode_encode, Option.bind_some, hbytes]
  exact whole_undoes (undoes_bind hsignatures (undoes_map (undoes_readMessage fits)))

/-- The crates of the payment are the crates of the engine. -/
structure SameCrates (ext : Crates) (host : Engine.Host) : Prop where
  sha256 : ∀ bytes, host.ext.sha256 bytes = (ext.sha256 bytes).val
  base58Decode : host.ext.base58Decode = ext.base58Decode
  onCurve : host.ext.onCurve = ext.onCurve

section Engine

variable {host : Engine.Host}

theorem b58ToPubkey_of_b58To32 (same : SameCrates ext host) {addr : String} {key : Key}
    (plain : trim addr = addr) (h : b58To32 ext addr = .ok key) :
    Solana.b58ToPubkey host addr = .ok key.val := by
  rw [b58To32, plain] at h
  rw [Solana.b58ToPubkey, same.base58Decode]
  cases hdecode : ext.base58Decode addr with
  | error e =>
    rw [hdecode] at h
    cases h
  | ok bytes =>
    rw [hdecode] at h
    dsimp only at h ⊢
    split_ifs at h with hlength
    obtain rfl := Except.ok.inj h
    rw [if_pos hlength]

/-- The search goes through the same candidates. -/
theorem findBump_of_ataBelow (same : SameCrates ext host)
    {owner mint tokenProgram ataProgram account : Key} {bump : Nat}
    (h : ataBelow ext owner mint tokenProgram ataProgram bump = .ok account) :
    Solana.findBump host [owner.val, tokenProgram.val, mint.val].flatten ataProgram.val bump =
      .ok account.val := by
  induction bump with
  | zero => cases h
  | succ bump ih =>
    have hseeds : [owner.val, tokenProgram.val, mint.val].flatten =
        owner.val ++ tokenProgram.val ++ mint.val := by simp
    rw [ataBelow] at h
    rw [Solana.findBump, hseeds, same.onCurve, same.sha256]
    rw [hseeds] at ih
    by_cases hcurve : ext.onCurve (ext.sha256 (owner.val ++ tokenProgram.val ++ mint.val ++
        [UInt8.ofNat bump] ++ ataProgram.val ++ utf8Bytes "ProgramDerivedAddress")).val = true
    · rw [if_pos hcurve] at h
      rw [hcurve, if_neg Bool.true_eq_false.mp]
      exact ih h
    · rw [if_neg hcurve] at h
      obtain rfl := Except.ok.inj h
      rw [if_pos (Bool.eq_false_iff.mpr hcurve)]

/-- A payment uses the token accounts that a transfer of the wallet uses. -/
theorem associatedTokenAccount_of_deriveAta (same : SameCrates ext host)
    {owner mint tokenProgram account : Key}
    (program : b58To32 ext splTokenProgram = .ok tokenProgram)
    (h : deriveAta ext owner mint tokenProgram = .ok account) :
    Solana.associatedTokenAccount host owner.val mint.val = .ok account.val := by
  obtain ⟨ataProgram, hata, hbelow⟩ := bind_ok_iff.mp h
  have htoken := b58ToPubkey_of_b58To32 same (by decide +kernel) program
  have hprogram := b58ToPubkey_of_b58To32 same (by decide +kernel) hata
  refine bind_ok_iff.mpr ⟨tokenProgram.val, htoken, ?_⟩
  refine bind_ok_iff.mpr ⟨ataProgram.val, hprogram, ?_⟩
  exact findBump_of_ataBelow same hbelow

/-- Who reads a payment header finds a transaction with an empty slot for the
fee payer, our signature, and the message that moves the amount of the option
between the token accounts that the wallet itself derives. -/
theorem payment_reads_back (same : SameCrates ext host) {ourPubkey : Key}
    {requirement : PaymentRequirements} {amount : Nat} {accounts : PaymentAccounts}
    (read : paymentAccounts ext ourPubkey requirement = .ok (amount, accounts))
    {memoData signature : List UInt8} (memo : memoData.length < 2 ^ 16)
    (signed : signature.length = 64) (challenge : PaymentRequired) (blockhash : Key) :
    ∃ proof payTo, (solanaPayload challenge requirement (solanaWire signature
        (paymentMessage accounts amount memoData blockhash))).payload = .solana proof ∧
      readTransaction proof.transaction =
        some ([List.replicate 64 0, signature], x402Message accounts amount memoData blockhash) ∧
      parseU64 requirement.amount = .ok amount ∧ b58To32 ext requirement.payTo = .ok payTo ∧
      Solana.associatedTokenAccount host ourPubkey.val accounts.mint.val = .ok accounts.srcAta.val ∧
      Solana.associatedTokenAccount host payTo.val accounts.mint.val = .ok accounts.dstAta.val := by
  have reads := paymentAccounts_ok read
  obtain ⟨proof, hproof, htransaction⟩ := @readTransaction_payload challenge requirement accounts
    amount memoData signature blockhash memo signed
  obtain ⟨payTo, hpayTo, hdestination⟩ := reads.destination
  exact ⟨proof, payTo, hproof, htransaction, reads.amount, hpayTo,
    associatedTokenAccount_of_deriveAta same reads.tokenProgram reads.source,
    associatedTokenAccount_of_deriveAta same reads.tokenProgram hdestination⟩

end Engine

/-- The option of the sample challenge, with a memo of 32 digits. -/
def sampleCrates : Crates where
  sha256 := fun _ => sampleKey 7
  base58Decode := sampleExt.base58Decode
  onCurve := fun bytes => bytes.head? = some 0

def sampleEngine : Engine.Host :=
  { sampleHost with
    ext := { sampleExt with
      sha256 := fun _ => (sampleKey 7).val
      onCurve := fun bytes => bytes.head? = some 0 } }

theorem sample_accounts_read :
    (paymentAccounts sampleCrates (sampleKey 1) sampleOption).toOption.isSome = true := by
  decide +kernel

theorem sample_payment_reads_back : ∃ amount accounts proof payTo,
    readTransaction proof =
      some ([List.replicate 64 0, List.replicate 64 9],
        x402Message accounts amount (List.replicate 32 65) (sampleKey 3)) ∧
    parseU64 sampleOption.amount = .ok amount ∧
    Solana.associatedTokenAccount sampleEngine (sampleKey 1).val accounts.mint.val =
      .ok accounts.srcAta.val ∧
    Solana.associatedTokenAccount sampleEngine payTo accounts.mint.val =
      .ok accounts.dstAta.val := by
  cases hread : paymentAccounts sampleCrates (sampleKey 1) sampleOption with
  | error e =>
    have hsome := sample_accounts_read
    rw [hread] at hsome
    cases hsome
  | ok found =>
    have same : SameCrates sampleCrates sampleEngine := ⟨fun _ => rfl, rfl, rfl⟩
    obtain ⟨proof, payTo, -, htransaction, hamount, -, hsource, hdestination⟩ :=
      payment_reads_back same hread
        (show (List.replicate 32 (65 : UInt8)).length < 2 ^ 16 by decide)
        (show (List.replicate 64 (9 : UInt8)).length = 64 by decide) sampleChallenge (sampleKey 3)
    exact ⟨found.1, found.2, proof.transaction, payTo.val, htransaction, hamount, hsource,
      hdestination⟩

end SolanaPayment
