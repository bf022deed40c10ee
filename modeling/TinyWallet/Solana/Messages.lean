import TinyWallet.Engine.Solana
import TinyWallet.Library.Base58
import TinyWallet.Library.Readers
import TinyWallet.Tx.Evm

/-!
# Solana legacy messages

Three encoders write the same layout by hand: the header, the account keys, the
blockhash and the instructions, each list behind a compact length. A reference
decoder reads a message back field by field; it undoes all three.
-/

namespace SolanaMessages

open RustText Readers Solana

/-- `to_le_bytes` of a 32-bit value. -/
def leBytes32 (n : Nat) : List UInt8 := (List.range 4).map fun i => UInt8.ofNat (n >>> (8 * i))

def systemTransferIndex : Nat := 2

structure NativeTransfer where
  sender : String
  recipient : String
  lamports : BitVec 64
  recentBlockhash : String
deriving DecidableEq

def decodeBlockhash (ext : Address.Crates) (raw : String) : Except TxEvm.Error (List UInt8) :=
  match ext.base58Decode (trim raw) with
  | .error e => .error (.invalidField "recent_blockhash" ("not base58: " ++ e))
  | .ok decoded =>
    if decoded.length = 32 then .ok decoded
    else .error (.invalidField "recent_blockhash"
      ("expected 32 bytes, got " ++ toString decoded.length))

def NativeTransfer.message (ext : Address.Crates) (tx : NativeTransfer) :
    Except TxEvm.Error (List UInt8) := do
  let sender ← (Address.Solana.decode ext tx.sender).mapError .address
  let recipient ← (Address.Solana.decode ext tx.recipient).mapError .address
  let blockhash ← decodeBlockhash ext tx.recentBlockhash
  let data := leBytes32 systemTransferIndex ++ leBytes64 tx.lamports.toNat
  .ok ([1, 0, 1] ++ encodeShortvec 3 ++ sender ++ recipient ++ systemProgramId ++ blockhash ++
    encodeShortvec 1 ++ [2] ++ encodeShortvec 2 ++ [0, 1] ++
    encodeShortvec (min data.length (2 ^ 16 - 1)) ++ data)

/-- `encode_shortvec` over a 64-bit value, which has at most ten groups. -/
def encodeShortvecUsize (value : Nat) : List UInt8 := encodeShortvecFuel 10 value

def encodeInstruction (ins : CompiledInstruction) : List UInt8 :=
  [ins.programIdIndex] ++ encodeShortvecUsize ins.accounts.length ++ ins.accounts ++
    encodeShortvecUsize ins.data.length ++ ins.data

def encodeLegacyMessage (header : List UInt8) (accountKeys : List (List UInt8))
    (recentBlockhash : List UInt8) (instructions : List CompiledInstruction) : List UInt8 :=
  header ++ encodeShortvecUsize accountKeys.length ++ accountKeys.flatten ++ recentBlockhash ++
    encodeShortvecUsize instructions.length ++ (instructions.map encodeInstruction).flatten

def defaultComputeUnits : Nat := 50000

def defaultComputeUnitPrice : Nat := 1000

def usdcDecimals : UInt8 := 6

def buildSetComputeUnitLimit (programIdx : UInt8) (units : Nat) : CompiledInstruction :=
  ⟨programIdx, [], [2] ++ leBytes32 units⟩

def buildSetComputeUnitPrice (programIdx : UInt8) (microLamports : Nat) : CompiledInstruction :=
  ⟨programIdx, [], [3] ++ leBytes64 microLamports⟩

def buildTransferChecked (tokenProgramIdx srcIdx mintIdx dstIdx authorityIdx : UInt8)
    (amount : Nat) (decimals : UInt8) : CompiledInstruction :=
  ⟨tokenProgramIdx, [srcIdx, mintIdx, dstIdx, authorityIdx],
    [12] ++ leBytes64 amount ++ [decimals]⟩

def buildMemo (programIdx : UInt8) (memoData : List UInt8) : CompiledInstruction :=
  ⟨programIdx, [], memoData⟩

abbrev Key := { bytes : List UInt8 // bytes.length = 32 }

/-- The accounts of a payment, in the order its message lists them. -/
structure PaymentAccounts where
  feePayer : Key
  ourPubkey : Key
  srcAta : Key
  dstAta : Key
  mint : Key
  tokenProgram : Key
  computeBudget : Key
  memoProgram : Key

def PaymentAccounts.keys (accounts : PaymentAccounts) : List (List UInt8) :=
  [accounts.feePayer, accounts.ourPubkey, accounts.srcAta, accounts.dstAta, accounts.mint,
    accounts.tokenProgram, accounts.computeBudget, accounts.memoProgram].map Subtype.val

def paymentInstructions (amount : Nat) (memoData : List UInt8) : List CompiledInstruction :=
  [buildSetComputeUnitLimit 6 defaultComputeUnits,
    buildSetComputeUnitPrice 6 defaultComputeUnitPrice,
    buildTransferChecked 5 2 4 3 1 amount usdcDecimals,
    buildMemo 7 memoData]

/-- The message that `build_solana_payment` signs. -/
def paymentMessage (accounts : PaymentAccounts) (amount : Nat) (memoData blockhash : List UInt8) :
    List UInt8 :=
  encodeLegacyMessage [2, 0, 4] accounts.keys blockhash (paymentInstructions amount memoData)

structure Message where
  header : List UInt8
  accountKeys : List (List UInt8)
  recentBlockhash : List UInt8
  instructions : List CompiledInstruction
deriving DecidableEq, Repr

def readInstruction : Reader CompiledInstruction := do
  let programIdIndex ← byte
  let accounts ← compactU16 >>= exactly
  let data ← compactU16 >>= exactly
  pure ⟨programIdIndex, accounts, data⟩

def readMessage : Reader Message := do
  let header ← exactly 3
  let accountKeys ← compactU16 >>= times (exactly 32)
  let recentBlockhash ← exactly 32
  let instructions ← compactU16 >>= times readInstruction
  pure ⟨header, accountKeys, recentBlockhash, instructions⟩

def decodeMessage (bytes : List UInt8) : Option Message := whole readMessage bytes

/-- Every list of the message has a compact length. -/
structure Message.Fits (message : Message) : Prop where
  header : message.header.length = 3
  keyCount : message.accountKeys.length < 2 ^ 16
  keys : ∀ key ∈ message.accountKeys, key.length = 32
  blockhash : message.recentBlockhash.length = 32
  instructionCount : message.instructions.length < 2 ^ 16
  accounts : ∀ ins ∈ message.instructions, ins.accounts.length < 2 ^ 16
  data : ∀ ins ∈ message.instructions, ins.data.length < 2 ^ 16

def instructionBytes (ins : CompiledInstruction) : List UInt8 :=
  [ins.programIdIndex] ++ groups ins.accounts.length ++ ins.accounts ++ groups ins.data.length ++
    ins.data

/-- The layout, over lengths in their shortest spelling. -/
def Message.bytes (message : Message) : List UInt8 :=
  message.header ++ groups message.accountKeys.length ++ message.accountKeys.flatten ++
    message.recentBlockhash ++ groups message.instructions.length ++
    (message.instructions.map instructionBytes).flatten

theorem undoes_counted {α : Type} {f : Nat → Reader α} {count : Nat} {a : α} {bytes : List UInt8}
    (fits : count < 2 ^ 16) (h : Undoes (f count) a bytes) :
    Undoes (compactU16 >>= f) a (groups count ++ bytes) :=
  undoes_bind (undoes_compactU16 fits) h

theorem undoes_readInstruction {ins : CompiledInstruction} (accounts : ins.accounts.length < 2 ^ 16)
    (data : ins.data.length < 2 ^ 16) : Undoes readInstruction ins (instructionBytes ins) := by
  have haccounts := undoes_counted accounts (undoes_exactly (rfl : ins.accounts.length = _))
  have hdata := undoes_counted data (undoes_exactly (rfl : ins.data.length = _))
  have hbytes : instructionBytes ins = [ins.programIdIndex] ++
      ((groups ins.accounts.length ++ ins.accounts) ++ (groups ins.data.length ++ ins.data)) := by
    simp only [instructionBytes, List.append_assoc]
  rw [hbytes]
  exact undoes_bind (undoes_byte _) (undoes_bind haccounts (undoes_map hdata))

theorem undoes_readMessage {message : Message} (fits : message.Fits) :
    Undoes readMessage message message.bytes := by
  have hkeys : Undoes (compactU16 >>= times (exactly 32)) message.accountKeys
      (groups message.accountKeys.length ++ message.accountKeys.flatten) := by
    have heach : ∀ key ∈ message.accountKeys, Undoes (exactly 32) key (id key) :=
      fun key hkey => undoes_exactly (fits.keys key hkey)
    have htimes := undoes_times heach
    rw [List.map_id] at htimes
    exact undoes_counted fits.keyCount htimes
  have hinstructions := undoes_counted fits.instructionCount
    (undoes_times fun ins hins => undoes_readInstruction (fits.accounts ins hins)
      (fits.data ins hins))
  have hbytes : message.bytes = message.header ++
      ((groups message.accountKeys.length ++ message.accountKeys.flatten) ++
        (message.recentBlockhash ++ (groups message.instructions.length ++
          (message.instructions.map instructionBytes).flatten))) := by
    simp only [Message.bytes, List.append_assoc]
  rw [hbytes]
  refine undoes_bind (undoes_exactly fits.header) (undoes_bind hkeys ?_)
  exact undoes_bind (undoes_exactly fits.blockhash) (undoes_map hinstructions)

theorem decodeMessage_bytes {message : Message} (fits : message.Fits) :
    decodeMessage message.bytes = some message :=
  whole_undoes (undoes_readMessage fits)

theorem encodeShortvecFuel_eq (rounds : Nat) {n : Nat} (h : n < 128 ^ (rounds + 1)) :
    encodeShortvecFuel (rounds + 1) n = groups n := by
  have hmask : ∀ n : Nat, n &&& 0x7f = n % 128 := fun n => Nat.and_two_pow_sub_one_eq_mod n 7
  have hshift : ∀ n : Nat, n >>> 7 = n / 128 := fun n => Nat.shiftRight_eq_div_pow n 7
  have hmark : ∀ n : Nat, n % 128 ||| 0x80 = n % 128 + 128 := by
    intro n
    have hor := Nat.two_pow_add_eq_or_of_lt (i := 7) (Nat.mod_lt n (show 0 < 2 ^ 7 by decide)) 1
    rw [Nat.mul_one] at hor
    rw [Nat.or_comm, Nat.add_comm]
    exact hor.symm
  induction rounds generalizing n with
  | zero =>
    have hsmall : n < 128 := by simpa using h
    rw [encodeShortvecFuel, hshift, if_pos (by omega), hmask, Nat.mod_eq_of_lt hsmall,
      groups_small hsmall]
  | succ rounds ih =>
    rw [encodeShortvecFuel, hshift, hmask, hmark]
    by_cases hsmall : n < 128
    · rw [if_pos (by omega), Nat.mod_eq_of_lt hsmall, groups_small hsmall]
    · have hnext : n / 128 < 128 ^ (rounds + 1) := by
        rw [pow_succ] at h
        omega
      rw [if_neg (by omega), ih hnext, groups_large (not_lt.mp hsmall)]

theorem encodeShortvec_eq {n : Nat} (h : n < 2 ^ 16) : encodeShortvec n = groups n :=
  encodeShortvecFuel_eq 2 (by omega)

theorem encodeShortvecUsize_eq {n : Nat} (h : n < 2 ^ 16) : encodeShortvecUsize n = groups n :=
  encodeShortvecFuel_eq 9 (by omega)

theorem shortvecLen_eq {n : Nat} (h : n < 2 ^ 16) : shortvecLen n = groups n := by
  have hmin : min n (2 ^ 16 - 1) = n := by omega
  rw [shortvecLen, hmin]
  exact encodeShortvecFuel_eq 2 (by omega)

theorem encodeMessage_eq {message : Message} (fits : message.Fits) :
    encodeMessage message.header message.accountKeys message.recentBlockhash message.instructions =
      message.bytes := by
  have hins : message.instructions.map encodeCompiledInstruction =
      message.instructions.map instructionBytes := by
    refine List.map_congr_left fun ins hmem => ?_
    rw [encodeCompiledInstruction, instructionBytes, shortvecLen_eq (fits.accounts ins hmem),
      shortvecLen_eq (fits.data ins hmem)]
  rw [encodeMessage, Message.bytes, shortvecLen_eq fits.keyCount,
    shortvecLen_eq fits.instructionCount, hins]

theorem encodeLegacyMessage_eq {message : Message} (fits : message.Fits) :
    encodeLegacyMessage message.header message.accountKeys message.recentBlockhash
      message.instructions = message.bytes := by
  have hins : message.instructions.map encodeInstruction =
      message.instructions.map instructionBytes := by
    refine List.map_congr_left fun ins hmem => ?_
    rw [encodeInstruction, instructionBytes, encodeShortvecUsize_eq (fits.accounts ins hmem),
      encodeShortvecUsize_eq (fits.data ins hmem)]
  rw [encodeLegacyMessage, Message.bytes, encodeShortvecUsize_eq fits.keyCount,
    encodeShortvecUsize_eq fits.instructionCount, hins]

@[simp] theorem length_leBytes32 (n : Nat) : (leBytes32 n).length = 4 := by simp [leBytes32]

@[simp] theorem length_leBytes64 (n : Nat) : (leBytes64 n).length = 8 := by simp [leBytes64]

def nativeTransferMessage (sender recipient blockhash : Key) (lamports : Nat) : Message where
  header := [1, 0, 1]
  accountKeys := [sender, recipient, systemProgramId]
  recentBlockhash := blockhash
  instructions := [⟨2, [0, 1], [2, 0, 0, 0] ++ leBytes64 lamports⟩]

def splTransferMessage (fromOwner srcAta dstAta tokenProgram blockhash : Key) (amount : Nat) :
    Message where
  header := [1, 0, 1]
  accountKeys := [fromOwner, srcAta, dstAta, tokenProgram]
  recentBlockhash := blockhash
  instructions := [⟨3, [1, 2, 0], [3] ++ leBytes64 amount⟩]

def x402Message (accounts : PaymentAccounts) (amount : Nat) (memoData : List UInt8)
    (blockhash : Key) : Message where
  header := [2, 0, 4]
  accountKeys := accounts.keys
  recentBlockhash := blockhash
  instructions := paymentInstructions amount memoData

theorem nativeTransferMessage_fits (sender recipient blockhash : Key) (lamports : Nat) :
    (nativeTransferMessage sender recipient blockhash lamports).Fits where
  header := rfl
  keyCount := by simp [nativeTransferMessage]
  keys := by simp [nativeTransferMessage, sender.2, recipient.2, systemProgramId]
  blockhash := blockhash.2
  instructionCount := by simp [nativeTransferMessage]
  accounts := by simp [nativeTransferMessage]
  data := by simp [nativeTransferMessage]

theorem splTransferMessage_fits (fromOwner srcAta dstAta tokenProgram blockhash : Key)
    (amount : Nat) :
    (splTransferMessage fromOwner srcAta dstAta tokenProgram blockhash amount).Fits where
  header := rfl
  keyCount := by simp [splTransferMessage]
  keys := by simp [splTransferMessage, fromOwner.2, srcAta.2, dstAta.2, tokenProgram.2]
  blockhash := blockhash.2
  instructionCount := by simp [splTransferMessage]
  accounts := by simp [splTransferMessage]
  data := by simp [splTransferMessage]

/-- The memo is the server's, and the only list without a fixed length. -/
theorem x402Message_fits (accounts : PaymentAccounts) (amount : Nat) {memoData : List UInt8}
    (memo : memoData.length < 2 ^ 16) (blockhash : Key) :
    (x402Message accounts amount memoData blockhash).Fits where
  header := rfl
  keyCount := by simp [x402Message, PaymentAccounts.keys]
  keys := by
    intro key hkey
    obtain ⟨k, -, rfl⟩ := List.mem_map.mp hkey
    exact k.2
  blockhash := blockhash.2
  instructionCount := by simp [x402Message, paymentInstructions]
  accounts := by
    simp [x402Message, paymentInstructions, buildSetComputeUnitLimit, buildSetComputeUnitPrice,
      buildTransferChecked, buildMemo]
  data := by
    intro ins hins
    simp only [x402Message, paymentInstructions, List.mem_cons, List.not_mem_nil, or_false] at hins
    rcases hins with rfl | rfl | rfl | rfl
    · simp [buildSetComputeUnitLimit]
    · simp [buildSetComputeUnitPrice]
    · simp [buildTransferChecked]
    · exact memo

theorem NativeTransfer.message_eq {ext : Address.Crates} {tx : NativeTransfer}
    {sender recipient blockhash : List UInt8}
    (hsender : Address.Solana.decode ext tx.sender = .ok sender)
    (hrecipient : Address.Solana.decode ext tx.recipient = .ok recipient)
    (hblockhash : decodeBlockhash ext tx.recentBlockhash = .ok blockhash) :
    tx.message ext =
      .ok (buildNativeTransferMessage sender recipient tx.lamports.toNat blockhash) := by
  have hone : encodeShortvec 1 = shortvecLen 1 := rfl
  have htwo : encodeShortvec 2 = shortvecLen 2 := rfl
  have hthree : encodeShortvec 3 = shortvecLen 3 := rfl
  have hdata : leBytes32 systemTransferIndex = [2, 0, 0, 0] := by decide
  have hlength : encodeShortvec (min (([2, 0, 0, 0] ++ leBytes64 tx.lamports.toNat).length)
      (2 ^ 16 - 1)) = shortvecLen ([2, 0, 0, 0] ++ leBytes64 tx.lamports.toNat).length := rfl
  simp only [NativeTransfer.message, hsender, hrecipient, hblockhash, Except.mapError, bind,
    Except.bind, hone, htwo, hthree, hdata, hlength, buildNativeTransferMessage, encodeMessage]
  simp [encodeCompiledInstruction]

/-- The two native transfers are the same bytes, and every message that is built
reads back as its header, accounts, blockhash and instructions. -/
theorem messages_agree_and_read_back :
    (∀ (ext : Address.Crates) (tx : NativeTransfer) (sender recipient blockhash : Key),
      Address.Solana.decode ext tx.sender = .ok sender →
      Address.Solana.decode ext tx.recipient = .ok recipient →
      decodeBlockhash ext tx.recentBlockhash = .ok blockhash →
      ∃ bytes, tx.message ext = .ok bytes ∧
        bytes = buildNativeTransferMessage sender recipient tx.lamports.toNat blockhash ∧
        decodeMessage bytes =
          some (nativeTransferMessage sender recipient blockhash tx.lamports.toNat)) ∧
    (∀ (host : Engine.Host) (fromOwner srcAta dstAta blockhash : Key) (amount : BitVec 64)
      (bytes : List UInt8),
      buildSplTransferMessage host fromOwner srcAta dstAta amount.toNat blockhash = .ok bytes →
      ∃ tokenProgram : Key, b58ToPubkey host tokenProgramB58 = .ok tokenProgram ∧
        decodeMessage bytes =
          some (splTransferMessage fromOwner srcAta dstAta tokenProgram blockhash amount.toNat)) ∧
    ∀ (accounts : PaymentAccounts) (amount : BitVec 64) (memoData : List UInt8) (blockhash : Key),
      memoData.length < 65536 →
      decodeMessage (paymentMessage accounts amount.toNat memoData blockhash) =
        some (x402Message accounts amount.toNat memoData blockhash) := by
  refine ⟨?_, ?_, ?_⟩
  · intro ext tx sender recipient blockhash hsender hrecipient hblockhash
    refine ⟨_, NativeTransfer.message_eq hsender hrecipient hblockhash, rfl, ?_⟩
    have fits := nativeTransferMessage_fits sender recipient blockhash tx.lamports.toNat
    rw [← decodeMessage_bytes fits, ← encodeMessage_eq fits]
    rfl
  · intro host fromOwner srcAta dstAta blockhash amount bytes hbuilt
    obtain ⟨tokenProgram, htoken, hbytes⟩ := bind_ok_iff.mp hbuilt
    have hlength := b58ToPubkey_length htoken
    refine ⟨⟨tokenProgram, hlength⟩, htoken, ?_⟩
    have fits := splTransferMessage_fits fromOwner srcAta dstAta ⟨tokenProgram, hlength⟩ blockhash
      amount.toNat
    rw [← decodeMessage_bytes fits, ← encodeMessage_eq fits, ← Except.ok.inj hbytes]
    rfl
  · intro accounts amount memoData blockhash memo
    have fits := x402Message_fits accounts amount.toNat memo blockhash
    rw [← decodeMessage_bytes fits, ← encodeLegacyMessage_eq fits]
    rfl

def sampleExt : Address.Crates where
  sha256 := fun _ => []
  base58Decode := fun text => ((Base58.decode text.toList).map Except.ok).getD (.error "not base58")
  base58CheckDecode := fun _ _ => .error "not base58check"
  base58Encode := fun _ => ""
  segwitDecode := fun _ => .error "not segwit"
  onCurve := fun _ => true

def sampleKey (b : UInt8) : Key := ⟨List.replicate 32 b, List.length_replicate⟩

def sampleTransfer : NativeTransfer where
  sender := "4vJ9JU1bJJE96FWSJKvHsmmFADCg4gpZQff4P3bkLKi"
  recipient := "8qbHbw2BbbTHBW1sbeqakYXVKRQM8Ne7pLK7m6CVfeR"
  lamports := 1000000
  recentBlockhash := "CktRuQ2mttgRGkXJtyksdKHjUdc2C4TgDzyB98oEzy8"

def sampleHost : Engine.Host where
  ext := sampleExt
  codec := ⟨fun _ => .error "not used", fun _ => "", fun _ => ""⟩
  cluster := .mainnet
  base64Encode := fun _ => ""
  base64Decode := fun _ => .error "not used"
  hexError := fun _ => ""

def sampleAccounts : PaymentAccounts :=
  ⟨sampleKey 1, sampleKey 2, sampleKey 3, sampleKey 4, sampleKey 5, sampleKey 6, sampleKey 7,
    sampleKey 8⟩

theorem sample_messages_read_back :
    (∃ bytes, sampleTransfer.message sampleExt = .ok bytes ∧
      decodeMessage bytes =
        some (nativeTransferMessage (sampleKey 1) (sampleKey 2) (sampleKey 3) 1000000)) ∧
    (∃ bytes tokenProgram,
      buildSplTransferMessage sampleHost (sampleKey 1) (sampleKey 2) (sampleKey 3) 42
        (sampleKey 4) = .ok bytes ∧
      decodeMessage bytes = some (splTransferMessage (sampleKey 1) (sampleKey 2) (sampleKey 3)
        tokenProgram (sampleKey 4) 42)) ∧
    decodeMessage (paymentMessage sampleAccounts 2500 (List.replicate 300 65) (sampleKey 9)) =
      some (x402Message sampleAccounts 2500 (List.replicate 300 65) (sampleKey 9)) := by
  obtain ⟨hnative, htoken, hpayment⟩ := messages_agree_and_read_back
  refine ⟨?_, ?_, ?_⟩
  · obtain ⟨bytes, hbytes, -, hread⟩ := hnative sampleExt sampleTransfer (sampleKey 1)
      (sampleKey 2) (sampleKey 3) (by decide +kernel) (by decide +kernel) (by decide +kernel)
    exact ⟨bytes, hbytes, hread⟩
  · obtain ⟨bytes, hbytes⟩ : ∃ bytes, buildSplTransferMessage sampleHost (sampleKey 1)
        (sampleKey 2) (sampleKey 3) 42 (sampleKey 4) = .ok bytes := by
      have hok : ((b58ToPubkey sampleHost tokenProgramB58).toOption).isSome = true := by
        decide +kernel
      rw [buildSplTransferMessage]
      cases hprogram : b58ToPubkey sampleHost tokenProgramB58 with
      | error text =>
        rw [hprogram] at hok
        cases hok
      | ok program => exact ⟨_, rfl⟩
    obtain ⟨tokenProgram, -, hread⟩ := htoken sampleHost (sampleKey 1) (sampleKey 2) (sampleKey 3)
      (sampleKey 4) 42 bytes hbytes
    exact ⟨bytes, tokenProgram, hbytes, hread⟩
  · exact hpayment sampleAccounts 2500 (List.replicate 300 65) (sampleKey 9)
      (by rw [List.length_replicate]; decide)

end SolanaMessages
