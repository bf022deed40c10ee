import TinyWallet.Engine.Evm

/-!
# Solana transfers

The wire format is built by hand: a compact length, the header, the account
keys, the blockhash and the instructions. A token transfer moves between the
associated token accounts of the two parties.
-/

namespace Solana

open RustText JsonValue Programs Wire Engine

def b58ToPubkey (host : Host) (addr : String) : Except String (List UInt8) :=
  match host.ext.base58Decode addr with
  | .error e => .error ("invalid base58 '" ++ addr ++ "': " ++ e)
  | .ok bytes =>
    if bytes.length = 32 then .ok bytes
    else .error ("expected 32-byte pubkey, got " ++ toString bytes.length)

def pubkeyToB58 (host : Host) (pubkey : List UInt8) : String := host.ext.base58Encode pubkey

/-- The loop of `encode_shortvec`; a 16-bit length has at most three groups. -/
def encodeShortvecFuel : Nat → Nat → List UInt8
  | 0, _ => []
  | fuel + 1, value =>
    if value >>> 7 = 0 then [UInt8.ofNat (value &&& 0x7f)]
    else UInt8.ofNat (value &&& 0x7f ||| 0x80) :: encodeShortvecFuel fuel (value >>> 7)

/-- `encode_shortvec` over a 16-bit value, of the engine and of the client. -/
def encodeShortvec (value : Nat) : List UInt8 := encodeShortvecFuel 3 value

/-- The loop of `decode_shortvec` from byte `index` on: the value and how many
bytes it took. -/
def decodeShortvecAt (index value : Nat) : List UInt8 → Except String (Nat × Nat)
  | [] => .error "shortvec truncated"
  | byte :: rest =>
    if 3 ≤ index then .error "shortvec too long"
    else
      let value := value ||| (byte.toNat &&& 0x7f) <<< (7 * index)
      if byte.toNat &&& 0x80 = 0 then
        if value < 2 ^ 16 then .ok (value, index + 1) else .error "shortvec exceeds u16 range"
      else decodeShortvecAt (index + 1) value rest

def decodeShortvec (bytes : List UInt8) : Except String (Nat × Nat) := decodeShortvecAt 0 0 bytes

def shortvecLen (length : Nat) : List UInt8 := encodeShortvec (min length (2 ^ 16 - 1))

structure CompiledInstruction where
  programIdIndex : UInt8
  accounts : List UInt8
  data : List UInt8
deriving DecidableEq, Repr

def encodeCompiledInstruction (ins : CompiledInstruction) : List UInt8 :=
  [ins.programIdIndex] ++ shortvecLen ins.accounts.length ++ ins.accounts ++
    shortvecLen ins.data.length ++ ins.data

def encodeMessage (header : List UInt8) (accountKeys : List (List UInt8))
    (recentBlockhash : List UInt8) (instructions : List CompiledInstruction) : List UInt8 :=
  header ++ shortvecLen accountKeys.length ++ accountKeys.flatten ++ recentBlockhash ++
    shortvecLen instructions.length ++ (instructions.map encodeCompiledInstruction).flatten

def systemProgramId : List UInt8 := List.replicate 32 0

def tokenProgramB58 : String := "TokenkegQfeZyiNwAJbNbGKPFXCWuBvf9Ss623VQ5DA"

def ataProgramB58 : String := "ATokenGPvbdGVxr1b2hvZbsiqW5xWH25efTNsLJA8knL"

/-- The bump seeds from `bump` down to zero. -/
def findBump (host : Host) (seeds programId : List UInt8) : Nat → Except String (List UInt8)
  | 0 => .error "no off-curve PDA found"
  | bump + 1 =>
    let candidate := host.ext.sha256
      (seeds ++ [UInt8.ofNat bump] ++ programId ++ utf8Bytes "ProgramDerivedAddress")
    if host.ext.onCurve candidate = false then .ok candidate
    else findBump host seeds programId bump

def findProgramAddress (host : Host) (seeds : List (List UInt8)) (programId : List UInt8) :
    Except String (List UInt8) :=
  findBump host seeds.flatten programId 256

def associatedTokenAccount (host : Host) (owner mint : List UInt8) :
    Except String (List UInt8) := do
  let tokenProgram ← b58ToPubkey host tokenProgramB58
  let ataProgram ← b58ToPubkey host ataProgramB58
  findProgramAddress host [owner, tokenProgram, mint] ataProgram

/-- `to_le_bytes` of a 64-bit value. -/
def leBytes64 (n : Nat) : List UInt8 := (List.range 8).map fun i => UInt8.ofNat (n >>> (8 * i))

def buildNativeTransferMessage (sender recipient : List UInt8) (lamports : Nat)
    (recentBlockhash : List UInt8) : List UInt8 :=
  encodeMessage [1, 0, 1] [sender, recipient, systemProgramId] recentBlockhash
    [⟨2, [0, 1], [2, 0, 0, 0] ++ leBytes64 lamports⟩]

def buildSplTransferMessage (host : Host) (fromOwner srcAta dstAta : List UInt8) (amount : Nat)
    (recentBlockhash : List UInt8) : Except String (List UInt8) := do
  let tokenProgram ← b58ToPubkey host tokenProgramB58
  .ok (encodeMessage [1, 0, 1] [fromOwner, srcAta, dstAta, tokenProgram] recentBlockhash
    [⟨3, [1, 2, 0], [3] ++ leBytes64 amount⟩])

/-- The message moves `amount` of a token between the token accounts of the two
parties, whatever the blockhash. -/
def SplTransfer (host : Host) (sender recipient mintAddr : String) (amount : Nat)
    (message : List UInt8) : Prop :=
  ∃ fromPk toPubkey mint srcAta dstAta recentBlockhash,
    b58ToPubkey host sender = .ok fromPk ∧ b58ToPubkey host recipient = .ok toPubkey ∧
    b58ToPubkey host mintAddr = .ok mint ∧ associatedTokenAccount host fromPk mint = .ok srcAta ∧
    associatedTokenAccount host toPubkey mint = .ok dstAta ∧ recentBlockhash.length = 32 ∧
    buildSplTransferMessage host fromPk srcAta dstAta amount recentBlockhash = .ok message

def signerPubkey (host : Host) : Op (List UInt8) := do
  let account ← derive .solana
  check id (b58ToPubkey host account.address)

/-- The hex the signer answers with, in two-byte slices of its text. -/
def hexToBytes (value : String) : Except String (List UInt8) :=
  if byteLen value.toList % 2 ≠ 0 then .error "odd-length hex from the wallet module"
  else pairs value.toList
where
  pairs : List Char → Except String (List UInt8)
    | [] => .ok []
    | a :: rest =>
      if a.utf8Size = 2 then
        .error "invalid hex from the wallet module: invalid digit found in string"
      else if a.utf8Size ≠ 1 then .error "invalid hex from the wallet module: not ascii"
      else match rest with
        | [] => .error "invalid hex from the wallet module: not ascii"
        | b :: rest =>
          if b.utf8Size ≠ 1 then .error "invalid hex from the wallet module: not ascii"
          else match hexPair a b with
            | none => .error "invalid hex from the wallet module: invalid digit found in string"
            | some byte => (pairs rest).map (byte :: ·)

def solanaSign (message : List UInt8) : Op (List UInt8) := do
  match ← signMessage .solana message .ed25519 with
  | .secp256k1 .. => failWith "the wallet module returned a non-ed25519 Solana signature"
  | .ed25519 signatureHex => do
    let bytes ← check id (hexToBytes signatureHex)
    if bytes.length = 64 then .pure bytes
    else failWith "the wallet module returned a malformed Solana signature"

def accountExists (host : Host) (addressB58 : String) : Op Bool := do
  let value ← rpcCall host .solana "getAccountInfo"
    (.array [.string addressB58, .object [("encoding", .string "base64")]])
    (fun answer => (answer.structOf ["value"]).bind List.head?)
  .pure (!value.isNull)

def decodeBlockhash (answer : Json) : Option String := do
  let value ← (answer.structOf ["value"]).bind List.head?
  let blockhash ← (value.structOf ["blockhash"]).bind List.head?
  blockhash.asStr

def fetchRecentBlockhash (host : Host) : Op (List UInt8) := do
  let blockhash ← rpcCall host .solana "getLatestBlockhash"
    (.array [.object [("commitment", .string "finalized")]])
    decodeBlockhash
  check id (b58ToPubkey host blockhash)

def broadcastSolana (host : Host) (signed : List UInt8) : Op String :=
  rpcCall host .solana "sendTransaction"
    (.array [.string (host.base64Encode signed),
      .object [("encoding", .string "base64"), ("preflightCommitment", .string "processed")]])
    Json.asStr

/-- The message of a token transfer, after the destination account is seen. -/
def splMessage (host : Host) (quote : PreparedTransaction) (fromPk toPubkey : List UInt8)
    (amount : Nat) (recentBlockhash : List UInt8) : Op (List UInt8) := do
  match quote.tokenAddress with
  | none => failWith "SPL transfer missing token_address (mint)"
  | some mintAddr => do
    let mint ← check id (b58ToPubkey host mintAddr)
    let srcAta ← check id (associatedTokenAccount host fromPk mint)
    let dstAta ← check id (associatedTokenAccount host toPubkey mint)
    let found ← accountExists host (pubkeyToB58 host dstAta)
    if found = false then
      failWith ("SPL preflight: destination Associated Token Account does not exist for mint " ++
        mintAddr ++ " owner " ++ pubkeyToB58 host toPubkey ++ "; create it before transferring")
    else check id (buildSplTransferMessage host fromPk srcAta dstAta amount recentBlockhash)

/-- A native transfer's signed bytes come from the signer; a token transfer's
are one signature and the message. -/
def signedWire (host : Host) (quote : PreparedTransaction) (fromPk : List UInt8) (amount : Nat) :
    Op (List UInt8) :=
  match quote.kind with
  | .nativeTransfer => do
    let recentBlockhash ← fetchRecentBlockhash host
    let signed ← signTransaction .solana
      (.solana quote.fromAddress quote.toAddress amount (pubkeyToB58 host recentBlockhash))
    check (fun e => "invalid signed Solana transaction: " ++ e) (host.base64Decode signed.raw)
  | .tokenTransfer => do
    let toPubkey ← check id (b58ToPubkey host quote.toAddress)
    let recentBlockhash ← fetchRecentBlockhash host
    let message ← splMessage host quote fromPk toPubkey amount recentBlockhash
    let signature ← solanaSign message
    .pure (encodeShortvec 1 ++ signature ++ message)

def executeSolanaQuote (host : Host) (quote : PreparedTransaction) : Op ExecutionResult := do
  let _ ← check Address.Error.text (Address.Solana.validate host.ext quote.fromAddress)
  let _ ← check Address.Error.text (Address.Solana.validate host.ext quote.toAddress)
  let amount ← check (fun e => "invalid Solana amount '" ++ quote.amountRaw ++ "': " ++ e)
    (parseU64 quote.amountRaw)
  let fromPk ← signerPubkey host
  let expectedFrom ← check id (b58ToPubkey host quote.fromAddress)
  if fromPk ≠ expectedFrom then
    failWith ("Solana key derivation mismatch: derived " ++ pubkeyToB58 host fromPk ++
      " but expected " ++ quote.fromAddress)
  else do
    let wire ← signedWire host quote fromPk amount
    let txSig ← broadcastSolana host wire
    .pure
      { quoteId := quote.quoteId
        status := .broadcasted
        chain := .solana
        evmNetwork := none
        transactionHash := txSig
        explorerUrl := explorerTxUrl .solana host.cluster txSig
        transaction := { quote with status := .broadcasted } }

theorem signerPubkey_reads (host : Host) : Only Reads (signerPubkey host) :=
  only_bind (only_ask _ rfl) fun _ => only_check _ _

theorem b58ToPubkey_length {host : Host} {addr : String} {pubkey : List UInt8}
    (h : b58ToPubkey host addr = .ok pubkey) : pubkey.length = 32 := by
  simp only [b58ToPubkey] at h
  split at h
  · cases h
  · split_ifs at h with hlength
    cases h
    exact hlength

theorem fetchRecentBlockhash_returns (host : Host) :
    Returns (fun blockhash => blockhash.length = 32) (fetchRecentBlockhash host) :=
  returns_bind fun _ => returns_check fun _ => b58ToPubkey_length

theorem fetchRecentBlockhash_reads (host : Host) : Only Reads (fetchRecentBlockhash host) :=
  only_bind (rpcCall_only host (by simp [Reads, Request.role])) fun _ => only_check _ _

theorem accountExists_reads (host : Host) (addressB58 : String) :
    Only Reads (accountExists host addressB58) :=
  only_bind (rpcCall_only host (by simp [Reads, Request.role])) fun _ => .pure _

theorem splMessage_reads (host : Host) (quote : PreparedTransaction) (fromPk toPubkey : List UInt8)
    (amount : Nat) (recentBlockhash : List UInt8) :
    Only Reads (splMessage host quote fromPk toPubkey amount recentBlockhash) := by
  unfold splMessage
  cases quote.tokenAddress with
  | none => exact .fail _
  | some mintAddr =>
    refine only_bind (only_check _ _) fun _ => only_bind (only_check _ _) fun _ => ?_
    refine only_bind (only_check _ _) fun _ => only_bind (accountExists_reads _ _) fun _ => ?_
    split
    · exact .fail _
    · exact only_check _ _

theorem splMessage_returns (host : Host) {quote : PreparedTransaction}
    {fromPk toPubkey : List UInt8} (amount : Nat) {recentBlockhash : List UInt8}
    (hlength : recentBlockhash.length = 32)
    (hfrom : b58ToPubkey host quote.fromAddress = .ok fromPk)
    (hto : b58ToPubkey host quote.toAddress = .ok toPubkey) :
    Returns (fun message => ∃ mintAddr, quote.tokenAddress = some mintAddr ∧
        SplTransfer host quote.fromAddress quote.toAddress mintAddr amount message)
      (splMessage host quote fromPk toPubkey amount recentBlockhash) := by
  unfold splMessage
  cases htoken : quote.tokenAddress with
  | none => exact .fail _
  | some mintAddr =>
    refine returns_checked fun mint hmint => returns_checked fun srcAta hsrc => ?_
    refine returns_checked fun dstAta hdst => returns_bind fun found => ?_
    split
    · exact .fail _
    · refine returns_check fun message built => ?_
      exact ⟨mintAddr, rfl, fromPk, toPubkey, mint, srcAta, dstAta, recentBlockhash, hfrom, hto,
        hmint, hsrc, hdst, hlength, built⟩

/-- Where the signer keys and the message sit inside a transaction blob. -/
structure Layout where
  sigsStart : Nat
  numSignatures : Nat
  messageStart : Nat
  keysStart : Nat
  signerKeys : Nat
deriving DecidableEq, Repr

def parseLayout (wire : List UInt8) : Except String Layout := do
  let (numSignatures, sigsStart) ← decodeShortvec wire
  let messageStart := sigsStart + numSignatures * 64
  if wire.length < messageStart then .error "Solana tx blob truncated before message"
  else
    let message := wire.drop messageStart
    match message with
    | [] => .error "Solana tx blob has empty message"
    | first :: _ => do
      -- a versioned message has one byte before its header
      let headerOff := if first.toNat &&& 0x80 ≠ 0 then 1 else 0
      if message.length < headerOff + 3 then .error "Solana message header truncated"
      else do
        let numRequired := (message.getD headerOff 0).toNat
        if numRequired = 0 then .error "Solana message declares zero required signatures"
        else do
          let keysOff := headerOff + 3
          let (accountCount, countLen) ← decodeShortvec (message.drop keysOff)
          let keysStart := keysOff + countLen
          let signerKeys := min numRequired accountCount
          if message.length < keysStart + signerKeys * 32 then
            .error "Solana account keys region truncated"
          else .ok ⟨sigsStart, numSignatures, messageStart, keysStart, signerKeys⟩

/-- The blob's bytes, the wallet's slot in it and the message to sign. -/
def ownSlot (host : Host) (layout : Layout) (wire ourPubkey : List UInt8) : Except String Nat :=
  let message := wire.drop layout.messageStart
  match (List.range layout.signerKeys).find? fun i =>
      (message.drop (layout.keysStart + i * 32)).take 32 = ourPubkey with
  | none => .error ("wallet Solana address " ++ pubkeyToB58 host ourPubkey ++
      " is not a required signer of this transaction")
  | some index =>
    if layout.numSignatures ≤ index then .error "Solana signer index exceeds signature slot count"
    else .ok index

/-- The bytes of `wire` with the signature copied into the slot. -/
def splice (wire signature : List UInt8) (slot : Nat) : List UInt8 :=
  wire.take slot ++ signature ++ wire.drop (slot + signature.length)

def blobBytes (host : Host) (txBlobHex : String) : Except String (List UInt8) :=
  let trimmed := trim txBlobHex
  let normalized := (strip "0x" trimmed).getD trimmed
  match hexDecode normalized.toList with
  | some bytes => .ok bytes
  | none => .error ("invalid Solana transaction hex blob: " ++ host.hexError normalized)

/-- The bytes of a blob that a signature covers. -/
def blobMessage (host : Host) (txBlobHex : String) : Except String (List UInt8) := do
  let wire ← blobBytes host txBlobHex
  let layout ← parseLayout wire
  .ok (wire.drop layout.messageStart)

def signAndBroadcastVersioned (host : Host) (txBlobHex : String) : Op Evm.RawBroadcastResult := do
  let wire ← check id (blobBytes host txBlobHex)
  let layout ← check id (parseLayout wire)
  let ourPubkey ← signerPubkey host
  let index ← check id (ownSlot host layout wire ourPubkey)
  let signature ← solanaSign (wire.drop layout.messageStart)
  let txSig ← broadcastSolana host (splice wire signature (layout.sigsStart + index * 64))
  .pure ⟨txSig, explorerTxUrl .solana host.cluster txSig, none⟩

end Solana
