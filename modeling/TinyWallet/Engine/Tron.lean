import TinyWallet.Engine.Requests

/-!
# Tron transfers

The node builds the transaction, so every requested field is checked against
the returned bytes before they reach the signer. A native transfer pays the
recipient; a TRC-20 transfer pays the token contract and carries the recipient
in its parameter.
-/

namespace Tron

open RustText JsonValue Programs Wire Engine TronVerify

def trc20FeeLimitSun : Nat := 15000000

structure CreateTransactionResponse where
  txId : String
  rawData : Json
  rawDataHex : String

def decodeCreated (value : Json) : Option CreateTransactionResponse :=
  match value.structOf ["txID", "raw_data", "raw_data_hex"] with
  | some [.string txId, rawData, .string rawDataHex] => some ⟨txId, rawData, rawDataHex⟩
  | _ => none

def decodeTriggered (value : Json) : Option CreateTransactionResponse :=
  (value.structOf ["transaction"]).bind fun fields => fields.head?.bind decodeCreated

/-- The error of a crypto-crate call, with the engine's wording before it. -/
def prefixed (text : String) : Failure TronProto.Error → Failure String
  | .error e => .error (text ++ e.text)
  | .panic => .panic

def feeLimitOf : TronTransfer → Option Nat
  | .native _ => none
  | .trc20 _ => some trc20FeeLimitSun

/-- Check a node-built transaction, then describe it for the signer. -/
def tronTransactionSpec (host : Host) (rawTx : CreateTransactionResponse) (expectedTo : String)
    (transfer : TronTransfer) : Except (Failure String) TransactionSpec := do
  let recomputedTxid ← (recomputeTxid host.ext rawTx.rawDataHex).mapError
    (prefixed "invalid Tron raw_data_hex: ")
  let _ ← (verifyContract host.ext rawTx.rawDataHex expectedTo rawTx.txId transfer
    (feeLimitOf transfer)).mapError (prefixed "Tron node response rejected: ")
  .ok (.tron rawTx.rawDataHex expectedTo recomputedTxid transfer)

/-- `to_be_bytes` of a 128-bit value, padded to 32 bytes. -/
def amountWord (amount : Nat) : List UInt8 :=
  List.replicate 16 (0 : UInt8) ++
    (List.range 16).map fun i => UInt8.ofNat (amount >>> (8 * (15 - i)))

/-- The ABI arguments without the selector: the address without its `0x41`
byte, left-padded, then the amount. -/
def encodeTrc20TransferParam (host : Host) (toHex : String) (amount : Nat) :
    Except String String :=
  match hexDecode toHex.toList with
  | none => .error ("invalid hex addr: " ++ host.hexError toHex)
  | some addrBytes =>
    if addrBytes.length ≠ 21 then
      .error ("expected 21-byte Tron address, got " ++ toString addrBytes.length)
    else .ok (hexLower (List.replicate 12 0 ++ addrBytes.drop 1 ++ amountWord amount))

def createNativeTransaction (host : Host) (ownerHex toHex : String) (amountSun : Nat) :
    Op CreateTransactionResponse :=
  restPostJson host .tron "wallet/createtransaction"
    (.object [("owner_address", .string ownerHex), ("to_address", .string toHex),
      ("amount", .number (.posInt amountSun)), ("visible", .bool false)]) decodeCreated

def triggerTrc20Transfer (host : Host) (ownerHex contractHex parameterHex : String) :
    Op CreateTransactionResponse :=
  restPostJson host .tron "wallet/triggersmartcontract"
    (.object [("owner_address", .string ownerHex), ("contract_address", .string contractHex),
      ("function_selector", .string "transfer(address,uint256)"),
      ("parameter", .string parameterHex), ("fee_limit", .number (.posInt trc20FeeLimitSun)),
      ("call_value", .number (.posInt 0)), ("visible", .bool false)]) decodeTriggered

/-- The recipient the transaction itself pays, the transfer to verify, and the
transaction the node built. -/
def buildTransaction (host : Host) (quote : PreparedTransaction) (ownerHex toHex : String)
    (amount : Nat) : Op (String × TronTransfer × CreateTransactionResponse) :=
  match quote.kind with
  | .nativeTransfer =>
    if 2 ^ 64 ≤ amount then failWith ("Tron amount " ++ toString amount ++ " exceeds u64")
    else do
      let raw ← createNativeTransaction host ownerHex toHex amount
      .pure (quote.toAddress, .native amount, raw)
  | .tokenTransfer =>
    match quote.tokenAddress with
    | none => failWith "TRC20 transfer missing token_address"
    | some contract => do
      let _ ← check Address.Error.text (Address.Tron.validate host.ext contract)
      let contractHex ← check Address.Error.text (Address.Tron.toHex host.ext contract)
      let parameter ← check id (encodeTrc20TransferParam host toHex amount)
      let raw ← triggerTrc20Transfer host ownerHex contractHex parameter
      .pure (contract, .trc20 parameter, raw)

theorem buildTransaction_reads (host : Host) (quote : PreparedTransaction) (ownerHex toHex : String)
    (amount : Nat) : Only Reads (buildTransaction host quote ownerHex toHex amount) := by
  unfold buildTransaction
  cases quote.kind with
  | nativeTransfer =>
    dsimp only
    split
    · exact .fail _
    · exact only_bind (only_ask _ (by simp [Reads, Request.role])) fun _ => .pure _
  | tokenTransfer =>
    cases quote.tokenAddress with
    | none => exact .fail _
    | some contract =>
      refine only_bind (only_check _ _) fun _ => only_bind (only_check _ _) fun _ => ?_
      refine only_bind (only_check _ _) fun _ => ?_
      exact only_bind (only_ask _ (by simp [Reads, Request.role])) fun _ => .pure _

/-- The bytes were held to the transfer, and the id is theirs. -/
def Carries (host : Host) (rawDataHex expectedTo txid : String) (transfer : TronTransfer) : Prop :=
  recomputeTxid host.ext rawDataHex = .ok txid ∧ ∃ stated,
    verifyContract host.ext rawDataHex expectedTo stated transfer (feeLimitOf transfer) = .ok ()

/-- What the transaction pays, and to whom, for each kind of quote. -/
def Built (host : Host) (quote : PreparedTransaction) (toHex : String) (amount : Nat)
    (recipient : String) (transfer : TronTransfer) : Prop :=
  match quote.kind with
  | .nativeTransfer => amount < 2 ^ 64 ∧ recipient = quote.toAddress ∧ transfer = .native amount
  | .tokenTransfer => quote.tokenAddress = some recipient ∧
      ∃ parameter, encodeTrc20TransferParam host toHex amount = .ok parameter ∧
        transfer = .trc20 parameter

theorem buildTransaction_returns (host : Host) (quote : PreparedTransaction)
    (ownerHex toHex : String) (amount : Nat) :
    Returns (fun built => Built host quote toHex amount built.1 built.2.1)
      (buildTransaction host quote ownerHex toHex amount) := by
  unfold buildTransaction Built
  cases quote.kind with
  | nativeTransfer =>
    dsimp only
    split
    · exact .fail _
    · next below => exact returns_bind fun raw => .pure ⟨not_le.mp below, rfl, rfl⟩
  | tokenTransfer =>
    cases quote.tokenAddress with
    | none => exact .fail _
    | some contract =>
      refine returns_checked fun _ _ => returns_checked fun _ _ => ?_
      refine returns_checked fun parameter encoded => returns_bind fun raw => ?_
      exact .pure ⟨rfl, parameter, encoded, rfl⟩

def signedBroadcastBody (rawTx : CreateTransactionResponse) (signatureHex : String) : Json :=
  .object [("txID", .string rawTx.txId), ("raw_data", rawTx.rawData),
    ("raw_data_hex", .string rawTx.rawDataHex), ("signature", .array [.string signatureHex]),
    ("visible", .bool false)]

/-- The transaction id of a broadcast the node reports as done. -/
def broadcastOutcome (txId : String) (response : Json) : Except (Failure String) String :=
  if ((response.get "result").bind Json.asBool).getD false then
    .ok ((response.getStr "txid").getD txId)
  else .error (.error ("Tron broadcast rejected: code=" ++ (response.getStr "code").getD "" ++
    " message=" ++ (response.getStr "message").getD ""))

def executeTronQuote (host : Host) (quote : PreparedTransaction) : Op ExecutionResult := do
  let _ ← check Address.Error.text (Address.Tron.validate host.ext quote.fromAddress)
  let _ ← check Address.Error.text (Address.Tron.validate host.ext quote.toAddress)
  let amount ← check (fun e => "invalid Tron amount '" ++ quote.amountRaw ++ "': " ++ e)
    (parseU128 quote.amountRaw)
  let ownerHex ← check Address.Error.text (Address.Tron.toHex host.ext quote.fromAddress)
  let toHex ← check Address.Error.text (Address.Tron.toHex host.ext quote.toAddress)
  let derived ← derive .tron
  if derived.address ≠ quote.fromAddress then
    failWith ("Tron key derivation mismatch: derived " ++ derived.address ++ " but expected " ++
      quote.fromAddress)
  else do
    let (verifiedRecipient, transfer, rawTx) ← buildTransaction host quote ownerHex toHex amount
    let transaction ← Prog.lift (tronTransactionSpec host rawTx verifiedRecipient transfer)
    let signed ← signTransaction .tron transaction
    let response ← restPostJson host .tron "wallet/broadcasttransaction"
      (signedBroadcastBody rawTx signed.raw) some
    let txid ← Prog.lift (broadcastOutcome rawTx.txId response)
    .pure
      { quoteId := quote.quoteId
        status := .broadcasted
        chain := .tron
        evmNetwork := none
        transactionHash := txid
        explorerUrl := explorerTxUrl .tron host.cluster txid
        transaction := { quote with status := .broadcasted } }

end Tron
