import TinyWallet.Tx.Calldata
import TinyWallet.Engine.Requests

/-!
# EVM signing and broadcast

A native transfer pays the recipient; a token transfer pays the contract zero
and carries the recipient and the amount in the calldata. Nonce, gas price and
gas limit are whatever the node answers at the time of signing.
-/

namespace Evm

open RustText Numerals JsonValue Programs Wire Engine

/-- `hex_to_u128`: the value an EVM node encodes as a hex quantity. -/
def hexToU128 (hexValue : String) : Except String Nat :=
  let trimmed := trim hexValue
  let normalized := (strip "0x" trimmed).getD trimmed
  (parseRadix 16 (2 ^ 128) normalized).mapError fun e =>
    "invalid hex quantity '" ++ hexValue ++ "': " ++ e

def u64Of (message : String) (value : Nat) : Op Nat :=
  if value < 2 ^ 64 then .pure value else failWith message

structure NodeParams where
  chainId : Nat
  nonce : Nat
  gasPrice : Nat
  gasLimit : Nat
deriving DecidableEq, Repr

/-- The four reads come first; the chain id is the first answer looked at. -/
def nodeParams (host : Host) (network : EvmNetwork) (fromAddress : String) (estimateTx : Json) :
    Op NodeParams := do
  let chainIdHex ← evmRpcCall host network "eth_chainId" (.array []) Json.asStr
  let nonceHex ← evmRpcCall host network "eth_getTransactionCount"
    (.array [.string fromAddress, .string "pending"]) Json.asStr
  let gasPriceHex ← evmRpcCall host network "eth_gasPrice" (.array []) Json.asStr
  let gasHex ← evmRpcCall host network "eth_estimateGas" (.array [estimateTx]) Json.asStr
  let chainId ← u64Of ("EVM RPC reported an implausible chain_id '" ++ chainIdHex ++ "'")
    (← check id (hexToU128 chainIdHex))
  if chainId ≠ network.chainId then
    failWith ("EVM RPC chain_id mismatch: rpc reported " ++ toString chainId ++ " but network " ++
      network.asStr ++ " expects " ++ toString network.chainId)
  else do
    let nonce ← u64Of ("EVM RPC reported an implausible nonce '" ++ nonceHex ++ "'")
      (← check id (hexToU128 nonceHex))
    let gasPrice ← check id (hexToU128 gasPriceHex)
    let gasLimit ← u64Of ("EVM RPC reported an implausible gas limit '" ++ gasHex ++ "'")
      (← check id (hexToU128 gasHex))
    .pure ⟨chainId, nonce, gasPrice, gasLimit⟩

theorem u64Of_reads (message : String) (value : Nat) : Only Reads (u64Of message value) := by
  unfold u64Of
  split
  · exact .pure _
  · exact .fail _

theorem nodeParams_reads (host : Host) (network : EvmNetwork) (fromAddress : String)
    (estimateTx : Json) : Only Reads (nodeParams host network fromAddress estimateTx) := by
  unfold nodeParams
  refine only_bind (evmRpcCall_only _ (by simp [Reads, Request.role])) fun _ => ?_
  refine only_bind (evmRpcCall_only _ (by simp [Reads, Request.role])) fun _ => ?_
  refine only_bind (evmRpcCall_only _ (by simp [Reads, Request.role])) fun _ => ?_
  refine only_bind (evmRpcCall_only _ (by simp [Reads, Request.role])) fun _ => ?_
  refine only_bind (only_check _ _) fun _ => only_bind (u64Of_reads _ _) fun _ => ?_
  split
  · exact .fail _
  · refine only_bind (only_check _ _) fun _ => only_bind (u64Of_reads _ _) fun _ => ?_
    refine only_bind (only_check _ _) fun _ => only_bind (only_check _ _) fun _ => ?_
    exact only_bind (u64Of_reads _ _) fun _ => .pure _

/-- A node on another chain is not believed. -/
theorem nodeParams_returns (host : Host) (network : EvmNetwork) (fromAddress : String)
    (estimateTx : Json) : Returns (fun params => params.chainId = network.chainId)
      (nodeParams host network fromAddress estimateTx) := by
  unfold nodeParams
  refine returns_bind fun _ => returns_bind fun _ => returns_bind fun _ => returns_bind fun _ => ?_
  refine returns_bind fun _ => returns_bind fun chainId => ?_
  split
  · exact .fail _
  · next same =>
    refine returns_bind fun _ => returns_bind fun _ => returns_bind fun _ => ?_
    exact returns_bind fun _ => returns_bind fun _ => .pure (not_not.mp same)

/-- The request a gas estimate is asked for. -/
def estimateRequest (fromAddress target : String) (value : Nat) (txData : Option String) : Json :=
  let base := [("from", Json.string fromAddress), ("to", .string target),
    ("value", .string (hexQuantity value))]
  match txData with
  | none => .object base
  | some dataHex => .object (base ++ [("data", .string dataHex)])

def spec (target : String) (value : Nat) (txData : Option String) (params : NodeParams) :
    TransactionSpec :=
  .evm target (toString value) (txData.getD "") params.nonce params.gasLimit
    (toString params.gasPrice) params.chainId

/-- Returns the transaction hash and the simulated fee. -/
def signAndBroadcast (host : Host) (network : EvmNetwork) (fromAddress target valueRaw : String)
    (txData : Option String) : Op (String × Nat) := do
  let target ← check (fun e => "invalid EVM target address '" ++ target ++ "': " ++
    Address.Error.text e) (Address.Evm.validate target)
  let value ← check (fun e => "invalid native value '" ++ valueRaw ++ "': " ++ e)
    (parseU128 (trim valueRaw))
  let params ← nodeParams host network fromAddress
    (estimateRequest fromAddress target value txData)
  let signed ← signTransaction .evm (spec target value txData params)
  let txHash ← evmRpcCall host network "eth_sendRawTransaction" (.array [.string signed.raw])
    Json.asStr
  let fee := params.gasPrice * params.gasLimit
  -- `checked_mul(..).unwrap_or_default()`
  .pure (txHash, if fee < 2 ^ 128 then fee else 0)

/-- The agent tool's wording of a failure. -/
def flatten (error : Erc20.AbiError) (toAddress amountRaw : String) : String :=
  match error with
  | .invalidRecipient _ => "invalid EVM recipient address '" ++ toAddress ++ "': " ++ error.text
  | .invalidAmount _ => "amount '" ++ amountRaw ++ "' is not a valid non-negative integer"

def encodeErc20Transfer (toAddress amountRaw : String) : Except String String :=
  (Erc20.encodeErc20Transfer toAddress amountRaw).mapError fun e => flatten e toAddress amountRaw

/-- Target, native value and calldata of a prepared transfer. -/
def transferCall (quote : PreparedTransaction) : Except String (String × String × Option String) :=
  match quote.kind with
  | .nativeTransfer =>
    match Address.Evm.validate quote.toAddress with
    | .error e => .error ("invalid EVM recipient address '" ++ quote.toAddress ++ "': " ++ e.text)
    | .ok target => .ok (target, quote.amountRaw, none)
  | .tokenTransfer =>
    match quote.tokenAddress with
    | none => .error "prepared token transfer is missing token_address"
    | some token =>
      match encodeErc20Transfer quote.toAddress quote.amountRaw with
      | .error e => .error e
      | .ok calldata =>
        match Address.Evm.validate token with
        | .error e => .error ("invalid ERC20 token contract address '" ++ token ++ "': " ++ e.text)
        | .ok target => .ok (target, "0", some calldata)

def executeEvmQuote (host : Host) (quote : PreparedTransaction) : Op ExecutionResult := do
  let network := quote.evmNetwork.getD .ethereumMainnet
  let (target, value, data) ← check id (transferCall quote)
  let (txHash, fee) ← signAndBroadcast host network quote.fromAddress target value data
  .pure
    { quoteId := quote.quoteId
      status := .broadcasted
      chain := .evm
      evmNetwork := some network
      transactionHash := txHash
      explorerUrl := explorerTxUrlForEvmNetwork network txHash
      transaction := { quote with estimatedFeeRaw := toString fee, status := .broadcasted } }

structure RawBroadcastResult where
  transactionHash : String
  explorerUrl : Option String
  feeRaw : Option String
deriving DecidableEq, Repr

/-- `validate_calldata`: `0x`-prefixed, byte-aligned hex. -/
def validateCalldata (data : String) : Except String String :=
  let trimmed := trim data
  match strip "0x" trimmed with
  | none => .error "calldata must be 0x-prefixed hex"
  | some body =>
    if byteLen body.toList % 2 ≠ 0 then .error "calldata hex must be byte-aligned"
    else if body.toList.all isAsciiHexDigit = false then
      .error "calldata contains non-hex characters"
    else .ok trimmed

def optionalCalldata : Option String → Except String (Option String)
  | none => .ok none
  | some data => (validateCalldata data).map some

def signAndBroadcastEvm (host : Host) (network : EvmNetwork) (target : String)
    (dataHex : Option String) (valueRaw : String) : Op RawBroadcastResult := do
  let account ← requireAccount .evm
  let data ← check id (optionalCalldata dataHex)
  let (txHash, fee) ← signAndBroadcast host network account.address target valueRaw data
  .pure ⟨txHash, explorerTxUrlForEvmNetwork network txHash, some (toString fee)⟩

end Evm
