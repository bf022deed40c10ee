import TinyWallet.Engine.Btc
import TinyWallet.Engine.Solana
import TinyWallet.Engine.Tron
import TinyWallet.Quotes.Store

/-!
# Preparing and executing quotes

`prepare_transfer` and the swap, bridge and dapp operations store a quote;
`execute_prepared` and `execute_quote` take it out of its store before anything
is signed and put it back when signing or broadcasting failed. The owner a
scope reports is an argument.
-/

namespace Execution

open RustText JsonValue Programs Wire Engine

def quoteTtlMs : Nat := 5 * 60 * 1000

def quoteStoreCap : Nat := 64

structure Asset where
  symbol : String
  decimals : Nat
  contractAddress : Option String
deriving DecidableEq, Repr

/-- An asset without a contract is the chain's own. -/
def Asset.native (asset : Asset) : Bool := asset.contractAddress.isNone

def evmAssetCatalog : EvmNetwork → List Asset
  | .ethereumMainnet =>
    [⟨"ETH", 18, none⟩, ⟨"USDC", 6, some "0xA0b86991c6218b36c1d19D4a2e9Eb0cE3606eB48"⟩,
      ⟨"USDT", 6, some "0xdAC17F958D2ee523a2206206994597C13D831ec7"⟩,
      ⟨"DAI", 18, some "0x6B175474E89094C44Da98b954EedeAC495271d0F"⟩,
      ⟨"WETH", 18, some "0xC02aaA39b223FE8D0A0e5C4F27eAD9083C756Cc2"⟩]
  | .baseMainnet =>
    [⟨"ETH", 18, none⟩, ⟨"USDC", 6, some "0x833589fCD6eDb6E08f4c7C32D4f71b54bdA02913"⟩]
  | .arbitrumOne =>
    [⟨"ETH", 18, none⟩, ⟨"USDC", 6, some "0xaf88d065e77c8cC2239327C5EDb3A432268e5831"⟩]
  | .optimismMainnet =>
    [⟨"ETH", 18, none⟩, ⟨"USDC", 6, some "0x0b2C639c533813f4Aa9D7837CAf62653d097Ff85"⟩]
  | .polygonMainnet =>
    [⟨"POL", 18, none⟩, ⟨"USDC", 6, some "0x3c499c542cEF5E3811e1192ce70d8cC03d5c3359"⟩]
  | .bscMainnet =>
    [⟨"BNB", 18, none⟩, ⟨"USDT", 18, some "0x55d398326f99059fF775485246999027B3197955"⟩,
      ⟨"USDC", 18, some "0x8AC76a51cc950d9822D68b83fE1Ad97B32Cd580d"⟩]

def assetCatalog (chain : WalletChain) (network : Option EvmNetwork) (cluster : SolanaCluster) :
    List Asset :=
  match chain with
  | .evm => evmAssetCatalog (network.getD .ethereumMainnet)
  | .btc => [⟨"BTC", 8, none⟩]
  | .solana => [⟨"SOL", 9, none⟩, ⟨"USDC", 6, some cluster.usdcMint⟩]
  | .tron => [⟨"TRX", 6, none⟩, ⟨"USDT", 6, some "TR7NHqjeKQxGTCi8q8ZY4pL8otSzgjLj6t"⟩]

/-- The native asset when no symbol is given, else the first whose symbol it is,
in any letter case. -/
def findAsset (chain : WalletChain) (network : Option EvmNetwork) (symbol : Option String)
    (cluster : SolanaCluster) : Except String Asset :=
  let catalog := assetCatalog chain network cluster
  match symbol.map trim with
  | none | some "" =>
    match catalog.find? Asset.native with
    | some asset => .ok asset
    | none => .error ("native asset metadata missing for '" ++ chain.asStr ++ "'")
  | some symbol =>
    match catalog.find? (fun asset => eqIgnoreAsciiCase asset.symbol symbol) with
    | some asset => .ok asset
    | none => .error ("unsupported asset_symbol '" ++ symbol ++ "' for chain '" ++ chain.asStr ++
        "'")

structure PrepareTransferParams where
  chain : WalletChain
  toAddress : String
  amountRaw : String
  assetSymbol : Option String
  evmNetwork : Option EvmNetwork
deriving DecidableEq, Repr

def validateAmount (raw : String) : Except String Nat :=
  let trimmed := trim raw
  if trimmed = "" then .error "amount is empty"
  else match parseU128 trimmed with
    | .ok amount => .ok amount
    | .error _ => .error ("amount '" ++ trimmed ++ "' is not a valid non-negative integer")

/-- A smallest-unit amount with its decimal point. -/
def formatAmount (raw decimals : Nat) : String :=
  if decimals = 0 then toString raw
  else
    let digits := (toString raw).toList
    if digits.length ≤ decimals then
      "0." ++ String.ofList (List.replicate (decimals - digits.length) '0' ++ digits)
    else
      let split := digits.length - decimals
      String.ofList (digits.take split) ++ "." ++ String.ofList (digits.drop split)

def estimatedFeeRaw : WalletChain → PreparedKind → String
  | .evm, .nativeTransfer => toString (21000 * 30000000000)
  | .evm, .tokenTransfer => toString (65000 * 30000000000)
  | .btc, _ => toString 5000
  | .solana, _ => toString 5000
  | .tron, .nativeTransfer => toString 1000000
  | .tron, .tokenTransfer => toString 15000000

def networkText (chain : WalletChain) : Option EvmNetwork → String
  | some network => chain.asStr ++ " (" ++ network.networkLabel ++ ")"
  | none => chain.asStr

def prepareTransfer (host : Host) (owner : Option QuoteOwner) (params : PrepareTransferParams) :
    Op PreparedTransaction := do
  let recipient ← check Address.Error.text
    (Address.validate host.ext params.chain.toChain params.toAddress)
  let amount ← check id (validateAmount params.amountRaw)
  if amount = 0 then failWith "transfer amount must be greater than zero"
  else do
    let network := if params.chain = .evm then some (params.evmNetwork.getD .ethereumMainnet)
      else none
    let account ← requireAccount params.chain
    let asset ← check id (findAsset params.chain network params.assetSymbol host.cluster)
    let kind := if asset.native then PreparedKind.nativeTransfer else .tokenTransfer
    if params.chain = .btc ∧ asset.native = false then
      failWith "token transfers are not supported on Bitcoin"
    else do
      let createdAtMs ← now
      let quoteId ← nextId .native
      let transaction : PreparedTransaction :=
        { quoteId
          kind
          chain := params.chain
          evmNetwork := network
          fromAddress := account.address
          toAddress := recipient
          assetSymbol := asset.symbol
          amountRaw := toString amount
          amountFormatted := formatAmount amount asset.decimals
          tokenAddress := asset.contractAddress
          estimatedFeeRaw := estimatedFeeRaw params.chain kind
          status := .awaitingConfirmation
          createdAtMs
          expiresAtMs := createdAtMs + quoteTtlMs
          notes := ["Prepared " ++ asset.symbol ++ " transfer on " ++
            networkText params.chain network ++ " using default network settings."] }
      insert .native ⟨transaction, owner⟩
      .pure transaction

structure ExecuteParams where
  quoteId : String
  confirmed : Bool
deriving DecidableEq, Repr

def executeOn (host : Host) (quote : PreparedTransaction) : Op ExecutionResult :=
  match quote.chain with
  | .evm => Evm.executeEvmQuote host quote
  | .btc => Btc.executeBtcQuote host quote
  | .solana => Solana.executeSolanaQuote host quote
  | .tron => Tron.executeTronQuote host quote

/-- Run `p` and put `quote` back in its store when `p` reports an error. A panic
unwinds past it. -/
def orRestore {α : Type} (flow : Flow) (quote : flow.Quote) (p : Op α) : Op α := do
  match ← p.attempt with
  | .ok value => .pure value
  | .error (.error message) => do
    restore flow quote
    failWith message
  | .error .panic => .fail .panic

def executePrepared (host : Host) (owner : Option QuoteOwner) (params : ExecuteParams) :
    Op ExecutionResult :=
  if params.confirmed = false then failWith "execute_prepared requires `confirmed: true`"
  else do
    let quote ← take .native params.quoteId owner
    let result ← orRestore .native quote (executeOn host quote.transaction)
    .pure
      { result with
        explorerUrl := result.explorerUrl <|>
          explorerTxUrl quote.transaction.chain host.cluster result.transactionHash }

inductive ChainFamily where
  | evm (network : EvmNetwork)
  | solana
deriving DecidableEq, Repr

def debridgeSolanaChainId : Nat := 7565164

def chainFamily (debridgeChainId : Nat) : Option ChainFamily :=
  if debridgeChainId = 1 then some (.evm .ethereumMainnet)
  else if debridgeChainId = 10 then some (.evm .optimismMainnet)
  else if debridgeChainId = 56 then some (.evm .bscMainnet)
  else if debridgeChainId = 137 then some (.evm .polygonMainnet)
  else if debridgeChainId = 8453 then some (.evm .baseMainnet)
  else if debridgeChainId = 42161 then some (.evm .arbitrumOne)
  else if debridgeChainId = debridgeSolanaChainId then some .solana
  else none

/-- The `value` of an unsigned transaction as a decimal text. -/
def valueToString (tx : Json) : String :=
  match tx.get "value" with
  | some (.string s) => s
  | some (.number n) => n.print
  | _ => "0"

def unsignedFromResponse (resp : Json) (family : ChainFamily) : Except String UnsignedTx :=
  match resp.get "tx" with
  | none => .error "backend response missing unsigned `tx`"
  | some tx =>
    match family with
    | .evm network =>
      match tx.getStr "to" with
      | none => .error "EVM unsigned tx missing `to`"
      | some target => .ok (.evm network target (tx.getStr "data") (valueToString tx))
    | .solana =>
      match tx.getStr "data" with
      | none => .error "Solana unsigned tx missing hex `data` blob"
      | some blob => .ok (.solana blob)

def signingChain : UnsignedTx → WalletChain
  | .evm .. => .evm
  | .solana _ => .solana

def walletAddress (family : ChainFamily) : Op String := do
  let chain := match family with
    | .evm _ => WalletChain.evm
    | .solana => .solana
  let status ← accounts
  if status.configured = false then failWith walletNotConfiguredMessage
  else match status.accounts.find? (·.chain = chain) with
    | some account => .pure account.address
    | none => failWith "wallet has no derived account for the requested chain"

theorem walletAddress_reads (family : ChainFamily) : Only Reads (walletAddress family) := by
  refine only_bind (only_ask _ rfl) fun status => ?_
  split
  · exact .fail _
  · split
    · exact .pure _
    · exact .fail _

/-- Store a prepared quote and return the caller-facing envelope. -/
def storeQuote (owner : Option QuoteOwner) (kind : Web3QuoteKind) (unsigned : UnsignedTx)
    (summary : Json) : Op Web3QuoteResponse := do
  let expiresAtMs := (← now) + quoteTtlMs
  let quoteId ← nextId .web3
  insert .web3 ⟨quoteId, kind, unsigned, summary, owner, expiresAtMs⟩
  .pure ⟨quoteId, kind, expiresAtMs, signingChain unsigned, summary⟩

structure SwapQuoteParams where
  chainId : Nat
  tokenIn : String
  tokenInAmount : String
  tokenOut : String
  tokenOutRecipient : Option String
  senderAddress : Option String
  slippage : Option String
deriving DecidableEq, Repr

def quoteSwap (owner : Option QuoteOwner) (params : SwapQuoteParams) : Op Web3QuoteResponse := do
  match chainFamily params.chainId with
  | none => failWith ("chain id " ++ toString params.chainId ++
      " is not signable by the local wallet (no EVM/Solana signer)")
  | some family => do
    let own ← walletAddress family
    let resp ← backend (.swapTx (.object
      [("chainId", .number (.posInt params.chainId)), ("tokenIn", .string params.tokenIn),
        ("tokenInAmount", .string params.tokenInAmount), ("tokenOut", .string params.tokenOut),
        ("tokenOutRecipient", .string (params.tokenOutRecipient.getD own)),
        ("senderAddress", .string (params.senderAddress.getD own)),
        ("slippage", .string (params.slippage.getD "auto"))]))
    let unsigned ← check id (unsignedFromResponse resp family)
    storeQuote owner .swap unsigned resp

structure BridgeQuoteParams where
  srcChainId : Nat
  srcChainTokenIn : String
  srcChainTokenInAmount : String
  dstChainId : Nat
  dstChainTokenOut : String
  dstChainTokenOutAmount : Option String
  dstChainTokenOutRecipient : Option String
  srcChainOrderAuthorityAddress : Option String
  dstChainOrderAuthorityAddress : Option String
deriving DecidableEq, Repr

/-- The wallet's address on the destination, or the source's where it has none. -/
def destinationAddress (dstChainId : Nat) (srcAddr : String) : Op String :=
  match chainFamily dstChainId with
  | none => .pure srcAddr
  | some family => do
    match ← (walletAddress family).attempt with
    | .ok address => .pure address
    | .error (.error _) => .pure srcAddr
    | .error .panic => .fail .panic

theorem destinationAddress_reads (dstChainId : Nat) (srcAddr : String) :
    Only Reads (destinationAddress dstChainId srcAddr) := by
  unfold destinationAddress
  cases chainFamily dstChainId with
  | none => exact .pure _
  | some family =>
    refine only_bind (only_attempt (walletAddress_reads family)) fun result => ?_
    match result with
    | .ok _ => exact .pure _
    | .error (.error _) => exact .pure _
    | .error .panic => exact .fail _

def quoteBridge (owner : Option QuoteOwner) (params : BridgeQuoteParams) :
    Op Web3QuoteResponse := do
  if params.srcChainId = params.dstChainId then
    failWith ("bridge requires different source and destination chains; use web3_swap for " ++
      "same-chain swaps")
  else match chainFamily params.srcChainId with
  | none => failWith ("source chain id " ++ toString params.srcChainId ++
      " is not signable by the local wallet")
  | some family => do
    let srcAddr ← walletAddress family
    let dstAddr ← destinationAddress params.dstChainId srcAddr
    let resp ← backend (.bridgeTx (.object
      [("srcChainId", .number (.posInt params.srcChainId)),
        ("srcChainTokenIn", .string params.srcChainTokenIn),
        ("srcChainTokenInAmount", .string params.srcChainTokenInAmount),
        ("dstChainId", .number (.posInt params.dstChainId)),
        ("dstChainTokenOut", .string params.dstChainTokenOut),
        ("dstChainTokenOutAmount", .string (params.dstChainTokenOutAmount.getD "auto")),
        ("dstChainTokenOutRecipient",
          .string (params.dstChainTokenOutRecipient.getD dstAddr)),
        ("srcChainOrderAuthorityAddress",
          .string (params.srcChainOrderAuthorityAddress.getD srcAddr)),
        ("dstChainOrderAuthorityAddress",
          .string (params.dstChainOrderAuthorityAddress.getD dstAddr))]))
    -- signed and broadcast on the source chain
    let unsigned ← check id (unsignedFromResponse resp family)
    storeQuote owner .bridge unsigned resp

structure DappCallParams where
  contractAddress : String
  calldata : String
  valueRaw : Option String
  evmNetwork : Option EvmNetwork
deriving DecidableEq, Repr

def dappSummary (network : EvmNetwork) (contract calldata value : String) : Json :=
  .object [("type", .string "dapp_call"), ("network", .string network.asStr),
    ("contractAddress", .string contract), ("calldata", .string calldata),
    ("valueRaw", .string value)]

/-- The checks of `prepare_dapp_call` on contract and calldata, both trimmed. -/
def dappCall (params : DappCallParams) : Except String (String × String) :=
  let contract := trim params.contractAddress
  let calldata := trim params.calldata
  if contract = "" then .error "contract_address is empty"
  else match strip "0x" calldata with
    | none => .error "calldata must be 0x-prefixed hex"
    | some body =>
      if byteLen body.toList % 2 ≠ 0 ∨ body.toList.all isAsciiHexDigit = false then
        .error "calldata must be valid even-length hex"
      else .ok (contract, calldata)

def prepareDappCall (owner : Option QuoteOwner) (params : DappCallParams) :
    Op Web3QuoteResponse := do
  let network := params.evmNetwork.getD .ethereumMainnet
  let (contract, calldata) ← check id (dappCall params)
  let value := params.valueRaw.getD "0"
  let _ ← walletAddress (.evm network)
  storeQuote owner .dappCall (.evm network contract (some calldata) value)
    (dappSummary network contract calldata value)

structure Web3ExecutionResult where
  quoteId : String
  kind : Web3QuoteKind
  transactionHash : String
  explorerUrl : Option String
  feeRaw : Option String
deriving DecidableEq, Repr

def broadcastUnsigned (host : Host) : UnsignedTx → Op Evm.RawBroadcastResult
  | .evm network target data value => Evm.signAndBroadcastEvm host network target data value
  | .solana txBlobHex => Solana.signAndBroadcastVersioned host txBlobHex

def executeQuote (host : Host) (owner : Option QuoteOwner) (params : ExecuteParams) :
    Op Web3ExecutionResult :=
  if params.confirmed = false then failWith "execute requires `confirmed: true`"
  else do
    let quote ← take .web3 params.quoteId owner
    let result ← orRestore .web3 quote (broadcastUnsigned host quote.unsigned)
    .pure ⟨params.quoteId, quote.kind, result.transactionHash, result.explorerUrl, result.feeRaw⟩

/-- An EVM transfer needs none of the crates. -/
def sampleHost : Host where
  ext :=
    { sha256 := fun _ => []
      base58Decode := fun _ => .error "not used"
      base58CheckDecode := fun _ _ => .error "not used"
      base58Encode := fun _ => ""
      segwitDecode := fun _ => .error "not used"
      onCurve := fun _ => false }
  codec := ⟨fun _ => .error "not used", fun _ => "", fun _ => ""⟩
  cluster := .mainnet
  base64Encode := fun _ => ""
  base64Decode := fun _ => .error "not used"
  hexError := fun _ => ""

def sampleNow : Nat := 1700000000000

end Execution
