import TinyWallet.Engine.Evm

/-!
# Comparing quotes with execution intents

The pure comparisons a host may gate its approvals on: a prepared transfer with
the transaction or message about to be signed, and a web3 quote with the request
that asks for its approval.
-/

namespace Intent

open RustText Numerals JsonValue Wire TronVerify

def validHex (value : String) : Bool :=
  value ≠ "" && byteLen value.toList % 2 == 0 && value.toList.all isAsciiHexDigit

/-- Strip `0x` or `0X`. -/
def stripHexPrefix (text : String) : Option String := strip "0x" text <|> strip "0X" text

/-- The 64 hex digits of a 256-bit decimal; `none` where it overflows. -/
def decimalU256Word (decimal : String) : Option String :=
  if decimal.toList.isEmpty || !decimal.toList.all isAsciiDigit then none
  else (LongDecimal.decimalInto 16 decimal.toList (List.replicate 32 0)).map hexLower

/-- `format!("{text:0>width}")`. -/
def zeroPadded (width : Nat) (text : String) : String :=
  String.ofList (List.replicate (width - text.toList.length) '0' ++ text.toList)

def evmTransferDataMatches (data recipient amount : String) : Bool :=
  match stripHexPrefix recipient with
  | none => false
  | some address =>
    if byteLen address.toList ≠ 40 || address.toList.all isAsciiHexDigit = false then false
    else match decimalU256Word amount with
      | none => false
      | some amountWord =>
        let expected := "a9059cbb" ++ zeroPadded 64 (toAsciiLowercase address) ++ amountWord
        let actual := (stripHexPrefix data).getD data
        eqIgnoreAsciiCase actual expected

def u64Is (text : String) (value : Nat) : Bool :=
  match parseU64 text with
  | .ok amount => amount = value
  | .error _ => false

def transactionMatchesQuote (quote : PreparedTransaction) : TransactionSpec → Bool
  | .btc sender recipient amountSat _ _ =>
    quote.chain = .btc && quote.kind = .nativeTransfer && sender = quote.fromAddress &&
      recipient = quote.toAddress && u64Is quote.amountRaw amountSat
  | .evm target valueWei dataHex _ _ _ chainId =>
    let network := quote.evmNetwork.getD .ethereumMainnet
    if quote.chain ≠ .evm || network.chainId ≠ chainId then false
    else match quote.kind with
      | .nativeTransfer =>
        target = quote.toAddress && valueWei = quote.amountRaw && dataHex = ""
      | .tokenTransfer =>
        match quote.tokenAddress with
        | none => false
        | some contract =>
          eqIgnoreAsciiCase target contract && valueWei = "0" &&
            evmTransferDataMatches dataHex quote.toAddress quote.amountRaw
  | .solana sender recipient lamports _ =>
    quote.chain = .solana && quote.kind = .nativeTransfer && sender = quote.fromAddress &&
      recipient = quote.toAddress && u64Is quote.amountRaw lamports
  | .tron _ expectedTo _ transfer =>
    if quote.chain ≠ .tron || expectedTo ≠ quote.toAddress then false
    else match quote.kind, transfer with
      | .nativeTransfer, .native amountSun => u64Is quote.amountRaw amountSun
      | .tokenTransfer, .trc20 parameterHex => validHex parameterHex
      | _, _ => false

def nativeIntentMatchesQuote (quote : PreparedTransaction) :
    NativeWalletExecutionIntent → Bool
  | .transaction transaction => transactionMatchesQuote quote transaction
  | .solanaMessage messageHex =>
    quote.chain = .solana && quote.kind = .tokenTransfer && validHex messageHex

def knownEvmChain (network : String) (chainId : Nat) : Bool :=
  EvmNetwork.all.any fun known => known.asStr = network && known.chainId = chainId

def decimalJson : Option Json → Option String
  | some (.string value) => some value
  | some (.number value) => some value.print
  | _ => none

def operationMatches : Web3QuoteKind → String → Bool
  | .swap, operation => operation = "swap"
  | .bridge, operation => operation = "bridge"
  | .dappCall, operation => operation = "dapp_call"

/-- The call a dapp quote states. -/
def dappMatches (quote : Json) (target : String) (data : Option String) (value : String) : Bool :=
  (quote.getStr "contractAddress").any (fun expected => eqIgnoreAsciiCase expected target) &&
    (quote.getStr "calldata").any (fun expected => data = some expected) &&
    (quote.getStr "valueRaw").any (fun expected => expected = value)

/-- The unsigned transaction a swap or bridge quote carries. -/
def txMatches (quote : Json) (target : String) (data : Option String) (value : String) : Bool :=
  (quote.get "tx").any fun transaction =>
    (transaction.getStr "to").any (fun expected => eqIgnoreAsciiCase expected target) &&
      transaction.getStr "data" = data && decimalJson (transaction.get "value") = some value

def web3ApprovalMatchesRequest (quote : Web3QuoteResponse)
    (request : AuthorizeWeb3ExecutionRequest) : Bool :=
  if quote.quoteId ≠ request.quoteId || operationMatches quote.kind request.operation = false then
    false
  else match request.transaction, quote.signingChain with
    | .evm network target data value _ _ _ chainId, .evm =>
      if (quote.quote.getStr "network").any (fun expected => expected ≠ network) ||
          knownEvmChain network chainId = false then false
      else match quote.kind with
        | .dappCall => dappMatches quote.quote target data value
        | .swap | .bridge => txMatches quote.quote target data value
    | .solana txBlobHex, .solana =>
      quote.kind ≠ .dappCall &&
        ((quote.quote.get "tx").bind fun transaction => transaction.getStr "data") = some txBlobHex
    | _, _ => false

end Intent
