import TinyWallet.Engine.Protocol

/-!
# The module's signer and its guarded operations

The module runs the engine with a signer of its own: the secret that arrived
with a call lies in a slot of that call and is consumed by the first signature,
and the host is asked before. A Solana blob is approved before the execution
starts; everything else is approved inside the signer. The lock around a
service is held for the whole call, so that a service is replaced only when no
call uses it.

The members that prepare quotes get their parameters as the decoder left them.
-/

namespace WalletModule

open RustText JsonValue Programs Wire Engine QuoteStore

/-- An error as the bus reports it. -/
structure BusError where
  name : String
  message : String
deriving DecidableEq, Repr

def hostUnavailable : BusError :=
  ⟨"ai.tinyhumans.tinywallet.Error.HostUnavailable",
    "wallet host callback interface is unavailable"⟩

def hostCallFailed (message : String) : BusError :=
  ⟨"ai.tinyhumans.tinywallet.Error.HostCallFailed", message⟩

def invalidInput (message : String) : BusError :=
  ⟨"ai.tinyhumans.tinywallet.Error.InvalidInput", message⟩

def web3OperationFailed (message : String) : BusError :=
  ⟨"ai.tinyhumans.tinywallet.Error.Web3OperationFailed", message⟩

def nativeWalletOperationFailed (message : String) : BusError :=
  ⟨"ai.tinyhumans.tinywallet.Error.NativeWalletOperationFailed", message⟩

def authorizationDenied (message : String) : BusError :=
  ⟨"ai.tinyhumans.tinywallet.Error.AuthorizationDenied", message⟩

abbrev BusOp := Prog Request Request.Answer (Failure BusError)

def failedAs (wrap : String → BusError) : Failure String → Failure BusError
  | .error message => .error (wrap message)
  | .panic => .panic

/-- An engine operation whose errors are reported under one name. -/
def reportAs {α : Type} (wrap : String → BusError) (p : Op α) : BusOp α :=
  p.mapError (failedAs wrap)

def refuse {α : Type} (error : BusError) : BusOp α := .fail (.error error)

structure Web3ApprovalContext where
  quoteId : String
  operation : String
  solanaIntent : Option Web3ExecutionIntent
deriving DecidableEq, Repr

/-- The approval a call runs under: a prepared transfer, or a web3 quote. -/
structure ApprovalContext where
  native : Option PreparedTransaction
  web3 : Option Web3ApprovalContext
deriving DecidableEq, Repr

def notApproved (decision : AuthorizationResult) : String :=
  decision.reason.getD "wallet transaction was not approved"

def decided : Except String AuthorizationResult → Except String Unit
  | .error message => .error message
  | .ok decision => if decision.approved then .ok () else .error (notApproved decision)

def authorizeNative (quote : PreparedTransaction) (intent : NativeWalletExecutionIntent) :
    Op (Except String Unit) :=
  .ask (.authorizeNative ⟨quote.quoteId, "transfer", quote, intent⟩)
    fun (answer : Except String AuthorizationResult) => .ok (decided answer)

def authorizeWeb3 (request : AuthorizeWeb3ExecutionRequest) : Op (Except String Unit) :=
  .ask (.authorizeWeb3 request)
    fun (answer : Except String AuthorizationResult) => .ok (decided answer)

/-- An EVM transaction as the host sees it. -/
def web3Intent : TransactionSpec → Option Web3ExecutionIntent
  | .evm target valueWei dataHex nonce gasLimit gasPriceWei chainId =>
    some (.evm ("eip155:" ++ toString chainId) target (some dataHex) valueWei nonce gasLimit
      gasPriceWei chainId)
  | _ => none

def approveTransaction (context : ApprovalContext) (chain : WalletChain) (spec : TransactionSpec) :
    Op (Except String Unit) :=
  match context.native with
  | some quote => authorizeNative quote (.transaction spec)
  | none =>
    if chain ≠ .evm then .pure (.ok ())
    else match context.web3 with
      | none => .pure (.error "EVM quote approval context is unavailable")
      | some approval =>
        match web3Intent spec with
        | none => .pure (.error "EVM signer received a non-EVM transaction")
        | some intent => authorizeWeb3 ⟨approval.quoteId, approval.operation, intent⟩

/-- Outside a prepared transfer a message is not asked about here. -/
def approveMessage (context : ApprovalContext) (message : List UInt8) : Op (Except String Unit) :=
  match context.native with
  | some quote => authorizeNative quote (.solanaMessage (hexLower message))
  | none => .pure (.ok ())

/-- The slot is emptied even when the secret turns out to be for another chain. -/
def consume {α : Type} (chain : WalletChain) (sign : SecretMaterial → Op (Except String α)) :
    Option SecretMaterial → Op (Except String α × Option SecretMaterial)
  | none => .pure (.error "wallet secret was already consumed", none)
  | some secret =>
    if secret.chain ≠ chain.toChain then
      .pure (.error "wallet secret chain does not match the requested signing chain", none)
    else do
      let result ← sign secret
      .pure (result, none)

def approvedThen {α : Type} (slot : Option SecretMaterial)
    (sign : Op (Except String α × Option SecretMaterial)) :
    Except String Unit → Op (Except String α × Option SecretMaterial)
  | .error message => .pure (.error message, slot)
  | .ok () => sign

def signTransaction (context : ApprovalContext) (slot : Option SecretMaterial)
    (chain : WalletChain) (spec : TransactionSpec) :
    Op (Except String SignedTransaction × Option SecretMaterial) := do
  let approval ← approveTransaction context chain spec
  approvedThen slot
    (consume chain (fun secret => Prog.perform (Request.moduleSign secret spec)) slot) approval

def signMessage (context : ApprovalContext) (slot : Option SecretMaterial) (chain : WalletChain)
    (message : List UInt8) (scheme : Scheme) :
    Op (Except String Signature × Option SecretMaterial) := do
  let approval ← approveMessage context message
  approvedThen slot (consume chain
    (fun secret => Prog.perform (Request.moduleSignMessage secret (hexLower message) scheme)) slot)
    approval

/-- Run an engine operation over this signer. Every other request goes to the
host as it is; deriving an account needs the secret to be there still. -/
def withSigner {α : Type} (context : ApprovalContext) :
    Op α → Option SecretMaterial → Op α
  | .pure a, _ => .pure a
  | .fail e, _ => .fail e
  | .call (.signTransaction chain spec) k, slot => do
    let (result, slot) ← signTransaction context slot chain spec
    withSigner context (k result) slot
  | .call (.signMessage chain message scheme) k, slot => do
    let (result, slot) ← signMessage context slot chain message scheme
    withSigner context (k result) slot
  | .call (.derive _) k, none =>
    withSigner context (k (.error "wallet secret was already consumed")) none
  | .call e k, slot => .call e fun r => withSigner context (k r) slot

theorem withSigner_call {α : Type} {context : ApprovalContext} {slot : Option SecretMaterial}
    {e : Request} {k : e.Answer → Op α} (h : e.role ≠ .sign)
    (ready : e.role = .read → slot.isSome) :
    withSigner context (.call e k) slot = .call e fun r => withSigner context (k r) slot := by
  cases e with
  | signTransaction => simp [Request.role] at h
  | signMessage => simp [Request.role] at h
  | derive chain =>
    cases slot with
    | none => simp [Request.role] at ready
    | some secret => rfl
  | _ => rfl

structure ExecuteRequest where
  service : String
  owner : Option QuoteOwner
  quoteId : String
  confirmed : Bool
  secret : SecretMaterial
deriving DecidableEq, Repr

/-- Run `body` under the read lock of a service. -/
def locked {α : Type} (flow : Flow) (body : Option ServiceFacts → BusOp α) : BusOp α :=
  .call (.enter flow) fun (facts : Option ServiceFacts) => do
    let result ← (body facts).attempt
    .call (.leave flow) fun (_ : Unit) => .lift result

/-- The service a request names, if it is the open one. -/
def withService {α : Type} (flow : Flow) (service : String) (foreign : BusError)
    (body : ServiceFacts → BusOp α) : BusOp α :=
  locked flow fun facts =>
    match facts with
    | none => refuse hostUnavailable
    | some facts => if service ≠ facts.handle then refuse foreign else body facts

def web3Foreign : BusError := web3OperationFailed "web3 service handle is unavailable"

def nativeForeign : BusError :=
  nativeWalletOperationFailed "native wallet service handle is unavailable"

def executionApproval (quote : StoredQuote) : Web3ApprovalContext where
  quoteId := quote.quoteId
  operation := match quote.kind with
    | .swap => "swap"
    | .bridge => "bridge"
    | .dappCall => "dapp_call"
  solanaIntent := match quote.unsigned with
    | .evm _ _ _ _ => none
    | .solana txBlobHex => some (.solana txBlobHex)

/-- Ask about a Solana blob before anything is executed. -/
def approveBlob (approval : Web3ApprovalContext) : BusOp Unit :=
  match approval.solanaIntent with
  | some (.solana txBlobHex) =>
    .call (.authorizeWeb3 ⟨approval.quoteId, approval.operation, .solana txBlobHex⟩)
      fun (answer : Except String AuthorizationResult) =>
        match answer with
        | .error message => refuse (hostCallFailed message)
        | .ok decision =>
          if decision.approved then .pure ()
          else refuse (authorizationDenied (notApproved decision))
  | _ => .pure ()

def web3Execute (host : Host) (request : ExecuteRequest) : BusOp Execution.Web3ExecutionResult :=
  withService .web3 request.service web3Foreign fun facts =>
    if request.confirmed = false then
      refuse (invalidInput "web3 execution requires confirmed: true")
    else do
      let quote ← reportAs web3OperationFailed (get .web3 request.quoteId request.owner)
      let approval := executionApproval quote
      approveBlob approval
      reportAs web3OperationFailed (withSigner ⟨none, some approval⟩
        (Execution.executeQuote { host with cluster := facts.cluster } request.owner
          ⟨request.quoteId, request.confirmed⟩) (some request.secret))

def nativeWalletExecutePrepared (host : Host) (request : ExecuteRequest) :
    BusOp ExecutionResult :=
  withService .native request.service nativeForeign fun facts =>
    if request.confirmed = false then
      refuse (invalidInput "native wallet execution requires confirmed: true")
    else do
      let quote ← reportAs nativeWalletOperationFailed
        (get .native request.quoteId request.owner)
      reportAs nativeWalletOperationFailed (withSigner ⟨some quote.transaction, none⟩
        (Execution.executePrepared { host with cluster := facts.cluster } request.owner
          ⟨request.quoteId, request.confirmed⟩) (some request.secret))

/-- The three members that prepare a web3 quote. -/
def web3Quote {P : Type} (operation : Option QuoteOwner → P → Op Web3QuoteResponse)
    (service : String) (owner : Option QuoteOwner) (params : Except String P) :
    BusOp Web3QuoteResponse :=
  withService .web3 service web3Foreign fun _ =>
    match params with
    | .error message => refuse (invalidInput message)
    | .ok params => reportAs web3OperationFailed (operation owner params)

def web3SwapQuote : String → Option QuoteOwner → Except String Execution.SwapQuoteParams →
    BusOp Web3QuoteResponse :=
  web3Quote Execution.quoteSwap

def web3BridgeQuote : String → Option QuoteOwner → Except String Execution.BridgeQuoteParams →
    BusOp Web3QuoteResponse :=
  web3Quote Execution.quoteBridge

def web3DappQuote : String → Option QuoteOwner → Except String Execution.DappCallParams →
    BusOp Web3QuoteResponse :=
  web3Quote Execution.prepareDappCall

def nativeWalletPrepareTransfer (host : Host) (service : String) (owner : Option QuoteOwner)
    (params : Execution.PrepareTransferParams) : BusOp PreparedTransaction :=
  withService .native service nativeForeign fun facts =>
    reportAs nativeWalletOperationFailed
      (Execution.prepareTransfer { host with cluster := facts.cluster } owner params)

/-- Open or replace a service; its handle is drawn at random. -/
def configureService (flow : Flow) (cluster : SolanaCluster) : BusOp String :=
  Prog.perform (Request.configure flow cluster)

def closeService (flow : Flow) (handle : String) (foreign : BusError) : BusOp Unit :=
  .call (.close flow handle) fun (outcome : Closing) =>
    match outcome with
    | .absent => refuse hostUnavailable
    | .foreign => refuse foreign
    | .closed => .pure ()

end WalletModule
