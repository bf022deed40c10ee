import TinyWallet.Library.Programs
import TinyWallet.Wire

/-!
# What the wallet engine asks of its surroundings

The engine is written over seams: a transport, a signer, the host's accounts, a
quote backend, a clock and its own quote stores. Each use of a seam is a request
here, so that an operation is a program of requests and any number of
operations may interleave between them. The module adds the lock around each of
its services, the two approval calls and the primitive signing calls behind its
signer.

An operation fails with the message it reports, or panics.
-/

namespace Engine

open RustText JsonValue Programs Wire TronVerify

/-- The crates and settings every operation is handed. -/
structure Host where
  ext : Address.Crates
  codec : Codec
  cluster : SolanaCluster
  base64Encode : List UInt8 → String
  base64Decode : String → Except String (List UInt8)
  /-- The text of a failed `hex::decode`. -/
  hexError : String → String

inductive UnsignedTx where
  | evm (network : EvmNetwork) (target : String) (data : Option String) (value : String)
  | solana (txBlobHex : String)
deriving DecidableEq, Repr

/-- A prepared swap, bridge or dapp call as the store holds it. -/
structure StoredQuote where
  quoteId : String
  kind : Web3QuoteKind
  unsigned : UnsignedTx
  summary : Json
  owner : Option QuoteOwner
  expiresAtMs : Nat

/-- A prepared transfer as the store holds it. -/
structure PreparedTransferQuote where
  transaction : PreparedTransaction
  owner : Option QuoteOwner
deriving DecidableEq, Repr

/-- The two confirm-then-execute flows, each with a store of its own. -/
inductive Flow where
  | native
  | web3
deriving DecidableEq, Repr

abbrev Flow.Quote : Flow → Type
  | .native => PreparedTransferQuote
  | .web3 => StoredQuote

inductive BackendCall where
  | swapTx (body : Json)
  | bridgeTx (body : Json)

/-- What a caller sees of a service the module has opened. -/
structure ServiceFacts where
  handle : String
  cluster : SolanaCluster
deriving DecidableEq, Repr

inductive Closing where
  | absent
  | foreign
  | closed
deriving DecidableEq, Repr

inductive Request where
  | enter (flow : Flow)
  | leave (flow : Flow)
  | configure (flow : Flow) (cluster : SolanaCluster)
  | close (flow : Flow) (handle : String)
  | now
  | nextId (flow : Flow)
  | insert (flow : Flow) (quote : flow.Quote)
  | restore (flow : Flow) (quote : flow.Quote)
  | take (flow : Flow) (quoteId : String) (caller : Option QuoteOwner)
  | get (flow : Flow) (quoteId : String) (caller : Option QuoteOwner)
  | jsonRpc (network : NetworkId) (method : String) (params : Json)
  | restGet (network : NetworkId) (path : String)
  | restPost (network : NetworkId) (path body contentType : String)
  | accounts
  | backend (call : BackendCall)
  | derive (chain : WalletChain)
  | signTransaction (chain : WalletChain) (transaction : TransactionSpec)
  | signMessage (chain : WalletChain) (message : List UInt8) (scheme : Scheme)
  | authorizeWeb3 (request : AuthorizeWeb3ExecutionRequest)
  | authorizeNative (request : AuthorizeNativeWalletExecutionRequest)
  | moduleSign (secret : SecretMaterial) (transaction : TransactionSpec)
  | moduleSignMessage (secret : SecretMaterial) (messageHex : String) (scheme : Scheme)

def Request.Answer : Request → Type
  | .enter _ => Option ServiceFacts
  | .leave _ => Unit
  | .configure _ _ => String
  | .close _ _ => Closing
  | .now => Nat
  | .nextId _ => String
  | .insert _ _ => Unit
  | .restore _ _ => Unit
  | .take flow _ _ => Except String flow.Quote
  | .get flow _ _ => Except String flow.Quote
  | .jsonRpc .. => Except TransportError Json
  | .restGet .. => Except TransportError String
  | .restPost .. => Except TransportError String
  | .accounts => Except String WalletStatus
  | .backend _ => Except String Json
  | .derive _ => Except String DerivedAccount
  | .signTransaction _ _ => Except String SignedTransaction
  | .signMessage _ _ _ => Except String Signature
  | .authorizeWeb3 _ => Except String AuthorizationResult
  | .authorizeNative _ => Except String AuthorizationResult
  | .moduleSign _ _ => Except String SignedTransaction
  | .moduleSignMessage _ _ _ => Except String Signature

/-- What a request is for. -/
inductive Role where
  | store
  | read
  | sign
  | broadcast
deriving DecidableEq, Repr

def Request.role : Request → Role
  | .enter _ | .leave _ | .configure .. | .close .. => .store
  | .nextId _ | .insert .. | .restore .. | .take .. | .get .. => .store
  | .jsonRpc _ method _ =>
    if method = "eth_sendRawTransaction" ∨ method = "sendTransaction" then .broadcast else .read
  | .restPost _ path _ _ =>
    if path = "tx" ∨ path = "wallet/broadcasttransaction" then .broadcast else .read
  | .now | .restGet .. | .accounts | .backend _ | .derive _ => .read
  | .signTransaction .. | .signMessage .. | .authorizeWeb3 _ | .authorizeNative _ => .sign
  | .moduleSign .. | .moduleSignMessage .. => .sign

def Reads (e : Request) : Prop := e.role = .read

abbrev Op := Prog Request Request.Answer (Failure String)

def failWith {α : Type} (message : String) : Op α := .fail (.error message)

def orFail {α ε : Type} (message : ε → String) : Except ε α → Except (Failure String) α :=
  Except.mapError fun e => .error (message e)

def check {α ε : Type} (message : ε → String) (x : Except ε α) : Op α := .lift (orFail message x)

theorem only_check {α ε : Type} {P : Request → Prop} (message : ε → String) (x : Except ε α) :
    Only P (check message x) :=
  only_lift _

theorem returns_check {α ε : Type} {Q : α → Prop} {message : ε → String} {x : Except ε α}
    (h : ∀ a, x = .ok a → Q a) : Returns Q (check message x) := by
  cases x with
  | error e => exact .fail _
  | ok a => exact .pure (h a rfl)

/-- A check that passed tells what it computed. -/
theorem returns_checked {α β ε : Type} {Q : β → Prop} {message : ε → String} {x : Except ε α}
    {f : α → Op β} (hf : ∀ a, x = .ok a → Returns Q (f a)) :
    Returns Q (check message x >>= f) := by
  cases x with
  | error e => exact .fail _
  | ok a => exact hf a rfl

def now : Op Nat := .ask .now fun (ms : Nat) => .ok ms

def nextId (flow : Flow) : Op String := .ask (.nextId flow) fun (id : String) => .ok id

def insert (flow : Flow) (quote : flow.Quote) : Op Unit :=
  .ask (.insert flow quote) fun (_ : Unit) => .ok ()

def restore (flow : Flow) (quote : flow.Quote) : Op Unit :=
  .ask (.restore flow quote) fun (_ : Unit) => .ok ()

def take (flow : Flow) (quoteId : String) (caller : Option QuoteOwner) : Op flow.Quote :=
  .ask (.take flow quoteId caller) fun (answer : Except String flow.Quote) => orFail id answer

def get (flow : Flow) (quoteId : String) (caller : Option QuoteOwner) : Op flow.Quote :=
  .ask (.get flow quoteId caller) fun (answer : Except String flow.Quote) => orFail id answer

def accounts : Op WalletStatus :=
  .ask .accounts fun (answer : Except String WalletStatus) => orFail id answer

def backend (call : BackendCall) : Op Json :=
  .ask (.backend call) fun (answer : Except String Json) => orFail id answer

def derive (chain : WalletChain) : Op DerivedAccount :=
  .ask (.derive chain) fun (answer : Except String DerivedAccount) => orFail id answer

def signTransaction (chain : WalletChain) (transaction : TransactionSpec) : Op SignedTransaction :=
  .ask (.signTransaction chain transaction) fun (answer : Except String SignedTransaction) =>
    orFail id answer

def signMessage (chain : WalletChain) (message : List UInt8) (scheme : Scheme) : Op Signature :=
  .ask (.signMessage chain message scheme) fun (answer : Except String Signature) =>
    orFail id answer

-- The typed helpers over the transport flatten a failure to its message, whatever its kind.

def networkId (chain : WalletChain) (network : Option EvmNetwork) : NetworkId :=
  match chain with
  | .evm => .evm (network.getD .ethereumMainnet).chainId
  | other => .ofChain other.toChain

section Transport

variable (host : Host)

def jsonRpc {α : Type} (network : NetworkId) (method : String) (params : Json)
    (decode : Json → Option α) : Op α :=
  .ask (.jsonRpc network method params) fun (answer : Except TransportError Json) =>
    match answer with
    | .error e => .error (.error e.message)
    | .ok value =>
      match decode value with
      | some a => .ok a
      | none => .error (.error ("wallet RPC invalid result for " ++ method ++ ": " ++
          host.codec.mismatch value))

def rpcCall {α : Type} (chain : WalletChain) (method : String) (params : Json)
    (decode : Json → Option α) : Op α :=
  jsonRpc host (networkId chain none) method params decode

def evmRpcCall {α : Type} (network : EvmNetwork) (method : String) (params : Json)
    (decode : Json → Option α) : Op α :=
  jsonRpc host (networkId .evm (some network)) method params decode

def decodeText {α : Type} (verb : String) (decode : Json → Option α) (body : String) :
    Except (Failure String) α :=
  let failed (e : String) : Failure String :=
    .error ("wallet REST " ++ verb ++ " decode failed: " ++ e ++ "; body=" ++ body)
  match host.codec.parse body with
  | .error e => .error (failed e)
  | .ok value =>
    match decode value with
    | some a => .ok a
    | none => .error (failed (host.codec.mismatch value))

def restGetJson {α : Type} (chain : WalletChain) (path : String) (decode : Json → Option α) :
    Op α :=
  .ask (.restGet (networkId chain none) path) fun (answer : Except TransportError String) =>
    match answer with
    | .error e => .error (.error e.message)
    | .ok body => decodeText host "GET" decode body

theorem rpcCall_only {α : Type} {P : Request → Prop} {chain : WalletChain} {method : String}
    {params : Json} {decode : Json → Option α}
    (h : P (.jsonRpc (networkId chain none) method params)) :
    Only P (rpcCall host chain method params decode) :=
  only_ask _ h

theorem evmRpcCall_only {α : Type} {P : Request → Prop} {network : EvmNetwork} {method : String}
    {params : Json} {decode : Json → Option α}
    (h : P (.jsonRpc (networkId .evm (some network)) method params)) :
    Only P (evmRpcCall host network method params decode) :=
  only_ask _ h

def restPostText (chain : WalletChain) (path body contentType : String) : Op String :=
  .ask (.restPost (networkId chain none) path body contentType)
    fun (answer : Except TransportError String) => orFail TransportError.message answer

def restPostJson {α : Type} (chain : WalletChain) (path : String) (body : Json)
    (decode : Json → Option α) : Op α :=
  .ask (.restPost (networkId chain none) path (host.codec.print body) "application/json")
    fun (answer : Except TransportError String) =>
      match answer with
      | .error e => .error (.error e.message)
      | .ok text => decodeText host "POST" decode text

end Transport

def walletNotConfiguredMessage : String := "wallet is not configured; run wallet setup first"

def requireAccount (chain : WalletChain) : Op WalletAccount := do
  let status ← accounts
  if status.configured = false then failWith walletNotConfiguredMessage
  else match status.accounts.find? (·.chain = chain) with
    | some account => .pure account
    | none => failWith ("no wallet account derived for chain '" ++ chain.asStr ++ "'")

theorem requireAccount_reads (chain : WalletChain) : Only Reads (requireAccount chain) := by
  refine only_bind (only_ask _ rfl) fun status => ?_
  split
  · exact .fail _
  · split
    · exact .pure _
    · exact .fail _

def explorerTxUrl (chain : WalletChain) (cluster : SolanaCluster) (txHash : String) :
    Option String :=
  match chain with
  | .evm => some (EvmNetwork.ethereumMainnet.explorerTxBase ++ txHash)
  | .btc => some ("https://blockstream.info/tx/" ++ txHash)
  | .solana => some ("https://solscan.io/tx/" ++ txHash ++ cluster.explorerTxSuffix)
  | .tron => some ("https://tronscan.org/#/transaction/" ++ txHash)

def explorerTxUrlForEvmNetwork (network : EvmNetwork) (txHash : String) : Option String :=
  some (network.explorerTxBase ++ txHash)

end Engine
