import TinyWallet.Library.Json
import TinyWallet.Tron.Verify

/-!
# The wire vocabulary

Chains, networks, quotes, transaction descriptions and approval requests as the
bus contract spells them, with the transport's errors. Fields that no modelled
operation reads or returns are left out.
-/

namespace Wire

open JsonValue TronVerify

inductive WalletChain where
  | evm
  | btc
  | solana
  | tron
deriving DecidableEq, Repr

def WalletChain.asStr : WalletChain → String
  | .evm => "evm"
  | .btc => "btc"
  | .solana => "solana"
  | .tron => "tron"

def WalletChain.toChain : WalletChain → Address.Chain
  | .evm => .evm
  | .btc => .btc
  | .solana => .solana
  | .tron => .tron

inductive EvmNetwork where
  | ethereumMainnet
  | baseMainnet
  | arbitrumOne
  | optimismMainnet
  | polygonMainnet
  | bscMainnet
deriving DecidableEq, Repr

namespace EvmNetwork

def all : List EvmNetwork :=
  [.ethereumMainnet, .baseMainnet, .arbitrumOne, .optimismMainnet, .polygonMainnet, .bscMainnet]

def asStr : EvmNetwork → String
  | .ethereumMainnet => "ethereum_mainnet"
  | .baseMainnet => "base_mainnet"
  | .arbitrumOne => "arbitrum_one"
  | .optimismMainnet => "optimism_mainnet"
  | .polygonMainnet => "polygon_mainnet"
  | .bscMainnet => "bsc_mainnet"

def chainId : EvmNetwork → Nat
  | .ethereumMainnet => 1
  | .baseMainnet => 8453
  | .arbitrumOne => 42161
  | .optimismMainnet => 10
  | .polygonMainnet => 137
  | .bscMainnet => 56

def explorerTxBase : EvmNetwork → String
  | .ethereumMainnet => "https://etherscan.io/tx/"
  | .baseMainnet => "https://basescan.org/tx/"
  | .arbitrumOne => "https://arbiscan.io/tx/"
  | .optimismMainnet => "https://optimistic.etherscan.io/tx/"
  | .polygonMainnet => "https://polygonscan.com/tx/"
  | .bscMainnet => "https://bscscan.com/tx/"

def networkLabel : EvmNetwork → String
  | .ethereumMainnet => "ethereum-mainnet"
  | .baseMainnet => "base-mainnet"
  | .arbitrumOne => "arbitrum-one"
  | .optimismMainnet => "optimism-mainnet"
  | .polygonMainnet => "polygon-mainnet"
  | .bscMainnet => "bsc-mainnet"

theorem asStr_injective {a b : EvmNetwork} (h : a.asStr = b.asStr) : a = b := by
  cases a <;> cases b <;> first | rfl | exact absurd h (by decide)

end EvmNetwork

inductive SolanaCluster where
  | mainnet
  | devnet
deriving DecidableEq, Repr

def SolanaCluster.usdcMint : SolanaCluster → String
  | .mainnet => "EPjFWdd5AufqSSqeM2qN1xzybapC8G4wEGGkZwyTDt1v"
  | .devnet => "4zMMC9srt5Ri5X14GAgXhaHii3GnPAEERYPJgZJDncDU"

def SolanaCluster.explorerTxSuffix : SolanaCluster → String
  | .mainnet => ""
  | .devnet => "?cluster=devnet"

structure NetworkId where
  chain : Address.Chain
  evmChainId : Option Nat
deriving DecidableEq, Repr

def NetworkId.ofChain (chain : Address.Chain) : NetworkId := ⟨chain, none⟩

def NetworkId.evm (chainId : Nat) : NetworkId := ⟨.evm, some chainId⟩

/-- A broadcast answered `unreachable` may have been accepted all the same. -/
inductive TransportError where
  | unreachable (network : NetworkId) (message : String)
  | rpc (network : NetworkId) (message : String)
deriving DecidableEq, Repr

/-- `transport_message`: the message, without the kind of failure. -/
def TransportError.message : TransportError → String
  | .unreachable _ message => message
  | .rpc _ message => message

structure QuoteOwner where
  threadId : String
  clientId : String
deriving DecidableEq, Repr

inductive PreparedKind where
  | nativeTransfer
  | tokenTransfer
deriving DecidableEq, Repr

inductive PreparedStatus where
  | awaitingConfirmation
  | broadcasted
  | consumed
deriving DecidableEq, Repr

/-- The optional `receive_symbol`, `min_receive_raw` and `calldata` are `None` on
every transfer and left out. -/
structure PreparedTransaction where
  quoteId : String
  kind : PreparedKind
  chain : WalletChain
  evmNetwork : Option EvmNetwork
  fromAddress : String
  toAddress : String
  assetSymbol : String
  amountRaw : String
  amountFormatted : String
  tokenAddress : Option String
  estimatedFeeRaw : String
  status : PreparedStatus
  createdAtMs : Nat
  expiresAtMs : Nat
  notes : List String
deriving DecidableEq, Repr

structure ExecutionResult where
  quoteId : String
  status : PreparedStatus
  chain : WalletChain
  evmNetwork : Option EvmNetwork
  transactionHash : String
  explorerUrl : Option String
  transaction : PreparedTransaction
deriving DecidableEq, Repr

inductive Web3QuoteKind where
  | swap
  | bridge
  | dappCall
deriving DecidableEq, Repr

structure Web3QuoteResponse where
  quoteId : String
  kind : Web3QuoteKind
  expiresAtMs : Nat
  signingChain : WalletChain
  quote : Json

structure Utxo where
  txid : String
  vout : Nat
  value : Nat
deriving DecidableEq, Repr

inductive TransactionSpec where
  | btc (sender recipient : String) (amountSat feeSat : Nat) (utxos : List Utxo)
  | evm (target valueWei dataHex : String) (nonce gasLimit : Nat) (gasPriceWei : String)
      (chainId : Nat)
  | solana (sender recipient : String) (lamports : Nat) (recentBlockhash : String)
  | tron (rawDataHex expectedTo expectedTxid : String) (transfer : TronTransfer)
deriving DecidableEq, Repr

inductive NativeWalletExecutionIntent where
  | transaction (transaction : TransactionSpec)
  | solanaMessage (messageHex : String)
deriving DecidableEq, Repr

inductive Web3ExecutionIntent where
  | evm (network target : String) (data : Option String) (value : String) (nonce gasLimit : Nat)
      (gasPriceWei : String) (chainId : Nat)
  | solana (txBlobHex : String)
deriving DecidableEq, Repr

structure AuthorizeWeb3ExecutionRequest where
  quoteId : String
  operation : String
  transaction : Web3ExecutionIntent
deriving DecidableEq, Repr

structure AuthorizeNativeWalletExecutionRequest where
  quoteId : String
  operation : String
  quote : PreparedTransaction
  intent : NativeWalletExecutionIntent
deriving DecidableEq, Repr

structure AuthorizationResult where
  approved : Bool
  reason : Option String
deriving DecidableEq, Repr

inductive Scheme where
  | secp256k1Prehash
  | ed25519
deriving DecidableEq, Repr

inductive Signature where
  | secp256k1 (rsHex : String) (recoveryId : Nat)
  | ed25519 (signatureHex : String)
deriving DecidableEq, Repr

structure SecretMaterial where
  mnemonic : String
  derivationPath : String
  chain : Address.Chain
deriving DecidableEq, Repr

structure DerivedAccount where
  address : String
  publicKey : String
deriving DecidableEq, Repr

structure SignedTransaction where
  raw : String
  txid : Option String
deriving DecidableEq, Repr

structure WalletAccount where
  chain : WalletChain
  address : String
  derivationPath : String
deriving DecidableEq, Repr

structure WalletStatus where
  configured : Bool
  accounts : List WalletAccount
deriving DecidableEq, Repr

end Wire
