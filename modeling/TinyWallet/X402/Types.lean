import TinyWallet.Library.Json
import TinyWallet.Library.RustText

/-!
# The types of the x402 wire

What a server offers, what a client proves and what the server answers, and why
a payment is refused.
-/

namespace X402Wire

open JsonValue Tables

structure ResourceInfo where
  url : String
  description : Option String
  mimeType : Option String
deriving DecidableEq

structure PaymentExtra where
  feePayer : Option String
  memo : Option String
  name : Option String
  version : Option String
deriving DecidableEq

structure PaymentRequirements where
  scheme : String
  network : String
  /-- Atomic units, in decimal. -/
  amount : String
  asset : String
  payTo : String
  maxTimeoutSeconds : BitVec 64
  extra : Option PaymentExtra
deriving DecidableEq

structure PaymentRequired where
  x402Version : BitVec 8
  error : Option String
  resource : ResourceInfo
  accepts : List PaymentRequirements
  extensions : Table String Json

structure SolanaPaymentProof where
  transaction : String
deriving DecidableEq

structure EvmAuthorization where
  fromAddress : String
  toAddress : String
  value : String
  validAfter : String
  validBefore : String
  nonce : String
deriving DecidableEq

structure EvmPaymentProof where
  signature : String
  authorization : EvmAuthorization
deriving DecidableEq

inductive PaymentProof where
  | solana (proof : SolanaPaymentProof)
  | evm (proof : EvmPaymentProof)
deriving DecidableEq

structure PaymentPayload where
  x402Version : BitVec 8
  resource : Option ResourceInfo
  accepted : PaymentRequirements
  payload : PaymentProof
  extensions : Table String Json

structure SettlementResponse where
  success : Bool
  transaction : String
  network : String
  payer : Option String
  errorReason : Option String
  amount : Option String
  extensions : Table String Json

inductive X402Error where
  | noPaymentHeader
  | noPaymentOption
  | amountExceedsCap (requested cap : Nat)
  | budgetExceeded (period : String) (current cap : Nat)
  | unsupportedNetwork (network : String)
  | unsupportedAsset (network asset : String)
  | nonReplayableBody
  | transport (message : String)
  | protocol (message : String)
  | wallet (message : String)
deriving DecidableEq, Repr

def X402Error.text : X402Error → String
  | transport message => "x402 transport: " ++ message
  | noPaymentHeader => "402 response missing PAYMENT-REQUIRED header"
  | noPaymentOption => "no supported payment option (Solana exact or EVM exact) in 402 challenge"
  | amountExceedsCap requested cap =>
    "x402 amount " ++ toString requested ++ " exceeds per-request cap " ++ toString cap
  | budgetExceeded period current cap => "x402 " ++ period ++ " budget exceeded: " ++
      toString current ++ "/" ++ toString cap ++ " atomic units"
  | unsupportedNetwork network => "x402 network " ++ network ++
      " is not supported; payments are accepted only in USDC on known networks"
  | unsupportedAsset network asset => "x402 asset " ++ asset ++ " is not the USDC accepted on " ++
      network
  | nonReplayableBody =>
    "x402 request body cannot be replayed for the paid retry; use a buffered body"
  | protocol message => "x402 protocol: " ++ message
  | wallet message => "x402 wallet: " ++ message

end X402Wire
