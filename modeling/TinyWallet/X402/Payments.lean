import TinyWallet.Ledger.Service
import TinyWallet.Library.Endings
import TinyWallet.X402.EvmPayment
import TinyWallet.X402.SolanaPayment

/-!
# Paying a challenge

A challenge is read, an option chosen, its amount held against the budget and
approved; only then is the payment built and signed. The code is generic in the
ledger, in the one who approves and in the builder, and so are the programs
here: they run over a payer. The crypto rail is one builder, over a wallet that
signs and a chain that is asked for a blockhash.

An await may end in cancellation. A reservation is released when the program
that holds it ends without its result.
-/

namespace X402Payments

open RustText Programs Digests X402Wire LedgerRecords LedgerStore
open JsonValue (Json)
open PaymentSelection (PaymentChain)
open SolanaMessages (Key PaymentAccounts paymentMessage)

/-- Why a program ends without a result. -/
inductive Stop (ε : Type) where
  | cancelled
  | failed (error : ε)
deriving DecidableEq, Repr

def Stop.map {ε ε' : Type} (f : ε → ε') : Stop ε → Stop ε'
  | .cancelled => .cancelled
  | .failed error => .failed (f error)

theorem index_lt {challenge : PaymentRequired} {i : Nat} {chain : PaymentChain}
    (h : PaymentSelection.selectRequirement challenge = .ok (i, chain)) :
    i < challenge.accepts.length := by
  have hat : ∃ r, challenge.accepts[i]? = some r := by
    cases PaymentSelection.selectRequirement_ok.mp h with
    | solana first => exact ⟨_, first.1.choose_spec.1⟩
    | evm _ first => exact ⟨_, first.1.choose_spec.1⟩
  obtain ⟨r, hr⟩ := hat
  exact (List.getElem?_eq_some_iff.mp hr).1

/-- A challenge with the option that is taken. -/
structure Selected where
  challenge : PaymentRequired
  index : Fin challenge.accepts.length
  chain : PaymentChain

def Selected.requirement (s : Selected) : PaymentRequirements := s.challenge.accepts.get s.index

def selectRequirement (challenge : PaymentRequired) : Except X402Error Selected :=
  match h : PaymentSelection.selectRequirement challenge with
  | .error refusal => .error refusal
  | .ok (i, chain) => .ok ⟨challenge, ⟨i, index_lt h⟩, chain⟩

def handle402 (codec : Codec) (headers : HeaderMap) : Except X402Error Selected := do
  let challenge ← parse402Headers codec headers
  selectRequirement challenge

/-- What a builder returns with the payload. -/
structure PaymentBuild where
  payload : PaymentPayload
  authorizationValidUntil : Option Instant
  solanaLastValidBlockHeight : Option Nat

/-- What paying is handed: a ledger, the one who approves and a builder. -/
structure Payer (E : Type) (R : E → Type) where
  refresh : Prog E R (Stop X402Error) Unit
  reserve : Nat → Prog E R (Stop X402Error) (Except BudgetRefusal ReservationId)
  release : ReservationId → Prog E R (Stop X402Error) Unit
  authorize : String → PaymentRequirements → PaymentChain → Nat → Prog E R (Stop X402Error) Unit
  build : PaymentRequired → PaymentRequirements → PaymentChain →
    Prog E R (Stop X402Error) PaymentBuild

structure X402PaymentResult where
  headerValue : String
  amountAtomic : Nat
  asset : String
  recipient : String
  network : String
  url : String
  authorizationValidUntil : Option Instant
  solanaLastValidBlockHeight : Option Nat
  reservation : ReservationId

def refusalError : BudgetRefusal → X402Error
  | .perRequest requested cap => .amountExceedsCap requested cap
  | .daily current cap => .budgetExceeded "daily" current cap
  | .monthly current cap => .budgetExceeded "monthly" current cap

variable {E : Type} {R : E → Type} {α ε : Type}

def checked (x : Except X402Error α) : Prog E R (Stop X402Error) α := .lift (x.mapError .failed)

/-- `body` owns the reservation: it is released unless there is a result. -/
def Payer.holding (payer : Payer E R) (id : ReservationId) (body : Prog E R (Stop X402Error) α) :
    Prog E R (Stop X402Error) α := do
  match ← body.attempt with
  | .ok result => pure result
  | .error stop => do
    payer.release id
    .fail stop

def Payer.pay (payer : Payer E R) (codec : Codec) (selected : Selected) (url : String)
    (amount : Nat) (id : ReservationId) : Prog E R (Stop X402Error) X402PaymentResult := do
  let requirement := selected.requirement
  payer.authorize selected.challenge.resource.url requirement selected.chain amount
  let payment ← payer.build selected.challenge requirement selected.chain
  pure
    { headerValue := encodePayment codec payment.payload
      amountAtomic := amount
      asset := requirement.asset
      recipient := requirement.payTo
      network := requirement.network
      url := url
      authorizationValidUntil := payment.authorizationValidUntil
      solanaLastValidBlockHeight := payment.solanaLastValidBlockHeight
      reservation := id }

def handle402AndPayAuthorized (payer : Payer E R) (codec : Codec) (headers : HeaderMap)
    (url : String) : Prog E R (Stop X402Error) X402PaymentResult := do
  let selected ← checked (handle402 codec headers)
  let amount ← checked (SolanaPayment.parseAmount selected.requirement)
  payer.refresh
  match ← payer.reserve amount with
  | .error refusal => .fail (.failed (refusalError refusal))
  | .ok id => payer.holding id (payer.pay codec selected url amount id)

inductive SignScheme where
  | ed25519
  | secp256k1Digest
deriving DecidableEq, Repr

structure PaymentAccount where
  address : String
  pubkey : Option Key

/-- What the crypto rail asks of the wallet, the chain and the machine. -/
structure Rail (E : Type) (R : E → Type) where
  account : PaymentChain → Prog E R (Stop X402Error) (Except String PaymentAccount)
  sign : PaymentChain → List UInt8 → SignScheme →
    Prog E R (Stop X402Error) (Except String (List UInt8))
  jsonRpc : Wire.NetworkId → String → Json →
    Prog E R (Stop X402Error) (Except Wire.TransportError Json)
  unixSeconds : Prog E R (Stop X402Error) (BitVec 64)
  freshNonce : Prog E R (Stop X402Error) Key

structure Crates where
  keccak : TypedData.Keccak
  solana : SolanaPayment.Crates
  codec : Codec

def wallet (x : Except String α) : Except X402Error α := x.mapError .wallet

variable (rail : Rail E R) (ext : Crates) (challenge : PaymentRequired)
  (requirement : PaymentRequirements)

/-- Neither the clock nor the nonce is looked at where the option is refused. -/
def buildEvmPayment : Prog E R (Stop X402Error) PaymentPayload := do
  let account ← rail.account .evm >>= fun found => checked (wallet found)
  let now ← rail.unixSeconds
  let nonce ← rail.freshNonce
  let authorization ← checked
    (EvmPayment.evmPaymentAuthorization ext.keccak account.address requirement now nonce)
  let signed ← rail.sign .evm authorization.digest.val .secp256k1Digest
  let signature ← checked (signed.mapError fun e => .wallet ("sign EIP-3009: " ++ e))
  let sigBytes ← checked (EvmPayment.eip712Signature signature)
  checked
    (EvmPayment.evmPaymentPayload authorization sigBytes account.address challenge requirement)

def networkText (network : Wire.NetworkId) : String :=
  match network.evmChainId with
  | some id => network.chain.asStr ++ ":" ++ toString id
  | none => network.chain.asStr

def transportText : Wire.TransportError → String
  | .unreachable network message =>
    "transport failure contacting " ++ networkText network ++ ": " ++ message
  | .rpc network message => networkText network ++ " returned an error: " ++ message

def finalized : Json := .array [.object [("commitment", .string "finalized")]]

def solanaNetwork : Wire.NetworkId := .ofChain .solana

/-- `json_rpc` and `rpc::decode`, under the text of what was fetched. -/
def fetched {α : Type} (codec : Codec) (method what : String) (decode : Json → Option α)
    (answer : Except Wire.TransportError Json) : Except X402Error α :=
  match answer with
  | .error e => .error (.wallet ("fetch " ++ what ++ ": " ++ transportText e))
  | .ok value =>
    match decode value with
    | some a => .ok a
    | none => .error (.wallet ("fetch " ++ what ++ ": " ++ transportText (.rpc solanaNetwork
        (method ++ ": unexpected response shape: " ++ codec.mismatch value))))

def fetchRecentBlockhash : Prog E R (Stop X402Error) (Key × Nat) := do
  let answer ← rail.jsonRpc solanaNetwork "getLatestBlockhash" finalized
  let result ← checked
    (fetched ext.codec "getLatestBlockhash" "blockhash" SolanaPayment.decodeBlockhash answer)
  let blockhash ← checked (SolanaPayment.b58To32 ext.solana result.1)
  pure (blockhash, result.2)

def memoData : Prog E R (Stop X402Error) (List UInt8) :=
  match requirement.memoValue with
  | some memo => pure (utf8Bytes memo)
  | none => do
    let nonce ← rail.freshNonce
    pure (SolanaPayment.randomMemoNonce nonce)

def signature64 (signature : List UInt8) : Except X402Error (List UInt8) :=
  if signature.length = 64 then .ok signature
  else .error (.wallet "the wallet module returned a malformed signature")

def buildSolanaPayment (ourPubkey : Key) : Prog E R (Stop X402Error) (PaymentPayload × Nat) := do
  let accounts ← checked (SolanaPayment.paymentAccounts ext.solana ourPubkey requirement)
  let memo ← memoData rail requirement
  let recent ← fetchRecentBlockhash rail ext
  let message := paymentMessage accounts.2 accounts.1 memo recent.1
  let signed ← rail.sign .solana message .ed25519
  let signature ← checked (signed.mapError fun e => .wallet ("sign payment: " ++ e))
  let sigBytes ← checked (signature64 signature)
  pure (SolanaPayment.solanaPayload challenge requirement
    (SolanaPayment.solanaWire sigBytes message), recent.2)

/-- `i64::from_str`. -/
def parseI64 (text : String) : Option Int :=
  match strip "-" text with
  | some digits =>
    if Numerals.allDigits digits.toList then
      ((parseRadix 10 (2 ^ 63 + 1) digits).toOption).map fun n => -(n : Int)
    else none
  | none => ((parseRadix 10 (2 ^ 63) text).toOption).map fun n => (n : Int)

/-- `DateTime::from_timestamp` of whole seconds. -/
def fromTimestamp (seconds : Int) : Option Instant := fromTimestampMillis (seconds * 1000)

/-- The deadline that an authorization spells out. -/
def validUntil : PaymentProof → Option Instant
  | .evm proof => (parseI64 proof.authorization.validBefore).bind fromTimestamp
  | .solana _ => none

def accountPubkey (account : PaymentAccount) : Except X402Error Key :=
  match account.pubkey with
  | some key => .ok key
  | none => SolanaPayment.b58To32 ext.solana account.address

/-- `CryptoPayments::build_with_rail_metadata`. -/
def cryptoPayments (chain : PaymentChain) : Prog E R (Stop X402Error) PaymentBuild := do
  let (payload, height) ← match chain with
    | .solana => do
      let account ← rail.account .solana >>= fun found => checked (wallet found)
      let pubkey ← checked (accountPubkey ext account)
      let built ← buildSolanaPayment rail ext challenge requirement pubkey
      pure (built.1, some built.2)
    | .evm => do
      let payload ← buildEvmPayment rail ext challenge requirement
      pure (payload, none)
  pure ⟨payload, validUntil payload.payload, height⟩

structure AuthorizeX402PaymentRequest where
  url : String
  network : String
  asset : String
  recipient : String
  amountAtomic : Nat
  owner : Option Wire.QuoteOwner
deriving DecidableEq, Repr

structure X402PreparePaymentRequest where
  service : String
  url : String
  paymentRequired : String
  owner : Option Wire.QuoteOwner
  secret : Wire.SecretMaterial
  additionalSecrets : List Wire.SecretMaterial

structure X402PreparePaymentResponse where
  paymentId : String
  paymentHeader : String
  amountAtomic : Nat
  asset : String
  recipient : String
  network : String
deriving DecidableEq, Repr

/-- What the module adds to a payer: its admission, its ids and its record. -/
structure Runtime (E : Type) (R : E → Type) extends Payer E R where
  beginPending : Prog E R (Stop String) (Except String Unit)
  endPending : Prog E R (Stop String) Unit
  ensureCapacity : Prog E R (Stop String) (Except String Unit)
  newPaymentId : Prog E R (Stop String) String
  utcNow : Prog E R (Stop String) Instant
  commitDurable : ReservationId → PaymentRecord → Prog E R (Stop String) (Except String Unit)

def asked (x : Except String α) : Prog E R (Stop String) α := .lift (x.mapError .failed)

def described (p : Prog E R (Stop X402Error) α) : Prog E R (Stop String) α :=
  p.mapError (Stop.map X402Error.text)

/-- No chain has two secrets. -/
def takeRequestSecrets (request : X402PreparePaymentRequest) :
    Except String (List Wire.SecretMaterial) :=
  let secrets := request.secret :: request.additionalSecrets
  if (secrets.map Wire.SecretMaterial.chain).Nodup then .ok secrets
  else .error "x402 request contains duplicate secrets for one chain"

/-- `HeaderValue::from_str`. -/
def headerFromStr (text : String) : Except String (List UInt8) :=
  if (utf8Bytes text).all fun b => (32 ≤ b && b ≠ 127) || b = 9 then .ok (utf8Bytes text)
  else .error "failed to parse header value"

def challengeHeaders (request : X402PreparePaymentRequest) : Except String HeaderMap :=
  match headerFromStr request.paymentRequired with
  | .ok value => .ok [("payment-required", value)]
  | .error e => .error ("invalid payment challenge header: " ++ e)

def pendingRecord (request : X402PreparePaymentRequest) (sessionId paymentId : String)
    (proof : X402PaymentResult) (now : Instant) : PaymentRecord where
  id := paymentId
  url := proof.url
  asset := proof.asset
  amountAtomic := proof.amountAtomic
  amountDisplay := formatUsdc proof.amountAtomic
  recipient := proof.recipient
  network := proof.network
  txSignature := none
  status := .pending
  timestamp := now
  authorizationValidUntil := proof.authorizationValidUntil
  solanaLastValidBlockHeight := proof.solanaLastValidBlockHeight
  authorizationExpiredAt := none
  authorizationExpiryObservedHeight := none
  sessionId := sessionId
  threadId := request.owner.map Wire.QuoteOwner.threadId

def notRecorded : String := "x402 payment budget could not be durably recorded"

/-- The slot of the admission is given back however the call ends. -/
def Runtime.admitted (runtime : Runtime E R) (body : Prog E R (Stop String) α) :
    Prog E R (Stop String) α := do
  let outcome ← body.attempt
  runtime.endPending
  .lift outcome

def Runtime.prepareAdmitted (runtime : Runtime E R) (codec : Codec)
    (request : X402PreparePaymentRequest) (headers : HeaderMap) (sessionId : String) :
    Prog E R (Stop String) X402PreparePaymentResponse := do
  described runtime.refresh
  let capacity ← runtime.ensureCapacity
  asked capacity
  let proof ← described (handle402AndPayAuthorized runtime.toPayer codec headers request.url)
  let paymentId ← runtime.newPaymentId
  let now ← runtime.utcNow
  match ← runtime.commitDurable proof.reservation
      (pendingRecord request sessionId paymentId proof now) with
  | .error _ => .fail (.failed notRecorded)
  | .ok _ => pure ⟨paymentId, proof.headerValue, proof.amountAtomic, proof.asset, proof.recipient,
      proof.network⟩

/-- `X402Runtime::prepare`, after the handle was checked. -/
def Runtime.prepare (runtime : Runtime E R) (codec : Codec) (request : X402PreparePaymentRequest)
    (headers : HeaderMap) (sessionId : String) :
    Prog E R (Stop String) X402PreparePaymentResponse := do
  let admission ← runtime.beginPending
  asked admission
  runtime.admitted (runtime.prepareAdmitted codec request headers sessionId)

inductive PaymentRequest where
  | beginPending
  | endPending
  | ensureCapacity
  | refresh
  | reserve (amount : Nat)
  | release (id : ReservationId)
  | authorize (request : AuthorizeX402PaymentRequest)
  | deriveAccount (secret : Wire.SecretMaterial)
  | signMessage (secret : Wire.SecretMaterial) (messageHex : String) (scheme : Wire.Scheme)
  | jsonRpc (network : Wire.NetworkId) (method : String) (params : Json)
  | unixSeconds
  | freshNonce
  | newPaymentId
  | utcNow
  | commitDurable (id : ReservationId) (record : PaymentRecord)

/-- Awaits answer `none` where the call is cancelled. -/
@[reducible] def PaymentRequest.Answer : PaymentRequest → Type
  | .beginPending => Except String Unit
  | .endPending => Unit
  | .ensureCapacity => Except String Unit
  | .refresh => Option (Except String Unit)
  | .reserve _ => Except String (Except BudgetRefusal ReservationId)
  | .release _ => Unit
  | .authorize _ => Option (Except String Wire.AuthorizationResult)
  | .deriveAccount _ => Except String Wire.DerivedAccount
  | .signMessage _ _ _ => Except String Wire.Signature
  | .jsonRpc _ _ _ => Option (Except Wire.TransportError Json)
  | .unixSeconds => BitVec 64
  | .freshNonce => Key
  | .newPaymentId => String
  | .utcNow => Instant
  | .commitDurable _ _ => Except String Unit

abbrev Paying (ε α : Type) := Prog PaymentRequest PaymentRequest.Answer (Stop ε) α

def awaited {β : Type} : Option β → Except (Stop ε) β
  | none => .error .cancelled
  | some b => .ok b

/-- The errors of the module's own primitives, as texts. -/
structure Primitives where
  /-- The text of a failed `hex::decode`. -/
  hexError : String → String

def Primitives.hex (primitives : Primitives) (what text : String) : Except String (List UInt8) :=
  match hexDecode text.toList with
  | some bytes => .ok bytes
  | none => .error (what ++ primitives.hexError text)

def secretChain : PaymentChain → Address.Chain
  | .evm => .evm
  | .solana => .solana

/-- `clone_x402_secret`. -/
def cloneSecret (secrets : List Wire.SecretMaterial) (chain : PaymentChain) :
    Except String Wire.SecretMaterial :=
  match secrets.find? (·.chain = secretChain chain) with
  | some secret => .ok secret
  | none => .error "x402 wallet secret does not match the selected payment chain"

def pubkeyOf (primitives : Primitives) (chain : PaymentChain) (derived : Wire.DerivedAccount) :
    Except String (Option Key) :=
  match chain with
  | .evm => .ok none
  | .solana => do
    let bytes ← primitives.hex "invalid derived Solana public key: " derived.publicKey
    if h : bytes.length = 32 then .ok (some ⟨bytes, h⟩)
    else .error "derived Solana public key was not 32 bytes"

/-- `ModulePaymentSigner::account`. -/
def signerAccount (primitives : Primitives) (secrets : List Wire.SecretMaterial)
    (chain : PaymentChain) : Paying X402Error (Except String PaymentAccount) :=
  match cloneSecret secrets chain with
  | .error e => pure (.error e)
  | .ok secret => .call (.deriveAccount secret) fun derived => pure do
    let derived ← derived
    let pubkey ← pubkeyOf primitives chain derived
    .ok ⟨derived.address, pubkey⟩

def moduleScheme : PaymentChain → SignScheme → Except String Wire.Scheme
  | .evm, .secp256k1Digest => .ok .secp256k1Prehash
  | .solana, .ed25519 => .ok .ed25519
  | _, _ => .error "x402 payment requested an unsupported signing scheme"

def signatureBytes (primitives : Primitives) : Wire.Signature → Except String (List UInt8)
  | .secp256k1 rsHex recoveryId => do
    let rs ← primitives.hex "invalid module secp256k1 signature: " rsHex
    .ok (rs ++ [UInt8.ofNat recoveryId])
  | .ed25519 signatureHex => primitives.hex "invalid module Ed25519 signature: " signatureHex

/-- `ModulePaymentSigner::sign`. -/
def signerSign (primitives : Primitives) (secrets : List Wire.SecretMaterial)
    (chain : PaymentChain) (message : List UInt8) (scheme : SignScheme) :
    Paying X402Error (Except String (List UInt8)) :=
  match moduleScheme chain scheme, cloneSecret secrets chain with
  | .error e, _ => pure (.error e)
  | .ok _, .error e => pure (.error e)
  | .ok scheme, .ok secret => .call (.signMessage secret (hexLower message) scheme) fun signed =>
    pure (signed.bind (signatureBytes primitives))

def moduleRail (primitives : Primitives) (secrets : List Wire.SecretMaterial) :
    Rail PaymentRequest PaymentRequest.Answer where
  account := signerAccount primitives secrets
  sign := signerSign primitives secrets
  jsonRpc network method params := .ask (.jsonRpc network method params) awaited
  unixSeconds := .ask .unixSeconds .ok
  freshNonce := .ask .freshNonce .ok

/-- The closure that `prepare` hands to `handle_402_and_pay_authorized`. -/
def authorizePayment (owner : Option Wire.QuoteOwner) (url : String)
    (requirement : PaymentRequirements) (_chain : PaymentChain) (amount : Nat) :
    Paying X402Error Unit :=
  .ask (.authorize ⟨url, requirement.network, requirement.asset, requirement.payTo, amount, owner⟩)
    fun answer => match answer with
    | none => .error .cancelled
    | some (.error e) => .error (.failed (.wallet e))
    | some (.ok authorization) =>
      if authorization.approved then .ok ()
      else .error (.failed (.wallet (authorization.reason.getD "x402 payment was not approved")))

def walletFailure (e : String) : Stop X402Error := .failed (.wallet e)

def modulePayer (primitives : Primitives) (ext : Crates) (owner : Option Wire.QuoteOwner)
    (secrets : List Wire.SecretMaterial) : Runtime PaymentRequest PaymentRequest.Answer where
  refresh := .ask .refresh fun answer => match answer with
    | none => .error .cancelled
    | some result => result.mapError walletFailure
  reserve amount := .ask (.reserve amount) fun result => result.mapError walletFailure
  release id := .ask (.release id) .ok
  authorize := authorizePayment owner
  build := cryptoPayments (moduleRail primitives secrets) ext
  beginPending := .ask .beginPending .ok
  endPending := .ask .endPending .ok
  ensureCapacity := .ask .ensureCapacity .ok
  newPaymentId := .ask .newPaymentId .ok
  utcNow := .ask .utcNow .ok
  commitDurable id record := .ask (.commitDurable id record) .ok

/-- `x402_prepare_payment` of a request that presents the handle of the service. -/
def preparePayment (primitives : Primitives) (ext : Crates) (sessionId : String)
    (request : X402PreparePaymentRequest) : Paying String X402PreparePaymentResponse := do
  let secrets ← asked (takeRequestSecrets request)
  let headers ← asked (challengeHeaders request)
  (modulePayer primitives ext request.owner secrets).prepare ext.codec request headers sessionId

section Rules

variable {G ε' : Type} {m : Monitor E R G} {failed held : G → Prop} {P : α → G → Prop} {g : G}

theorem leads_checked {x : Except X402Error α} (hfailed : failed g) (h : ∀ a, x = .ok a → P a g) :
    Follows m (Leads failed P) (checked x : Prog E R (Stop X402Error) α) g :=
  leads_lift hfailed fun a ha => h a (mapError_ok ha)

theorem leads_asked {x : Except String α} (hfailed : failed g) (h : ∀ a, x = .ok a → P a g) :
    Follows m (Leads failed P) (asked x : Prog E R (Stop String) α) g :=
  leads_lift hfailed fun a ha => h a (mapError_ok ha)

/-- What `holding` is handed back without a result, it releases. -/
theorem holding_leads {payer : Payer E R} {id : ReservationId}
    {body : Prog E R (Stop X402Error) α} (h : Follows m (Leads held P) body g)
    (release : ∀ g', held g' →
      Follows m (Leads failed fun _ => failed) (payer.release id) g') :
    Follows m (Leads failed P) (payer.holding id body) g := by
  unfold Payer.holding
  refine follows_bind (follows_attempt (follows_mono ?_ h))
  intro result g' hresult
  cases result with
  | ok a => exact .pure hresult
  | error stop =>
    refine leads_bind (release g' hresult) ?_
    intro _ g'' hfailed
    exact .fail hfailed

theorem selectRequirement_payable {challenge : PaymentRequired} {selected : Selected}
    (h : selectRequirement challenge = .ok selected) :
    PaymentSelection.PayableOn selected.chain selected.requirement := by
  rw [selectRequirement] at h
  split at h
  · cases h
  · next i chain hselect =>
    obtain rfl := Except.ok.inj h
    have hfirst : ∃ r, challenge.accepts[i]? = some r ∧
        PaymentSelection.PayableOn chain r := by
      cases PaymentSelection.selectRequirement_ok.mp hselect with
      | solana first => exact first.1
      | evm _ first => exact first.1
    obtain ⟨r, hr, hpayable⟩ := hfirst
    rw [List.getElem?_eq_getElem (index_lt hselect)] at hr
    obtain rfl := Option.some.inj hr
    exact hpayable

theorem handle402_payable {codec : Codec} {headers : HeaderMap} {selected : Selected}
    (h : handle402 codec headers = .ok selected) :
    PaymentSelection.PayableOn selected.chain selected.requirement := by
  obtain ⟨challenge, -, hselect⟩ := bind_ok_iff.mp h
  exact selectRequirement_payable hselect

/-- The amount that is held is that of the option that is taken. -/
theorem handle402AndPay_leads {payer : Payer E R} {codec : Codec} {headers : HeaderMap}
    {url : String} {P : X402PaymentResult → G → Prop} (hfailed : failed g)
    (refresh : Follows m (Leads failed fun _ g' => g' = g) payer.refresh g)
    (reserve : ∀ selected amount, handle402 codec headers = .ok selected →
      parseU64 selected.requirement.amount = .ok amount →
      Follows m (Leads failed (Leads failed fun id => Follows m (Leads failed P)
        (payer.holding id (payer.pay codec selected url amount id)))) (payer.reserve amount) g) :
    Follows m (Leads failed P) (handle402AndPayAuthorized payer codec headers url) g := by
  unfold handle402AndPayAuthorized
  refine leads_bind (P := fun selected g' => g' = g ∧ handle402 codec headers = .ok selected)
    (leads_checked hfailed fun selected h => ⟨rfl, h⟩) ?_
  rintro selected g' ⟨rfl, offered⟩
  refine leads_bind (P := fun amount g'' => g'' = g' ∧
    parseU64 selected.requirement.amount = .ok amount)
    (leads_checked hfailed fun amount h => ⟨rfl, mapError_ok h⟩) ?_
  rintro amount g'' ⟨rfl, hread⟩
  refine leads_bind refresh ?_
  rintro - g' rfl
  refine leads_bind (reserve selected amount offered hread) ?_
  rintro answer g'' hanswer
  cases answer with
  | error refusal => exact .fail hanswer
  | ok id => exact hanswer

end Rules

end X402Payments
