import TinyWallet.X402.Payments

/-!
# One payment, from the hold to the record

What a call may do to pay a challenge, in stages: an amount is held, an option
is approved with this amount, one message is signed that moves this amount to
the recipient of the option, and the record that takes the place of the hold
says so. The program of the call goes through these stages and no others,
whatever the ledger, the one who approves, the wallet and the chain answer.
-/

namespace SamePayment

open RustText Programs Rlp Digests X402Wire LedgerRecords LedgerStore TypedData X402Payments
open JsonValue (Json)
open PaymentSelection (PaymentChain PayableOn)
open SolanaMessages (Key PaymentAccounts paymentMessage)

/-- An option that may be paid, with the amount it asks. -/
structure Terms where
  reservation : ReservationId
  amount : Nat
  requirement : PaymentRequirements
  chain : PaymentChain
  usdc : PayableOn chain requirement
  read : parseU64 requirement.amount = .ok amount

/-- What a signed message says. -/
inductive Content where
  | evm (domain : Domain) (transfer : Transfer)
  | solana (accounts : PaymentAccounts) (amount : Nat) (memo : List UInt8) (blockhash : Key)
      (height : Nat)

def Content.message (ext : Crates) : Content → List UInt8
  | .evm domain transfer => (digestOf ext.keccak domain transfer).val
  | .solana accounts amount memo blockhash _ => paymentMessage accounts amount memo blockhash

/-- The message moves the amount of the terms to their recipient, in the
network's USDC. -/
inductive Content.Moves (ext : Crates) (terms : Terms) (recent : Option (Key × Nat)) :
    Content → Prop
  | evm {domain : Domain} {transfer : Transfer} (chain : terms.chain = .evm)
      (network : terms.requirement.network = "eip155:" ++ toString domain.chainId.toNat)
      (token : ∃ contract,
        (terms.requirement.network, contract) ∈ PaymentSelection.supportedUsdc ∧
          EvmPayment.evmAddressBytes contract = .ok domain.verifyingContract)
      (recipient : EvmPayment.evmAddressBytes terms.requirement.payTo = .ok transfer.toAddress)
      (value : fromBe transfer.value.val = terms.amount) :
      Content.Moves ext terms recent (.evm domain transfer)
  | solana {accounts : PaymentAccounts} {memo : List UInt8} {blockhash : Key} {height : Nat}
      (chain : terms.chain = .solana)
      (token : (terms.requirement.network, terms.requirement.asset) ∈
        PaymentSelection.supportedUsdc)
      (reads : SolanaPayment.Reads ext.solana accounts.ourPubkey terms.requirement terms.amount
        accounts)
      (fetched : recent = some (blockhash, height)) :
      Content.Moves ext terms recent (.solana accounts terms.amount memo blockhash height)

/-- The deadline and the block height that go with a message: an authorization
on an EVM network ends when it says, if the calendar reaches that far. -/
def Content.Dated (deadline : Option Instant) (height : Option Nat) : Content → Prop
  | .evm _ transfer =>
    (∀ instant, deadline = some instant →
      instant.nanos = (fromBe transfer.validBefore.val : Int) * 1000000000) ∧ height = none
  | .solana _ _ _ _ fetched => deadline = none ∧ height = some fetched

inductive Stage where
  | idle
  | held (id : ReservationId) (amount : Nat)
  | approved (terms : Terms) (recent : Option (Key × Nat))
  | signed (terms : Terms) (content : Content) (signature : Wire.Signature)
  | recorded (terms : Terms) (content : Content) (signature : Wire.Signature)
      (record : PaymentRecord)
  | closed

/-- The reservation in hand. -/
def Stage.holds : Stage → Option ReservationId
  | .held id _ => some id
  | .approved terms _ => some terms.reservation
  | .signed terms _ _ => some terms.reservation
  | _ => none

/-- Requests that are no part of the payment itself. -/
def Quiet : PaymentRequest → Prop
  | .beginPending | .endPending | .ensureCapacity | .refresh => True
  | .unixSeconds | .freshNonce | .newPaymentId | .utcNow => True
  | _ => False

def schemeOf : PaymentChain → Wire.Scheme
  | .evm => .secp256k1Prehash
  | .solana => .ed25519

def Approved (answer : Option (Except String Wire.AuthorizationResult)) : Prop :=
  ∃ authorization, answer = some (.ok authorization) ∧ authorization.approved = true

def recentOf (ext : Crates) (answer : Option (Except Wire.TransportError Json)) :
    Option (Key × Nat) := do
  let value ← answer.bind Except.toOption
  let result ← SolanaPayment.decodeBlockhash value
  let blockhash ← (SolanaPayment.b58To32 ext.solana result.1).toOption
  some (blockhash, result.2)

/-- What the one who approves is shown. -/
def Terms.shown (terms : Terms) (url : String) (owner : Option Wire.QuoteOwner) :
    AuthorizeX402PaymentRequest :=
  ⟨url, terms.requirement.network, terms.requirement.asset, terms.requirement.payTo, terms.amount,
    owner⟩

structure Describes (request : X402PreparePaymentRequest) (sessionId : String) (terms : Terms)
    (content : Content) (record : PaymentRecord) : Prop where
  amount : record.amountAtomic = terms.amount
  asset : record.asset = terms.requirement.asset
  recipient : record.recipient = terms.requirement.payTo
  network : record.network = terms.requirement.network
  dated : content.Dated record.authorizationValidUntil record.solanaLastValidBlockHeight
  pending : record.status = .pending
  url : record.url = request.url
  session : record.sessionId = sessionId

def afterSigning (terms : Terms) (recent : Option (Key × Nat)) (content : Content) :
    Except String Wire.Signature → Stage
  | .ok signature => .signed terms content signature
  | .error _ => .approved terms recent

def afterCommit (terms : Terms) (content : Content) (signature : Wire.Signature)
    (record : PaymentRecord) : Except String Unit → Stage
  | .ok _ => .recorded terms content signature record
  | .error _ => .closed

section Protocol

variable (ext : Crates) (sessionId : String) (request : X402PreparePaymentRequest)

/-- The secret belongs to the request and to the chain that is paid on. -/
def Own (terms : Terms) (secret : Wire.SecretMaterial) : Prop :=
  secret ∈ request.secret :: request.additionalSecrets ∧ secret.chain = secretChain terms.chain

inductive Advances : Stage → (e : PaymentRequest) → e.Answer → Stage → Prop
  | quiet {stage : Stage} {e : PaymentRequest} {r : e.Answer} (quiet : Quiet e) :
      Advances stage e r stage
  | granted {amount : Nat} {id : ReservationId} :
      Advances .idle (.reserve amount) (.ok (.ok id)) (.held id amount)
  | refused {amount : Nat} {r : Except String (Except BudgetRefusal ReservationId)}
      (refused : ∀ id, r ≠ .ok (.ok id)) : Advances .idle (.reserve amount) r .idle
  | approved {terms : Terms} {url : String} {owner : Option Wire.QuoteOwner}
      {r : Option (Except String Wire.AuthorizationResult)} (yes : Approved r) :
      Advances (.held terms.reservation terms.amount) (.authorize (terms.shown url owner)) r
        (.approved terms none)
  | unapproved {terms : Terms} {url : String} {owner : Option Wire.QuoteOwner}
      {r : Option (Except String Wire.AuthorizationResult)} (no : ¬Approved r) :
      Advances (.held terms.reservation terms.amount) (.authorize (terms.shown url owner)) r
        (.held terms.reservation terms.amount)
  | account {terms : Terms} {recent : Option (Key × Nat)} {secret : Wire.SecretMaterial}
      {r : Except String Wire.DerivedAccount} (own : Own request terms secret) :
      Advances (.approved terms recent) (.deriveAccount secret) r (.approved terms recent)
  | blockhash {terms : Terms} {r : Option (Except Wire.TransportError Json)} :
      Advances (.approved terms none) (.jsonRpc solanaNetwork "getLatestBlockhash" finalized) r
        (.approved terms (recentOf ext r))
  | sign {terms : Terms} {recent : Option (Key × Nat)} {content : Content}
      {secret : Wire.SecretMaterial} {r : Except String Wire.Signature}
      (own : Own request terms secret) (moves : content.Moves ext terms recent) :
      Advances (.approved terms recent)
        (.signMessage secret (hexLower (content.message ext)) (schemeOf terms.chain)) r
        (afterSigning terms recent content r)
  | commit {terms : Terms} {content : Content} {signature : Wire.Signature}
      {record : PaymentRecord} {r : Except String Unit}
      (describes : Describes request sessionId terms content record) :
      Advances (.signed terms content signature) (.commitDurable terms.reservation record) r
        (afterCommit terms content signature record r)
  | release {stage : Stage} {id : ReservationId} {r : Unit} (held : stage.holds = some id) :
      Advances stage (.release id) r .closed

def protocol : Monitor PaymentRequest PaymentRequest.Answer Stage where
  assumes _ _ _ := True
  advances := Advances ext sessionId request

end Protocol

/-- The payload shows what was signed, with the signature of the wallet. -/
inductive Carries (primitives : Primitives) (ext : Crates) (terms : Terms)
    (signature : Wire.Signature) (payload : PaymentPayload) : Content → Prop
  | evm {domain : Domain} {transfer : Transfer} {proof : EvmPaymentProof}
      {bytes sigBytes : List UInt8} (accepted : payload.accepted = terms.requirement)
      (attached : payload.payload = .evm proof)
      (named : EvmPayment.domainOf payload.accepted = some domain)
      (authorized : EvmPayment.transferOf proof.authorization = some transfer)
      (wallet : signatureBytes primitives signature = .ok bytes)
      (form : EvmPayment.eip712Signature bytes = .ok sigBytes)
      (written : proof.signature = "0x" ++ hexLower sigBytes) :
      Carries primitives ext terms signature payload (.evm domain transfer)
  | solana {accounts : PaymentAccounts} {amount : Nat} {memo : List UInt8} {blockhash : Key}
      {height : Nat} {proof : SolanaPaymentProof} {bytes : List UInt8}
      (accepted : payload.accepted = terms.requirement)
      (attached : payload.payload = .solana proof)
      (wallet : signatureBytes primitives signature = .ok bytes) (length : bytes.length = 64)
      (transaction : Base64.decode proof.transaction.toList = some
        (SolanaPayment.solanaWire bytes (paymentMessage accounts amount memo blockhash))) :
      Carries primitives ext terms signature payload (.solana accounts amount memo blockhash height)

/-- The record and the header that a call answers with show one payment. -/
def Recorded (primitives : Primitives) (ext : Crates) (response : X402PreparePaymentResponse)
    (stage : Stage) : Prop :=
  ∃ terms content signature record payload,
    stage = .recorded terms content signature record ∧
    Carries primitives ext terms signature payload content ∧
    response = ⟨record.id, encodePayment ext.codec payload, record.amountAtomic, record.asset,
      record.recipient, record.network⟩

/-- Until there is a value, the reservation stays in hand. -/
abbrev During {ε α : Type} (terms : Terms) : (α → Stage → Prop) → Except ε α → Stage → Prop :=
  Leads fun stage => stage.holds = some terms.reservation

section Rules

variable {m : Monitor PaymentRequest PaymentRequest.Answer Stage} {α : Type}
  {failed : Stage → Prop} {P : α → Stage → Prop} {stage : Stage}

theorem leads_described {p : Paying X402Error α} (h : Follows m (Leads failed P) p stage) :
    Follows m (Leads failed P) (described p) stage :=
  leads_mapError h

end Rules

section Steps

variable {primitives : Primitives} {ext : Crates} {sessionId : String}
  {request : X402PreparePaymentRequest} {ε α β : Type} {failed : Stage → Prop}
  {P : α → Stage → Prop} {stage : Stage} {terms : Terms} {recent : Option (Key × Nat)}

/-- A request that is no part of the payment. -/
theorem leads_quiet {e : PaymentRequest} {f : e.Answer → Except (Stop ε) α} (quiet : Quiet e)
    (hfailed : failed stage) (h : ∀ r a, f r = .ok a → P a stage) :
    Follows (protocol ext sessionId request) (Leads failed P) (Prog.ask e f : Paying ε α) stage :=
  leads_ask (fun _ => .quiet quiet) hfailed h

/-- The wallet's secrets are the request's own. -/
theorem cloneSecret_own {chain : PaymentChain} {secret : Wire.SecretMaterial}
    (on : terms.chain = chain)
    (h : cloneSecret (request.secret :: request.additionalSecrets) chain = .ok secret) :
    Own request terms secret := by
  rw [cloneSecret] at h
  cases hfind : (request.secret :: request.additionalSecrets).find?
      (·.chain = secretChain chain) with
  | none =>
    rw [hfind] at h
    cases h
  | some found =>
    rw [hfind] at h
    obtain rfl := Except.ok.inj h
    have hchain := List.find?_some hfind
    exact ⟨List.mem_of_find?_eq_some hfind, by simpa [on] using hchain⟩

theorem signerAccount_follows {chain : PaymentChain} (on : terms.chain = chain) :
    Follows (protocol ext sessionId request)
      (During terms fun _ stage => stage = .approved terms recent)
      (signerAccount primitives (request.secret :: request.additionalSecrets) chain)
      (.approved terms recent) := by
  rw [signerAccount]
  cases hsecret : cloneSecret (request.secret :: request.additionalSecrets) chain with
  | error e => exact .pure rfl
  | ok secret =>
    refine follows_call fun r _ => ⟨_, .account (cloneSecret_own on hsecret), ?_⟩
    exact .pure rfl

/-- Either the wallet has signed the message and its signature is read, or the
reservation is still in hand. -/
def SignedOr (primitives : Primitives) (terms : Terms) (content : Content)
    (result : Except String (List UInt8)) (stage : Stage) : Prop :=
  stage.holds = some terms.reservation ∧ ∀ bytes, result = .ok bytes →
    ∃ signature, stage = .signed terms content signature ∧
      signatureBytes primitives signature = .ok bytes

theorem signerSign_follows {chain : PaymentChain} {scheme : SignScheme} {content : Content}
    {message : List UInt8} (on : terms.chain = chain)
    (supported : moduleScheme chain scheme = .ok (schemeOf chain))
    (moves : content.Moves ext terms recent) (spelled : message = content.message ext) :
    Follows (protocol ext sessionId request)
      (During terms (SignedOr primitives terms content))
      (signerSign primitives (request.secret :: request.additionalSecrets) chain message scheme)
      (.approved terms recent) := by
  subst spelled
  rw [signerSign, supported]
  cases hsecret : cloneSecret (request.secret :: request.additionalSecrets) chain with
  | error e =>
    refine .pure ⟨rfl, ?_⟩
    intro bytes h
    cases h
  | ok secret =>
    refine follows_call fun r _ => ⟨afterSigning terms recent content r, ?_, ?_⟩
    · have step : Advances ext sessionId request (.approved terms recent)
          (.signMessage secret (hexLower (content.message ext)) (schemeOf terms.chain)) r
          (afterSigning terms recent content r) :=
        .sign (cloneSecret_own on hsecret) moves
      rw [on] at step
      exact step
    · cases r with
      | error e =>
        refine .pure ⟨rfl, ?_⟩
        intro bytes h
        cases h
      | ok signature => exact .pure ⟨rfl, fun bytes h => ⟨signature, rfl, h⟩⟩

/-- Both parsers read the same number, where both read one. -/
theorem amounts_agree {text : String} {n : Nat} {word : U256Bytes}
    (h64 : parseU64 text = .ok n) (h256 : u256FromDecimal text = .ok word) :
    fromBe word.val = n := by
  obtain ⟨hfits, hword⟩ :=
    Erc20.u256FromDecimal_iff.mp (EvmPayment.u256FromDecimal_ok_iff.mp h256)
  obtain ⟨hsome, hdigits⟩ := Numerals.parseRadix_ok_iff.mp h64
  obtain ⟨hall, rfl⟩ := Numerals.parseDigits_ok hdigits
  have hplain : ∀ c ∈ text.toList, isWhiteSpace c = false := by
    intro c hc
    rw [Numerals.unsignedBody.eq_def] at hall
    split at hall
    · next cs hcs =>
      rw [hcs] at hc
      rcases List.mem_cons.mp hc with rfl | hc
      · decide
      · exact Numerals.isWhiteSpace_of_digit (List.all_eq_true.mp hall c hc)
    · exact Numerals.isWhiteSpace_of_digit (List.all_eq_true.mp hall c hc)
  have htrim : trim text = text := by
    rw [trim, trimChars_of_no_space hplain, String.ofList_toList]
  rw [htrim] at hfits hword
  have hbody : Numerals.unsignedBody text.toList = text.toList := by
    rw [Numerals.unsignedBody.eq_def]
    split
    · next cs hcs =>
      have hplus := hfits.digits '+' (by rw [hcs]; exact List.mem_cons_self)
      exact absurd hplus (by decide)
    · rfl
  rw [hword, fromBe_toBe, hbody]
  exact Nat.mod_eq_of_lt (lt_of_lt_of_eq hfits.small (by norm_num))

theorem fromBe_u256FromU64 (n : BitVec 64) : fromBe (u256FromU64 n).val = n.toNat := by
  have hsmall : n.toNat < 256 ^ 8 := lt_of_lt_of_eq n.isLt (by norm_num)
  have hword : (u256FromU64 n).val = toBe 32 n.toNat := (toBe_pad 24 8 hsmall).symm
  rw [hword, fromBe_toBe]
  exact Nat.mod_eq_of_lt (lt_trans hsmall (by norm_num))

/-- A printed number is read as itself, if it is read at all. -/
theorem parseI64_toString {n : Nat} {k : Int} (h : parseI64 (toString n) = some k) : k = n := by
  have hsign : strip "-" (toString n) = none := by
    cases hstrip : strip "-" (toString n) with
    | none => rfl
    | some rest =>
      have htext := congrArg String.toList (Numerals.strip_eq hstrip)
      have hminus : '-' ∈ (toString n).toList := by
        rw [htext, String.toList_append]
        exact List.mem_append_left _ (by decide)
      rw [Numerals.toList_toString] at hminus
      exact absurd (Numerals.toDigits_digit hminus) (by decide)
  rw [parseI64, hsign] at h
  obtain ⟨read, hread, rfl⟩ := Option.map_eq_some_iff.mp h
  cases hparse : parseRadix 10 (2 ^ 63) (toString n) with
  | error e =>
    rw [hparse] at hread
    cases hread
  | ok value =>
    rw [hparse] at hread
    obtain rfl := Option.some.inj hread
    obtain ⟨-, hdigits⟩ := Numerals.parseRadix_ok_iff.mp hparse
    obtain ⟨-, hvalue⟩ := Numerals.parseDigits_ok hdigits
    rw [Numerals.unsignedBody_toString, Nat.ofDigitChars_ten_toDigits] at hvalue
    rw [hvalue]

theorem fromTimestamp_nanos {seconds : Int} {instant : Instant}
    (h : fromTimestamp seconds = some instant) : instant.nanos = seconds * 1000000000 := by
  rw [fromTimestamp, fromTimestampMillis] at h
  split_ifs at h with hrange
  rw [← Option.some.inj h]
  show seconds * 1000 * 1000000 = seconds * 1000000000
  omega

/-- The recorded deadline of a proof is the one its text spells. -/
theorem validUntil_nanos {proof : EvmPaymentProof} {n : Nat} {instant : Instant}
    (spelled : proof.authorization.validBefore = toString n)
    (h : validUntil (.evm proof) = some instant) : instant.nanos = (n : Int) * 1000000000 := by
  rw [validUntil, spelled] at h
  obtain ⟨k, hk, hat⟩ := Option.bind_eq_some_iff.mp h
  rw [fromTimestamp_nanos hat, parseI64_toString hk]

/-- What a builder leaves behind it: one signed message, and the payload that
shows it. -/
def BuiltFor (primitives : Primitives) (ext : Crates) (terms : Terms) (payload : PaymentPayload)
    (deadline : Option Instant) (height : Option Nat) (stage : Stage) : Prop :=
  ∃ content signature, stage = .signed terms content signature ∧
    Carries primitives ext terms signature payload content ∧ content.Dated deadline height

theorem buildEvmPayment_follows {challenge : PaymentRequired} (on : terms.chain = .evm) :
    Follows (protocol ext sessionId request)
      (During terms fun payload => BuiltFor primitives ext terms payload
        (validUntil payload.payload) none)
      (buildEvmPayment (moduleRail primitives (request.secret :: request.additionalSecrets)) ext
        challenge terms.requirement)
      (.approved terms none) := by
  rw [buildEvmPayment]
  have usdc := terms.usdc
  rw [on] at usdc
  refine leads_bind (P := fun _ stage => stage = .approved terms none) ?_ ?_
  · refine leads_bind (signerAccount_follows on) ?_
    rintro found stage rfl
    exact leads_checked rfl fun _ _ => rfl
  rintro account stage rfl
  refine leads_bind (leads_answered PaymentRequest.unixSeconds fun _ => Advances.quiet trivial) ?_
  rintro now stage rfl
  refine leads_bind (leads_answered PaymentRequest.freshNonce fun _ => Advances.quiet trivial) ?_
  rintro nonce stage rfl
  refine leads_bind (P := fun authorization stage => stage = .approved terms none ∧
    EvmPayment.evmPaymentAuthorization ext.keccak account.address terms.requirement now nonce =
      .ok authorization) (leads_checked rfl fun _ h => ⟨rfl, h⟩) ?_
  rintro authorization stage ⟨rfl, hauth⟩
  obtain ⟨domain, transfer, hdomain, requested, hdigest⟩ :=
    EvmPayment.evmPaymentAuthorization_ok hauth
  obtain ⟨network, contract, hmem, hcontract⟩ := EvmPayment.domain_of_usdc usdc hdomain
  have moves : (Content.evm domain transfer).Moves ext terms none :=
    .evm on network ⟨contract, hmem, hcontract⟩ requested.payTo
      (amounts_agree terms.read requested.value)
  refine leads_bind (signerSign_follows on rfl moves (by rw [hdigest]; rfl)) ?_
  rintro signed stage ⟨hand, hsigned⟩
  refine leads_bind (P := fun bytes stage' => stage' = stage ∧ signed = .ok bytes)
    (leads_checked hand fun _ h => ⟨rfl, mapError_ok h⟩) ?_
  rintro bytes stage' ⟨rfl, rfl⟩
  obtain ⟨signature, rfl, hwallet⟩ := hsigned bytes rfl
  refine leads_bind (P := fun sigBytes stage =>
    stage = .signed terms (.evm domain transfer) signature ∧
      EvmPayment.eip712Signature bytes = .ok sigBytes) (leads_checked rfl fun _ h => ⟨rfl, h⟩) ?_
  rintro sigBytes stage ⟨rfl, hform⟩
  refine leads_checked rfl fun payload hpayload => ?_
  rw [hdigest] at hpayload
  obtain ⟨haccepted, proof, hproof, hwritten, htransfer, hbefore⟩ :=
    EvmPayment.evmPaymentPayload_spells requested hpayload
  refine ⟨_, signature, rfl, .evm haccepted hproof (by rw [haccepted]; exact hdomain) htransfer
    hwallet hform hwritten, ?_, rfl⟩
  intro instant hat
  rw [hproof] at hat
  rw [validUntil_nanos hbefore hat, requested.validBefore, fromBe_u256FromU64]

theorem fetchRecentBlockhash_follows {secrets : List Wire.SecretMaterial} :
    Follows (protocol ext sessionId request)
      (During terms fun recent stage => stage = .approved terms (some recent))
      (fetchRecentBlockhash (moduleRail primitives secrets) ext) (.approved terms none) := by
  rw [fetchRecentBlockhash]
  refine leads_bind (P := fun answer stage => stage = .approved terms (recentOf ext (some answer)))
    ?_ ?_
  · refine follows_ask fun r _ => ⟨_, .blockhash, ?_⟩
    cases r <;> rfl
  rintro answer stage rfl
  refine leads_bind (P := fun result stage => stage = .approved terms (recentOf ext (some answer)) ∧
    ∃ value, answer = .ok value ∧ SolanaPayment.decodeBlockhash value = some result)
    (leads_checked rfl fun result h => ⟨rfl, ?_⟩) ?_
  · cases answer with
    | error e => cases h
    | ok value =>
      refine ⟨value, rfl, ?_⟩
      rw [fetched] at h
      cases hdecode : SolanaPayment.decodeBlockhash value with
      | none =>
        rw [hdecode] at h
        cases h
      | some found =>
        rw [hdecode] at h
        exact congrArg some (Except.ok.inj h)
  rintro result stage ⟨rfl, value, rfl, hdecode⟩
  refine leads_bind (P := fun blockhash stage =>
    stage = .approved terms (some (blockhash, result.2)))
    (leads_checked rfl fun blockhash h => ?_) ?_
  · simp [recentOf, hdecode, h, Except.toOption]
  · rintro blockhash stage rfl
    exact .pure rfl

theorem memoData_follows {secrets : List Wire.SecretMaterial}
    {requirement : PaymentRequirements} :
    Follows (protocol ext sessionId request) (During terms fun _ stage' => stage' = stage)
      (memoData (moduleRail primitives secrets) requirement) stage := by
  rw [memoData]
  cases requirement.memoValue with
  | some memo => exact .pure rfl
  | none =>
    refine leads_bind (leads_answered PaymentRequest.freshNonce fun _ => Advances.quiet trivial) ?_
    rintro nonce stage' rfl
    exact .pure rfl

theorem solana_asset {requirement : PaymentRequirements}
    (usdc : PayableOn .solana requirement) :
    (requirement.network, requirement.asset) ∈ PaymentSelection.supportedUsdc := by
  obtain ⟨⟨-, hfamily⟩, mint, hmem, hsame⟩ := usdc
  rcases hsame with rfl | ⟨hevm, -⟩
  · exact hmem
  · cases PaymentSelection.family_unique hfamily hevm

theorem buildSolanaPayment_follows {challenge : PaymentRequired} {pubkey : Key}
    (on : terms.chain = .solana) :
    Follows (protocol ext sessionId request)
      (During terms fun built => BuiltFor primitives ext terms built.1
        (validUntil built.1.payload) (some built.2))
      (buildSolanaPayment (moduleRail primitives (request.secret :: request.additionalSecrets)) ext
        challenge terms.requirement pubkey)
      (.approved terms none) := by
  rw [buildSolanaPayment]
  have usdc := terms.usdc
  rw [on] at usdc
  refine leads_bind (P := fun accounts stage => stage = .approved terms none ∧
    SolanaPayment.Reads ext.solana pubkey terms.requirement accounts.1 accounts.2)
    (leads_checked rfl fun _ h => ⟨rfl, SolanaPayment.paymentAccounts_ok h⟩) ?_
  rintro ⟨amount, accounts⟩ stage ⟨rfl, reads⟩
  obtain rfl : terms.amount = amount := Except.ok.inj (terms.read.symm.trans reads.amount)
  refine leads_bind memoData_follows ?_
  rintro memo stage rfl
  refine leads_bind fetchRecentBlockhash_follows ?_
  rintro ⟨blockhash, height⟩ stage rfl
  have moves : (Content.solana accounts terms.amount memo blockhash height).Moves ext terms
      (some (blockhash, height)) :=
    .solana on (solana_asset usdc) (by rw [reads.ours]; exact reads) rfl
  refine leads_bind (signerSign_follows on rfl moves rfl) ?_
  rintro signed stage ⟨hand, hsigned⟩
  refine leads_bind (P := fun bytes stage' => stage' = stage ∧ signed = .ok bytes)
    (leads_checked hand fun _ h => ⟨rfl, mapError_ok h⟩) ?_
  rintro bytes stage' ⟨rfl, rfl⟩
  obtain ⟨signature, rfl, hwallet⟩ := hsigned bytes rfl
  refine leads_bind (P := fun sigBytes stage => stage = .signed terms
    (.solana accounts terms.amount memo blockhash height) signature ∧
      signature64 bytes = .ok sigBytes) (leads_checked rfl fun _ h => ⟨rfl, h⟩) ?_
  rintro sigBytes stage ⟨rfl, hform⟩
  rw [signature64] at hform
  split_ifs at hform with hlength
  obtain rfl := Except.ok.inj hform
  refine .pure ⟨_, signature, rfl, .solana rfl rfl hwallet hlength ?_, rfl, rfl⟩
  rw [String.toList_ofList, Base64.decode_encode]

theorem cryptoPayments_follows {challenge : PaymentRequired} :
    Follows (protocol ext sessionId request)
      (During terms fun build => BuiltFor primitives ext terms build.payload
        build.authorizationValidUntil build.solanaLastValidBlockHeight)
      (cryptoPayments (moduleRail primitives (request.secret :: request.additionalSecrets)) ext
        challenge terms.requirement terms.chain)
      (.approved terms none) := by
  unfold cryptoPayments
  dsimp only
  cases on : terms.chain with
  | solana =>
    refine leads_bind (P := fun _ stage => stage = .approved terms none) ?_ ?_
    · refine leads_bind (signerAccount_follows on) ?_
      rintro found stage rfl
      exact leads_checked rfl fun _ _ => rfl
    rintro account stage rfl
    refine leads_bind (P := fun _ stage => stage = .approved terms none)
      (leads_checked rfl fun _ _ => rfl) ?_
    rintro pubkey stage rfl
    refine leads_bind (buildSolanaPayment_follows on) ?_
    intro built stage h
    exact .pure h
  | evm =>
    refine leads_bind (buildEvmPayment_follows on) ?_
    intro payload stage h
    exact .pure h

/-- What paying returns, of the payment that was signed. -/
structure Paid (ext : Crates) (terms : Terms) (payload : PaymentPayload) (url : String)
    (result : X402PaymentResult) : Prop where
  header : result.headerValue = encodePayment ext.codec payload
  amount : result.amountAtomic = terms.amount
  asset : result.asset = terms.requirement.asset
  recipient : result.recipient = terms.requirement.payTo
  network : result.network = terms.requirement.network
  url : result.url = url
  reservation : result.reservation = terms.reservation

/-- Paying has left one signed message behind it. -/
def PaidFor (primitives : Primitives) (ext : Crates) (url : String) (result : X402PaymentResult)
    (stage : Stage) : Prop :=
  ∃ terms payload, Paid ext terms payload url result ∧
    BuiltFor primitives ext terms payload result.authorizationValidUntil
      result.solanaLastValidBlockHeight stage

/-- Nothing is in hand, nor was anything paid. -/
def Free (stage : Stage) : Prop := stage = .idle ∨ stage = .closed

theorem authorizePayment_follows {owner : Option Wire.QuoteOwner} {url : String} :
    Follows (protocol ext sessionId request)
      (During terms fun (_ : Unit) stage => stage = .approved terms none)
      (authorizePayment owner url terms.requirement terms.chain terms.amount)
      (.held terms.reservation terms.amount) := by
  refine follows_ask fun r _ => ?_
  by_cases happroved : Approved r
  · refine ⟨_, .approved happroved, ?_⟩
    obtain ⟨authorization, rfl, hyes⟩ := happroved
    simp [hyes, During, Leads]
  · refine ⟨_, .unapproved happroved, ?_⟩
    rcases r with _ | _ | authorization
    · rfl
    · rfl
    · have hno : authorization.approved = false := by
        rw [← Bool.not_eq_true]
        exact fun hyes => happroved ⟨authorization, rfl, hyes⟩
      simp [hno, During, Leads, Stage.holds]

theorem pay_follows {selected : Selected} {url : String}
    (requirement : selected.requirement = terms.requirement)
    (chain : selected.chain = terms.chain) :
    Follows (protocol ext sessionId request) (During terms (PaidFor primitives ext url))
      ((modulePayer primitives ext request.owner
        (request.secret :: request.additionalSecrets)).pay ext.codec selected url terms.amount
        terms.reservation)
      (.held terms.reservation terms.amount) := by
  unfold Payer.pay
  dsimp only
  rw [requirement, chain]
  refine leads_bind authorizePayment_follows ?_
  rintro - stage rfl
  refine leads_bind cryptoPayments_follows ?_
  intro build stage built
  exact .pure ⟨terms, build.payload, ⟨rfl, rfl, rfl, rfl, rfl, rfl, rfl⟩, built⟩

theorem handle402AndPay_follows {headers : HeaderMap} {url : String} :
    Follows (protocol ext sessionId request) (Leads Free (PaidFor primitives ext url))
      (handle402AndPayAuthorized (modulePayer primitives ext request.owner
        (request.secret :: request.additionalSecrets)).toPayer ext.codec headers url)
      .idle := by
  refine handle402AndPay_leads (.inl rfl) (leads_quiet trivial (.inl rfl) fun _ _ _ => rfl) ?_
  intro selected amount offered hread
  refine follows_ask fun r _ => ?_
  rcases r with e | refusal | id
  · exact ⟨.idle, .refused (by simp), .inl rfl⟩
  · exact ⟨.idle, .refused (by simp), .inl rfl⟩
  · refine ⟨.held id amount, .granted, ?_⟩
    let terms : Terms := ⟨id, amount, selected.requirement, selected.chain,
      handle402_payable offered, hread⟩
    have paid : Follows (protocol ext sessionId request)
        (During terms (PaidFor primitives ext url))
        ((modulePayer primitives ext request.owner
          (request.secret :: request.additionalSecrets)).pay ext.codec selected url amount id)
        (.held id amount) := pay_follows rfl rfl
    refine holding_leads paid fun stage held => ?_
    exact follows_ask fun r _ => ⟨_, .release held, .inr rfl⟩

/-- How the admitted part of a call ends. -/
abbrev Finishes (primitives : Primitives) (ext : Crates) :
    Except (Stop String) X402PreparePaymentResponse → Stage → Prop :=
  Leads Free (Recorded primitives ext)

theorem prepareAdmitted_follows {headers : HeaderMap} :
    Follows (protocol ext sessionId request) (Finishes primitives ext)
      ((modulePayer primitives ext request.owner
        (request.secret :: request.additionalSecrets)).prepareAdmitted ext.codec request headers
        sessionId)
      .idle := by
  unfold Runtime.prepareAdmitted
  refine leads_bind (P := fun _ stage => stage = .idle)
    (leads_described (leads_quiet trivial (.inl rfl) fun _ _ _ => rfl)) ?_
  rintro - stage rfl
  refine leads_bind
    (leads_answered PaymentRequest.ensureCapacity fun _ => Advances.quiet trivial) ?_
  rintro capacity stage rfl
  refine leads_bind (P := fun _ stage => stage = .idle) (leads_asked (.inl rfl) fun _ _ => rfl) ?_
  rintro - stage rfl
  refine leads_bind (leads_described handle402AndPay_follows) ?_
  rintro result stage ⟨terms, payload, paid, content, signature, rfl, carries, dated⟩
  refine leads_bind (leads_answered PaymentRequest.newPaymentId fun _ => Advances.quiet trivial) ?_
  rintro paymentId stage rfl
  refine leads_bind (leads_answered PaymentRequest.utcNow fun _ => Advances.quiet trivial) ?_
  rintro now stage rfl
  have describes : Describes request sessionId terms content
      (pendingRecord request sessionId paymentId result now) :=
    ⟨paid.amount, paid.asset, paid.recipient, paid.network, dated, rfl, paid.url, rfl⟩
  rw [paid.reservation]
  refine follows_bind (follows_ask fun r _ => ⟨_, .commit describes, ?_⟩)
  cases r with
  | error e => exact .fail (.inr rfl)
  | ok u =>
    refine .pure ⟨terms, content, signature, _, payload, rfl, carries, ?_⟩
    rw [paid.header]
    rfl

theorem admitted_follows {secrets : List Wire.SecretMaterial}
    {body : Paying String X402PreparePaymentResponse}
    (h : Follows (protocol ext sessionId request) (Finishes primitives ext) body stage) :
    Follows (protocol ext sessionId request) (Finishes primitives ext)
      ((modulePayer primitives ext request.owner secrets).admitted body) stage := by
  unfold Runtime.admitted
  refine follows_bind (follows_attempt (follows_mono ?_ h))
  intro result stage' hresult
  refine follows_bind (follows_ask fun r _ => ⟨stage', .quiet trivial, ?_⟩)
  exact follows_lift hresult

theorem takeRequestSecrets_ok {secrets : List Wire.SecretMaterial}
    (h : takeRequestSecrets request = .ok secrets) :
    secrets = request.secret :: request.additionalSecrets := by
  rw [takeRequestSecrets] at h
  split_ifs at h with hdistinct
  exact (Except.ok.inj h).symm

end Steps

/-- What is held, shown to the one who approves, signed, written in the header
and recorded is one payment, in every run of a call, however the run ends. -/
theorem one_payment_throughout (primitives : Primitives) (ext : Crates) (sessionId : String)
    (request : X402PreparePaymentRequest) :
    Follows (protocol ext sessionId request) (Finishes primitives ext)
      (preparePayment primitives ext sessionId request) .idle := by
  rw [preparePayment]
  refine leads_bind (P := fun secrets stage => stage = .idle ∧
    secrets = request.secret :: request.additionalSecrets)
    (leads_asked (.inl rfl) fun secrets h => ⟨rfl, takeRequestSecrets_ok h⟩) ?_
  rintro secrets stage ⟨rfl, rfl⟩
  refine leads_bind (P := fun _ stage => stage = .idle) (leads_asked (.inl rfl) fun _ _ => rfl) ?_
  rintro headers stage rfl
  unfold Runtime.prepare
  refine leads_bind (leads_answered PaymentRequest.beginPending fun _ => Advances.quiet trivial) ?_
  rintro admission stage rfl
  refine leads_bind (P := fun _ stage => stage = .idle) (leads_asked (.inl rfl) fun _ _ => rfl) ?_
  rintro - stage rfl
  exact admitted_follows prepareAdmitted_follows

end SamePayment
