import TinyWallet.X402.Selection
import TinyWallet.X402.TypedData

/-!
# Payments on EVM networks

The authorization that is signed, and the proof that carries it: the transfer
is written out as texts beside the signature. Who holds the proof recomputes
the digest from these texts and from the accepted option, and finds the one
that was signed.
-/

namespace EvmPayment

open RustText Rlp Digests X402Wire TypedData

/-- The 20 raw bytes of an EVM address. -/
def evmAddressBytes (address : String) : Except X402Error Address20 :=
  match Address.Evm.validate address with
  | .error e => .error (.protocol ("invalid EVM address '" ++ address ++ "': " ++ e.text))
  | .ok validated =>
    match hexDecode (Address.Evm.stripAddress validated).toList with
    | none => .error (.protocol ("invalid EVM address '" ++ address ++ "'"))
    | some bytes =>
      if h : bytes.length = 20 then .ok ⟨bytes, h⟩
      else .error (.protocol ("invalid EVM address '" ++ address ++ "'"))

structure EvmPaymentAuthorization where
  digest : U256Bytes
  nonce : U256Bytes
  validAfterSecs : BitVec 64
  validBeforeSecs : BitVec 64

def notEvm (requirement : PaymentRequirements) : X402Error :=
  .protocol ("not an EVM network: " ++ requirement.network)

/-- `evm_chain_id`, or the error of its absence. -/
def requireChainId (requirement : PaymentRequirements) : Except X402Error (BitVec 64) :=
  match requirement.evmChainId with
  | some id => .ok id
  | none => .error (notEvm requirement)

def domainName (requirement : PaymentRequirements) : String :=
  (requirement.extra.bind PaymentExtra.name).getD "USD Coin"

def domainVersion (requirement : PaymentRequirements) : String :=
  (requirement.extra.bind PaymentExtra.version).getD "2"

/-- `u64::saturating_add`. -/
def saturatingAdd (a b : BitVec 64) : BitVec 64 :=
  if a.toNat + b.toNat < 2 ^ 64 then a + b else BitVec.allOnes 64

/-- `now` is the clock in seconds, `nonce` a fresh one. -/
def evmPaymentAuthorization (keccak : Keccak) (fromAddress : String)
    (requirement : PaymentRequirements) (now : BitVec 64) (nonce : U256Bytes) :
    Except X402Error EvmPaymentAuthorization := do
  let chainId ← requireChainId requirement
  let amount ← (u256FromDecimal requirement.amount).mapError fun e =>
    .protocol ("invalid amount '" ++ requirement.amount ++ "': " ++ e.text)
  let fromBytes ← evmAddressBytes fromAddress
  let payTo ← evmAddressBytes requirement.payTo
  let tokenAddress ← evmAddressBytes requirement.asset
  let validAfter := u256FromU64 0
  let validBeforeSecs := saturatingAdd now requirement.maxTimeoutSeconds
  let validBefore := u256FromU64 validBeforeSecs
  let separator := domainSeparator keccak tokenAddress chainId (domainName requirement)
    (domainVersion requirement)
  let structHash := transferWithAuthorizationHash keccak fromBytes payTo amount validAfter
    validBefore nonce
  .ok ⟨signingDigest keccak separator structHash, nonce, 0, validBeforeSecs⟩

/-- `r ‖ s ‖ recovery_id` as `r ‖ s ‖ v`. -/
def eip712Signature (signature : List UInt8) : Except X402Error (List UInt8) :=
  match signature.drop 64 with
  | [recoveryId] =>
    if recoveryId.toNat + 27 < 256 then .ok (signature.take 64 ++ [recoveryId + 27])
    else .error (.wallet "recovery id out of range")
  | _ => .error (.wallet "the wallet module returned a malformed signature")

def evmPaymentPayload (authorization : EvmPaymentAuthorization) (sigBytes : List UInt8)
    (fromAddress : String) (challenge : PaymentRequired) (requirement : PaymentRequirements) :
    Except X402Error PaymentPayload := do
  let _ ← requireChainId requirement
  .ok
    { x402Version := x402Version
      resource := some challenge.resource
      accepted := requirement
      payload := .evm
        { signature := "0x" ++ hexLower sigBytes
          authorization :=
            { fromAddress := fromAddress
              toAddress := requirement.payTo
              value := requirement.amount
              validAfter := toString authorization.validAfterSecs.toNat
              validBefore := toString authorization.validBeforeSecs.toNat
              nonce := "0x" ++ hexLower authorization.nonce.val } }
      extensions := ∅ }

/-- The token of an option. -/
def domainOf (requirement : PaymentRequirements) : Option Domain := do
  let chainId ← requirement.evmChainId
  let contract ← (evmAddressBytes requirement.asset).toOption
  some ⟨contract, chainId, domainName requirement, domainVersion requirement⟩

/-- The transfer that an option asks of `fromAddress`, from now on. -/
structure Requested (fromAddress : String) (requirement : PaymentRequirements)
    (validBefore : BitVec 64) (nonce : U256Bytes) (transfer : Transfer) : Prop where
  payer : evmAddressBytes fromAddress = .ok transfer.fromAddress
  payTo : evmAddressBytes requirement.payTo = .ok transfer.toAddress
  value : u256FromDecimal requirement.amount = .ok transfer.value
  validAfter : transfer.validAfter = u256FromU64 0
  validBefore : transfer.validBefore = u256FromU64 validBefore
  nonce : transfer.nonce = nonce

theorem requireChainId_ok {requirement : PaymentRequirements} {id : BitVec 64} :
    requireChainId requirement = .ok id ↔ requirement.evmChainId = some id := by
  rw [requireChainId]
  cases requirement.evmChainId <;> simp

theorem evmPaymentAuthorization_ok {keccak : Keccak} {fromAddress : String}
    {requirement : PaymentRequirements} {now : BitVec 64} {nonce : U256Bytes}
    {authorization : EvmPaymentAuthorization}
    (h : evmPaymentAuthorization keccak fromAddress requirement now nonce = .ok authorization) :
    ∃ domain transfer, domainOf requirement = some domain ∧
      Requested fromAddress requirement (saturatingAdd now requirement.maxTimeoutSeconds) nonce
        transfer ∧
      authorization = ⟨digestOf keccak domain transfer, nonce, 0,
        saturatingAdd now requirement.maxTimeoutSeconds⟩ := by
  obtain ⟨chainId, hchain, h⟩ := bind_ok_iff.mp h
  obtain ⟨amount, hamount, h⟩ := bind_ok_iff.mp h
  obtain ⟨fromBytes, hfrom, h⟩ := bind_ok_iff.mp h
  obtain ⟨payTo, hpayTo, h⟩ := bind_ok_iff.mp h
  obtain ⟨token, htoken, h⟩ := bind_ok_iff.mp h
  have hid := requireChainId_ok.mp hchain
  refine ⟨⟨token, chainId, domainName requirement, domainVersion requirement⟩,
    ⟨fromBytes, payTo, amount, u256FromU64 0,
      u256FromU64 (saturatingAdd now requirement.maxTimeoutSeconds), nonce⟩, ?_,
    ⟨hfrom, hpayTo, mapError_ok hamount, rfl, rfl, rfl⟩, (Except.ok.inj h).symm⟩
  simp [domainOf, hid, htoken, Except.toOption]

def readNonce (nonce : String) : Option U256Bytes :=
  ((strip "0x" nonce).bind fun digits => hexDecode digits.toList).bind fun bytes =>
    if h : bytes.length = 32 then some ⟨bytes, h⟩ else none

/-- The transfer that the texts of a proof spell. -/
def transferOf (a : EvmAuthorization) : Option Transfer := do
  let fromAddress ← (evmAddressBytes a.fromAddress).toOption
  let toAddress ← (evmAddressBytes a.toAddress).toOption
  let value ← (u256FromDecimal a.value).toOption
  let validAfter ← (u256FromDecimal a.validAfter).toOption
  let validBefore ← (u256FromDecimal a.validBefore).toOption
  let nonce ← readNonce a.nonce
  some ⟨fromAddress, toAddress, value, validAfter, validBefore, nonce⟩

theorem u256FromDecimal_ok_iff {text : String} {word : U256Bytes} :
    u256FromDecimal text = .ok word ↔ Erc20.u256FromDecimal text = .ok word.val := by
  rw [u256FromDecimal]
  split
  · next e he =>
    rw [he]
    constructor <;> intro h <;> cases h
  · next bytes hbytes =>
    constructor
    · intro h
      rw [hbytes, ← Except.ok.inj h]
    · intro h
      exact congrArg Except.ok (Subtype.ext (Except.ok.inj (hbytes.symm.trans h)))

theorem value_toString (n : Nat) : Erc20.value (toString n) = n := by
  rw [Erc20.value, Numerals.toList_toString, Nat.ofDigitChars_ten_toDigits]

/-- A printed number is read as its word. -/
theorem u256FromDecimal_toString (n : BitVec 64) :
    u256FromDecimal (toString n.toNat) = .ok (u256FromU64 n) := by
  have hsmall : n.toNat < 256 ^ 8 := lt_of_lt_of_eq n.isLt (by norm_num)
  have hfits : Erc20.Fits (toString n.toNat) := by
    refine ⟨?_, ?_, ?_⟩
    · intro hempty
      have hdigits := congrArg String.toList hempty
      rw [Numerals.toList_toString] at hdigits
      exact Nat.toDigits_ne_nil hdigits
    · intro c hc
      rw [Numerals.toList_toString] at hc
      exact Numerals.toDigits_digit hc
    · rw [value_toString]
      exact lt_trans n.isLt (by norm_num)
  rw [u256FromDecimal_ok_iff, Erc20.u256FromDecimal_iff, Numerals.trim_toString]
  refine ⟨hfits, ?_⟩
  rw [value_toString]
  exact (toBe_pad 24 8 hsmall).symm

theorem strip_append (p t : String) : strip p (p ++ t) = some t := by
  have hstarts : p.toList.isPrefixOf (p ++ t).toList = true := by
    rw [String.toList_append]
    exact List.isPrefixOf_iff_prefix.mpr (List.prefix_append _ _)
  rw [strip, if_pos hstarts, String.toList_append, List.drop_left, String.ofList_toList]

theorem readNonce_hex (nonce : U256Bytes) :
    readNonce ("0x" ++ hexLower nonce.val) = some nonce := by
  simp [readNonce, strip_append, Numerals.hexDecode_hexLower, nonce.2]

/-- The texts of the proof spell the transfer that was asked for. -/
theorem evmPaymentPayload_spells {digest nonce : U256Bytes} {validBefore : BitVec 64}
    {sigBytes : List UInt8} {fromAddress : String} {challenge : PaymentRequired}
    {requirement : PaymentRequirements} {transfer : Transfer} {payload : PaymentPayload}
    (requested : Requested fromAddress requirement validBefore nonce transfer)
    (h : evmPaymentPayload ⟨digest, nonce, 0, validBefore⟩ sigBytes fromAddress challenge
      requirement = .ok payload) :
    payload.accepted = requirement ∧ ∃ proof, payload.payload = .evm proof ∧
      proof.signature = "0x" ++ hexLower sigBytes ∧
      transferOf proof.authorization = some transfer ∧
      proof.authorization.validBefore = toString validBefore.toNat := by
  obtain ⟨-, -, hpayload⟩ := bind_ok_iff.mp h
  obtain rfl := Except.ok.inj hpayload
  refine ⟨rfl, _, rfl, rfl, ?_, rfl⟩
  have hzero := u256FromDecimal_toString 0
  have hbefore := u256FromDecimal_toString validBefore
  simp only [transferOf, requested.payer, requested.payTo, requested.value, hzero, hbefore,
    readNonce_hex, Except.toOption, bind, Option.bind]
  rw [← requested.validAfter, ← requested.validBefore, ← requested.nonce]

theorem toNat_inj {c d : Char} (h : c.toNat = d.toNat) : c = d :=
  Char.ext (UInt32.toNat_inj.mp h)

theorem isWhiteSpace_toLower (c : Char) : isWhiteSpace c.toLower = isWhiteSpace c := by
  have hlower := Numerals.toNat_toLower c
  by_cases hupper : 65 ≤ c.toNat ∧ c.toNat ≤ 90
  · rw [if_pos hupper] at hlower
    have hboth : isWhiteSpace c.toLower = false ∧ isWhiteSpace c = false := by
      simp only [isWhiteSpace, hlower]
      simp
      omega
    rw [hboth.1, hboth.2]
  · rw [if_neg hupper] at hlower
    rw [toNat_inj hlower]

theorem stripAddress_append (body : String) : Address.Evm.stripAddress ("0x" ++ body) = body := by
  rw [Address.Evm.stripAddress, strip_append]
  rfl

/-- An address, by its twenty bytes in hex. -/
theorem evmAddressBytes_ok_iff {address : String} {bytes : Address20} :
    evmAddressBytes address = .ok bytes ↔
      trim address ≠ "" ∧
        hexDecode (Address.Evm.stripAddress (trim address)).toList = some bytes.val := by
  constructor
  · intro h
    rw [evmAddressBytes] at h
    cases hvalid : Address.Evm.validate address with
    | error e =>
      rw [hvalid] at h
      cases h
    | ok validated =>
      rw [hvalid] at h
      obtain ⟨htrim, -, -⟩ := Address.Evm.validate_spec hvalid
      subst htrim
      have hsome : trim address ≠ "" := by
        intro hempty
        simp [Address.Evm.validate, hempty] at hvalid
      refine ⟨hsome, ?_⟩
      cases hdecode : hexDecode (Address.Evm.stripAddress (trim address)).toList with
      | none => simp [hdecode] at h
      | some decoded =>
        simp only [hdecode] at h
        split_ifs at h with hlength
        rw [← Except.ok.inj h]
  · rintro ⟨hsome, hdecode⟩
    have hdigits := Numerals.digits_of_hexDecode hdecode
    have hlength := Numerals.hexDecode_length hdecode
    have hbytes : byteLen (Address.Evm.stripAddress (trim address)).toList = 40 := by
      rw [Numerals.byteLen_of_hex hdigits]
      have := bytes.2
      omega
    have hfind : (Address.Evm.stripAddress (trim address)).toList.find?
        (fun c => !isAsciiHexDigit c) = none := by
      rw [List.find?_eq_none]
      intro c hc
      simpa using List.all_eq_true.mp hdigits c hc
    have hvalid : Address.Evm.validate address = .ok (trim address) := by
      simp [Address.Evm.validate, hsome, hbytes, Address.Evm.hexLen, hfind]
    simp [evmAddressBytes, hvalid, hdecode, bytes.2]

/-- Letter case is of no matter, behind the prefix. -/
theorem evmAddressBytes_caseless {body asset : String} {bytes : Address20}
    (digits : body.toList.all isAsciiHexDigit = true) (length : body.toList.length = 40)
    (same : ("0x" ++ body).toList.map Char.toLower = asset.toList.map Char.toLower)
    (h : evmAddressBytes asset = .ok bytes) : evmAddressBytes ("0x" ++ body) = .ok bytes := by
  have hplain : ∀ c ∈ ("0x" ++ body).toList, isWhiteSpace c = false := by
    intro c hc
    rw [String.toList_append, List.mem_append] at hc
    rcases hc with hc | hc
    · have hmarker : "0x".toList = ['0', 'x'] := rfl
      rw [hmarker] at hc
      rcases List.mem_pair.mp hc with rfl | rfl <;> decide
    · obtain ⟨d, hd⟩ := Numerals.hexValue_isSome (List.all_eq_true.mp digits c hc)
      have hdigit := (Numerals.hexValue_iff c d).mp hd
      simp [isWhiteSpace]
      omega
  have hspace : ∀ c ∈ asset.toList, isWhiteSpace c = false := by
    intro c hc
    have hmem : c.toLower ∈ ("0x" ++ body).toList.map Char.toLower := by
      rw [same]
      exact List.mem_map_of_mem hc
    obtain ⟨d, hd, heq⟩ := List.mem_map.mp hmem
    rw [← isWhiteSpace_toLower, ← heq, isWhiteSpace_toLower]
    exact hplain d hd
  have htrim : ∀ {text : String}, (∀ c ∈ text.toList, isWhiteSpace c = false) →
      trim text = text := by
    intro text htext
    rw [trim, trimChars_of_no_space htext, String.ofList_toList]
  obtain ⟨-, hdecode⟩ := evmAddressBytes_ok_iff.mp h
  rw [htrim hspace] at hdecode
  have hcount : asset.toList.length = 42 := by
    have hlengths := congrArg List.length same
    rw [List.length_map, List.length_map, String.toList_append, List.length_append,
      length] at hlengths
    exact hlengths.symm
  refine evmAddressBytes_ok_iff.mpr ⟨?_, ?_⟩
  · rw [htrim hplain]
    intro hempty
    have := congrArg (fun s => s.toList.length) hempty
    simp at this
  · rw [htrim hplain, stripAddress_append]
    cases hstrip : strip "0x" asset with
    | none =>
      rw [Address.Evm.stripAddress, hstrip, Option.getD_none] at hdecode
      have := Numerals.hexDecode_length hdecode
      have := bytes.2
      omega
    | some rest =>
      rw [Address.Evm.stripAddress, hstrip, Option.getD_some] at hdecode
      rw [Numerals.strip_eq hstrip, String.toList_append, String.toList_append, List.map_append,
        List.map_append] at same
      rw [← Numerals.hexDecode_toLower, List.append_cancel_left same, Numerals.hexDecode_toLower,
        hdecode]

/-- Every payable EVM network is named by its chain id and pays in an address. -/
theorem supported_evm : ∀ entry ∈ PaymentSelection.supportedUsdc,
    "eip155:".toList <+: entry.1.toList →
      ∃ id : BitVec 64, entry.1 = "eip155:" ++ toString id.toNat ∧
        ∃ body, entry.2 = "0x" ++ body ∧ body.toList.all isAsciiHexDigit = true ∧
          body.toList.length = 40 := by
  simp only [PaymentSelection.supportedUsdc, List.forall_mem_cons]
  refine ⟨fun h => absurd h (by decide +kernel), fun h => absurd h (by decide +kernel), ?_, ?_, ?_,
    by simp⟩
  · exact fun _ => ⟨8453, rfl, "833589fCD6eDb6E08f4c7C32D4f71b54bdA02913", rfl, by decide +kernel,
      by decide +kernel⟩
  · exact fun _ => ⟨84532, rfl, "036CbD53842c5426634e7929541eC2318f3dCF7e", rfl, by decide +kernel,
      by decide +kernel⟩
  · exact fun _ => ⟨1, rfl, "A0b86991c6218b36c1d19D4a2e9Eb0cE3606eB48", rfl, by decide +kernel,
      by decide +kernel⟩

theorem evmChainId_printed {requirement : PaymentRequirements} {id : BitVec 64}
    (h : requirement.network = "eip155:" ++ toString id.toNat) :
    requirement.evmChainId = some id := by
  rw [PaymentRequirements.evmChainId, h, strip_append, Option.bind_some, parseU64,
    Numerals.parseRadix_toString id.isLt]
  simp [Except.toOption]

/-- The domain of a payable option is the network's USDC. -/
theorem domain_of_usdc {requirement : PaymentRequirements} {domain : Domain}
    (usdc : PaymentSelection.PayableOn .evm requirement)
    (h : domainOf requirement = some domain) :
    requirement.network = "eip155:" ++ toString domain.chainId.toNat ∧
      ∃ contract, (requirement.network, contract) ∈ PaymentSelection.supportedUsdc ∧
        evmAddressBytes contract = .ok domain.verifyingContract := by
  obtain ⟨⟨-, hfamily⟩, contract, hmem, hsame⟩ := usdc
  obtain ⟨id, hnetwork, body, hcontract, hdigits, hlength⟩ := supported_evm _ hmem hfamily
  dsimp only at hcontract hnetwork
  have hchain := evmChainId_printed hnetwork
  cases hbytes : evmAddressBytes requirement.asset with
  | error e => simp [domainOf, hchain, hbytes, Except.toOption] at h
  | ok bytes =>
    simp [domainOf, hchain, hbytes, Except.toOption] at h
    subst h
    refine ⟨hnetwork, contract, hmem, ?_⟩
    subst hcontract
    rcases hsame with hsame | ⟨-, hsame⟩
    · have hasset : "0x" ++ body = requirement.asset := hsame
      rw [hasset]
      exact hbytes
    · exact evmAddressBytes_caseless hdigits hlength hsame hbytes

end EvmPayment
